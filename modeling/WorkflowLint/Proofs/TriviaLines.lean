/-
Lines of trivia make no difference to where things are found.

`insertLine` puts a line into a text. If the line is blank or only a comment, the rows below it are moved down by one and their
keys by the bytes of the line, and one row of trivia comes in between: an `Insertion`. Lookups do not see it. They take it
into a block or leave it out without looking at its indentation (`bodyOf_rows`), they pass over it when they look for the
indentation of the children (`childIndent?_rows`), and it declares nothing (`firstNamed_rows`). So each step of a lookup finds
the same header, moved, and the same body, with the row in it if it belongs there, and so does a path of any length
(`descend_rows`).

`trivia_lines_invisible` says what this comes to. A line just behind the last one of a block belongs to the block, whatever
its indentation: a block ends before a line that is no trivia, not behind its own last one.
-/
import Mathlib.Data.List.InsertIdx
import WorkflowLint.Proofs.KeyRanges

namespace WorkflowLint

open WorkflowLint.Text

/-! ## Texts and their lines -/

/-- the lines of a text, without the line feeds between them -/
def lineTexts (text : List Char) : List (List Char) :=
  (linesFrom 0 text).map Line.chars

/-- the text with one more line before the line with the number `k`, or behind the last one if there are `k` lines -/
def insertLine (k : Nat) (line text : List Char) : List Char :=
  joinLines ((lineTexts text).insertIdx k line)

theorem joinLines_map_chars (start : Nat) (text : List Char) : joinLines ((linesFrom start text).map Line.chars) = text := by
  induction text using line_induction generalizing start with
  | last line hline =>
    rw [linesFrom_of_not_mem start hline]
    rfl
  | next line rest hline ih =>
    have hrest := ih (start + utf8Length line + 1)
    obtain ⟨chars, lines, hlines, -⟩ := linesFrom_eq_cons (start + utf8Length line + 1) rest
    rw [linesFrom_append start rest hline]
    rw [hlines, List.map_cons] at hrest ⊢
    rw [List.map_cons, joinLines, hrest]

/-- A text is made of its lines. -/
theorem joinLines_lineTexts (text : List Char) : joinLines (lineTexts text) = text :=
  joinLines_map_chars 0 text

theorem map_chars_joinLines {lines : List (List Char)} (start : Nat) (hne : lines ≠ []) (h : ∀ line ∈ lines, '\n' ∉ line) :
    (linesFrom start (joinLines lines)).map Line.chars = lines := by
  induction lines generalizing start with
  | nil => exact absurd rfl hne
  | cons line lines ih =>
    obtain ⟨hline, hlines⟩ := List.forall_mem_cons.1 h
    cases lines with
    | nil => rw [joinLines, linesFrom_of_not_mem start hline, List.map_singleton]
    | cons next lines => rw [joinLines, linesFrom_append start _ hline, List.map_cons, ih _ (List.cons_ne_nil _ _) hlines]

theorem not_mem_lineTexts {text line : List Char} (h : line ∈ lineTexts text) : '\n' ∉ line := by
  obtain ⟨other, hother, rfl⟩ := List.mem_map.1 h
  obtain ⟨k, hk⟩ := List.getElem?_of_mem hother
  obtain ⟨-, -, -, -, -, -, hfeed⟩ := linesFrom_below hk
  exact hfeed

theorem lineTexts_ne_nil (text : List Char) : lineTexts text ≠ [] := by
  obtain ⟨chars, lines, hlines, -⟩ := linesFrom_eq_cons 0 text
  simp [lineTexts, hlines]

/-- The lines of the longer text are those of the text, with the new one among them. -/
theorem lineTexts_insertLine {line : List Char} (k : Nat) (text : List Char) (hline : '\n' ∉ line) :
    lineTexts (insertLine k line text) = (lineTexts text).insertIdx k line := by
  refine map_chars_joinLines 0 ?_ ?_
  · intro hnil
    exact lineTexts_ne_nil text (List.subset_nil.1 (hnil ▸ List.subset_insertIdx _ k line))
  · intro other hother
    rcases List.eq_or_mem_of_mem_insertIdx hother with rfl | hmem
    · exact hline
    · exact not_mem_lineTexts hmem

theorem getElem?_lineTexts_insertLine {line : List Char} (k : Nat) (text : List Char) (hline : '\n' ∉ line) (n : Nat) :
    (lineTexts (insertLine k line text))[n + if k ≤ n then 1 else 0]? = (lineTexts text)[n]? := by
  rw [lineTexts_insertLine k text hline]
  split
  case isTrue hle =>
    have hgt : k < n + 1 := Nat.lt_succ_of_le hle
    rw [List.getElem?_insertIdx_of_gt hgt, Nat.add_sub_cancel]
  case isFalse hlt => rw [Nat.add_zero, List.getElem?_insertIdx_of_lt (Nat.lt_of_not_le hlt)]

/-- the position of the same place after a line was put in before line `k` -/
def Position.lower (k : Nat) (p : Position) : Position :=
  ⟨p.line + if k ≤ p.line then 1 else 0, p.character⟩

/-- the range of the same place after a line was put in before line `k` -/
def Range.lower (k : Nat) (range : Range) : Range :=
  ⟨range.start.lower k, range.stop.lower k⟩

namespace Layout

/-! ## Rows with one more among them -/

/-- a row of trivia that is put in before the line with the number `place` -/
structure Insertion where
  place : Nat
  row : Row
  /-- the bytes that it takes up in the document -/
  bytes : Nat
  isTrivia : row.isTrivia = true
  key : row.key = none

/-- the rows have the numbers from `n` on -/
def Numbered : Nat → List Row → Prop
  | _, [] => True
  | n, row :: rows => row.number = n ∧ Numbered (n + 1) rows

namespace Insertion

variable (ins : Insertion)

/-- a row of the document after the insertion -/
def move (row : Row) : Row :=
  if row.number < ins.place then row
  else
    { row with
      number := row.number + 1
      key := row.key.map fun key => ⟨key.text, key.start + ins.bytes, key.stop + ins.bytes⟩ }

/-- what is put in before the line with the number `n` -/
def before (n : Nat) : List Row :=
  if n = ins.place then [ins.row] else []

/-- the rows from the line with the number `n` on, after the insertion -/
def rows (n : Nat) : List Row → List Row
  | [] => ins.before n
  | row :: rest => ins.before n ++ ins.move row :: rows (n + 1) rest

/-- a block of the document after the insertion -/
def block (block : Block) : Block :=
  ⟨ins.move block.header, ins.rows (block.header.number + 1) block.body⟩

@[simp] theorem move_indent (row : Row) : (ins.move row).indent = row.indent := by
  unfold move
  split <;> rfl

@[simp] theorem move_isTrivia (row : Row) : (ins.move row).isTrivia = row.isTrivia := by
  unfold move
  split <;> rfl

@[simp] theorem move_declares (row : Row) (name : String) : (ins.move row).declares name = row.declares name := by
  unfold move
  split
  case isTrue => rfl
  case isFalse =>
    unfold Row.declares
    cases row.key with
    | none => rfl
    | some key => rfl

theorem move_number (row : Row) :
    (ins.move row).number = row.number + if ins.place ≤ row.number then 1 else 0 := by
  unfold move
  split
  case isTrue h => rw [if_neg (Nat.not_le.2 h), Nat.add_zero]
  case isFalse h => rw [if_pos (Nat.le_of_not_lt h)]

theorem eq_of_mem_before {n : Nat} {row : Row} (h : row ∈ ins.before n) : row = ins.row := by
  unfold before at h
  split at h
  case isTrue => exact List.mem_singleton.1 h
  case isFalse => exact absurd h List.not_mem_nil

theorem isTrivia_of_mem_before {n : Nat} {row : Row} (h : row ∈ ins.before n) : row.isTrivia = true := by
  rw [ins.eq_of_mem_before h]
  exact ins.isTrivia

theorem not_declares_of_mem_before {n : Nat} {row : Row} (h : row ∈ ins.before n) (name : String) :
    row.declares name = false := by
  rw [ins.eq_of_mem_before h, Row.declares, ins.key]

/-! ## Lookups -/

theorem bodyOf_rows (indent n : Nat) (rows : List Row) : bodyOf indent (ins.rows n rows) = ins.rows n (bodyOf indent rows) := by
  have hbefore (n : Nat) (rest : List Row) : bodyOf indent (ins.before n ++ rest) = ins.before n ++ bodyOf indent rest :=
    bodyOf_append fun row hrow => Or.inl (ins.isTrivia_of_mem_before hrow)
  induction rows generalizing n with
  | nil =>
    have hnil : bodyOf indent (ins.before n ++ []) = ins.before n ++ [] := hbefore n []
    rwa [List.append_nil] at hnil
  | cons row rows ih =>
    rw [Insertion.rows, hbefore, bodyOf, bodyOf, List.takeWhile_cons, List.takeWhile_cons, move_isTrivia, move_indent]
    split
    case isTrue => rw [Insertion.rows, ← bodyOf, ih, bodyOf]
    case isFalse => rw [Insertion.rows, List.append_nil]

theorem childIndent?_rows (n : Nat) (rows : List Row) : childIndent? (ins.rows n rows) = childIndent? rows := by
  induction rows generalizing n with
  | nil =>
    have hnil := childIndent?_append [] fun row (hrow : row ∈ ins.before n) => ins.isTrivia_of_mem_before hrow
    rwa [List.append_nil] at hnil
  | cons row rows ih =>
    rw [Insertion.rows, childIndent?_append _ fun row hrow => ins.isTrivia_of_mem_before hrow]
    cases htrivia : row.isTrivia with
    | true =>
      have hskip : ∀ other ∈ [row], other.isTrivia = true := List.forall_mem_singleton.2 htrivia
      have hskip' : ∀ other ∈ [ins.move row], other.isTrivia = true :=
        List.forall_mem_singleton.2 ((ins.move_isTrivia row).trans htrivia)
      exact (childIndent?_append _ hskip').trans ((ih _).trans (childIndent?_append rows hskip).symm)
    | false =>
      rw [childIndent?_cons _ htrivia, childIndent?_cons _ ((ins.move_isTrivia row).trans htrivia), move_indent]

theorem firstNamed_rows (indent : Nat) (name : String) {n : Nat} {rows : List Row} (hn : Numbered n rows) :
    firstNamed indent name (ins.rows n rows) = (firstNamed indent name rows).map ins.block := by
  have hbefore (n : Nat) (rest : List Row) :
      firstNamed indent name (ins.before n ++ rest) = firstNamed indent name rest :=
    firstNamed_append rest fun row hrow _ => ins.not_declares_of_mem_before hrow name
  induction rows generalizing n with
  | nil =>
    have hnil := hbefore n []
    rwa [List.append_nil] at hnil
  | cons row rows ih =>
    rw [Insertion.rows, hbefore, firstNamed, firstNamed, move_indent, move_declares]
    split
    case isTrue => rw [Option.map_some, block, hn.1, bodyOf_rows]
    case isFalse => exact ih hn.2

theorem child?_rows (name : String) {n : Nat} {rows : List Row} (hn : Numbered n rows) :
    child? name (ins.rows n rows) = (child? name rows).map ins.block := by
  rw [child?, child?, childIndent?_rows]
  cases childIndent? rows with
  | none => rfl
  | some indent => exact ins.firstNamed_rows indent name hn

end Insertion

theorem Numbered.bodyOf {n : Nat} {rows : List Row} (hn : Numbered n rows) (indent : Nat) :
    Numbered n (bodyOf indent rows) := by
  induction rows generalizing n with
  | nil => trivial
  | cons row rows ih =>
    rw [Layout.bodyOf, List.takeWhile_cons]
    split
    case isTrue => exact ⟨hn.1, ih hn.2⟩
    case isFalse => trivial

theorem Numbered.firstNamed {indent n : Nat} {name : String} {rows : List Row} {block : Block} (hn : Numbered n rows)
    (h : firstNamed indent name rows = some block) : Numbered (block.header.number + 1) block.body := by
  induction rows generalizing n with
  | nil => simp [Layout.firstNamed] at h
  | cons row rows ih =>
    rw [Layout.firstNamed] at h
    split at h
    case isTrue =>
      obtain rfl := Option.some.inj h
      rw [hn.1]
      exact hn.2.bodyOf _
    case isFalse => exact ih hn.2 h

theorem Numbered.child? {n : Nat} {name : String} {rows : List Row} {block : Block} (hn : Numbered n rows)
    (h : child? name rows = some block) : Numbered (block.header.number + 1) block.body := by
  obtain ⟨indent, -, hfirst⟩ := Option.bind_eq_some_iff.1 h
  exact hn.firstNamed hfirst

/-- A path leads to the same header, by induction along the path: the rows that the rest of it goes through are those of the
block, after the insertion. -/
theorem Insertion.descend_rows (ins : Insertion) (path : List String) {n : Nat} {rows : List Row} (hn : Numbered n rows) :
    descend path (ins.rows n rows) = (descend path rows).map ins.block := by
  fun_induction descend path rows generalizing n with
  | case1 => rfl
  | case2 name rows => exact ins.child?_rows name hn
  | case3 name next path rows ih =>
    rw [descend, ins.child?_rows name hn]
    cases hchild : child? name rows with
    | none => rfl
    | some block => exact ih block (hn.child? hchild)

/-! ## Spans -/

theorem Insertion.length_before (ins : Insertion) (n : Nat) : (ins.before n).length = if n = ins.place then 1 else 0 := by
  unfold Insertion.before
  split <;> rfl

theorem Insertion.length_rows (ins : Insertion) (n : Nat) (rows : List Row) :
    (ins.rows n rows).length = rows.length + if n ≤ ins.place ∧ ins.place ≤ n + rows.length then 1 else 0 := by
  induction rows generalizing n with
  | nil =>
    rw [Insertion.rows, ins.length_before, List.length_nil]
    split_ifs <;> omega
  | cons row rows ih =>
    rw [Insertion.rows, List.length_append, List.length_cons, ih, ins.length_before, List.length_cons]
    split_ifs <;> omega

/-- The span of a block after the insertion: the row is in it if it is put in anywhere from behind the header to just behind
the last line. -/
theorem Insertion.span_block (ins : Insertion) (block : Block) :
    (ins.block block).span =
      ⟨block.span.first + if ins.place ≤ block.span.first then 1 else 0,
        block.span.last + if ins.place ≤ block.span.last + 1 then 1 else 0⟩ := by
  have hlast : (ins.move block.header).number + (ins.rows (block.header.number + 1) block.body).length =
      block.header.number + block.body.length + if ins.place ≤ block.header.number + block.body.length + 1 then 1 else 0 := by
    rw [ins.move_number, ins.length_rows]
    split_ifs <;> omega
  exact congrArg₂ LineSpan.mk (ins.move_number block.header) hlast

/-! ## The rows of the longer text -/

theorem rows_eq_rowsAfter (text : List Char) : (Layout.ofText text).rows = rowsAfter [] (lineTexts text) := by
  have hrows := rows_ofText_joinLines (lineTexts_ne_nil text) fun line hline => not_mem_lineTexts hline
  rwa [joinLines_lineTexts] at hrows

theorem numbered_rowsAfter (before lines : List (List Char)) : Numbered before.length (rowsAfter before lines) := by
  induction lines generalizing before with
  | nil => trivial
  | cons line lines ih =>
    have hrest := ih (before ++ [line])
    rw [List.length_append] at hrest
    exact ⟨rfl, hrest⟩

theorem ofLine_of_isTrivia (n start : Nat) {line : List Char} (h : IsTrivia line) :
    Row.ofLine n ⟨start, line⟩ = ⟨n, indentOf line, true, none⟩ := by
  have hindent := ofLine_indent n ⟨start, line⟩
  have htrivia := (@ofLine_isTrivia_iff n ⟨start, line⟩).2 h
  have hkey := @ofLine_key_eq_none n ⟨start, line⟩ (Or.inl h)
  rw [← hindent, ← htrivia, ← hkey]
  rfl

/-- the insertion of a line of trivia -/
def Insertion.ofLine (k : Nat) (line : List Char) : Insertion :=
  ⟨k, ⟨k, indentOf line, true, none⟩, utf8Length line + 1, rfl, rfl⟩

section

variable (ins : Insertion)

/-- The row of a line from the place on: one line lower, and below so many more bytes. -/
theorem Insertion.move_ofLine {n : Nat} (start : Nat) (chars : List Char) (hn : ins.place ≤ n) :
    ins.move (Row.ofLine n ⟨start, chars⟩) = Row.ofLine (n + 1) ⟨start + ins.bytes, chars⟩ := by
  have hnumber : ¬ (Row.ofLine n ⟨start, chars⟩).number < ins.place := Nat.not_lt.2 hn
  have hkey : ((Row.ofLine n ⟨start, chars⟩).key.map fun key =>
      (⟨key.text, key.start + ins.bytes, key.stop + ins.bytes⟩ : KeySpan)) =
      (Row.ofLine (n + 1) ⟨start + ins.bytes, chars⟩).key := by
    rw [ofLine_key_eq n, ofLine_key_eq (n + 1), Option.map_map]
    simp only [Function.comp_def, Nat.add_right_comm start]
  rw [Insertion.move, if_neg hnumber, hkey]
  rfl

theorem Insertion.move_of_lt {row : Row} (h : row.number < ins.place) : ins.move row = row :=
  if_pos h

theorem Insertion.before_of_ne {n : Nat} (h : n ≠ ins.place) : ins.before n = [] :=
  if_neg h

/-- Behind the place all rows are moved. -/
theorem Insertion.rows_of_lt {n : Nat} (h : ins.place < n) (rows : List Row) : ins.rows n rows = rows.map ins.move := by
  induction rows generalizing n with
  | nil => exact ins.before_of_ne (Nat.ne_of_gt h)
  | cons row rows ih =>
    rw [Insertion.rows, ins.before_of_ne (Nat.ne_of_gt h), ih (Nat.lt_succ_of_lt h)]
    rfl

theorem Insertion.rows_place (rows : List Row) : ins.rows ins.place rows = ins.row :: rows.map ins.move := by
  cases rows with
  | nil => exact if_pos rfl
  | cons row rows =>
    rw [Insertion.rows, Insertion.before, if_pos rfl, ins.rows_of_lt (Nat.lt_succ_self _)]
    rfl

/-- The rows of lines from the place on, with one more line above them. -/
theorem Insertion.map_move_rowsAfter {above above' : List (List Char)} (lines : List (List Char))
    (hplace : ins.place ≤ above.length) (hlength : above'.length = above.length + 1)
    (hbytes : utf8Length (closedLines above') = utf8Length (closedLines above) + ins.bytes) :
    (rowsAfter above lines).map ins.move = rowsAfter above' lines := by
  induction lines generalizing above above' with
  | nil => rfl
  | cons line lines ih =>
    have hrest : (rowsAfter (above ++ [line]) lines).map ins.move = rowsAfter (above' ++ [line]) lines := by
      apply ih
      · rw [List.length_append]
        exact Nat.le_add_right_of_le hplace
      · rw [List.length_append, List.length_append, hlength, Nat.add_right_comm]
      · simp only [closedLines, List.flatMap_append, utf8Length_append] at hbytes ⊢
        rw [hbytes, Nat.add_right_comm]
    rw [rowsAfter, rowsAfter, List.map_cons, ins.move_ofLine _ _ hplace, hrest, hlength, hbytes]

end

/-- The rows of lines with one of trivia among them, by induction on the lines above the place. -/
theorem rowsAfter_insertIdx {line : List Char} (h : IsTrivia line) (above : List (List Char)) (k : Nat)
    (lines : List (List Char)) :
    rowsAfter above (lines.insertIdx k line) =
      (Insertion.ofLine (above.length + k) line).rows above.length (rowsAfter above lines) := by
  induction k generalizing above lines with
  | zero =>
    have hbytes : utf8Length (closedLines (above ++ [line])) = utf8Length (closedLines above) + (utf8Length line + 1) := by
      rw [utf8Length_closedLines_concat, Nat.add_assoc]
    have hbelow := (Insertion.ofLine above.length line).map_move_rowsAfter lines (Nat.le_refl _) List.length_append hbytes
    rw [List.insertIdx_zero, rowsAfter, ofLine_of_isTrivia _ _ h, ← hbelow]
    exact ((Insertion.ofLine above.length line).rows_place _).symm
  | succ k ih =>
    cases lines with
    | nil =>
      have hne : above.length ≠ above.length + (k + 1) := by omega
      exact ((Insertion.ofLine (above.length + (k + 1)) line).before_of_ne hne).symm
    | cons first lines =>
      have hrest := ih (above ++ [first]) lines
      rw [List.length_append, List.length_singleton, Nat.add_assoc, Nat.add_comm 1 k] at hrest
      have hne : above.length ≠ above.length + (k + 1) := by omega
      have hlt : above.length < above.length + (k + 1) := by omega
      rw [List.insertIdx_succ_cons, rowsAfter, rowsAfter, Insertion.rows, hrest, Insertion.before_of_ne _ hne,
        Insertion.move_of_lt _ hlt]
      rfl

section

variable {line : List Char} (k : Nat) (text : List Char) (hline : '\n' ∉ line) (htrivia : IsTrivia line)
include hline htrivia

theorem rows_insertLine :
    (Layout.ofText (insertLine k line text)).rows = (Insertion.ofLine k line).rows 0 (Layout.ofText text).rows := by
  have hrows := rowsAfter_insertIdx htrivia [] k (lineTexts text)
  rw [List.length_nil, Nat.zero_add] at hrows
  rw [rows_eq_rowsAfter, rows_eq_rowsAfter, lineTexts_insertLine k text hline, hrows]

theorem descend_insertLine (path : List String) :
    descend path (Layout.ofText (insertLine k line text)).rows =
      (descend path (Layout.ofText text).rows).map (Insertion.ofLine k line).block := by
  have hnumbered : Numbered 0 (Layout.ofText text).rows := by
    rw [rows_eq_rowsAfter]
    exact numbered_rowsAfter [] _
  rw [rows_insertLine k text hline htrivia, Insertion.descend_rows _ path hnumbered]

/-- A lookup finds the same, after the insertion. -/
theorem found?_insertLine (lookup : Lookup) :
    lookup.found? (Layout.ofText (insertLine k line text)) =
      (lookup.found? (Layout.ofText text)).map fun found => (found.1, (Insertion.ofLine k line).block found.2) := by
  rw [Lookup.found?, Lookup.found?, Lookup.firstFound, Lookup.firstFound, List.map_findSome?]
  simp only [descend_insertLine k text hline htrivia, Option.map_map, Function.comp_def]

/-- The range of a header is at the same columns, since the columns go by the characters of its line alone. -/
theorem headerRange_insertLine {path : List String} {block : Block}
    (h : descend path (Layout.ofText text).rows = some block) :
    (Layout.ofText (insertLine k line text)).headerRange ((Insertion.ofLine k line).block block) =
      ((Layout.ofText text).headerRange block).lower k := by
  have h' : descend path (Layout.ofText (insertLine k line text)).rows = some ((Insertion.ofLine k line).block block) := by
    rw [descend_insertLine k text hline htrivia, h, Option.map_some]
  obtain ⟨name, -, hdeclares⟩ := declares_of_descend h
  obtain ⟨name', -, hdeclares'⟩ := declares_of_descend h'
  obtain ⟨key, hkey, -⟩ := exists_key_of_declares hdeclares
  obtain ⟨key', hkey', -⟩ := exists_key_of_declares hdeclares'
  obtain ⟨shown, a, b, hshown, hcolumns, -, -, hrange⟩ := range_key (header_mem_of_descend h) hkey
  obtain ⟨shown', a', b', hshown', hcolumns', -, -, hrange'⟩ := range_key (header_mem_of_descend h') hkey'
  have hnumber : ((Insertion.ofLine k line).block block).header.number =
      block.header.number + if k ≤ block.header.number then 1 else 0 := Insertion.move_number _ _
  rw [hnumber] at hshown' hrange'
  have hchars : shown'.chars = shown.chars := by
    have hsame := getElem?_lineTexts_insertLine k text hline block.header.number
    rw [lineTexts, lineTexts, List.getElem?_map, List.getElem?_map] at hsame
    exact Option.some.inj (((congrArg _ hshown').symm.trans hsame).trans (congrArg _ hshown))
  rw [hchars, hcolumns] at hcolumns'
  obtain ⟨rfl, rfl⟩ := Prod.mk.inj (Option.some.inj hcolumns')
  rw [(headerRange_of_key hkey).trans hrange, (headerRange_of_key hkey').trans hrange']
  rfl

end

/-- **Trivia makes no difference.** Put a blank line or a comment, indented as it may be, before line `k` of a text. A lookup
finds a key if and only if it did before, by the same path, at the same columns and on the same line, counted with the new one
if that stands above. The span of a task that is found has the new line in it if it stands among its lines or just behind the
last. -/
theorem trivia_lines_invisible (text line : List Char) (k : Nat) (hline : '\n' ∉ line) (htrivia : IsTrivia line) :
    let layout := Layout.ofText text
    let layout' := Layout.ofText (insertLine k line text)
    (∀ lookup : Lookup, (lookup.found? layout').map Prod.fst = (lookup.found? layout).map Prod.fst ∧
      ((lookup.found? layout).isSome = true → lookup.range layout' = (lookup.range layout).lower k)) ∧
    ∀ w t, (layout'.taskBlock? w t).isSome = (layout.taskBlock? w t).isSome ∧
      ((layout.taskBlock? w t).isSome = true → layout'.taskSpan w t =
        ⟨(layout.taskSpan w t).first + (if k ≤ (layout.taskSpan w t).first then 1 else 0),
          (layout.taskSpan w t).last + (if k ≤ (layout.taskSpan w t).last + 1 then 1 else 0)⟩) := by
  intro layout layout'
  constructor
  · intro lookup
    have hfound := found?_insertLine k text hline htrivia lookup
    constructor
    · rw [hfound, Option.map_map]
      rfl
    · intro hsome
      obtain ⟨⟨path, block⟩, hblock⟩ := Option.isSome_iff_exists.1 hsome
      rw [hblock, Option.map_some] at hfound
      rw [Lookup.range_eq_found, Lookup.range_eq_found, hfound, hblock]
      exact headerRange_insertLine k text hline htrivia (Lookup.descend_of_found hblock)
  · intro w t
    have hblock := descend_insertLine k text hline htrivia ["workflows", w, "tasks", t]
    rw [← taskBlock?_eq_descend, ← taskBlock?_eq_descend] at hblock
    constructor
    · rw [hblock, Option.isSome_map]
    · intro hsome
      obtain ⟨block, hfound⟩ := Option.isSome_iff_exists.1 hsome
      rw [hfound, Option.map_some] at hblock
      rw [taskSpan_of_taskBlock? hblock, taskSpan_of_taskBlock? hfound]
      exact Insertion.span_block _ block

/-- a task with lines of its own, and one below it -/
def pairDocument : List Char :=
  "workflows:\n  w:\n    tasks:\n      t:\n        x: 1\n      u:".toList

/-- A comment at the margin between two tasks belongs to the upper one, and the lower one is found on the next line. -/
theorem comment_between_tasks :
    let layout := Layout.ofText pairDocument
    let layout' := Layout.ofText (insertLine 5 "# c".toList pairDocument)
    layout.task "w" "u" = ⟨⟨5, 6⟩, ⟨5, 7⟩⟩ ∧ layout'.task "w" "u" = ⟨⟨6, 6⟩, ⟨6, 7⟩⟩ ∧
      layout.taskSpan "w" "t" = ⟨3, 4⟩ ∧ layout'.taskSpan "w" "t" = ⟨3, 5⟩ := by
  intro layout layout'
  have hfound : ((Lookup.task "w" "u").found? layout).isSome = true ∧ (layout.taskBlock? "w" "t").isSome = true := by
    decide +kernel
  have hold : layout.task "w" "u" = ⟨⟨5, 6⟩, ⟨5, 7⟩⟩ ∧ layout.taskSpan "w" "t" = ⟨3, 4⟩ := by decide +kernel
  have hinvisible := trivia_lines_invisible pairDocument "# c".toList 5 (by decide) (isTrivial_iff.1 (by decide +kernel))
  have htask : layout'.task "w" "u" = (layout.task "w" "u").lower 5 := (hinvisible.1 (.task "w" "u")).2 hfound.1
  have hspan := (hinvisible.2 "w" "t").2 hfound.2
  rw [hold.1] at htask
  rw [hold.2] at hspan
  exact ⟨hold.1, htask, hold.2, hspan⟩

end Layout

end WorkflowLint
