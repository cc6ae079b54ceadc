/-
Rows and the lines they are made of.

The layout of a document goes by rows, the document itself by lines. `getElem?_rows` says which row stands for which line of
a text, and `rows_ofText_joinLines` says it of a text that is given by its lines, with the byte offset of each. The lemmas on
`Row.ofLine` say what of a line a row shows: how far it is indented, whether it is trivia, and that an item of a sequence
declares no key. A carriage return at the end of a line makes no difference to any of these.

The rest is about lookups among rows. `firstNamed_append` passes over rows that do not declare a name, `bodyOf_append` stops
where a block ends, and `child?_inv` is what there is to know of a block that was found.
-/
import Mathlib.Data.List.TakeWhile
import WorkflowLint.Layout.Block
import WorkflowLint.Proofs.Sites

namespace WorkflowLint

open WorkflowLint.Text

/-! ## Lines of a text -/

theorem linesFrom_of_not_mem {line : List Char} (start : Nat) (h : '\n' ∉ line) : linesFrom start line = [⟨start, line⟩] := by
  induction line generalizing start with
  | nil => rfl
  | cons c line ih =>
    rw [List.mem_cons, not_or] at h
    rw [linesFrom, if_neg (Ne.symm h.1), ih _ h.2]

theorem linesFrom_append {line : List Char} (start : Nat) (rest : List Char) (h : '\n' ∉ line) :
    linesFrom start (line ++ '\n' :: rest) = ⟨start, line⟩ :: linesFrom (start + utf8Length line + 1) rest := by
  induction line generalizing start with
  | nil => rfl
  | cons c line ih =>
    rw [List.mem_cons, not_or] at h
    rw [List.cons_append, linesFrom, if_neg (Ne.symm h.1), ih _ h.2, utf8Length, ← Nat.add_assoc]

/-- A character stands on the line whose number is that of the line feeds before it. -/
theorem exists_mem_linesFrom (start : Nat) (a : List Char) {c : Char} (b : List Char) (hc : c ≠ '\n') :
    ∃ line, (linesFrom start (a ++ c :: b))[a.count '\n']? = some line ∧ c ∈ line.chars := by
  induction a generalizing start with
  | nil =>
    obtain ⟨chars, lines, hlines, -⟩ := linesFrom_eq_cons (start + c.utf8Size) b
    refine ⟨⟨start, c :: chars⟩, ?_, List.mem_cons_self⟩
    rw [List.nil_append, linesFrom, if_neg hc, hlines]
    rfl
  | cons d a ih =>
    obtain ⟨line, hline, hmem⟩ := ih (start + d.utf8Size)
    rw [List.cons_append, linesFrom]
    split
    case isTrue hd => exact ⟨line, by rw [hd, List.count_cons_self, List.getElem?_cons_succ]; exact hd ▸ hline, hmem⟩
    case isFalse hd =>
      rw [List.count_cons_of_ne hd]
      obtain ⟨chars, lines, hlines, -⟩ := linesFrom_eq_cons (start + d.utf8Size) (a ++ c :: b)
      rw [hlines] at hline ⊢
      cases hcount : a.count '\n' with
      | zero =>
        rw [hcount, List.getElem?_cons_zero] at hline
        obtain rfl := Option.some.inj hline
        exact ⟨⟨start, d :: chars⟩, rfl, List.mem_cons_of_mem _ hmem⟩
      | succ n =>
        rw [hcount, List.getElem?_cons_succ] at hline
        exact ⟨line, hline, hmem⟩

/-- the text of lines, with a line feed between each two of them -/
def joinLines : List (List Char) → List Char
  | [] => []
  | [line] => line
  | line :: next :: lines => line ++ '\n' :: joinLines (next :: lines)

/-- the text of lines that more lines follow -/
def closedLines (lines : List (List Char)) : List Char :=
  lines.flatMap fun line => line ++ ['\n']

theorem utf8Length_closedLines_concat (lines : List (List Char)) (line : List Char) :
    utf8Length (closedLines (lines ++ [line])) = utf8Length (closedLines lines) + utf8Length line + 1 := by
  simp only [closedLines, List.flatMap_append, utf8Length_append, List.flatMap_cons, List.flatMap_nil]
  rfl

theorem joinLines_append (before : List (List Char)) (line : List Char) (after : List (List Char)) :
    joinLines (before ++ line :: after) = closedLines before ++ joinLines (line :: after) := by
  induction before with
  | nil => rfl
  | cons first before ih =>
    have hnext : ∃ next lines, before ++ line :: after = next :: lines := by
      cases before with
      | nil => exact ⟨_, _, rfl⟩
      | cons next before => exact ⟨_, _, rfl⟩
    obtain ⟨next, lines, hnext⟩ := hnext
    rw [List.cons_append, hnext, joinLines, ← hnext, ih]
    simp [closedLines]

/-- the text of a line and of those after it begins with that line -/
theorem joinLines_cons (line : List Char) (after : List (List Char)) :
    ∃ rest, joinLines (line :: after) = line ++ rest := by
  cases after with
  | nil => exact ⟨[], (List.append_nil line).symm⟩
  | cons next after => exact ⟨_, rfl⟩

namespace Position

theorem advanceAll_of_not_mem {text : List Char} (p : Position) (h : '\n' ∉ text) :
    p.advanceAll text = ⟨p.line, p.character + utf16Length text⟩ := by
  induction text generalizing p with
  | nil => rfl
  | cons c text ih =>
    rw [List.mem_cons, not_or] at h
    show (p.advance c).advanceAll text = _
    rw [ih _ h.2, advance, if_neg (Ne.symm h.1), utf16Length, Nat.add_assoc]

theorem advanceAll_closedLines {lines : List (List Char)} (n : Nat) (h : ∀ line ∈ lines, '\n' ∉ line) :
    (⟨n, 0⟩ : Position).advanceAll (closedLines lines) = ⟨n + lines.length, 0⟩ := by
  induction lines generalizing n with
  | nil => rfl
  | cons line lines ih =>
    have hline : (⟨n, 0⟩ : Position).advanceAll (line ++ ['\n']) = ⟨n + 1, 0⟩ := by
      rw [advanceAll_append, advanceAll_of_not_mem _ (h line List.mem_cons_self)]
      rfl
    have hrest := ih (n + 1) fun other ho => h other (List.mem_cons_of_mem _ ho)
    rw [Nat.add_assoc, Nat.add_comm 1] at hrest
    rw [closedLines, List.flatMap_cons, advanceAll_append, hline]
    exact hrest

theorem advanceAll_line (p : Position) (text : List Char) : (p.advanceAll text).line = p.line + text.count '\n' := by
  induction text generalizing p with
  | nil => rfl
  | cons c text ih =>
    show ((p.advance c).advanceAll text).line = _
    rw [ih, Position.advance]
    split
    case isTrue hc =>
      rw [hc, List.count_cons_self]
      show p.line + 1 + _ = _
      omega
    case isFalse hc => rw [List.count_cons_of_ne hc]

end Position

/-! ## What a row shows of its line -/

/-- how far a line is indented -/
def indentOf (line : List Char) : Nat :=
  (line.takeWhile isIndent).length

/-- the line is blank or only a comment: the first character that is not blank, if there is one, begins a comment -/
def IsTrivia (line : List Char) : Prop :=
  ∀ c, (trimStart line).head? = some c → c = '#'

/-- the line begins an item of a sequence -/
def IsItem (line : List Char) : Prop :=
  ∃ rest, line.dropWhile isIndent = '-' :: rest ∧ ∀ c, rest.head? = some c → isBlank c = true

theorem isBlank_of_isIndent {c : Char} (h : isIndent c = true) : isBlank c = true := by
  simp only [isIndent, Bool.or_eq_true, beq_iff_eq] at h
  rcases h with rfl | rfl <;> decide

theorem trimStart_dropWhile_isIndent (line : List Char) : trimStart (line.dropWhile isIndent) = trimStart line := by
  induction line with
  | nil => rfl
  | cons c line ih =>
    cases hc : isIndent c with
    | true => rw [List.dropWhile_cons_of_pos hc, ih, trimStart, trimStart,
        List.dropWhile_cons_of_pos (isBlank_of_isIndent hc)]
    | false => rw [List.dropWhile_cons_of_neg (by rw [hc]; decide)]

theorem head?_trim (text : List Char) : (trim text).head? = (trimStart text).head? := by
  obtain ⟨trail, ht, hblank⟩ := trimEnd_append (trimStart text)
  cases hm : trimEnd (trimStart text) with
  | cons c rest => rw [trim, hm, ht, hm]; rfl
  | nil =>
    rw [hm, List.nil_append] at ht
    cases hs : trimStart text with
    | nil => rw [trim, hs]; rfl
    | cons c rest =>
      -- nothing but white space would be left, yet what is left begins with something else
      have hc : isBlank c = true := hblank c (by rw [← ht, hs]; exact List.mem_cons_self)
      have := List.head?_dropWhile_not isBlank text
      rw [trimStart] at hs
      rw [hs] at this
      exact absurd (this.symm.trans hc) Bool.false_ne_true

theorem isTrivial_iff {text : List Char} : Layout.isTrivial text = true ↔ IsTrivia text := by
  have hhead := head?_trim text
  unfold Layout.isTrivial IsTrivia
  cases ht : trim text with
  | nil =>
    rw [ht] at hhead
    simp [← hhead]
  | cons c rest =>
    rw [ht] at hhead
    simp [← hhead]

theorem isTrivia_dropWhile_iff {line : List Char} : IsTrivia (line.dropWhile isIndent) ↔ IsTrivia line := by
  unfold IsTrivia
  rw [trimStart_dropWhile_isIndent]

theorem hash_mem_of_isTrivia {line : List Char} (h : IsTrivia line) {c : Char} (hc : c ∈ line) (hblank : isBlank c = false) :
    '#' ∈ line := by
  cases ht : trimStart line with
  | nil =>
    have hall := List.dropWhile_eq_nil_iff.1 ht c hc
    exact absurd (hblank.symm.trans hall) Bool.false_ne_true
  | cons d rest =>
    obtain rfl : d = '#' := h d (by rw [ht]; rfl)
    exact (List.dropWhile_suffix _).subset (show '#' ∈ trimStart line by rw [ht]; exact List.mem_cons_self)

/-! A carriage return at the end of a line -/

theorem Line.text_eq (line : Line) : line.chars = line.text ∨ line.chars = line.text ++ ['\r'] := by
  unfold Line.text
  split
  case isTrue h =>
    obtain ⟨front, hfront⟩ := List.getLast?_eq_some_iff.1 h
    exact Or.inr (by rw [hfront, List.dropLast_concat])
  case isFalse => exact Or.inl rfl

theorem Line.text_append_return (start : Nat) (front : List Char) : (⟨start, front ++ ['\r']⟩ : Line).text = front := by
  simp [Line.text]

theorem indentOf_text (line : Line) : indentOf line.text = indentOf line.chars := by
  rcases line.text_eq with h | h
  · rw [← h]
  · rw [h, indentOf, indentOf, List.takeWhile_append]
    split
    case isTrue hall =>
      rw [hall, List.length_append]
      rfl
    case isFalse => rfl

theorem dropWhile_isIndent_text (line : Line) :
    line.chars.dropWhile isIndent = line.text.dropWhile isIndent ∨
      line.chars.dropWhile isIndent = line.text.dropWhile isIndent ++ ['\r'] := by
  rcases line.text_eq with h | h
  · exact Or.inl (congrArg _ h)
  · right
    rw [h, List.dropWhile_append]
    split
    case isTrue hall =>
      rw [List.isEmpty_iff.1 hall]
      rfl
    case isFalse => rfl

theorem isTrivia_text_iff (line : Line) : IsTrivia line.text ↔ IsTrivia line.chars := by
  rcases line.text_eq with h | h
  · rw [← h]
  · have hhead : (trimStart (line.text ++ ['\r'])).head? = (trimStart line.text).head? := by
      rw [trimStart, trimStart, List.dropWhile_append]
      cases line.text.dropWhile isBlank with
      | nil => rfl
      | cons c rest => rfl
    unfold IsTrivia
    rw [h, hhead]

theorem isItem_text {line : Line} (h : IsItem line.chars) : Layout.isItem (line.text.dropWhile isIndent) = true := by
  obtain ⟨rest, hrest, hblank⟩ := h
  rcases dropWhile_isIndent_text line with ht | ht
  · rw [← ht, hrest]
    cases rest with
    | nil => rfl
    | cons c rest => exact hblank c rfl
  · rw [hrest] at ht
    cases hd : line.text.dropWhile isIndent with
    | nil => rw [hd] at ht; simp at ht
    | cons d inner =>
      rw [hd, List.cons_append, List.cons.injEq] at ht
      obtain ⟨rfl, rfl⟩ := ht
      cases inner with
      | nil => rfl
      | cons c inner => exact hblank c rfl

namespace Layout

theorem ofLine_indent (n : Nat) (line : Line) : (Row.ofLine n line).indent = indentOf line.chars :=
  indentOf_text line

theorem ofLine_isTrivia_iff (n : Nat) {line : Line} : (Row.ofLine n line).isTrivia = true ↔ IsTrivia line.chars := by
  show isTrivial (line.text.dropWhile isIndent) = true ↔ _
  rw [isTrivial_iff, isTrivia_dropWhile_iff, isTrivia_text_iff]

theorem ofLine_key_eq_none {n : Nat} {line : Line} (h : IsTrivia line.chars ∨ IsItem line.chars) :
    (Row.ofLine n line).key = none := by
  refine if_pos ?_
  rw [Bool.or_eq_true]
  exact h.imp (ofLine_isTrivia_iff n).2 isItem_text

/-! ## The rows of a text -/

/-- the rows of lines that come after other lines of a text -/
def rowsAfter (before : List (List Char)) : List (List Char) → List Row
  | [] => []
  | line :: lines =>
    Row.ofLine before.length ⟨utf8Length (closedLines before), line⟩ :: rowsAfter (before ++ [line]) lines

theorem rowsAfter_append (before a b : List (List Char)) :
    rowsAfter before (a ++ b) = rowsAfter before a ++ rowsAfter (before ++ a) b := by
  induction a generalizing before with
  | nil => simp [rowsAfter]
  | cons line a ih => simp [rowsAfter, ih]

/-- A row is that of one of the lines. -/
theorem mem_rowsAfter {before lines : List (List Char)} {row : Row} (h : row ∈ rowsAfter before lines) :
    ∃ n start line, line ∈ lines ∧ row = Row.ofLine n ⟨start, line⟩ := by
  induction lines generalizing before with
  | nil => simp [rowsAfter] at h
  | cons line lines ih =>
    rcases List.mem_cons.1 h with h | h
    · exact ⟨_, _, line, List.mem_cons_self, h⟩
    · obtain ⟨n, start, other, ho, hr⟩ := ih h
      exact ⟨n, start, other, List.mem_cons_of_mem _ ho, hr⟩

theorem rowsFrom_linesFrom {before : List (List Char)} (line : List Char) (lines : List (List Char))
    (h : ∀ other ∈ line :: lines, '\n' ∉ other) :
    rowsFrom before.length (linesFrom (utf8Length (closedLines before)) (joinLines (line :: lines))) =
      rowsAfter before (line :: lines) := by
  induction lines generalizing before line with
  | nil => rw [joinLines, linesFrom_of_not_mem _ (h line List.mem_cons_self)]; rfl
  | cons next lines ih =>
    have hrest := @ih (before ++ [line]) next fun other ho => h other (List.mem_cons_of_mem _ ho)
    have hlength : (before ++ [line]).length = before.length + 1 := by simp
    rw [hlength, utf8Length_closedLines_concat] at hrest
    rw [joinLines, linesFrom_append _ _ (h line List.mem_cons_self), rowsFrom, hrest]
    rfl

/-- **Which row stands for which line.** -/
theorem rows_ofText_joinLines {lines : List (List Char)} (hne : lines ≠ []) (h : ∀ line ∈ lines, '\n' ∉ line) :
    (Layout.ofText (joinLines lines)).rows = rowsAfter [] lines := by
  cases lines with
  | nil => exact absurd rfl hne
  | cons line lines => exact @rowsFrom_linesFrom [] line lines h

theorem getElem?_rowsFrom (n : Nat) (lines : List Line) (i : Nat) :
    (rowsFrom n lines)[i]? = (lines[i]?).map (Row.ofLine (n + i)) := by
  induction lines generalizing n i with
  | nil => rfl
  | cons line lines ih =>
    cases i with
    | zero => rfl
    | succ i =>
      rw [rowsFrom, List.getElem?_cons_succ, List.getElem?_cons_succ, ih, Nat.add_assoc, Nat.add_comm 1]

theorem getElem?_rows (text : List Char) (i : Nat) :
    (Layout.ofText text).rows[i]? = ((LineTable.ofText text).lines[i]?).map (Row.ofLine i) := by
  have h := getElem?_rowsFrom 0 (LineTable.ofText text).lines i
  rwa [Nat.zero_add] at h

theorem number_of_getElem? {text : List Char} {i : Nat} {row : Row} (h : (Layout.ofText text).rows[i]? = some row) :
    row.number = i := by
  rw [getElem?_rows] at h
  obtain ⟨line, -, rfl⟩ := Option.map_eq_some_iff.1 h
  rfl

/-- The top of a document is cut from its first line. -/
theorem top_of_first_line {text : List Char} {line : Line} (h : (LineTable.ofText text).lines[0]? = some line) :
    (Layout.ofText text).top = ⟨⟨0, 0⟩, ⟨0, min (utf16Length line.text) topWidth⟩⟩ := by
  have hshown : (Layout.ofText text).table.lineText? 0 = some line.text := congrArg (Option.map Line.text) h
  rw [top, hshown]

/-- A row that declares a key is no trivia. -/
theorem isTrivia_of_declares {text : List Char} {row : Row} {name : String} (hrow : row ∈ (Layout.ofText text).rows)
    (h : row.declares name = true) : row.isTrivia = false := by
  obtain ⟨i, hi⟩ := List.getElem?_of_mem hrow
  rw [getElem?_rows] at hi
  obtain ⟨line, -, rfl⟩ := Option.map_eq_some_iff.1 hi
  cases ht : (Row.ofLine i line).isTrivia with
  | false => rfl
  | true =>
    rw [Row.declares, ofLine_key_eq_none (Or.inl ((ofLine_isTrivia_iff i).1 ht))] at h
    exact Bool.noConfusion h

/-! ## Lookups among rows -/

theorem bodyOf_append {indent : Nat} {below rest : List Row}
    (h : ∀ row ∈ below, row.isTrivia = true ∨ indent < row.indent) :
    bodyOf indent (below ++ rest) = below ++ bodyOf indent rest :=
  List.takeWhile_append_of_pos fun row hr => by simpa using h row hr

theorem bodyOf_cons_eq_nil {indent : Nat} {row : Row} (rest : List Row) (ht : row.isTrivia = false)
    (hi : row.indent ≤ indent) : bodyOf indent (row :: rest) = [] :=
  List.takeWhile_cons_of_neg (by simp [ht, hi])

theorem childIndent?_append {skipped : List Row} (rest : List Row) (h : ∀ row ∈ skipped, row.isTrivia = true) :
    childIndent? (skipped ++ rest) = childIndent? rest := by
  have hnone : skipped.find? (fun row => !row.isTrivia) = none :=
    List.find?_eq_none.2 fun row hr => by simp [h row hr]
  rw [childIndent?, childIndent?, List.find?_append, hnone, Option.none_or]

theorem childIndent?_cons {row : Row} (rest : List Row) (h : row.isTrivia = false) :
    childIndent? (row :: rest) = some row.indent := by
  simp [childIndent?, h]

theorem firstNamed_append {indent : Nat} {name : String} {skipped : List Row} (rest : List Row)
    (h : ∀ row ∈ skipped, row.indent = indent → row.declares name = false) :
    firstNamed indent name (skipped ++ rest) = firstNamed indent name rest := by
  induction skipped with
  | nil => rfl
  | cons row skipped ih =>
    have hrow : ¬ (row.indent = indent ∧ row.declares name = true) := by
      rintro ⟨hi, hd⟩
      rw [h row List.mem_cons_self hi] at hd
      exact Bool.noConfusion hd
    rw [List.cons_append, firstNamed, if_neg hrow, ih fun other ho => h other (List.mem_cons_of_mem _ ho)]

theorem firstNamed_cons {indent : Nat} {name : String} {row : Row} (rest : List Row) (hi : row.indent = indent)
    (hd : row.declares name = true) : firstNamed indent name (row :: rest) = some ⟨row, bodyOf indent rest⟩ := by
  rw [firstNamed, if_pos ⟨hi, hd⟩, hi]

theorem firstNamed_eq_some {indent : Nat} {name : String} {rows : List Row} {block : Block}
    (h : firstNamed indent name rows = some block) :
    ∃ front rest, rows = front ++ block.header :: rest ∧ block.header.indent = indent ∧
      block.header.declares name = true ∧ block.body = bodyOf indent rest := by
  induction rows with
  | nil => simp [firstNamed] at h
  | cons row rows ih =>
    rw [firstNamed] at h
    split at h
    case isTrue hrow =>
      obtain rfl := Option.some.inj h
      exact ⟨[], rows, rfl, hrow.1, hrow.2, by rw [hrow.1]⟩
    case isFalse =>
      obtain ⟨front, rest, rfl, hheader⟩ := ih h
      exact ⟨row :: front, rest, rfl, hheader⟩

theorem child?_inv {name : String} {rows : List Row} {block : Block} (h : child? name rows = some block) :
    childIndent? rows = some block.header.indent ∧ block.header.declares name = true ∧
      ∃ front rest, rows = front ++ block.header :: rest ∧ block.body = bodyOf block.header.indent rest := by
  obtain ⟨indent, hindent, hfirst⟩ := Option.bind_eq_some_iff.1 h
  obtain ⟨front, rest, hrows, rfl, hdeclares, hbody⟩ := firstNamed_eq_some hfirst
  exact ⟨hindent, hdeclares, front, rest, hrows, hbody⟩

theorem taskSpan_of_taskBlock? {layout : Layout} {workflow task : String} {block : Block}
    (h : layout.taskBlock? workflow task = some block) : layout.taskSpan workflow task = block.span := by
  rw [taskSpan, h]

theorem name_eq_of_declares {row : Row} {name other : String} (h : row.declares name = true)
    (h' : row.declares other = true) : name = other := by
  unfold Row.declares at h h'
  cases hkey : row.key with
  | none => simp [hkey] at h
  | some key =>
    simp only [hkey, beq_iff_eq] at h h'
    exact String.toList_inj.1 (h.symm.trans h')

end Layout

end WorkflowLint
