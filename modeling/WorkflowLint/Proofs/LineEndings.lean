/-
Line endings make no difference to where things are.

`crlf` puts a carriage return before every line feed of a text. The byte offset of nearly everything in the document changes
with that, and there are more characters on all lines but the last. Still the document reads the same:
- `Position.advanceAll_crlf`: a walk over the text ends at the same coordinates, because a line feed starts the column again.
- `occurrences_crlf`: the expressions are the same and at the same places. Carriage returns are white space, so they are
  trimmed off a body wherever the line feeds are, and a body that keeps to one line has none.
- `rows_crlf`: each row is the same but for the offsets of its key, which are moved by one for each line above. Lookups go
  by what stays (`descend_map_shift`), and what they find has the same range (`headerRange_shift`).

The text must have no carriage returns of its own for the last of these, since only one is taken off the end of a line.
-/
import WorkflowLint.Lint
import WorkflowLint.Proofs.BlockStyle
import WorkflowLint.Proofs.Extraction
import WorkflowLint.Proofs.KeyPlaces

namespace WorkflowLint

open WorkflowLint.Text

/-! ## Line endings of two characters -/

namespace Text

/-- the text with a carriage return before every line feed -/
def crlf (text : List Char) : List Char :=
  text.flatMap fun c => if c = '\n' then ['\r', '\n'] else [c]

@[simp] theorem crlf_nil : crlf [] = [] := rfl

@[simp] theorem crlf_feed (text : List Char) : crlf ('\n' :: text) = '\r' :: '\n' :: crlf text := rfl

theorem crlf_cons {c : Char} (text : List Char) (h : c ≠ '\n') : crlf (c :: text) = c :: crlf text := by
  simp [crlf, h]

@[simp] theorem crlf_append (a b : List Char) : crlf (a ++ b) = crlf a ++ crlf b :=
  List.flatMap_append

theorem crlf_eq_self {text : List Char} (h : '\n' ∉ text) : crlf text = text := by
  induction text with
  | nil => rfl
  | cons c text ih =>
    rw [List.mem_cons, not_or] at h
    rw [crlf_cons _ (Ne.symm h.1), ih h.2]

theorem feed_mem_crlf_iff {text : List Char} : '\n' ∈ crlf text ↔ '\n' ∈ text := by
  constructor
  · intro h
    by_contra hn
    rw [crlf_eq_self hn] at h
    exact hn h
  · intro h
    obtain ⟨a, b, rfl⟩ := List.append_of_mem h
    simp

theorem head?_crlf_iff {c : Char} {text : List Char} (hr : c ≠ '\r') (hn : c ≠ '\n') :
    (crlf text).head? = some c ↔ text.head? = some c := by
  cases text with
  | nil => rfl
  | cons d text =>
    by_cases hd : d = '\n'
    · subst hd
      simp [hr.symm, hn.symm]
    · rw [crlf_cons _ hd]
      rfl

/-- Every line feed adds one byte. -/
theorem utf8Length_crlf (text : List Char) : utf8Length (crlf text) = utf8Length text + text.count '\n' := by
  induction text with
  | nil => rfl
  | cons c text ih =>
    by_cases hc : c = '\n'
    · subst hc
      rw [crlf_feed, List.count_cons_self]
      show 1 + (1 + utf8Length (crlf text)) = 1 + utf8Length text + _
      omega
    · rw [crlf_cons _ hc, List.count_cons_of_ne hc, utf8Length, utf8Length, ih, Nat.add_assoc]

/-! White space stays white space. -/

theorem takeWhile_isBlank_crlf (text : List Char) : (crlf text).takeWhile isBlank = crlf (text.takeWhile isBlank) := by
  induction text with
  | nil => rfl
  | cons c text ih =>
    by_cases hc : c = '\n'
    · subst hc
      have hblank : isBlank '\r' = true ∧ isBlank '\n' = true := by decide
      simp [hblank, ih]
    · rw [crlf_cons _ hc, List.takeWhile_cons, List.takeWhile_cons]
      split
      · rw [ih, crlf_cons _ hc]
      · rfl

theorem trimStart_crlf (text : List Char) : trimStart (crlf text) = crlf (trimStart text) := by
  have hsplit : crlf (text.takeWhile isBlank) ++ trimStart (crlf text) =
      crlf (text.takeWhile isBlank) ++ crlf (trimStart text) := by
    rw [← takeWhile_isBlank_crlf, trimStart, List.takeWhile_append_dropWhile, takeWhile_isBlank_crlf, ← crlf_append,
      trimStart, List.takeWhile_append_dropWhile]
  exact List.append_cancel_left hsplit

theorem trimEnd_append_blank (text : List Char) {blank : List Char} (h : ∀ c ∈ blank, isBlank c = true) :
    trimEnd (text ++ blank) = trimEnd text := by
  rw [trimEnd, trimEnd, List.reverse_append, List.dropWhile_append_of_pos]
  intro c hc
  exact h c (List.mem_reverse.1 hc)

theorem isBlank_of_mem_crlf {text : List Char} (h : ∀ c ∈ text, isBlank c = true) : ∀ c ∈ crlf text, isBlank c = true := by
  intro c hc
  obtain ⟨d, hd, hc⟩ := List.mem_flatMap.1 hc
  split at hc
  · simp only [List.mem_cons, List.not_mem_nil, or_false] at hc
    rcases hc with rfl | rfl <;> decide
  · rw [List.mem_singleton.1 hc]
    exact h d hd

theorem getLast?_crlf (text : List Char) : (crlf text).getLast? = text.getLast? := by
  rcases List.eq_nil_or_concat text with rfl | ⟨front, c, rfl⟩
  · rfl
  · by_cases hc : c = '\n'
    · subst hc
      simp
    · simp [crlf_cons _ hc]

theorem trimEnd_crlf (text : List Char) : trimEnd (crlf text) = crlf (trimEnd text) := by
  obtain ⟨trail, htext, hblank⟩ := trimEnd_append text
  have hend : trimEnd (crlf (trimEnd text)) = crlf (trimEnd text) :=
    trimEnd_eq_self fun c hc => isBlank_getLast?_trimEnd ((getLast?_crlf _).symm.trans hc)
  calc trimEnd (crlf text) = trimEnd (crlf (trimEnd text) ++ crlf trail) := by rw [← crlf_append, ← htext]
    _ = trimEnd (crlf (trimEnd text)) := trimEnd_append_blank _ (isBlank_of_mem_crlf hblank)
    _ = crlf (trimEnd text) := hend

theorem trim_crlf (text : List Char) : trim (crlf text) = crlf (trim text) := by
  rw [trim, trimStart_crlf, trimEnd_crlf]
  rfl

end Text

/-! ## Walks -/

/-- A line feed starts the column again, so it does not matter what stands before it. -/
theorem Position.advanceAll_crlf (p : Position) (text : List Char) : p.advanceAll (crlf text) = p.advanceAll text := by
  induction text generalizing p with
  | nil => rfl
  | cons c text ih =>
    by_cases hc : c = '\n'
    · subst hc
      exact ih _
    · rw [crlf_cons _ hc]
      exact ih _

/-- The coordinates of a place are the same with either line ending. -/
theorem LineTable.position_crlf (a b : List Char) :
    (LineTable.ofText (crlf (a ++ b))).position (utf8Length (crlf a)) =
      (LineTable.ofText (a ++ b)).position (utf8Length a) := by
  rw [crlf_append, position_append, position_append, Position.advanceAll_crlf]

/-! ## Expressions -/

namespace Expression

theorem beforeClose_cons {c : Char} {rest : List Char} (h : ¬ (c = '%' ∧ rest.head? = some '>')) :
    beforeClose (c :: rest) = (beforeClose rest).map fun inside => c :: inside := by
  cases rest with
  | nil => rfl
  | cons d rest =>
    rw [beforeClose, if_neg]
    rintro ⟨rfl, rfl⟩
    exact h ⟨rfl, rfl⟩

theorem beforeClose_crlf (text : List Char) : beforeClose (crlf text) = (beforeClose text).map crlf := by
  induction text with
  | nil => rfl
  | cons c text ih =>
    by_cases hc : c = '\n'
    · subst hc
      rw [crlf_feed, beforeClose_cons (by simp), beforeClose_cons (by simp), ih, beforeClose_cons (by simp)]
      cases beforeClose text with
      | none => rfl
      | some inside => rfl
    · by_cases hmark : c = '%' ∧ text.head? = some '>'
      · obtain ⟨rfl, hhead⟩ := hmark
        obtain ⟨rest, rfl⟩ := List.head?_eq_some_iff.1 hhead
        rfl
      · have hmark' : ¬ (c = '%' ∧ (crlf text).head? = some '>') := by rwa [head?_crlf_iff (by decide) (by decide)]
        rw [crlf_cons _ hc, beforeClose_cons hmark', beforeClose_cons hmark, ih, Option.map_map, Option.map_map]
        exact congrArg (Option.map · _) (funext fun inside => (crlf_cons inside hc).symm)

/-- Behind an opening mark the same is found with either line ending, be it elsewhere in the document. -/
theorem siteAt_crlf (start start' : Nat) (rest : List Char) :
    siteAt start' (crlf rest) = (siteAt start rest).map fun found =>
      (crlf found.1, ⟨start', start' + utf8Length (crlf found.1) + 4,
        start' + 2 + utf8Length ((crlf found.1).takeWhile isBlank), trim (crlf found.1)⟩) := by
  rw [siteAt, siteAt, beforeClose_crlf]
  cases beforeClose rest with
  | none => rfl
  | some inside =>
    simp only [Option.map_some, List.contains_iff_mem, trim_crlf, feed_mem_crlf_iff]
    split
    case isTrue => rfl
    case isFalse => rfl

theorem crlf_marks (inside after : List Char) :
    crlf ('<' :: '%' :: inside ++ '%' :: '>' :: after) = '<' :: '%' :: crlf inside ++ '%' :: '>' :: crlf after := by
  simp [crlf_cons]

theorem crlf_marked (inside : List Char) :
    crlf ('<' :: '%' :: inside ++ ['%', '>']) = '<' :: '%' :: crlf inside ++ ['%', '>'] :=
  crlf_marks inside []

theorem occurrenceAt_crlf (front : List Char) {rest used lead after more : List Char} (body : List Char)
    (hused : rest = used ++ after) (hlead : rest = '<' :: '%' :: (lead ++ more)) :
    occurrenceAt (crlf front) (crlf rest) (crlf used) (crlf lead) body = occurrenceAt front rest used lead body := by
  have hstart := LineTable.position_crlf front rest
  have hstop := LineTable.position_crlf (front ++ used) after
  have hbody := LineTable.position_crlf (front ++ '<' :: '%' :: lead) more
  have hmarks : crlf ('<' :: '%' :: lead) = '<' :: '%' :: crlf lead := by simp [crlf_cons]
  rw [List.append_assoc, ← hused] at hstop
  rw [List.append_assoc, List.cons_append, List.cons_append, ← hlead] at hbody
  rw [crlf_append _ rest] at hstart hstop hbody
  rw [crlf_append] at hstop
  rw [crlf_append, hmarks] at hbody
  rw [occurrenceAt, occurrenceAt, hstart, hstop, hbody]

/-- The expression behind an opening mark is at the same place with either line ending. -/
theorem occurrence_crlf (front : List Char) {inside : List Char} (after : List Char) (hline : '\n' ∉ trim inside) :
    Site.occurrence (LineTable.ofText (crlf (front ++ ('<' :: '%' :: inside ++ '%' :: '>' :: after))))
        ⟨utf8Length (crlf front), utf8Length (crlf front) + utf8Length (crlf inside) + 4,
          utf8Length (crlf front) + 2 + utf8Length ((crlf inside).takeWhile isBlank), trim (crlf inside)⟩ =
      Site.occurrence (LineTable.ofText (front ++ ('<' :: '%' :: inside ++ '%' :: '>' :: after)))
        ⟨utf8Length front, utf8Length front + utf8Length inside + 4,
          utf8Length front + 2 + utf8Length (inside.takeWhile isBlank), trim inside⟩ := by
  obtain ⟨trail, hinside, -⟩ := trim_append inside
  have hused : '<' :: '%' :: inside ++ '%' :: '>' :: after = '<' :: '%' :: inside ++ ['%', '>'] ++ after := by simp
  have hlead : '<' :: '%' :: inside ++ '%' :: '>' :: after =
      '<' :: '%' :: (inside.takeWhile isBlank ++ (trim inside ++ (trail ++ '%' :: '>' :: after))) := by
    have htext := congrArg (fun text => '<' :: '%' :: text ++ '%' :: '>' :: after) hinside
    simpa only [List.cons_append, List.append_assoc] using htext
  rw [crlf_append, crlf_marks, occurrence_eq_occurrenceAt, occurrence_eq_occurrenceAt, ← crlf_marks, ← crlf_marked,
    takeWhile_isBlank_crlf, trim_crlf, crlf_eq_self hline]
  exact occurrenceAt_crlf front (trim inside) hused hlead

/-- Where nothing is found, the scan goes on behind the character and the line ending. -/
theorem sitesFrom_pass_crlf {offset offset' : Nat} {c : Char} {rest : List Char}
    (h : ∀ tail, c = '<' → rest = '%' :: tail → siteAt offset tail = none) :
    sitesFrom 0 offset' (crlf (c :: rest)) = sitesFrom 0 (offset' + utf8Length (crlf [c])) (crlf rest) := by
  by_cases hc : c = '\n'
  · subst hc
    rw [crlf_feed, sitesFrom_pass (by simp), sitesFrom_pass (by simp)]
    rfl
  · rw [crlf_cons _ hc, crlf_cons _ hc, sitesFrom_pass]
    · rfl
    · rintro tail rfl hrest
      have hhead : rest.head? = some '%' := (head?_crlf_iff (by decide) (by decide)).1 (by rw [hrest]; rfl)
      obtain ⟨tail', rfl⟩ := List.head?_eq_some_iff.1 hhead
      rw [crlf_cons _ (by decide), List.cons.injEq] at hrest
      rw [← hrest.2, siteAt_crlf offset, h tail' rfl rfl]
      rfl

/-- The scan finds the same from any place on. -/
theorem occurrences_sitesFrom_crlf (front rest : List Char) :
    (sitesFrom 0 (utf8Length (crlf front)) (crlf rest)).map (Site.occurrence (LineTable.ofText (crlf (front ++ rest)))) =
      (sitesFrom 0 (utf8Length front) rest).map (Site.occurrence (LineTable.ofText (front ++ rest))) := by
  -- a site may be long, so the induction is on the length of what is left
  induction hlen : rest.length using Nat.strong_induction_on generalizing front rest with
  | _ n ih =>
    have hbehind : ∀ used after, rest = used ++ after → used ≠ [] →
        (sitesFrom 0 (utf8Length (crlf front) + utf8Length (crlf used)) (crlf after)).map
            (Site.occurrence (LineTable.ofText (crlf (front ++ rest)))) =
          (sitesFrom 0 (utf8Length front + utf8Length used) after).map
            (Site.occurrence (LineTable.ofText (front ++ rest))) := by
      rintro used after rfl hne
      have hshort : after.length < n := by
        rw [← hlen, List.length_append]
        exact Nat.lt_add_of_pos_left (List.length_pos_iff.2 hne)
      have hafter := ih _ hshort (front ++ used) after rfl
      rwa [crlf_append front, utf8Length_append, utf8Length_append, List.append_assoc] at hafter
    cases rest with
    | nil => rfl
    | cons c rest =>
      by_cases hfound : ∃ tail inside site, c :: rest = '<' :: '%' :: tail ∧
          siteAt (utf8Length front) tail = some (inside, site)
      · obtain ⟨tail, inside, site, htext, hs⟩ := hfound
        obtain ⟨hclose, hline, rfl⟩ := siteAt_eq_some hs
        obtain ⟨after, rfl⟩ := beforeClose_append hclose
        have hs' := siteAt_crlf (utf8Length front) (utf8Length (crlf front)) (inside ++ '%' :: '>' :: after)
        rw [hs, crlf_append, crlf_cons _ (by decide), crlf_cons _ (by decide)] at hs'
        have hafter := hbehind ('<' :: '%' :: inside ++ ['%', '>']) after (by simpa using htext) (by simp)
        rw [htext, ← List.cons_append, ← List.cons_append] at hafter ⊢
        rw [crlf_marked] at hafter
        rw [crlf_marks, sitesFrom_take hs', sitesFrom_take hs, List.map_cons, List.map_cons, hafter, occurrence_crlf _ _ hline]
      · have hpass : ∀ tail, c = '<' → rest = '%' :: tail → siteAt (utf8Length front) tail = none := by
          rintro tail rfl rfl
          cases hs : siteAt (utf8Length front) tail with
          | none => rfl
          | some found => exact absurd ⟨tail, found.1, found.2, rfl, hs⟩ hfound
        rw [sitesFrom_pass hpass, sitesFrom_pass_crlf hpass]
        exact hbehind [c] rest rfl (List.cons_ne_nil _ _)

theorem occurrences_crlf (text : List Char) :
    occurrences (LineTable.ofText (crlf text)) = occurrences (LineTable.ofText text) :=
  occurrences_sitesFrom_crlf [] text

end Expression

/-! ## Lines -/

theorem Line.text_of_not_mem {start : Nat} {chars : List Char} (h : '\r' ∉ chars) : (⟨start, chars⟩ : Line).text = chars :=
  if_neg fun hlast => h (List.mem_of_getLast? hlast)

/-- Each line has the same text, and begins one byte later for each line above it. -/
theorem linesFrom_crlf {text : List Char} (start n k : Nat) (h : '\r' ∉ text) :
    ((linesFrom (start + n) (crlf text))[k]?).map (fun line => (line.start, line.text)) =
      ((linesFrom start text)[k]?).map fun line => (line.start + (n + k), line.text) := by
  induction text using line_induction generalizing start n k with
  | last line hline =>
    rw [crlf_eq_self hline, linesFrom_of_not_mem _ hline, linesFrom_of_not_mem _ hline]
    cases k with
    | zero => rfl
    | succ k => rfl
  | next line rest hline ih =>
    rw [List.mem_append, List.mem_cons, not_or, not_or] at h
    have hcrlf : crlf (line ++ '\n' :: rest) = line ++ ['\r'] ++ '\n' :: crlf rest := by
      rw [crlf_append, crlf_eq_self hline, crlf_feed, List.append_assoc]
      rfl
    have hreturn : '\n' ∉ line ++ ['\r'] := by simpa using hline
    rw [hcrlf, linesFrom_append _ _ hreturn, linesFrom_append _ _ hline]
    cases k with
    | zero =>
      simp only [List.getElem?_cons_zero, Option.map_some, Line.text_append_return, Line.text_of_not_mem h.1]
      rfl
    | succ k =>
      have hrest := ih (start + utf8Length line + 1) (n + 1) k h.2.2
      have hstart : start + n + utf8Length (line ++ ['\r']) + 1 = start + utf8Length line + 1 + (n + 1) := by
        rw [utf8Length_append]
        show start + n + (utf8Length line + 1) + 1 = _
        omega
      rw [List.getElem?_cons_succ, List.getElem?_cons_succ, hstart, hrest]
      simp only [Nat.add_assoc, Nat.add_comm 1]

namespace Layout

/-! ## Rows -/

/-- the row of the same line where the line endings are longer by one character: the key is moved by one byte for each line
above it -/
def Row.shift (row : Row) : Row :=
  { row with key := row.key.map fun key => ⟨key.text, key.start + row.number, key.stop + row.number⟩ }

theorem Row.shift_indent (row : Row) : row.shift.indent = row.indent := rfl

theorem Row.shift_declares (row : Row) (name : String) : row.shift.declares name = row.declares name := by
  unfold Row.declares Row.shift
  cases row.key with
  | none => rfl
  | some key => rfl

theorem ofLine_shift {n : Nat} {line line' : Line} (hstart : line'.start = line.start + n) (htext : line'.text = line.text) :
    Row.ofLine n line' = (Row.ofLine n line).shift := by
  simp only [Row.ofLine, Row.shift, htext, hstart]
  split
  case isTrue => rfl
  case isFalse =>
    simp only [Option.map_map, Function.comp_def, Nat.add_right_comm _ n]

/-- Each row is the same but for the offsets of its key. -/
theorem rows_crlf {text : List Char} (h : '\r' ∉ text) :
    (Layout.ofText (crlf text)).rows = (Layout.ofText text).rows.map Row.shift := by
  refine List.ext_getElem? fun k => ?_
  have hlines := linesFrom_crlf 0 0 k h
  rw [List.getElem?_map, getElem?_rows, getElem?_rows]
  show ((linesFrom 0 (crlf text))[k]?).map _ = ((((linesFrom 0 text)[k]?).map _).map _)
  cases hline : (linesFrom 0 text)[k]? with
  | none =>
    rw [hline] at hlines
    rw [Option.map_eq_none_iff.1 hlines]
    rfl
  | some line =>
    rw [hline] at hlines
    obtain ⟨line', hline', heq⟩ := Option.map_eq_some_iff.1 hlines
    obtain ⟨hstart, htext⟩ := Prod.mk.inj heq
    rw [hline', Option.map_some, Option.map_some, Option.map_some, ofLine_shift (by simpa using hstart) htext]

theorem top_crlf {text : List Char} (h : '\r' ∉ text) : (Layout.ofText (crlf text)).top = (Layout.ofText text).top := by
  have hlines := congrArg (Option.map Prod.snd) (linesFrom_crlf 0 0 0 h)
  rw [Option.map_map, Option.map_map] at hlines
  have htext : (Layout.ofText (crlf text)).table.lineText? 0 = (Layout.ofText text).table.lineText? 0 := hlines
  rw [top, top, htext]

/-! ## Lookups

None of them looks at the offset of a key, so each commutes with moving it. -/

def Block.shift (block : Block) : Block :=
  ⟨block.header.shift, block.body.map Row.shift⟩

theorem bodyOf_map_shift (indent : Nat) (rows : List Row) :
    bodyOf indent (rows.map Row.shift) = (bodyOf indent rows).map Row.shift := by
  rw [bodyOf, bodyOf, List.takeWhile_map]
  rfl

theorem childIndent?_map_shift (rows : List Row) : childIndent? (rows.map Row.shift) = childIndent? rows := by
  rw [childIndent?, childIndent?, List.find?_map, Option.map_map]
  rfl

theorem firstNamed_map_shift (indent : Nat) (name : String) (rows : List Row) :
    firstNamed indent name (rows.map Row.shift) = (firstNamed indent name rows).map Block.shift := by
  induction rows with
  | nil => rfl
  | cons row rows ih =>
    rw [List.map_cons, firstNamed, firstNamed, Row.shift_indent, Row.shift_declares, bodyOf_map_shift, ih]
    split <;> rfl

theorem child?_map_shift (name : String) (rows : List Row) :
    child? name (rows.map Row.shift) = (child? name rows).map Block.shift := by
  rw [child?, child?, childIndent?_map_shift]
  cases childIndent? rows with
  | none => rfl
  | some indent => exact firstNamed_map_shift indent name rows

theorem descend_map_shift (path : List String) (rows : List Row) :
    descend path (rows.map Row.shift) = (descend path rows).map Block.shift := by
  fun_induction descend path rows with
  | case1 => rfl
  | case2 name rows => exact child?_map_shift name rows
  | case3 name next path rows ih =>
    rw [descend, child?_map_shift]
    cases child? name rows with
    | none => rfl
    | some block => exact ih block

/-- The offsets of a key, moved, are where the key stands with the longer line endings. -/
theorem range_shift {text : List Char} {row : Row} {key : KeySpan} (hrow : row ∈ (Layout.ofText text).rows)
    (hkey : row.key = some key) :
    (LineTable.ofText (crlf text)).range (key.start + row.number) (key.stop + row.number) =
      (LineTable.ofText text).range key.start key.stop := by
  obtain ⟨front, back, rfl, hstart, hstop, hcount, hfeed⟩ := key_stands hrow hkey
  have hstart' : key.start + row.number = utf8Length (crlf front) := by rw [utf8Length_crlf, hstart, hcount]
  have hstop' : key.stop + row.number = utf8Length (crlf (front ++ key.text)) := by
    rw [utf8Length_crlf, utf8Length_append, List.count_append, List.count_eq_zero.2 hfeed, hstart, hstop, hcount, Nat.add_zero]
  have hafter := LineTable.position_crlf (front ++ key.text) back
  rw [List.append_assoc, utf8Length_append front, hstart, hstop] at hafter
  rw [LineTable.range, LineTable.range, hstart', hstop', LineTable.position_crlf, hafter, hstart]

/-- What a lookup finds has the same range with either line ending. -/
theorem headerRange_shift {text : List Char} {block : Block} (h : '\r' ∉ text)
    (hmem : block.header ∈ (Layout.ofText text).rows) :
    (Layout.ofText (crlf text)).headerRange block.shift = (Layout.ofText text).headerRange block := by
  have hshift : block.shift.header.key =
      block.header.key.map fun key => ⟨key.text, key.start + block.header.number, key.stop + block.header.number⟩ := rfl
  rw [headerRange, headerRange, headerVia, headerVia, hshift]
  cases hkey : block.header.key with
  | none => exact top_crlf h
  | some key => exact range_shift hmem hkey

theorem rangeOr_descend_crlf {text : List Char} {fallback fallback' : Range} (h : '\r' ∉ text)
    (hfallback : fallback' = fallback) (path : List String) :
    (Layout.ofText (crlf text)).rangeOr fallback' (descend path (Layout.ofText (crlf text)).rows) =
      (Layout.ofText text).rangeOr fallback (descend path (Layout.ofText text).rows) := by
  rw [rows_crlf h, descend_map_shift]
  cases hblock : descend path (Layout.ofText text).rows with
  | none => exact hfallback
  | some block => exact headerRange_shift h (header_mem_of_descend hblock)

theorem lookup_crlf {text : List Char} (h : '\r' ∉ text) (lookup : Lookup) :
    lookup.range (Layout.ofText (crlf text)) = lookup.range (Layout.ofText text) := by
  have hfallback : ∀ lookup : Lookup,
      lookup.fallback (Layout.ofText (crlf text)) = lookup.fallback (Layout.ofText text) →
        lookup.range (Layout.ofText (crlf text)) = lookup.range (Layout.ofText text) := by
    intro lookup hsame
    rw [Lookup.range_eq, Lookup.range_eq]
    exact rangeOr_descend_crlf h hsame lookup.path
  refine hfallback lookup ?_
  cases lookup with
  | rootKey | workflow | task => exact top_crlf h
  | workflowKey w key => exact hfallback (.workflow w) (top_crlf h)
  | taskKey w t key => exact hfallback (.task w t) (top_crlf h)

theorem taskSpan_crlf {text : List Char} (h : '\r' ∉ text) (workflow task : String) :
    (Layout.ofText (crlf text)).taskSpan workflow task = (Layout.ofText text).taskSpan workflow task := by
  rw [taskSpan, taskSpan, taskBlock?_eq_descend, taskBlock?_eq_descend, rows_crlf h, descend_map_shift]
  cases descend ["workflows", workflow, "tasks", task] (Layout.ofText text).rows with
  | none =>
    show (⟨0, _⟩ : LineSpan) = ⟨0, _⟩
    rw [← List.map_drop, bodyOf_map_shift, List.length_map]
  | some block =>
    show (⟨_, _ + (block.body.map Row.shift).length⟩ : LineSpan) = ⟨_, _⟩
    rw [List.length_map]
    rfl

end Layout

/-- **Line endings make no difference.** With a carriage return before every line feed, a document has the same expressions
at the same places and with the same faults, and every key and every task is found where it was. -/
theorem line_endings_invisible (text : List Char) (h : '\r' ∉ text) :
    let layout := Layout.ofText text
    let layout' := Layout.ofText (crlf text)
    Expression.occurrences layout'.table = Expression.occurrences layout.table ∧
    (Expression.occurrences layout'.table).map (fun occurrence => Expression.check occurrence.bodyStart occurrence.body) =
      (Expression.occurrences layout.table).map (fun occurrence => Expression.check occurrence.bodyStart occurrence.body) ∧
    layout'.top = layout.top ∧ (∀ lookup : Layout.Lookup, lookup.range layout' = lookup.range layout) ∧
    ∀ workflow task, layout'.taskSpan workflow task = layout.taskSpan workflow task := by
  have hoccurrences := Expression.occurrences_crlf text
  exact ⟨hoccurrences, congrArg _ hoccurrences, Layout.top_crlf h, Layout.lookup_crlf h, Layout.taskSpan_crlf h⟩

/-- a task with an expression that begins on one line and ends on the next -/
def foldedText : List Char :=
  "workflows:\n  w:\n    tasks:\n      t:\n        join: <%\n          $.x %>\n".toList

/-- The expression reaches over a carriage return, and nothing has moved. -/
theorem line_endings_invisible_folded :
    '\r' ∉ foldedText ∧ crlf foldedText =
      "workflows:\r\n  w:\r\n    tasks:\r\n      t:\r\n        join: <%\r\n          $.x %>\r\n".toList ∧
    Expression.occurrences (LineTable.ofText (crlf foldedText)) = [⟨"$.x".toList, ⟨⟨4, 14⟩, ⟨5, 16⟩⟩, ⟨5, 10⟩⟩] ∧
    (Layout.ofText (crlf foldedText)).taskKey "w" "t" "join" = ⟨⟨4, 8⟩, ⟨4, 12⟩⟩ ∧
    (Layout.ofText (crlf foldedText)).taskSpan "w" "t" = ⟨3, 6⟩ := by
  have hreturn : '\r' ∉ foldedText := by decide
  obtain ⟨hoccurrences, -, -, hlookup, hspan⟩ := line_endings_invisible foldedText hreturn
  exact ⟨hreturn, by decide, hoccurrences.trans (by decide), (hlookup (.taskKey "w" "t" "join")).trans (by decide),
    (hspan "w" "t").trans (by decide)⟩

end WorkflowLint
