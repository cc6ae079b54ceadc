/-
Keys stand in the document where their rows say.

A row measures its key in bytes, from the offset of its line on. Here the measures are tied to the document: `linesFrom_below`
gives the lines above a line and the text after it, `keyAt_stands` what stands on the line before and after a key, and
`key_stands` puts the two together. `line_induction` is what they rest on: a text is a line alone, or a line, a line feed and
a text.
-/
import WorkflowLint.Proofs.Rows

namespace WorkflowLint

open WorkflowLint.Text

/-! ## Lines -/

/-- A text is one line, or a line with a text below it. -/
theorem line_induction {motive : List Char → Prop} (last : ∀ line, '\n' ∉ line → motive line)
    (next : ∀ line rest, '\n' ∉ line → motive rest → motive (line ++ '\n' :: rest)) (text : List Char) : motive text := by
  induction hlen : text.length using Nat.strong_induction_on generalizing text with
  | _ n ih =>
    by_cases hfeed : '\n' ∈ text
    · obtain ⟨line, rest, rfl, hline⟩ := List.eq_append_cons_of_mem hfeed
      exact next line rest hline (ih _ (by rw [← hlen]; simp; omega) rest rfl)
    · exact last text hfeed

/-- A line stands in its text where it says, below as many lines as its number. -/
theorem linesFrom_below {start k : Nat} {text : List Char} {line : Line} (h : (linesFrom start text)[k]? = some line) :
    ∃ above after, text = closedLines above ++ (line.chars ++ after) ∧
      start + utf8Length (closedLines above) = line.start ∧ above.length = k ∧ (∀ other ∈ above, '\n' ∉ other) ∧
      '\n' ∉ line.chars := by
  induction text using line_induction generalizing start k with
  | last chars hline =>
    rw [linesFrom_of_not_mem _ hline] at h
    cases k with
    | zero =>
      obtain rfl := Option.some.inj h
      exact ⟨[], [], by simp [closedLines], rfl, rfl, List.forall_mem_nil _, hline⟩
    | succ k => simp at h
  | next chars rest hline ih =>
    rw [linesFrom_append _ _ hline] at h
    cases k with
    | zero =>
      obtain rfl := Option.some.inj h
      exact ⟨[], '\n' :: rest, rfl, rfl, rfl, List.forall_mem_nil _, hline⟩
    | succ k =>
      obtain ⟨above, after, rfl, hstart, hlength, habove, hmem⟩ := ih h
      refine ⟨chars :: above, after, by simp [closedLines], ?_, by rw [List.length_cons, hlength],
        List.forall_mem_cons.2 ⟨hline, habove⟩, hmem⟩
      rw [← hstart, closedLines, List.flatMap_cons, utf8Length_append, utf8Length_append]
      show start + (utf8Length chars + 1 + utf8Length (closedLines above)) = _
      omega

theorem count_closedLines {lines : List (List Char)} (h : ∀ line ∈ lines, '\n' ∉ line) :
    (closedLines lines).count '\n' = lines.length := by
  have hwalk := Position.advanceAll_line ⟨0, 0⟩ (closedLines lines)
  rw [Position.advanceAll_closedLines 0 h] at hwalk
  simpa using hwalk.symm

/-- A line stands in its text where it says, below as many line feeds as its number. -/
theorem linesFrom_stands {start k : Nat} {text : List Char} {line : Line} (h : (linesFrom start text)[k]? = some line) :
    ∃ before after, text = before ++ (line.chars ++ after) ∧ start + utf8Length before = line.start ∧
      before.count '\n' = k ∧ '\n' ∉ line.chars := by
  obtain ⟨above, after, htext, hstart, hlength, habove, hline⟩ := linesFrom_below h
  exact ⟨closedLines above, after, htext, hstart, (count_closedLines habove).trans hlength, hline⟩

theorem Line.exists_chars_eq (line : Line) : ∃ ending, line.chars = line.text ++ ending := by
  rcases line.text_eq with hchars | hchars
  · exact ⟨[], by rw [List.append_nil, ← hchars]⟩
  · exact ⟨_, hchars⟩

namespace Layout

/-! ## Keys -/

theorem plainRun_prefix {text run : List Char} (h : plainRun text = some run) : ∃ back, text = run ++ back := by
  fun_induction plainRun text generalizing run with
  | case1 => simp at h
  | case2 c rest hcolon =>
    obtain rfl := Option.some.inj h
    exact ⟨_, rfl⟩
  | case3 => simp at h
  | case4 c rest hcolon hhash ih =>
    obtain ⟨inner, hinner, rfl⟩ := Option.map_eq_some_iff.1 h
    obtain ⟨back, rfl⟩ := ih hinner
    exact ⟨back, rfl⟩

theorem quotedRun_prefix {quote : Char} {text run : List Char} (h : quotedRun quote text = some run) :
    ∃ back, text = run ++ back := by
  unfold quotedRun at h
  split at h
  case h_1 => simp at h
  case h_2 =>
    split at h
    case isTrue =>
      obtain rfl := Option.some.inj h
      exact ⟨_, List.takeWhile_append_dropWhile.symm⟩
    case isFalse => simp at h

theorem keyAt_stands {text run : List Char} {lead : Nat} (h : keyAt text = some (lead, run)) :
    ∃ front back, text = front ++ (run ++ back) ∧ utf8Length front = lead := by
  unfold keyAt at h
  split at h
  case h_1 => simp at h
  case h_2 c rest =>
    split at h
    case isTrue hquote =>
      obtain ⟨found, hfound, heq⟩ := Option.map_eq_some_iff.1 h
      obtain ⟨rfl, rfl⟩ := Prod.mk.inj heq
      obtain ⟨back, rfl⟩ := quotedRun_prefix hfound
      refine ⟨[c], back, rfl, ?_⟩
      rcases hquote with rfl | rfl <;> rfl
    case isFalse =>
      split at h
      case isTrue =>
        obtain ⟨found, hfound, heq⟩ := Option.map_eq_some_iff.1 h
        obtain ⟨rfl, rfl⟩ := Prod.mk.inj heq
        obtain ⟨back, rfl⟩ := plainRun_prefix hfound
        exact ⟨[], back, rfl, rfl⟩
      case isFalse => simp at h

theorem utf8Length_takeWhile_isIndent (text : List Char) :
    utf8Length (text.takeWhile isIndent) = (text.takeWhile isIndent).length := by
  induction text with
  | nil => rfl
  | cons c text ih =>
    rw [List.takeWhile_cons]
    split
    case isTrue hc =>
      have hsize : c.utf8Size = 1 := by
        simp only [isIndent, Bool.or_eq_true, beq_iff_eq] at hc
        rcases hc with rfl | rfl <;> rfl
      rw [utf8Length, List.length_cons, ih, hsize, Nat.add_comm]
    case isFalse => rfl

/-- The key of a line stands on that line at the offsets that the row gives for it, before a final carriage return. -/
theorem ofLine_key_stands {n : Nat} {line : Line} {key : KeySpan} (h : (Row.ofLine n line).key = some key) :
    ∃ front back, line.text = front ++ (key.text ++ back) ∧ line.start + utf8Length front = key.start ∧
      key.start + utf8Length key.text = key.stop := by
  simp only [Row.ofLine] at h
  split at h
  case isTrue => simp at h
  case isFalse =>
    obtain ⟨⟨lead, run⟩, hkey, rfl⟩ := Option.map_eq_some_iff.1 h
    obtain ⟨front, back, hrest, hlead⟩ := keyAt_stands hkey
    obtain ⟨trail, hrun, -⟩ := trimEnd_append run
    have htext : line.text = line.text.takeWhile isIndent ++ front ++ (trimEnd run ++ (trail ++ back)) := by
      rw [List.append_assoc, ← List.append_assoc (trimEnd run), ← hrun, ← hrest, List.takeWhile_append_dropWhile]
    have hstart : line.start + utf8Length (line.text.takeWhile isIndent ++ front) =
        line.start + (line.text.takeWhile isIndent).length + lead := by
      rw [utf8Length_append, utf8Length_takeWhile_isIndent, hlead, Nat.add_assoc]
    exact ⟨_, trail ++ back, htext, hstart, rfl⟩

/-- The key of a line goes by its characters; its offsets are counted from the beginning of the line. -/
theorem ofLine_key_eq (n : Nat) (line : Line) :
    (Row.ofLine n line).key =
      (Row.ofLine 0 ⟨0, line.chars⟩).key.map fun key => ⟨key.text, line.start + key.start, line.start + key.stop⟩ := by
  have htext : (⟨0, line.chars⟩ : Line).text = line.text := rfl
  simp only [Row.ofLine, htext]
  split
  case isTrue => rfl
  case isFalse => simp only [Option.map_map, Function.comp_def, Nat.zero_add, Nat.add_assoc]

/-- The key of a row stands in the text, below as many line feeds as the number of the row. -/
theorem key_stands {text : List Char} {row : Row} {key : KeySpan} (hrow : row ∈ (Layout.ofText text).rows)
    (hkey : row.key = some key) :
    ∃ front back, text = front ++ (key.text ++ back) ∧ utf8Length front = key.start ∧
      key.start + utf8Length key.text = key.stop ∧ front.count '\n' = row.number ∧ '\n' ∉ key.text := by
  obtain ⟨k, hk⟩ := List.getElem?_of_mem hrow
  rw [getElem?_rows] at hk
  obtain ⟨line, hline, rfl⟩ := Option.map_eq_some_iff.1 hk
  obtain ⟨before, after, rfl, hstart, hcount, hfeed⟩ := linesFrom_stands hline
  obtain ⟨front, back, htext, hlead, hstop⟩ := ofLine_key_stands hkey
  obtain ⟨ending, hchars⟩ := line.exists_chars_eq
  rw [htext, List.append_assoc, List.append_assoc] at hchars
  rw [hchars, List.mem_append, List.mem_append, not_or, not_or] at hfeed
  refine ⟨before ++ front, back ++ (ending ++ after), by rw [hchars]; simp, ?_, hstop, ?_, hfeed.2.1⟩
  · rw [utf8Length_append, ← hlead, ← hstart, Nat.zero_add]
  · rw [List.count_append, hcount, List.count_eq_zero.2 hfeed.1]
    rfl

end Layout

end WorkflowLint
