/-
White space is a seam of an expression: what stands before it and what stands behind it are read apart.

`firstSegment_append` is the step: a segment that is not an open literal stays what it is when a text is put behind it, as long
as that text does not begin with a character that could carry the segment on. No blank can. It is not a digit, not a point, not
part of a word and not part of an operator, so none of the ways of reading looks past it. Only a literal that is still open
would take it in.

Results:
- `segments_cons`, `segments_induction`: a text is read one segment at a time, from the front.
- `segments_append_of_blank`: the segments of a text with white space behind it are its own, and then those of the rest.
- `tokenize_append`: where segments are cut, tokens and errors are cut, and the second part is read from where the first ends.
- `tokenize_across_blank`: without an open literal in the first part, both parts are read as if each stood alone.
-/
import WorkflowLint.Proofs.BracketRepair
import WorkflowLint.Proofs.KeyLines

namespace WorkflowLint.Expression

open WorkflowLint.Text

/-! ## One segment at a time -/

theorem segmentsFrom_eq_drop (skip : Nat) (text : List Char) : segmentsFrom skip text = segments (text.drop skip) := by
  induction text generalizing skip with
  | nil => simp [segments, segmentsFrom]
  | cons c rest ih =>
    cases skip with
    | zero => rfl
    | succ skip => exact ih skip

/-- Reading goes on right behind the first segment. -/
theorem segments_cons {c : Char} {inner tail : List Char} (h : (firstSegment c (inner ++ tail)).source = c :: inner) :
    segments (c :: (inner ++ tail)) = firstSegment c (inner ++ tail) :: segments tail := by
  rw [segments, segmentsFrom, segmentsFrom_eq_drop, h]
  simp

/-- What holds of nothing, and of a text if it holds behind the first segment, holds of every text. -/
theorem segments_induction {motive : List Char → Prop} (nil : motive [])
    (read : ∀ c inner tail, (firstSegment c (inner ++ tail)).source = c :: inner → motive tail →
      motive (c :: (inner ++ tail))) (text : List Char) : motive text := by
  induction hn : text.length using Nat.strong_induction_on generalizing text with
  | _ n ih =>
    cases text with
    | nil => exact nil
    | cons c rest =>
      obtain ⟨inner, tail, hs, rfl⟩ := firstSegment_source c rest
      apply read c inner tail hs
      apply ih tail.length _ tail rfl
      rw [← hn, List.length_cons, List.length_append]
      omega

/-! ## Classes of characters -/

theorem continuesWord_of_isBlank {c : Char} (h : isBlank c = true) : continuesWord c = false := by
  cases hc : continuesWord c with
  | false => rfl
  | true =>
    have hnot := Layout.isBlank_of_isKeyChar (Layout.isKeyChar_of_continuesWord hc)
    exact absurd (h.symm.trans hnot) Bool.noConfusion

theorem isDigit_of_isBlank {c : Char} (h : isBlank c = true) : isDigit c = false := by
  have hword := continuesWord_of_isBlank h
  simp only [continuesWord, Bool.or_eq_false_iff] at hword
  exact hword.1.2

theorem ne_backslash_of_quote {quote : Char} (h : quote = '\'' ∨ quote = '"') : quote ≠ '\\' := by
  rcases h with rfl | rfl <;> decide

theorem isBlank_of_quote {quote : Char} (h : quote = '\'' ∨ quote = '"') : isBlank quote = false := by
  rcases h with rfl | rfl <;> decide

/-! ## What blanks cannot carry on -/

/-- nothing, or a text that begins with white space -/
def StartsBlank (text : List Char) : Prop :=
  ∀ c, text.head? = some c → isBlank c = true

section Behind

variable {after : List Char}

theorem takeWhile_append_of_stop {p : Char → Bool} (text : List Char) (h : ∀ c, after.head? = some c → p c = false) :
    (text ++ after).takeWhile p = text.takeWhile p := by
  have hstop : after.takeWhile p = [] := by
    cases after with
    | nil => rfl
    | cons c after => simp [h c rfl]
  rw [List.takeWhile_append, hstop, List.append_nil]
  split
  case isTrue hall => exact ((List.takeWhile_prefix p).eq_of_length hall).symm
  case isFalse => rfl

theorem dropWhile_append_of_stop {p : Char → Bool} (text : List Char) (h : ∀ c, after.head? = some c → p c = false) :
    (text ++ after).dropWhile p = text.dropWhile p ++ after := by
  have hwhole := List.takeWhile_append_dropWhile (p := p) (l := text ++ after)
  rw [takeWhile_append_of_stop text h] at hwhole
  have hboth : text.takeWhile p ++ (text ++ after).dropWhile p = text.takeWhile p ++ (text.dropWhile p ++ after) := by
    rw [hwhole, ← List.append_assoc, List.takeWhile_append_dropWhile]
  exact List.append_cancel_left hboth

/-- A number ends before a blank, also behind its point. -/
theorem numberSource_append_of_blank (text : List Char) (h : StartsBlank after) :
    numberSource (text ++ after) = numberSource text := by
  have hdigit : ∀ c, after.head? = some c → isDigit c = false := by
    intro c hc
    exact isDigit_of_isBlank (h c hc)
  simp only [numberSource, takeWhile_append_of_stop text hdigit, dropWhile_append_of_stop text hdigit]
  cases text.dropWhile isDigit with
  | nil =>
    have hpoint : ∀ rest, after ≠ '.' :: rest := by
      rintro rest rfl
      exact absurd (h '.' rfl) (by decide)
    rw [List.nil_append]
    split
    case h_1 _ rest => exact absurd rfl (hpoint rest)
    case h_2 => rfl
  | cons d tail =>
    by_cases hd : d = '.'
    · subst hd
      simp [takeWhile_append_of_stop tail hdigit]
    · simp [hd]

theorem wordSegment_append_of_blank (text : List Char) (h : StartsBlank after) :
    wordSegment (text ++ after) = wordSegment text := by
  have hword : ∀ c, after.head? = some c → continuesWord c = false := by
    intro c hc
    exact continuesWord_of_isBlank (h c hc)
  simp only [wordSegment, takeWhile_append_of_stop text hword]

theorem isBlank_of_mem_symbolOperators :
    ∀ operator ∈ symbolOperators, ∀ c ∈ operator, isBlank c = false := by
  simp [symbolOperators, isBlank]

theorem prefix_append_iff_of_blank {operator : List Char} (text : List Char) (h : StartsBlank after)
    (hoperator : ∀ c ∈ operator, isBlank c = false) : operator <+: text ++ after ↔ operator <+: text := by
  constructor
  · rintro ⟨rest, hrest⟩
    rcases List.append_eq_append_iff.1 hrest with ⟨m, rfl, -⟩ | ⟨m, hm, hafter⟩
    · exact List.prefix_append _ _
    · cases m with
      | nil => simp [hm]
      | cons c m =>
        have hblank : isBlank c = true := h c (by simp [hafter])
        have hmem : c ∈ operator := by simp [hm]
        exact absurd (hblank.symm.trans (hoperator c hmem)) Bool.noConfusion
  · intro hp
    exact hp.trans (List.prefix_append _ _)

theorem symbolOperator?_append_of_blank (text : List Char) (h : StartsBlank after) :
    symbolOperator? (text ++ after) = symbolOperator? text := by
  rw [symbolOperator?, symbolOperator?, ← List.head?_filter, ← List.head?_filter]
  apply congrArg List.head?
  apply List.filter_congr
  intro operator hmem
  rw [Bool.eq_iff_iff, List.isPrefixOf_iff_prefix, List.isPrefixOf_iff_prefix]
  exact prefix_append_iff_of_blank text h (isBlank_of_mem_symbolOperators operator hmem)

theorem literalBody_of_closedBody {quote : Char} {body : List Char} (h : ClosedBody quote body) (hquote : quote ≠ '\\')
    (rest : List Char) : literalBody quote (body ++ quote :: rest) = some body := by
  induction h with
  | nil => rw [List.nil_append, literalBody.eq_def]; simp [hquote]
  | escaped _ ih => simp [literalBody, ih]
  | plain hbackslash hne _ ih => rw [List.cons_append, literalBody.eq_def]; simp [hbackslash, hne, ih]

/-- A literal that is closed is closed whatever stands behind it. -/
theorem literalBody_append_of_closed {quote : Char} {text body : List Char} (h : literalBody quote text = some body)
    (hquote : quote ≠ '\\') : literalBody quote (text ++ after) = some body := by
  obtain ⟨rest, rfl⟩ := literalBody_append h
  rw [List.append_assoc, List.cons_append]
  exact literalBody_of_closedBody (closedBody_of_literalBody h) hquote _

/-- **The step.** A segment that is not an open literal does not change when a text that begins with white space is put behind
it. -/
theorem firstSegment_append {c : Char} {rest : List Char} (hclosed : ∀ source, firstSegment c rest ≠ .unclosed source)
    (h : StartsBlank after) : firstSegment c (rest ++ after) = firstSegment c rest := by
  have hnumber := numberSource_append_of_blank (c :: rest) h
  have hsymbol := symbolOperator?_append_of_blank (c :: rest) h
  have hword := wordSegment_append_of_blank (c :: rest) h
  rw [List.cons_append] at hnumber hsymbol hword
  by_cases hquote : c = '\'' ∨ c = '"'
  · cases hbody : literalBody c rest with
    | none =>
      have hopen : firstSegment c rest = .unclosed (c :: rest) := by
        simp [firstSegment, isBlank_of_quote hquote, hquote, hbody]
      exact absurd hopen (hclosed _)
    | some body =>
      have hbehind : literalBody c (rest ++ after) = some body :=
        literalBody_append_of_closed hbody (ne_backslash_of_quote hquote)
      simp only [firstSegment, hbody, hbehind, hquote, if_true]
  · simp only [firstSegment, hnumber, hsymbol, hword, hquote, if_false]

/-- **The seam.** Without an open literal, the segments of a text are the same with white space behind it. -/
theorem segments_append_of_blank {text : List Char} (hclosed : ∀ source, .unclosed source ∉ segments text)
    (h : StartsBlank after) : segments (text ++ after) = segments text ++ segments after := by
  induction text using segments_induction with
  | nil => rfl
  | read c inner tail hs ih =>
    rw [segments_cons hs] at hclosed
    have hfirst : firstSegment c (inner ++ (tail ++ after)) = firstSegment c (inner ++ tail) := by
      rw [← List.append_assoc]
      apply firstSegment_append _ h
      intro source he
      exact hclosed source (by simp [he])
    have hrest := ih fun source hm => hclosed source (List.mem_cons_of_mem _ hm)
    have hs' : (firstSegment c (inner ++ (tail ++ after))).source = c :: inner := by rw [hfirst, hs]
    rw [List.cons_append, List.append_assoc, segments_cons hs', hfirst, segments_cons hs, hrest, List.cons_append]

/-- Blanks are read one by one, whatever stands behind them. -/
theorem segments_of_blank {blanks : List Char} (hblank : ∀ c ∈ blanks, isBlank c = true) :
    segments (blanks ++ after) = blanks.map Segment.blank ++ segments after := by
  induction blanks with
  | nil => rfl
  | cons c blanks ih =>
    obtain ⟨hc, hothers⟩ := List.forall_mem_cons.1 hblank
    have hfirst : firstSegment c (blanks ++ after) = .blank c := if_pos hc
    have hs : (firstSegment c ([] ++ (blanks ++ after))).source = [c] := by rw [List.nil_append, hfirst]; rfl
    have hread := segments_cons hs
    rw [List.nil_append, hfirst, ih hothers] at hread
    exact hread

end Behind

/-! ## Tokens and errors -/

/-- What the first segment gives, and then what is read behind it. -/
theorem tokenize_of_segments_cons (origin : Position) {text tail : List Char} {first : Segment}
    (h : segments text = first :: segments tail) :
    tokenize origin text =
      ((first.token? origin).toList ++ (tokenize (origin.advanceAll first.source) tail).1,
        (first.error? origin).toList ++ (tokenize (origin.advanceAll first.source) tail).2) := by
  simp only [tokenize, h, place, List.filterMap_cons]
  cases first.token? origin <;> cases first.error? origin <;> rfl

/-- **Two parts.** Where the segments of a text are those of its two parts, so are its tokens and its errors. The second part
begins where the first one ends. -/
theorem tokenize_append (origin : Position) {a b : List Char} (h : segments (a ++ b) = segments a ++ segments b) :
    tokenize origin (a ++ b) =
      ((tokenize origin a).1 ++ (tokenize (origin.advanceAll a) b).1,
        (tokenize origin a).2 ++ (tokenize (origin.advanceAll a) b).2) := by
  simp only [tokenize, h, place_append, segments_source, List.filterMap_append]

/-- A literal that is open is reported. -/
theorem not_mem_segments_of_closed {origin : Position} {text : List Char}
    (h : ∀ error ∈ (tokenize origin text).2, error.message ≠ "Unterminated string literal") (source : List Char) :
    .unclosed source ∉ segments text := by
  intro hm
  obtain ⟨p, hp⟩ := exists_place_of_mem origin hm
  have herror : (⟨.unterminatedString, p⟩ : LexicalError) ∈ (tokenize origin text).2 :=
    List.mem_filterMap.2 ⟨_, hp, rfl⟩
  exact h _ herror rfl

/-- **Read apart.** If the reading of `a` reports no open literal, then with at least one blank between them `a` and `b` are
read as if each stood alone: the tokens and the errors are those of `a` and then those of `b`, which begins behind the
blanks. -/
theorem tokenize_across_blank (origin : Position) (a w b : List Char) (hw : w ≠ []) (hblank : ∀ c ∈ w, isBlank c = true)
    (hclosed : ∀ error ∈ (tokenize origin a).2, error.message ≠ "Unterminated string literal") :
    tokenize origin (a ++ w ++ b) =
      ((tokenize origin a).1 ++ (tokenize (origin.advanceAll (a ++ w)) b).1,
        (tokenize origin a).2 ++ (tokenize (origin.advanceAll (a ++ w)) b).2) := by
  have hstart : StartsBlank (w ++ b) := by
    intro c hc
    cases w with
    | nil => exact absurd rfl hw
    | cons d w =>
      obtain rfl : d = c := by simpa using hc
      exact hblank d List.mem_cons_self
  have hfirst : segments (a ++ (w ++ b)) = segments a ++ segments (w ++ b) :=
    segments_append_of_blank (not_mem_segments_of_closed hclosed) hstart
  have hblanks : segments (w ++ b) = segments w ++ segments b := by
    have halone : segments (w ++ []) = w.map Segment.blank ++ segments [] := segments_of_blank hblank
    rw [List.append_nil] at halone
    rw [segments_of_blank hblank, halone]
    simp [segments, segmentsFrom]
  rw [List.append_assoc, tokenize_append origin hfirst, tokenize_append _ hblanks, tokenize_of_blank _ hblank,
    Position.advanceAll_append]
  rfl

/-- **At the end of a part.** The first part ends in a decimal point, and behind the blanks, one of them a line feed, stands a
digit: the number does not go on there, and its fault is reported all the same. The second part may well end in an open
literal. -/
theorem number_ends_at_blank :
    (tokenize ⟨3, 5⟩ "x >1.".toList).2.map LexicalError.message = ["Expected digit after decimal point"] ∧
      tokenize ⟨3, 5⟩ ("x >1.".toList ++ [' ', '\n'] ++ "5 'é".toList) =
        ((tokenize ⟨3, 5⟩ "x >1.".toList).1 ++ (tokenize ⟨4, 0⟩ "5 'é".toList).1,
          (tokenize ⟨3, 5⟩ "x >1.".toList).2 ++ (tokenize ⟨4, 0⟩ "5 'é".toList).2) :=
  ⟨by decide +kernel, tokenize_across_blank ⟨3, 5⟩ "x >1.".toList [' ', '\n'] "5 'é".toList (by simp) (by simp [isBlank])
    (by decide +kernel)⟩

end WorkflowLint.Expression
