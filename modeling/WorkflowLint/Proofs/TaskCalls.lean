/-
Task references against the calls among the tokens.

A reference is found by its spelling in the raw text (`RefersAt`). A call is four tokens: the function `task`, `(`, a literal
and `)` (`taskCalls`). Where a reference begins a token, and its two quotes are alike, these four are read from it. It can also
begin inside a token: a literal may spell a reference, and a longer word may end in `task`. No other kind of token has the
letter `t` in it, so there is no third way.

Results:
- `mem_taskReferences_iff`: every reference in the text is found, and nothing else.
- `taskCall?_callSource`: a reference at the front of a text is read as a call.
- `references_are_calls`: both for every text that is read without error, and for references with quotes that are alike and
  outside of longer words. What becomes of the others is not said there.
- `reference_without_call`: the three ways in which a reference can fail to be a call.
-/
import Mathlib.Data.List.Infix
import WorkflowLint.Proofs.ReferenceTokens

namespace WorkflowLint.Expression

open WorkflowLint.Text

/-! ## References in the text -/

/-- how a reference is written: `task(`, a name between two quotes, and `)` -/
def callSource (opening closing : Char) (name : List Char) : List Char :=
  't' :: 'a' :: 's' :: 'k' :: '(' :: opening :: (name ++ [closing, ')'])

/-- The text refers to a task directly behind `before`. -/
structure RefersAt (text before : List Char) (opening closing : Char) (name : List Char) : Prop where
  split : ∃ after, text = before ++ (callSource opening closing name ++ after)
  quotes : isQuote opening = true ∧ isQuote closing = true
  nonempty : name ≠ []
  plain : ∀ c ∈ name, isTaskNameChar c = true

theorem taskReferences_cons (c : Char) (rest : List Char) :
    taskReferences (c :: rest) = (taskAt (c :: rest)).toList ++ taskReferences rest := by
  rw [taskReferences]
  cases taskAt (c :: rest) with
  | none => rfl
  | some name => rfl

theorem mem_taskReferences_iff_taskAt {text name : List Char} :
    name ∈ taskReferences text ↔ ∃ before rest, text = before ++ rest ∧ taskAt rest = some name := by
  induction text with
  | nil =>
    constructor
    · intro h
      cases h
    · rintro ⟨before, rest, hsplit, hat⟩
      obtain ⟨-, rfl⟩ := List.append_eq_nil_iff.1 hsplit.symm
      cases hat
  | cons c text ih =>
    rw [taskReferences_cons, List.mem_append, Option.mem_toList, ih]
    constructor
    · rintro (hat | ⟨before, rest, rfl, hat⟩)
      · exact ⟨[], c :: text, rfl, hat⟩
      · exact ⟨c :: before, rest, rfl, hat⟩
    · rintro ⟨before, rest, hsplit, hat⟩
      cases before with
      | nil =>
        obtain rfl : c :: text = rest := hsplit
        exact Or.inl hat
      | cons d before =>
        obtain ⟨-, rfl⟩ := List.cons.inj hsplit
        exact Or.inr ⟨before, rest, rfl, hat⟩

/-- **References are found by their spelling**, wherever in the text they stand. -/
theorem mem_taskReferences_iff {text name : List Char} :
    name ∈ taskReferences text ↔ ∃ before opening closing, RefersAt text before opening closing name := by
  rw [mem_taskReferences_iff_taskAt]
  constructor
  · rintro ⟨before, rest, rfl, hat⟩
    obtain ⟨matched, after, rfl, opening, closing, hopening, hclosing, hne, hplain, rfl⟩ := taskAt_eq_some_iff.1 hat
    exact ⟨before, opening, closing, ⟨after, rfl⟩, ⟨hopening, hclosing⟩, hne, hplain⟩
  · rintro ⟨before, opening, closing, ⟨after, rfl⟩, hquotes, hne, hplain⟩
    refine ⟨before, _, rfl, taskAt_eq_some_iff.2 ⟨_, after, rfl, ?_⟩⟩
    exact ⟨opening, closing, hquotes.1, hquotes.2, hne, hplain, rfl⟩

/-! ## Calls among the tokens -/

/-- the call that the tokens begin with: where it begins, and the name that its literal says -/
def taskCall? : List Token → Option (Position × List Char)
  | function :: opening :: literal :: closing :: _ =>
    if function.kind = .function ∧ function.text = "task".toList ∧ opening.IsDelimiter '(' ∧ literal.kind = .string ∧
        closing.IsDelimiter ')' then
      some (function.range.start, literal.text)
    else none
  | _ => none

/-- the calls of `task` with a single literal, in order -/
def taskCalls (tokens : List Token) : List (Position × List Char) :=
  tokens.tails.filterMap taskCall?

theorem mem_taskCalls_of_suffix {tokens later : List Token} {call : Position × List Char} (hlater : later <:+ tokens)
    (hcall : taskCall? later = some call) : call ∈ taskCalls tokens :=
  List.mem_filterMap.2 ⟨later, (List.mem_tails _ _).2 hlater, hcall⟩

theorem quote_of_isQuote {quote : Char} (h : isQuote quote = true) : quote = '\'' ∨ quote = '"' := by
  simpa [isQuote] using h

/-- A task's name is written between quotes as it is. -/
theorem flatMap_escaped_name {quote : Char} {name : List Char} (hquote : isQuote quote = true)
    (hname : ∀ c ∈ name, isTaskNameChar c = true) : name.flatMap (escaped quote) = name := by
  induction name with
  | nil => rfl
  | cons c name ih =>
    obtain ⟨hc, hothers⟩ := List.forall_mem_cons.1 hname
    have hplain : ¬ (c = quote ∨ c = '\\') := by
      rintro (rfl | rfl)
      · rw [not_isTaskNameChar_of_isQuote hquote] at hc
        cases hc
      · exact absurd hc (by decide)
    rw [List.flatMap_cons, escaped, if_neg hplain, ih hothers]
    rfl

/-- **A reference at the front is a call.** The word ends before the parenthesis, and the literal at the quote that opened
it. -/
theorem taskCall?_callSource (origin : Position) {quote : Char} {name : List Char} (after : List Char)
    (hquote : isQuote quote = true) (hname : ∀ c ∈ name, isTaskNameChar c = true) :
    taskCall? (tokenize origin (callSource quote quote name ++ after)).1 = some (origin, name) := by
  obtain ⟨hclosed, hdecodes⟩ := closedBody_escaped quote name
  rw [flatMap_escaped_name hquote hname] at hclosed hdecodes
  have hstop : ∀ d, ('(' :: quote :: (name ++ quote :: ')' :: after)).head? = some d → continuesWord d = false := by
    rintro d ⟨⟩
    decide
  have hrun : ∀ d ∈ ['a', 's', 'k'], continuesWord d = true := by simp [continuesWord, isLetter, isDigit]
  obtain ⟨kind, hword, hkind⟩ := firstSegment_of_maximalRun (by decide : startsWord 't' = true) hrun hstop
  obtain rfl : kind = .function := hkind.function.2 (by decide +kernel)
  have hsource : callSource quote quote name ++ after =
      't' :: (['a', 's', 'k'] ++ '(' :: quote :: (name ++ quote :: ')' :: after)) := by
    simp [callSource]
  rw [hsource, tokenize_lexeme origin hword, tokenize_delimiter_cons _ _ (by decide),
    tokenize_literal (quote_of_isQuote hquote) _ hclosed, tokenize_delimiter_cons _ _ (by decide), hdecodes.unescape_eq,
    taskCall?]
  exact if_pos ⟨rfl, rfl, ⟨rfl, rfl⟩, rfl, rfl, rfl⟩

/-! ## Where a reference begins -/

/-- The position stands inside the token, behind its first character. -/
def Token.HasInside (token : Token) (p : Position) : Prop :=
  token.range.start < p ∧ p < token.range.stop

instance (token : Token) (p : Position) : Decidable (token.HasInside p) :=
  inferInstanceAs (Decidable (_ ∧ _))

/-- From each of its segments on, a text is read as if it began there. -/
theorem segments_of_split {text : List Char} {front back : List Segment} (h : segments text = front ++ back) :
    segments (back.flatMap Segment.source) = back := by
  induction front generalizing text with
  | nil =>
    obtain rfl : segments text = back := h
    rw [segments_source]
  | cons first front ih =>
    cases text with
    | nil => cases h
    | cons c rest =>
      obtain ⟨inner, tail, hsource, rfl⟩ := firstSegment_source c rest
      rw [segments_cons hsource] at h
      exact ih (List.cons.inj h).2

theorem tokenize_suffix (origin : Position) {text : List Char} {front back : List Segment}
    (h : segments text = front ++ back) :
    (tokenize (origin.advanceAll (front.flatMap Segment.source)) (back.flatMap Segment.source)).1 <:+
      (tokenize origin text).1 := by
  simp only [tokenize, segments_of_split h, h, place_append, List.filterMap_append]
  exact List.suffix_append _ _

/-- A letter is part of a literal or of a word. -/
theorem Segment.Closed.letter {segment : Segment} {inner tail : List Char} {c : Char} (h : segment.Closed)
    (hc : startsWord c = true) (hsource : segment.source = inner ++ c :: tail) :
    ∃ kind value, segment = .lexeme kind (inner ++ c :: tail) value ∧
      ∀ range, (⟨kind, value, range⟩ : Token).kind = .string ∨ (⟨kind, value, range⟩ : Token).IsWord := by
  have hno : startsWord c ≠ false := by simp [hc]
  cases segment with
  | blank d =>
    obtain ⟨-, rfl⟩ := singleton_split hsource
    have hword := continuesWord_of_isBlank h
    rw [continuesWord_of_startsWord hc] at hword
    cases hword
  | lexeme kind source value =>
    obtain rfl : source = inner ++ c :: tail := hsource
    refine ⟨kind, value, rfl, fun range => ?_⟩
    by_cases hkind : kind = .string
    · exact Or.inl hkind
    · rcases Lexeme.cases_of_mem h hkind (c := c) (by simp) with (hdigit | rfl) | ⟨hmem, -⟩ | hoperator | ⟨-, rfl, hword⟩
      · exact absurd (startsWord_of_isDigit hdigit) hno
      · exact absurd rfl hno
      · exact absurd (startsWord_of_table.1 c hmem) hno
      · exact absurd (startsWord_of_table.2 _ hoperator c (by simp)) hno
      · exact Or.inr (hword.isWord range)
  | stray d => exact h.elim
  | unclosed source => exact h.elim

/-- **Where a reference begins.** With quotes that are alike it is a call, unless it begins inside a literal or a word. -/
theorem RefersAt.call_or_inside {origin : Position} {text before name : List Char} {quote : Char}
    (haccepted : (tokenize origin text).2 = []) (h : RefersAt text before quote quote name) :
    (origin.advanceAll before, name) ∈ taskCalls (tokenize origin text).1 ∨
      ∃ token ∈ (tokenize origin text).1, (token.kind = .string ∨ token.IsWord) ∧
        token.HasInside (origin.advanceAll before) := by
  obtain ⟨after, htext⟩ := h.split
  obtain ⟨front, segment, back, inner, tail, hsplit, rfl, hsource, hbehind⟩ :=
    exists_segment_of_split ((segments_source text).trans htext)
  cases inner with
  | nil =>
    -- the reference begins with the segment, and so do the tokens that are read from there on
    left
    have hrest : (segment :: back).flatMap Segment.source = callSource quote quote name ++ after := by
      rw [List.flatMap_cons, hsource, List.nil_append, List.cons_append, ← hbehind]
      rfl
    have hcall := taskCall?_callSource (origin.advanceAll (front.flatMap Segment.source)) after h.quotes.1 h.plain
    rw [← hrest] at hcall
    rw [List.append_nil]
    exact mem_taskCalls_of_suffix (tokenize_suffix origin hsplit) hcall
  | cons d inner =>
    right
    have hclosed : segment.Closed := closed_of_errors_eq_nil haccepted segment (by simp [hsplit])
    obtain ⟨kind, value, rfl, hkind⟩ := hclosed.letter (by decide : startsWord 't' = true) hsource
    have hplace : (origin.advanceAll (front.flatMap Segment.source), .lexeme kind (d :: inner ++ 't' :: tail) value) ∈
        place origin (segments text) := mem_place_iff.2 ⟨front, back, hsplit, rfl⟩
    refine ⟨_, List.mem_filterMap.2 ⟨_, hplace, rfl⟩, hkind _, ?_⟩
    rw [Token.HasInside, Range.between_advanceAll, Position.advanceAll_append origin]
    exact ⟨Position.lt_advanceAll _ (List.cons_ne_nil d inner),
      Position.lt_advanceAll_append _ _ (List.cons_ne_nil 't' tail)⟩

/-- The text refers to a task directly behind `before`: the quotes are alike, and no word of the expression has already begun
there. -/
structure RefersOutsideWords (origin : Position) (text before : List Char) (name : List Char) : Prop where
  refers : ∃ quote, RefersAt text before quote quote name
  outside : ∀ token ∈ (tokenize origin text).1, token.IsWord → ¬ token.HasInside (origin.advanceAll before)

/-- **References are calls.** Take a text that is read without error, and a reference in it with quotes that are alike and
outside of longer words. It is found, also inside a literal; and it is a call of `task` that begins at its place, with a
literal that says its name, unless it begins inside a literal. If all references in the text are of this kind, nothing else
is found. -/
theorem references_are_calls (origin : Position) (text : List Char) (haccepted : (tokenize origin text).2 = []) :
    (∀ before name, RefersOutsideWords origin text before name →
      name ∈ taskReferences text ∧
        ((origin.advanceAll before, name) ∈ taskCalls (tokenize origin text).1 ∨
          ∃ token ∈ (tokenize origin text).1, token.kind = .string ∧ token.HasInside (origin.advanceAll before))) ∧
    ((∀ before opening closing name, RefersAt text before opening closing name →
        RefersOutsideWords origin text before name) →
      ∀ name, name ∈ taskReferences text ↔ ∃ before, RefersOutsideWords origin text before name) := by
  have hfound : ∀ before name, RefersOutsideWords origin text before name → name ∈ taskReferences text := by
    intro before name h
    obtain ⟨quote, hrefers⟩ := h.refers
    exact mem_taskReferences_iff.2 ⟨before, quote, quote, hrefers⟩
  refine ⟨fun before name h => ⟨hfound before name h, ?_⟩, fun hall name => ⟨fun hname => ?_, ?_⟩⟩
  · obtain ⟨quote, hrefers⟩ := h.refers
    rcases hrefers.call_or_inside haccepted with hcall | ⟨token, htoken, hliteral | hword, hinside⟩
    · exact Or.inl hcall
    · exact Or.inr ⟨token, htoken, hliteral, hinside⟩
    · exact absurd hinside (h.outside token htoken hword)
  · obtain ⟨before, opening, closing, hrefers⟩ := mem_taskReferences_iff.1 hname
    exact ⟨before, hall before opening closing name hrefers⟩
  · rintro ⟨before, h⟩
    exact hfound before name h

/-- **A call behind a digit.** The number ends where the word begins, so the reference begins a token. The one in the literal is
found as well. -/
theorem call_behind_digit :
    (tokenize ⟨2, 9⟩ "1task(\"a-b\") + len(\"task('c')\")".toList).2 = [] ∧
      "c".toList ∈ taskReferences "1task(\"a-b\") + len(\"task('c')\")".toList ∧
      (⟨2, 10⟩, "a-b".toList) ∈ taskCalls (tokenize ⟨2, 9⟩ "1task(\"a-b\") + len(\"task('c')\")".toList).1 := by
  have haccepted : (tokenize ⟨2, 9⟩ "1task(\"a-b\") + len(\"task('c')\")".toList).2 = [] := by decide +kernel
  obtain ⟨hcalls, -⟩ := references_are_calls ⟨2, 9⟩ _ haccepted
  have hfirst : RefersOutsideWords ⟨2, 9⟩ "1task(\"a-b\") + len(\"task('c')\")".toList ['1'] "a-b".toList :=
    ⟨⟨'"', ⟨" + len(\"task('c')\")".toList, rfl⟩, ⟨rfl, rfl⟩, by decide, List.all_eq_true.1 rfl⟩, by decide +kernel⟩
  have hsecond : RefersOutsideWords ⟨2, 9⟩ "1task(\"a-b\") + len(\"task('c')\")".toList
      "1task(\"a-b\") + len(\"".toList "c".toList :=
    ⟨⟨'\'', ⟨"\")".toList, rfl⟩, ⟨rfl, rfl⟩, by decide, List.all_eq_true.1 rfl⟩, by decide +kernel⟩
  refine ⟨haccepted, (hcalls _ _ hsecond).1, ?_⟩
  rcases (hcalls _ _ hfirst).2 with hcall | hinside
  · exact hcall
  · exact absurd hinside (by decide +kernel)

/-- Every name that is found in the text is what the literal of a call says. -/
def OnlyCalls (text : List Char) : Prop :=
  ∀ name ∈ taskReferences text, name ∈ (taskCalls (tokenize .zero text).1).map Prod.snd

instance (text : List Char) : Decidable (OnlyCalls text) :=
  inferInstanceAs (Decidable (∀ name ∈ taskReferences text, _))

/-- **Three references without a call.** A literal that spells one, a longer word that ends in `task`, and a literal that goes
on behind a quote of the other kind. Each text is read without error. -/
theorem reference_without_call :
    ((tokenize .zero "len(\"task('x')\")".toList).2 = [] ∧ ¬ OnlyCalls "len(\"task('x')\")".toList) ∧
      ((tokenize .zero "mytask('x')".toList).2 = [] ∧ ¬ OnlyCalls "mytask('x')".toList) ∧
      ((tokenize .zero "task('x\") + ')".toList).2 = [] ∧ ¬ OnlyCalls "task('x\") + ')".toList) := by
  decide +kernel

end WorkflowLint.Expression
