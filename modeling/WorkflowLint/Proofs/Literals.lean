/-
How string literals are closed and what they say.

A quote closes a literal if the backslashes directly before it are even in number (`ClosesAt`). That is a property of the text
alone, found by counting backwards from the quote. The reading goes forwards and passes over a backslash together with the
character behind it. The two agree because a pair at the front of a text changes the number of backslashes at its end by two or
not at all (`backslashesAtEnd_pair`).

`Decodes` says what a literal stands for: each pair of a backslash and a character for the character, and each other character
for itself. `written` goes the other way.

Results:
- `literalBody_eq_some_iff`, `literalBody_eq_none_iff`: what is read up to the closing quote ends before the first quote that
  closes, and nothing is read exactly if no quote does.
- `tokenize_literal`: the token of a literal, and reading that goes on right behind it.
- `literals_decode`: both for every text behind a quote, and that every value can be written.
-/
import WorkflowLint.Proofs.Seams

namespace WorkflowLint.Expression

open WorkflowLint.Text

/-! ## Quotes that close -/

/-- how many backslashes stand at the very end of a text -/
def backslashesAtEnd (text : List Char) : Nat :=
  (text.reverse.takeWhile (· == '\\')).length

/-- The text has a quote behind `body`, and an even number of backslashes directly before it. -/
structure ClosesAt (quote : Char) (text body rest : List Char) : Prop where
  split : text = body ++ quote :: rest
  even : backslashesAtEnd body % 2 = 0

/-- the first quote that closes -/
structure ClosesFirst (quote : Char) (text body rest : List Char) : Prop where
  closes : ClosesAt quote text body rest
  first : ∀ other after, ClosesAt quote text other after → body.length ≤ other.length

theorem backslashesAtEnd_cons {c : Char} (text : List Char) (hc : c ≠ '\\') :
    backslashesAtEnd (c :: text) = backslashesAtEnd text := by
  rw [backslashesAtEnd, List.reverse_cons, takeWhile_append_of_stop]
  · rfl
  · simpa using hc

/-- A pair at the front does not change whether the number is even. -/
theorem backslashesAtEnd_pair (d : Char) (text : List Char) :
    backslashesAtEnd ('\\' :: d :: text) % 2 = backslashesAtEnd text % 2 := by
  have hreverse : ('\\' :: d :: text).reverse = text.reverse ++ [d, '\\'] := by simp
  by_cases hd : d = '\\'
  · -- both characters of the pair count if nothing but backslashes stands behind them
    rw [backslashesAtEnd, backslashesAtEnd, hreverse, List.takeWhile_append]
    split
    case isTrue hall => simp [hd, hall]
    case isFalse => rfl
  · rw [backslashesAtEnd, hreverse, takeWhile_append_of_stop]
    · rfl
    · simpa using hd

/-! ## Closed and open texts -/

section Quote

variable {quote : Char} {text body rest : List Char}

theorem ClosedBody.even (h : ClosedBody quote body) : backslashesAtEnd body % 2 = 0 := by
  induction h with
  | nil => rfl
  | escaped _ ih => rw [backslashesAtEnd_pair, ih]
  | plain hbackslash _ _ ih => rw [backslashesAtEnd_cons _ hbackslash, ih]

theorem ClosedBody.openBody (h : ClosedBody quote body) : OpenBody quote body := by
  induction h with
  | nil => exact .nil
  | escaped _ ih => exact .escaped ih
  | plain hbackslash hne _ ih => exact .plain hbackslash hne ih

/-- No quote closes in what may stand behind a quote that is never closed. -/
theorem OpenBody.not_closesAt (h : OpenBody quote text) (hquote : quote ≠ '\\') : ¬ ClosesAt quote text body rest := by
  rintro ⟨hsplit, heven⟩
  induction h generalizing body with
  | nil => simp at hsplit
  | dangling =>
    cases body with
    | nil => exact hquote (List.cons.inj hsplit).1.symm
    | cons c body => simp at hsplit
  | escaped _ ih =>
    match body, hsplit, heven with
    | [], hsplit, _ => exact hquote (List.cons.inj hsplit).1.symm
    | [c], hsplit, heven =>
      -- the quote behind a single backslash is part of a pair
      obtain ⟨rfl, -⟩ := List.cons.inj hsplit
      exact absurd heven (by decide)
    | c :: d :: body, hsplit, heven =>
      obtain ⟨rfl, hbehind⟩ := List.cons.inj hsplit
      obtain ⟨rfl, htail⟩ := List.cons.inj hbehind
      rw [backslashesAtEnd_pair] at heven
      exact ih htail heven
  | plain hbackslash hne _ ih =>
    match body, hsplit, heven with
    | [], hsplit, _ => exact hne (List.cons.inj hsplit).1
    | c :: body, hsplit, heven =>
      obtain ⟨rfl, htail⟩ := List.cons.inj hsplit
      rw [backslashesAtEnd_cons _ hbackslash] at heven
      exact ih htail heven

/-- What is closed ends at the first quote that closes. -/
theorem ClosedBody.closesFirst (h : ClosedBody quote body) (hquote : quote ≠ '\\') (rest : List Char) :
    ClosesFirst quote (body ++ quote :: rest) body rest := by
  refine ⟨⟨rfl, h.even⟩, ?_⟩
  intro other after hother
  by_contra hshort
  rcases List.append_eq_append_iff.1 hother.split with ⟨m, rfl, -⟩ | ⟨m, hm, hafter⟩
  · simp at hshort
  · cases m with
    | nil => simp [hm] at hshort
    | cons c m =>
      obtain ⟨rfl, -⟩ := List.cons.inj hafter
      exact h.openBody.not_closesAt hquote ⟨hm, hother.even⟩

/-- The first quote that closes is one. -/
theorem ClosesFirst.unique {other after : List Char} (h : ClosesFirst quote text body rest)
    (hother : ClosesFirst quote text other after) : body = other ∧ rest = after := by
  have hlength : body.length = other.length :=
    Nat.le_antisymm (h.first _ _ hother.closes) (hother.first _ _ h.closes)
  obtain ⟨hbody, hrest⟩ := List.append_inj (h.closes.split.symm.trans hother.closes.split) hlength
  exact ⟨hbody, (List.cons.inj hrest).2⟩

/-- **Closed.** What is read of a literal ends before the first quote that closes. -/
theorem literalBody_eq_some_iff (hquote : quote ≠ '\\') :
    literalBody quote text = some body ↔ ∃ rest, ClosesFirst quote text body rest := by
  constructor
  · intro h
    obtain ⟨rest, rfl⟩ := literalBody_append h
    exact ⟨rest, (closedBody_of_literalBody h).closesFirst hquote rest⟩
  · rintro ⟨rest, hfirst⟩
    cases h : literalBody quote text with
    | none => exact absurd hfirst.closes ((openBody_of_literalBody h).not_closesAt hquote)
    | some other =>
      obtain ⟨after, rfl⟩ := literalBody_append h
      obtain ⟨rfl, -⟩ := hfirst.unique ((closedBody_of_literalBody h).closesFirst hquote after)
      rfl

/-- **Open.** A literal is open to the end if no quote closes. -/
theorem literalBody_eq_none_iff (hquote : quote ≠ '\\') :
    literalBody quote text = none ↔ ∀ body rest, ¬ ClosesAt quote text body rest := by
  constructor
  · intro h body rest
    exact (openBody_of_literalBody h).not_closesAt hquote
  · intro h
    cases hbody : literalBody quote text with
    | none => rfl
    | some body =>
      obtain ⟨rest, hfirst⟩ := (literalBody_eq_some_iff hquote).1 hbody
      exact absurd hfirst.closes (h body rest)

end Quote

/-! ## What a literal says -/

/-- a value and what stands for it between quotes: a backslash and a character for the character -/
inductive Decodes : List Char → List Char → Prop where
  | nil : Decodes [] []
  | pair {d : Char} {body value : List Char} : Decodes body value → Decodes ('\\' :: d :: body) (d :: value)
  | plain {c : Char} {body value : List Char} : c ≠ '\\' → Decodes body value → Decodes (c :: body) (c :: value)

/-- what is written for a character between two quotes -/
def escaped (quote c : Char) : List Char :=
  if c = quote ∨ c = '\\' then ['\\', c] else [c]

/-- a value in quotes -/
def written (quote : Char) (value : List Char) : List Char :=
  quote :: value.flatMap (escaped quote) ++ [quote]

theorem ClosedBody.decodes {quote : Char} {body : List Char} (h : ClosedBody quote body) :
    Decodes body (unescape body) := by
  induction h with
  | nil => exact .nil
  | escaped _ ih => exact .pair ih
  | plain hbackslash _ _ ih =>
    rw [unescape.eq_def]
    simp only [hbackslash, if_false]
    exact .plain hbackslash ih

theorem Decodes.unescape_eq {body value : List Char} (h : Decodes body value) : unescape body = value := by
  induction h with
  | nil => rfl
  | pair _ ih => simp [unescape, ih]
  | plain hbackslash _ ih => rw [unescape.eq_def]; simp [hbackslash, ih]

/-- What is written is closed by its last quote only, and says the value. -/
theorem closedBody_escaped (quote : Char) (value : List Char) :
    ClosedBody quote (value.flatMap (escaped quote)) ∧ Decodes (value.flatMap (escaped quote)) value := by
  induction value with
  | nil => exact ⟨.nil, .nil⟩
  | cons c value ih =>
    rw [List.flatMap_cons, escaped]
    split
    case isTrue => exact ⟨.escaped ih.1, .pair ih.2⟩
    case isFalse hplain =>
      obtain ⟨hne, hbackslash⟩ := not_or.1 hplain
      exact ⟨.plain hbackslash hne ih.1, .plain hbackslash ih.2⟩

/-! ## Tokens -/

section Token

variable {quote : Char} (hquote : quote = '\'' ∨ quote = '"')
include hquote

/-- **A closed literal** is one token, and reading goes on right behind it. -/
theorem tokenize_literal (origin : Position) {body : List Char} (h : ClosedBody quote body) (rest : List Char) :
    tokenize origin (quote :: (body ++ quote :: rest)) =
      (⟨.string, unescape body, origin, origin.advanceAll (quote :: body ++ [quote])⟩ ::
          (tokenize (origin.advanceAll (quote :: body ++ [quote])) rest).1,
        (tokenize (origin.advanceAll (quote :: body ++ [quote])) rest).2) := by
  have hbody := literalBody_of_closedBody h (ne_backslash_of_quote hquote) rest
  have hfirst : firstSegment quote (body ++ quote :: rest) = .lexeme .string (quote :: body ++ [quote]) (unescape body) := by
    simp [firstSegment, isBlank_of_quote hquote, hquote, hbody]
  have htext : body ++ quote :: rest = (body ++ [quote]) ++ rest := by simp
  have hsegments : segments (quote :: (body ++ quote :: rest)) =
      .lexeme .string (quote :: body ++ [quote]) (unescape body) :: segments rest := by
    rw [htext] at hfirst ⊢
    rw [segments_cons (by rw [hfirst]; rfl), hfirst]
  have htoken : (Segment.lexeme .string (quote :: body ++ [quote]) (unescape body)).token? origin =
      some ⟨.string, unescape body, origin, origin.advanceAll (quote :: body ++ [quote])⟩ := by
    rw [Segment.token?, Range.between_advanceAll]
  rw [tokenize_of_segments_cons origin hsegments, htoken]
  rfl

/-- **An open literal** is all that is reported, and gives no token. -/
theorem tokenize_open (origin : Position) {text : List Char} (h : literalBody quote text = none) :
    tokenize origin (quote :: text) = ([], [⟨.unterminatedString, origin⟩]) := by
  have hfirst : firstSegment quote (text ++ []) = .unclosed (quote :: text) := by
    simp [firstSegment, isBlank_of_quote hquote, hquote, h]
  have hsegments : segments (quote :: (text ++ [])) = firstSegment quote (text ++ []) :: segments [] :=
    segments_cons (by rw [hfirst]; rfl)
  rw [hfirst, List.append_nil] at hsegments
  rw [tokenize_of_segments_cons origin hsegments]
  rfl

end Token

/-- **Literals decode exactly.** Behind a quote, a string token begins there exactly if some quote closes. It ends at the first
one that does, its text is what stands before that quote, decoded, and reading goes on right behind it. If no quote closes there
is no token at all, and the literal is all that is reported. So every value can be written, and is read back as one token with
nothing left over and nothing reported. -/
theorem literals_decode (origin : Position) (quote : Char) (hquote : quote = '\'' ∨ quote = '"') :
    (∀ text,
      ((∃ token ∈ (tokenize origin (quote :: text)).1, token.kind = .string ∧ token.range.start = origin) ↔
        ∃ body rest, ClosesAt quote text body rest) ∧
      ((∃ body rest, ClosesAt quote text body rest) → ∃ body rest value stop, ClosesFirst quote text body rest ∧
        Decodes body value ∧ stop = origin.advanceAll (quote :: body ++ [quote]) ∧
        (tokenize origin (quote :: text)).1 = ⟨.string, value, origin, stop⟩ :: (tokenize stop rest).1 ∧
        (tokenize origin (quote :: text)).2 = (tokenize stop rest).2) ∧
      ((∀ body rest, ¬ ClosesAt quote text body rest) → (tokenize origin (quote :: text)).1 = [] ∧
        (tokenize origin (quote :: text)).2.map (fun error => (error.message, error.position)) =
          [("Unterminated string literal", origin)])) ∧
    ∀ value, tokenize origin (written quote value) =
      ([⟨.string, value, origin, origin.advanceAll (written quote value)⟩], []) := by
  have hbackslash := ne_backslash_of_quote hquote
  constructor
  · intro text
    cases h : literalBody quote text with
    | none =>
      have hnone := (literalBody_eq_none_iff hbackslash).1 h
      rw [tokenize_open hquote origin h]
      refine ⟨?_, ?_, fun _ => ⟨rfl, rfl⟩⟩
      · simp [hnone]
      · rintro ⟨body, rest, hcloses⟩
        exact absurd hcloses (hnone body rest)
    | some body =>
      have hbody := closedBody_of_literalBody h
      obtain ⟨rest, rfl⟩ := literalBody_append h
      have hfirst := hbody.closesFirst hbackslash rest
      rw [tokenize_literal hquote origin hbody rest]
      refine ⟨⟨fun _ => ⟨body, rest, hfirst.closes⟩, fun _ => ⟨_, List.mem_cons_self, rfl, rfl⟩⟩, ?_, ?_⟩
      · intro _
        exact ⟨body, rest, unescape body, _, hfirst, hbody.decodes, rfl, rfl, rfl⟩
      · intro hnone
        exact absurd hfirst.closes (hnone body rest)
  · intro value
    obtain ⟨hclosed, hdecodes⟩ := closedBody_escaped quote value
    have hread := tokenize_literal hquote origin hclosed []
    rw [hdecodes.unescape_eq] at hread
    exact hread

/-- **Backslashes before quotes.** The quote behind one backslash does not close, and the one behind two does; the token ends
there, and the sum behind it is read on. -/
theorem escaped_quote_decodes :
    ClosesAt '\'' "it\\'s \\\\' + 1".toList "it\\'s \\\\".toList " + 1".toList ∧
      ∃ token ∈ (tokenize ⟨2, 7⟩ "'it\\'s \\\\' + 1".toList).1, token.kind = .string ∧ token.range.start = ⟨2, 7⟩ := by
  have hcloses : ClosesAt '\'' "it\\'s \\\\' + 1".toList "it\\'s \\\\".toList " + 1".toList := ⟨by decide, by decide⟩
  exact ⟨hcloses, (((literals_decode ⟨2, 7⟩ '\'' (Or.inl rfl)).1 _).1.2 ⟨_, _, hcloses⟩)⟩

end WorkflowLint.Expression
