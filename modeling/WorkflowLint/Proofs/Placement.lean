/-
Where the tokens and the faults of one expression stand.

`Reads c rest segment` lists what the segment at the front of `c :: rest` can be, one case for each way of reading. A
placed segment is the first segment of what is left of the text from its place on (`mem_place`), so these cases are all
there is to know about it. `Fault.Meets before after` says what a fault finds around its place, in terms of the text alone.

Results:
- `tokenize_delimiter`: a delimiter token is one character of the text, and its range begins where that character stands.
- `mem_unbalanced`: what is wrong with the brackets is reported at delimiter tokens only, and at one of the right shape.
- `check_meets`: every fault of an expression is reported at a place of the expression that shows it.
-/
import Mathlib.Data.List.Basic
import WorkflowLint.Expression.Balance
import WorkflowLint.Proofs.Coordinates

namespace WorkflowLint.Expression

open WorkflowLint.Text

/-! ## Ways of reading -/

/-- what can stand at the front of `c :: rest` -/
inductive Reads (c : Char) (rest : List Char) : Segment → Prop where
  | blank : isBlank c = true → Reads c rest (.blank c)
  | literal {body : List Char} : c = '\'' ∨ c = '"' → literalBody c rest = some body →
      Reads c rest (.lexeme .string (c :: body ++ [c]) (unescape body))
  | unclosed : c = '\'' ∨ c = '"' → literalBody c rest = none → Reads c rest (.unclosed (c :: rest))
  | number : isDigit c = true → Reads c rest (.lexeme .number (numberSource (c :: rest)) (numberSource (c :: rest)))
  | delimiter : c ∈ delimiters → Reads c rest (.lexeme .delimiter [c] [c])
  | symbol {operator : List Char} : symbolOperator? (c :: rest) = some operator →
      Reads c rest (.lexeme .operator operator operator)
  | word : startsWord c = true → Reads c rest (wordSegment (c :: rest))
  | stray : isBlank c = false → ¬ (c = '\'' ∨ c = '"') → isDigit c = false → c ∉ delimiters →
      symbolOperator? (c :: rest) = none → startsWord c = false → Reads c rest (.stray c)

theorem firstSegment_reads (c : Char) (rest : List Char) : Reads c rest (firstSegment c rest) := by
  unfold firstSegment
  split
  case isTrue hb => exact .blank hb
  case isFalse hb =>
  split
  case isTrue hq =>
    split
    case h_1 body h => exact .literal hq h
    case h_2 h => exact .unclosed hq h
  case isFalse hq =>
  split
  case isTrue hd => exact .number hd
  case isFalse hd =>
  split
  case isTrue hm => exact .delimiter (by simpa using hm)
  case isFalse hm =>
  split
  case h_1 operator h => exact .symbol h
  case h_2 h =>
    split
    case isTrue hw => exact .word hw
    case isFalse hw => exact .stray (by simpa using hb) hq (by simpa using hd) (by simpa using hm) h (by simpa using hw)

/-- A word is read as it stands, and its kind is one that words have. -/
theorem wordSegment_eq (text : List Char) :
    ∃ kind ∈ [TokenKind.operator, .keyword, .function, .identifier],
      wordSegment text = .lexeme kind (text.takeWhile continuesWord) (text.takeWhile continuesWord) := by
  refine ⟨_, ?_, rfl⟩
  unfold classify
  split_ifs <;> decide

/-- A number takes every digit there is, before its point and after it. -/
theorem numberSource_maximal (text : List Char) :
    ∃ after, text = numberSource text ++ after ∧ ∀ d, after.head? = some d → isDigit d = false := by
  have hhead : ∀ (l : List Char) (d : Char), (l.dropWhile isDigit).head? = some d → isDigit d = false := by
    intro l d hd
    have := List.head?_dropWhile_not isDigit l
    rwa [hd] at this
  unfold numberSource
  split
  case h_1 tail h =>
    refine ⟨tail.dropWhile isDigit, ?_, hhead tail⟩
    rw [List.append_assoc, List.cons_append, List.takeWhile_append_dropWhile, ← h, List.takeWhile_append_dropWhile]
  case h_2 =>
    exact ⟨text.dropWhile isDigit, by rw [List.append_nil, List.takeWhile_append_dropWhile], hhead text⟩

/-! ## Places -/

theorem mem_place_segmentsFrom {skip : Nat} {text : List Char} {origin p : Position} {segment : Segment}
    (h : (p, segment) ∈ place origin (segmentsFrom skip text)) :
    ∃ before c rest, text.drop skip = before ++ c :: rest ∧ segment = firstSegment c rest ∧
      p = origin.advanceAll before := by
  induction text generalizing skip origin with
  | nil => simp [segmentsFrom, place] at h
  | cons c rest ih =>
    cases skip with
    | succ skip => exact ih (by simpa [segmentsFrom] using h)
    | zero =>
      obtain ⟨inner, tail, hs, rfl⟩ := firstSegment_source c rest
      simp only [segmentsFrom, place, List.mem_cons] at h
      rcases h with h | h
      · obtain ⟨rfl, rfl⟩ := Prod.mk.inj h
        exact ⟨[], c, inner ++ tail, rfl, rfl, rfl⟩
      · obtain ⟨before, d, rest, ht, hd, hp⟩ := ih h
        rw [hs] at ht hp
        have ht : tail = before ++ d :: rest := by simpa using ht
        refine ⟨c :: inner ++ before, d, rest, by simp [ht], hd, ?_⟩
        rw [hp, ← Position.advanceAll_append]

/-- **Placed segments.** Each is the first segment of the text from its place on. -/
theorem mem_place {text : List Char} {origin p : Position} {segment : Segment}
    (h : (p, segment) ∈ place origin (segments text)) :
    ∃ before c rest, text = before ++ c :: rest ∧ segment = firstSegment c rest ∧ p = origin.advanceAll before := by
  simpa using mem_place_segmentsFrom h

/-! ## Faults of the reading -/

/-- what a fault finds before and after its place -/
def Fault.Meets (before after : List Char) : Fault → Prop
  | unexpectedCharacter c => after.head? = some c
  | unterminatedString => after.head? = some '\'' ∨ after.head? = some '"'
  | missingFraction => before.getLast? = some '.' ∧ ∀ d, after.head? = some d → isDigit d = false
  | unmatched bracket => after.head? = some bracket.closer
  | unclosed bracket => after.head? = some bracket.opener

/-- an error of an expression that begins at `origin`, reported where the expression shows it -/
def LexicalError.MeetsIn (origin : Position) (text : List Char) (error : LexicalError) : Prop :=
  ∃ before after, text = before ++ after ∧ error.position = origin.advanceAll before ∧ error.fault.Meets before after

theorem tokenize_error_meets {origin : Position} {text : List Char} {error : LexicalError}
    (h : error ∈ (tokenize origin text).2) : error.MeetsIn origin text := by
  obtain ⟨⟨p, segment⟩, hm, he⟩ := List.mem_filterMap.1 h
  obtain ⟨before, c, rest, rfl, hs, rfl⟩ := mem_place hm
  have hr : Reads c rest segment := hs ▸ firstSegment_reads c rest
  clear hs
  cases hr with
  | unclosed hq =>
    obtain rfl := Option.some.inj he
    refine ⟨before, c :: rest, rfl, rfl, ?_⟩
    rcases hq with rfl | rfl
    · exact Or.inl rfl
    · exact Or.inr rfl
  | number =>
    -- the fault stands behind the number, where `numberSource_maximal` says that no digit follows
    simp only [Segment.error?, true_and] at he
    split at he
    case isTrue hdot =>
      obtain rfl := Option.some.inj he
      obtain ⟨after, ha, hnot⟩ := numberSource_maximal (c :: rest)
      refine ⟨before ++ numberSource (c :: rest), after, ?_, ?_, ?_, hnot⟩
      · rw [List.append_assoc, ← ha]
      · rw [Position.advanceAll_append]
      · rw [List.getLast?_append, hdot]; rfl
    case isFalse => simp at he
  | word =>
    obtain ⟨kind, hk, hw⟩ := wordSegment_eq (c :: rest)
    have hne : kind ≠ .number := by rintro rfl; simp at hk
    simp [hw, Segment.error?, hne] at he
  | stray =>
    obtain rfl := Option.some.inj he
    exact ⟨before, c :: rest, rfl, rfl, rfl⟩
  | _ => simp [Segment.error?] at he

/-! ## Brackets -/

/-- A delimiter token is one character of the text, and its range begins where that character stands. -/
theorem tokenize_delimiter {origin : Position} {text : List Char} {token : Token}
    (h : token ∈ (tokenize origin text).1) (hk : token.kind = .delimiter) :
    ∃ before c after, text = before ++ c :: after ∧ token.text = [c] ∧
      token.range.start = origin.advanceAll before := by
  obtain ⟨⟨p, segment⟩, hm, ht⟩ := List.mem_filterMap.1 h
  obtain ⟨before, c, rest, rfl, hs, rfl⟩ := mem_place hm
  have hr : Reads c rest segment := hs ▸ firstSegment_reads c rest
  clear hs
  cases hr with
  | delimiter =>
    obtain rfl := Option.some.inj ht
    exact ⟨before, c, rest, rfl, rfl, by rw [Range.between_advanceAll]⟩
  | word =>
    obtain ⟨kind, hw, he⟩ := wordSegment_eq (c :: rest)
    rw [he] at ht
    obtain rfl := Option.some.inj ht
    obtain rfl : kind = .delimiter := hk
    simp at hw
  | _ => simp only [Segment.token?, Option.some.injEq, reduceCtorEq] at ht <;> simp [← ht] at hk

theorem Bracket.opening?_eq_some {text : List Char} {bracket : Bracket} (h : opening? text = some bracket) :
    text = [bracket.opener] := by
  simpa using List.find?_some h

theorem Bracket.closing?_eq_some {text : List Char} {bracket : Bracket} (h : closing? text = some bracket) :
    text = [bracket.closer] := by
  simpa using List.find?_some h

/-- a delimiter token of a bracket at which the error is reported -/
def Token.Explains (error : LexicalError) (token : Token) : Prop :=
  token.kind = .delimiter ∧ token.range.start = error.position ∧ ∃ bracket,
    (error.fault = .unmatched bracket ∧ token.text = [bracket.closer]) ∨
      (error.fault = .unclosed bracket ∧ token.text = [bracket.opener])

/-- The error is explained by one of the tokens, or by a bracket that was open before them. -/
def Explained (stack : List (Bracket × Position)) (tokens : List Token) (error : LexicalError) : Prop :=
  (∃ token ∈ tokens, token.Explains error) ∨ ∃ opened ∈ stack, error = ⟨.unclosed opened.1, opened.2⟩

theorem Explained.later {stack stack' : List (Bracket × Position)} {tokens : List Token} {error : LexicalError}
    (h : Explained stack tokens error) (token : Token) (hs : stack ⊆ stack') :
    Explained stack' (token :: tokens) error := by
  rcases h with ⟨other, ho, he⟩ | ⟨opened, ho, he⟩
  · exact Or.inl ⟨other, List.mem_cons_of_mem _ ho, he⟩
  · exact Or.inr ⟨opened, hs ho, he⟩

theorem mem_unbalanced {stack : List (Bracket × Position)} {tokens : List Token} {error : LexicalError}
    (h : error ∈ unbalanced stack tokens) : Explained stack tokens error := by
  fun_induction unbalanced stack tokens with
  | case1 stack =>
    simp only [List.mem_map, List.mem_reverse] at h
    obtain ⟨opened, ho, rfl⟩ := h
    exact Or.inr ⟨opened, ho, rfl⟩
  | case2 stack token rest hk bracket ho ih =>
    rcases ih h with ⟨other, hm, he⟩ | ⟨opened, hm, he⟩
    · exact Or.inl ⟨other, List.mem_cons_of_mem _ hm, he⟩
    · rcases List.mem_cons.1 hm with rfl | hm
      · subst he
        exact Or.inl ⟨token, List.mem_cons_self, hk, rfl, bracket, Or.inr ⟨rfl, Bracket.opening?_eq_some ho⟩⟩
      · exact Or.inr ⟨opened, hm, he⟩
  | case3 stack token rest _ _ _ ih => exact (ih h).later token (List.Subset.refl _)
  | case4 token rest _ _ top p below _ ih => exact (ih h).later token (List.subset_cons_self _ _)
  | case5 token rest hk bracket hc _ top p below _ ih =>
    rcases List.mem_cons.1 h with rfl | h
    · exact Or.inl ⟨token, List.mem_cons_self, hk, rfl, bracket, Or.inl ⟨rfl, Bracket.closing?_eq_some hc⟩⟩
    · exact (ih h).later token (List.Subset.refl _)
  | case6 token rest hk bracket hc _ ih =>
    rcases List.mem_cons.1 h with rfl | h
    · exact Or.inl ⟨token, List.mem_cons_self, hk, rfl, bracket, Or.inl ⟨rfl, Bracket.closing?_eq_some hc⟩⟩
    · exact (ih h).later token (List.Subset.refl _)
  | case7 stack token rest _ ih => exact (ih h).later token (List.Subset.refl _)

/-- **Every fault of an expression is reported where the expression shows it.** -/
theorem check_meets {origin : Position} {text : List Char} {error : LexicalError} (h : error ∈ check origin text) :
    error.MeetsIn origin text := by
  unfold check at h
  split at h
  case isTrue => simp at h
  case isFalse =>
    rcases List.mem_append.1 h with h | h
    · exact tokenize_error_meets h
    · rcases mem_unbalanced h with ⟨token, hm, hk, hp, bracket, hb⟩ | ⟨opened, ho, -⟩
      · obtain ⟨before, c, after, ht, hc, hs⟩ := tokenize_delimiter hm hk
        refine ⟨before, c :: after, ht, hp ▸ hs, ?_⟩
        rcases hb with ⟨hf, hb⟩ | ⟨hf, hb⟩
        · rw [hf]; simpa [Fault.Meets, hc] using hb
        · rw [hf]; simpa [Fault.Meets, hc] using hb
      · simp at ho

end WorkflowLint.Expression
