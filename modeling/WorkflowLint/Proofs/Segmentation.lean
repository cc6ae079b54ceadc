/-
Reading an expression loses nothing.

`Lexeme` says which characters may be written for a token of each kind, apart from the reading: what a literal, a number,
a delimiter, an operator and a word look like. `Segment.Fits` says with it what each segment of a text must be, given what
follows it. A stray character is one at which no lexeme begins, and a literal without its closing quote has the whole rest
of the text for its source.

Results:
- `segments_fit`: every segment of every text is what `Segment.Fits` asks for.
- `place_eq_zipIdx`: a segment stands where the sources of the segments before it end.
- `tokenize_lossless`: the tokens are the lexemes and the errors are the faults of the segments, in order and each at its
  place. So ranges are not empty and do not overlap, errors come in order, and each character that is not blank is part of
  a token or of an error.
-/
import Mathlib.Data.List.TakeWhile
import WorkflowLint.Proofs.Placement

namespace WorkflowLint.Expression

open WorkflowLint.Text

/-! ## What tokens are written with -/

/-- what may stand between two quotes: the quote itself only behind a backslash, and no backslash alone at the end -/
inductive ClosedBody (quote : Char) : List Char → Prop where
  | nil : ClosedBody quote []
  | escaped {d : Char} {rest : List Char} : ClosedBody quote rest → ClosedBody quote ('\\' :: d :: rest)
  | plain {c : Char} {rest : List Char} : c ≠ '\\' → c ≠ quote → ClosedBody quote rest → ClosedBody quote (c :: rest)

/-- what may stand behind a quote that is never closed -/
inductive OpenBody (quote : Char) : List Char → Prop where
  | nil : OpenBody quote []
  | dangling : OpenBody quote ['\\']
  | escaped {d : Char} {rest : List Char} : OpenBody quote rest → OpenBody quote ('\\' :: d :: rest)
  | plain {c : Char} {rest : List Char} : c ≠ '\\' → c ≠ quote → OpenBody quote rest → OpenBody quote (c :: rest)

/-- The lexemes of each kind: the characters they are written with, and the text of their token. -/
inductive Lexeme : TokenKind → List Char → List Char → Prop where
  | string {quote : Char} {body : List Char} : quote = '\'' ∨ quote = '"' → ClosedBody quote body →
      Lexeme .string (quote :: body ++ [quote]) (unescape body)
  | whole {digits : List Char} : digits ≠ [] → (∀ c ∈ digits, isDigit c = true) → Lexeme .number digits digits
  | fraction {digits more : List Char} : digits ≠ [] → (∀ c ∈ digits, isDigit c = true) →
      (∀ c ∈ more, isDigit c = true) → Lexeme .number (digits ++ '.' :: more) (digits ++ '.' :: more)
  | delimiter {c : Char} : c ∈ delimiters → Lexeme .delimiter [c] [c]
  | symbol {operator : List Char} : operator ∈ symbolOperators → Lexeme .operator operator operator
  | word {c : Char} {rest : List Char} : startsWord c = true → (∀ d ∈ rest, continuesWord d = true) →
      Lexeme (if String.ofList (c :: rest) ∈ wordOperators then .operator else classify (c :: rest))
        (c :: rest) (c :: rest)

/-- Only a string literal has a text of its own. -/
theorem Lexeme.text_eq {kind : TokenKind} {source text : List Char} (h : Lexeme kind source text)
    (hk : kind ≠ .string) : text = source := by
  cases h with
  | string => exact absurd rfl hk
  | _ => rfl

/-- what a segment must be, where `after` is the text behind it -/
def Segment.Fits (after : List Char) : Segment → Prop
  | blank c => isBlank c = true
  | lexeme kind source text => Lexeme kind source text
  | stray c => isBlank c = false ∧ c ≠ '\'' ∧ c ≠ '"' ∧
      ∀ kind source text, Lexeme kind source text → ¬ source <+: c :: after
  | unclosed source => after = [] ∧
      ∃ quote body, source = quote :: body ∧ (quote = '\'' ∨ quote = '"') ∧ OpenBody quote body

/-! ## Each way of reading fits -/

theorem closedBody_of_literalBody {quote : Char} {text body : List Char} (h : literalBody quote text = some body) :
    ClosedBody quote body := by
  fun_induction literalBody quote text generalizing body with
  | case1 => simp at h
  | case2 => simp at h
  | case3 d rest ih =>
    obtain ⟨inner, hi, rfl⟩ := Option.map_eq_some_iff.1 h
    exact .escaped (ih hi)
  | case4 =>
    obtain rfl : [] = body := Option.some.inj h
    exact .nil
  | case5 c rest hb hq ih =>
    obtain ⟨inner, hi, rfl⟩ := Option.map_eq_some_iff.1 h
    exact .plain hb hq (ih hi)

theorem openBody_of_literalBody {quote : Char} {text : List Char} (h : literalBody quote text = none) :
    OpenBody quote text := by
  fun_induction literalBody quote text with
  | case1 => exact .nil
  | case2 => exact .dangling
  | case3 d rest ih => exact .escaped (ih (Option.map_eq_none_iff.1 h))
  | case4 => simp at h
  | case5 c rest hb hq ih => exact .plain hb hq (ih (Option.map_eq_none_iff.1 h))

theorem lexeme_numberSource {c : Char} (rest : List Char) (hc : isDigit c = true) :
    Lexeme .number (numberSource (c :: rest)) (numberSource (c :: rest)) := by
  have hne : (c :: rest).takeWhile isDigit ≠ [] := by simp [hc]
  have hall : ∀ (text : List Char), ∀ d ∈ text.takeWhile isDigit, isDigit d = true :=
    fun text d hd => List.mem_takeWhile_imp hd
  unfold numberSource
  split
  case h_1 more _ => exact .fraction hne (hall _) (hall more)
  case h_2 => rw [List.append_nil]; exact .whole hne (hall _)

theorem lexeme_wordSegment {c : Char} (rest : List Char) (hc : startsWord c = true) :
    ∃ kind word, wordSegment (c :: rest) = .lexeme kind word word ∧ Lexeme kind word word := by
  have hword : (c :: rest).takeWhile continuesWord = c :: rest.takeWhile continuesWord := by
    simp [continuesWord_of_startsWord hc]
  refine ⟨_, _, rfl, ?_⟩
  rw [hword]
  simp only [List.contains_iff_mem]
  exact .word hc fun d hd => List.mem_takeWhile_imp hd

/-- No lexeme begins at a character that none of the ways of reading takes. -/
theorem not_lexeme_of_stray {c : Char} {rest : List Char} (hquote : ¬ (c = '\'' ∨ c = '"')) (hdigit : isDigit c = false)
    (hdelimiter : c ∉ delimiters) (hsymbol : symbolOperator? (c :: rest) = none) (hword : startsWord c = false)
    {kind : TokenKind} {source text : List Char} (h : Lexeme kind source text) : ¬ source <+: c :: rest := by
  -- a digit at the front of what is left can only be the character itself
  have hnodigit : ∀ digits more : List Char, digits ≠ [] → (∀ d ∈ digits, isDigit d = true) →
      ¬ digits ++ more <+: c :: rest := by
    intro digits more hne hall hp
    cases digits with
    | nil => exact hne rfl
    | cons d digits =>
      obtain ⟨rfl, -⟩ := List.cons_prefix_cons.1 hp
      rw [hall d List.mem_cons_self] at hdigit
      exact Bool.noConfusion hdigit
  intro hp
  cases h with
  | string hq =>
    obtain ⟨rfl, -⟩ := List.cons_prefix_cons.1 hp
    exact hquote hq
  | whole hne hall => exact hnodigit _ [] hne hall (by rwa [List.append_nil])
  | fraction hne hall => exact hnodigit _ _ hne hall hp
  | delimiter hd =>
    obtain ⟨rfl, -⟩ := List.cons_prefix_cons.1 hp
    exact hdelimiter hd
  | symbol hs =>
    have := List.find?_eq_none.1 hsymbol _ hs
    exact this (List.isPrefixOf_iff_prefix.2 hp)
  | word hw =>
    obtain ⟨rfl, -⟩ := List.cons_prefix_cons.1 hp
    rw [hword] at hw
    exact Bool.noConfusion hw

theorem Reads.fits {c : Char} {rest after : List Char} {segment : Segment} (h : Reads c rest segment)
    (hrest : c :: rest = segment.source ++ after) : segment.Fits after := by
  cases h with
  | blank hb => exact hb
  | literal hq hl => exact .string hq (closedBody_of_literalBody hl)
  | unclosed hq hl =>
    have hafter : after = [] := by simpa [Segment.source] using hrest
    exact ⟨hafter, c, rest, rfl, hq, openBody_of_literalBody hl⟩
  | number hd => exact lexeme_numberSource rest hd
  | delimiter hm => exact .delimiter hm
  | symbol hs => exact .symbol (List.mem_of_find?_eq_some hs)
  | word hw =>
    obtain ⟨kind, word, he, hl⟩ := lexeme_wordSegment rest hw
    rw [he]
    exact hl
  | stray hb hq hd hm hs hw =>
    obtain rfl : rest = after := by simpa [Segment.source] using hrest
    exact ⟨hb, fun hc => hq (Or.inl hc), fun hc => hq (Or.inr hc),
      fun kind source text hl => not_lexeme_of_stray hq hd hm hs hw hl⟩

/-! ## All segments -/

theorem segmentsFrom_split {skip : Nat} {text : List Char} {before after : List Segment} {segment : Segment}
    (h : segmentsFrom skip text = before ++ segment :: after) :
    ∃ c rest, segment = firstSegment c rest ∧ c :: rest = segment.source ++ after.flatMap Segment.source := by
  induction text generalizing skip before with
  | nil => simp [segmentsFrom] at h
  | cons c rest ih =>
    cases skip with
    | succ skip => exact ih h
    | zero =>
      simp only [segmentsFrom] at h
      cases before with
      | cons first before => exact ih (List.cons.inj h).2
      | nil =>
        obtain ⟨rfl, rfl⟩ := List.cons.inj h
        obtain ⟨inner, tail, hs, rfl⟩ := firstSegment_source c rest
        exact ⟨c, inner ++ tail, rfl, by simp [hs, segmentsFrom_source]⟩

/-- Every segment is what the text has at its place. -/
theorem segments_fit {text : List Char} {before after : List Segment} {segment : Segment}
    (h : segments text = before ++ segment :: after) :
    segment.source ≠ [] ∧ segment.Fits (after.flatMap Segment.source) := by
  obtain ⟨c, rest, rfl, hrest⟩ := segmentsFrom_split h
  obtain ⟨inner, tail, hs, -⟩ := firstSegment_source c rest
  exact ⟨by simp [hs], (firstSegment_reads c rest).fits hrest⟩

/-! ## Places -/

/-- the text before the segment number `i` -/
def textBefore (segments : List Segment) (i : Nat) : List Char :=
  (segments.take i).flatMap Segment.source

theorem textBefore_succ {segments : List Segment} {i : Nat} {segment : Segment} (h : segments[i]? = some segment) :
    textBefore segments (i + 1) = textBefore segments i ++ segment.source := by
  simp [textBefore, List.take_add_one, h]

/-- The places of the segments from one of them on, when the ones before it have been placed. -/
theorem place_eq_zipIdx_from (origin : Position) (before rest : List Segment) :
    place (origin.advanceAll (before.flatMap Segment.source)) rest =
      (rest.zipIdx before.length).map fun entry =>
        (origin.advanceAll (textBefore (before ++ rest) entry.2), entry.1) := by
  induction rest generalizing before with
  | nil => rfl
  | cons segment rest ih =>
    have hrest := ih (before ++ [segment])
    rw [List.append_assoc, List.length_append, List.flatMap_append, Position.advanceAll_append] at hrest
    have hfirst : textBefore (before ++ segment :: rest) before.length = before.flatMap Segment.source := by
      rw [textBefore, List.take_left]
    rw [place, List.zipIdx_cons, List.map_cons, hfirst]
    simpa using hrest

/-- A segment stands where the sources of the segments before it end. -/
theorem place_eq_zipIdx (origin : Position) (segments : List Segment) :
    place origin segments =
      segments.zipIdx.map fun entry => (origin.advanceAll (textBefore segments entry.2), entry.1) :=
  place_eq_zipIdx_from origin [] segments

theorem place_append (p : Position) (a b : List Segment) :
    place p (a ++ b) = place p a ++ place (p.advanceAll (a.flatMap Segment.source)) b := by
  induction a generalizing p with
  | nil => rfl
  | cons first a ih =>
    rw [List.cons_append, place, ih, place, List.flatMap_cons, Position.advanceAll_append, List.cons_append]

/-- A placed segment is one of the segments, at the end of those before it. -/
theorem mem_place_iff {origin p : Position} {segments : List Segment} {segment : Segment} :
    (p, segment) ∈ place origin segments ↔ ∃ front back, segments = front ++ segment :: back ∧
      p = origin.advanceAll (front.flatMap Segment.source) := by
  constructor
  · intro h
    induction segments generalizing origin with
    | nil => simp [place] at h
    | cons first rest ih =>
      rcases List.mem_cons.1 h with h | h
      · obtain ⟨rfl, rfl⟩ := Prod.mk.inj h
        exact ⟨[], rest, rfl, rfl⟩
      · obtain ⟨front, back, rfl, rfl⟩ := ih h
        exact ⟨first :: front, back, rfl, by rw [List.flatMap_cons, Position.advanceAll_append]⟩
  · rintro ⟨front, back, rfl, rfl⟩
    rw [place_append, place]
    exact List.mem_append_right _ List.mem_cons_self

theorem le_of_mem_place {origin p : Position} {segments : List Segment} {segment : Segment}
    (h : (p, segment) ∈ place origin segments) : origin ≤ p := by
  obtain ⟨front, back, -, rfl⟩ := mem_place_iff.1 h
  exact origin.le_advanceAll _

/-- Each segment ends before the next one begins. -/
theorem place_pairwise (origin : Position) (segments : List Segment) :
    (place origin segments).Pairwise fun a b => a.1.advanceAll a.2.source ≤ b.1 := by
  induction segments generalizing origin with
  | nil => exact .nil
  | cons first rest ih => exact .cons (fun entry he => le_of_mem_place he) (ih _)

/-! ## Tokens and errors -/

/-- the token that is to be had of the segment number `i` -/
def tokenOf (origin : Position) (segments : List Segment) : Segment × Nat → Option Token
  | (.lexeme kind _ text, i) =>
    some ⟨kind, text, origin.advanceAll (textBefore segments i), origin.advanceAll (textBefore segments (i + 1))⟩
  | _ => none

/-- what is to be reported about the segment number `i`, and where -/
def reportOf (origin : Position) (segments : List Segment) : Segment × Nat → Option (String × Position)
  | (.blank _, _) => none
  | (.lexeme kind source _, i) =>
    if kind = .number ∧ source.getLast? = some '.' then
      some ("Expected digit after decimal point", origin.advanceAll (textBefore segments (i + 1)))
    else none
  | (.stray c, i) =>
    some ("Unexpected character: " ++ String.singleton c, origin.advanceAll (textBefore segments i))
  | (.unclosed _, i) => some ("Unterminated string literal", origin.advanceAll (textBefore segments i))

theorem tokenize_tokens (origin : Position) (text : List Char) :
    (tokenize origin text).1 = (segments text).zipIdx.filterMap (tokenOf origin (segments text)) := by
  simp only [tokenize, place_eq_zipIdx, List.filterMap_map]
  refine List.filterMap_congr fun entry he => ?_
  obtain ⟨segment, i⟩ := entry
  have hstop := textBefore_succ (List.mk_mem_zipIdx_iff_getElem?.1 he)
  cases segment with
  | lexeme kind source value =>
    show some _ = some _
    rw [Range.between_advanceAll, hstop, Position.advanceAll_append]
    rfl
  | _ => rfl

theorem tokenize_errors (origin : Position) (text : List Char) :
    (tokenize origin text).2.map (fun error => (error.message, error.position)) =
      (segments text).zipIdx.filterMap (reportOf origin (segments text)) := by
  simp only [tokenize, place_eq_zipIdx, List.filterMap_map, List.map_filterMap]
  refine List.filterMap_congr fun entry he => ?_
  obtain ⟨segment, i⟩ := entry
  have hstop := textBefore_succ (List.mk_mem_zipIdx_iff_getElem?.1 he)
  cases segment with
  | lexeme kind source value =>
    simp only [Function.comp, Segment.error?, reportOf, hstop, Position.advanceAll_append]
    split <;> rfl
  | _ => rfl

/-- Tokens are not empty, and each ends before the next one begins. -/
theorem tokenize_ranges (origin : Position) (text : List Char) :
    (∀ token ∈ (tokenize origin text).1, token.range.start < token.range.stop) ∧
      (tokenize origin text).1.Pairwise fun a b => a.range.stop ≤ b.range.start := by
  have hrange : ∀ (p : Position) (segment : Segment) (token : Token), segment.token? p = some token →
      token.range = ⟨p, p.advanceAll segment.source⟩ := by
    intro p segment token ht
    cases segment with
    | lexeme kind source value =>
      obtain rfl := Option.some.inj ht
      exact Range.between_advanceAll p source
    | _ => simp [Segment.token?] at ht
  constructor
  · intro token ht
    obtain ⟨⟨p, segment⟩, hm, ht⟩ := List.mem_filterMap.1 ht
    obtain ⟨before, c, rest, -, rfl, -⟩ := mem_place hm
    obtain ⟨inner, tail, hs, -⟩ := firstSegment_source c rest
    rw [hrange p _ token ht]
    exact p.lt_advanceAll (by simp [hs])
  · refine (place_pairwise origin (segments text)).filterMap _ ?_
    rintro ⟨p, a⟩ ⟨q, b⟩ hpq token ht token' ht'
    rw [hrange p a token ht, hrange q b token' ht']
    exact hpq

/-- Errors are reported in the order of their places. -/
theorem tokenize_errors_pairwise (origin : Position) (text : List Char) :
    (tokenize origin text).2.Pairwise fun a b => a.position ≤ b.position := by
  -- an error stands at one of the ends of its segment
  have hwithin : ∀ (p : Position) (segment : Segment) (error : LexicalError), segment.error? p = some error →
      p ≤ error.position ∧ error.position ≤ p.advanceAll segment.source := by
    intro p segment error he
    cases segment with
    | blank => simp [Segment.error?] at he
    | lexeme kind source value =>
      simp only [Segment.error?] at he
      split at he
      · obtain rfl := Option.some.inj he
        exact ⟨p.le_advanceAll source, Position.le_refl _⟩
      · simp at he
    | stray c =>
      obtain rfl := Option.some.inj he
      exact ⟨Position.le_refl p, p.le_advanceAll [c]⟩
    | unclosed source =>
      obtain rfl := Option.some.inj he
      exact ⟨Position.le_refl p, p.le_advanceAll source⟩
  refine (place_pairwise origin (segments text)).filterMap _ ?_
  rintro ⟨p, a⟩ ⟨q, b⟩ hpq error he error' he'
  exact Position.le_trans (hwithin p a error he).2 (Position.le_trans hpq (hwithin q b error' he').1)

/-- the segment that a character belongs to, with what stands before and behind the character in it -/
theorem exists_segment_of_split {segments : List Segment} {before after : List Char} {c : Char}
    (h : segments.flatMap Segment.source = before ++ c :: after) :
    ∃ front segment back inner tail, segments = front ++ segment :: back ∧
      before = front.flatMap Segment.source ++ inner ∧ segment.source = inner ++ c :: tail ∧
      after = tail ++ back.flatMap Segment.source := by
  induction segments generalizing before with
  | nil => simp at h
  | cons first rest ih =>
    rw [List.flatMap_cons, List.append_eq_append_iff] at h
    rcases h with ⟨skipped, rfl, hrest⟩ | ⟨tail, hfirst, hrest⟩
    · obtain ⟨front, segment, back, inner, tail, rfl, rfl, hs, ha⟩ := ih hrest
      exact ⟨first :: front, segment, back, inner, tail, rfl, by simp, hs, ha⟩
    · cases tail with
      | nil =>
        have hnext : rest.flatMap Segment.source = [] ++ c :: after := hrest.symm
        obtain ⟨front, segment, back, inner, tail, rfl, hb, hs, ha⟩ := ih hnext
        refine ⟨first :: front, segment, back, inner, tail, rfl, ?_, hs, ha⟩
        rw [List.append_nil] at hfirst
        rw [List.flatMap_cons, List.append_assoc, ← hb, List.append_nil, hfirst]
      | cons d tail =>
        obtain ⟨rfl, ha⟩ := List.cons.inj hrest
        exact ⟨[], first, rest, before, tail, rfl, rfl, hfirst, ha⟩

/-- the segment that a character of the text belongs to, with its place -/
theorem exists_place_of_split (origin : Position) {segments : List Segment} {before after : List Char} {c : Char}
    (h : segments.flatMap Segment.source = before ++ c :: after) :
    ∃ p segment inner tail, (p, segment) ∈ place origin segments ∧ segment.source = inner ++ c :: tail ∧
      origin.advanceAll before = p.advanceAll inner := by
  obtain ⟨front, segment, back, inner, tail, hsplit, rfl, hs, -⟩ := exists_segment_of_split h
  exact ⟨_, segment, inner, tail, mem_place_iff.2 ⟨front, back, hsplit, rfl⟩, hs, Position.advanceAll_append _ _ _⟩

/-- a character at the position `p` that a token covers or an error speaks of -/
def Accounted (tokens : List Token) (errors : List LexicalError) (p : Position) (c : Char) : Prop :=
  (∃ token ∈ tokens, token.range.start ≤ p ∧ p < token.range.stop) ∨
    ⟨.unexpectedCharacter c, p⟩ ∈ errors ∨
    ∃ error ∈ errors, error.fault = .unterminatedString ∧ error.position ≤ p

theorem singleton_split {c d : Char} {inner tail : List Char} (h : [d] = inner ++ c :: tail) : inner = [] ∧ d = c := by
  cases inner with
  | nil => exact ⟨rfl, (List.cons.inj h).1⟩
  | cons e inner => simp at h

/-- No character is dropped unless it is blank. -/
theorem tokenize_accounts {origin : Position} {text before after : List Char} {c : Char}
    (ht : text = before ++ c :: after) (hc : isBlank c = false) :
    Accounted (tokenize origin text).1 (tokenize origin text).2 (origin.advanceAll before) c := by
  obtain ⟨p, segment, inner, tail, hm, hs, hp⟩ :=
    exists_place_of_split origin ((segments_source text).trans ht)
  obtain ⟨-, d, rest, -, hd, -⟩ := mem_place hm
  have hr : Reads d rest segment := hd ▸ firstSegment_reads d rest
  rw [hp]
  cases segment with
  | blank d =>
    obtain ⟨-, rfl⟩ := singleton_split hs
    cases hr with
    | blank hb => exact absurd (hc.symm.trans hb) Bool.false_ne_true
  | lexeme kind source value =>
    have hsource : source = inner ++ c :: tail := hs
    refine Or.inl ⟨_, List.mem_filterMap.2 ⟨_, hm, rfl⟩, ?_, ?_⟩
    · rw [Range.between_advanceAll]
      exact p.le_advanceAll inner
    · rw [Range.between_advanceAll, hsource, Position.advanceAll_append]
      exact Position.lt_advanceAll _ (List.cons_ne_nil c tail)
  | stray d =>
    obtain ⟨rfl, rfl⟩ := singleton_split hs
    exact Or.inr (Or.inl (List.mem_filterMap.2 ⟨_, hm, rfl⟩))
  | unclosed source =>
    exact Or.inr (Or.inr ⟨_, List.mem_filterMap.2 ⟨_, hm, rfl⟩, rfl, p.le_advanceAll inner⟩)

/-- There are no more segments than characters, since none is empty. -/
theorem length_segments_le (text : List Char) : (segments text).length ≤ text.length := by
  have hle : ∀ l : List Segment, (∀ segment ∈ l, segment.source ≠ []) → l.length ≤ (l.flatMap Segment.source).length := by
    intro l hl
    induction l with
    | nil => exact Nat.le_refl 0
    | cons segment l ih =>
      have hfirst := List.length_pos_iff.2 (hl segment List.mem_cons_self)
      have hrest := ih fun other ho => hl other (List.mem_cons_of_mem _ ho)
      rw [List.flatMap_cons, List.length_append, List.length_cons]
      omega
  have h := hle (segments text) fun segment hm => by
    obtain ⟨before, after, hs⟩ := List.append_of_mem hm
    exact (segments_fit hs).1
  rwa [segments_source] at h

/-- **Nothing is lost.** The segments of a text are the text, cut into at most as many pieces as it has characters, and each
is one blank, one lexeme, one character at which no lexeme begins, or a literal that is open to the end. The tokens are
the lexemes, with the ranges they are read from, and the errors are one for each stray character, for an open literal and
for a number that ends in its point. -/
theorem tokenize_lossless (origin : Position) (text : List Char) :
    (segments text).flatMap Segment.source = text ∧ (segments text).length ≤ text.length ∧
    (∀ before segment after, segments text = before ++ segment :: after →
      segment.source ≠ [] ∧ segment.Fits (after.flatMap Segment.source)) ∧
    (tokenize origin text).1 = (segments text).zipIdx.filterMap (tokenOf origin (segments text)) ∧
    (∀ kind source value, .lexeme kind source value ∈ segments text → kind ≠ .string → value = source) ∧
    (tokenize origin text).2.map (fun error => (error.message, error.position)) =
      (segments text).zipIdx.filterMap (reportOf origin (segments text)) ∧
    (∀ token ∈ (tokenize origin text).1, token.range.start < token.range.stop) ∧
    (tokenize origin text).1.Pairwise (fun a b => a.range.stop ≤ b.range.start) ∧
    (tokenize origin text).2.Pairwise (fun a b => a.position ≤ b.position) ∧
    ∀ before c after, text = before ++ c :: after → isBlank c = false →
      Accounted (tokenize origin text).1 (tokenize origin text).2 (origin.advanceAll before) c := by
  refine ⟨segments_source text, length_segments_le text, fun before segment after h => segments_fit h,
    tokenize_tokens origin text, ?_, tokenize_errors origin text, (tokenize_ranges origin text).1,
    (tokenize_ranges origin text).2, tokenize_errors_pairwise origin text, fun before c after => tokenize_accounts⟩
  intro kind source value hm hk
  obtain ⟨before, after, hs⟩ := List.append_of_mem hm
  exact Lexeme.text_eq (segments_fit hs).2 hk

end WorkflowLint.Expression
