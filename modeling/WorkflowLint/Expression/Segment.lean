/-
Reading an expression as a sequence of segments, and its tokens off them.

`segments` cuts a text into pieces that are each one blank, one lexeme, one stray character or, at the very end, a string
literal that is never closed. Nothing is skipped and nothing is looked at twice, so tokens and errors are both views of the
same segments: `tokenize` places each segment where the ones before it end and keeps what is a token and what is a fault.
A bad character never stops the reading.

`segments_source`: the sources of the segments, one after the other, are the text.
-/
import WorkflowLint.Expression.Fault
import WorkflowLint.Expression.Token

namespace WorkflowLint.Expression

open WorkflowLint.Text

inductive Segment where
  /-- one white-space character -/
  | blank (c : Char)
  /-- one token: its kind, the characters it was read from, and its text -/
  | lexeme (kind : TokenKind) (source text : List Char)
  /-- one character that begins no token -/
  | stray (c : Char)
  /-- a string literal that runs to the end without its closing quote -/
  | unclosed (source : List Char)
deriving DecidableEq, Repr

/-- the characters a segment was read from -/
def Segment.source : Segment → List Char
  | blank c => [c]
  | lexeme _ source _ => source
  | stray c => [c]
  | unclosed source => source

/-! ## One segment -/

/-- What stands between an opening quote and the first closing one; a backslash takes the next character with it. -/
def literalBody (quote : Char) : List Char → Option (List Char)
  | [] => none
  | c :: rest =>
    if c = '\\' then
      match rest with
      | [] => none
      | d :: rest => (literalBody quote rest).map fun body => c :: d :: body
    else if c = quote then some []
    else (literalBody quote rest).map fun body => c :: body

/-- the value of a literal: each pair of a backslash and a character stands for the character -/
def unescape : List Char → List Char
  | [] => []
  | c :: rest =>
    if c = '\\' then
      match rest with
      | [] => []
      | d :: rest => d :: unescape rest
    else c :: unescape rest

/-- the longest number at the front: digits, and if a point follows them, the point and the digits after it -/
def numberSource (text : List Char) : List Char :=
  text.takeWhile isDigit ++
    match text.dropWhile isDigit with
    | '.' :: rest => '.' :: rest.takeWhile isDigit
    | _ => []

/-- the word at the front, as a segment -/
def wordSegment (text : List Char) : Segment :=
  let word := text.takeWhile continuesWord
  let kind := if wordOperators.contains (String.ofList word) then .operator else classify word
  .lexeme kind word word

/-- the longest operator spelled with symbols at the front -/
def symbolOperator? (text : List Char) : Option (List Char) :=
  symbolOperators.find? fun operator => operator.isPrefixOf text

/-- the segment at the front of the text `c :: rest` -/
def firstSegment (c : Char) (rest : List Char) : Segment :=
  if isBlank c then .blank c
  else if c = '\'' ∨ c = '"' then
    match literalBody c rest with
    | some body => .lexeme .string (c :: body ++ [c]) (unescape body)
    | none => .unclosed (c :: rest)
  else if isDigit c then
    let source := numberSource (c :: rest)
    .lexeme .number source source
  else if delimiters.contains c then .lexeme .delimiter [c] [c]
  else
    match symbolOperator? (c :: rest) with
    | some operator => .lexeme .operator operator operator
    | none => if startsWord c then wordSegment (c :: rest) else .stray c

/-! ## All segments -/

/-- the segments of a text of which the first `skip` characters are already read -/
def segmentsFrom : Nat → List Char → List Segment
  | _, [] => []
  | skip + 1, _ :: rest => segmentsFrom skip rest
  | 0, c :: rest =>
    let segment := firstSegment c rest
    segment :: segmentsFrom (segment.source.length - 1) rest

/-- the segments of a text -/
def segments (text : List Char) : List Segment :=
  segmentsFrom 0 text

/-- each segment with the position at which it begins -/
def place : Position → List Segment → List (Position × Segment)
  | _, [] => []
  | p, segment :: rest => (p, segment) :: place (p.advanceAll segment.source) rest

/-- the token that a segment placed at `p` gives -/
def Segment.token? (p : Position) : Segment → Option Token
  | lexeme kind source text => some ⟨kind, text, Range.between p (p.advanceAll source)⟩
  | _ => none

/-- the fault that a segment placed at `p` gives; a number is at fault if it ends in its decimal point -/
def Segment.error? (p : Position) : Segment → Option LexicalError
  | blank _ => none
  | lexeme kind source _ =>
    if kind = .number ∧ source.getLast? = some '.' then some ⟨.missingFraction, p.advanceAll source⟩ else none
  | stray c => some ⟨.unexpectedCharacter c, p⟩
  | unclosed _ => some ⟨.unterminatedString, p⟩

/-- the tokens and the faults of a text that begins at `origin`, each in reading order -/
def tokenize (origin : Position) (text : List Char) : List Token × List LexicalError :=
  let placed := place origin (segments text)
  (placed.filterMap fun (p, segment) => segment.token? p, placed.filterMap fun (p, segment) => segment.error? p)

/-! ## Nothing is lost -/

theorem literalBody_append {quote : Char} {text body : List Char} (h : literalBody quote text = some body) :
    ∃ rest, text = body ++ quote :: rest := by
  fun_induction literalBody quote text generalizing body with
  | case1 => simp at h
  | case2 => simp at h
  | case3 d rest ih =>
    obtain ⟨inner, hi, rfl⟩ := Option.map_eq_some_iff.1 h
    obtain ⟨r, rfl⟩ := ih hi
    exact ⟨r, rfl⟩
  | case4 rest _ =>
    obtain rfl : [] = body := by simpa using h
    exact ⟨rest, rfl⟩
  | case5 c rest _ _ ih =>
    obtain ⟨inner, hi, rfl⟩ := Option.map_eq_some_iff.1 h
    obtain ⟨r, rfl⟩ := ih hi
    exact ⟨r, rfl⟩

theorem numberSource_append (text : List Char) : ∃ rest, text = numberSource text ++ rest := by
  unfold numberSource
  split
  case h_1 tail h =>
    refine ⟨tail.dropWhile isDigit, ?_⟩
    rw [List.append_assoc, List.cons_append, List.takeWhile_append_dropWhile, ← h, List.takeWhile_append_dropWhile]
  case h_2 =>
    exact ⟨text.dropWhile isDigit, by rw [List.append_nil, List.takeWhile_append_dropWhile]⟩

/-- A segment is read from the character it begins with and from nothing but the characters after it. -/
theorem firstSegment_source (c : Char) (rest : List Char) :
    ∃ inner tail, (firstSegment c rest).source = c :: inner ∧ rest = inner ++ tail := by
  unfold firstSegment
  split
  · exact ⟨[], rest, rfl, rfl⟩
  split
  · split
    case h_1 body h =>
      obtain ⟨tail, rfl⟩ := literalBody_append h
      exact ⟨body ++ [c], tail, rfl, by simp⟩
    case h_2 => exact ⟨rest, [], rfl, by simp⟩
  split
  · rename_i hd
    obtain ⟨tail, h⟩ := numberSource_append (c :: rest)
    have hc : numberSource (c :: rest) = c :: (numberSource (c :: rest)).tail := by
      simp [numberSource, hd]
    rw [hc, List.cons_append, List.cons.injEq] at h
    exact ⟨_, tail, hc, h.2⟩
  split
  · exact ⟨[], rest, rfl, rfl⟩
  split
  case h_1 operator h =>
    have hp : operator <+: c :: rest := List.isPrefixOf_iff_prefix.1 (by simpa using List.find?_some h)
    have hne : operator ≠ [] := by
      have := List.mem_of_find?_eq_some h
      rintro rfl
      revert this
      decide
    obtain ⟨tail, ht⟩ := hp
    cases operator with
    | nil => exact absurd rfl hne
    | cons d inner =>
      rw [List.cons_append, List.cons.injEq] at ht
      obtain ⟨rfl, rfl⟩ := ht
      exact ⟨inner, tail, rfl, rfl⟩
  case h_2 =>
    split
    · rename_i hw
      have hc := continuesWord_of_startsWord hw
      exact ⟨rest.takeWhile continuesWord, rest.dropWhile continuesWord,
        by simp [wordSegment, Segment.source, hc], by rw [List.takeWhile_append_dropWhile]⟩
    · exact ⟨[], rest, rfl, rfl⟩

theorem segmentsFrom_source (skip : Nat) (text : List Char) :
    (segmentsFrom skip text).flatMap Segment.source = text.drop skip := by
  induction text generalizing skip with
  | nil => simp [segmentsFrom]
  | cons c rest ih =>
    cases skip with
    | succ skip => simpa [segmentsFrom] using ih skip
    | zero =>
      obtain ⟨inner, tail, hs, rfl⟩ := firstSegment_source c rest
      simp [segmentsFrom, hs, ih]

/-- The sources of the segments, one after the other, are the text. -/
theorem segments_source (text : List Char) : (segments text).flatMap Segment.source = text := by
  simpa [segments] using segmentsFrom_source 0 text

end WorkflowLint.Expression
