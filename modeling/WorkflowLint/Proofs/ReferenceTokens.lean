/-
References in the raw text against the tokens of the expression.

References are found by a search that knows nothing of tokens. For variables this makes no difference as long as the text has no
quotes: `$` and `.` are tokens of their own wherever they stand, and a word behind them is read to its end by the search and by
the tokens alike. So what the search captures are the words that directly follow a point that directly follows a `$`
(`variableTokens`).

Results:
- `tokenize_lexeme`: a lexeme at the front is one token, and the tokens of the rest follow it.
- `exists_lexeme_of_start`: a first token that begins where the text does was read there.
- `variableAt_eq_variableToken?`: at a `$`, the search and the tokens find the same.
- `variableNames_eq_variableTokens`, `variables_read_alike`: so they do in every text without quotes, wherever it begins.
-/
import WorkflowLint.Proofs.LongestMatch
import WorkflowLint.Proofs.References

namespace WorkflowLint.Expression

open WorkflowLint.Text

/-! ## Tokens at the front of a text -/

/-- A lexeme at the front is one token, and the tokens of the rest follow it. -/
theorem tokenize_lexeme (origin : Position) {c : Char} {inner tail value : List Char} {kind : TokenKind}
    (h : firstSegment c (inner ++ tail) = .lexeme kind (c :: inner) value) :
    (tokenize origin (c :: (inner ++ tail))).1 = ⟨kind, value, origin, origin.advanceAll (c :: inner)⟩ ::
      (tokenize (origin.advanceAll (c :: inner)) tail).1 := by
  have hsegments : segments (c :: (inner ++ tail)) = .lexeme kind (c :: inner) value :: segments tail := by
    rw [segments_cons (by rw [h]; rfl), h]
  rw [tokenize_of_segments_cons origin hsegments, Segment.token?, Range.between_advanceAll]
  rfl

/-- No token begins before the text does. -/
theorem le_of_mem_tokenize {origin : Position} {text : List Char} {token : Token} (h : token ∈ (tokenize origin text).1) :
    origin ≤ token.range.start := by
  obtain ⟨before, source, after, -, hrange, -⟩ := tokenize_longest h
  rw [hrange]
  exact origin.le_advanceAll before

/-- A first token that begins where the text does was read there. -/
theorem exists_lexeme_of_start {origin : Position} {text : List Char} {token : Token} {others : List Token}
    (h : (tokenize origin text).1 = token :: others) (hstart : token.range.start = origin) :
    ∃ c inner tail, text = c :: (inner ++ tail) ∧
      firstSegment c (inner ++ tail) = .lexeme token.kind (c :: inner) token.text ∧
      token.range.stop = origin.advanceAll (c :: inner) ∧ others = (tokenize (origin.advanceAll (c :: inner)) tail).1 := by
  cases text with
  | nil => cases h
  | cons c rest =>
    obtain ⟨inner, tail, hsource, rfl⟩ := firstSegment_source c rest
    refine ⟨c, inner, tail, rfl, ?_⟩
    have hread := tokenize_of_segments_cons origin (segments_cons hsource)
    have hlater : token ∈ (tokenize (origin.advanceAll (c :: inner)) tail).1 → False := by
      intro hmem
      have hlt : origin < token.range.start :=
        Position.lt_of_lt_of_le (origin.lt_advanceAll (List.cons_ne_nil c inner)) (le_of_mem_tokenize hmem)
      rw [hstart] at hlt
      exact Position.lt_irrefl _ hlt
    rw [hread, hsource] at h
    generalize firstSegment c (inner ++ tail) = first at h hsource ⊢
    cases first with
    | lexeme kind source value =>
      obtain rfl : source = c :: inner := hsource
      obtain ⟨rfl, rfl⟩ := List.cons.inj h
      exact ⟨rfl, by rw [Range.between_advanceAll], rfl⟩
    | _ =>
      have hmem : token ∈ (tokenize (origin.advanceAll (c :: inner)) tail).1 := by
        simp only [Segment.token?, Option.toList_none, List.nil_append] at h
        rw [h]
        exact List.mem_cons_self
      exact (hlater hmem).elim

theorem plain_of_mem_delimiters :
    ∀ c ∈ delimiters, isBlank c = false ∧ ¬ (c = '\'' ∨ c = '"') ∧ isDigit c = false := by
  simp [delimiters, isBlank, isDigit]

theorem firstSegment_delimiter {c : Char} (rest : List Char) (h : c ∈ delimiters) :
    firstSegment c rest = .lexeme .delimiter [c] [c] := by
  obtain ⟨hblank, hquote, hdigit⟩ := plain_of_mem_delimiters c h
  simp [firstSegment, hblank, hquote, hdigit, h]

/-- A delimiter is a token of its own, whatever stands behind it. -/
theorem tokenize_delimiter_cons (origin : Position) {c : Char} (rest : List Char) (h : c ∈ delimiters) :
    (tokenize origin (c :: rest)).1 = ⟨.delimiter, [c], origin, origin.advanceAll [c]⟩ ::
      (tokenize (origin.advanceAll [c]) rest).1 := by
  have hfirst : firstSegment c ([] ++ rest) = .lexeme .delimiter [c] [c] := firstSegment_delimiter rest h
  have hread := tokenize_lexeme origin hfirst
  rwa [List.nil_append] at hread

/-- What is read as a delimiter is the character at the front. -/
theorem eq_of_firstSegment_delimiter {c : Char} {rest source text : List Char}
    (h : firstSegment c rest = .lexeme .delimiter source text) : source = [c] ∧ text = [c] := by
  obtain ⟨inner, tail, hsource, hrest⟩ := firstSegment_source c rest
  have hfits : (firstSegment c rest).Fits tail := (firstSegment_reads c rest).fits (by rw [hsource, hrest]; rfl)
  rw [h] at hsource hfits
  obtain ⟨d, rfl, rfl⟩ := Lexeme.delimiter_inv hfits rfl
  obtain ⟨rfl, -⟩ := List.cons.inj hsource
  exact ⟨rfl, rfl⟩

theorem firstSegment_word {c : Char} (rest : List Char) (h : startsWord c = true) :
    firstSegment c rest = wordSegment (c :: rest) := by
  have hno : startsWord c ≠ false := by simp [h]
  have hreads := firstSegment_reads c rest
  generalize firstSegment c rest = segment at hreads ⊢
  cases hreads with
  | blank hblank =>
    have hword := continuesWord_of_isBlank hblank
    rw [continuesWord_of_startsWord h] at hword
    cases hword
  | literal hquote => rcases hquote with rfl | rfl <;> exact absurd rfl hno
  | unclosed hquote => rcases hquote with rfl | rfl <;> exact absurd rfl hno
  | number hdigit => exact absurd (startsWord_of_isDigit hdigit) hno
  | delimiter hmem => exact absurd (startsWord_of_table.1 c hmem) hno
  | @symbol operator hfound =>
    have hmem := List.mem_of_find?_eq_some hfound
    have hfront : operator <+: c :: rest := List.isPrefixOf_iff_prefix.1 (by simpa using List.find?_some hfound)
    have hne := operators_ne_nil operator (List.mem_append_left _ hmem)
    have hfirst := startsWord_of_table.2 operator hmem _ (List.head_mem hne)
    rw [hfront.head hne] at hfirst
    exact absurd hfirst hno
  | word => rfl
  | stray _ _ _ _ _ hword => exact absurd hword hno

/-- What a lexeme other than a literal is, by one of its characters: a number, a delimiter, an operator in symbols or a word. -/
theorem Lexeme.cases_of_mem {kind : TokenKind} {source text : List Char} (h : Lexeme kind source text)
    (hkind : kind ≠ .string) {c : Char} (hmem : c ∈ source) :
    (isDigit c = true ∨ c = '.') ∨ (c ∈ delimiters ∧ source = [c]) ∨ source ∈ symbolOperators ∨
      (continuesWord c = true ∧ text = source ∧ WordKind source kind) := by
  cases h with
  | string => exact absurd rfl hkind
  | whole _ hdigits => exact Or.inl (Or.inl (hdigits c hmem))
  | fraction _ hdigits hmore =>
    left
    rcases List.mem_append.1 hmem with hmem | hmem
    · exact Or.inl (hdigits c hmem)
    · rcases List.mem_cons.1 hmem with hmem | hmem
      · exact Or.inr hmem
      · exact Or.inl (hmore c hmem)
  | delimiter hdelimiter =>
    obtain rfl := List.mem_singleton.1 hmem
    exact Or.inr (Or.inl ⟨hdelimiter, rfl⟩)
  | symbol hoperator => exact Or.inr (Or.inr (Or.inl hoperator))
  | word hfirst hrest =>
    refine Or.inr (Or.inr (Or.inr ⟨?_, rfl, wordKind _⟩))
    rcases List.mem_cons.1 hmem with rfl | hmem
    · exact continuesWord_of_startsWord hfirst
    · exact hrest c hmem

/-! ## Words among the tokens -/

namespace Token

/-- a keyword, a function, an identifier or an operator in letters -/
def IsWord (token : Token) : Prop :=
  token.kind = .keyword ∨ token.kind = .function ∨ token.kind = .identifier ∨
    (token.kind = .operator ∧ String.ofList token.text ∈ wordOperators)

/-- `next` begins where `token` ends -/
def Touches (token next : Token) : Prop :=
  token.range.stop = next.range.start

/-- a delimiter with the given character -/
def IsDelimiter (token : Token) (c : Char) : Prop :=
  token.kind = .delimiter ∧ token.text = [c]

instance (token : Token) : Decidable token.IsWord :=
  inferInstanceAs (Decidable (_ ∨ _))

instance (token next : Token) : Decidable (token.Touches next) :=
  inferInstanceAs (Decidable (_ = _))

instance (token : Token) (c : Char) : Decidable (token.IsDelimiter c) :=
  inferInstanceAs (Decidable (_ ∧ _))

end Token

/-- the name that the tokens begin with: a `$`, a point and a word, each directly behind the one before it -/
def variableToken? : List Token → Option (List Char)
  | dollar :: point :: word :: _ =>
    if dollar.IsDelimiter '$' ∧ point.IsDelimiter '.' ∧ word.IsWord ∧ dollar.Touches point ∧ point.Touches word then
      some word.text
    else none
  | _ => none

/-- the words that directly follow a point that directly follows a `$`, in order -/
def variableTokens (tokens : List Token) : List (List Char) :=
  tokens.tails.filterMap variableToken?

theorem variableTokens_cons (token : Token) (tokens : List Token) :
    variableTokens (token :: tokens) = (variableToken? (token :: tokens)).toList ++ variableTokens tokens := by
  rw [variableTokens, List.tails, List.filterMap_cons, variableTokens]
  cases variableToken? (token :: tokens) <;> rfl

theorem variableToken?_eq_some_iff {tokens : List Token} {name : List Char} :
    variableToken? tokens = some name ↔ ∃ dollar point word others, tokens = dollar :: point :: word :: others ∧
      dollar.IsDelimiter '$' ∧ point.IsDelimiter '.' ∧ word.IsWord ∧ dollar.Touches point ∧ point.Touches word ∧
      word.text = name := by
  constructor
  · intro h
    unfold variableToken? at h
    split at h
    case h_1 dollar point word others =>
      split at h
      case isTrue hall =>
        obtain ⟨hdollar, hpoint, hword, htouch, htouch'⟩ := hall
        exact ⟨dollar, point, word, others, rfl, hdollar, hpoint, hword, htouch, htouch', Option.some.inj h⟩
      case isFalse => cases h
    case h_2 => cases h
  · rintro ⟨dollar, point, word, others, rfl, hdollar, hpoint, hword, htouch, htouch', rfl⟩
    exact if_pos ⟨hdollar, hpoint, hword, htouch, htouch'⟩

/-- What is read as a word begins like one: a symbol is none of the operators in letters. -/
theorem Reads.startsWord_of_isWord {c : Char} {rest source value : List Char} {kind : TokenKind} {segment : Segment}
    {range : Range} (h : Reads c rest segment) (hsegment : segment = .lexeme kind source value)
    (hword : (⟨kind, value, range⟩ : Token).IsWord) : startsWord c = true := by
  cases h with
  | blank | unclosed | stray => cases hsegment
  | literal | number | delimiter =>
    obtain ⟨rfl, -, rfl⟩ := Segment.lexeme.inj hsegment
    simp [Token.IsWord] at hword
  | @symbol operator hfound =>
    obtain ⟨rfl, -, rfl⟩ := Segment.lexeme.inj hsegment
    have hoperator : String.ofList operator ∈ wordOperators := by simpa [Token.IsWord] using hword
    have hhead := head?_operators.1 operator (List.mem_of_find?_eq_some hfound) _ hoperator
    exact absurd (congrArg List.head? String.toList_ofList.symm) hhead
  | word hstart => exact hstart

/-- The word at the front, as a segment that is told by its word. -/
theorem firstSegment_of_maximalRun {c : Char} {inner tail : List Char} (hstart : startsWord c = true)
    (hinner : ∀ d ∈ inner, continuesWord d = true) (htail : ∀ d, tail.head? = some d → continuesWord d = false) :
    ∃ kind, firstSegment c (inner ++ tail) = .lexeme kind (c :: inner) (c :: inner) ∧ WordKind (c :: inner) kind := by
  have hrun : (c :: (inner ++ tail)).takeWhile continuesWord = c :: inner := by
    rw [List.takeWhile_cons_of_pos (continuesWord_of_startsWord hstart), takeWhile_append_of_stop inner htail,
      List.takeWhile_eq_self_iff.2 hinner]
  refine ⟨_, ?_, wordKind (c :: inner)⟩
  rw [firstSegment_word _ hstart, wordSegment, hrun]
  simp only [List.contains_iff_mem]

theorem WordKind.isWord {word : List Char} {kind : TokenKind} (h : WordKind word kind) (range : Range) :
    (⟨kind, word, range⟩ : Token).IsWord := by
  by_cases hoperator : kind = .operator
  · exact Or.inr (Or.inr (Or.inr ⟨hoperator, h.operator.1 hoperator⟩))
  · by_cases hkeyword : kind = .keyword
    · exact Or.inl hkeyword
    · by_cases hfunction : kind = .function
      · exact Or.inr (Or.inl hfunction)
      · rw [h.operator] at hoperator
        rw [h.keyword] at hkeyword
        rw [h.function] at hfunction
        exact Or.inr (Or.inr (Or.inl (h.identifier.2 ⟨hoperator, hkeyword, hfunction⟩)))

/-! ## Variables -/

/-- **A reference at a `$`.** The search finds a name behind it exactly if the tokens have that name there. -/
theorem variableAt_eq_variableToken? (origin : Position) (tail : List Char) :
    variableAt ('$' :: tail) = variableToken? (tokenize origin ('$' :: tail)).1 := by
  apply Option.ext
  intro name
  rw [variableToken?_eq_some_iff, tokenize_delimiter_cons origin tail (by decide)]
  constructor
  · intro h
    obtain ⟨after, htext, -, ⟨c, inner, rfl, hstart, hinner⟩, hafter⟩ := variableAt_eq_some_iff.1 h
    obtain rfl : tail = '.' :: c :: (inner ++ after) := (List.cons.inj htext).2
    obtain ⟨kind, hfirst, hkind⟩ := firstSegment_of_maximalRun hstart hinner hafter
    rw [tokenize_delimiter_cons _ _ (by decide), tokenize_lexeme _ hfirst]
    exact ⟨_, _, _, _, rfl, ⟨rfl, rfl⟩, ⟨rfl, rfl⟩, hkind.isWord _, rfl, rfl, rfl⟩
  · rintro ⟨dollar, point, word, others, htokens, -, ⟨hpointKind, hpointText⟩, hword, htouch, htouch', rfl⟩
    obtain ⟨rfl, htail⟩ := List.cons.inj htokens
    -- the point begins where the `$` ends, so it is the character there, and likewise the word
    obtain ⟨c, inner, tail, rfl, hfirst, hstop, hbehind⟩ := exists_lexeme_of_start htail htouch.symm
    rw [hpointKind, hpointText] at hfirst
    obtain ⟨hsource, hc⟩ := eq_of_firstSegment_delimiter hfirst
    obtain rfl : inner = [] := (List.cons.inj hsource).2
    obtain rfl : '.' = c := (List.cons.inj hc).1
    obtain ⟨d, inner, tail, rfl, hfirst, -, -⟩ := exists_lexeme_of_start hbehind.symm (htouch'.symm.trans hstop)
    have hstart := (firstSegment_reads d (inner ++ tail)).startsWord_of_isWord hfirst hword
    rw [firstSegment_word _ hstart] at hfirst
    have htext := (Segment.lexeme.inj hfirst).2.2
    rw [List.takeWhile_cons_of_pos (continuesWord_of_startsWord hstart)] at htext
    rw [← htext]
    exact if_pos hstart

theorem variableNames_cons (c : Char) (rest : List Char) :
    variableNames (c :: rest) = (variableAt (c :: rest)).toList ++ variableNames rest := by
  rw [variableNames]
  cases variableAt (c :: rest) with
  | none => rfl
  | some name => rfl

section Segment

variable {c : Char} {inner tail : List Char} (hsource : (firstSegment c (inner ++ tail)).source = c :: inner)
include hsource

/-- Only a literal or the character itself can have a `$` in it. -/
theorem dollar_not_mem_of_ne (hquote : c ≠ '\'' ∧ c ≠ '"') (hc : c ≠ '$') : '$' ∉ c :: inner := by
  intro hmem
  have hfits : (firstSegment c (inner ++ tail)).Fits tail :=
    (firstSegment_reads c (inner ++ tail)).fits (by rw [hsource]; rfl)
  generalize firstSegment c (inner ++ tail) = first at hsource hfits
  have hnot : ∀ d, d :: [] = c :: inner → False := by
    intro d hd
    obtain ⟨rfl, rfl⟩ := List.cons.inj hd
    exact hc (List.mem_singleton.1 hmem).symm
  cases first with
  | blank d => exact hnot d hsource
  | stray d => exact hnot d hsource
  | unclosed source =>
    obtain ⟨-, quote, body, rfl, hopening, -⟩ := hfits
    obtain ⟨rfl, -⟩ := List.cons.inj hsource
    exact not_or.2 hquote hopening
  | lexeme kind source value =>
    obtain rfl : source = c :: inner := hsource
    by_cases hkind : kind = .string
    · obtain ⟨quote, body, hliteral, hopening, -⟩ := Lexeme.string_inv hfits hkind
      obtain ⟨rfl, -⟩ := List.cons.inj hliteral
      exact not_or.2 hquote hopening
    · have hsymbol : ∀ operator ∈ symbolOperators, '$' ∉ operator := by decide
      rcases Lexeme.cases_of_mem hfits hkind hmem with hnumber | ⟨-, halone⟩ | hoperator | ⟨hword, -, -⟩
      · exact absurd hnumber (by decide)
      · exact hc (List.cons.inj halone).1
      · exact hsymbol _ hoperator hmem
      · exact absurd hword (by decide)

/-- A segment that begins with another character begins no reference. -/
theorem variableTokens_of_ne (origin : Position) (hc : c ≠ '$') :
    variableTokens (tokenize origin (c :: (inner ++ tail))).1 =
      variableTokens (tokenize (origin.advanceAll (c :: inner)) tail).1 := by
  rw [tokenize_of_segments_cons origin (segments_cons hsource), hsource]
  cases hfirst : firstSegment c (inner ++ tail) with
  | lexeme kind source value =>
    have hnone : ∀ tokens range, variableToken? (⟨kind, value, range⟩ :: tokens) = none := by
      intro tokens range
      rw [Option.eq_none_iff_forall_ne_some]
      intro name hname
      obtain ⟨dollar, point, word, others, htokens, ⟨hkind, htext⟩, -⟩ := variableToken?_eq_some_iff.1 hname
      obtain ⟨rfl, -⟩ := List.cons.inj htokens
      obtain rfl : kind = .delimiter := hkind
      obtain rfl : value = ['$'] := htext
      exact hc (List.cons.inj (eq_of_firstSegment_delimiter hfirst).2).1.symm
    simp only [Segment.token?, Option.toList_some, List.singleton_append, variableTokens_cons, hnone, Option.toList_none,
      List.nil_append]
  | _ => rfl

end Segment

/-- **The run.** A search for variables and the tokens agree from each segment on. -/
theorem variableNames_eq_variableTokens (origin : Position) {text : List Char}
    (hquotes : ∀ c ∈ text, c ≠ '\'' ∧ c ≠ '"') : variableNames text = variableTokens (tokenize origin text).1 := by
  induction text using segments_induction generalizing origin with
  | nil => rfl
  | read c inner tail hsource ih =>
    have htail := ih (origin.advanceAll (c :: inner)) fun d hd => hquotes d (by simp [hd])
    by_cases hc : c = '$'
    · subst hc
      obtain rfl : inner = [] := by
        rw [firstSegment_delimiter _ (by decide)] at hsource
        exact (List.cons.inj hsource).2.symm
      rw [List.nil_append, variableNames_cons, variableAt_eq_variableToken? origin,
        tokenize_delimiter_cons origin tail (by decide), variableTokens_cons, htail]
    · have hnone := dollar_not_mem_of_ne hsource (hquotes c List.mem_cons_self) hc
      rw [variableTokens_of_ne hsource origin hc, ← htail]
      exact variableNames_append_of_not_mem tail hnone

/-- **Variables are read alike.** In a text without quotes, what a search for `$.name` captures, in order, are the texts of the
words among the tokens that directly follow a point that directly follows a `$`, wherever the text begins. -/
theorem variables_read_alike (origin : Position) (text : List Char) (hquotes : '\'' ∉ text ∧ '"' ∉ text) :
    variableNames text = variableTokens (tokenize origin text).1 ∧
      ∀ names, Captures VariableMatch text names ↔ names = variableTokens (tokenize origin text).1 := by
  have hplain : ∀ c ∈ text, c ≠ '\'' ∧ c ≠ '"' := by
    intro c hc
    exact ⟨ne_of_mem_of_not_mem hc hquotes.1, ne_of_mem_of_not_mem hc hquotes.2⟩
  have hnames := variableNames_eq_variableTokens origin hplain
  refine ⟨hnames, fun names => ?_⟩
  rw [captures_variableNames_iff, hnames]

/-- **Four readings.** A point behind a digit, a `$` between two references, an operator in letters as a name, and white space
or a stray character that keeps a name from its point. -/
theorem chained_variables_read_alike :
    ('\'' ∉ "1.$.$.in + $. x - $.#y".toList ∧ '"' ∉ "1.$.$.in + $. x - $.#y".toList) ∧
      variableNames "1.$.$.in + $. x - $.#y".toList = ["in".toList] ∧
      variableTokens (tokenize ⟨7, 3⟩ "1.$.$.in + $. x - $.#y".toList).1 = ["in".toList] := by
  have hquotes : '\'' ∉ "1.$.$.in + $. x - $.#y".toList ∧ '"' ∉ "1.$.$.in + $. x - $.#y".toList := by decide
  have hnames : variableNames "1.$.$.in + $. x - $.#y".toList = ["in".toList] := by decide
  have hread := (variables_read_alike ⟨7, 3⟩ "1.$.$.in + $. x - $.#y".toList hquotes).1
  exact ⟨hquotes, hnames, hread.symm.trans hnames⟩

end WorkflowLint.Expression
