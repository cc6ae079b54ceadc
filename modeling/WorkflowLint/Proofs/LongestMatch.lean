/-
Each token takes as much of the text as it can.

What is as long as it can be is said for each kind by the text around the token alone: a run of a class of characters that the
next character does not belong to (`MaximalRun`), a number with its point and the digits on both sides (`LongestNumber`), an
operator that no longer one of the table could replace (`LongestOperator`). The tables are looked up without regard to their
order; that the reading tries longer symbols first is what makes its first match the longest one (`length_le_of_find?`).

Results:
- `Reads.longest`: every way of reading takes the longest lexeme of its kind.
- `operators_apart`: two operators that touch do not spell one of the table together.
- `exclamation_reported_iff`: a `!` is reported exactly if it stands outside string literals and has no `=` behind it.
- `tokenize_longest_match`: all of this for every text.
-/
import WorkflowLint.Proofs.Literals

namespace WorkflowLint.Expression

open WorkflowLint.Text

/-! ## As long as it can be -/

/-- a run of characters of a class that does not go on behind it -/
structure MaximalRun (p : Char → Bool) (run after : List Char) : Prop where
  all : ∀ c ∈ run, p c = true
  stops : ∀ c, after.head? = some c → p c = false

/-- the longest number in front of `after`: all digits there are, and if a point follows them, the point and all digits behind
it -/
inductive LongestNumber : List Char → List Char → Prop where
  | whole {digits after : List Char} : digits ≠ [] → MaximalRun isDigit digits after → after.head? ≠ some '.' →
      LongestNumber digits after
  | fraction {digits more after : List Char} : digits ≠ [] → (∀ c ∈ digits, isDigit c = true) →
      MaximalRun isDigit more after → LongestNumber (digits ++ '.' :: more) after

/-- all operators, in symbols and in words -/
def operators : List (List Char) :=
  symbolOperators ++ wordOperators.map String.toList

/-- the longest operator at the front of `source ++ after` -/
structure LongestOperator (source after : List Char) : Prop where
  mem : source ∈ operators
  longest : ∀ operator ∈ operators, operator <+: source ++ after → operator.length ≤ source.length

/-- the kind of a word, by the tables -/
structure WordKind (word : List Char) (kind : TokenKind) : Prop where
  operator : kind = .operator ↔ String.ofList word ∈ wordOperators
  keyword : kind = .keyword ↔ String.ofList word ∈ keywords
  function : kind = .function ↔ String.ofList word ∈ functions
  identifier : kind = .identifier ↔
    String.ofList word ∉ wordOperators ∧ String.ofList word ∉ keywords ∧ String.ofList word ∉ functions

/-- A token that was read from `source`, with `after` behind it, has the longest lexeme of its kind. -/
structure Token.Longest (source after : List Char) (token : Token) : Prop where
  word : ∀ c, source.head? = some c → startsWord c = true →
    token.text = source ∧ MaximalRun continuesWord source after ∧ WordKind source token.kind
  number : token.kind = .number → token.text = source ∧ LongestNumber source after
  operator : token.kind = .operator → token.text = source ∧ LongestOperator source after

theorem maximalRun_takeWhile (p : Char → Bool) (text : List Char) :
    MaximalRun p (text.takeWhile p) (text.dropWhile p) := by
  constructor
  · intro c hc
    exact List.mem_takeWhile_imp hc
  · intro c hc
    have hstop := List.head?_dropWhile_not p text
    rwa [hc] at hstop

/-! ## Words -/

/-- No word is in two of the tables. -/
theorem tables_disjoint :
    (∀ word ∈ wordOperators, word ∉ keywords ∧ word ∉ functions) ∧ ∀ word ∈ keywords, word ∉ functions := by
  decide +kernel

theorem wordKind (word : List Char) :
    WordKind word (if String.ofList word ∈ wordOperators then .operator else classify word) := by
  simp only [classify, List.contains_iff_mem]
  by_cases hoperator : String.ofList word ∈ wordOperators
  · obtain ⟨hkeyword, hfunction⟩ := tables_disjoint.1 _ hoperator
    constructor <;> simp [hoperator, hkeyword, hfunction]
  · by_cases hkeyword : String.ofList word ∈ keywords
    · have hfunction := tables_disjoint.2 _ hkeyword
      constructor <;> simp [hoperator, hkeyword, hfunction]
    · by_cases hfunction : String.ofList word ∈ functions
      · constructor <;> simp [hoperator, hkeyword, hfunction]
      · constructor <;> simp [hoperator, hkeyword, hfunction]

/-! ## Operators -/

/-- The first of a list that passes a test is the longest that does, if longer ones come first. -/
theorem length_le_of_find? {table : List (List Char)} (hsorted : table.Pairwise fun a b => b.length ≤ a.length)
    {test : List Char → Bool} {found : List Char} (h : table.find? test = some found) {other : List Char}
    (hother : other ∈ table) (htest : test other = true) : other.length ≤ found.length := by
  obtain ⟨-, front, back, rfl, hfront⟩ := List.find?_eq_some_iff_append.1 h
  rcases List.mem_append.1 hother with hmem | hmem
  · have hfails := hfront other hmem
    simp [htest] at hfails
  · rcases List.mem_cons.1 hmem with rfl | hmem
    · exact Nat.le_refl _
    · exact (List.pairwise_cons.1 (List.pairwise_append.1 hsorted).2.1).1 other hmem

theorem symbolOperators_sorted : symbolOperators.Pairwise fun a b => b.length ≤ a.length := by
  decide

/-- Symbols and letters are different, so no operator in words begins like one in symbols; and those in words begin with
different letters. -/
theorem head?_operators :
    (∀ symbol ∈ symbolOperators, ∀ word ∈ wordOperators, symbol.head? ≠ word.toList.head?) ∧
      ∀ word ∈ wordOperators, ∀ other ∈ wordOperators, word.toList.head? = other.toList.head? → word = other := by
  decide +kernel

theorem operators_ne_nil : ∀ operator ∈ operators, operator ≠ [] := by
  decide +kernel

/-- Only operators with the same first character can take each other's place. -/
theorem longestOperator_of_head? {source after : List Char} (hmem : source ∈ operators)
    (h : ∀ operator ∈ operators, operator <+: source ++ after → source.head? = operator.head? →
      operator.length ≤ source.length) : LongestOperator source after := by
  refine ⟨hmem, ?_⟩
  intro operator hoperator hprefix
  apply h operator hoperator hprefix
  have hsource : source <+: source ++ after := List.prefix_append source after
  have hne := operators_ne_nil _ hmem
  have hne' := operators_ne_nil _ hoperator
  rw [List.head?_eq_some_head hne, List.head?_eq_some_head hne', hsource.head hne, hprefix.head hne']

theorem longestOperator_symbol {source after : List Char} (h : symbolOperator? (source ++ after) = some source) :
    LongestOperator source after := by
  have hsymbol : source ∈ symbolOperators := List.mem_of_find?_eq_some h
  apply longestOperator_of_head? (List.mem_append_left _ hsymbol)
  intro operator hoperator hprefix hhead
  rcases List.mem_append.1 hoperator with hother | hother
  · exact length_le_of_find? symbolOperators_sorted h hother (List.isPrefixOf_iff_prefix.2 hprefix)
  · obtain ⟨word, hword, rfl⟩ := List.mem_map.1 hother
    exact absurd hhead (head?_operators.1 source hsymbol word hword)

theorem longestOperator_word {source : List Char} (after : List Char) (h : String.ofList source ∈ wordOperators) :
    LongestOperator source after := by
  have hsource : (String.ofList source).toList = source := String.toList_ofList
  apply longestOperator_of_head? (List.mem_append_right _ (List.mem_map.2 ⟨_, h, hsource⟩))
  intro operator hoperator _ hhead
  rw [← hsource] at hhead
  rcases List.mem_append.1 hoperator with hother | hother
  · exact absurd hhead.symm (head?_operators.1 operator hother _ h)
  · obtain ⟨word, hword, rfl⟩ := List.mem_map.1 hother
    rw [← head?_operators.2 _ h word hword hhead, hsource]

/-! ## Numbers -/

theorem longestNumber_numberSource {c : Char} {rest after : List Char} (hc : isDigit c = true)
    (h : c :: rest = numberSource (c :: rest) ++ after) : LongestNumber (numberSource (c :: rest)) after := by
  have hdigits : (c :: rest).takeWhile isDigit ≠ [] := by simp [hc]
  have hrun := maximalRun_takeWhile isDigit (c :: rest)
  have hcut := List.takeWhile_append_dropWhile (p := isDigit) (l := c :: rest)
  unfold numberSource at h ⊢
  rw [List.append_assoc] at h
  -- behind the first digits, what is left of the text begins with a point or does not
  have hbehind := List.append_cancel_left (hcut.trans h)
  split at hbehind
  case h_1 tail htail =>
    have hafter : tail.dropWhile isDigit = after := by
      have hmore := List.takeWhile_append_dropWhile (p := isDigit) (l := tail)
      rw [htail] at hbehind
      exact List.append_cancel_left (hmore.trans (List.cons.inj hbehind).2)
    rw [← hafter]
    exact .fraction hdigits hrun.all (maximalRun_takeWhile isDigit tail)
  case h_2 hno =>
    rw [List.nil_append] at hbehind
    rw [List.append_nil, ← hbehind]
    refine .whole hdigits hrun ?_
    intro hpoint
    obtain ⟨tail, htail⟩ := List.head?_eq_some_iff.1 hpoint
    exact hno tail htail

/-! ## Every way of reading -/

theorem startsWord_of_isDigit {c : Char} (h : isDigit c = true) : startsWord c = false := by
  have hdigit : c.toNat ≤ 0x39 := by
    simp only [isDigit, Bool.and_eq_true, decide_eq_true_eq] at h
    exact (Layout.toNat_between h).2
  have hletter : ∀ first last : Char, 0x39 < first.toNat → ¬ (first ≤ c ∧ c ≤ last) := by
    intro first last hfirst hc
    have hbetween := Layout.toNat_between hc
    omega
  have hlower := hletter 'a' 'z' (by decide)
  have hupper := hletter 'A' 'Z' (by decide)
  have hunderscore : c ≠ '_' := by
    rintro rfl
    exact absurd hdigit (by decide)
  simp only [startsWord, isLetter, Bool.or_eq_false_iff, Bool.and_eq_false_iff, decide_eq_false_iff_not, beq_eq_false_iff_ne]
  exact ⟨⟨not_and_or.1 hlower, not_and_or.1 hupper⟩, hunderscore⟩

theorem startsWord_of_table :
    (∀ c ∈ delimiters, startsWord c = false) ∧
      ∀ operator ∈ symbolOperators, ∀ c ∈ operator, startsWord c = false := by
  simp [delimiters, symbolOperators, startsWord, isLetter]

/-- Of a lexeme that is no word, only the number and the operator have something to show. -/
theorem Token.Longest.of_not_word {token : Token} {source after : List Char}
    (hfirst : ∀ c, source.head? = some c → startsWord c = false)
    (hnumber : token.kind = .number → token.text = source ∧ LongestNumber source after)
    (hoperator : token.kind = .operator → token.text = source ∧ LongestOperator source after) :
    token.Longest source after := by
  refine ⟨?_, hnumber, hoperator⟩
  intro c hc hword
  rw [hfirst c hc] at hword
  exact Bool.noConfusion hword

/-- **Every way of reading is greedy.** -/
theorem Reads.longest {c : Char} {rest source value after : List Char} {kind : TokenKind} {segment : Segment}
    (h : Reads c rest segment) (hsegment : segment = .lexeme kind source value) (hrest : c :: rest = source ++ after)
    (range : Range) : (⟨kind, value, range⟩ : Token).Longest source after := by
  have hfirst : startsWord c = false → ∀ d, source.head? = some d → startsWord d = false := by
    intro hc d hd
    have hhead := congrArg List.head? hrest
    rw [List.head?_append, hd] at hhead
    obtain rfl : c = d := Option.some.inj hhead
    exact hc
  cases h with
  | blank | unclosed | stray => cases hsegment
  | literal hquote =>
    obtain ⟨rfl, rfl, rfl⟩ := Segment.lexeme.inj hsegment
    have hc : startsWord c = false := by
      rcases hquote with rfl | rfl <;> decide
    exact .of_not_word (hfirst hc) nofun nofun
  | number hdigit =>
    obtain ⟨rfl, rfl, rfl⟩ := Segment.lexeme.inj hsegment
    have hnumber := longestNumber_numberSource hdigit hrest
    exact .of_not_word (hfirst (startsWord_of_isDigit hdigit)) (fun _ => ⟨rfl, hnumber⟩) nofun
  | delimiter hmem =>
    obtain ⟨rfl, rfl, rfl⟩ := Segment.lexeme.inj hsegment
    exact .of_not_word (hfirst (startsWord_of_table.1 c hmem)) nofun nofun
  | symbol hfound =>
    obtain ⟨rfl, rfl, rfl⟩ := Segment.lexeme.inj hsegment
    have hmem := List.mem_of_find?_eq_some hfound
    rw [hrest] at hfound
    refine .of_not_word ?_ nofun fun _ => ⟨rfl, longestOperator_symbol hfound⟩
    intro d hd
    exact startsWord_of_table.2 _ hmem d (List.mem_of_head? hd)
  | word =>
    obtain ⟨other, hkinds, hother⟩ := wordSegment_eq (c :: rest)
    obtain ⟨rfl, -, -⟩ := Segment.lexeme.inj (hother.symm.trans hsegment)
    obtain ⟨hkind, hsource, hvalue⟩ := Segment.lexeme.inj hsegment
    have hrun := maximalRun_takeWhile continuesWord (c :: rest)
    have hcut := List.takeWhile_append_dropWhile (p := continuesWord) (l := c :: rest)
    simp only [List.contains_iff_mem] at hkind
    rw [hsource] at hkind hvalue hrun hcut
    have hafter := List.append_cancel_left (hcut.trans hrest)
    rw [hafter] at hrun
    have hword := wordKind source
    rw [hkind] at hword
    refine ⟨fun _ _ _ => ⟨hvalue.symm, hrun, hword⟩, ?_, ?_⟩
    · rintro rfl
      simp at hkinds
    · intro hoperator
      exact ⟨hvalue.symm, longestOperator_word after (hword.operator.1 hoperator)⟩

/-! ## Tokens -/

/-- **Tokens are lexemes in their place**, each as long as it can be. -/
theorem tokenize_longest {origin : Position} {text : List Char} {token : Token} (h : token ∈ (tokenize origin text).1) :
    ∃ before source after, text = before ++ source ++ after ∧
      token.range = ⟨origin.advanceAll before, origin.advanceAll (before ++ source)⟩ ∧ token.Longest source after := by
  obtain ⟨⟨p, segment⟩, hmem, htoken⟩ := List.mem_filterMap.1 h
  obtain ⟨before, c, rest, rfl, hsegment, rfl⟩ := mem_place hmem
  obtain ⟨inner, after, hsource, rfl⟩ := firstSegment_source c rest
  have hreads : Reads c (inner ++ after) segment := hsegment ▸ firstSegment_reads c _
  rw [← hsegment] at hsource
  cases segment with
  | lexeme kind source value =>
    obtain rfl : source = c :: inner := hsource
    obtain rfl := Option.some.inj htoken
    refine ⟨before, c :: inner, after, by simp, ?_, hreads.longest rfl rfl _⟩
    rw [Range.between_advanceAll, Position.advanceAll_append]
  | _ => cases htoken

/-- **Operators that touch stay apart.** Together they do not spell an operator of the table. -/
theorem operators_apart {origin : Position} {text : List Char} {a b : Token} (ha : a ∈ (tokenize origin text).1)
    (hb : b ∈ (tokenize origin text).1) (haop : a.kind = .operator) (hbop : b.kind = .operator)
    (htouch : a.range.stop = b.range.start) : a.text ++ b.text ∉ operators := by
  obtain ⟨before, source, after, htext, hrange, hlongest⟩ := tokenize_longest ha
  obtain ⟨before', source', after', htext', hrange', hlongest'⟩ := tokenize_longest hb
  obtain ⟨hatext, haoperator⟩ := hlongest.operator haop
  obtain ⟨hbtext, hboperator⟩ := hlongest'.operator hbop
  rw [hrange, hrange'] at htouch
  have hsame : before ++ source ++ after = before' ++ (source' ++ after') := by
    rw [← htext, htext', List.append_assoc]
  -- the second operator begins where the first one ends, so it is all or part of what stands behind it
  obtain rfl := Position.eq_of_advanceAll_eq hsame htouch
  obtain rfl := List.append_cancel_left hsame
  rw [hatext, hbtext]
  intro hmem
  have hprefix : source ++ source' <+: source ++ (source' ++ after') :=
    (List.prefix_append_right_inj source).2 (List.prefix_append source' after')
  have hshort := haoperator.longest _ hmem hprefix
  have hpos := List.length_pos_iff.2 (operators_ne_nil _ hboperator.mem)
  rw [List.length_append] at hshort
  omega

/-! ## Exclamation marks -/

/-- A character behind `before` stands outside string literals: it is still there when they are left out. -/
def StandsOutside (before : List Char) (c : Char) : Prop :=
  outsideLiterals none (before ++ [c]) = outsideLiterals none before ++ [c]

instance (before : List Char) (c : Char) : Decidable (StandsOutside before c) :=
  inferInstanceAs (Decidable (_ = _))

theorem OpenBody.of_append {quote : Char} {a b : List Char} (h : OpenBody quote (a ++ b)) : OpenBody quote a := by
  generalize htext : a ++ b = text at h
  induction h generalizing a with
  | nil =>
    obtain ⟨rfl, -⟩ := List.append_eq_nil_iff.1 htext
    exact .nil
  | dangling =>
    match a, htext with
    | [], _ => exact .nil
    | [c], htext =>
      obtain ⟨rfl, -⟩ := List.cons.inj htext
      exact .dangling
  | escaped _ ih =>
    match a, htext with
    | [], _ => exact .nil
    | [c], htext =>
      obtain ⟨rfl, -⟩ := List.cons.inj htext
      exact .dangling
    | c :: d :: a, htext =>
      obtain ⟨rfl, hbehind⟩ := List.cons.inj htext
      exact .escaped (ih (List.cons.inj hbehind).2)
  | plain hbackslash hne _ ih =>
    match a, htext with
    | [], _ => exact .nil
    | c :: a, htext =>
      obtain ⟨rfl, hbehind⟩ := List.cons.inj htext
      exact .plain hbackslash hne (ih hbehind)

theorem outsideLiterals_openBody {quote : Char} {text : List Char} (h : OpenBody quote text) :
    outsideLiterals (some quote) text = [] := by
  induction h with
  | nil => rfl
  | dangling => rfl
  | escaped _ ih => simpa [outsideLiterals] using ih
  | plain hbackslash hne _ ih => simpa [outsideLiterals, hbackslash, hne] using ih

/-- What stands behind a quote that is not closed before it stands inside a literal. -/
theorem not_standsOutside_of_openBody {quote c : Char} {before after : List Char} (hquote : quote = '\'' ∨ quote = '"')
    (h : OpenBody quote (before ++ c :: after)) : ¬ StandsOutside (quote :: before) c := by
  have hinside : OpenBody quote (before ++ [c]) := by
    rw [← List.singleton_append, ← List.append_assoc] at h
    exact h.of_append
  intro houtside
  have hnothing : outsideLiterals none (quote :: (before ++ [c])) = [] := by
    simp [outsideLiterals, hquote, outsideLiterals_openBody hinside]
  rw [StandsOutside, List.cons_append, hnothing] at houtside
  simp at houtside

/-- A segment with more text behind it ends outside string literals. -/
theorem Segment.Fits.outsideLiterals_append {segment : Segment} {after : List Char} (h : segment.Fits after)
    (hafter : after ≠ []) (rest : List Char) :
    outsideLiterals none (segment.source ++ rest) = segment.outside ++ outsideLiterals none rest := by
  cases segment with
  | blank c =>
    have hclosed : (Segment.blank c).Closed := h
    exact hclosed.outsideLiterals_append rest
  | lexeme kind source value =>
    have hclosed : (Segment.lexeme kind source value).Closed := h
    exact hclosed.outsideLiterals_append rest
  | stray c => exact Expression.outsideLiterals_append (List.forall_mem_singleton.2 ⟨h.2.1, h.2.2.1⟩) rest
  | unclosed source => exact absurd h.1 hafter

/-- What stands before a segment ends outside string literals. -/
theorem outsideLiterals_front {text : List Char} {front back : List Segment} {segment : Segment}
    (h : segments text = front ++ segment :: back) (rest : List Char) :
    outsideLiterals none (front.flatMap Segment.source ++ rest) =
      front.flatMap Segment.outside ++ outsideLiterals none rest := by
  have hbehind : ∀ first ∈ front, ∃ after, after ≠ [] ∧ first.Fits after := by
    intro first hmem
    obtain ⟨a, b, rfl⟩ := List.append_of_mem hmem
    have hsplit : segments text = a ++ first :: (b ++ segment :: back) := by simpa using h
    refine ⟨_, ?_, (segments_fit hsplit).2⟩
    simp [(segments_fit h).1]
  clear h
  induction front with
  | nil => rfl
  | cons first front ih =>
    obtain ⟨⟨after, hafter, hfits⟩, hothers⟩ := List.forall_mem_cons.1 hbehind
    rw [List.flatMap_cons, List.append_assoc, hfits.outsideLiterals_append hafter, ih hothers, List.flatMap_cons,
      List.append_assoc]

/-- Whether a character stands outside string literals is decided within its segment. -/
theorem standsOutside_append_iff {text inner : List Char} {front back : List Segment} {segment : Segment} {c : Char}
    (h : segments text = front ++ segment :: back) :
    StandsOutside (front.flatMap Segment.source ++ inner) c ↔ StandsOutside inner c := by
  simp only [StandsOutside, List.append_assoc, outsideLiterals_front h, List.append_cancel_left_eq]

/-- In a lexeme, the mark is part of a literal, or it begins the operator that is written with it. -/
theorem Lexeme.exclamation {kind : TokenKind} {value inner tail : List Char} (h : Lexeme kind (inner ++ '!' :: tail) value) :
    ¬ StandsOutside inner '!' ∨ inner = [] ∧ tail = ['='] := by
  have hmem : '!' ∈ inner ++ '!' :: tail := by simp
  generalize hsource : inner ++ '!' :: tail = source at h hmem
  cases h with
  | @string quote body hquote hbody =>
    have hne : quote ≠ '!' := by
      rcases hquote with rfl | rfl <;> decide
    left
    match inner, hsource with
    | [], hsource => exact absurd (List.cons.inj hsource).1.symm hne
    | c :: inner, hsource =>
      obtain ⟨rfl, hbehind⟩ := List.cons.inj hsource
      -- the mark is not the closing quote, so it stands before it
      rcases List.append_eq_append_iff.1 hbehind with ⟨m, hm, hmark⟩ | ⟨m, -, hmark⟩
      · cases m with
        | nil => exact absurd (List.cons.inj hmark).1.symm hne
        | cons d m =>
          obtain ⟨rfl, -⟩ := List.cons.inj hmark
          rw [hm] at hbody
          exact not_standsOutside_of_openBody hquote hbody.openBody
      · exact absurd (singleton_split hmark).2 hne
  | whole _ hdigits => exact absurd (hdigits _ hmem) (by decide)
  | fraction _ hdigits hmore =>
    rcases List.mem_append.1 hmem with hmem | hmem
    · exact absurd (hdigits _ hmem) (by decide)
    · rcases List.mem_cons.1 hmem with hmem | hmem
      · exact absurd hmem (by decide)
      · exact absurd (hmore _ hmem) (by decide)
  | delimiter hdelimiter =>
    obtain rfl := List.mem_singleton.1 hmem
    exact absurd hdelimiter (by decide)
  | symbol hoperator =>
    have honly : ∀ operator ∈ symbolOperators, '!' ∈ operator → operator = ['!', '='] := by decide
    rw [honly _ hoperator hmem] at hsource
    right
    match inner, hsource with
    | [], hsource => exact ⟨rfl, (List.cons.inj hsource).2⟩
    | c :: inner, hsource =>
      have hlast := (singleton_split (List.cons.inj hsource).2.symm).2
      exact absurd hlast (by decide)
  | word hfirst hrest =>
    rcases List.mem_cons.1 hmem with rfl | hmem
    · exact absurd hfirst (by decide)
    · exact absurd (hrest _ hmem) (by decide)

/-- The segment of a mark that stands outside string literals and has no `=` behind it is the mark alone. -/
theorem Segment.Fits.exclamation {segment : Segment} {inner tail after : List Char} (h : segment.Fits after)
    (hsource : segment.source = inner ++ '!' :: tail) (houtside : StandsOutside inner '!')
    (hequals : (tail ++ after).head? ≠ some '=') : inner = [] ∧ segment = .stray '!' := by
  cases segment with
  | blank c =>
    obtain ⟨-, rfl⟩ := singleton_split hsource
    have hblank : isBlank '!' = true := h
    exact absurd hblank (by decide)
  | lexeme kind source value =>
    have hlexeme : Lexeme kind (inner ++ '!' :: tail) value := by
      rw [← hsource]
      exact h
    rcases hlexeme.exclamation with hinside | ⟨-, rfl⟩
    · exact absurd houtside hinside
    · exact absurd rfl hequals
  | stray c =>
    obtain ⟨rfl, rfl⟩ := singleton_split hsource
    exact ⟨rfl, rfl⟩
  | unclosed source =>
    obtain ⟨-, quote, body, rfl, hquote, hbody⟩ := h
    have hne : quote ≠ '!' := by
      rcases hquote with rfl | rfl <;> decide
    match inner, hsource with
    | [], hsource => exact absurd (List.cons.inj hsource).1 hne
    | c :: inner, hsource =>
      obtain ⟨rfl, rfl⟩ := List.cons.inj hsource
      exact absurd houtside (not_standsOutside_of_openBody hquote hbody)

/-- Unexpected characters are reported of stray segments, where these begin. -/
theorem Segment.error?_unexpected {segment : Segment} {p q : Position} {c : Char}
    (h : segment.error? p = some ⟨.unexpectedCharacter c, q⟩) : segment = .stray c ∧ p = q := by
  cases segment with
  | lexeme kind source value =>
    simp only [Segment.error?] at h
    split at h
    · cases h
    · cases h
  | stray d =>
    cases h
    exact ⟨rfl, rfl⟩
  | _ => cases h

/-- **The mark alone is not an operator.** It is reported exactly if it stands outside string literals, closed or not, and has no
`=` behind it. -/
theorem exclamation_reported_iff {origin : Position} {text before after : List Char} (htext : text = before ++ '!' :: after) :
    ⟨.unexpectedCharacter '!', origin.advanceAll before⟩ ∈ (tokenize origin text).2 ↔
      StandsOutside before '!' ∧ after.head? ≠ some '=' := by
  constructor
  · intro h
    obtain ⟨⟨p, segment⟩, hmem, herror⟩ := List.mem_filterMap.1 h
    obtain ⟨front, back, hsplit, rfl⟩ := mem_place_iff.1 hmem
    obtain ⟨rfl, hplace⟩ := Segment.error?_unexpected herror
    have hwhole : front.flatMap Segment.source ++ '!' :: back.flatMap Segment.source = before ++ '!' :: after := by
      rw [← htext, ← segments_source text, hsplit]
      simp [Segment.source]
    obtain rfl := Position.eq_of_advanceAll_eq hwhole hplace
    obtain ⟨-, rfl⟩ := List.cons.inj (List.append_cancel_left hwhole)
    constructor
    · have halone : StandsOutside (front.flatMap Segment.source ++ []) '!' := (standsOutside_append_iff hsplit).2 rfl
      rwa [List.append_nil] at halone
    · intro hequals
      obtain ⟨rest, hrest⟩ := List.head?_eq_some_iff.1 hequals
      have hnone := (segments_fit hsplit).2.2.2.2 .operator _ _ (.symbol (by decide : ['!', '='] ∈ symbolOperators))
      rw [hrest] at hnone
      exact hnone (List.prefix_append ['!', '='] rest)
  · rintro ⟨houtside, hequals⟩
    obtain ⟨front, segment, back, inner, tail, hsplit, rfl, hsource, rfl⟩ :=
      exists_segment_of_split ((segments_source text).trans htext)
    rw [standsOutside_append_iff hsplit] at houtside
    obtain ⟨rfl, rfl⟩ := (segments_fit hsplit).2.exclamation hsource houtside hequals
    rw [List.append_nil]
    exact List.mem_filterMap.2 ⟨_, mem_place_iff.2 ⟨front, back, hsplit, rfl⟩, rfl⟩

/-- **Longest match.** Each token stands at its place in the text and is as long as it can be there: a token that begins like a
word is the whole word, and its kind is what the tables say of that word; a number has all its digits; an operator is the
longest one of the table. So operators that touch do not spell another one, and a `!` is reported exactly if it stands outside
string literals and no `=` makes an operator of it. -/
theorem tokenize_longest_match (origin : Position) (text : List Char) :
    (∀ token ∈ (tokenize origin text).1, ∃ before source after, text = before ++ source ++ after ∧
      token.range = ⟨origin.advanceAll before, origin.advanceAll (before ++ source)⟩ ∧ token.Longest source after) ∧
    (∀ a ∈ (tokenize origin text).1, ∀ b ∈ (tokenize origin text).1, a.kind = .operator → b.kind = .operator →
      a.range.stop = b.range.start → a.text ++ b.text ∉ operators) ∧
    ∀ before after, text = before ++ '!' :: after →
      (⟨.unexpectedCharacter '!', origin.advanceAll before⟩ ∈ (tokenize origin text).2 ↔
        StandsOutside before '!' ∧ after.head? ≠ some '=') := by
  refine ⟨fun token h => tokenize_longest h, ?_, fun before after h => exclamation_reported_iff h⟩
  intro a ha b hb haop hbop htouch
  exact operators_apart ha hb haop hbop htouch

/-- **Three marks.** The first is part of a literal, the second of an operator, and only the third is reported. -/
theorem third_mark_reported :
    ⟨.unexpectedCharacter '!', ⟨0, 1⟩⟩ ∉ (tokenize .zero "'!' != !x".toList).2 ∧
      ⟨.unexpectedCharacter '!', ⟨0, 4⟩⟩ ∉ (tokenize .zero "'!' != !x".toList).2 ∧
      ⟨.unexpectedCharacter '!', ⟨0, 7⟩⟩ ∈ (tokenize .zero "'!' != !x".toList).2 := by
  have hmarks := (tokenize_longest_match .zero "'!' != !x".toList).2.2
  have hfirst := hmarks ['\''] "' != !x".toList (by decide)
  have hsecond := hmarks "'!' ".toList "= !x".toList (by decide)
  have hthird := hmarks "'!' != ".toList ['x'] (by decide)
  refine ⟨?_, ?_, hthird.2 (by decide)⟩
  · intro h
    exact absurd (hfirst.1 h) (by decide)
  · intro h
    exact absurd (hsecond.1 h) (by decide)

end WorkflowLint.Expression
