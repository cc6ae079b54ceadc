/-
The brackets that are reported are those that spoil the nesting.

`Nested` says what properly nested brackets are, without a stack: nothing, or a pair of one kind around a nested part, with a
nested part after it. `unbalanced` keeps its stack when a closing bracket does not fit, so after the first such bracket the
stack is no longer what an ordinary matching would have. What holds all the same is said by verdicts. Each bracket gets one:
it has a partner, or it is reported as unmatched, or as unclosed. `Closes` is the invariant: it says what the brackets with a
partner still owe to the stack.

Results:
- `unbalanced_judged`: from any stack, what is reported are the verdicts, and the brackets with a partner close the part of
  the stack that they pop.
- `unbalanced_append_of_nested`: a properly nested part is passed over, whatever is open around it.
- `bracketChars_tokenize`: the brackets among the tokens of a text without an open literal are those that stand outside its
  literals, read off the text alone.
- `brackets_repaired`: without the brackets that are reported the rest is properly nested, nothing is reported exactly if all
  brackets are, and an expression has no fault exactly if its reading has none and its brackets are properly nested.
-/
import WorkflowLint.Proofs.Segmentation
import WorkflowLint.Proofs.Sites

namespace WorkflowLint.Expression

open WorkflowLint.Text

/-! ## Nesting -/

/-- properly nested brackets: each closing one is of the kind of the innermost open one, and nothing stays open -/
inductive Nested : List Char → Prop where
  | nil : Nested []
  | wrap (bracket : Bracket) {inner rest : List Char} : Nested inner → Nested rest →
      Nested (bracket.opener :: (inner ++ bracket.closer :: rest))

/-- The brackets in the list close what is open, innermost first, and are properly nested between. -/
inductive Closes : List Bracket → List Char → Prop where
  | done {rest : List Char} : Nested rest → Closes [] rest
  | close {bracket : Bracket} {outer : List Bracket} {inner rest : List Char} : Nested inner → Closes outer rest →
      Closes (bracket :: outer) (inner ++ bracket.closer :: rest)

/-- With its opening bracket in front, what closes a bracket is a properly nested part. -/
theorem Closes.wrap {bracket : Bracket} {outer : List Bracket} {text : List Char} (h : Closes (bracket :: outer) text) :
    Closes outer (bracket.opener :: text) := by
  cases h with
  | close hinner houter =>
    cases houter with
    | done hrest => exact .done (.wrap bracket hinner hrest)
    | close hnext hrest =>
      have hpair := Nested.wrap bracket hinner hnext
      simpa using Closes.close hpair hrest

/-! ## Brackets among tokens -/

def isBracket (c : Char) : Bool :=
  ['(', ')', '[', ']', '{', '}'].contains c

/-- the bracket that a token is, if it is one -/
def Token.bracket? (token : Token) : Option Char :=
  match token.kind, token.text with
  | .delimiter, [c] => if isBracket c then some c else none
  | _, _ => none

/-- the tokens that are brackets -/
def brackets (tokens : List Token) : List Token :=
  tokens.filter fun token => token.bracket?.isSome

theorem Token.bracket?_eq_some_iff {token : Token} {c : Char} :
    token.bracket? = some c ↔ token.kind = .delimiter ∧ token.text = [c] ∧ isBracket c = true := by
  unfold Token.bracket?
  split
  case h_1 d hkind htext =>
    by_cases hd : isBracket d = true
    · simp only [hd, if_true, Option.some.injEq, hkind, htext, List.cons.injEq, and_true, true_and]
      constructor
      · intro hc
        subst hc
        exact ⟨rfl, hd⟩
      · intro hc
        exact hc.1
    · simp only [hd, hkind, htext]
      constructor
      · intro hc
        simp at hc
      · intro hc
        have hcd : d = c := by simpa using hc.2.1
        rw [hcd] at hd
        exact absurd hc.2.2 hd
  case h_2 hne =>
    constructor
    · intro hc
      simp at hc
    · intro hc
      exact absurd hc.2.1 (hne c hc.1)

theorem isBracket_iff {c : Char} : isBracket c = true ↔ ∃ bracket : Bracket, c = bracket.opener ∨ c = bracket.closer := by
  constructor
  · intro h
    simp only [isBracket, List.contains_iff_mem, List.mem_cons, List.not_mem_nil, or_false] at h
    rcases h with h | h | h | h | h | h
    · exact ⟨.paren, Or.inl h⟩
    · exact ⟨.paren, Or.inr h⟩
    · exact ⟨.square, Or.inl h⟩
    · exact ⟨.square, Or.inr h⟩
    · exact ⟨.brace, Or.inl h⟩
    · exact ⟨.brace, Or.inr h⟩
  · intro h
    obtain ⟨bracket, hc⟩ := h
    cases bracket <;> rcases hc with rfl | rfl <;> decide

/-- A token is no bracket, or opens one, or closes one. -/
theorem Token.bracket?_cases (token : Token) :
    token.bracket? = none ∨ (∃ bracket : Bracket, token.bracket? = some bracket.opener) ∨
      ∃ bracket : Bracket, token.bracket? = some bracket.closer := by
  cases h : token.bracket? with
  | none => exact Or.inl rfl
  | some c =>
    obtain ⟨bracket, hc⟩ := isBracket_iff.1 (Token.bracket?_eq_some_iff.1 h).2.2
    rcases hc with rfl | rfl
    · exact Or.inr (Or.inl ⟨bracket, rfl⟩)
    · exact Or.inr (Or.inr ⟨bracket, rfl⟩)

namespace Bracket

theorem opening?_opener (bracket : Bracket) : opening? [bracket.opener] = some bracket := by
  cases bracket <;> rfl

theorem closing?_closer (bracket : Bracket) : closing? [bracket.closer] = some bracket := by
  cases bracket <;> rfl

theorem opening?_closer (bracket : Bracket) : opening? [bracket.closer] = none := by
  cases bracket <;> rfl

end Bracket

/-! ## One token -/

theorem unbalanced_cons_of_none {token : Token} (stack : List (Bracket × Position)) (rest : List Token)
    (h : token.bracket? = none) : unbalanced stack (token :: rest) = unbalanced stack rest := by
  by_cases hkind : token.kind = .delimiter
  · have hnone : ∀ c, token.text = [c] → isBracket c = false := by
      intro c htext
      rw [← Bool.not_eq_true]
      intro hc
      rw [Token.bracket?_eq_some_iff.2 ⟨hkind, htext, hc⟩] at h
      simp at h
    have hopening : Bracket.opening? token.text = none := by
      cases ho : Bracket.opening? token.text with
      | none => rfl
      | some bracket =>
        have hc := hnone _ (Bracket.opening?_eq_some ho)
        rw [isBracket_iff.2 ⟨bracket, Or.inl rfl⟩] at hc
        exact Bool.noConfusion hc
    have hclosing : Bracket.closing? token.text = none := by
      cases ho : Bracket.closing? token.text with
      | none => rfl
      | some bracket =>
        have hc := hnone _ (Bracket.closing?_eq_some ho)
        rw [isBracket_iff.2 ⟨bracket, Or.inr rfl⟩] at hc
        exact Bool.noConfusion hc
    rw [unbalanced, if_pos hkind, hopening, hclosing]
  · rw [unbalanced, if_neg hkind]

theorem unbalanced_cons_opener {token : Token} {bracket : Bracket} (stack : List (Bracket × Position)) (rest : List Token)
    (h : token.bracket? = some bracket.opener) :
    unbalanced stack (token :: rest) = unbalanced ((bracket, token.range.start) :: stack) rest := by
  obtain ⟨hkind, htext, -⟩ := Token.bracket?_eq_some_iff.1 h
  rw [unbalanced, if_pos hkind, htext, bracket.opening?_opener]

theorem unbalanced_cons_partner {token : Token} {bracket : Bracket} (p : Position) (below : List (Bracket × Position))
    (rest : List Token) (h : token.bracket? = some bracket.closer) :
    unbalanced ((bracket, p) :: below) (token :: rest) = unbalanced below rest := by
  obtain ⟨hkind, htext, -⟩ := Token.bracket?_eq_some_iff.1 h
  rw [unbalanced, if_pos hkind, htext, bracket.opening?_closer, bracket.closing?_closer]
  exact if_pos rfl

/-- A closing bracket that does not fit the innermost open one changes nothing but the report. -/
theorem unbalanced_cons_misfit {token : Token} {bracket : Bracket} {stack : List (Bracket × Position)} (rest : List Token)
    (h : token.bracket? = some bracket.closer) (hmisfit : ∀ opened, stack.head? = some opened → opened.1 ≠ bracket) :
    unbalanced stack (token :: rest) = ⟨.unmatched bracket, token.range.start⟩ :: unbalanced stack rest := by
  obtain ⟨hkind, htext, -⟩ := Token.bracket?_eq_some_iff.1 h
  rw [unbalanced, if_pos hkind, htext, bracket.opening?_closer, bracket.closing?_closer]
  cases stack with
  | nil => rfl
  | cons opened below => exact if_neg (hmisfit opened rfl)

/-- A bracket is the innermost open one, or it does not fit. -/
theorem top_or_misfit (bracket : Bracket) (stack : List (Bracket × Position)) :
    (∃ p below, stack = (bracket, p) :: below) ∨ ∀ opened, stack.head? = some opened → opened.1 ≠ bracket := by
  cases stack with
  | nil => exact Or.inr (by simp)
  | cons opened below =>
    by_cases hsame : opened.1 = bracket
    · exact Or.inl ⟨opened.2, below, by rw [← hsame]⟩
    · refine Or.inr ?_
      intro other hother
      obtain rfl : opened = other := by simpa using hother
      exact hsame

/-! ## Verdicts -/

/-- what becomes of a bracket -/
inductive Verdict where
  | paired
  | unmatched (bracket : Bracket)
  | unclosed (bracket : Bracket)

/-- a token with its verdict -/
abbrev Judged := Token × Verdict

namespace Judged

/-- only closing brackets are found unmatched and only opening ones unclosed, each as the kind that it is -/
def Fair : Judged → Prop
  | (_, .paired) => True
  | (token, .unmatched bracket) => token.text = [bracket.closer]
  | (token, .unclosed bracket) => token.text = [bracket.opener]

/-- what is reported of a closing bracket without a partner, and where -/
def unmatched? : Judged → Option (String × Position)
  | (token, .unmatched bracket) => some ("Unmatched closing " ++ bracket.noun, token.range.start)
  | _ => none

/-- what is reported of an opening bracket without a partner, and where -/
def unclosed? : Judged → Option (String × Position)
  | (token, .unclosed bracket) => some ("Unclosed " ++ bracket.noun, token.range.start)
  | _ => none

/-- the bracket, if it is not reported -/
def kept? : Judged → Option Char
  | (token, .paired) => token.bracket?
  | _ => none

end Judged

theorem brackets_cons_of_none {token : Token} (rest : List Token) (h : token.bracket? = none) :
    brackets (token :: rest) = brackets rest := by
  simp [brackets, h]

theorem brackets_cons_of_some {token : Token} {c : Char} (rest : List Token) (h : token.bracket? = some c) :
    brackets (token :: rest) = token :: brackets rest := by
  simp [brackets, h]

/-- **The invariant.** The brackets among the tokens are judged, each once. The innermost brackets of the stack are popped by
partners among them. What is reported are the unmatched ones, then what is left of the stack in the order in which it was
opened, then the unclosed ones. -/
structure Judges (stack : List (Bracket × Position)) (tokens : List Token) (popped left : List (Bracket × Position))
    (judged : List Judged) : Prop where
  stack_eq : stack = popped ++ left
  brackets_eq : judged.map Prod.fst = brackets tokens
  fair : ∀ entry ∈ judged, entry.Fair
  report_eq : (unbalanced stack tokens).map (fun error => (error.message, error.position)) =
    judged.filterMap Judged.unmatched? ++
      (left.reverse.map (fun opened => ("Unclosed " ++ opened.1.noun, opened.2)) ++ judged.filterMap Judged.unclosed?)
  closes : Closes (popped.map Prod.fst) (judged.filterMap Judged.kept?)

namespace Judges

variable {stack popped left : List (Bracket × Position)} {token : Token} {rest : List Token} {judged : List Judged}
  {bracket : Bracket}

/-- a token that is no bracket -/
theorem pass (h : Judges stack rest popped left judged) (hnone : token.bracket? = none) :
    Judges stack (token :: rest) popped left judged where
  stack_eq := h.stack_eq
  brackets_eq := by rw [brackets_cons_of_none rest hnone, h.brackets_eq]
  fair := h.fair
  report_eq := by rw [unbalanced_cons_of_none stack rest hnone, h.report_eq]
  closes := h.closes

/-- an opening bracket that nothing pops -/
theorem unclosed (h : Judges ((bracket, token.range.start) :: stack) rest [] left judged)
    (hopen : token.bracket? = some bracket.opener) :
    Judges stack (token :: rest) [] stack ((token, .unclosed bracket) :: judged) where
  stack_eq := rfl
  brackets_eq := by rw [brackets_cons_of_some rest hopen, List.map_cons, h.brackets_eq]
  fair := List.forall_mem_cons.2 ⟨(Token.bracket?_eq_some_iff.1 hopen).2.1, h.fair⟩
  report_eq := by
    -- of those that are left it is the innermost, so it is reported after the others
    have hleft : (bracket, token.range.start) :: stack = left := h.stack_eq
    rw [unbalanced_cons_opener stack rest hopen, h.report_eq, ← hleft]
    simp [List.filterMap_cons, Judged.unmatched?, Judged.unclosed?]
  closes := by simpa [List.filterMap_cons, Judged.kept?] using h.closes

/-- an opening bracket with a partner -/
theorem opened (h : Judges ((bracket, token.range.start) :: stack) rest ((bracket, token.range.start) :: popped) left judged)
    (hopen : token.bracket? = some bracket.opener) :
    Judges stack (token :: rest) popped left ((token, .paired) :: judged) where
  stack_eq := (List.cons.inj h.stack_eq).2
  brackets_eq := by rw [brackets_cons_of_some rest hopen, List.map_cons, h.brackets_eq]
  fair := List.forall_mem_cons.2 ⟨trivial, h.fair⟩
  report_eq := by
    rw [unbalanced_cons_opener stack rest hopen, h.report_eq]
    simp [List.filterMap_cons, Judged.unmatched?, Judged.unclosed?]
  closes := by simpa [List.filterMap_cons, Judged.kept?, hopen] using h.closes.wrap

/-- a closing bracket with a partner on the stack -/
theorem closed (h : Judges stack rest popped left judged) (p : Position) (hclose : token.bracket? = some bracket.closer) :
    Judges ((bracket, p) :: stack) (token :: rest) ((bracket, p) :: popped) left ((token, .paired) :: judged) where
  stack_eq := by rw [h.stack_eq, List.cons_append]
  brackets_eq := by rw [brackets_cons_of_some rest hclose, List.map_cons, h.brackets_eq]
  fair := List.forall_mem_cons.2 ⟨trivial, h.fair⟩
  report_eq := by
    rw [unbalanced_cons_partner p stack rest hclose, h.report_eq]
    simp [List.filterMap_cons, Judged.unmatched?, Judged.unclosed?]
  closes := by simpa [List.filterMap_cons, Judged.kept?, hclose] using Closes.close .nil h.closes

/-- a closing bracket that does not fit -/
theorem unmatched (h : Judges stack rest popped left judged) (hclose : token.bracket? = some bracket.closer)
    (hmisfit : ∀ opened, stack.head? = some opened → opened.1 ≠ bracket) :
    Judges stack (token :: rest) popped left ((token, .unmatched bracket) :: judged) where
  stack_eq := h.stack_eq
  brackets_eq := by rw [brackets_cons_of_some rest hclose, List.map_cons, h.brackets_eq]
  fair := List.forall_mem_cons.2 ⟨(Token.bracket?_eq_some_iff.1 hclose).2.1, h.fair⟩
  report_eq := by
    rw [unbalanced_cons_misfit rest hclose hmisfit, List.map_cons, h.report_eq]
    rfl
  closes := by simpa [List.filterMap_cons, Judged.kept?] using h.closes

end Judges

/-- **Verdicts from any stack.** -/
theorem unbalanced_judged (stack : List (Bracket × Position)) (tokens : List Token) :
    ∃ popped left judged, Judges stack tokens popped left judged := by
  induction tokens generalizing stack with
  | nil =>
    have hreport : (unbalanced stack []).map (fun error => (error.message, error.position)) =
        stack.reverse.map fun opened => ("Unclosed " ++ opened.1.noun, opened.2) := by
      rw [unbalanced, List.map_map]
      rfl
    exact ⟨[], stack, [], rfl, rfl, by simp, by simpa using hreport, .done .nil⟩
  | cons token rest ih =>
    rcases token.bracket?_cases with hnone | ⟨bracket, hopen⟩ | ⟨bracket, hclose⟩
    · obtain ⟨popped, left, judged, h⟩ := ih stack
      exact ⟨popped, left, judged, h.pass hnone⟩
    · obtain ⟨popped, left, judged, h⟩ := ih ((bracket, token.range.start) :: stack)
      cases popped with
      | nil => exact ⟨[], stack, _, h.unclosed hopen⟩
      | cons first popped =>
        obtain ⟨rfl, -⟩ := List.cons.inj h.stack_eq
        exact ⟨popped, left, _, h.opened hopen⟩
    · rcases top_or_misfit bracket stack with ⟨p, below, rfl⟩ | hmisfit
      · obtain ⟨popped, left, judged, h⟩ := ih below
        exact ⟨(bracket, p) :: popped, left, _, h.closed p hclose⟩
      · obtain ⟨popped, left, judged, h⟩ := ih stack
        exact ⟨popped, left, _, h.unmatched hclose hmisfit⟩

/-! ## Nothing to report -/

/-- the brackets of the tokens, as characters -/
def bracketChars (tokens : List Token) : List Char :=
  tokens.filterMap Token.bracket?

theorem unbalanced_append_of_none (stack : List (Bracket × Position)) {tokens : List Token} (rest : List Token)
    (h : ∀ token ∈ tokens, token.bracket? = none) : unbalanced stack (tokens ++ rest) = unbalanced stack rest := by
  induction tokens with
  | nil => rfl
  | cons token tokens ih =>
    obtain ⟨hfirst, hothers⟩ := List.forall_mem_cons.1 h
    rw [List.cons_append, unbalanced_cons_of_none stack _ hfirst, ih hothers]

/-- **A properly nested part is passed over**, whatever is open around it. -/
theorem unbalanced_append_of_nested {chars : List Char} (h : Nested chars) (stack : List (Bracket × Position))
    {tokens : List Token} (rest : List Token) (htokens : bracketChars tokens = chars) :
    unbalanced stack (tokens ++ rest) = unbalanced stack rest := by
  induction h generalizing stack tokens rest with
  | nil => exact unbalanced_append_of_none stack rest (List.filterMap_eq_nil_iff.1 htokens)
  | wrap bracket _ _ ihinner ihrest =>
    -- the tokens are cut at the two brackets of the pair
    obtain ⟨front, opener, behind, rfl, hfront, hopener, hbehind⟩ := List.filterMap_eq_cons_iff.1 htokens
    obtain ⟨inner, after, rfl, hinner, hafter⟩ := List.filterMap_eq_append_iff.1 hbehind
    obtain ⟨gap, closer, last, rfl, hgap, hcloser, hlast⟩ := List.filterMap_eq_cons_iff.1 hafter
    simp only [List.append_assoc, List.cons_append]
    rw [unbalanced_append_of_none stack _ hfront, unbalanced_cons_opener stack _ hopener, ihinner _ _ hinner,
      unbalanced_append_of_none _ _ hgap, unbalanced_cons_partner _ _ _ hcloser, ihrest _ _ hlast]

theorem bracketChars_brackets (tokens : List Token) : bracketChars (brackets tokens) = bracketChars tokens := by
  rw [bracketChars, brackets, List.filterMap_filter]
  refine List.filterMap_congr fun token _ => ?_
  cases token.bracket? <;> rfl

/-- Where nothing is reported, all brackets are kept. -/
theorem kept_of_report_eq_nil {judged : List Judged} (hunmatched : judged.filterMap Judged.unmatched? = [])
    (hunclosed : judged.filterMap Judged.unclosed? = []) :
    judged.filterMap Judged.kept? = bracketChars (judged.map Prod.fst) := by
  rw [bracketChars, List.filterMap_map]
  refine List.filterMap_congr fun entry hentry => ?_
  have hno := List.filterMap_eq_nil_iff.1 hunmatched entry hentry
  have hno' := List.filterMap_eq_nil_iff.1 hunclosed entry hentry
  obtain ⟨token, verdict⟩ := entry
  cases verdict with
  | paired => rfl
  | unmatched bracket => simp [Judged.unmatched?] at hno
  | unclosed bracket => simp [Judged.unclosed?] at hno'

/-- **Nothing is reported exactly of properly nested brackets.** -/
theorem unbalanced_eq_nil_iff {tokens : List Token} : unbalanced [] tokens = [] ↔ Nested (bracketChars tokens) := by
  constructor
  · intro hnothing
    obtain ⟨popped, left, judged, h⟩ := unbalanced_judged [] tokens
    obtain ⟨rfl, rfl⟩ := List.append_eq_nil_iff.1 h.stack_eq.symm
    have hreport := h.report_eq
    rw [hnothing, List.map_nil] at hreport
    obtain ⟨hunmatched, hrest⟩ := List.append_eq_nil_iff.1 hreport.symm
    obtain ⟨-, hunclosed⟩ := List.append_eq_nil_iff.1 hrest
    have hcloses := h.closes
    rw [kept_of_report_eq_nil hunmatched hunclosed, h.brackets_eq, bracketChars_brackets] at hcloses
    cases hcloses with
    | done hnested => exact hnested
  · intro hnested
    have hpass := unbalanced_append_of_nested hnested [] [] rfl
    rw [List.append_nil] at hpass
    rw [hpass]
    rfl

/-! ## Brackets of a text -/

/-- The characters of a text that stand outside string literals, the quotes left out. A literal ends at the next quote of its
kind that has no backslash before it; `open?` is the quote of the literal that the text begins in. -/
def outsideLiterals : (open? : Option Char) → List Char → List Char
  | _, [] => []
  | none, c :: rest => if c = '\'' ∨ c = '"' then outsideLiterals (some c) rest else c :: outsideLiterals none rest
  | some _, ['\\'] => []
  | some quote, '\\' :: _ :: rest => outsideLiterals (some quote) rest
  | some quote, c :: rest => outsideLiterals (if c = quote then none else some quote) rest

/-- the brackets of a text that stand outside string literals -/
def bracketsOutside (text : List Char) : List Char :=
  (outsideLiterals none text).filter isBracket

theorem outsideLiterals_closedBody {quote : Char} {body : List Char} (h : ClosedBody quote body) (hquote : quote ≠ '\\')
    (rest : List Char) : outsideLiterals (some quote) (body ++ quote :: rest) = outsideLiterals none rest := by
  induction h with
  | nil => simp [outsideLiterals, hquote]
  | escaped _ ih => simpa [outsideLiterals] using ih
  | plain hbackslash hne _ ih => simpa [outsideLiterals, hbackslash, hne] using ih

theorem outsideLiterals_append {source : List Char} (h : ∀ c ∈ source, c ≠ '\'' ∧ c ≠ '"') (rest : List Char) :
    outsideLiterals none (source ++ rest) = source ++ outsideLiterals none rest := by
  induction source with
  | nil => rfl
  | cons c source ih =>
    obtain ⟨hc, hsource⟩ := List.forall_mem_cons.1 h
    simp [outsideLiterals, hc, ih hsource]

/-- what a segment has outside string literals -/
def Segment.outside : Segment → List Char
  | lexeme .string _ _ => []
  | segment => segment.source

/-- one blank or one lexeme -/
def Segment.Closed : Segment → Prop
  | blank c => isBlank c = true
  | lexeme kind source text => Lexeme kind source text
  | stray _ | unclosed _ => False

/-- A class of characters that has none of the quotes and brackets as a member. -/
theorem plain_of_class {p : Char → Bool}
    (hp : (['\'', '"', '(', ')', '[', ']', '{', '}'].all fun c => !p c) = true) {c : Char} (hc : p c = true) :
    (c ≠ '\'' ∧ c ≠ '"') ∧ isBracket c = false := by
  have hne : ∀ d ∈ ['\'', '"', '(', ')', '[', ']', '{', '}'], c ≠ d := by
    intro d hd hcd
    have hno := List.all_eq_true.1 hp d hd
    rw [← hcd, hc] at hno
    exact Bool.noConfusion hno
  have hbracket : c ∉ ['(', ')', '[', ']', '{', '}'] := by
    intro hmem
    exact hne c (List.mem_cons_of_mem _ (List.mem_cons_of_mem _ hmem)) rfl
  exact ⟨⟨hne _ (by decide), hne _ (by decide)⟩, by simpa [isBracket] using hbracket⟩

/-- Quotes stand in string literals only, and brackets in string literals and delimiters. -/
theorem Lexeme.plain_of_mem {kind : TokenKind} {source text : List Char} (h : Lexeme kind source text)
    (hkind : kind ≠ .string) {c : Char} (hc : c ∈ source) :
    (c ≠ '\'' ∧ c ≠ '"') ∧ (kind ≠ .delimiter → isBracket c = false) := by
  have hdigit (d : Char) (hd : isDigit d = true) : (d ≠ '\'' ∧ d ≠ '"') ∧ isBracket d = false :=
    plain_of_class (p := isDigit) (by decide) hd
  have hword (d : Char) (hd : continuesWord d = true) : (d ≠ '\'' ∧ d ≠ '"') ∧ isBracket d = false :=
    plain_of_class (p := continuesWord) (by decide) hd
  cases h with
  | string => exact absurd rfl hkind
  | whole _ hdigits => exact (hdigit c (hdigits c hc)).imp_right fun hplain _ => hplain
  | fraction _ hdigits hmore =>
    rcases List.mem_append.1 hc with hc | hc
    · exact (hdigit c (hdigits c hc)).imp_right fun hplain _ => hplain
    · rcases List.mem_cons.1 hc with rfl | hc
      · decide
      · exact (hdigit c (hmore c hc)).imp_right fun hplain _ => hplain
  | delimiter hmem =>
    have hnone : ∀ d ∈ delimiters, d ≠ '\'' ∧ d ≠ '"' := by simp [delimiters]
    obtain rfl := List.mem_singleton.1 hc
    exact ⟨hnone c hmem, fun hne => absurd rfl hne⟩
  | symbol hmem =>
    have hnone : ∀ operator ∈ symbolOperators, ∀ d ∈ operator, (d ≠ '\'' ∧ d ≠ '"') ∧ isBracket d = false := by
      simp [symbolOperators, isBracket]
    exact (hnone _ hmem c hc).imp_right fun hplain _ => hplain
  | word hfirst hrest =>
    rcases List.mem_cons.1 hc with rfl | hc
    · exact (hword c (continuesWord_of_startsWord hfirst)).imp_right fun hplain _ => hplain
    · exact (hword c (hrest c hc)).imp_right fun hplain _ => hplain

/-- A word is neither a string literal nor a delimiter. -/
theorem wordKind_ne (word : List Char) :
    (if String.ofList word ∈ wordOperators then TokenKind.operator else classify word) ≠ .string ∧
      (if String.ofList word ∈ wordOperators then TokenKind.operator else classify word) ≠ .delimiter := by
  unfold classify
  split_ifs <;> decide

theorem Lexeme.string_inv {kind : TokenKind} {source text : List Char} (h : Lexeme kind source text)
    (hkind : kind = .string) :
    ∃ quote body, source = quote :: body ++ [quote] ∧ (quote = '\'' ∨ quote = '"') ∧ ClosedBody quote body := by
  cases h with
  | string hquote hbody => exact ⟨_, _, rfl, hquote, hbody⟩
  | word => exact absurd hkind (wordKind_ne _).1
  | _ => cases hkind

theorem Lexeme.delimiter_inv {kind : TokenKind} {source text : List Char} (h : Lexeme kind source text)
    (hkind : kind = .delimiter) : ∃ c, source = [c] ∧ text = [c] := by
  cases h with
  | delimiter => exact ⟨_, rfl, rfl⟩
  | word => exact absurd hkind (wordKind_ne _).2
  | _ => cases hkind

/-- Reading on behind a segment. -/
theorem Segment.Closed.outsideLiterals_append {segment : Segment} (h : segment.Closed) (rest : List Char) :
    outsideLiterals none (segment.source ++ rest) = segment.outside ++ outsideLiterals none rest := by
  cases segment with
  | blank c =>
    have hplain := plain_of_class (p := isBlank) (by decide) h
    exact Expression.outsideLiterals_append (List.forall_mem_singleton.2 hplain.1) rest
  | lexeme kind source text =>
    by_cases hkind : kind = .string
    · obtain ⟨quote, body, rfl, hquote, hbody⟩ := Lexeme.string_inv h hkind
      have hbackslash : quote ≠ '\\' := by
        rcases hquote with rfl | rfl <;> decide
      have hbehind := outsideLiterals_closedBody hbody hbackslash rest
      simpa [hkind, Segment.source, Segment.outside, outsideLiterals, hquote] using hbehind
    · have houtside : (Segment.lexeme kind source text).outside = source := by
        cases kind with
        | string => exact absurd rfl hkind
        | _ => rfl
      rw [houtside]
      exact Expression.outsideLiterals_append (fun c hc => (Lexeme.plain_of_mem h hkind hc).1) rest
  | stray | unclosed => exact h.elim

/-- The bracket that the token of a segment is, if any, is all that the segment has of brackets outside string literals. -/
theorem Segment.Closed.bracket_token {segment : Segment} (h : segment.Closed) (p : Position) :
    ((segment.token? p).bind Token.bracket?).toList = segment.outside.filter isBracket := by
  cases segment with
  | blank c =>
    have hplain := plain_of_class (p := isBlank) (by decide) h
    simp [Segment.token?, Segment.outside, Segment.source, hplain.2]
  | lexeme kind source text =>
    cases kind with
    | string => rfl
    | delimiter =>
      obtain ⟨c, rfl, rfl⟩ := Lexeme.delimiter_inv h rfl
      cases hc : isBracket c with
      | true => simp [Segment.token?, Segment.outside, Segment.source, Token.bracket?, hc]
      | false => simp [Segment.token?, Segment.outside, Segment.source, Token.bracket?, hc]
    | _ =>
      have hnone : source.filter isBracket = [] := by
        rw [List.filter_eq_nil_iff]
        intro c hc
        rw [(Lexeme.plain_of_mem h (by decide) hc).2 (by decide)]
        exact Bool.false_ne_true
      exact hnone.symm
  | stray | unclosed => exact h.elim

theorem outsideLiterals_sources {segments : List Segment} (h : ∀ segment ∈ segments, segment.Closed) :
    outsideLiterals none (segments.flatMap Segment.source) = segments.flatMap Segment.outside := by
  induction segments with
  | nil => rfl
  | cons first rest ih =>
    obtain ⟨hfirst, hrest⟩ := List.forall_mem_cons.1 h
    rw [List.flatMap_cons, hfirst.outsideLiterals_append, ih hrest, List.flatMap_cons]

theorem bracketChars_place (origin : Position) {segments : List Segment} (h : ∀ segment ∈ segments, segment.Closed) :
    bracketChars ((place origin segments).filterMap fun entry => entry.2.token? entry.1) =
      (segments.flatMap Segment.outside).filter isBracket := by
  induction segments generalizing origin with
  | nil => rfl
  | cons first rest ih =>
    obtain ⟨hfirst, hrest⟩ := List.forall_mem_cons.1 h
    have hbehind := ih (origin.advanceAll first.source) hrest
    rw [List.flatMap_cons, List.filter_append, ← hbehind, ← hfirst.bracket_token origin]
    simp only [place, List.filterMap_cons, bracketChars]
    cases first.token? origin with
    | none => rfl
    | some token =>
      simp only [List.filterMap_cons, Option.bind_some]
      cases token.bracket? with
      | none => rfl
      | some c => rfl

theorem exists_place_of_mem (origin : Position) {segments : List Segment} {segment : Segment} (h : segment ∈ segments) :
    ∃ p, (p, segment) ∈ place origin segments := by
  obtain ⟨front, back, hsplit⟩ := List.append_of_mem h
  exact ⟨_, mem_place_iff.2 ⟨front, back, hsplit, rfl⟩⟩

/-- A text whose reading finds no fault is made of blanks and lexemes. -/
theorem closed_of_errors_eq_nil {origin : Position} {text : List Char} (h : (tokenize origin text).2 = []) :
    ∀ segment ∈ segments text, segment.Closed := by
  intro segment hmem
  obtain ⟨before, after, hsplit⟩ := List.append_of_mem hmem
  have hfits := (segments_fit hsplit).2
  obtain ⟨p, hp⟩ := exists_place_of_mem origin hmem
  have herror : segment.error? p = none := List.filterMap_eq_nil_iff.1 h _ hp
  cases segment with
  | blank c => exact hfits
  | lexeme kind source text => exact hfits
  | stray c => simp [Segment.error?] at herror
  | unclosed source => simp [Segment.error?] at herror

/-- **Brackets of tokens and of the text.** -/
theorem bracketChars_tokenize {origin : Position} {text : List Char} (h : (tokenize origin text).2 = []) :
    bracketChars (tokenize origin text).1 = bracketsOutside text := by
  have hclosed := closed_of_errors_eq_nil h
  have houtside := outsideLiterals_sources hclosed
  rw [segments_source] at houtside
  rw [bracketsOutside, houtside]
  exact bracketChars_place origin hclosed

/-- White space alone gives neither tokens nor faults. -/
theorem tokenize_of_blank (origin : Position) {text : List Char} (h : ∀ c ∈ text, isBlank c = true) :
    tokenize origin text = ([], []) := by
  have hblank : ∀ entry ∈ place origin (segments text), ∃ c, entry.2 = .blank c := by
    intro entry hentry
    obtain ⟨p, segment⟩ := entry
    obtain ⟨before, c, rest, rfl, rfl, -⟩ := mem_place hentry
    have hc : isBlank c = true := h c (List.mem_append_right _ List.mem_cons_self)
    exact ⟨c, if_pos hc⟩
  refine Prod.ext ?_ ?_
  · refine List.filterMap_eq_nil_iff.2 ?_
    intro entry hentry
    obtain ⟨c, hc⟩ := hblank entry hentry
    simp only [hc, Segment.token?]
  · refine List.filterMap_eq_nil_iff.2 ?_
    intro entry hentry
    obtain ⟨c, hc⟩ := hblank entry hentry
    simp only [hc, Segment.error?]

theorem isBlank_of_trim_eq_nil {text : List Char} (h : trim text = []) : ∀ c ∈ text, isBlank c = true := by
  obtain ⟨trail, htext, htrail⟩ := trim_append text
  rw [h, List.nil_append] at htext
  intro c hc
  rw [htext] at hc
  rcases List.mem_append.1 hc with hc | hc
  · exact List.mem_takeWhile_imp hc
  · exact htrail c hc

/-- The faults of an expression are those of its reading and those of its brackets, also if it is blank. -/
theorem check_eq (origin : Position) (text : List Char) :
    check origin text = (tokenize origin text).2 ++ unbalanced [] (tokenize origin text).1 := by
  unfold check
  split
  case isTrue hempty =>
    rw [tokenize_of_blank origin (isBlank_of_trim_eq_nil (List.isEmpty_iff.1 hempty))]
    rfl
  case isFalse => rfl

/-- **The report is a repair.** Each bracket among the tokens gets one verdict. What is reported are the closing brackets found
unmatched, in order, then the opening ones found unclosed, in order, each at its token and by its kind; and without them the
brackets are properly nested. Nothing is reported exactly if they all are. So an expression has no fault exactly if its
reading finds none and the brackets outside its string literals are properly nested. -/
theorem brackets_repaired :
    (∀ tokens, ∃ judged : List Judged, judged.map Prod.fst = brackets tokens ∧ (∀ entry ∈ judged, entry.Fair) ∧
      (unbalanced [] tokens).map (fun error => (error.message, error.position)) =
        judged.filterMap Judged.unmatched? ++ judged.filterMap Judged.unclosed? ∧
      Nested (judged.filterMap Judged.kept?)) ∧
    (∀ tokens, unbalanced [] tokens = [] ↔ Nested (bracketChars tokens)) ∧
    ∀ origin text, check origin text = [] ↔ (tokenize origin text).2 = [] ∧ Nested (bracketsOutside text) := by
  refine ⟨?_, fun tokens => unbalanced_eq_nil_iff, ?_⟩
  · intro tokens
    obtain ⟨popped, left, judged, h⟩ := unbalanced_judged [] tokens
    obtain ⟨rfl, rfl⟩ := List.append_eq_nil_iff.1 h.stack_eq.symm
    refine ⟨judged, h.brackets_eq, h.fair, by simpa using h.report_eq, ?_⟩
    cases h.closes with
    | done hnested => exact hnested
  · intro origin text
    rw [check_eq, List.append_eq_nil_iff]
    refine and_congr_right fun hread => ?_
    rw [unbalanced_eq_nil_iff, bracketChars_tokenize hread]

end WorkflowLint.Expression
