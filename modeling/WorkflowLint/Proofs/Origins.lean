/-
Where an expression begins changes where things are reported, and nothing else.

The same text is read twice, once from the top and once from `origin`. The segments are the same, so this compares two walks:
`Position.translate` moves the lines of the first walk down to `origin`, and the columns of its first line to the right. A token
may begin on the first line and end on a later one, when a string literal has a line feed in it; then only its beginning moves to
the right.

Results:
- `place_translate`: the places of the segments are moved.
- `tokenize_translate`: tokens and errors of the reading are moved, and keep their kinds, texts and faults.
- `unbalanced_translate`: the check of the brackets looks at places only to report them, so its report is moved. What is carried
  along is that the two stacks hold the same brackets, opened at places that are moved.
- `origins_translate`: all faults of an expression are moved.
-/
import WorkflowLint.Proofs.BracketRepair

namespace WorkflowLint

/-- the range between the moved ends -/
def Range.translate (origin : Position) (range : Range) : Range :=
  ⟨origin.translate range.start, origin.translate range.stop⟩

namespace Expression

/-- the token at its place in a text that begins at `origin` -/
def Token.translate (origin : Position) (token : Token) : Token :=
  ⟨token.kind, token.text, token.range.translate origin⟩

/-- the error at its place in a text that begins at `origin` -/
def LexicalError.translate (origin : Position) (error : LexicalError) : LexicalError :=
  ⟨error.fault, origin.translate error.position⟩

/-! ## The reading -/

theorem place_translate (origin p : Position) (segments : List Segment) :
    place (origin.translate p) segments =
      (place p segments).map fun entry => (origin.translate entry.1, entry.2) := by
  induction segments generalizing p with
  | nil => rfl
  | cons first rest ih => rw [place, place, List.map_cons, Position.translate_advanceAll, ih]

theorem Segment.token?_translate (origin p : Position) (segment : Segment) :
    segment.token? (origin.translate p) = (segment.token? p).map (Token.translate origin) := by
  cases segment with
  | lexeme kind source text =>
    simp only [Segment.token?, Option.map_some, Range.between_advanceAll]
    rw [Position.translate_advanceAll]
    rfl
  | _ => rfl

theorem Segment.error?_translate (origin p : Position) (segment : Segment) :
    segment.error? (origin.translate p) = (segment.error? p).map (LexicalError.translate origin) := by
  cases segment with
  | lexeme kind source text =>
    simp only [Segment.error?, Position.translate_advanceAll]
    split <;> rfl
  | _ => rfl

/-- **The reading is moved.** -/
theorem tokenize_translate (origin p : Position) (text : List Char) :
    tokenize (origin.translate p) text =
      ((tokenize p text).1.map (Token.translate origin), (tokenize p text).2.map (LexicalError.translate origin)) := by
  simp only [tokenize, place_translate, List.filterMap_map, List.map_filterMap, Function.comp_def,
    Segment.token?_translate, Segment.error?_translate]

/-! ## The brackets -/

/-- the place at which a bracket was opened is moved -/
def translateOpened (origin : Position) (opened : Bracket × Position) : Bracket × Position :=
  (opened.1, origin.translate opened.2)

/-- Whether a token is a bracket does not depend on its place. -/
theorem Token.bracket?_translate (origin : Position) (token : Token) :
    (token.translate origin).bracket? = token.bracket? :=
  rfl

/-- **The report on the brackets is moved**, from any stack. -/
theorem unbalanced_translate (origin : Position) (stack : List (Bracket × Position)) (tokens : List Token) :
    unbalanced (stack.map (translateOpened origin)) (tokens.map (Token.translate origin)) =
      (unbalanced stack tokens).map (LexicalError.translate origin) := by
  induction tokens generalizing stack with
  | nil =>
    simp only [List.map_nil, unbalanced, List.map_map, ← List.map_reverse]
    rfl
  | cons token rest ih =>
    have hmoved := Token.bracket?_translate origin token
    rw [List.map_cons]
    rcases token.bracket?_cases with hnone | ⟨bracket, hopen⟩ | ⟨bracket, hclose⟩
    · rw [unbalanced_cons_of_none _ _ (hmoved.trans hnone), unbalanced_cons_of_none _ _ hnone]
      exact ih stack
    · rw [unbalanced_cons_opener _ _ (hmoved.trans hopen), unbalanced_cons_opener _ _ hopen]
      exact ih ((bracket, token.range.start) :: stack)
    · rcases top_or_misfit bracket stack with ⟨p, below, rfl⟩ | hmisfit
      · rw [unbalanced_cons_partner _ _ _ hclose, List.map_cons]
        exact (unbalanced_cons_partner _ _ _ (hmoved.trans hclose)).trans (ih below)
      · have hmisfit' : ∀ opened, (stack.map (translateOpened origin)).head? = some opened → opened.1 ≠ bracket := by
          intro opened hhead
          rw [List.head?_map] at hhead
          obtain ⟨opened', hhead', rfl⟩ := Option.map_eq_some_iff.1 hhead
          exact hmisfit opened' hhead'
        rw [unbalanced_cons_misfit _ (hmoved.trans hclose) hmisfit', unbalanced_cons_misfit _ hclose hmisfit, ih stack]
        rfl

/-- **Origins only translate.** A text that begins at `origin` has the tokens and the errors that it has at the top, in the same
order and of the same kinds and texts, each moved to `origin`; and so have its brackets. -/
theorem origins_translate (origin : Position) (text : List Char) :
    (tokenize origin text).1 = (tokenize .zero text).1.map (Token.translate origin) ∧
      (tokenize origin text).2 = (tokenize .zero text).2.map (LexicalError.translate origin) ∧
      check origin text = (check .zero text).map (LexicalError.translate origin) := by
  have hread := tokenize_translate origin .zero text
  rw [Position.translate_zero] at hread
  refine ⟨by rw [hread], by rw [hread], ?_⟩
  have hbrackets := unbalanced_translate origin [] (tokenize .zero text).1
  rw [List.map_nil] at hbrackets
  calc check origin text
      = (tokenize origin text).2 ++ unbalanced [] (tokenize origin text).1 := check_eq origin text
    _ = (tokenize .zero text).2.map (LexicalError.translate origin) ++
          (unbalanced [] (tokenize .zero text).1).map (LexicalError.translate origin) := by rw [hread, hbrackets]
    _ = (check .zero text).map (LexicalError.translate origin) := by rw [check_eq, List.map_append]

end Expression

end WorkflowLint
