/-
Where the ranges of diagnostics begin and end.

The checks take the range of a finding from three places: the top of the document, a lookup of a key, and the range of an
expression (`Check.Cites`). A lexical diagnostic is at a point of an expression. All of them but the first are measured in the
document, so they begin and end between two characters: `framed_of_cites` and `borders_of_lexical`.

The range at the top is not measured but cut: `topWidth` code units wide, or as wide as the first line if that is shorter. Where
the tenth and the eleventh unit of the first line are the two halves of one character, the cut goes through it, as in
`splitDocument`. `diagnostic_endpoints` says that nothing else goes wrong: every other endpoint, in every document, is the
position of an offset between two characters.
-/
import WorkflowLint.Proofs.FaultPlaces
import WorkflowLint.Proofs.Offsets
import WorkflowLint.Proofs.TaskKeys

namespace WorkflowLint

open WorkflowLint.Text WorkflowLint.Expression

/-! ## Positions in a text -/

/-- the position of an offset between two characters, or at an end of the text -/
def Borders (text : List Char) (p : Position) : Prop :=
  ∃ offset, onBoundary offset text = true ∧ (LineTable.ofText text).position offset = p

/-- the position between the two code units of a character -/
def Splits (text : List Char) (p : Position) : Prop :=
  ∃ before c after, text = before ++ c :: after ∧ utf16Size c = 2 ∧
    p = ⟨(Position.zero.advanceAll before).line, (Position.zero.advanceAll before).character + 1⟩

theorem borders_iff {text : List Char} {p : Position} :
    Borders text p ↔ ∃ before after, text = before ++ after ∧ Position.zero.advanceAll before = p := by
  constructor
  · intro h
    obtain ⟨offset, hoffset, rfl⟩ := h
    obtain ⟨before, after, rfl, rfl⟩ := onBoundary_iff.1 hoffset
    exact ⟨before, after, rfl, (LineTable.position_append before after).symm⟩
  · intro h
    obtain ⟨before, after, rfl, rfl⟩ := h
    exact ⟨utf8Length before, onBoundary_append before after, LineTable.position_append before after⟩

theorem Borders.of_append (before after : List Char) : Borders (before ++ after) (Position.zero.advanceAll before) :=
  borders_iff.2 ⟨before, after, rfl, rfl⟩

/-- No position is both between two characters and inside one. -/
theorem Splits.not_borders {text : List Char} {p : Position} (h : Splits text p) : ¬ Borders text p := by
  intro hborders
  obtain ⟨before, c, after, rfl, hsize, rfl⟩ := h
  obtain ⟨front, back, htext, hplace⟩ := borders_iff.1 hborders
  have hbehind : Position.zero.advanceAll before < Position.zero.advanceAll front := by
    rw [hplace]
    exact Or.inr ⟨rfl, Nat.lt_succ_self _⟩
  have hwithin : Position.zero.advanceAll front < (Position.zero.advanceAll before).advance c := by
    have hwide : c ≠ '\n' := by
      intro hc
      rw [hc] at hsize
      exact absurd hsize (by decide)
    rw [hplace, Position.advance, if_neg hwide, hsize]
    exact Or.inr ⟨rfl, Nat.lt_succ_self _⟩
  -- the walk over `front` ends behind `before` but in front of `c`, and there is nothing in between
  rcases List.append_eq_append_iff.1 htext with ⟨rest, rfl, hrest⟩ | ⟨rest, rfl, -⟩
  · cases rest with
    | nil =>
      rw [List.append_nil] at hbehind
      exact Position.lt_irrefl _ hbehind
    | cons d rest =>
      obtain rfl := (List.cons.inj hrest).1
      have hle : (Position.zero.advanceAll before).advance c ≤ Position.zero.advanceAll (before ++ c :: rest) := by
        rw [Position.advanceAll_append]
        exact Position.le_advanceAll _ rest
      exact Position.lt_irrefl _ (Position.lt_of_lt_of_le hwithin hle)
  · rw [Position.advanceAll_append] at hbehind
    exact Position.not_advanceAll_lt _ _ hbehind

/-- A column within a line is the length of an initial part, or lies inside a character. -/
theorem exists_column {line : List Char} {width : Nat} (h : width ≤ utf16Length line) :
    (∃ before after, line = before ++ after ∧ utf16Length before = width) ∨
      ∃ before c after, line = before ++ c :: after ∧ utf16Size c = 2 ∧ utf16Length before + 1 = width := by
  induction line generalizing width with
  | nil => exact Or.inl ⟨[], [], rfl, (Nat.le_zero.1 h).symm⟩
  | cons c line ih =>
    by_cases hzero : width = 0
    · exact Or.inl ⟨[], c :: line, rfl, hzero.symm⟩
    by_cases hsize : utf16Size c ≤ width
    · rw [utf16Length] at h
      have hrest : width - utf16Size c ≤ utf16Length line := by omega
      rcases ih hrest with ⟨before, after, rfl, hb⟩ | ⟨before, d, after, rfl, hd, hb⟩
      · exact Or.inl ⟨c :: before, after, rfl, by rw [utf16Length]; omega⟩
      · exact Or.inr ⟨c :: before, d, after, rfl, hd, by rw [utf16Length]; omega⟩
    · have htwo : utf16Size c = 2 ∧ width = 1 := by
        unfold utf16Size at hsize ⊢
        split at hsize
        case isTrue => omega
        case isFalse hwide => exact ⟨if_neg hwide, by omega⟩
      exact Or.inr ⟨[], c, line, rfl, htwo.1, htwo.2.symm⟩

theorem borders_or_splits_of_le {line : List Char} {width : Nat} (rest : List Char) (hline : '\n' ∉ line)
    (h : width ≤ utf16Length line) : Borders (line ++ rest) ⟨0, width⟩ ∨ Splits (line ++ rest) ⟨0, width⟩ := by
  have hcolumn : ∀ before ⊆ line, Position.zero.advanceAll before = ⟨0, utf16Length before⟩ := by
    intro before hsub
    rw [Position.advanceAll_of_not_mem _ fun hmem => hline (hsub hmem)]
    simp [Position.zero]
  rcases exists_column h with ⟨before, after, rfl, rfl⟩ | ⟨before, c, after, rfl, hsize, rfl⟩
  · left
    rw [List.append_assoc, ← hcolumn before (List.subset_append_left _ _)]
    exact .of_append before (after ++ rest)
  · right
    refine ⟨before, c, after ++ rest, by simp, hsize, ?_⟩
    rw [hcolumn before (List.subset_append_left _ _)]

/-! ## Ranges that are measured -/

/-- a range that begins and ends between two characters -/
def Framed (text : List Char) (range : Range) : Prop :=
  Borders text range.start ∧ Borders text range.stop

theorem framed_range {text : List Char} {a b : Nat} (ha : onBoundary a text = true) (hb : onBoundary b text = true) :
    Framed text ((LineTable.ofText text).range a b) := by
  unfold LineTable.range Range.between
  split
  case isTrue => exact ⟨⟨b, hb, rfl⟩, ⟨a, ha, rfl⟩⟩
  case isFalse => exact ⟨⟨a, ha, rfl⟩, ⟨b, hb, rfl⟩⟩

theorem framed_of_mem_occurrences {text : List Char} {occurrence : Occurrence}
    (h : occurrence ∈ occurrences (LineTable.ofText text)) : Framed text occurrence.range := by
  obtain ⟨site, hsite, rfl⟩ := List.mem_map.1 h
  obtain ⟨hstart, hstop, -⟩ := onBoundary_site hsite
  exact framed_range hstart hstop

namespace Layout

theorem framed_headerRange {text : List Char} {path : List String} {block : Block}
    (h : descend path (Layout.ofText text).rows = some block) :
    (Layout.ofText text).headerRange block = (Layout.ofText text).top ∨
      Framed text ((Layout.ofText text).headerRange block) := by
  unfold headerRange headerVia
  cases hkey : block.header.key with
  | none => exact Or.inl rfl
  | some key =>
    obtain ⟨hstart, hstop⟩ := onBoundary_key (header_mem_of_descend h) hkey
    exact Or.inr (framed_range hstart hstop)

/-- A lookup gives the top of the document, or a range that is measured. -/
theorem framed_lookup (text : List Char) (lookup : Lookup) :
    lookup.range (Layout.ofText text) = (Layout.ofText text).top ∨
      Framed text (lookup.range (Layout.ofText text)) := by
  have hfollow : ∀ other : Lookup, (other.fallback (Layout.ofText text) = (Layout.ofText text).top ∨
      Framed text (other.fallback (Layout.ofText text))) →
      (other.range (Layout.ofText text) = (Layout.ofText text).top ∨ Framed text (other.range (Layout.ofText text))) := by
    intro other hfallback
    rw [Lookup.range_eq]
    cases hblock : descend other.path (Layout.ofText text).rows with
    | none => exact hfallback
    | some block => exact framed_headerRange hblock
  cases lookup with
  | rootKey key => exact hfollow (.rootKey key) (Or.inl rfl)
  | workflow w => exact hfollow (.workflow w) (Or.inl rfl)
  | workflowKey w key => exact hfollow (.workflowKey w key) (hfollow (.workflow w) (Or.inl rfl))
  | task w t => exact hfollow (.task w t) (Or.inl rfl)
  | taskKey w t key => exact hfollow (.taskKey w t key) (hfollow (.task w t) (Or.inl rfl))

/-- The range at the top is as wide as the first line, or cut. -/
theorem top_eq (text : List Char) :
    ∃ line rest, text = line ++ rest ∧ '\n' ∉ line ∧
      (Layout.ofText text).top = ⟨⟨0, 0⟩, ⟨0, min (utf16Length line) topWidth⟩⟩ := by
  obtain ⟨chars, lines, hlines, -⟩ := linesFrom_eq_cons 0 text
  have hfirst : (linesFrom 0 text)[0]? = some ⟨0, chars⟩ := by rw [hlines]; rfl
  have htop := top_of_first_line hfirst
  obtain ⟨before, after, htext, hstart, -, hfeed⟩ := linesFrom_stands hfirst
  obtain rfl : before = [] := by
    cases before with
    | nil => rfl
    | cons c before =>
      have hzero : 0 + (c.utf8Size + utf8Length before) = 0 := hstart
      have hpos := c.utf8Size_pos
      omega
  refine ⟨(⟨0, chars⟩ : Line).text, ?_⟩
  rcases (⟨0, chars⟩ : Line).text_eq with hchars | hchars
  · exact ⟨after, by rw [← hchars]; exact htext, by rw [← hchars]; exact hfeed, htop⟩
  · rw [hchars] at htext hfeed
    refine ⟨'\r' :: after, by simpa using htext, ?_, htop⟩
    intro hmem
    exact hfeed (List.mem_append_left _ hmem)

/-- The range at the top begins with the document and ends between two characters, unless it is cut inside one. -/
theorem top_endpoints (text : List Char) :
    Borders text (Layout.ofText text).top.start ∧
      (Borders text (Layout.ofText text).top.stop ∨
        (Layout.ofText text).top = ⟨⟨0, 0⟩, ⟨0, topWidth⟩⟩ ∧ Splits text ⟨0, topWidth⟩) := by
  obtain ⟨line, rest, rfl, hline, htop⟩ := top_eq text
  rw [htop]
  refine ⟨.of_append [] (line ++ rest), ?_⟩
  by_cases hshort : utf16Length line < topWidth
  · -- the range reaches to the end of the line
    left
    rw [Nat.min_eq_left (Nat.le_of_lt hshort)]
    have hend := Position.advanceAll_of_not_mem Position.zero hline
    rw [Position.zero, Nat.zero_add] at hend
    rw [← hend]
    exact .of_append line rest
  · have hwide : topWidth ≤ utf16Length line := Nat.le_of_not_lt hshort
    rw [Nat.min_eq_right hwide]
    rcases borders_or_splits_of_le rest hline hwide with hborders | hsplits
    · exact Or.inl hborders
    · exact Or.inr ⟨rfl, hsplits⟩

end Layout

/-! ## Ranges of findings -/

namespace Check

/-- what the range of a finding is taken from -/
inductive Cites (layout : Layout) (occurrences : List Occurrence) : Range → Prop where
  | top : Cites layout occurrences layout.top
  | lookup (lookup : Layout.Lookup) : Cites layout occurrences (lookup.range layout)
  | occurrence {occurrence : Occurrence} : occurrence ∈ occurrences → Cites layout occurrences occurrence.range

/-- all ranges of the findings are taken from somewhere -/
def CitesAll (layout : Layout) (occurrences : List Occurrence) (findings : List Finding) : Prop :=
  ∀ finding ∈ findings, Cites layout occurrences finding.range

section

variable {layout : Layout} {occurrences : List Occurrence}

@[simp]
theorem cites_top : Cites layout occurrences layout.top :=
  .top

@[simp]
theorem cites_rootKey (key : String) : Cites layout occurrences (layout.rootKey key) :=
  .lookup (.rootKey key)

@[simp]
theorem cites_workflow (w : String) : Cites layout occurrences (layout.workflow w) :=
  .lookup (.workflow w)

@[simp]
theorem cites_workflowKey (w key : String) : Cites layout occurrences (layout.workflowKey w key) :=
  .lookup (.workflowKey w key)

@[simp]
theorem cites_task (w t : String) : Cites layout occurrences (layout.task w t) :=
  .lookup (.task w t)

@[simp]
theorem cites_taskKey (w t key : String) : Cites layout occurrences (layout.taskKey w t key) :=
  .lookup (.taskKey w t key)

@[simp]
theorem citesAll_nil : CitesAll layout occurrences [] :=
  List.forall_mem_nil _

@[simp]
theorem citesAll_cons_iff {finding : Finding} {rest : List Finding} :
    CitesAll layout occurrences (finding :: rest) ↔
      Cites layout occurrences finding.range ∧ CitesAll layout occurrences rest :=
  List.forall_mem_cons

@[simp]
theorem citesAll_append_iff {front back : List Finding} :
    CitesAll layout occurrences (front ++ back) ↔
      CitesAll layout occurrences front ∧ CitesAll layout occurrences back :=
  List.forall_mem_append

@[simp]
theorem citesAll_flatMap_iff {α : Type} {items : List α} {f : α → List Finding} :
    CitesAll layout occurrences (items.flatMap f) ↔ ∀ item ∈ items, CitesAll layout occurrences (f item) := by
  constructor
  · intro h item hitem finding hfinding
    exact h finding (List.mem_flatMap.2 ⟨item, hitem, hfinding⟩)
  · intro h finding hfinding
    obtain ⟨item, hitem, hmem⟩ := List.mem_flatMap.1 hfinding
    exact h item hitem finding hmem

theorem citesAll_require (condition : Bool) (problem : Problem) {range : Range} (h : Cites layout occurrences range) :
    CitesAll layout occurrences (require condition problem range) := by
  intro finding hfinding
  rw [(mem_require_iff.1 hfinding).2]
  exact h

theorem citesAll_checkTask (workflow : String) (task : Task) :
    CitesAll layout occurrences (checkTask layout workflow task) := by
  unfold checkTask
  split
  case isTrue => simp
  case isFalse => simp [checkTransition, citesAll_require]

theorem citesAll_checkAttributes (workflow : String) (task : Task) :
    CitesAll layout occurrences (checkAttributes layout workflow task) := by
  unfold checkAttributes
  split
  case isTrue => simp
  case isFalse =>
    cases loopProblem? task with
    | none => simp [citesAll_require]
    | some problem => simp [citesAll_require]

theorem citesAll_checkWorkflow (workflow : Workflow) :
    CitesAll layout occurrences (checkWorkflow layout workflow) := by
  have htype : CitesAll layout occurrences (checkType layout workflow) := by
    unfold checkType
    split
    case h_1 => simp
    case h_2 => simp [citesAll_require]
  have htasks : CitesAll layout occurrences (checkTasks layout workflow) := by
    unfold checkTasks
    split
    case h_1 => simp
    case h_2 =>
      split
      case isTrue => simp
      case isFalse => simp [citesAll_checkTask]
  unfold checkWorkflow
  split
  case isTrue => simp
  case isFalse => simp [htype, htasks, citesAll_require, citesAll_checkAttributes]

theorem citesAll_checkShape (root : Yaml.Mapping) : CitesAll layout occurrences (checkShape layout root) := by
  have hversion : CitesAll layout occurrences (checkVersion layout root) := by
    unfold checkVersion
    split
    case h_1 => simp
    case h_2 => simp [citesAll_require]
  have hworkflows : CitesAll layout occurrences (checkWorkflows layout root) := by
    unfold checkWorkflows
    split
    case h_1 => simp
    case h_2 =>
      split
      case isTrue => simp
      case isFalse => simp [citesAll_checkWorkflow]
  exact citesAll_append_iff.2 ⟨hversion, hworkflows⟩

theorem citesAll_checkScopeFrom (workflow : Workflow) (scope : List String) (tasks : List Task) :
    CitesAll layout occurrences (checkScopeFrom layout workflow occurrences scope tasks) := by
  induction tasks generalizing scope with
  | nil => exact citesAll_nil
  | cons task rest ih =>
    refine citesAll_append_iff.2 ⟨?_, ih _⟩
    rw [citesAll_flatMap_iff]
    intro occurrence hown
    have hcites : Cites layout occurrences occurrence.range := .occurrence (List.mem_filter.1 hown).1
    simp [checkReferences, citesAll_require, hcites]

theorem citesAll_checkScope (root : Yaml.Mapping) : CitesAll layout occurrences (checkScope layout occurrences root) := by
  unfold checkScope
  rw [citesAll_flatMap_iff]
  intro workflow _
  unfold checkWorkflowScope
  split
  case isTrue => simp
  case isFalse => exact citesAll_checkScopeFrom workflow _ _

theorem citesAll_checkTaskNames (workflow : String) (seen : List String) {tasks : List NamedTask}
    (h : ∀ task ∈ tasks, Cites layout occurrences task.range) :
    CitesAll layout occurrences (checkTaskNames workflow seen tasks) := by
  induction tasks generalizing seen with
  | nil => exact citesAll_nil
  | cons task rest ih =>
    obtain ⟨htask, hrest⟩ := List.forall_mem_cons.1 h
    simp [checkTaskNames, citesAll_require, htask, ih _ hrest]

theorem citesAll_checkNames (root : Yaml.Mapping) : CitesAll layout occurrences (checkNames layout root) := by
  unfold checkNames
  rw [citesAll_flatMap_iff]
  intro workflow _
  refine citesAll_append_iff.2 ⟨citesAll_require _ _ (cites_workflow _), citesAll_checkTaskNames _ _ ?_⟩
  simp [namedTask]

theorem citesAll_checkOrphans (root : Yaml.Mapping) : CitesAll layout occurrences (checkOrphans layout root) := by
  unfold checkOrphans
  rw [citesAll_flatMap_iff]
  intro workflow _ finding hfinding
  obtain ⟨task, -, rfl⟩ := List.mem_map.1 hfinding
  exact cites_task _ _

end

/-- What is not at the top of the document is measured in it. -/
theorem framed_of_cites {text : List Char} {range : Range}
    (h : Cites (Layout.ofText text) (occurrences (LineTable.ofText text)) range) :
    range = (Layout.ofText text).top ∨ Framed text range := by
  cases h with
  | top => exact Or.inl rfl
  | lookup lookup => exact Layout.framed_lookup text lookup
  | occurrence hmem => exact Or.inr (framed_of_mem_occurrences hmem)

end Check

/-! ## Diagnostics of a document -/

open Check

/-- A structural diagnostic has the range of a finding. -/
theorem cites_of_structural {text : List Char} {message : String} {range : Range}
    (h : Diagnostic.structural message range ∈ lint text) :
    Cites (Layout.ofText text) (occurrences (LineTable.ofText text)) range := by
  have hcites : ∀ {findings : List Finding}, CitesAll (Layout.ofText text) (occurrences (LineTable.ofText text)) findings →
      Diagnostic.structural message range ∈ findings.map Finding.diagnostic →
      Cites (Layout.ofText text) (occurrences (LineTable.ofText text)) range := by
    intro findings hall hmem
    obtain ⟨finding, hfinding, heq⟩ := List.mem_map.1 hmem
    cases heq
    exact hall finding hfinding
  rcases lint_cases text with ⟨fault, -, hlint⟩ | ⟨value, -, -, hlint⟩ | ⟨value, root, -, -, hlint⟩
  · rw [hlint] at h
    cases List.mem_singleton.1 h
    exact .top
  · rw [hlint] at h
    exact absurd h List.not_mem_nil
  · simp only [hlint, lintRoot, List.mem_append] at h
    rcases h with (((hshape | hexpression) | hscope) | hnames) | horphans
    · exact hcites (citesAll_checkShape root) hshape
    · obtain ⟨occurrence, -, hmem⟩ := List.mem_flatMap.1 hexpression
      obtain ⟨error, -, heq⟩ := List.mem_map.1 hmem
      cases heq
    · exact hcites (citesAll_checkScope root) hscope
    · exact hcites (citesAll_checkNames root) hnames
    · exact hcites (citesAll_checkOrphans root) horphans

/-- A lexical diagnostic is between two characters. -/
theorem borders_of_lexical {text : List Char} {message : String} {position : Position}
    (h : Diagnostic.lexical message position ∈ lint text) : Borders text position := by
  obtain ⟨site, hsite, error, herror, -, rfl⟩ := mem_lint_lexical h
  obtain ⟨front, back, htext, hfront⟩ := Site.body_stands hsite
  obtain ⟨before, after, hbody, hplace, -⟩ := check_meets herror
  have hstart : (LineTable.ofText text).position site.bodyStart = Position.zero.advanceAll front := by
    rw [htext, ← hfront, List.append_assoc, LineTable.position_append]
  rw [borders_iff]
  refine ⟨front ++ before, after ++ back, ?_, ?_⟩
  · rw [htext, hbody]
    simp
  · rw [hplace, hstart, Position.advanceAll_append]

/-- a document of one line, whose tenth and eleventh code units are one character -/
def splitDocument : List Char := "123456789😀: x".toList

/-- **A range that ends inside a character.** What is missing from the document is reported at its top, and the range there
reaches over the first half of a character. -/
theorem top_cut_inside_pair :
    lint splitDocument =
      [.structural "Missing 'version' field in workflow definition" ⟨⟨0, 0⟩, ⟨0, 10⟩⟩,
        .structural "Missing 'workflows' section in Mistral definition" ⟨⟨0, 0⟩, ⟨0, 10⟩⟩] ∧
      Splits splitDocument ⟨0, 10⟩ ∧ ¬ Borders splitDocument ⟨0, 10⟩ := by
  have hsplits : Splits splitDocument ⟨0, 10⟩ :=
    ⟨"123456789".toList, '😀', ": x".toList, by decide, by decide, by decide⟩
  exact ⟨by decide +kernel, hsplits, hsplits.not_borders⟩

/-- **Where diagnostics begin and end.** Each begins at the position of an offset between two characters, and each ends at
one, unless it is at the top of a document whose first line has a character of two code units across the width of that range:
then it ends between the two. -/
theorem diagnostic_endpoints (text : List Char) (diagnostic : Diagnostic) (h : diagnostic ∈ lint text) :
    Borders text diagnostic.range.start ∧
      (Borders text diagnostic.range.stop ∨
        diagnostic.range = (Layout.ofText text).top ∧ diagnostic.range = ⟨⟨0, 0⟩, ⟨0, 10⟩⟩ ∧ Splits text ⟨0, 10⟩) ∧
      ∀ p, Splits text p → ¬ Borders text p := by
  have hends : Borders text diagnostic.range.start ∧ (Borders text diagnostic.range.stop ∨
      diagnostic.range = (Layout.ofText text).top ∧ diagnostic.range = ⟨⟨0, 0⟩, ⟨0, 10⟩⟩ ∧ Splits text ⟨0, 10⟩) := by
    cases diagnostic with
    | lexical message position =>
      have hborders := borders_of_lexical h
      exact ⟨hborders, Or.inl hborders⟩
    | structural message range =>
      rcases framed_of_cites (cites_of_structural h) with rfl | ⟨hstart, hstop⟩
      · obtain ⟨hstart, hstop | ⟨hcut, hsplits⟩⟩ := Layout.top_endpoints text
        · exact ⟨hstart, Or.inl hstop⟩
        · exact ⟨hstart, Or.inr ⟨rfl, hcut, hsplits⟩⟩
      · exact ⟨hstart, Or.inl hstop⟩
  exact ⟨hends.1, hends.2, fun p => Splits.not_borders⟩

/-- a document with characters of two code units on its first line and in the name of a workflow -/
def wideDocument : List Char := "😀😀😀😀😀: 1\nversion: 3\nworkflows:\n  \"😀\": 1".toList

/-- **A wide name.** The range of the workflow's key begins and ends between characters. -/
theorem wide_name_endpoints :
    Diagnostic.structural "Workflow '😀' must be an object" ⟨⟨3, 3⟩, ⟨3, 5⟩⟩ ∈ lint wideDocument ∧
      Borders wideDocument ⟨3, 3⟩ ∧ Borders wideDocument ⟨3, 5⟩ := by
  have h : Diagnostic.structural "Workflow '😀' must be an object" ⟨⟨3, 3⟩, ⟨3, 5⟩⟩ ∈ lint wideDocument := by
    decide +kernel
  obtain ⟨hstart, hstop | ⟨-, hcut, -⟩, -⟩ := diagnostic_endpoints wideDocument _ h
  · exact ⟨h, hstart, hstop⟩
  · cases hcut

end WorkflowLint
