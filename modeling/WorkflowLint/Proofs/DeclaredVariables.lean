/-
The variables that an editor offers are those that the scope check knows.

Two walks over a document collect variables: the list for completion goes through all workflows and keeps each name where it
first comes up; the scope check carries the variables in scope from task to task of one workflow. What a workflow declares is
said here without either (`Workflow.Declares`): an input, a key that a task publishes, a key of what it sets when it fails, or
the variable that it loops over.

Results:
- `firstSeen_pairwise`, `mem_firstSeen_iff`: keeping first appearances loses no name, repeats none and keeps their order.
- `mem_variableNames_iff`: the list has exactly the declared names.
- `declares_of_inScope`: what a task may read, its workflow declares. The converse fails, since a task may not read what only
  later tasks publish, or what is only set on failure.
- `declared_variables_bound_scope`: so a variable that is not in the list is reported wherever an expression of a task reads
  it. The list is read off the text on its own, while the checks go by the root that was parsed.
-/
import WorkflowLint.Lint
import WorkflowLint.Listing
import WorkflowLint.Proofs.Scope
import WorkflowLint.Proofs.ShapeRules

namespace WorkflowLint

open WorkflowLint.Expression WorkflowLint.Yaml

/-! ## First appearances -/

namespace Listing

theorem mem_firstSeen_iff {seen names : List String} {name : String} :
    name ∈ firstSeen seen names ↔ name ∈ names ∧ name ∉ seen := by
  induction names generalizing seen with
  | nil => simp [firstSeen]
  | cons other rest ih =>
    rw [firstSeen]
    by_cases hseen : seen.contains other = true
    · rw [if_pos hseen, ih, List.mem_cons]
      have hother : other ∈ seen := List.contains_iff_mem.1 hseen
      constructor
      · rintro ⟨hrest, hnew⟩
        exact ⟨Or.inr hrest, hnew⟩
      · rintro ⟨rfl | hrest, hnew⟩
        · exact absurd hother hnew
        · exact ⟨hrest, hnew⟩
    · rw [if_neg hseen, List.mem_cons, ih, List.mem_cons, List.mem_cons]
      have hother : other ∉ seen := fun h => hseen (List.contains_iff_mem.2 h)
      by_cases hname : name = other
      · subst hname
        simp [hother]
      · simp [hname]

/-- Of two names that are kept, the one that comes first was seen first; and no name is kept twice. -/
theorem firstSeen_pairwise (seen names : List String) :
    (firstSeen seen names).Pairwise fun a b => names.idxOf a < names.idxOf b := by
  induction names generalizing seen with
  | nil => exact .nil
  | cons other rest ih =>
    -- behind `other`, first places are one further on
    have hshift : ∀ {kept : List String}, other ∉ kept →
        (kept.Pairwise fun a b => rest.idxOf a < rest.idxOf b) →
        kept.Pairwise fun a b => (other :: rest).idxOf a < (other :: rest).idxOf b := by
      intro kept hkept hpairs
      refine hpairs.imp_of_mem ?_
      intro a b ha hb hlt
      have hother : ∀ c ∈ kept, other ≠ c := by
        rintro c hc rfl
        exact hkept hc
      rw [List.idxOf_cons_ne _ (hother a ha), List.idxOf_cons_ne _ (hother b hb)]
      exact Nat.succ_lt_succ hlt
    rw [firstSeen]
    by_cases hseen : seen.contains other = true
    · rw [if_pos hseen]
      apply hshift _ (ih seen)
      intro hmem
      exact (mem_firstSeen_iff.1 hmem).2 (List.contains_iff_mem.1 hseen)
    · rw [if_neg hseen]
      have hnew : other ∉ firstSeen (other :: seen) rest :=
        fun hmem => (mem_firstSeen_iff.1 hmem).2 List.mem_cons_self
      refine .cons ?_ (hshift hnew (ih _))
      intro b hb
      have hne : other ≠ b := by
        rintro rfl
        exact hnew hb
      rw [List.idxOf_cons_self, List.idxOf_cons_ne _ hne]
      exact Nat.succ_pos _

theorem nodup_firstSeen (seen names : List String) : (firstSeen seen names).Nodup := by
  refine (firstSeen_pairwise seen names).imp ?_
  rintro a b hlt rfl
  exact Nat.lt_irrefl _ hlt

end Listing

/-! ## What is declared -/

namespace Task

/-- an attribute is a mapping that has a key with the given label; tags on it play no part -/
def DeclaresUnder (task : Task) (key name : String) : Prop :=
  ∃ value entries, task.get? key = some value ∧ value.bare = .map entries ∧ name ∈ Mapping.labels entries

/-- `with-items` is a mapping whose `item` is the given string -/
def LoopsOver (task : Task) (name : String) : Prop :=
  ∃ value entries item, task.get? "with-items" = some value ∧ value.bare = .map entries ∧
    Mapping.present? entries "item" = some item ∧ item.bare = .str name

theorem mem_keysOf_iff {task : Task} {key name : String} : name ∈ task.keysOf key ↔ task.DeclaresUnder key name := by
  unfold keysOf DeclaresUnder
  cases task.get? key with
  | none => simp
  | some value =>
    simp only [Option.some.injEq, Value.keyLabels]
    cases hmap : value.mapping? with
    | none =>
      simp only [List.not_mem_nil, false_iff]
      rintro ⟨_, entries, rfl, hbare, -⟩
      rw [Value.mapping?_eq_some_iff.2 hbare] at hmap
      cases hmap
    | some entries =>
      have hbare := Value.mapping?_eq_some_iff.1 hmap
      constructor
      · intro hmem
        exact ⟨value, entries, rfl, hbare, hmem⟩
      · rintro ⟨_, others, rfl, hothers, hmem⟩
        cases hbare.symm.trans hothers
        exact hmem

theorem loopVariable?_eq_some_iff {task : Task} {name : String} :
    task.loopVariable? = some name ↔ task.LoopsOver name := by
  unfold loopVariable? LoopsOver
  simp only [Option.bind_eq_some_iff, Value.mapping?_eq_some_iff, Value.string?_eq_some_iff]
  constructor
  · rintro ⟨item, ⟨entries, ⟨value, hvalue, hentries⟩, hitem⟩, hname⟩
    exact ⟨value, entries, item, hvalue, hentries, hitem, hname⟩
  · rintro ⟨value, entries, item, hvalue, hentries, hitem, hname⟩
    exact ⟨item, ⟨entries, ⟨value, hvalue, hentries⟩, hitem⟩, hname⟩

end Task

namespace Workflow

/-- a variable that the workflow or one of its tasks declares -/
def Declares (workflow : Workflow) (name : String) : Prop :=
  workflow.DeclaresInput name ∨ ∃ task ∈ workflow.tasks,
    task.DeclaresUnder "publish" name ∨ task.DeclaresUnder "output-on-error" name ∨ task.LoopsOver name

/-- Declarations as they come up: of each workflow its inputs, then task by task what it publishes, what it sets when it fails
and what it loops over. -/
def appearances (workflows : List Workflow) : List String :=
  workflows.flatMap fun workflow => workflow.inputs ++
    workflow.tasks.flatMap fun task => task.published ++ task.errorOutputs ++ task.loopVariable?.toList

theorem mem_appearances_iff {workflows : List Workflow} {name : String} :
    name ∈ appearances workflows ↔ ∃ workflow ∈ workflows, workflow.Declares name := by
  unfold appearances Declares
  rw [List.mem_flatMap]
  refine exists_congr fun workflow => and_congr_right fun _ => ?_
  rw [List.mem_append, mem_inputs_iff, List.mem_flatMap]
  refine or_congr_right (exists_congr fun task => and_congr_right fun _ => ?_)
  rw [List.mem_append, List.mem_append, Option.mem_toList, or_assoc, Task.loopVariable?_eq_some_iff, Task.published,
    Task.errorOutputs, Task.mem_keysOf_iff, Task.mem_keysOf_iff]

theorem variableNames_eq_firstSeen (workflows : List Workflow) :
    Listing.variableNames workflows = Listing.firstSeen [] (appearances workflows) :=
  rfl

theorem mem_variableNames_iff {workflows : List Workflow} {name : String} :
    name ∈ Listing.variableNames workflows ↔ ∃ workflow ∈ workflows, workflow.Declares name := by
  rw [variableNames_eq_firstSeen, Listing.mem_firstSeen_iff, mem_appearances_iff]
  simp only [List.not_mem_nil, not_false_iff, and_true]

/-- What a task may read, its workflow declares. -/
theorem declares_of_inScope {workflow : Workflow} {earlier later : List Task} {task : Task} {name : String}
    (htasks : workflow.tasks = earlier ++ task :: later) (h : Check.InScope workflow earlier task name) :
    workflow.Declares name := by
  rcases h with hinput | ⟨other, hother, hleft⟩ | hown
  · exact Or.inl hinput
  · have hmem : other ∈ workflow.tasks := by
      rw [htasks]
      exact List.mem_append_left _ hother
    rcases hleft with hpublished | hloop
    · exact Or.inr ⟨other, hmem, Or.inl (Task.mem_keysOf_iff.1 hpublished)⟩
    · exact Or.inr ⟨other, hmem, Or.inr (Or.inr (Task.loopVariable?_eq_some_iff.1 hloop))⟩
  · have hmem : task ∈ workflow.tasks := by
      rw [htasks]
      exact List.mem_append_right _ List.mem_cons_self
    exact Or.inr ⟨task, hmem, Or.inr (Or.inr (Task.loopVariable?_eq_some_iff.1 hown))⟩

/-- A workflow with tasks is a mapping. -/
theorem isSome_attributes_of_mem_tasks {workflow : Workflow} {task : Task} (h : task ∈ workflow.tasks) :
    workflow.attributes.isSome = true := by
  cases hattributes : workflow.attributes with
  | some attributes => rfl
  | none =>
    rw [tasks_eq_nil hattributes] at h
    exact absurd h List.not_mem_nil

end Workflow

/-! ## What is reported -/

namespace Check

/-- the diagnostic about a variable that an expression of a task reads and that is not in scope -/
def unknownVariable (workflow task : String) (range : Range) (name : String) : Diagnostic :=
  .structural ("Unknown YAQL variable '$." ++ name ++ "' in task '" ++ task ++ "' of workflow '" ++ workflow ++ "'") range

theorem sublist_flatMap_of_mem {α β : Type} (f : α → List β) {items : List α} {item : α} (h : item ∈ items) :
    (f item).Sublist (items.flatMap f) :=
  List.sublist_flatten_of_mem (List.mem_map_of_mem h)

/-- What is to be reported about one task is reported of the document. -/
theorem scopeReport_sublist_lintRoot {layout : Layout} {root : Mapping} {workflow : Workflow} {earlier later : List Task}
    {task : Task} (hworkflow : workflow ∈ Workflow.ofRoot root) (htasks : workflow.tasks = earlier ++ task :: later) :
    (scopeReport layout (occurrences layout.table) workflow earlier task).Sublist (lintRoot layout root) := by
  let found := occurrences layout.table
  have hmem : task ∈ workflow.tasks := by
    rw [htasks]
    exact List.mem_append_right _ List.mem_cons_self
  have hplace : (task, earlier.length) ∈ workflow.tasks.zipIdx := by
    rw [List.mem_zipIdx_iff_getElem?, htasks]
    simp
  have htask : (scopeReport layout found workflow earlier task).Sublist
      ((checkWorkflowScope layout found workflow).map Finding.diagnostic) := by
    have hreport := sublist_flatMap_of_mem
      (fun entry => scopeReport layout found workflow (workflow.tasks.take entry.2) entry.1) hplace
    rw [checkWorkflowScope_report, if_pos (Workflow.isSome_attributes_of_mem_tasks hmem)]
    simpa only [htasks, List.take_left] using hreport
  have hscope : ((checkWorkflowScope layout found workflow).map Finding.diagnostic).Sublist
      ((checkScope layout found root).map Finding.diagnostic) :=
    (sublist_flatMap_of_mem (checkWorkflowScope layout found) hworkflow).map _
  have hlint : ((checkScope layout found root).map Finding.diagnostic).Sublist (lintRoot layout root) := by
    unfold lintRoot
    simp only [List.append_assoc]
    apply List.Sublist.trans _ (List.sublist_append_right _ _)
    apply List.Sublist.trans _ (List.sublist_append_right _ _)
    exact List.sublist_append_left _ _
  exact (htask.trans hscope).trans hlint

/-- Names that are not in scope are reported one by one. -/
theorem unknownVariable_sublist_scopeReport {layout : Layout} {occurrences : List Occurrence} {workflow : Workflow}
    {earlier : List Task} {task : Task} {occurrence : Occurrence} {names : List String} (hmem : occurrence ∈ occurrences)
    (hspan : (layout.taskSpan workflow.name task.name).contains occurrence.range.start.line = true)
    (hnames : names.Sublist
      (((variableNames occurrence.body).map String.ofList).filter fun name => ¬ InScope workflow earlier task name)) :
    (names.map (unknownVariable workflow.name task.name occurrence.range)).Sublist
      (scopeReport layout occurrences workflow earlier task) := by
  unfold scopeReport
  refine List.Sublist.trans ?_ (sublist_flatMap_of_mem _ (List.mem_filter.2 ⟨hmem, hspan⟩))
  exact (hnames.map _).trans (List.sublist_append_left _ _)

/-- **The list for completion bounds the scope.** Take the list that is offered for a document, and the workflows that the
checks find under its root. Each name stands in the list once, in the order in which names first come up when going through
the workflows, and the names in it are exactly those that some workflow declares. Every name that the scope check accepts for
a task is in the list. So of each expression on a task's lines, every `$.name` that is not in the list is reported, match by
match and in order. -/
theorem declared_variables_bound_scope (text : List Char) (value : Value) (root : Mapping)
    (hparse : Yaml.parse text = .ok value) (hroot : value.mapping? = some root) :
    let listed := Listing.variableNames (Workflow.ofText text)
    let workflows := Workflow.ofRoot root
    let layout := Layout.ofText text
    listed.Nodup ∧
    (listed.Pairwise fun a b =>
      (Workflow.appearances workflows).idxOf a < (Workflow.appearances workflows).idxOf b) ∧
    (∀ name, name ∈ listed ↔ ∃ workflow ∈ workflows, workflow.Declares name) ∧
    (∀ workflow ∈ workflows, ∀ earlier task later, workflow.tasks = earlier ++ task :: later →
      ∀ name, InScope workflow earlier task name → name ∈ listed) ∧
    ∀ workflow ∈ workflows, ∀ task ∈ workflow.tasks, ∀ occurrence ∈ occurrences layout.table,
      (layout.taskSpan workflow.name task.name).contains occurrence.range.start.line = true →
      ∀ names, Captures VariableMatch occurrence.body names →
        (((names.map String.ofList).filter fun name => name ∉ listed).map
          (unknownVariable workflow.name task.name occurrence.range)).Sublist (lint text) := by
  intro listed workflows layout
  have hlisted : listed = Listing.variableNames workflows := by
    show Listing.variableNames (Workflow.ofText text) = _
    rw [Workflow.ofText_of_root hparse hroot]
  have haccepted : ∀ workflow ∈ workflows, ∀ earlier task later, workflow.tasks = earlier ++ task :: later →
      ∀ name, InScope workflow earlier task name → name ∈ listed := by
    intro workflow hworkflow earlier task later htasks name hscope
    rw [hlisted]
    exact Workflow.mem_variableNames_iff.2 ⟨workflow, hworkflow, Workflow.declares_of_inScope htasks hscope⟩
  refine ⟨?_, ?_, ?_, haccepted, ?_⟩
  · rw [hlisted]
    exact Listing.nodup_firstSeen _ _
  · rw [hlisted]
    exact Listing.firstSeen_pairwise _ _
  · intro name
    rw [hlisted]
    exact Workflow.mem_variableNames_iff
  intro workflow hworkflow task htask occurrence hoccurrence hspan names hnames
  obtain rfl := captures_variableNames_iff.1 hnames
  obtain ⟨earlier, later, htasks⟩ := List.append_of_mem htask
  have hunlisted : ∀ name, decide (name ∉ listed) = true → decide (¬ InScope workflow earlier task name) = true := by
    intro name hname
    rw [decide_eq_true_iff] at hname ⊢
    exact fun hscope => hname (haccepted workflow hworkflow earlier task later htasks name hscope)
  rw [lint_of_root hparse hroot]
  exact (unknownVariable_sublist_scopeReport hoccurrence hspan (List.monotone_filter_right _ hunlisted)).trans
    (scopeReport_sublist_lintRoot hworkflow htasks)

/-- two workflows: what one of them declares is in the list, but the other may not read it -/
def sharedNames : List Char :=
  "workflows:\n  w:\n    input: [a]\n  x:\n    tasks:\n      u:\n        action: <% $.a + $.c %>\n".toList

/-- Of the two variables that are not in scope, one is listed nowhere. -/
theorem unlisted_variable_reported :
    Listing.variableNames (Workflow.ofText sharedNames) = ["a"] ∧
      [unknownVariable "x" "u" ⟨⟨6, 16⟩, ⟨6, 31⟩⟩ "c"].Sublist (lint sharedNames) := by
  have hsample : Listing.variableNames (Workflow.ofText sharedNames) = ["a"] ∧
      ∃ workflow ∈ Workflow.ofText sharedNames, ∃ task ∈ workflow.tasks,
        ∃ occurrence ∈ occurrences (Layout.ofText sharedNames).table, workflow.name = "x" ∧ task.name = "u" ∧
          occurrence.range = ⟨⟨6, 16⟩, ⟨6, 31⟩⟩ ∧
          ((Layout.ofText sharedNames).taskSpan workflow.name task.name).contains occurrence.range.start.line = true ∧
          variableNames occurrence.body = [['a'], ['c']] := by
    decide +kernel
  obtain ⟨hlisted, workflow, hworkflow, task, htask, occurrence, hoccurrence, hw, ht, hrange, hspan, hnames⟩ := hsample
  obtain ⟨value, root, hparse, hroot⟩ := Workflow.exists_root_of_mem_ofText hworkflow
  obtain ⟨-, -, -, -, hreported⟩ := declared_variables_bound_scope sharedNames value root hparse hroot
  rw [Workflow.ofText_of_root hparse hroot] at hworkflow
  have hreport := hreported workflow hworkflow task htask occurrence hoccurrence hspan _ (captures_variableNames_iff.2 rfl)
  have hunlisted : ([['a'], ['c']].map String.ofList).filter (fun name => name ∉ ["a"]) = ["c"] := by decide
  rw [hlisted, hnames, hw, ht, hrange, hunlisted] at hreport
  exact ⟨hlisted, hreport⟩

end Check

end WorkflowLint
