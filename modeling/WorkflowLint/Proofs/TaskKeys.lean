/-
Names of tasks against keys of `tasks`.

A task's name is the label of its key, and every part of the linter but one goes by names: the list of tasks, their graph,
requirements, successors, names in messages. A reference `task('name')` goes by keys instead: `Workflow.hasTask` asks for an
entry whose key is that very string, without a tag. So a task whose key is written as a number, a truth value, null or with a
tag has a name, but no reference to it is accepted (`numbered_task_unknown`).

`hasTask_agrees_on_string_keys` says how far the two agree. What a reference accepts is always a task's name. A name is
refused exactly if none of the keys with that label is the plain string, so there is no difference where all keys are plain
strings; and there a reference is reported exactly if no task has the name.
-/
import WorkflowLint.Lint
import WorkflowLint.Listing
import WorkflowLint.Proofs.Scope
import WorkflowLint.Workflow.Graph

namespace WorkflowLint

open WorkflowLint.Expression WorkflowLint.Yaml

/-! ## Keys and names -/

namespace Workflow

/-- the keys of `tasks`, in document order; none if it is no mapping -/
def taskKeys (workflow : Workflow) : List Value :=
  (workflow.taskEntries?.getD []).map Prod.fst

theorem map_name_tasks (workflow : Workflow) : workflow.tasks.map Task.name = workflow.taskKeys.map Value.label := by
  unfold tasks taskKeys
  cases workflow.taskEntries? with
  | none => rfl
  | some entries =>
    simp only [Option.getD_some, List.map_map]
    rfl

theorem exists_task_iff {workflow : Workflow} {name : String} :
    (∃ task ∈ workflow.tasks, task.name = name) ↔ ∃ key ∈ workflow.taskKeys, key.label = name := by
  have hnames : name ∈ workflow.tasks.map Task.name ↔ name ∈ workflow.taskKeys.map Value.label := by
    rw [map_name_tasks]
  rwa [List.mem_map, List.mem_map] at hnames

theorem mem_nodes_iff {workflow : Workflow} {name : String} :
    name ∈ (TaskGraph.ofWorkflow workflow).nodes ↔ ∃ task ∈ workflow.tasks, task.name = name :=
  List.mem_map

theorem hasTask_iff_mem_taskKeys {workflow : Workflow} {name : String} :
    workflow.hasTask name = true ↔ Value.str name ∈ workflow.taskKeys := by
  rw [hasTask_iff, DeclaresTask, taskKeys]
  cases workflow.taskEntries? with
  | none => simp
  | some entries => simp

/-- What a reference accepts is the name of a task. -/
theorem exists_task_of_hasTask {workflow : Workflow} {name : String} (h : workflow.hasTask name = true) :
    ∃ task ∈ workflow.tasks, task.name = name := by
  rw [exists_task_iff]
  exact ⟨.str name, hasTask_iff_mem_taskKeys.1 h, rfl⟩

/-- A name is refused exactly if no key with that label is the plain string. -/
theorem hasTask_eq_false_iff {workflow : Workflow} {name : String} :
    workflow.hasTask name = false ↔ ∀ key ∈ workflow.taskKeys, key.label = name → ∀ s, key ≠ .str s := by
  rw [← Bool.not_eq_true, hasTask_iff_mem_taskKeys]
  constructor
  · rintro hno key hkey hlabel s rfl
    obtain rfl : s = name := hlabel
    exact hno hkey
  · intro h hmem
    exact h _ hmem rfl name rfl

theorem hasTask_iff_of_string_keys {workflow : Workflow} (hkeys : ∀ key ∈ workflow.taskKeys, ∃ s, key = .str s)
    {name : String} : workflow.hasTask name = true ↔ ∃ task ∈ workflow.tasks, task.name = name := by
  constructor
  · exact exists_task_of_hasTask
  · rw [exists_task_iff]
    rintro ⟨key, hkey, hlabel⟩
    obtain ⟨s, rfl⟩ := hkeys key hkey
    obtain rfl : s = name := hlabel
    exact hasTask_iff_mem_taskKeys.2 hkey

end Workflow

/-! ## Reports of references -/

namespace Check

/-- an expression on the lines of a task, with the given range, refers to a task by name -/
def Refers (layout : Layout) (occurrences : List Occurrence) (workflow : String) (task : Task) (name : String)
    (range : Range) : Prop :=
  ∃ occurrence ∈ occurrences, (layout.taskSpan workflow task.name).contains occurrence.range.start.line = true ∧
    occurrence.range = range ∧ name ∈ (taskReferences occurrence.body).map String.ofList

theorem mem_require_iff {condition : Bool} {problem : Problem} {range : Range} {finding : Finding} :
    finding ∈ require condition problem range ↔ condition = false ∧ finding = ⟨problem, range⟩ := by
  cases condition with
  | false => simp [require]
  | true => simp [require]

theorem mem_checkReferences_unknownTask_iff {workflow : Workflow} {scope : List String} {task : Task}
    {occurrence : Occurrence} {name taskName : String} {range : Range} :
    ⟨.unknownTask name taskName, range⟩ ∈ checkReferences workflow scope task occurrence ↔
      task.name = taskName ∧ occurrence.range = range ∧ name ∈ (taskReferences occurrence.body).map String.ofList ∧
        workflow.hasTask name = false := by
  unfold checkReferences
  rw [List.mem_append, List.mem_flatMap, List.mem_flatMap]
  constructor
  · rintro (⟨other, -, hrequire⟩ | ⟨other, hmem, hrequire⟩)
    · -- a finding about a variable
      cases (mem_require_iff.1 hrequire).2
    · obtain ⟨hunknown, heq⟩ := mem_require_iff.1 hrequire
      cases heq
      exact ⟨rfl, rfl, hmem, hunknown⟩
  · rintro ⟨rfl, rfl, hmem, hunknown⟩
    exact Or.inr ⟨name, hmem, mem_require_iff.2 ⟨hunknown, rfl⟩⟩

theorem mem_checkScopeFrom_unknownTask_iff {layout : Layout} {occurrences : List Occurrence} {workflow : Workflow}
    {scope : List String} {tasks : List Task} {name taskName : String} {range : Range} :
    ⟨.unknownTask name taskName, range⟩ ∈ checkScopeFrom layout workflow occurrences scope tasks ↔
      (∃ task ∈ tasks, task.name = taskName ∧ Refers layout occurrences workflow.name task name range) ∧
        workflow.hasTask name = false := by
  induction tasks generalizing scope with
  | nil => simp [checkScopeFrom]
  | cons task rest ih =>
    rw [checkScopeFrom, List.mem_append, ih, List.mem_flatMap]
    constructor
    · rintro (⟨occurrence, howned, hfinding⟩ | ⟨⟨other, hother, hrefers⟩, hunknown⟩)
      · obtain ⟨hmem, hspan⟩ := List.mem_filter.1 howned
        obtain ⟨hname, hrange, hreference, hunknown⟩ := mem_checkReferences_unknownTask_iff.1 hfinding
        exact ⟨⟨task, List.mem_cons_self, hname, occurrence, hmem, hspan, hrange, hreference⟩, hunknown⟩
      · exact ⟨⟨other, List.mem_cons_of_mem _ hother, hrefers⟩, hunknown⟩
    · rintro ⟨⟨other, hother, hname, occurrence, hmem, hspan, hrange, hreference⟩, hunknown⟩
      rcases List.mem_cons.1 hother with rfl | hlater
      · left
        refine ⟨occurrence, List.mem_filter.2 ⟨hmem, hspan⟩, ?_⟩
        exact mem_checkReferences_unknownTask_iff.2 ⟨hname, hrange, hreference, hunknown⟩
      · right
        exact ⟨⟨other, hlater, hname, occurrence, hmem, hspan, hrange, hreference⟩, hunknown⟩

/-- **Which references are reported.** Those that an expression of some task makes and that `hasTask` refuses. -/
theorem mem_checkWorkflowScope_unknownTask_iff {layout : Layout} {occurrences : List Occurrence} {workflow : Workflow}
    {name taskName : String} {range : Range} :
    ⟨.unknownTask name taskName, range⟩ ∈ checkWorkflowScope layout occurrences workflow ↔
      (∃ task ∈ workflow.tasks, task.name = taskName ∧ Refers layout occurrences workflow.name task name range) ∧
        workflow.hasTask name = false := by
  unfold checkWorkflowScope
  split
  case isTrue hnone => simp [Workflow.tasks_eq_nil (Option.isNone_iff_eq_none.1 hnone)]
  case isFalse => exact mem_checkScopeFrom_unknownTask_iff

end Check

/-! ## Agreement -/

namespace Workflow

/-- a document with one task, which refers to itself and whose key is written as a number -/
def numbered : List Char :=
  "version: '2.0'\nworkflows:\n  wf:\n    tasks:\n      1:\n        action: <% task('1') %>".toList

/-- **A task that no reference finds.** It is called `1` and is a node of the graph under that name; yet the reference to it is
the only thing that is reported of the document. -/
theorem numbered_task_unknown :
    (∃ workflow ∈ Workflow.ofText numbered,
      "1" ∈ (TaskGraph.ofWorkflow workflow).nodes ∧ workflow.hasTask "1" = false) ∧
    lint numbered =
      [.structural "Unknown task reference '1' in YAQL expression of task '1'" ⟨⟨5, 16⟩, ⟨5, 31⟩⟩] := by
  constructor
  · decide +kernel
  · decide +kernel

/-- **How far keys and names agree.** The nodes of the graph are the names of the tasks. A reference accepts names of tasks
only, and refuses a name exactly if no key with that label is a plain string. Where all keys are plain strings, it accepts
exactly the nodes of the graph, and what is reported of the tasks' expressions is exactly the references to what is no
node. -/
theorem hasTask_agrees_on_string_keys (workflow : Workflow) :
    (∀ name, name ∈ (TaskGraph.ofWorkflow workflow).nodes ↔ ∃ task ∈ workflow.tasks, task.name = name) ∧
    (∀ name, workflow.hasTask name = true → ∃ task ∈ workflow.tasks, task.name = name) ∧
    (∀ name, workflow.hasTask name = false ↔ ∀ key ∈ workflow.taskKeys, key.label = name → ∀ s, key ≠ .str s) ∧
    ((∀ key ∈ workflow.taskKeys, ∃ s, key = .str s) →
      ∀ name, (workflow.hasTask name = true ↔ name ∈ (TaskGraph.ofWorkflow workflow).nodes) ∧
        ∀ layout occurrences taskName range,
          ⟨.unknownTask name taskName, range⟩ ∈ Check.checkWorkflowScope layout occurrences workflow ↔
            (∃ task ∈ workflow.tasks, task.name = taskName ∧
              Check.Refers layout occurrences workflow.name task name range) ∧
            name ∉ (TaskGraph.ofWorkflow workflow).nodes) := by
  refine ⟨fun name => mem_nodes_iff, fun name => exists_task_of_hasTask, fun name => hasTask_eq_false_iff, ?_⟩
  intro hkeys name
  have hagree : workflow.hasTask name = true ↔ name ∈ (TaskGraph.ofWorkflow workflow).nodes :=
    (hasTask_iff_of_string_keys hkeys).trans mem_nodes_iff.symm
  refine ⟨hagree, ?_⟩
  intro layout occurrences taskName range
  rw [Check.mem_checkWorkflowScope_unknownTask_iff, ← hagree, Bool.not_eq_true]

end Workflow

end WorkflowLint
