/-
The scope check reports exactly the references that nothing before the task accounts for.

The check carries the variables in scope from task to task. Here the scope of a task is said without that: `InScope` is
what the workflow declares as inputs, what the tasks declared strictly earlier leave behind, and the task's own loop
variable. `scopeReport` lists what is to be reported about one task, and `checkScope_report` says that the check's findings
are these lists, task by task and workflow by workflow.

The invariant that carries the proof is in `checkScopeFrom_report`: the scope before a task is the inputs together with
what all the tasks before it leave.
-/
import WorkflowLint.Check.Scope
import WorkflowLint.Proofs.References

namespace WorkflowLint

open WorkflowLint.Expression WorkflowLint.Yaml

/-! ## What a workflow declares -/

namespace Workflow

/-- The workflow declares an input: as an item of a list, as a key of a mapping in such a list, or as a key of a mapping.
Tags on any of these play no part. -/
def DeclaresInput (workflow : Workflow) (name : String) : Prop :=
  ∃ value, workflow.get? "input" = some value ∧
    ((∃ items, value.bare = .seq items ∧ ∃ item ∈ items,
        item.bare = .str name ∨ ∃ entries, item.bare = .map entries ∧ name ∈ Mapping.labels entries) ∨
      ∃ entries, value.bare = .map entries ∧ name ∈ Mapping.labels entries)

theorem mem_inputNames_iff {item : Value} {name : String} :
    name ∈ inputNames item ↔
      item.bare = .str name ∨ ∃ entries, item.bare = .map entries ∧ name ∈ Mapping.labels entries := by
  unfold inputNames
  split
  case h_1 other h => simp [h, eq_comm]
  case h_2 entries h => simp [h]
  case h_3 hstr hmap =>
    simp only [List.not_mem_nil, false_iff, not_or, not_exists, not_and]
    exact ⟨hstr name, fun entries h => absurd h (hmap entries)⟩

theorem mem_inputs_iff {workflow : Workflow} {name : String} :
    name ∈ workflow.inputs ↔ workflow.DeclaresInput name := by
  unfold inputs DeclaresInput
  cases workflow.get? "input" with
  | none => simp
  | some value =>
    simp only [Option.some.injEq, exists_eq_left']
    split
    case h_1 items h => simp [h, mem_inputNames_iff]
    case h_2 entries h => simp [h]
    case h_3 hseq hmap =>
      simp only [List.not_mem_nil, false_iff, not_or, not_exists, not_and]
      exact ⟨fun items h => absurd h (hseq items), fun entries h => absurd h (hmap entries)⟩

/-- What is no mapping has no tasks. -/
theorem tasks_eq_nil {workflow : Workflow} (h : workflow.attributes = none) : workflow.tasks = [] := by
  unfold tasks taskEntries? get?
  rw [h]
  rfl

/-- `tasks` is a mapping that has the given string as a key -/
def DeclaresTask (workflow : Workflow) (name : String) : Prop :=
  ∃ entries, workflow.taskEntries? = some entries ∧ ∃ value, (Value.str name, value) ∈ entries

theorem isSome_field?_iff {entries : Mapping} {key : String} :
    (Mapping.field? entries key).isSome = true ↔ ∃ value, (Value.str key, value) ∈ entries := by
  fun_induction Mapping.field? entries key with
  | case1 => simp
  | case2 value rest => simp
  | case3 k value rest hk ih => simp [ih, Ne.symm hk]
  | case4 entry rest hne ih =>
    rw [ih]
    refine exists_congr fun value => ⟨List.mem_cons_of_mem _, fun h => ?_⟩
    rcases List.mem_cons.1 h with h | h
    · exact absurd h.symm (hne key value)
    · exact h

theorem hasTask_iff {workflow : Workflow} {name : String} :
    workflow.hasTask name = true ↔ workflow.DeclaresTask name := by
  unfold hasTask DeclaresTask
  cases workflow.taskEntries? with
  | none => simp
  | some entries => simp [isSome_field?_iff]

instance (workflow : Workflow) (name : String) : Decidable (workflow.DeclaresTask name) :=
  decidable_of_iff _ hasTask_iff

end Workflow

/-! ## The scope of a task -/

namespace Check

/-- a variable that a task may read, where `earlier` are the tasks declared before it -/
def InScope (workflow : Workflow) (earlier : List Task) (task : Task) (name : String) : Prop :=
  workflow.DeclaresInput name ∨
    (∃ other ∈ earlier, name ∈ other.published ∨ other.loopVariable? = some name) ∨
    task.loopVariable? = some name

theorem inScope_iff {workflow : Workflow} {earlier : List Task} {task : Task} {name : String} :
    ((workflow.inputs ++ earlier.flatMap leaves).contains name || task.loopVariable? == some name) = true ↔
      InScope workflow earlier task name := by
  simp [InScope, leaves, Workflow.mem_inputs_iff, or_assoc]

instance (workflow : Workflow) (earlier : List Task) (task : Task) (name : String) :
    Decidable (InScope workflow earlier task name) :=
  decidable_of_iff _ inScope_iff

/-- What is to be reported about one task: of each expression on its lines, first the variables that are not in scope, then
the tasks that are not declared, each with the range of the expression. -/
def scopeReport (layout : Layout) (occurrences : List Occurrence) (workflow : Workflow) (earlier : List Task)
    (task : Task) : List Diagnostic :=
  (occurrences.filter fun occurrence =>
      (layout.taskSpan workflow.name task.name).contains occurrence.range.start.line).flatMap fun occurrence =>
    (((variableNames occurrence.body).map String.ofList).filter fun name =>
        ¬ InScope workflow earlier task name).map (fun name =>
      Diagnostic.structural ("Unknown YAQL variable '$." ++ name ++ "' in task '" ++ task.name ++ "' of workflow '" ++
        workflow.name ++ "'") occurrence.range) ++
    (((taskReferences occurrence.body).map String.ofList).filter fun name =>
        ¬ workflow.DeclaresTask name).map (fun name =>
      Diagnostic.structural ("Unknown task reference '" ++ name ++ "' in YAQL expression of task '" ++ task.name ++ "'")
        occurrence.range)

/-- Requiring a condition of each name reports the names that do not meet it. -/
theorem diagnostics_require (names : List String) (condition : String → Bool) (problem : String → Problem)
    (range : Range) :
    (names.flatMap fun name => require (condition name) (problem name) range).map Finding.diagnostic =
      (names.filter fun name => !condition name).map fun name => .structural (problem name).message range := by
  induction names with
  | nil => rfl
  | cons name names ih =>
    rw [List.flatMap_cons, List.map_append, ih]
    cases hc : condition name with
    | true => simp [require, hc]
    | false => simp [require, hc, Finding.diagnostic]

theorem checkReferences_diagnostics (workflow : Workflow) (earlier : List Task) (task : Task) (occurrence : Occurrence) :
    (checkReferences workflow (workflow.inputs ++ earlier.flatMap leaves) task occurrence).map Finding.diagnostic =
      (((variableNames occurrence.body).map String.ofList).filter fun name =>
          ¬ InScope workflow earlier task name).map (fun name =>
        (⟨.unknownVariable name task.name workflow.name, occurrence.range⟩ : Finding).diagnostic) ++
      (((taskReferences occurrence.body).map String.ofList).filter fun name =>
          ¬ workflow.DeclaresTask name).map (fun name =>
        (⟨.unknownTask name task.name, occurrence.range⟩ : Finding).diagnostic) := by
  have hscope : ∀ name, (!((workflow.inputs ++ earlier.flatMap leaves).contains name ||
      task.loopVariable? == some name)) = decide (¬ InScope workflow earlier task name) := by
    intro name
    rw [Bool.eq_iff_iff, decide_eq_true_iff, ← inScope_iff, Bool.not_eq_true', Bool.not_eq_true]
  have htask : ∀ name, (!workflow.hasTask name) = decide (¬ workflow.DeclaresTask name) := by
    intro name
    rw [Bool.eq_iff_iff, decide_eq_true_iff, ← Workflow.hasTask_iff, Bool.not_eq_true', Bool.not_eq_true]
  rw [checkReferences, List.map_append, diagnostics_require, diagnostics_require]
  simp only [hscope, htask]
  rfl

/-- The findings about the tasks from one of them on, when what the tasks before it leave has come into scope. -/
theorem checkScopeFrom_report (layout : Layout) (occurrences : List Occurrence) (workflow : Workflow)
    (earlier rest : List Task) :
    (checkScopeFrom layout workflow occurrences (workflow.inputs ++ earlier.flatMap leaves) rest).map
        Finding.diagnostic =
      (rest.zipIdx earlier.length).flatMap fun entry =>
        scopeReport layout occurrences workflow ((earlier ++ rest).take entry.2) entry.1 := by
  induction rest generalizing earlier with
  | nil => rfl
  | cons task rest ih =>
    have hscope : workflow.inputs ++ earlier.flatMap leaves ++ leaves task =
        workflow.inputs ++ (earlier ++ [task]).flatMap leaves := by simp
    have hrest := ih (earlier ++ [task])
    rw [List.append_assoc, List.length_append] at hrest
    rw [checkScopeFrom, List.map_append, hscope, hrest, List.zipIdx_cons, List.flatMap_cons]
    congr 1
    rw [List.take_left, List.map_flatMap, scopeReport]
    simp only [checkReferences_diagnostics]
    rfl

theorem checkWorkflowScope_report (layout : Layout) (occurrences : List Occurrence) (workflow : Workflow) :
    (checkWorkflowScope layout occurrences workflow).map Finding.diagnostic =
      if workflow.attributes.isSome then
        workflow.tasks.zipIdx.flatMap fun entry =>
          scopeReport layout occurrences workflow (workflow.tasks.take entry.2) entry.1
      else [] := by
  unfold checkWorkflowScope
  cases workflow.attributes with
  | none => simp
  | some attributes => simpa using checkScopeFrom_report layout occurrences workflow [] workflow.tasks

/-- The report about a task depends on its workflow only by name, inputs and declared tasks. -/
theorem scopeReport_congr (layout : Layout) (occurrences : List Occurrence) {workflow other : Workflow}
    (earlier : List Task) (task : Task) (hname : other.name = workflow.name)
    (hinput : ∀ name, other.DeclaresInput name ↔ workflow.DeclaresInput name)
    (htask : ∀ name, other.DeclaresTask name ↔ workflow.DeclaresTask name) :
    scopeReport layout occurrences other earlier task = scopeReport layout occurrences workflow earlier task := by
  have hscope : ∀ name, InScope other earlier task name ↔ InScope workflow earlier task name := by
    intro name
    simp only [InScope, hinput]
  simp only [scopeReport, hname, hscope, htask]

/-- **What the scope check reports.** Of each workflow that is a mapping, in document order, it reports `scopeReport` of each
task, in order of declaration, with the tasks strictly before it. The names in a report are what searches from left to
right for `$.name` and for `task('name')` capture. A task's report is the same in any workflow with the same name, inputs
and task keys, whatever other workflows there are and whatever later tasks publish. -/
theorem checkScope_report (layout : Layout) (occurrences : List Occurrence) (root : Mapping) :
    (checkScope layout occurrences root).map Finding.diagnostic =
      ((Workflow.ofRoot root).filter fun workflow => workflow.attributes.isSome).flatMap (fun workflow =>
        workflow.tasks.zipIdx.flatMap fun entry =>
          scopeReport layout occurrences workflow (workflow.tasks.take entry.2) entry.1) ∧
    (∀ text names, Captures VariableMatch text names ↔ names = variableNames text) ∧
    (∀ text names, Captures TaskMatch text names ↔ names = taskReferences text) ∧
    ∀ (workflow other : Workflow) (earlier : List Task) (task : Task), other.name = workflow.name →
      (∀ name, other.DeclaresInput name ↔ workflow.DeclaresInput name) →
      (∀ name, other.DeclaresTask name ↔ workflow.DeclaresTask name) →
      scopeReport layout occurrences other earlier task = scopeReport layout occurrences workflow earlier task := by
  refine ⟨?_, fun text names => captures_variableNames_iff, fun text names => captures_taskReferences_iff,
    fun workflow other earlier task => scopeReport_congr layout occurrences earlier task⟩
  rw [checkScope, List.map_flatMap]
  simp only [checkWorkflowScope_report]
  induction Workflow.ofRoot root with
  | nil => rfl
  | cons workflow workflows ih =>
    rw [List.flatMap_cons, ih, List.filter_cons]
    split <;> simp

end Check

end WorkflowLint
