/-
Tags on values change nothing.

`Value.untagged` takes every tag off that stands on a value: on the root, on the values of mappings and on the items of
sequences, at any depth, and any number of tags on top of each other. Keys keep theirs. Every accessor commutes with it:
what is found in the untagged value is the untagged form of what was found before, and a text that is read off is the same.
So the views of an untagged document are the untagged views (`Workflow.ofRoot_untagged`, `Workflow.tasks_untagged`), and each
analysis, which goes by the views, comes out the same. `tags_invisible` says so of all of them.
-/
import WorkflowLint.Diagram
import WorkflowLint.Lint

namespace WorkflowLint

/-! ## Taking tags off -/

namespace Yaml

namespace Value

mutual

/-- the value without the tags on it and on the values in it -/
def untagged : Value → Value
  | tagged _ value => untagged value
  | seq items => seq (untaggedItems items)
  | map entries => map (untaggedEntries entries)
  | value => value

/-- the items, each without its tags -/
def untaggedItems : List Value → List Value
  | [] => []
  | item :: rest => untagged item :: untaggedItems rest

/-- the entries, each with its key as it is and its value without tags -/
def untaggedEntries : List (Value × Value) → List (Value × Value)
  | [] => []
  | (key, value) :: rest => (key, untagged value) :: untaggedEntries rest

end

theorem untaggedItems_eq_map (items : List Value) : untaggedItems items = items.map untagged := by
  induction items with
  | nil => rfl
  | cons item items ih => rw [untaggedItems, ih, List.map_cons]

/-- What is left of an untagged value when its tags are taken off is the value itself, and the tags of a value do not matter to
its untagged form. -/
theorem bare_untagged (value : Value) : value.untagged.bare = value.bare.untagged := by
  induction value using bare.induct with
  | case1 tag value ih => rw [untagged, ih, bare]
  | case2 value hne =>
    cases value with
    | tagged tag value => exact absurd rfl (hne tag value)
    | _ => rfl

end Value

/-- the entries with untagged values -/
def Mapping.untagged (entries : Mapping) : Mapping :=
  entries.map fun entry => (entry.1, entry.2.untagged)

namespace Value

theorem untaggedEntries_eq (entries : Mapping) : untaggedEntries entries = entries.untagged := by
  induction entries with
  | nil => rfl
  | cons entry entries ih =>
    rw [untaggedEntries, ih]
    rfl

theorem bare_ne_tagged (value : Value) (tag : String) (inner : Value) : value.bare ≠ tagged tag inner := by
  induction value using bare.induct with
  | case1 tag value ih => exact ih
  | case2 value hne =>
    intro h
    cases value with
    | tagged tag value => exact hne tag value rfl
    | _ => exact nomatch h

@[simp]
theorem mapping?_untagged (value : Value) : value.untagged.mapping? = value.mapping?.map Mapping.untagged := by
  rw [mapping?, mapping?, bare_untagged]
  cases h : value.bare with
  | tagged tag inner => exact absurd h (value.bare_ne_tagged tag inner)
  | map entries => simp [untagged, untaggedEntries_eq]
  | _ => rfl

@[simp]
theorem items?_untagged (value : Value) : value.untagged.items? = value.items?.map (List.map untagged) := by
  rw [items?, items?, bare_untagged]
  cases h : value.bare with
  | tagged tag inner => exact absurd h (value.bare_ne_tagged tag inner)
  | seq items => simp [untagged, untaggedItems_eq_map]
  | _ => rfl

@[simp]
theorem string?_untagged (value : Value) : value.untagged.string? = value.string? := by
  rw [string?, string?, bare_untagged]
  cases h : value.bare with
  | tagged tag inner => exact absurd h (value.bare_ne_tagged tag inner)
  | _ => rfl

@[simp]
theorem isNull_untagged (value : Value) : value.untagged.isNull = value.isNull := by
  rw [isNull, isNull, bare_untagged]
  cases h : value.bare with
  | tagged tag inner => exact absurd h (value.bare_ne_tagged tag inner)
  | _ => rfl

@[simp]
theorem label_untagged (value : Value) : value.untagged.label = value.label := by
  rw [label, label, bare_untagged]
  cases h : value.bare with
  | tagged tag inner => exact absurd h (value.bare_ne_tagged tag inner)
  | _ => rfl

end Value

namespace Mapping

@[simp]
theorem field?_untagged (entries : Mapping) (key : String) :
    field? entries.untagged key = (field? entries key).map Value.untagged := by
  induction entries with
  | nil => rfl
  | cons entry rest ih =>
    obtain ⟨k, value⟩ := entry
    cases k with
    | str s =>
      show (if s = key then some value.untagged else field? (untagged rest) key) =
        (if s = key then some value else field? rest key).map Value.untagged
      rw [ih, apply_ite (Option.map Value.untagged)]
      rfl
    | _ => exact ih

@[simp]
theorem present?_untagged (entries : Mapping) (key : String) :
    present? entries.untagged key = (present? entries key).map Value.untagged := by
  rw [present?, present?, field?_untagged]
  cases field? entries key with
  | none => rfl
  | some value => cases h : value.isNull <;> simp [Option.filter, h]

@[simp]
theorem labels_untagged (entries : Mapping) : labels entries.untagged = labels entries := by
  simp [labels, untagged]

end Mapping

@[simp]
theorem Value.keyLabels_untagged (value : Value) : value.untagged.keyLabels = value.keyLabels := by
  rw [keyLabels, keyLabels, mapping?_untagged]
  cases value.mapping? with
  | none => rfl
  | some entries => exact Mapping.labels_untagged entries

end Yaml

open Yaml

/-! ## Tasks -/

namespace Task

/-- the task with untagged attributes -/
def untagged (task : Task) : Task :=
  ⟨task.name, task.attributes.map Mapping.untagged⟩

@[simp]
theorem ofEntry_untagged (key value : Value) : ofEntry (key, value.untagged) = (ofEntry (key, value)).untagged := by
  simp [ofEntry, untagged]

@[simp]
theorem name_untagged (task : Task) : task.untagged.name = task.name :=
  rfl

@[simp]
theorem isNone_attributes_untagged (task : Task) : task.untagged.attributes.isNone = task.attributes.isNone := by
  simp [untagged]

@[simp]
theorem field?_untagged (task : Task) (key : String) : task.untagged.field? key = (task.field? key).map Value.untagged := by
  cases h : task.attributes <;> simp [field?, untagged, h]

@[simp]
theorem get?_untagged (task : Task) (key : String) : task.untagged.get? key = (task.get? key).map Value.untagged := by
  cases h : task.attributes <;> simp [get?, untagged, h]

@[simp]
theorem hasJoin_untagged (task : Task) : task.untagged.hasJoin = task.hasJoin := by
  simp [hasJoin]

theorem keysOf_untagged (task : Task) (key : String) : task.untagged.keysOf key = task.keysOf key := by
  rw [keysOf, keysOf, get?_untagged]
  cases task.get? key with
  | none => rfl
  | some value => exact value.keyLabels_untagged

@[simp]
theorem published_untagged (task : Task) : task.untagged.published = task.published :=
  task.keysOf_untagged "publish"

@[simp]
theorem errorOutputs_untagged (task : Task) : task.untagged.errorOutputs = task.errorOutputs :=
  task.keysOf_untagged "output-on-error"

@[simp]
theorem loopVariable?_untagged (task : Task) : task.untagged.loopVariable? = task.loopVariable? := by
  rw [loopVariable?, loopVariable?, get?_untagged]
  cases task.get? "with-items" with
  | none => rfl
  | some value =>
    simp only [Option.map_some, Option.bind_some, Value.mapping?_untagged]
    cases value.mapping? with
    | none => rfl
    | some loop =>
      simp only [Option.map_some, Option.bind_some, Mapping.present?_untagged]
      cases Mapping.present? loop "item" with
      | none => rfl
      | some item => exact item.string?_untagged

@[simp]
theorem requirement_untagged (task : Task) : task.untagged.requirement = task.requirement := by
  rw [requirement, requirement, get?_untagged]
  cases task.get? "requires" with
  | none => rfl
  | some value =>
    simp only [Option.map_some, Value.items?_untagged]
    cases value.items? with
    | none => rfl
    | some items =>
      cases items with
      | nil => rfl
      | cons item items => simp [Function.comp_def, List.filterMap_cons, List.filterMap_map]

theorem successor?_untagged (item : Value) : successor? item.untagged = successor? item := by
  rw [successor?, successor?, Value.bare_untagged]
  cases h : item.bare with
  | tagged tag inner => exact absurd h (item.bare_ne_tagged tag inner)
  | map entries =>
    match entries with
    | [] => rfl
    | [_] => rfl
    | _ :: _ :: _ => rfl
  | _ => rfl

@[simp]
theorem successors_untagged (task : Task) (transition : Transition) :
    task.untagged.successors transition = task.successors transition := by
  rw [successors, successors, get?_untagged]
  cases task.get? transition.key with
  | none => rfl
  | some value =>
    simp only [Option.map_some, Value.bare_untagged]
    cases h : value.bare with
    | tagged tag inner => exact absurd h (value.bare_ne_tagged tag inner)
    | seq items =>
      simp only [Value.untagged, Value.untaggedItems_eq_map, List.filterMap_map, Function.comp_def, successor?_untagged]
    | _ => rfl

end Task

/-! ## Workflows -/

namespace Workflow

/-- the workflow with untagged attributes -/
def untagged (workflow : Workflow) : Workflow :=
  ⟨workflow.name, workflow.attributes.map Mapping.untagged⟩

@[simp]
theorem ofEntry_untagged (key value : Value) : ofEntry (key, value.untagged) = (ofEntry (key, value)).untagged := by
  simp [ofEntry, untagged]

@[simp]
theorem name_untagged (workflow : Workflow) : workflow.untagged.name = workflow.name :=
  rfl

@[simp]
theorem isNone_attributes_untagged (workflow : Workflow) :
    workflow.untagged.attributes.isNone = workflow.attributes.isNone := by
  simp [untagged]

@[simp]
theorem get?_untagged (workflow : Workflow) (key : String) :
    workflow.untagged.get? key = (workflow.get? key).map Value.untagged := by
  cases h : workflow.attributes <;> simp [get?, untagged, h]

@[simp]
theorem taskEntries?_untagged (workflow : Workflow) :
    workflow.untagged.taskEntries? = workflow.taskEntries?.map Mapping.untagged := by
  rw [taskEntries?, taskEntries?, get?_untagged]
  cases workflow.get? "tasks" with
  | none => rfl
  | some value => simp

@[simp]
theorem tasks_untagged (workflow : Workflow) : workflow.untagged.tasks = workflow.tasks.map Task.untagged := by
  rw [tasks, tasks, taskEntries?_untagged]
  cases workflow.taskEntries? with
  | none => rfl
  | some entries => simp [Mapping.untagged]

@[simp]
theorem hasTask_untagged (workflow : Workflow) (name : String) : workflow.untagged.hasTask name = workflow.hasTask name := by
  rw [hasTask, hasTask, taskEntries?_untagged]
  cases workflow.taskEntries? with
  | none => rfl
  | some entries => simp

theorem inputNames_untagged (item : Value) : inputNames item.untagged = inputNames item := by
  rw [inputNames, inputNames, Value.bare_untagged]
  cases h : item.bare with
  | tagged tag inner => exact absurd h (item.bare_ne_tagged tag inner)
  | map entries => simp only [Value.untagged, Value.untaggedEntries_eq, Mapping.labels_untagged]
  | _ => rfl

@[simp]
theorem inputs_untagged (workflow : Workflow) : workflow.untagged.inputs = workflow.inputs := by
  rw [inputs, inputs, get?_untagged]
  cases workflow.get? "input" with
  | none => rfl
  | some value =>
    simp only [Option.map_some, Value.bare_untagged]
    cases h : value.bare with
    | tagged tag inner => exact absurd h (value.bare_ne_tagged tag inner)
    | seq items => simp only [Value.untagged, Value.untaggedItems_eq_map, List.flatMap_map, inputNames_untagged]
    | map entries => simp only [Value.untagged, Value.untaggedEntries_eq, Mapping.labels_untagged]
    | _ => rfl

@[simp]
theorem ofRoot_untagged (root : Mapping) : ofRoot root.untagged = (ofRoot root).map untagged := by
  rw [ofRoot, ofRoot, Mapping.present?_untagged]
  cases Mapping.present? root "workflows" with
  | none => rfl
  | some value =>
    simp only [Option.map_some, Option.bind_some, Value.mapping?_untagged]
    cases value.mapping? with
    | none => rfl
    | some entries => simp [Mapping.untagged]

@[simp]
theorem waiting_untagged (workflow : Workflow) : workflow.untagged.waiting = workflow.waiting := by
  simp [waiting]

end Workflow

/-! ## The graph and its drawing -/

namespace TaskGraph

theorem edgesOf_untagged (nodes : List String) (task : Task) : edgesOf nodes task.untagged = edgesOf nodes task := by
  have hrequirement (this : Nat) : requirementEdges nodes this task.untagged = requirementEdges nodes this task := by
    simp [requirementEdges]
  have hsuccessor (this : Nat) : successorEdges nodes this task.untagged = successorEdges nodes this task := by
    funext transition
    simp [successorEdges]
  simp [edgesOf, hrequirement, hsuccessor]

@[simp]
theorem ofWorkflow_untagged (workflow : Workflow) : ofWorkflow workflow.untagged = ofWorkflow workflow := by
  have hnames : workflow.untagged.tasks.map Task.name = workflow.tasks.map Task.name := by simp
  simp only [ofWorkflow, hnames]
  simp only [Workflow.tasks_untagged, List.flatMap_map, edgesOf_untagged]

end TaskGraph

namespace Diagram

theorem cluster_untagged (workflow : Workflow) : cluster workflow.untagged = cluster workflow := by
  have hnode (name : String) (task : Task) : nodeItem name task.untagged = nodeItem name task := rfl
  have hloop (name : String) (task : Task) : loopItem? name task.untagged = loopItem? name task := by simp [loopItem?]
  simp [cluster, List.filterMap_map, Function.comp_def, hnode, hloop]

theorem items_untagged (workflows : List Workflow) : items (workflows.map Workflow.untagged) = items workflows := by
  simp [items, List.flatMap_map, cluster_untagged]

end Diagram

/-! ## Lists of names -/

namespace Listing

theorem workflowNames_untagged (workflows : List Workflow) :
    workflowNames (workflows.map Workflow.untagged) = workflowNames workflows := by
  simp [workflowNames]

theorem taskNames_untagged (workflows : List Workflow) (name : String) :
    taskNames (workflows.map Workflow.untagged) name = taskNames workflows name := by
  have hfind : (workflows.map Workflow.untagged).find? (fun workflow => workflow.name == name) =
      (workflows.find? fun workflow => workflow.name == name).map Workflow.untagged := by
    simp [List.find?_map, Function.comp_def]
  rw [taskNames, taskNames, hfind]
  cases workflows.find? fun workflow => workflow.name == name with
  | none => rfl
  | some workflow => simp

theorem variableNames_untagged (workflows : List Workflow) :
    variableNames (workflows.map Workflow.untagged) = variableNames workflows := by
  have htask (task : Task) : taskVariables task.untagged = taskVariables task := by simp [taskVariables]
  have hworkflow (workflow : Workflow) : workflowVariables workflow.untagged = workflowVariables workflow := by
    simp [workflowVariables, List.flatMap_map, htask]
  simp [variableNames, List.flatMap_map, hworkflow]

end Listing

/-! ## Checks -/

namespace Check

/-- A test that does not see tags does not see them on an attribute either. -/
theorem absentOr_untagged (p : Value → Bool) (h : ∀ value, p value.untagged = p value) (value? : Option Value) :
    absentOr p (value?.map Value.untagged) = absentOr p value? := by
  cases value? with
  | none => rfl
  | some value => exact h value

theorem isOneOf_untagged (choices : List String) (value : Value) : isOneOf choices value.untagged = isOneOf choices value := by
  simp [isOneOf]

theorem isTransition_untagged (value : Value) : isTransition value.untagged = isTransition value := by
  rw [isTransition, isTransition, Value.bare_untagged]
  cases h : value.bare with
  | tagged tag inner => exact absurd h (value.bare_ne_tagged tag inner)
  | seq items =>
    simp only [Value.untagged, Value.untaggedItems_eq_map, List.all_map, Function.comp_def, Value.bare_untagged]
    congr 1
    funext item
    cases hi : item.bare with
    | tagged tag inner => exact absurd hi (item.bare_ne_tagged tag inner)
    | _ => rfl
  | _ => rfl

theorem isDelay_untagged (value : Value) : isDelay value.untagged = isDelay value := by
  rw [isDelay, isDelay, Value.bare_untagged]
  cases h : value.bare with
  | tagged tag inner => exact absurd h (value.bare_ne_tagged tag inner)
  | _ => rfl

theorem isCount_untagged (value : Value) : isCount value.untagged = isCount value := by
  rw [isCount, isCount, Value.bare_untagged]
  cases h : value.bare with
  | tagged tag inner => exact absurd h (value.bare_ne_tagged tag inner)
  | _ => rfl

theorem absentOr_mapping_untagged (value? : Option Value) :
    absentOr (fun value => value.mapping?.isSome) (value?.map Value.untagged) =
      absentOr (fun value => value.mapping?.isSome) value? :=
  absentOr_untagged _ (by simp) value?

theorem loopProblem?_untagged (task : Task) : loopProblem? task.untagged = loopProblem? task := by
  rw [loopProblem?, loopProblem?, Task.get?_untagged]
  cases task.get? "with-items" with
  | none => rfl
  | some value =>
    simp only [Option.map_some, Value.mapping?_untagged]
    cases value.mapping? with
    | none => rfl
    | some loop => simp

theorem checkTask_untagged (layout : Layout) (workflow : String) (task : Task) :
    checkTask layout workflow task.untagged = checkTask layout workflow task := by
  have htransition (transition : Transition) :
      checkTransition layout workflow task.untagged transition = checkTransition layout workflow task transition := by
    simp [checkTransition, absentOr_untagged _ isTransition_untagged]
  simp [checkTask, absentOr_mapping_untagged, htransition, Transition.all]

theorem checkAttributes_untagged (layout : Layout) (workflow : String) (task : Task) :
    checkAttributes layout workflow task.untagged = checkAttributes layout workflow task := by
  have htarget (value? : Option Value) : absentOr (fun value => value.string?.isSome) (value?.map Value.untagged) =
      absentOr (fun value => value.string?.isSome) value? := absentOr_untagged _ (by simp) value?
  simp [checkAttributes, loopProblem?_untagged, absentOr_untagged _ isDelay_untagged, absentOr_untagged _ isCount_untagged,
    absentOr_untagged _ (isOneOf_untagged _), absentOr_mapping_untagged, htarget]

theorem checkWorkflow_untagged (layout : Layout) (workflow : Workflow) :
    checkWorkflow layout workflow.untagged = checkWorkflow layout workflow := by
  have htype : checkType layout workflow.untagged = checkType layout workflow := by
    rw [checkType, checkType, Workflow.get?_untagged]
    cases workflow.get? "type" with
    | none => rfl
    | some value => simp [isOneOf_untagged]
  have htasks : checkTasks layout workflow.untagged = checkTasks layout workflow := by
    rw [checkTasks, checkTasks, Workflow.get?_untagged]
    cases workflow.get? "tasks" with
    | none => rfl
    | some value => simp [List.flatMap_map, checkTask_untagged]
  have hinput (value? : Option Value) :
      absentOr (fun value => value.items?.isSome || value.mapping?.isSome) (value?.map Value.untagged) =
        absentOr (fun value => value.items?.isSome || value.mapping?.isSome) value? := absentOr_untagged _ (by simp) value?
  simp [checkWorkflow, htype, htasks, hinput, absentOr_mapping_untagged, List.flatMap_map, checkAttributes_untagged]

/-- A check of a document that goes by its workflows does not see tags if the check of a workflow does not. -/
theorem flatMap_ofRoot_untagged {check : Workflow → List Finding}
    (h : ∀ workflow : Workflow, check workflow.untagged = check workflow) (root : Mapping) :
    (Workflow.ofRoot root.untagged).flatMap check = (Workflow.ofRoot root).flatMap check := by
  simp [List.flatMap_map, h]

theorem checkShape_untagged (layout : Layout) (root : Mapping) : checkShape layout root.untagged = checkShape layout root := by
  have hversion : checkVersion layout root.untagged = checkVersion layout root := by
    rw [checkVersion, checkVersion, Mapping.present?_untagged]
    cases Mapping.present? root "version" with
    | none => rfl
    | some value => simp [isOneOf_untagged]
  have hworkflows : checkWorkflows layout root.untagged = checkWorkflows layout root := by
    rw [checkWorkflows, checkWorkflows, Mapping.present?_untagged]
    cases Mapping.present? root "workflows" with
    | none => rfl
    | some value => simp [flatMap_ofRoot_untagged (checkWorkflow_untagged layout), -Workflow.ofRoot_untagged]
  rw [checkShape, checkShape, hversion, hworkflows]

theorem checkScopeFrom_untagged (layout : Layout) (workflow : Workflow) (occurrences : List Expression.Occurrence)
    (scope : List String) (tasks : List Task) :
    checkScopeFrom layout workflow.untagged occurrences scope (tasks.map Task.untagged) =
      checkScopeFrom layout workflow occurrences scope tasks := by
  have hreferences (scope : List String) (task : Task) :
      checkReferences workflow.untagged scope task.untagged = checkReferences workflow scope task := by
    funext occurrence
    simp [checkReferences]
  induction tasks generalizing scope with
  | nil => rfl
  | cons task tasks ih => simp [checkScopeFrom, leaves, hreferences, ih]

theorem checkWorkflowScope_untagged (layout : Layout) (occurrences : List Expression.Occurrence) (workflow : Workflow) :
    checkWorkflowScope layout occurrences workflow.untagged = checkWorkflowScope layout occurrences workflow := by
  simp [checkWorkflowScope, checkScopeFrom_untagged]

theorem checkWorkflowNames_untagged (layout : Layout) (workflow : Workflow) :
    checkWorkflowNames layout workflow.untagged = checkWorkflowNames layout workflow := by
  have htask (task : Task) : namedTask layout workflow.untagged task.untagged = namedTask layout workflow task := by
    simp [namedTask]
  simp [checkWorkflowNames, Function.comp_def, htask]

theorem checkWorkflowOrphans_untagged (layout : Layout) (workflow : Workflow) :
    checkWorkflowOrphans layout workflow.untagged = checkWorkflowOrphans layout workflow := by
  simp [checkWorkflowOrphans, Workflow.unreachable]

end Check

/-- **Tags are invisible.** For every value, the findings about shape, scope, names and orphans, the graphs of the tasks, the
drawing and the lists of names are the same for it as for its untagged form; and so is the graph of a single workflow. -/
theorem tags_invisible (value : Value) :
    (∀ layout, value.untagged.mapping?.map (Check.checkShape layout) = value.mapping?.map (Check.checkShape layout)) ∧
    (∀ layout occurrences, value.untagged.mapping?.map (Check.checkScope layout occurrences) =
      value.mapping?.map (Check.checkScope layout occurrences)) ∧
    (∀ layout, value.untagged.mapping?.map (Check.checkNames layout) = value.mapping?.map (Check.checkNames layout)) ∧
    (∀ layout, value.untagged.mapping?.map (Check.checkOrphans layout) = value.mapping?.map (Check.checkOrphans layout)) ∧
    (value.untagged.mapping?.map fun root => (Workflow.ofRoot root).map TaskGraph.ofWorkflow) =
      (value.mapping?.map fun root => (Workflow.ofRoot root).map TaskGraph.ofWorkflow) ∧
    (∀ key, TaskGraph.ofWorkflow (Workflow.ofEntry (key, value.untagged)) =
      TaskGraph.ofWorkflow (Workflow.ofEntry (key, value))) ∧
    (value.untagged.mapping?.map fun root => Dot.render (Diagram.items (Workflow.ofRoot root))) =
      (value.mapping?.map fun root => Dot.render (Diagram.items (Workflow.ofRoot root))) ∧
    (value.untagged.mapping?.map fun root => Listing.workflowNames (Workflow.ofRoot root)) =
      (value.mapping?.map fun root => Listing.workflowNames (Workflow.ofRoot root)) ∧
    (∀ name, (value.untagged.mapping?.map fun root => Listing.taskNames (Workflow.ofRoot root) name) =
      value.mapping?.map fun root => Listing.taskNames (Workflow.ofRoot root) name) ∧
    (value.untagged.mapping?.map fun root => Listing.variableNames (Workflow.ofRoot root)) =
      (value.mapping?.map fun root => Listing.variableNames (Workflow.ofRoot root)) := by
  have hroot {α : Type} (analysis : Mapping → α) (h : ∀ root : Mapping, analysis root.untagged = analysis root) :
      value.untagged.mapping?.map analysis = value.mapping?.map analysis := by
    simp [Function.comp_def, h]
  refine ⟨fun layout => hroot _ (Check.checkShape_untagged layout),
    fun layout occurrences => hroot _ (Check.flatMap_ofRoot_untagged (Check.checkWorkflowScope_untagged layout occurrences)),
    fun layout => hroot _ (Check.flatMap_ofRoot_untagged (Check.checkWorkflowNames_untagged layout)),
    fun layout => hroot _ (Check.flatMap_ofRoot_untagged (Check.checkWorkflowOrphans_untagged layout)),
    hroot _ fun root => ?_, fun key => ?_, hroot _ fun root => ?_, hroot _ fun root => ?_,
    fun name => hroot _ fun root => ?_, hroot _ fun root => ?_⟩
  · simp [Function.comp_def]
  · rw [Workflow.ofEntry_untagged, TaskGraph.ofWorkflow_untagged]
  · rw [Workflow.ofRoot_untagged, Diagram.items_untagged]
  · rw [Workflow.ofRoot_untagged, Listing.workflowNames_untagged]
  · rw [Workflow.ofRoot_untagged, Listing.taskNames_untagged]
  · rw [Workflow.ofRoot_untagged, Listing.variableNames_untagged]

end WorkflowLint
