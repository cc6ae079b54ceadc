/-
A null entry counts as absent.

`DropsNull` deletes an entry with a string as its key and null as its value, tagged or not, and keeps the others in their
order; `Under` and `InEntry` lead to the mapping that it is deleted from. An accessor that passes over null has the same answer
before and after (`DropsNull.present?_eq`), and the views of the two documents are alike: `Task.Alike` and `Workflow.Alike` name
all that the analyses go by, so each analysis comes out the same for views that are alike.

Four attributes of a task are read with `field?`, which does see null: `Check.guards`. Each is read so by one rule only, and for
that rule null is no proper value; the names of tasks read `join` too, but pass over null. `Patched` follows the rule's finding
up to the findings of the whole document. `null_counts_as_absent` says that deleting a null entry changes nothing, and that
deleting one of the four takes away the one finding about it and changes nothing else.
-/
import Mathlib.Data.List.Forall2
import WorkflowLint.Diagram
import WorkflowLint.Lint
import WorkflowLint.Proofs.Scope
import WorkflowLint.Proofs.ShapeRules

namespace WorkflowLint

open WorkflowLint.Yaml

/-! ## Lists with a part replaced -/

/-- `items'` is `items` with `new` in the place of `old` -/
def Patched {α : Type} (old new items items' : List α) : Prop :=
  ∃ front back, items = front ++ (old ++ back) ∧ items' = front ++ (new ++ back)

namespace Patched

variable {α β : Type} {old new items items' : List α}

theorem within {all all' : List α} (h : Patched old new items items') (houter : Patched items items' all all') :
    Patched old new all all' := by
  obtain ⟨front, back, rfl, rfl⟩ := h
  obtain ⟨before, after, rfl, rfl⟩ := houter
  exact ⟨before ++ front, back ++ after, by simp, by simp⟩

theorem flatMap (h : Patched old new items items') (f : α → List β) :
    Patched (old.flatMap f) (new.flatMap f) (items.flatMap f) (items'.flatMap f) := by
  obtain ⟨front, back, rfl, rfl⟩ := h
  exact ⟨front.flatMap f, back.flatMap f, by simp, by simp⟩

theorem map (h : Patched old new items items') (f : α → β) :
    Patched (old.map f) (new.map f) (items.map f) (items'.map f) := by
  obtain ⟨front, back, rfl, rfl⟩ := h
  exact ⟨front.map f, back.map f, by simp, by simp⟩

theorem eq_of_same (h : Patched old old items items') : items' = items := by
  obtain ⟨front, back, rfl, rfl⟩ := h
  rfl

theorem forall₂ {R : α → α → Prop} (h : Patched old new items items') (hrefl : ∀ item, R item item)
    (hpart : List.Forall₂ R old new) : List.Forall₂ R items items' := by
  obtain ⟨front, back, rfl, rfl⟩ := h
  have hsame : ∀ rest : List α, List.Forall₂ R rest rest := fun rest => List.forall₂_same.2 fun item _ => hrefl item
  exact List.rel_append (hsame front) (List.rel_append hpart (hsame back))

end Patched

theorem map_eq_of_forall₂ {α β : Type} {R : α → α → Prop} {items items' : List α} {f : α → β}
    (h : List.Forall₂ R items items') (hf : ∀ item item', R item item' → f item' = f item) :
    items'.map f = items.map f := by
  induction h with
  | nil => rfl
  | cons hitem _ ih => rw [List.map_cons, List.map_cons, hf _ _ hitem, ih]

theorem flatMap_eq_of_forall₂ {α β : Type} {R : α → α → Prop} {items items' : List α} {f : α → List β}
    (h : List.Forall₂ R items items') (hf : ∀ item item', R item item' → f item' = f item) :
    items'.flatMap f = items.flatMap f := by
  rw [List.flatMap_def, List.flatMap_def, map_eq_of_forall₂ h hf]

/-! ## Deleting an entry -/

namespace Yaml

/-- two mappings, perhaps under tags, with entries that are related -/
def Value.Inside (R : Mapping → Mapping → Prop) (value value' : Value) : Prop :=
  ∃ entries entries', value.mapping? = some entries ∧ value'.mapping? = some entries' ∧ R entries entries'

theorem Value.isNull_of_mapping? {value : Value} {entries : Mapping} (h : value.mapping? = some entries) :
    value.isNull = false := by
  rw [← Bool.not_eq_true, isNull_iff, mapping?_eq_some_iff.1 h]
  exact nofun

namespace Mapping

/-- `less` is `entries` without an entry that has the key and is null, the only one with that key -/
def DropsNull (key : String) (entries less : Mapping) : Prop :=
  ∃ value, Patched [(.str key, value)] [] entries less ∧ value.isNull = true ∧ ∀ entry ∈ less, entry.1 ≠ .str key

/-- a change inside the mapping that the key leads to -/
def Under (key : String) (R : Mapping → Mapping → Prop) (entries entries' : Mapping) : Prop :=
  ∃ front value value' back, entries = front ++ (.str key, value) :: back ∧ entries' = front ++ (.str key, value') :: back ∧
    (∀ entry ∈ front, entry.1 ≠ .str key) ∧ Value.Inside R value value'

/-- a change inside the mapping of one entry with the name -/
def InEntry (name : String) (R : Mapping → Mapping → Prop) (entries entries' : Mapping) : Prop :=
  ∃ key value value', key.label = name ∧ Patched [(key, value)] [(key, value')] entries entries' ∧
    Value.Inside R value value'

theorem field?_append (front back : Mapping) (key : String) :
    field? (front ++ back) key = (field? front key).or (field? back key) := by
  induction front with
  | nil => rfl
  | cons entry front ih =>
    by_cases h : entry.1 = .str key
    · obtain ⟨k, value⟩ := entry
      obtain rfl : k = .str key := h
      rw [List.cons_append, field?_cons_self, field?_cons_self]
      rfl
    · rw [List.cons_append, field?_cons_of_ne _ h, field?_cons_of_ne _ h, ih]

theorem field?_eq_none {entries : Mapping} {key : String} (h : ∀ entry ∈ entries, entry.1 ≠ .str key) :
    field? entries key = none := by
  induction entries with
  | nil => rfl
  | cons entry rest ih =>
    obtain ⟨hentry, hrest⟩ := List.forall_mem_cons.1 h
    rw [field?_cons_of_ne rest hentry, ih hrest]

/-- A lookup does not see what is replaced under other keys. -/
theorem field?_patched {old new entries entries' : Mapping} {key : String} (h : Patched old new entries entries')
    (hold : ∀ entry ∈ old, entry.1 ≠ .str key) (hnew : ∀ entry ∈ new, entry.1 ≠ .str key) :
    field? entries' key = field? entries key := by
  obtain ⟨front, back, rfl, rfl⟩ := h
  simp only [field?_append, field?_eq_none hold, field?_eq_none hnew]

section

variable {key other : String} {entries less entries' : Mapping} {R : Mapping → Mapping → Prop}

theorem DropsNull.field?_of_ne (h : DropsNull key entries less) (hne : other ≠ key) :
    field? less other = field? entries other := by
  obtain ⟨value, hpatched, -, -⟩ := h
  exact field?_patched hpatched (by simp [Ne.symm hne]) (by simp)

theorem DropsNull.field?_self (h : DropsNull key entries less) :
    field? less key = none ∧ ∃ value, field? entries key = some value ∧ value.isNull = true := by
  obtain ⟨value, ⟨front, back, rfl, rfl⟩, hnull, hothers⟩ := h
  rw [List.nil_append] at hothers ⊢
  refine ⟨field?_eq_none hothers, value, ?_, hnull⟩
  have hfront : field? front key = none := field?_eq_none fun entry hentry => hothers entry (List.mem_append_left _ hentry)
  rw [field?_append, hfront, List.singleton_append, field?_cons_self]
  rfl

/-- **Null counts as absent** where null is passed over. -/
theorem DropsNull.present?_eq (h : DropsNull key entries less) : present? less other = present? entries other := by
  by_cases heq : other = key
  · obtain ⟨hless, value, hvalue, hnull⟩ := h.field?_self
    rw [heq, present?, present?, hless, hvalue]
    simp [Option.filter, hnull]
  · rw [present?, present?, h.field?_of_ne heq]

theorem Under.field?_of_ne (h : Under key R entries entries') (hne : other ≠ key) :
    field? entries' other = field? entries other := by
  obtain ⟨front, value, value', back, hentries, hentries', -, -⟩ := h
  have hpatched : Patched [(.str key, value)] [(.str key, value')] entries entries' := ⟨front, back, hentries, hentries'⟩
  exact field?_patched hpatched (by simp [Ne.symm hne]) (by simp [Ne.symm hne])

theorem Under.present?_of_ne (h : Under key R entries entries') (hne : other ≠ key) :
    present? entries' other = present? entries other := by
  rw [present?, present?, h.field?_of_ne hne]

theorem Under.present?_self (h : Under key R entries entries') :
    ∃ value value' inner inner', present? entries key = some value ∧ present? entries' key = some value' ∧
      value.mapping? = some inner ∧ value'.mapping? = some inner' ∧ R inner inner' := by
  obtain ⟨front, value, value', back, rfl, rfl, hfront, inner, inner', hinner, hinner', hR⟩ := h
  refine ⟨value, value', inner, inner', ?_, ?_, hinner, hinner', hR⟩
  · rw [present?, field?_append, field?_eq_none hfront, field?_cons_self]
    simp [Value.isNull_of_mapping? hinner]
  · rw [present?, field?_append, field?_eq_none hfront, field?_cons_self]
    simp [Value.isNull_of_mapping? hinner']

/-- A change inside an entry leaves its key. -/
theorem InEntry.isSome_field? {name : String} (h : InEntry name R entries entries') :
    (field? entries' other).isSome = (field? entries other).isSome := by
  obtain ⟨k, value, value', -, ⟨front, back, rfl, rfl⟩, -⟩ := h
  have hentry : (field? [(k, value')] other).isSome = (field? [(k, value)] other).isSome := by
    by_cases hk : k = .str other
    · rw [hk, field?_cons_self, field?_cons_self]
      rfl
    · rw [field?_cons_of_ne [] hk, field?_cons_of_ne [] hk]
  simp only [field?_append, Option.isSome_or, hentry]

end

end Mapping

end Yaml

open WorkflowLint.Yaml.Mapping

/-! ## Tasks that are alike -/

namespace Task

/-- two tasks that differ in nothing the analyses go by, what `field?` gives apart -/
structure Alike (task task' : Task) : Prop where
  name : task'.name = task.name
  attributes : task'.attributes.isNone = task.attributes.isNone
  get? (key : String) : key ≠ "with-items" → task'.get? key = task.get? key
  loopVariable? : task'.loopVariable? = task.loopVariable?
  loopProblem? : Check.loopProblem? task' = Check.loopProblem? task

namespace Alike

theorem refl (task : Task) : Alike task task :=
  ⟨rfl, rfl, fun _ _ => rfl, rfl, rfl⟩

theorem of_present? {name : String} {entries entries' : Mapping}
    (h : ∀ key, present? entries' key = present? entries key) : Alike ⟨name, some entries⟩ ⟨name, some entries'⟩ := by
  have hget : ∀ key, Task.get? ⟨name, some entries'⟩ key = Task.get? ⟨name, some entries⟩ key := h
  refine ⟨rfl, rfl, fun key _ => hget key, ?_, ?_⟩
  · rw [Task.loopVariable?, Task.loopVariable?, hget]
  · rw [Check.loopProblem?, Check.loopProblem?, hget]

/-- A change under `with-items` that every accessor that passes over null is blind to. -/
theorem of_loop {name : String} {R : Mapping → Mapping → Prop} {entries entries' : Mapping}
    (h : Under "with-items" R entries entries')
    (hR : ∀ loop loop', R loop loop' → ∀ key, present? loop' key = present? loop key) :
    Alike ⟨name, some entries⟩ ⟨name, some entries'⟩ := by
  obtain ⟨value, value', loop, loop', hvalue, hvalue', hloop, hloop', hchange⟩ := h.present?_self
  have hget : Task.get? ⟨name, some entries⟩ "with-items" = some value := hvalue
  have hget' : Task.get? ⟨name, some entries'⟩ "with-items" = some value' := hvalue'
  refine ⟨rfl, rfl, fun key hne => h.present?_of_ne hne, ?_, ?_⟩
  · simp [Task.loopVariable?, hget, hget', hloop, hloop', hR loop loop' hchange]
  · simp [Check.loopProblem?, hget, hget', hloop, hloop', hR loop loop' hchange]

variable {task task' : Task}

theorem keysOf (h : Alike task task') {key : String} (hne : key ≠ "with-items") : task'.keysOf key = task.keysOf key := by
  rw [Task.keysOf, Task.keysOf, h.get? key hne]

theorem published (h : Alike task task') : task'.published = task.published :=
  h.keysOf (by decide)

theorem errorOutputs (h : Alike task task') : task'.errorOutputs = task.errorOutputs :=
  h.keysOf (by decide)

theorem hasJoin (h : Alike task task') : task'.hasJoin = task.hasJoin := by
  rw [Task.hasJoin, Task.hasJoin, h.get? "join" (by decide)]

theorem requirement (h : Alike task task') : task'.requirement = task.requirement := by
  rw [Task.requirement, Task.requirement, h.get? "requires" (by decide)]

theorem transition (h : Alike task task') (transition : Transition) :
    task'.get? transition.key = task.get? transition.key := by
  refine h.get? _ ?_
  cases transition with
  | onSuccess => decide
  | onError => decide
  | onComplete => decide

theorem successors (h : Alike task task') (transition : Transition) :
    task'.successors transition = task.successors transition := by
  rw [Task.successors, Task.successors, h.transition]

end Alike

end Task

/-! ## Workflows that are alike -/

namespace Workflow

theorem taskEntries?_eq_of_present? {entries entries' : Mapping} (name : String)
    (h : ∀ key, present? entries' key = present? entries key) :
    taskEntries? ⟨name, some entries'⟩ = taskEntries? ⟨name, some entries⟩ := by
  have hget : Workflow.get? ⟨name, some entries'⟩ "tasks" = Workflow.get? ⟨name, some entries⟩ "tasks" := h "tasks"
  rw [taskEntries?, taskEntries?, hget]

/-- two workflows that differ in nothing the analyses go by, what `field?` gives of their tasks apart -/
structure Alike (workflow workflow' : Workflow) : Prop where
  name : workflow'.name = workflow.name
  attributes : workflow'.attributes.isNone = workflow.attributes.isNone
  get? (key : String) : key ≠ "tasks" → workflow'.get? key = workflow.get? key
  /-- whether `tasks` is there, and whether it is a mapping -/
  shape : (workflow'.get? "tasks").map (fun value => value.mapping?.isNone) =
    (workflow.get? "tasks").map (fun value => value.mapping?.isNone)
  hasTask (name : String) : workflow'.hasTask name = workflow.hasTask name
  tasks : List.Forall₂ Task.Alike workflow.tasks workflow'.tasks

namespace Alike

theorem refl (workflow : Workflow) : Alike workflow workflow :=
  ⟨rfl, rfl, fun _ _ => rfl, rfl, fun _ => rfl, List.forall₂_same.2 fun task _ => Task.Alike.refl task⟩

theorem of_present? {name : String} {entries entries' : Mapping}
    (h : ∀ key, present? entries' key = present? entries key) : Alike ⟨name, some entries⟩ ⟨name, some entries'⟩ := by
  have hget : ∀ key, Workflow.get? ⟨name, some entries'⟩ key = Workflow.get? ⟨name, some entries⟩ key := h
  refine ⟨rfl, rfl, fun key _ => hget key, by rw [hget], fun other => ?_, ?_⟩
  · rw [Workflow.hasTask, Workflow.hasTask, taskEntries?_eq_of_present? name h]
  · rw [Workflow.tasks, Workflow.tasks, taskEntries?_eq_of_present? name h]
    exact List.forall₂_same.2 fun task _ => Task.Alike.refl task

end Alike

/-- A change inside one task, seen from its workflow. -/
theorem tasks_patched {task : String} {R : Mapping → Mapping → Prop} {entries entries' : Mapping} (name : String)
    (h : Under "tasks" (InEntry task R) entries entries') :
    ∃ attributes attributes', R attributes attributes' ∧
      Patched [⟨task, some attributes⟩] [⟨task, some attributes'⟩] (tasks ⟨name, some entries⟩)
        (tasks ⟨name, some entries'⟩) := by
  obtain ⟨value, value', inner, inner', hvalue, hvalue', hinner, hinner', hentry⟩ := h.present?_self
  obtain ⟨key, task, task', rfl, hpatched, attributes, attributes', htask, htask', hR⟩ := hentry
  refine ⟨attributes, attributes', hR, ?_⟩
  have hmap := hpatched.map Task.ofEntry
  simpa [tasks, taskEntries?, get?, Task.ofEntry, hvalue, hvalue', hinner, hinner', htask, htask'] using hmap

/-- A change inside one workflow, seen from the document. -/
theorem ofRoot_patched {name : String} {R : Mapping → Mapping → Prop} {root root' : Mapping}
    (h : Under "workflows" (InEntry name R) root root') :
    ∃ attributes attributes', R attributes attributes' ∧
      Patched [⟨name, some attributes⟩] [⟨name, some attributes'⟩] (ofRoot root) (ofRoot root') := by
  obtain ⟨value, value', inner, inner', hvalue, hvalue', hinner, hinner', hentry⟩ := h.present?_self
  obtain ⟨key, workflow, workflow', rfl, hpatched, attributes, attributes', hworkflow, hworkflow', hR⟩ := hentry
  refine ⟨attributes, attributes', hR, ?_⟩
  have hmap := hpatched.map ofEntry
  simpa [ofRoot, ofEntry, hvalue, hvalue', hinner, hinner', hworkflow, hworkflow'] using hmap

/-- A change inside one task that leaves the task alike leaves the workflow so. -/
theorem Alike.of_task {name task : String} {R : Mapping → Mapping → Prop} {entries entries' : Mapping}
    (h : Under "tasks" (InEntry task R) entries entries')
    (hR : ∀ attributes attributes', R attributes attributes' →
      Task.Alike ⟨task, some attributes⟩ ⟨task, some attributes'⟩) :
    Alike ⟨name, some entries⟩ ⟨name, some entries'⟩ := by
  obtain ⟨attributes, attributes', hchange, hpatched⟩ := tasks_patched name h
  obtain ⟨value, value', inner, inner', hvalue, hvalue', hinner, hinner', hentry⟩ := h.present?_self
  have hget : Workflow.get? ⟨name, some entries⟩ "tasks" = some value := hvalue
  have hget' : Workflow.get? ⟨name, some entries'⟩ "tasks" = some value' := hvalue'
  refine ⟨rfl, rfl, fun key hne => h.present?_of_ne hne, ?_, fun other => ?_, ?_⟩
  · simp [hget, hget', hinner, hinner']
  · simp [Workflow.hasTask, taskEntries?, hget, hget', hinner, hinner', hentry.isSome_field?]
  · exact hpatched.forall₂ Task.Alike.refl (.cons (hR _ _ hchange) .nil)

end Workflow

/-! ## Graphs, drawings and names of alike workflows -/

namespace Workflow.Alike

variable {workflow workflow' : Workflow}

theorem inputs (h : Alike workflow workflow') : workflow'.inputs = workflow.inputs := by
  rw [Workflow.inputs, Workflow.inputs, h.get? "input" (by decide)]

theorem map_tasks (h : Alike workflow workflow') {α : Type} {f : Task → α}
    (hf : ∀ task task', Task.Alike task task' → f task' = f task) : workflow'.tasks.map f = workflow.tasks.map f :=
  map_eq_of_forall₂ h.tasks hf

theorem unreachable (h : Alike workflow workflow') : workflow'.unreachable = workflow.unreachable := by
  have hwaiting : workflow'.waiting = workflow.waiting := h.map_tasks fun task task' ht => by rw [ht.name, ht.requirement]
  rw [Workflow.unreachable, Workflow.unreachable, hwaiting]

theorem graph (h : Alike workflow workflow') : TaskGraph.ofWorkflow workflow' = TaskGraph.ofWorkflow workflow := by
  have hnodes : workflow'.tasks.map Task.name = workflow.tasks.map Task.name := h.map_tasks fun task task' ht => ht.name
  have hedges (nodes : List String) : workflow'.tasks.flatMap (TaskGraph.edgesOf nodes) =
      workflow.tasks.flatMap (TaskGraph.edgesOf nodes) := by
    refine flatMap_eq_of_forall₂ h.tasks fun task task' ht => ?_
    have hsuccessor (this : Nat) :
        TaskGraph.successorEdges nodes this task' = TaskGraph.successorEdges nodes this task := by
      funext transition
      rw [TaskGraph.successorEdges, TaskGraph.successorEdges, ht.successors]
    simp only [TaskGraph.edgesOf, TaskGraph.requirementEdges, ht.name, ht.requirement, hsuccessor]
  rw [TaskGraph.ofWorkflow, TaskGraph.ofWorkflow, hnodes, hedges]

theorem cluster (h : Alike workflow workflow') : Diagram.cluster workflow' = Diagram.cluster workflow := by
  have hnodes : workflow'.tasks.map (Diagram.nodeItem workflow.name) = workflow.tasks.map (Diagram.nodeItem workflow.name) :=
    h.map_tasks fun task task' ht => by rw [Diagram.nodeItem, Diagram.nodeItem, ht.name]
  have hloops : workflow'.tasks.filterMap (Diagram.loopItem? workflow.name) =
      workflow.tasks.filterMap (Diagram.loopItem? workflow.name) := by
    rw [List.filterMap_eq_flatMap_toList, List.filterMap_eq_flatMap_toList]
    refine flatMap_eq_of_forall₂ h.tasks fun task task' ht => ?_
    rw [Diagram.loopItem?, Diagram.loopItem?, ht.name, ht.loopVariable?]
  rw [Diagram.cluster, Diagram.cluster, h.name, h.graph, hnodes, hloops]

theorem workflowVariables (h : Alike workflow workflow') :
    Listing.workflowVariables workflow' = Listing.workflowVariables workflow := by
  have htasks : workflow'.tasks.flatMap Listing.taskVariables = workflow.tasks.flatMap Listing.taskVariables :=
    flatMap_eq_of_forall₂ h.tasks fun task task' ht => by
      rw [Listing.taskVariables, Listing.taskVariables, ht.published, ht.errorOutputs, ht.loopVariable?]
  rw [Listing.workflowVariables, Listing.workflowVariables, h.inputs, htasks]

end Workflow.Alike

/-! ## Findings about alike workflows -/

namespace Check

section

variable {layout : Layout} {workflow workflow' : Workflow}

theorem checkScopeFrom_alike {occurrences : List Expression.Occurrence} {tasks tasks' : List Task}
    (h : workflow.Alike workflow') (htasks : List.Forall₂ Task.Alike tasks tasks') (scope : List String) :
    checkScopeFrom layout workflow' occurrences scope tasks' = checkScopeFrom layout workflow occurrences scope tasks := by
  induction htasks generalizing scope with
  | nil => rfl
  | @cons task task' rest rest' ht _ ih =>
    have hreferences : checkReferences workflow' scope task' = checkReferences workflow scope task := by
      funext occurrence
      simp only [checkReferences, ht.name, ht.loopVariable?, h.name, h.hasTask]
    simp only [checkScopeFrom, leaves, hreferences, ht.name, ht.published, ht.loopVariable?, h.name, ih]

theorem checkWorkflowScope_alike (h : workflow.Alike workflow') (occurrences : List Expression.Occurrence) :
    checkWorkflowScope layout occurrences workflow' = checkWorkflowScope layout occurrences workflow := by
  rw [checkWorkflowScope, checkWorkflowScope, h.attributes, h.inputs, checkScopeFrom_alike h h.tasks]

theorem checkWorkflowNames_alike (h : workflow.Alike workflow') :
    checkWorkflowNames layout workflow' = checkWorkflowNames layout workflow := by
  have hworkflow : namedTask layout workflow' = namedTask layout workflow := by
    funext task
    rw [namedTask, namedTask, h.name]
  have htasks : workflow'.tasks.map (namedTask layout workflow) = workflow.tasks.map (namedTask layout workflow) :=
    h.map_tasks fun task task' ht => by rw [namedTask, namedTask, ht.name, ht.hasJoin]
  rw [checkWorkflowNames, checkWorkflowNames, h.name, hworkflow, htasks]

theorem checkWorkflowOrphans_alike (h : workflow.Alike workflow') :
    checkWorkflowOrphans layout workflow' = checkWorkflowOrphans layout workflow := by
  rw [checkWorkflowOrphans, checkWorkflowOrphans, h.unreachable, h.name]

theorem checkTask_alike {task task' : Task} (h : task.Alike task') (name : String) :
    checkTask layout name task' = checkTask layout name task := by
  have hduties : (duties.any fun key => (task'.get? key).isSome) = duties.any fun key => (task.get? key).isSome := by
    simp [duties, h.get? "action" (by decide), h.get? "workflow" (by decide), h.get? "task-defaults" (by decide)]
  have htransition : checkTransition layout name task' = checkTransition layout name task := by
    funext transition
    rw [checkTransition, checkTransition, h.transition, h.name]
  rw [checkTask, checkTask, h.attributes, h.name, hduties, h.get? "input" (by decide), htransition]

theorem checkTasks_alike (h : workflow.Alike workflow') : checkTasks layout workflow' = checkTasks layout workflow := by
  have htasks : workflow'.tasks.flatMap (checkTask layout workflow.name) =
      workflow.tasks.flatMap (checkTask layout workflow.name) :=
    flatMap_eq_of_forall₂ h.tasks fun task task' ht => checkTask_alike ht workflow.name
  have hshape := h.shape
  unfold checkTasks
  cases hget : workflow.get? "tasks" with
  | none =>
    rw [hget, Option.map_none, Option.map_eq_none_iff] at hshape
    rw [hshape, h.name]
  | some value =>
    rw [hget, Option.map_some] at hshape
    obtain ⟨value', hget', hsame⟩ := Option.map_eq_some_iff.1 hshape
    simp only [hget', hsame, h.name, htasks]

/-- The findings about alike workflows agree up to those about the further attributes of their tasks. -/
theorem checkWorkflow_alike (layout : Layout) (h : workflow.Alike workflow') :
    ∃ front, checkWorkflow layout workflow = front ++ workflow.tasks.flatMap (checkAttributes layout workflow.name) ∧
      checkWorkflow layout workflow' = front ++ workflow'.tasks.flatMap (checkAttributes layout workflow.name) := by
  have htype : checkType layout workflow' = checkType layout workflow := by
    rw [checkType, checkType, h.get? "type" (by decide), h.name]
  cases hnone : workflow.attributes.isNone with
  | true =>
    have hnone' := h.attributes.trans hnone
    refine ⟨checkWorkflow layout workflow, ?_, ?_⟩
    · rw [Workflow.tasks_eq_nil (Option.isNone_iff_eq_none.1 hnone), List.flatMap_nil, List.append_nil]
    · rw [Workflow.tasks_eq_nil (Option.isNone_iff_eq_none.1 hnone'), List.flatMap_nil, List.append_nil]
      rw [checkWorkflow, checkWorkflow, if_pos hnone, if_pos hnone', h.name]
  | false =>
    have hsome : ¬ workflow.attributes.isNone = true := by rw [hnone]; exact Bool.false_ne_true
    have hsome' : ¬ workflow'.attributes.isNone = true := by rw [h.attributes]; exact hsome
    refine ⟨_, by rw [checkWorkflow, if_neg hsome], ?_⟩
    rw [checkWorkflow, if_neg hsome', htype, checkTasks_alike h, h.get? "input" (by decide),
      h.get? "task-defaults" (by decide), h.name]

end

/-! ## Attributes that must have a proper value -/

/-- an attribute of a task that is read null or not, what it must be, and what is found if it is not -/
structure Guard where
  key : String
  test : Value → Bool
  problem : Problem

def guards : List Guard :=
  [⟨"pause-before", isDelay, .negativeDelay "pause-before"⟩, ⟨"wait-after", isDelay, .negativeDelay "wait-after"⟩,
    ⟨"concurrency", isCount, .concurrency⟩, ⟨"join", isOneOf joinModes, .joinMode⟩]

/-- the finding about the attribute -/
def Guard.findings (layout : Layout) (workflow : String) (task : Task) (guard : Guard) : List Finding :=
  require (absentOr guard.test (task.field? guard.key)) guard.problem (layout.taskKey workflow task.name guard.key)

theorem nodup_guard_keys : (guards.map Guard.key).Nodup := by
  decide

/-- None of them may be null. -/
theorem Guard.test_null {guard : Guard} (h : guard ∈ guards) {value : Value} (hnull : value.isNull = true) :
    guard.test value = false := by
  have hbare := Value.isNull_iff.1 hnull
  simp only [guards, List.mem_cons, List.not_mem_nil, or_false] at h
  rcases h with rfl | rfl | rfl | rfl
  · simp [isDelay, hbare]
  · simp [isDelay, hbare]
  · simp [isCount, hbare]
  · simp [isOneOf, Value.string?, hbare]

section

variable {layout : Layout} {workflow : String} {task task' : Task}

/-- The findings about the further attributes of alike tasks agree up to those about the guarded ones. -/
theorem checkAttributes_alike (h : task.Alike task') (hsome : task.attributes.isNone = false) :
    Patched (guards.flatMap (Guard.findings layout workflow task)) (guards.flatMap (Guard.findings layout workflow task'))
      (checkAttributes layout workflow task) (checkAttributes layout workflow task') := by
  have htarget := h.get? "target" (by decide)
  have herror := h.get? "output-on-error" (by decide)
  have hsome' : task'.attributes.isNone = false := h.attributes.trans hsome
  refine ⟨(loopProblem? task).toList.map fun problem => ⟨problem, layout.taskKey workflow task.name "with-items"⟩,
    require (absentOr (fun value => value.string?.isSome) (task.get? "target")) .targetShape
        (layout.taskKey workflow task.name "target") ++
      require (absentOr (fun value => value.mapping?.isSome) (task.get? "output-on-error")) .errorOutputShape
        (layout.taskKey workflow task.name "output-on-error"), ?_, ?_⟩
  · cases hloop : loopProblem? task with
    | none => simp [checkAttributes, hsome, guards, delays, Guard.findings, hloop]
    | some problem => simp [checkAttributes, hsome, guards, delays, Guard.findings, hloop]
  · cases hloop : loopProblem? task with
    | none =>
      simp [checkAttributes, hsome', guards, delays, Guard.findings, h.loopProblem?, hloop, h.name, htarget, herror]
    | some problem =>
      simp [checkAttributes, hsome', guards, delays, Guard.findings, h.loopProblem?, hloop, h.name, htarget, herror]

theorem Guard.findings_eq {guard : Guard} (h : task.Alike task') (hfield : task'.field? guard.key = task.field? guard.key) :
    guard.findings layout workflow task' = guard.findings layout workflow task := by
  rw [findings, findings, hfield, h.name]

theorem checkAttributes_eq_of_field? (h : task.Alike task') (hsome : task.attributes.isNone = false)
    (hfield : ∀ guard ∈ guards, task'.field? guard.key = task.field? guard.key) :
    checkAttributes layout workflow task' = checkAttributes layout workflow task := by
  have hguards : guards.flatMap (Guard.findings layout workflow task') =
      guards.flatMap (Guard.findings layout workflow task) :=
    List.flatMap_congr fun guard hguard => Guard.findings_eq h (hfield guard hguard)
  have hpatched : Patched _ _ (checkAttributes layout workflow task) (checkAttributes layout workflow task') :=
    checkAttributes_alike h hsome
  rw [hguards] at hpatched
  exact hpatched.eq_of_same

/-- The findings about tasks that differ in one guarded attribute agree up to the finding about that attribute. -/
theorem checkAttributes_patched {guard : Guard} (h : task.Alike task') (hsome : task.attributes.isNone = false)
    (hguard : guard ∈ guards) (hfield : ∀ key, key ≠ guard.key → task'.field? key = task.field? key) :
    Patched (guard.findings layout workflow task) (guard.findings layout workflow task')
      (checkAttributes layout workflow task) (checkAttributes layout workflow task') := by
  obtain ⟨front, back, hsplit⟩ := List.append_of_mem hguard
  have hkeys : ∀ other ∈ front ++ back, other.key ≠ guard.key := by
    have hnodup := nodup_guard_keys
    rw [hsplit, List.map_append, List.map_cons, List.nodup_middle, List.nodup_cons, ← List.map_append] at hnodup
    intro other hother heq
    exact hnodup.1 (heq ▸ List.mem_map_of_mem hother)
  have hothers : ∀ part ⊆ front ++ back, part.flatMap (Guard.findings layout workflow task') =
      part.flatMap (Guard.findings layout workflow task) := by
    intro part hpart
    refine List.flatMap_congr fun other hother => Guard.findings_eq h (hfield _ ?_)
    exact hkeys other (hpart hother)
  refine Patched.within ⟨front.flatMap (Guard.findings layout workflow task),
    back.flatMap (Guard.findings layout workflow task), ?_, ?_⟩ (checkAttributes_alike h hsome)
  · rw [hsplit, List.flatMap_append, List.flatMap_cons]
  · rw [hsplit, List.flatMap_append, List.flatMap_cons, hothers front (List.subset_append_left _ _),
      hothers back (List.subset_append_right _ _)]

end

end Check

/-! ## Documents -/

/-- a change inside the workflow with the name -/
def InWorkflow (workflow : String) (R : Mapping → Mapping → Prop) : Mapping → Mapping → Prop :=
  Under "workflows" (InEntry workflow R)

/-- a change inside the task with the name -/
def InTask (workflow task : String) (R : Mapping → Mapping → Prop) : Mapping → Mapping → Prop :=
  InWorkflow workflow (Under "tasks" (InEntry task R))

/-- a change inside `with-items` of the task with the name -/
def InLoop (workflow task : String) (R : Mapping → Mapping → Prop) : Mapping → Mapping → Prop :=
  InTask workflow task (Under "with-items" R)

/-- a null entry of a document is deleted: of its root, of a workflow, of a task unless it is guarded, of `with-items` -/
inductive NullDeletion (root root' : Mapping) : Prop where
  | root (key : String) : DropsNull key root root' → NullDeletion root root'
  | workflow (name key : String) : InWorkflow name (DropsNull key) root root' → NullDeletion root root'
  | task (workflow name key : String) : key ∉ Check.guards.map Check.Guard.key →
      InTask workflow name (DropsNull key) root root' → NullDeletion root root'
  | loop (workflow task key : String) : InLoop workflow task (DropsNull key) root root' → NullDeletion root root'

/-- every analysis but that of the shape has the same result: the findings about scope, names and orphans, the graphs of the
tasks, the drawing and the declared variables -/
structure SameAnalyses (root root' : Mapping) : Prop where
  scope : ∀ layout occurrences, Check.checkScope layout occurrences root' = Check.checkScope layout occurrences root
  names : ∀ layout, Check.checkNames layout root' = Check.checkNames layout root
  orphans : ∀ layout, Check.checkOrphans layout root' = Check.checkOrphans layout root
  graphs : (Workflow.ofRoot root').map TaskGraph.ofWorkflow = (Workflow.ofRoot root).map TaskGraph.ofWorkflow
  drawing : Dot.render (Diagram.items (Workflow.ofRoot root')) = Dot.render (Diagram.items (Workflow.ofRoot root))
  declared : Listing.variableNames (Workflow.ofRoot root') = Listing.variableNames (Workflow.ofRoot root)

theorem sameAnalyses_of_alike {root root' : Mapping}
    (h : List.Forall₂ Workflow.Alike (Workflow.ofRoot root) (Workflow.ofRoot root')) : SameAnalyses root root' where
  scope layout occurrences := flatMap_eq_of_forall₂ h fun _ _ hw => Check.checkWorkflowScope_alike hw occurrences
  names layout := flatMap_eq_of_forall₂ h fun _ _ hw => Check.checkWorkflowNames_alike hw
  orphans layout := flatMap_eq_of_forall₂ h fun _ _ hw => Check.checkWorkflowOrphans_alike hw
  graphs := map_eq_of_forall₂ h fun _ _ hw => hw.graph
  drawing := by
    rw [Diagram.items, Diagram.items, flatMap_eq_of_forall₂ h fun _ _ hw => hw.cluster]
  declared := by
    rw [Listing.variableNames, Listing.variableNames, flatMap_eq_of_forall₂ h fun _ _ hw => hw.workflowVariables]

section

variable {workflow task : String} {R : Mapping → Mapping → Prop} {root root' : Mapping}

/-- A change inside one workflow shows in the findings about that workflow only. -/
theorem checkShape_inWorkflow (h : InWorkflow workflow R root root') :
    ∃ attributes attributes', R attributes attributes' ∧
      Patched [⟨workflow, some attributes⟩] [⟨workflow, some attributes'⟩] (Workflow.ofRoot root) (Workflow.ofRoot root') ∧
      ∀ layout, Patched (Check.checkWorkflow layout ⟨workflow, some attributes⟩)
        (Check.checkWorkflow layout ⟨workflow, some attributes'⟩) (Check.checkShape layout root)
        (Check.checkShape layout root') := by
  obtain ⟨attributes, attributes', hR, hpatched⟩ := Workflow.ofRoot_patched h
  refine ⟨attributes, attributes', hR, hpatched, fun layout => ?_⟩
  obtain ⟨value, value', inner, inner', hvalue, hvalue', hinner, hinner', -⟩ := h.present?_self
  have hversion : Check.checkVersion layout root' = Check.checkVersion layout root := by
    rw [Check.checkVersion, Check.checkVersion, h.present?_of_ne (by decide)]
  have hfindings := hpatched.flatMap (Check.checkWorkflow layout)
  rw [List.flatMap_singleton, List.flatMap_singleton] at hfindings
  refine hfindings.within ⟨Check.checkVersion layout root, [], ?_, ?_⟩
  · simp [Check.checkShape, Check.checkWorkflows, hvalue, hinner]
  · simp [Check.checkShape, Check.checkWorkflows, hversion, hvalue', hinner']

/-- A change inside one task that leaves the task alike shows in the findings about its further attributes only. -/
theorem checkShape_inTask (h : InTask workflow task R root root')
    (halike : ∀ attributes attributes', R attributes attributes' →
      Task.Alike ⟨task, some attributes⟩ ⟨task, some attributes'⟩) :
    SameAnalyses root root' ∧ ∃ attributes attributes', R attributes attributes' ∧
      ∀ layout, Patched (Check.checkAttributes layout workflow ⟨task, some attributes⟩)
        (Check.checkAttributes layout workflow ⟨task, some attributes'⟩) (Check.checkShape layout root)
        (Check.checkShape layout root') := by
  obtain ⟨entries, entries', hunder, hworkflows, hshape⟩ := checkShape_inWorkflow h
  have hworkflow : Workflow.Alike ⟨workflow, some entries⟩ ⟨workflow, some entries'⟩ := .of_task hunder halike
  obtain ⟨attributes, attributes', hR, htasks⟩ := Workflow.tasks_patched workflow hunder
  refine ⟨sameAnalyses_of_alike (hworkflows.forall₂ Workflow.Alike.refl (.cons hworkflow .nil)),
    attributes, attributes', hR, fun layout => ?_⟩
  obtain ⟨front, hfindings, hfindings'⟩ := Check.checkWorkflow_alike layout hworkflow
  have hattributes := htasks.flatMap (Check.checkAttributes layout workflow)
  rw [List.flatMap_singleton, List.flatMap_singleton] at hattributes
  exact (hattributes.within ⟨front, [], by simpa using hfindings, by simpa using hfindings'⟩).within (hshape layout)

end

theorem same_of_root {key : String} {root root' : Mapping} (h : DropsNull key root root') :
    SameAnalyses root root' ∧ ∀ layout, Check.checkShape layout root' = Check.checkShape layout root := by
  have hworkflows : Workflow.ofRoot root' = Workflow.ofRoot root := by
    rw [Workflow.ofRoot, Workflow.ofRoot, h.present?_eq]
  refine ⟨sameAnalyses_of_alike ?_, fun layout => ?_⟩
  · rw [hworkflows]
    exact List.forall₂_same.2 fun workflow _ => Workflow.Alike.refl workflow
  · rw [Check.checkShape, Check.checkShape, Check.checkVersion, Check.checkVersion, Check.checkWorkflows,
      Check.checkWorkflows, h.present?_eq, h.present?_eq, hworkflows]

theorem same_of_workflow {workflow key : String} {root root' : Mapping}
    (h : InWorkflow workflow (DropsNull key) root root') :
    SameAnalyses root root' ∧ ∀ layout, Check.checkShape layout root' = Check.checkShape layout root := by
  obtain ⟨entries, entries', hdrops, hworkflows, hshape⟩ := checkShape_inWorkflow h
  have hpresent : ∀ other, present? entries' other = present? entries other := fun other => hdrops.present?_eq
  have halike : Workflow.Alike ⟨workflow, some entries⟩ ⟨workflow, some entries'⟩ := .of_present? hpresent
  have htasks : Workflow.tasks ⟨workflow, some entries'⟩ = Workflow.tasks ⟨workflow, some entries⟩ := by
    rw [Workflow.tasks, Workflow.tasks, Workflow.taskEntries?_eq_of_present? workflow hpresent]
  refine ⟨sameAnalyses_of_alike (hworkflows.forall₂ Workflow.Alike.refl (.cons halike .nil)), fun layout => ?_⟩
  obtain ⟨front, hfindings, hfindings'⟩ := Check.checkWorkflow_alike layout halike
  have hpatched := hshape layout
  rw [hfindings', htasks, ← hfindings] at hpatched
  exact hpatched.eq_of_same

/-- A change inside one task that neither the analyses nor the rules of the guarded attributes see. -/
theorem same_of_task {workflow task : String} {R : Mapping → Mapping → Prop} {root root' : Mapping}
    (h : InTask workflow task R root root')
    (halike : ∀ attributes attributes', R attributes attributes' →
      Task.Alike ⟨task, some attributes⟩ ⟨task, some attributes'⟩)
    (hguards : ∀ attributes attributes', R attributes attributes' →
      ∀ guard ∈ Check.guards, field? attributes' guard.key = field? attributes guard.key) :
    SameAnalyses root root' ∧ ∀ layout, Check.checkShape layout root' = Check.checkShape layout root := by
  obtain ⟨hsame, attributes, attributes', hR, hshape⟩ := checkShape_inTask h halike
  refine ⟨hsame, fun layout => ?_⟩
  have hpatched := hshape layout
  rw [Check.checkAttributes_eq_of_field? (halike _ _ hR) rfl (hguards _ _ hR)] at hpatched
  exact hpatched.eq_of_same

theorem NullDeletion.same {root root' : Mapping} (h : NullDeletion root root') :
    SameAnalyses root root' ∧ ∀ layout, Check.checkShape layout root' = Check.checkShape layout root := by
  cases h with
  | root key hdrops => exact same_of_root hdrops
  | workflow name key hchange => exact same_of_workflow hchange
  | task workflow name key hfree hchange =>
    refine same_of_task hchange ?_ ?_
    · intro attributes attributes' hdrops
      exact .of_present? fun other => hdrops.present?_eq
    · intro attributes attributes' hdrops guard hguard
      refine hdrops.field?_of_ne ?_
      intro heq
      exact hfree (heq ▸ List.mem_map_of_mem hguard)
  | loop workflow task key hchange =>
    refine same_of_task hchange ?_ ?_
    · intro attributes attributes' hunder
      exact .of_loop hunder fun loop loop' hdrops other => hdrops.present?_eq
    · intro attributes attributes' hunder guard hguard
      refine hunder.field?_of_ne ?_
      revert guard
      decide

theorem guard_deletion {workflow task : String} {guard : Check.Guard} {root root' : Mapping} (hguard : guard ∈ Check.guards)
    (h : InTask workflow task (DropsNull guard.key) root root') :
    SameAnalyses root root' ∧ ∀ layout, Patched [⟨guard.problem, layout.taskKey workflow task guard.key⟩] []
      (Check.checkShape layout root) (Check.checkShape layout root') := by
  have halike : ∀ attributes attributes', DropsNull guard.key attributes attributes' →
      Task.Alike ⟨task, some attributes⟩ ⟨task, some attributes'⟩ :=
    fun attributes attributes' hdrops => .of_present? fun other => hdrops.present?_eq
  obtain ⟨hsame, attributes, attributes', hdrops, hshape⟩ := checkShape_inTask h halike
  refine ⟨hsame, fun layout => ?_⟩
  obtain ⟨habsent, value, hvalue, hnull⟩ := hdrops.field?_self
  have hpatched := (Check.checkAttributes_patched (halike _ _ hdrops) rfl hguard
    fun key hne => hdrops.field?_of_ne hne).within (hshape layout)
  have hreported : guard.findings layout workflow ⟨task, some attributes⟩ =
      [⟨guard.problem, layout.taskKey workflow task guard.key⟩] := by
    simp [Check.Guard.findings, Task.field?, hvalue, Check.absentOr, Check.Guard.test_null hguard hnull, Check.require]
  have hsilent : guard.findings layout workflow ⟨task, some attributes'⟩ = [] := by
    simp [Check.Guard.findings, Task.field?, habsent, Check.absentOr, Check.require]
  rwa [hreported, hsilent] at hpatched

/-- **Null counts as absent.** Deleting a null entry of the root, of a workflow, of `with-items`, or of a task if it is not one
of the four guarded attributes changes no analysis. Deleting a null entry of a guarded attribute takes the finding about it away
and changes nothing else. -/
theorem null_counts_as_absent (root root' : Mapping) :
    (NullDeletion root root' →
      SameAnalyses root root' ∧ ∀ layout, Check.checkShape layout root' = Check.checkShape layout root) ∧
    (∀ workflow task, ∀ guard ∈ Check.guards, InTask workflow task (DropsNull guard.key) root root' →
      SameAnalyses root root' ∧ ∀ layout, ∃ before after,
        Check.checkShape layout root = before ++ ⟨guard.problem, layout.taskKey workflow task guard.key⟩ :: after ∧
          Check.checkShape layout root' = before ++ after) := by
  constructor
  · intro h
    exact h.same
  · intro workflow task guard hguard h
    obtain ⟨hsame, hshape⟩ := guard_deletion hguard h
    refine ⟨hsame, fun layout => ?_⟩
    obtain ⟨before, after, hbefore, hafter⟩ := hshape layout
    exact ⟨before, after, hbefore, hafter⟩

/-- a document with one task, whose key is a number -/
def oneTask (attributes : Mapping) : Mapping :=
  [(.str "version", .str "2.0"),
    (.str "workflows", .map [(.str "wf", .map [(.str "tasks", .tagged "t" (.map [(.int 1, .map attributes)]))])])]

theorem inTask_oneTask {R : Mapping → Mapping → Prop} {attributes attributes' : Mapping} (h : R attributes attributes') :
    InTask "wf" "1" R (oneTask attributes) (oneTask attributes') := by
  refine ⟨[(.str "version", .str "2.0")], _, _, [], rfl, rfl, by simp, _, _, rfl, rfl, ?_⟩
  refine ⟨.str "wf", _, _, rfl, ⟨[], [], rfl, rfl⟩, _, _, rfl, rfl, ?_⟩
  refine ⟨[], _, _, [], rfl, rfl, by simp, _, _, rfl, rfl, ?_⟩
  exact ⟨.int 1, _, _, rfl, ⟨[], [], rfl, rfl⟩, _, _, rfl, rfl, h⟩

/-- **A null that is seen and one that is not.** The variable of a loop may as well be left out, and what is missing then is
reported both times; a tagged null at `join` has a finding of its own. -/
theorem null_item_and_join :
    let loop : Mapping → Value × Value := fun entries => (.str "with-items", .map entries)
    let join : Value × Value := (.str "join", .tagged "t" .null)
    (∀ layout, Check.checkShape layout (oneTask [join, loop [(.str "values", .seq [])]]) =
      Check.checkShape layout (oneTask [join, loop [(.str "item", .null), (.str "values", .seq [])]])) ∧
    ∀ layout, ∃ before after,
      Check.checkShape layout (oneTask [join, loop []]) =
        before ++ ⟨.joinMode, layout.taskKey "wf" "1" "join"⟩ :: after ∧
      Check.checkShape layout (oneTask [loop []]) = before ++ after := by
  intro loop join
  constructor
  · refine ((null_counts_as_absent _ _).1 (.loop "wf" "1" "item" (inTask_oneTask ?_))).2
    refine ⟨[join], _, _, [], rfl, rfl, by simp [join], _, _, rfl, rfl, .null, ⟨[], _, rfl, rfl⟩, rfl, by simp⟩
  · have hguard : (⟨"join", Check.isOneOf Check.joinModes, .joinMode⟩ : Check.Guard) ∈ Check.guards := by simp [Check.guards]
    refine ((null_counts_as_absent _ _).2 "wf" "1" _ hguard (inTask_oneTask ?_)).2
    exact ⟨.tagged "t" .null, ⟨[], _, rfl, rfl⟩, rfl, by simp [loop]⟩

end WorkflowLint
