/-
The shape of a document: what its root, its workflows and its tasks must and may hold.

Each rule gives one finding or none, and no finding hides another, except that nothing is asked of the inside of what is no
mapping. For most attributes null counts as absent; the ones that a rule asks for with `field?` must have a proper value
once they are written at all.
-/
import WorkflowLint.Check.Finding
import WorkflowLint.Layout.Block

namespace WorkflowLint.Check

open WorkflowLint.Yaml

/-- whether an attribute is absent or has a property -/
def absentOr (p : Value → Bool) : Option Value → Bool
  | none => true
  | some value => p value

/-! ## Tasks -/

/-- whether a value may list the successors of a task -/
def isTransition (value : Value) : Bool :=
  match value.bare with
  | .str _ => true
  | .seq items => items.all fun item => match item.bare with | .str _ => true | .map _ => true | _ => false
  | _ => false

/-- what a task may do, one of which it must -/
def duties : List String := ["action", "workflow", "task-defaults"]

def checkTransition (layout : Layout) (workflow : String) (task : Task) (transition : Transition) : List Finding :=
  require (absentOr isTransition (task.get? transition.key)) (.transitionShape transition task.name)
    (layout.taskKey workflow task.name transition.key)

/-- the basic rules of a task -/
def checkTask (layout : Layout) (workflow : String) (task : Task) : List Finding :=
  if task.attributes.isNone then [⟨.taskShape workflow, layout.task workflow task.name⟩]
  else
    require (task.name != "") (.namelessTask workflow) (layout.workflowKey workflow "tasks") ++
    require (duties.any fun key => (task.get? key).isSome) (.idleTask task.name) (layout.task workflow task.name) ++
    require (absentOr (fun value => value.mapping?.isSome) (task.get? "input")) (.taskInputShape task.name)
      (layout.taskKey workflow task.name "input") ++
    Transition.all.flatMap (checkTransition layout workflow task)

/-- the finding about `with-items` -/
def loopProblem? (task : Task) : Option Problem :=
  match task.get? "with-items" with
  | none => none
  | some value =>
    match value.mapping? with
    | none => some .loopShape
    | some loop =>
      if (Mapping.present? loop "item").isSome && (Mapping.present? loop "values").isSome then none
      else some .loopKeys

/-- whether a value is a number that is not below zero -/
def isDelay (value : Value) : Bool :=
  match value.bare with
  | .int n => 0 ≤ n
  | .float x => x.isNonNegative
  | _ => false

/-- whether a value is a whole number from one up -/
def isCount (value : Value) : Bool :=
  match value.bare with
  | .int n => 1 ≤ n
  | _ => false

/-- whether a value is one of the given strings -/
def isOneOf (choices : List String) (value : Value) : Bool :=
  match value.string? with
  | some s => choices.contains s
  | none => false

def delays : List String := ["pause-before", "wait-after"]

/-- the rules of a task's further attributes -/
def checkAttributes (layout : Layout) (workflow : String) (task : Task) : List Finding :=
  if task.attributes.isNone then []
  else
    let place := layout.taskKey workflow task.name
    (match loopProblem? task with
      | some problem => [⟨problem, place "with-items"⟩]
      | none => []) ++
    (delays.flatMap fun key => require (absentOr isDelay (task.field? key)) (.negativeDelay key) (place key)) ++
    require (absentOr isCount (task.field? "concurrency")) .concurrency (place "concurrency") ++
    require (absentOr (isOneOf joinModes) (task.field? "join")) .joinMode (place "join") ++
    require (absentOr (fun value => value.string?.isSome) (task.get? "target")) .targetShape (place "target") ++
    require (absentOr (fun value => value.mapping?.isSome) (task.get? "output-on-error")) .errorOutputShape
      (place "output-on-error")

/-! ## Workflows -/

def checkType (layout : Layout) (workflow : Workflow) : List Finding :=
  match workflow.get? "type" with
  | none => []
  | some value =>
    require (isOneOf workflowTypes value) (.workflowType value.label) (layout.workflowKey workflow.name "type")

/-- the section `tasks` and the basic rules of its tasks -/
def checkTasks (layout : Layout) (workflow : Workflow) : List Finding :=
  match workflow.get? "tasks" with
  | none => [⟨.missingTasks workflow.name, layout.workflow workflow.name⟩]
  | some value =>
    if value.mapping?.isNone then [⟨.tasksShape workflow.name, layout.workflowKey workflow.name "tasks"⟩]
    else workflow.tasks.flatMap (checkTask layout workflow.name)

def checkWorkflow (layout : Layout) (workflow : Workflow) : List Finding :=
  if workflow.attributes.isNone then [⟨.workflowShape workflow.name, layout.workflow workflow.name⟩]
  else
    checkType layout workflow ++
    checkTasks layout workflow ++
    require (absentOr (fun value => value.items?.isSome || value.mapping?.isSome) (workflow.get? "input"))
      (.workflowInputShape workflow.name) (layout.workflowKey workflow.name "input") ++
    require (absentOr (fun value => value.mapping?.isSome) (workflow.get? "task-defaults"))
      (.defaultsShape workflow.name) (layout.workflowKey workflow.name "task-defaults") ++
    workflow.tasks.flatMap (checkAttributes layout workflow.name)

/-! ## The root -/

def checkVersion (layout : Layout) (root : Mapping) : List Finding :=
  match Mapping.present? root "version" with
  | none => [⟨.missingVersion, layout.rootKey "version"⟩]
  | some value => require (isOneOf [supportedVersion] value) .unsupportedVersion (layout.rootKey "version")

def checkWorkflows (layout : Layout) (root : Mapping) : List Finding :=
  match Mapping.present? root "workflows" with
  | none => [⟨.missingWorkflows, layout.top⟩]
  | some value =>
    if value.mapping?.isNone then [⟨.workflowsShape, layout.rootKey "workflows"⟩]
    else (Workflow.ofRoot root).flatMap (checkWorkflow layout)

/-- every finding about the shape of a document -/
def checkShape (layout : Layout) (root : Mapping) : List Finding :=
  checkVersion layout root ++ checkWorkflows layout root

end WorkflowLint.Check
