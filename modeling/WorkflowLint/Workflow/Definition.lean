/-
Workflows and tasks as views of a document's value.

Nothing here refuses a document: where a section has the wrong shape, a view is empty or says so, and the checks decide what
to report. Entries keep document order. A name is the label of its key, so two entries may have one name.
-/
import WorkflowLint.Yaml.Value

namespace WorkflowLint

open WorkflowLint.Yaml

/-- an entry of a workflow's `tasks`: its name, and its attributes if it is a mapping -/
structure Task where
  name : String
  attributes : Option Mapping
deriving Repr

/-- an entry of a document's `workflows`: its name, and its attributes if it is a mapping -/
structure Workflow where
  name : String
  attributes : Option Mapping
deriving Repr

/-- what a task waits for -/
inductive Requirement where
  /-- nothing: the task is an entry point -/
  | none
  /-- all of the named tasks -/
  | all (names : List String)
  /-- something that names no tasks, so it never comes about -/
  | unusable
deriving DecidableEq, Repr

/-- when a task goes on to its successors -/
inductive Transition where
  | onSuccess
  | onError
  | onComplete
deriving DecidableEq, Repr

namespace Transition

/-- the attribute that lists the successors -/
def key : Transition → String
  | onSuccess => "on-success"
  | onError => "on-error"
  | onComplete => "on-complete"

def all : List Transition :=
  [onSuccess, onError, onComplete]

def ofKey? (key : String) : Option Transition :=
  all.find? fun transition => transition.key == key

end Transition

/-! ## Tasks -/

namespace Task

def ofEntry (entry : Value × Value) : Task :=
  ⟨entry.1.label, entry.2.mapping?⟩

/-- an attribute, null or not -/
def field? (task : Task) (key : String) : Option Value :=
  task.attributes.bind fun attributes => Mapping.field? attributes key

/-- an attribute, unless it is null -/
def get? (task : Task) (key : String) : Option Value :=
  task.attributes.bind fun attributes => Mapping.present? attributes key

def hasJoin (task : Task) : Bool :=
  (task.get? "join").isSome

/-- the labels of the keys of an attribute that is a mapping -/
def keysOf (task : Task) (key : String) : List String :=
  match task.get? key with
  | some value => value.keyLabels
  | none => []

/-- the variables that the task publishes -/
def published (task : Task) : List String :=
  task.keysOf "publish"

/-- the variables that the task sets when it fails -/
def errorOutputs (task : Task) : List String :=
  task.keysOf "output-on-error"

/-- the variable that runs over the task's items -/
def loopVariable? (task : Task) : Option String :=
  (((task.get? "with-items").bind Value.mapping?).bind fun loop => Mapping.present? loop "item").bind Value.string?

def requirement (task : Task) : Requirement :=
  match task.get? "requires" with
  | none => .none
  | some value =>
    match value.items? with
    | some [] => .none
    | some items =>
      if items.all fun item => item.string?.isSome then .all (items.filterMap Value.string?) else .unusable
    | none => .unusable

/-- the task that an item of a list of successors names: a string, or the only key of a mapping -/
def successor? (item : Value) : Option String :=
  match item.bare with
  | .str name => some name
  | .map [(key, _)] => some key.label
  | _ => none

/-- the successors of a task, in order and with repetitions -/
def successors (task : Task) (transition : Transition) : List String :=
  match task.get? transition.key with
  | none => []
  | some value =>
    match value.bare with
    | .str name => [name]
    | .seq items => items.filterMap successor?
    | _ => []

end Task

/-! ## Workflows -/

namespace Workflow

def ofEntry (entry : Value × Value) : Workflow :=
  ⟨entry.1.label, entry.2.mapping?⟩

/-- an attribute, unless it is null -/
def get? (workflow : Workflow) (key : String) : Option Value :=
  workflow.attributes.bind fun attributes => Mapping.present? attributes key

/-- the entries of `tasks`, if it is a mapping -/
def taskEntries? (workflow : Workflow) : Option Mapping :=
  (workflow.get? "tasks").bind Value.mapping?

def tasks (workflow : Workflow) : List Task :=
  match workflow.taskEntries? with
  | some entries => entries.map Task.ofEntry
  | none => []

/-- whether `tasks` has the given string as a key -/
def hasTask (workflow : Workflow) (name : String) : Bool :=
  match workflow.taskEntries? with
  | some entries => (Mapping.field? entries name).isSome
  | none => false

/-- the inputs that an item of a list of inputs declares: a string, or the keys of a mapping of defaults -/
def inputNames (item : Value) : List String :=
  match item.bare with
  | .str name => [name]
  | .map entries => Mapping.labels entries
  | _ => []

/-- the names of the inputs: items of a list, or keys of a mapping -/
def inputs (workflow : Workflow) : List String :=
  match workflow.get? "input" with
  | none => []
  | some value =>
    match value.bare with
    | .seq items => items.flatMap inputNames
    | .map entries => Mapping.labels entries
    | _ => []

/-- the workflows of a document with the given root -/
def ofRoot (root : Mapping) : List Workflow :=
  match (Mapping.present? root "workflows").bind Value.mapping? with
  | some entries => entries.map ofEntry
  | none => []

end Workflow

end WorkflowLint
