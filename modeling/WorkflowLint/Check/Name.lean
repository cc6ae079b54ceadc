/-
Names of workflows and tasks: what they are made of, which are reserved, how long they may be, and that no two tasks of a
workflow have the same one.
-/
import WorkflowLint.Check.Finding
import WorkflowLint.Layout.Block

namespace WorkflowLint.Check

/-- what a name may be made of -/
def isNameChar (c : Char) : Bool :=
  ('a' ≤ c && c ≤ 'z') || ('0' ≤ c && c ≤ '9') || c == '_' || c == '-'

def isName (name : String) : Bool :=
  !name.toList.isEmpty && name.toList.all isNameChar

/-- most UTF-16 code units of a task's name; one that joins branches gets more text added when it runs -/
def nameLimit (hasJoin : Bool) : Nat :=
  if hasJoin then 208 else 255

/-- a task by what its name's rules ask for: name, whether it joins branches, and where it is -/
structure NamedTask where
  name : String
  hasJoin : Bool
  range : Range
deriving Repr

/-- the findings about the names of tasks, given the names before the first of them -/
def checkTaskNames (workflow : String) : List String → List NamedTask → List Finding
  | _, [] => []
  | seen, ⟨name, hasJoin, range⟩ :: rest =>
    require (isName name) (.taskName name) range ++
    require (!reservedNames.contains name) (.reservedName name) range ++
    require (decide (Text.utf16Length name.toList ≤ nameLimit hasJoin)) (.longName name (nameLimit hasJoin)) range ++
    require (!seen.contains name) (.duplicateName name workflow) range ++
    checkTaskNames workflow (name :: seen) rest

def namedTask (layout : Layout) (workflow : Workflow) (task : Task) : NamedTask :=
  ⟨task.name, task.hasJoin, layout.task workflow.name task.name⟩

def checkWorkflowNames (layout : Layout) (workflow : Workflow) : List Finding :=
  require (isName workflow.name) (.workflowName workflow.name) (layout.workflow workflow.name) ++
    checkTaskNames workflow.name [] (workflow.tasks.map (namedTask layout workflow))

/-- every finding about names -/
def checkNames (layout : Layout) (root : Yaml.Mapping) : List Finding :=
  (Workflow.ofRoot root).flatMap (checkWorkflowNames layout)

end WorkflowLint.Check
