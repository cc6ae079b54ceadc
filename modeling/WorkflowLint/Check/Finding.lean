/-
Everything that the checks of a document can find, and the wording of each finding.
-/
import WorkflowLint.Diagnostic
import WorkflowLint.Workflow.Definition
import WorkflowLint.Yaml.Fault

namespace WorkflowLint.Check

/-- the version of the workflow language that is supported -/
def supportedVersion : String := "2.0"

/-- how workflows may be run -/
def workflowTypes : List String := ["direct", "reverse"]

/-- how branches may be joined -/
def joinModes : List String := ["all", "any"]

/-- names that stand for something else where a task is named -/
def reservedNames : List String := ["noop", "fail", "succeed", "pause"]

/-- what names are made of, as it is shown to people -/
def namePattern : String := "^[a-z0-9_-]+$"

inductive Problem where
  /-- the text is no YAML -/
  | unparsable (fault : Yaml.Fault)
  | missingVersion
  | unsupportedVersion
  | missingWorkflows
  | workflowsShape
  | workflowShape (workflow : String)
  | workflowType (label : String)
  | missingTasks (workflow : String)
  | tasksShape (workflow : String)
  | workflowInputShape (workflow : String)
  | defaultsShape (workflow : String)
  | taskShape (workflow : String)
  | namelessTask (workflow : String)
  /-- a task that does nothing -/
  | idleTask (task : String)
  | taskInputShape (task : String)
  | transitionShape (transition : Transition) (task : String)
  | loopShape
  | loopKeys
  | negativeDelay (key : String)
  | concurrency
  | joinMode
  | targetShape
  | errorOutputShape
  | unknownVariable (name task workflow : String)
  | unknownTask (target task : String)
  | workflowName (workflow : String)
  | taskName (task : String)
  | reservedName (task : String)
  | longName (task : String) (limit : Nat)
  | duplicateName (task workflow : String)
  | orphan (task workflow : String)
deriving DecidableEq, Repr

def Problem.message : Problem → String
  | unparsable fault => "Error parsing YAML: " ++ fault.message
  | missingVersion => "Missing 'version' field in workflow definition"
  | unsupportedVersion => "Unsupported Mistral version. Only '" ++ supportedVersion ++ "' is supported"
  | missingWorkflows => "Missing 'workflows' section in Mistral definition"
  | workflowsShape => "'workflows' must be an object mapping workflow names to definitions"
  | workflowShape workflow => "Workflow '" ++ workflow ++ "' must be an object"
  | workflowType label => "Invalid workflow type '" ++ label ++ "'. Must be 'direct' or 'reverse'"
  | missingTasks workflow => "Missing 'tasks' section in workflow '" ++ workflow ++ "'"
  | tasksShape workflow => "'tasks' section in workflow '" ++ workflow ++ "' must be a mapping"
  | workflowInputShape workflow =>
    "'input' section in workflow '" ++ workflow ++ "' must be an array or a mapping of default values"
  | defaultsShape workflow => "'task-defaults' must be a mapping at workflow '" ++ workflow ++ "'"
  | taskShape workflow => "Task in workflow '" ++ workflow ++ "' must be an object"
  | namelessTask workflow => "Missing 'name' field in task in workflow '" ++ workflow ++ "'"
  | idleTask task => "Task '" ++ task ++ "' must have at least one of: action, workflow, or task-defaults"
  | taskInputShape task => "'input' in task '" ++ task ++ "' must be an object"
  | transitionShape transition task =>
    "Invalid '" ++ transition.key ++ "' in task '" ++ task ++ "'. Must be string or array"
  | loopShape => "'with-items' must be a mapping"
  | loopKeys => "'with-items' requires both 'item' and 'values' keys"
  | negativeDelay key => "'" ++ key ++ "' must be a non-negative number"
  | concurrency => "'concurrency' must be an integer >= 1"
  | joinMode => "'join' must be one of " ++ ", ".intercalate joinModes
  | targetShape => "'target' must be a string expression"
  | errorOutputShape => "'output-on-error' must be a mapping"
  | unknownVariable name task workflow =>
    "Unknown YAQL variable '$." ++ name ++ "' in task '" ++ task ++ "' of workflow '" ++ workflow ++ "'"
  | unknownTask target task =>
    "Unknown task reference '" ++ target ++ "' in YAQL expression of task '" ++ task ++ "'"
  | workflowName workflow => "Workflow name '" ++ workflow ++ "' must match /" ++ namePattern ++ "/"
  | taskName task => "Task name '" ++ task ++ "' must match /" ++ namePattern ++ "/"
  | reservedName task => "Task name '" ++ task ++ "' must not equal one of: " ++ ", ".intercalate reservedNames ++ "."
  | longName task limit =>
    "Task name '" ++ task ++ "' exceeds maximum length of " ++ toString limit ++ " characters."
  | duplicateName task workflow => "Duplicate task name '" ++ task ++ "' in workflow '" ++ workflow ++ "'"
  | orphan task workflow =>
    "Orphan task '" ++ task ++ "' is not reachable from any entry in workflow '" ++ workflow ++ "'"

/-- a problem and the range it is reported at -/
structure Finding where
  problem : Problem
  range : Range
deriving DecidableEq, Repr

def Finding.diagnostic (finding : Finding) : Diagnostic :=
  .structural finding.problem.message finding.range

/-- The finding, unless the condition holds. The range is only looked up when there is something to report. -/
@[macro_inline]
def require (condition : Bool) (problem : Problem) (range : Range) : List Finding :=
  if condition then [] else [⟨problem, range⟩]

end WorkflowLint.Check
