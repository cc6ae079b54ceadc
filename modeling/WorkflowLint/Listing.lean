/-
Names that an editor offers for completion: workflows, tasks of a workflow, and the variables that a document declares.

A text that is no YAML, or no document of ours, lists nothing.
-/
import WorkflowLint.Workflow.Definition
import WorkflowLint.Yaml.Document

namespace WorkflowLint

/-- the workflows of a text -/
def Workflow.ofText (text : List Char) : List Workflow :=
  match Yaml.parse text with
  | .error _ => []
  | .ok value =>
    match value.mapping? with
    | none => []
    | some root => Workflow.ofRoot root

namespace Workflow

theorem ofText_of_root {text : List Char} {value : Yaml.Value} {root : Yaml.Mapping} (hparse : Yaml.parse text = .ok value)
    (hroot : value.mapping? = some root) : ofText text = ofRoot root := by
  rw [ofText, hparse]
  simp only [hroot]

/-- A text with workflows is a document of ours. -/
theorem exists_root_of_mem_ofText {text : List Char} {workflow : Workflow} (h : workflow ∈ ofText text) :
    ∃ value root, Yaml.parse text = .ok value ∧ value.mapping? = some root := by
  unfold ofText at h
  cases hparse : Yaml.parse text with
  | error fault =>
    rw [hparse] at h
    exact absurd h List.not_mem_nil
  | ok value =>
    simp only [hparse] at h
    cases hroot : value.mapping? with
    | none =>
      rw [hroot] at h
      exact absurd h List.not_mem_nil
    | some root => exact ⟨value, root, rfl, hroot⟩

end Workflow

namespace Listing

def workflowNames (workflows : List Workflow) : List String :=
  workflows.map Workflow.name

/-- the tasks of the first workflow with the given name -/
def taskNames (workflows : List Workflow) (workflow : String) : List String :=
  match workflows.find? fun w => w.name == workflow with
  | some w => w.tasks.map Task.name
  | none => []

/-- the variables that a task declares -/
def taskVariables (task : Task) : List String :=
  task.published ++ task.errorOutputs ++ task.loopVariable?.toList

/-- the variables that a workflow declares -/
def workflowVariables (workflow : Workflow) : List String :=
  workflow.inputs ++ workflow.tasks.flatMap taskVariables

/-- the names, each where it first comes up, without those already seen -/
def firstSeen (seen : List String) : List String → List String
  | [] => []
  | name :: rest => if seen.contains name then firstSeen seen rest else name :: firstSeen (name :: seen) rest

/-- the variables that any of the workflows declares, each once, in order of first appearance -/
def variableNames (workflows : List Workflow) : List String :=
  firstSeen [] (workflows.flatMap workflowVariables)

end Listing

end WorkflowLint
