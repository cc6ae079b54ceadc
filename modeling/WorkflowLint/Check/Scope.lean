/-
What the expressions of a task may refer to.

A task may read the inputs of its workflow, the variables that tasks declared before it publish or loop over, and its own
loop variable. The expressions of a task are those that begin on one of its lines. A reference to a task must name a key of
the workflow's `tasks`.
-/
import WorkflowLint.Check.Finding
import WorkflowLint.Expression.Embedded
import WorkflowLint.Expression.Reference
import WorkflowLint.Layout.Block

namespace WorkflowLint.Check

open WorkflowLint.Expression

/-- the variables that a task leaves to the ones after it -/
def leaves (task : Task) : List String :=
  task.published ++ task.loopVariable?.toList

/-- the findings about one expression of a task, given the variables in scope before the task -/
def checkReferences (workflow : Workflow) (scope : List String) (task : Task) (occurrence : Occurrence) :
    List Finding :=
  ((variableNames occurrence.body).map String.ofList).flatMap (fun name =>
    require (scope.contains name || task.loopVariable? == some name)
      (.unknownVariable name task.name workflow.name) occurrence.range) ++
  ((taskReferences occurrence.body).map String.ofList).flatMap (fun name =>
    require (workflow.hasTask name) (.unknownTask name task.name) occurrence.range)

/-- the findings about the expressions of tasks, given the variables in scope before the first of them -/
def checkScopeFrom (layout : Layout) (workflow : Workflow) (occurrences : List Occurrence) :
    List String → List Task → List Finding
  | _, [] => []
  | scope, task :: rest =>
    let span := layout.taskSpan workflow.name task.name
    let own := occurrences.filter fun occurrence => span.contains occurrence.range.start.line
    own.flatMap (checkReferences workflow scope task) ++
      checkScopeFrom layout workflow occurrences (scope ++ leaves task) rest

def checkWorkflowScope (layout : Layout) (occurrences : List Occurrence) (workflow : Workflow) : List Finding :=
  if workflow.attributes.isNone then []
  else checkScopeFrom layout workflow occurrences workflow.inputs workflow.tasks

/-- every finding about what expressions refer to -/
def checkScope (layout : Layout) (occurrences : List Occurrence) (root : Yaml.Mapping) : List Finding :=
  (Workflow.ofRoot root).flatMap (checkWorkflowScope layout occurrences)

end WorkflowLint.Check
