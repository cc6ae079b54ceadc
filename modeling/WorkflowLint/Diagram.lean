/-
A drawing of every workflow of a document: one dashed cluster per workflow, in it a node per task, the edges of the task
graph, and for a task that loops an edge to itself that names its loop variable.
-/
import WorkflowLint.Dot
import WorkflowLint.Listing
import WorkflowLint.Workflow.Graph

namespace WorkflowLint.Diagram

/-- the identifier of a task's node -/
def nodeId (workflow task : String) : String :=
  workflow ++ "." ++ task

def nodeItem (workflow : String) (task : Task) : Dot.Item :=
  .line (Dot.quote (nodeId workflow task.name) ++ ";")

def edgeItem (workflow : String) (edge : NamedEdge) : Dot.Item :=
  .edge (nodeId workflow edge.source) (nodeId workflow edge.target) edge.link.label?

/-- the edge from a looping task to itself -/
def loopItem? (workflow : String) (task : Task) : Option Dot.Item :=
  task.loopVariable?.map fun name =>
    .edge (nodeId workflow task.name) (nodeId workflow task.name) (some ("loop " ++ name))

def cluster (workflow : Workflow) : List Dot.Item :=
  [.enter ("subgraph " ++ Dot.quote ("cluster_" ++ workflow.name)),
    .line ("label = " ++ Dot.quote workflow.name ++ ";"),
    .line "style = dashed;"] ++
  workflow.tasks.map (nodeItem workflow.name) ++
  (TaskGraph.ofWorkflow workflow).namedEdges.map (edgeItem workflow.name) ++
  workflow.tasks.filterMap (loopItem? workflow.name) ++
  [.leave]

/-- the drawing of the given workflows -/
def items (workflows : List Workflow) : List Dot.Item :=
  [.enter "digraph mistral", .line "rankdir=LR;", .line "node [shape=box, style=rounded];"] ++
    workflows.flatMap cluster ++ [.leave]

/-- the drawing of a text; one that is no document of ours gives an empty graph -/
def ofText (text : List Char) : String :=
  Dot.render (items (Workflow.ofText text))

end WorkflowLint.Diagram
