/-
The graph of a workflow's tasks.

There is one node per entry, in order. A name stands for the last entry with that name. Edges run between nodes: from each
task that is required to the task that requires it, and from each task to its successors. What names no declared task gives
no edge.
-/
import WorkflowLint.Workflow.Definition

namespace WorkflowLint

/-- why one task leads to another -/
inductive Link where
  | requires
  | transition (transition : Transition)
deriving DecidableEq, Repr

/-- how a link is labelled in a drawing; the ordinary links have no label -/
def Link.label? : Link → Option String
  | requires => none
  | transition .onSuccess => none
  | transition t => some t.key

/-- an edge between two nodes, given by their numbers -/
structure Edge where
  source : Nat
  target : Nat
  link : Link
deriving DecidableEq, Repr

/-- an edge between two tasks, given by their names -/
structure NamedEdge where
  source : String
  target : String
  link : Link
deriving DecidableEq, Repr

structure TaskGraph where
  nodes : List String
  edges : List Edge
deriving DecidableEq, Repr

namespace TaskGraph

/-- the number of the last of the names that is the given one, the first having the number `n` -/
def lastFrom (n : Nat) (name : String) : List String → Option Nat
  | [] => none
  | other :: rest =>
    match lastFrom (n + 1) name rest with
    | some i => some i
    | none => if other = name then some n else none

/-- the node that a name stands for -/
def indexIn? (nodes : List String) (name : String) : Option Nat :=
  lastFrom 0 name nodes

/-- the edges that lead into a task from what it requires -/
def requirementEdges (nodes : List String) (this : Nat) (task : Task) : List Edge :=
  match task.requirement with
  | .all names => names.filterMap fun name => (indexIn? nodes name).map fun source => ⟨source, this, .requires⟩
  | _ => []

/-- the edges that lead from a task to its successors -/
def successorEdges (nodes : List String) (this : Nat) (task : Task) (transition : Transition) : List Edge :=
  (task.successors transition).filterMap fun name =>
    (indexIn? nodes name).map fun target => ⟨this, target, .transition transition⟩

/-- the edges that a task declares -/
def edgesOf (nodes : List String) (task : Task) : List Edge :=
  match indexIn? nodes task.name with
  | none => []
  | some this => requirementEdges nodes this task ++ Transition.all.flatMap (successorEdges nodes this task)

def ofWorkflow (workflow : Workflow) : TaskGraph :=
  let nodes := workflow.tasks.map Task.name
  ⟨nodes, workflow.tasks.flatMap (edgesOf nodes)⟩

/-- the node that a name stands for -/
def index? (graph : TaskGraph) (name : String) : Option Nat :=
  indexIn? graph.nodes name

/-- each name with the node that it stands for, by ascending node -/
def indices (graph : TaskGraph) : List (String × Nat) :=
  graph.nodes.zipIdx.filter fun (name, i) => graph.index? name == some i

/-- an edge by the names of its nodes -/
def nameEdge (graph : TaskGraph) (edge : Edge) : NamedEdge :=
  ⟨(graph.nodes[edge.source]?).getD "", (graph.nodes[edge.target]?).getD "", edge.link⟩

/-- the edges by name, in the order in which they were declared -/
def namedEdges (graph : TaskGraph) : List NamedEdge :=
  graph.edges.map graph.nameEdge

end TaskGraph

end WorkflowLint
