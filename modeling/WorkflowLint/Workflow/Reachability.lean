/-
Which tasks of a workflow can be reached by following what they require.

`Reachable` is the least set that holds the name of every entry point, and with all names that a task requires also its own.
`settle` computes it: it sweeps over the tasks, taking in what has become reachable, until a sweep takes in nothing. Every
sweep but the last takes in a name, so one sweep more than there are tasks is enough. Successors play no part.
-/
import WorkflowLint.Workflow.Definition

namespace WorkflowLint

/-- a task's name and what it waits for -/
abbrev Waiting := String × Requirement

/-- the least set of names closed under the tasks' requirements -/
inductive Reachable (tasks : List Waiting) : String → Prop where
  | entry {name : String} : (name, Requirement.none) ∈ tasks → Reachable tasks name
  | after {name : String} {names : List String} :
      (name, Requirement.all names) ∈ tasks → (∀ n ∈ names, Reachable tasks n) → Reachable tasks name

namespace Reachability

/-- takes in one task if all that it waits for is reached -/
def takeIn (reached : List String) (task : Waiting) : List String :=
  if reached.contains task.1 then reached
  else
    match task.2 with
    | .all names => if names.all reached.contains then task.1 :: reached else reached
    | _ => reached

/-- one sweep over the tasks in order -/
def sweep (tasks : List Waiting) (reached : List String) : List String :=
  tasks.foldl takeIn reached

/-- sweeps until nothing is taken in -/
def settle (tasks : List Waiting) : Nat → List String → List String
  | 0, reached => reached
  | sweeps + 1, reached =>
    let next := sweep tasks reached
    if next.length = reached.length then reached else settle tasks sweeps next

/-- the names of the tasks that wait for nothing -/
def entries (tasks : List Waiting) : List String :=
  (tasks.filter fun task => task.2 == .none).map Prod.fst

/-- the names of all reachable tasks -/
def reached (tasks : List Waiting) : List String :=
  settle tasks (tasks.length + 1) (entries tasks)

end Reachability

def Workflow.waiting (workflow : Workflow) : List Waiting :=
  workflow.tasks.map fun task => (task.name, task.requirement)

/-- the names of the tasks that are not reachable, in order and with repetitions -/
def Workflow.unreachable (workflow : Workflow) : List String :=
  let reached := Reachability.reached workflow.waiting
  (workflow.waiting.map Prod.fst).filter fun name => !reached.contains name

end WorkflowLint
