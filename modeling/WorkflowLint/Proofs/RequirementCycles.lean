/-
Why a task is unreachable.

Among tasks with distinct names there are three causes, found by following requirements from the task: a task whose
requirement names no tasks, a task that requires a name nobody has, and a task on a cycle of requirements. The cycles are
those of the graph that is drawn of the workflow, so the two accounts of a workflow, sweeps and graph, agree.

One direction is an induction over `Reachable`: a reachable task meets none of the causes and requires reachable tasks
only. The other needs that there are finitely many tasks: where requirements do not run in a cycle they are well founded,
and then, unless one of the other causes is met, everything is reachable from the bottom up.
-/
import Mathlib.Data.Fintype.Card
import Mathlib.Data.Set.Finite.List
import Mathlib.Logic.Relation
import WorkflowLint.Proofs.Reachability
import WorkflowLint.Proofs.TaskGraph

namespace WorkflowLint

open Relation

namespace Workflow

/-- the node of the graph is on a cycle of requirements; a task that requires itself is one -/
def OnCycle (workflow : Workflow) (i : Nat) : Prop :=
  TransGen (TaskGraph.ofWorkflow workflow).RequiresEdge i i

/-- what makes a task unreachable by itself -/
inductive Stuck (workflow : Workflow) (task : Task) : Prop where
  | unusable : task.requirement = .unusable → Stuck workflow task
  | undeclared {names : List String} {name : String} : task.requirement = .all names → name ∈ names →
      name ∉ workflow.tasks.map Task.name → Stuck workflow task
  | cycle {i : Nat} : workflow.tasks[i]? = some task → workflow.OnCycle i → Stuck workflow task

theorem name_mem_of_reachable {workflow : Workflow} {name : String} (h : Reachable workflow.waiting name) :
    name ∈ workflow.tasks.map Task.name := by
  cases h with
  | entry hm =>
    obtain ⟨task, ht, rfl, -⟩ := mem_waiting_iff.1 hm
    exact List.mem_map_of_mem ht
  | after hm =>
    obtain ⟨task, ht, rfl, -⟩ := mem_waiting_iff.1 hm
    exact List.mem_map_of_mem ht

section Distinct

variable {workflow : Workflow} (hnames : (workflow.tasks.map Task.name).Nodup)

include hnames

theorem eq_of_name_eq {a b : Task} (ha : a ∈ workflow.tasks) (hb : b ∈ workflow.tasks) (h : a.name = b.name) : a = b :=
  List.inj_on_of_nodup_map hnames ha hb h

theorem node_unique {i j : Nat} {task : Task} (hi : workflow.tasks[i]? = some task)
    (hj : workflow.tasks[j]? = some task) : i = j := by
  have hbound : i < workflow.tasks.length := (List.getElem?_eq_some_iff.1 hi).1
  exact (List.getElem?_inj hbound (List.Nodup.of_map _ hnames)).1 (hi.trans hj.symm)

/-! ## Reachable tasks -/

/-- What a reachable task waits for. -/
theorem reachable_cases {task : Task} (ht : task ∈ workflow.tasks) (h : Reachable workflow.waiting task.name) :
    task.requirement = .none ∨
      ∃ names, task.requirement = .all names ∧ ∀ n ∈ names, Reachable workflow.waiting n := by
  generalize hname : task.name = name at h
  cases h with
  | entry hm =>
    obtain ⟨other, ho, hother, hr⟩ := mem_waiting_iff.1 hm
    obtain rfl := eq_of_name_eq hnames ho ht (hother.trans hname.symm)
    exact Or.inl hr
  | after hm hall =>
    obtain ⟨other, ho, hother, hr⟩ := mem_waiting_iff.1 hm
    obtain rfl := eq_of_name_eq hnames ho ht (hother.trans hname.symm)
    exact Or.inr ⟨_, hr, hall⟩

theorem reachable_of_requires {task required : Task} (ht : task ∈ workflow.tasks)
    (h : Reachable workflow.waiting task.name) (hr : workflow.Requires task required) :
    Reachable workflow.waiting required.name := by
  obtain ⟨-, names, hreq, hmem⟩ := hr
  rcases reachable_cases hnames ht h with hnone | ⟨names', hreq', hall⟩
  · rw [hnone] at hreq; cases hreq
  · obtain rfl : names' = names := Requirement.all.inj (hreq'.symm.trans hreq)
    exact hall _ hmem

theorem reachable_of_reflTransGen {task culprit : Task} (ht : task ∈ workflow.tasks)
    (h : Reachable workflow.waiting task.name) (hpath : ReflTransGen workflow.Requires task culprit) :
    culprit ∈ workflow.tasks ∧ Reachable workflow.waiting culprit.name := by
  induction hpath with
  | refl => exact ⟨ht, h⟩
  | tail _ hstep ih => exact ⟨hstep.1, reachable_of_requires hnames ih.1 ih.2 hstep⟩

/-- A reachable task is on no cycle: the edge into it would come from a task that is reached before it and is on the cycle,
too. -/
theorem not_onCycle_of_reachable {name : String} (h : Reachable workflow.waiting name) {i : Nat} {task : Task}
    (hi : workflow.tasks[i]? = some task) (hname : task.name = name) : ¬ workflow.OnCycle i := by
  induction h generalizing i task with
  | entry hm =>
    intro hcycle
    obtain ⟨k, -, hedge⟩ := TransGen.tail'_iff.1 hcycle
    obtain ⟨required, task', hk, hi', -, names, hr, -⟩ := (TaskGraph.requiresEdge_iff hnames).1 hedge
    obtain rfl : task = task' := Option.some.inj (hi.symm.trans hi')
    obtain ⟨other, ho, hother, hnone⟩ := mem_waiting_iff.1 hm
    obtain rfl := eq_of_name_eq hnames ho (List.mem_of_getElem? hi) (hother.trans hname.symm)
    rw [hr] at hnone; cases hnone
  | after hm _ ih =>
    intro hcycle
    obtain ⟨k, hpath, hedge⟩ := TransGen.tail'_iff.1 hcycle
    obtain ⟨required, task', hk, hi', -, names, hr, hmem⟩ := (TaskGraph.requiresEdge_iff hnames).1 hedge
    obtain rfl : task = task' := Option.some.inj (hi.symm.trans hi')
    obtain ⟨other, ho, hother, hall⟩ := mem_waiting_iff.1 hm
    obtain rfl := eq_of_name_eq hnames ho (List.mem_of_getElem? hi) (hother.trans hname.symm)
    obtain rfl := Requirement.all.inj (hr.symm.trans hall)
    exact ih _ hmem hk rfl (TransGen.head' hedge hpath)

theorem not_stuck_of_reachable {task : Task} (ht : task ∈ workflow.tasks) (h : Reachable workflow.waiting task.name) :
    ¬ workflow.Stuck task := by
  intro hstuck
  cases hstuck with
  | unusable hu =>
    rcases reachable_cases hnames ht h with hr | ⟨names, hr, -⟩
    · rw [hu] at hr; cases hr
    · rw [hu] at hr; cases hr
  | @undeclared names name hreq hn hun =>
    rcases reachable_cases hnames ht h with hr | ⟨names', hr, hall⟩
    · rw [hreq] at hr; cases hr
    · obtain rfl := Requirement.all.inj (hreq.symm.trans hr)
      exact hun (name_mem_of_reachable (hall name hn))
  | cycle hi hcycle => exact not_onCycle_of_reachable hnames h hi rfl hcycle

/-! ## Unreachable tasks -/

/-- Following requirements from task to task is following edges backwards from node to node. -/
theorem transGen_edge_of_requires {i : Nat} {task required : Task} (hi : workflow.tasks[i]? = some task)
    (h : TransGen workflow.Requires task required) :
    ∃ j, workflow.tasks[j]? = some required ∧ TransGen (TaskGraph.ofWorkflow workflow).RequiresEdge j i := by
  induction h with
  | single hstep =>
    obtain ⟨j, hj⟩ := List.getElem?_of_mem hstep.1
    exact ⟨j, hj, .single ((TaskGraph.requiresEdge_iff hnames).2 ⟨_, _, hj, hi, hstep⟩)⟩
  | tail _ hstep ih =>
    obtain ⟨k, hk, hpath⟩ := ih
    obtain ⟨j, hj⟩ := List.getElem?_of_mem hstep.1
    exact ⟨j, hj, .head ((TaskGraph.requiresEdge_iff hnames).2 ⟨_, _, hj, hk, hstep⟩) hpath⟩

theorem stuck_of_transGen_self {task : Task} (ht : task ∈ workflow.tasks) (h : TransGen workflow.Requires task task) :
    workflow.Stuck task := by
  obtain ⟨i, hi⟩ := List.getElem?_of_mem ht
  obtain ⟨j, hj, hcycle⟩ := transGen_edge_of_requires hnames hi h
  obtain rfl := node_unique hnames hi hj
  exact .cycle hi hcycle

/-- Where no task that is found by following requirements is stuck, all of them are reachable. -/
theorem reachable_of_no_stuck {task : Task} (ht : task ∈ workflow.tasks)
    (hno : ∀ culprit ∈ workflow.tasks, ReflTransGen workflow.Requires task culprit → ¬ workflow.Stuck culprit) :
    Reachable workflow.waiting task.name := by
  -- the tasks found from `task`, each above what it requires; finitely many, and without a cycle
  let Found := {found : Task // found ∈ workflow.tasks ∧ ReflTransGen workflow.Requires task found}
  let below : Found → Found → Prop := fun a b => TransGen workflow.Requires b.1 a.1
  have hfinite : Finite Found :=
    Set.Finite.subset (List.finite_toSet workflow.tasks) (fun found (h : _ ∧ _) => h.1)
  have htrans : IsTrans Found below := ⟨fun a b c hab hbc => hbc.trans hab⟩
  have hirrefl : Std.Irrefl below :=
    ⟨fun a h => hno a.1 a.2.1 a.2.2 (stuck_of_transGen_self hnames a.2.1 h)⟩
  have hwf : WellFounded below := Finite.wellFounded_of_trans_of_irrefl below
  have hall : ∀ found : Found, Reachable workflow.waiting found.1.name := by
    intro found
    induction found using hwf.induction with
    | _ found ih =>
      obtain ⟨other, hmem, hpath⟩ := found
      cases hr : other.requirement with
      | none => exact .entry (mem_waiting_iff.2 ⟨other, hmem, rfl, hr⟩)
      | unusable => exact absurd (.unusable hr) (hno other hmem hpath)
      | all names =>
        refine .after (mem_waiting_iff.2 ⟨other, hmem, rfl, hr⟩) fun n hn => ?_
        by_cases hdeclared : n ∈ workflow.tasks.map Task.name
        · obtain ⟨required, hreq, rfl⟩ := List.mem_map.1 hdeclared
          have hstep : workflow.Requires other required := ⟨hreq, names, hr, hn⟩
          exact ih ⟨required, hreq, hpath.tail hstep⟩ (.single hstep)
        · exact absurd (.undeclared hr hn hdeclared) (hno other hmem hpath)
  exact hall ⟨task, ht, .refl⟩

theorem unreachable_iff_stuck {task : Task} (ht : task ∈ workflow.tasks) :
    task.name ∈ workflow.unreachable ↔
      ∃ culprit ∈ workflow.tasks, ReflTransGen workflow.Requires task culprit ∧ workflow.Stuck culprit := by
  rw [mem_unreachable_iff]
  constructor
  · rintro ⟨-, hun⟩
    by_contra hno
    exact hun (reachable_of_no_stuck hnames ht fun culprit hc hpath hstuck => hno ⟨culprit, hc, hpath, hstuck⟩)
  · rintro ⟨culprit, hc, hpath, hstuck⟩
    refine ⟨⟨task, ht, rfl⟩, fun h => ?_⟩
    exact not_stuck_of_reachable hnames hc (reachable_of_reflTransGen hnames ht h hpath).2 hstuck

end Distinct

/-- the node of a task that is reported -/
def Reported (workflow : Workflow) (i : Nat) : Prop :=
  ∃ task, workflow.tasks[i]? = some task ∧ task.name ∈ workflow.unreachable

/-- **Why tasks are unreachable.** Where task names are distinct, a task is reported if and only if following requirements
from it leads to a task that is stuck. So the edges for requirements among the tasks that are not reported have no cycle,
and none leads from a reported task to one that is not. -/
theorem unreachable_iff_requirement_stuck (workflow : Workflow) (hnames : (workflow.tasks.map Task.name).Nodup) :
    (∀ task ∈ workflow.tasks, task.name ∈ workflow.unreachable ↔
      ∃ culprit ∈ workflow.tasks, ReflTransGen workflow.Requires task culprit ∧ workflow.Stuck culprit) ∧
    (∀ i, ¬ TransGen (fun i j => (TaskGraph.ofWorkflow workflow).RequiresEdge i j ∧
      ¬ workflow.Reported i ∧ ¬ workflow.Reported j) i i) ∧
    ∀ i j, (TaskGraph.ofWorkflow workflow).RequiresEdge i j → workflow.Reported i → workflow.Reported j := by
  refine ⟨fun task ht => unreachable_iff_stuck hnames ht, ?_, ?_⟩
  · intro i hcycle
    obtain ⟨k, ⟨hedge, hun, -⟩, -⟩ := TransGen.head'_iff.1 hcycle
    obtain ⟨task, -, hi, -⟩ := (TaskGraph.requiresEdge_iff hnames).1 hedge
    have ht := List.mem_of_getElem? hi
    have honcycle : workflow.OnCycle i := TransGen.mono (fun _ _ (h : _ ∧ _ ∧ _) => h.1) i i hcycle
    exact hun ⟨task, hi, (unreachable_iff_stuck hnames ht).2 ⟨task, ht, .refl, .cycle hi honcycle⟩⟩
  · rintro i j hedge ⟨required, hi, hreported⟩
    obtain ⟨required', task, hi', hj, hstep⟩ := (TaskGraph.requiresEdge_iff hnames).1 hedge
    obtain rfl : required = required' := Option.some.inj (hi.symm.trans hi')
    obtain ⟨culprit, hc, hpath, hstuck⟩ := (unreachable_iff_stuck hnames hstep.1).1 hreported
    exact ⟨task, hj, (unreachable_iff_stuck hnames (List.mem_of_getElem? hj)).2
      ⟨culprit, hc, .head hstep hpath, hstuck⟩⟩

/-- a task `b` that requires an entry point and a task on the cycle of `c` and `d` -/
def tangled : Workflow :=
  let requires (names : List String) : Yaml.Value := .map [(.str "requires", .seq (names.map .str))]
  ⟨"tangled", some [(.str "tasks", .map
    [(.str "a", .map []), (.str "b", requires ["a", "c"]), (.str "c", requires ["d"]), (.str "d", requires ["c"])])]⟩

/-- **Behind a cycle.** `b` is on no cycle itself, and one of the two tasks it requires is reachable. -/
theorem tangled_stuck :
    (tangled.tasks.map Task.name).Nodup ∧ tangled.unreachable = ["b", "c", "d"] ∧
      ∃ task ∈ tangled.tasks, task.name = "b" ∧
        ∃ culprit ∈ tangled.tasks, ReflTransGen tangled.Requires task culprit ∧ tangled.Stuck culprit := by
  have hnames : (tangled.tasks.map Task.name).Nodup := by decide +kernel
  have hreport : tangled.unreachable = ["b", "c", "d"] := by decide +kernel
  have hb : "b" ∈ tangled.unreachable := by rw [hreport]; decide
  obtain ⟨⟨task, ht, hname⟩, -⟩ := mem_unreachable_iff.1 hb
  exact ⟨hnames, hreport, task, ht, hname,
    ((unreachable_iff_requirement_stuck tangled hnames).1 task ht).1 (hname ▸ hb)⟩

end Workflow

end WorkflowLint
