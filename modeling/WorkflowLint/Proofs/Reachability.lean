/-
Sweeping over the tasks until nothing is taken in reaches exactly the least set closed under their requirements.

Within one sweep what is taken in depends on the order of the tasks, since a name counts as reached from the moment it is
taken in. What the sweeps lead to does not:
- everything taken in is `Reachable` (`Sweeps.sound`), and a sweep that takes in nothing leaves a closed set behind
  (`closed_of_sweep_eq`), which has every reachable name in it;
- every sweep but the last takes in a name that some task waited under, so `pending` goes down and there are at most as many
  sweeps as tasks, and one more (`settle_sweeps`).

`Sweeps` is the loop without a bound on its length: that it relates a start to an end says that the loop comes to an end.

`unreachable_least_closed` puts this together: what is reported are the tasks whose names are not in the least closed set,
in order and with repetitions, and the order of the tasks decides nothing but the order of the report.
-/
import Mathlib.Data.List.Perm.Basic
import Mathlib.Order.Bounds.Basic
import WorkflowLint.Workflow.Reachability

namespace WorkflowLint

namespace Reachability

/-! ## One task -/

/-- What taking in a task can do. -/
theorem takeIn_cases (reached : List String) (task : Waiting) :
    takeIn reached task = reached ∧
        (∀ names, task.2 = .all names → (∀ n ∈ names, n ∈ reached) → task.1 ∈ reached) ∨
      takeIn reached task = task.1 :: reached ∧ task.1 ∉ reached ∧
        ∃ names, task.2 = .all names ∧ ∀ n ∈ names, n ∈ reached := by
  unfold takeIn
  split
  case isTrue h => exact Or.inl ⟨rfl, fun _ _ _ => by simpa using h⟩
  case isFalse h =>
    have hmem : task.1 ∉ reached := by simpa using h
    split
    case h_1 names hnames =>
      split
      case isTrue hall => exact Or.inr ⟨rfl, hmem, names, hnames, by simpa using hall⟩
      case isFalse hall =>
        refine Or.inl ⟨rfl, fun other hother hreached => absurd ?_ hall⟩
        obtain rfl : names = other := Requirement.all.inj (hnames.symm.trans hother)
        simpa using hreached
    case h_2 hnone => exact Or.inl ⟨rfl, fun names hnames => absurd hnames (hnone names)⟩

theorem suffix_takeIn (reached : List String) (task : Waiting) : reached <:+ takeIn reached task := by
  rcases takeIn_cases reached task with ⟨h, -⟩ | ⟨h, -⟩
  · exact ⟨[], h.symm⟩
  · exact ⟨[task.1], h.symm⟩

/-! ## One sweep -/

theorem suffix_sweep (tasks : List Waiting) (reached : List String) : reached <:+ sweep tasks reached := by
  induction tasks generalizing reached with
  | nil => exact List.suffix_refl _
  | cons task tasks ih => exact (suffix_takeIn reached task).trans (ih _)

theorem subset_sweep (tasks : List Waiting) (reached : List String) : reached ⊆ sweep tasks reached :=
  (suffix_sweep tasks reached).subset

theorem takeIn_of_sweep_eq {tasks : List Waiting} {reached : List String} (h : sweep tasks reached = reached) :
    ∀ task ∈ tasks, takeIn reached task = reached := by
  induction tasks with
  | nil => simp
  | cons task tasks ih =>
    have hfirst : takeIn reached task = reached := by
      have hback : takeIn reached task <:+ reached := by
        have := suffix_sweep tasks (takeIn reached task)
        rwa [show sweep tasks (takeIn reached task) = reached from h] at this
      exact hback.eq_of_length_le (suffix_takeIn reached task).length_le
    have hrest : sweep tasks reached = reached := by
      have : sweep tasks (takeIn reached task) = reached := h
      rwa [hfirst] at this
    intro other ho
    rcases List.mem_cons.1 ho with rfl | ho
    · exact hfirst
    · exact ih hrest other ho

theorem sweep_sound {tasks all : List Waiting} {reached : List String} (hsub : tasks ⊆ all)
    (h : ∀ name ∈ reached, Reachable all name) : ∀ name ∈ sweep tasks reached, Reachable all name := by
  induction tasks generalizing reached with
  | nil => exact h
  | cons task tasks ih =>
    refine ih (fun other ho => hsub (List.mem_cons_of_mem _ ho)) fun name hname => ?_
    rcases takeIn_cases reached task with ⟨heq, -⟩ | ⟨heq, -, names, hnames, hall⟩
    · rw [heq] at hname; exact h name hname
    · rw [heq] at hname
      rcases List.mem_cons.1 hname with rfl | hname
      · have hmem : (task.1, Requirement.all names) ∈ all := hnames ▸ hsub List.mem_cons_self
        exact .after hmem fun n hn => h n (hall n hn)
      · exact h name hname

/-- A sweep that changes anything takes in the name of a task that was not reached before. -/
theorem exists_new_of_sweep_ne {tasks : List Waiting} {reached : List String} (h : sweep tasks reached ≠ reached) :
    ∃ task ∈ tasks, task.1 ∉ reached ∧ task.1 ∈ sweep tasks reached := by
  induction tasks with
  | nil => exact absurd rfl h
  | cons task tasks ih =>
    rcases takeIn_cases reached task with ⟨heq, -⟩ | ⟨heq, hnew, -⟩
    · have hsweep : sweep (task :: tasks) reached = sweep tasks reached := by
        show sweep tasks (takeIn reached task) = _
        rw [heq]
      rw [hsweep] at h ⊢
      obtain ⟨other, ho, hother⟩ := ih h
      exact ⟨other, List.mem_cons_of_mem _ ho, hother⟩
    · refine ⟨task, List.mem_cons_self, hnew, ?_⟩
      show task.1 ∈ sweep tasks (takeIn reached task)
      rw [heq]
      exact subset_sweep tasks _ List.mem_cons_self

/-- how many tasks are not reached yet -/
def pending (tasks : List Waiting) (reached : List String) : Nat :=
  tasks.countP fun task => task.1 ∉ reached

theorem pending_sweep_lt {tasks : List Waiting} {reached : List String} (h : sweep tasks reached ≠ reached) :
    pending tasks (sweep tasks reached) < pending tasks reached := by
  obtain ⟨task, hm, hnew, hin⟩ := exists_new_of_sweep_ne h
  have hmono : ∀ part : List Waiting, pending part (sweep tasks reached) ≤ pending part reached := by
    intro part
    refine List.countP_mono_left fun other _ ho => ?_
    simp only [decide_eq_true_eq] at ho ⊢
    exact fun hr => ho (subset_sweep tasks reached hr)
  obtain ⟨front, back, hsplit⟩ := List.append_of_mem hm
  have hfront := hmono front
  have hback := hmono back
  unfold pending at hfront hback ⊢
  generalize sweep tasks reached = next at *
  subst hsplit
  simp only [List.countP_append, List.countP_cons, hin, hnew, not_true_eq_false, not_false_eq_true, decide_true,
    decide_false, if_true, Bool.false_eq_true, if_false]
  omega

/-! ## All sweeps -/

/-- The loop that begins with `reached` ends with `final` after the given number of sweeps, the last of which takes in
nothing. -/
inductive Sweeps (tasks : List Waiting) : Nat → List String → List String → Prop where
  | last {reached : List String} : sweep tasks reached = reached → Sweeps tasks 1 reached reached
  | more {sweeps : Nat} {reached final : List String} : sweep tasks reached ≠ reached →
      Sweeps tasks sweeps (sweep tasks reached) final → Sweeps tasks (sweeps + 1) reached final

/-- **The loop ends.** With more sweeps allowed than there are tasks pending, `settle` is the loop run to its end. -/
theorem settle_sweeps {tasks : List Waiting} {fuel : Nat} {reached : List String} (h : pending tasks reached < fuel) :
    ∃ sweeps ≤ pending tasks reached + 1, Sweeps tasks sweeps reached (settle tasks fuel reached) := by
  induction fuel generalizing reached with
  | zero => exact absurd h (Nat.not_lt_zero _)
  | succ fuel ih =>
    by_cases heq : sweep tasks reached = reached
    · refine ⟨1, by omega, ?_⟩
      rw [settle, heq, if_pos rfl]
      exact .last heq
    · have hlen : (sweep tasks reached).length ≠ reached.length := by
        intro hlen
        exact heq ((suffix_sweep tasks reached).eq_of_length hlen.symm).symm
      have hlt := pending_sweep_lt heq
      obtain ⟨sweeps, hle, hs⟩ := ih (show pending tasks (sweep tasks reached) < fuel by omega)
      refine ⟨sweeps + 1, by omega, ?_⟩
      rw [settle, if_neg hlen]
      exact .more heq hs

theorem Sweeps.fixed {tasks : List Waiting} {sweeps : Nat} {reached final : List String}
    (h : Sweeps tasks sweeps reached final) : sweep tasks final = final := by
  induction h with
  | last heq => exact heq
  | more _ _ ih => exact ih

theorem Sweeps.subset {tasks : List Waiting} {sweeps : Nat} {reached final : List String}
    (h : Sweeps tasks sweeps reached final) : reached ⊆ final := by
  induction h with
  | last => exact List.Subset.refl _
  | more _ _ ih => exact List.Subset.trans (subset_sweep _ _) ih

theorem Sweeps.sound {tasks : List Waiting} {sweeps : Nat} {reached final : List String}
    (h : Sweeps tasks sweeps reached final) (hr : ∀ name ∈ reached, Reachable tasks name) :
    ∀ name ∈ final, Reachable tasks name := by
  induction h with
  | last => exact hr
  | more _ _ ih => exact ih (sweep_sound (List.Subset.refl _) hr)

theorem mem_entries_iff {tasks : List Waiting} {name : String} :
    name ∈ entries tasks ↔ (name, Requirement.none) ∈ tasks := by
  simp [entries]

/-- A sweep that takes in nothing leaves nothing to take in. -/
theorem closed_of_sweep_eq {tasks : List Waiting} {reached : List String} (h : sweep tasks reached = reached)
    (hentries : entries tasks ⊆ reached) {name : String} (hr : Reachable tasks name) : name ∈ reached := by
  induction hr with
  | entry hm => exact hentries (mem_entries_iff.2 hm)
  | @after name names hm _ ih =>
    rcases takeIn_cases reached (name, .all names) with ⟨-, hclosed⟩ | ⟨heq, -⟩
    · exact hclosed names rfl ih
    · rw [takeIn_of_sweep_eq h _ hm] at heq
      exact absurd (congrArg List.length heq) (by simp)

theorem reached_sweeps (tasks : List Waiting) :
    ∃ sweeps ≤ tasks.length + 1, Sweeps tasks sweeps (entries tasks) (reached tasks) := by
  have hpending : pending tasks (entries tasks) ≤ tasks.length := List.countP_le_length
  obtain ⟨sweeps, hle, h⟩ := settle_sweeps (Nat.lt_succ_of_le hpending)
  exact ⟨sweeps, by omega, h⟩

/-- **The sweeps reach exactly the reachable names.** -/
theorem mem_reached_iff {tasks : List Waiting} {name : String} : name ∈ reached tasks ↔ Reachable tasks name := by
  obtain ⟨sweeps, -, h⟩ := reached_sweeps tasks
  constructor
  · exact h.sound (fun n hn => .entry (mem_entries_iff.1 hn)) name
  · exact closed_of_sweep_eq h.fixed h.subset

end Reachability

open Reachability

instance (tasks : List Waiting) (name : String) : Decidable (Reachable tasks name) :=
  decidable_of_iff _ mem_reached_iff

theorem Reachable.mono {tasks tasks' : List Waiting} (hsub : tasks ⊆ tasks') {name : String}
    (h : Reachable tasks name) : Reachable tasks' name := by
  induction h with
  | entry hm => exact .entry (hsub hm)
  | after hm _ ih => exact .after (hsub hm) ih

/-! ## Workflows -/

namespace Workflow

/-- a set of names that has every task in it that waits for nothing, or for names of the set only -/
structure ClosedSet (workflow : Workflow) (names : Set String) : Prop where
  entry : ∀ task ∈ workflow.tasks, task.requirement = .none → task.name ∈ names
  after : ∀ task ∈ workflow.tasks, ∀ required, task.requirement = .all required → (∀ n ∈ required, n ∈ names) →
    task.name ∈ names

theorem mem_waiting_iff {workflow : Workflow} {waiting : Waiting} :
    waiting ∈ workflow.waiting ↔ ∃ task ∈ workflow.tasks, task.name = waiting.1 ∧ task.requirement = waiting.2 := by
  simp [Workflow.waiting, Prod.ext_iff]

/-- The reachable names are the least closed set. -/
theorem isLeast_reachable (workflow : Workflow) :
    IsLeast {names | workflow.ClosedSet names} {name | Reachable workflow.waiting name} := by
  refine ⟨⟨fun task ht hr => ?_, fun task ht required hr hall => ?_⟩, fun names hclosed name hname => ?_⟩
  · exact .entry (mem_waiting_iff.2 ⟨task, ht, rfl, hr⟩)
  · exact .after (mem_waiting_iff.2 ⟨task, ht, rfl, hr⟩) hall
  · induction hname with
    | entry hm =>
      obtain ⟨task, ht, rfl, hr⟩ := mem_waiting_iff.1 hm
      exact hclosed.entry task ht hr
    | after hm _ ih =>
      obtain ⟨task, ht, rfl, hr⟩ := mem_waiting_iff.1 hm
      exact hclosed.after task ht _ hr ih

theorem unreachable_eq_filter (workflow : Workflow) :
    workflow.unreachable = (workflow.tasks.map Task.name).filter fun name => ¬ Reachable workflow.waiting name := by
  have hnames : workflow.waiting.map Prod.fst = workflow.tasks.map Task.name := by
    simp [Workflow.waiting]
  unfold unreachable
  rw [hnames]
  refine List.filter_congr fun name _ => ?_
  rw [Bool.eq_iff_iff, decide_eq_true_iff, ← mem_reached_iff]
  simp

theorem mem_unreachable_iff {workflow : Workflow} {name : String} :
    name ∈ workflow.unreachable ↔ (∃ task ∈ workflow.tasks, task.name = name) ∧ ¬ Reachable workflow.waiting name := by
  simp [unreachable_eq_filter]

/-- **What is reported as unreachable.** The loop of sweeps ends, after at most one sweep more than there are tasks. The
report has the tasks whose names are not in the least closed set, in order of declaration and with repetitions. Reordering
the tasks reorders the report. -/
theorem unreachable_least_closed (workflow : Workflow) :
    (∃ sweeps ≤ workflow.tasks.length + 1,
      Sweeps workflow.waiting sweeps (entries workflow.waiting) (reached workflow.waiting)) ∧
    IsLeast {names | workflow.ClosedSet names} {name | Reachable workflow.waiting name} ∧
    workflow.unreachable = (workflow.tasks.map Task.name).filter (fun name => ¬ Reachable workflow.waiting name) ∧
    ∀ other : Workflow, other.tasks.Perm workflow.tasks → other.unreachable.Perm workflow.unreachable := by
  refine ⟨?_, isLeast_reachable workflow, unreachable_eq_filter workflow, fun other hperm => ?_⟩
  · simpa [Workflow.waiting] using reached_sweeps workflow.waiting
  · have hwaiting : other.waiting.Perm workflow.waiting := hperm.map _
    have hsame : ∀ name, Reachable other.waiting name ↔ Reachable workflow.waiting name :=
      fun name => ⟨Reachable.mono hwaiting.subset, Reachable.mono hwaiting.symm.subset⟩
    rw [unreachable_eq_filter, unreachable_eq_filter]
    simp only [hsame]
    exact (hperm.map _).filter _

end Workflow

end WorkflowLint
