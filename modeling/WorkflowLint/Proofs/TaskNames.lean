/-
The name check reports each broken rule of each entry once, and counts what the task graph merges.

The check goes through the entries of a workflow with the names it has seen. Here the rules are said one by one, of an entry
and the entries before it: `NameRule.Broken` says when each is broken and `NameRule.message` what is then reported.
`checkTaskNames_report` is the run of the check: when the names seen so far are those of the entries before, what is reported
from an entry on is what its rules and those of the later entries ask for.

The task graph is made elsewhere, with one node per entry and one line per name in its table. Each entry either has a new name
or is reported as a duplicate, so the duplicates and the lines of the table together are as many as the nodes
(`duplicates_add_new` is the step that counts). Without duplicates, names and nodes are one to one.
-/
import Mathlib.Data.Finset.Card
import WorkflowLint.Check.Name
import WorkflowLint.Proofs.ShapeRules
import WorkflowLint.Proofs.TaskGraph

namespace WorkflowLint

open WorkflowLint.Yaml

/-! ## Rules -/

/-- the task has an attribute `join` that is not null -/
def Task.Joins (task : Task) : Prop :=
  ∃ attributes value, task.attributes = some attributes ∧ Mapping.Maps attributes "join" value ∧ value.bare ≠ .null

theorem Task.hasJoin_iff {task : Task} : task.hasJoin = true ↔ task.Joins := by
  unfold hasJoin get? Joins
  cases task.attributes with
  | none => simp
  | some attributes => simp [Option.isSome_iff_exists, Mapping.present?_eq_some_iff]

instance (task : Task) : Decidable task.Joins :=
  decidable_of_iff _ Task.hasJoin_iff

namespace Check

/-- a text that is not empty and holds only letters `a` to `z`, digits, underscores and hyphens -/
def WellNamed (name : String) : Prop :=
  name ≠ "" ∧ ∀ c ∈ name.toList, ('a' ≤ c ∧ c ≤ 'z') ∨ ('0' ≤ c ∧ c ≤ '9') ∨ c = '_' ∨ c = '-'

theorem isName_iff {name : String} : isName name = true ↔ WellNamed name := by
  have hempty : name.toList = [] ↔ name = "" := String.toList_eq_nil_iff
  simp [isName, WellNamed, isNameChar, hempty, or_assoc]

instance (name : String) : Decidable (WellNamed name) :=
  decidable_of_iff _ isName_iff

/-- what is asked of the name of an entry, in the order of the reports -/
inductive NameRule where
  | pattern
  | reserved
  | length
  | duplicate
deriving DecidableEq

namespace NameRule

def all : List NameRule :=
  [pattern, reserved, length, duplicate]

/-- most UTF-16 code units of the name of an entry -/
def limit (task : Task) : Nat :=
  if task.Joins then 208 else 255

/-- The rule is broken by an entry, where `earlier` are the entries before it. -/
def Broken (earlier : List Task) (task : Task) : NameRule → Prop
  | pattern => ¬ WellNamed task.name
  | reserved => task.name ∈ ["noop", "fail", "succeed", "pause"]
  | length => limit task < Text.utf16Length task.name.toList
  | duplicate => ∃ other ∈ earlier, other.name = task.name

instance (earlier : List Task) (task : Task) (rule : NameRule) : Decidable (rule.Broken earlier task) :=
  match rule with
  | pattern => inferInstanceAs (Decidable (¬ WellNamed task.name))
  | reserved => inferInstanceAs (Decidable (task.name ∈ _))
  | length => inferInstanceAs (Decidable (limit task < _))
  | duplicate => inferInstanceAs (Decidable (∃ other ∈ earlier, other.name = task.name))

/-- what is reported of an entry that breaks the rule -/
def message (workflow : String) (task : Task) : NameRule → String
  | pattern => "Task name '" ++ task.name ++ "' must match /^[a-z0-9_-]+$/"
  | reserved => "Task name '" ++ task.name ++ "' must not equal one of: noop, fail, succeed, pause."
  | length => "Task name '" ++ task.name ++ "' exceeds maximum length of " ++ toString (limit task) ++ " characters."
  | duplicate => "Duplicate task name '" ++ task.name ++ "' in workflow '" ++ workflow ++ "'"

end NameRule

/-- What is to be reported of the name of an entry: the rules that it breaks, in order, at the place of the entry. -/
def nameReport (layout : Layout) (workflow : String) (earlier : List Task) (task : Task) : List Diagnostic :=
  NameRule.all.flatMap fun rule =>
    if rule.Broken earlier task then [.structural (rule.message workflow task) (layout.task workflow task.name)] else []

/-! ## The run of the check -/

/-- the names seen are those of the entries before -/
def Seen (seen : List String) (earlier : List Task) : Prop :=
  ∀ name, name ∈ seen ↔ ∃ other ∈ earlier, other.name = name

theorem seen_nil : Seen [] [] := by
  simp [Seen]

theorem Seen.add {seen : List String} {earlier : List Task} (h : Seen seen earlier) (task : Task) :
    Seen (task.name :: seen) (earlier ++ [task]) := by
  intro name
  simp [h name, or_and_right, exists_or, or_comm, eq_comm]

/-- A check reports a rule exactly if the rule is broken. -/
theorem map_diagnostic_require {condition : Bool} {broken : Prop} [Decidable broken] (h : condition = true ↔ ¬ broken)
    (problem : Problem) (range : Range) :
    (require condition problem range).map Finding.diagnostic =
      if broken then [.structural problem.message range] else [] := by
  by_cases hbroken : broken
  · have hfails : condition = false := by simpa [hbroken] using h
    simp [require, hfails, hbroken, Finding.diagnostic]
  · have hholds : condition = true := h.2 hbroken
    simp [require, hholds, hbroken]

theorem nameLimit_hasJoin (task : Task) : nameLimit task.hasJoin = NameRule.limit task := by
  simp only [nameLimit, NameRule.limit, Task.hasJoin_iff]

/-- The pattern in the messages, written out. -/
theorem message_pattern (name : String) :
    name ++ "' must match /" ++ namePattern ++ "/" = name ++ "' must match /^[a-z0-9_-]+$/" := by
  have hpattern : "' must match /" ++ (namePattern ++ "/") = "' must match /^[a-z0-9_-]+$/" := by decide
  rw [String.append_assoc, String.append_assoc]
  exact congrArg _ hpattern

theorem message_reservedName (workflow : String) (task : Task) :
    (Problem.reservedName task.name).message = NameRule.reserved.message workflow task := by
  have hnames : "' must not equal one of: " ++ (", ".intercalate reservedNames ++ ".") =
      "' must not equal one of: noop, fail, succeed, pause." := by decide
  show "Task name '" ++ task.name ++ "' must not equal one of: " ++ ", ".intercalate reservedNames ++ "." = _
  rw [String.append_assoc, String.append_assoc]
  exact congrArg _ hnames

/-- **The step.** The four checks of an entry report the rules that it breaks, if the names seen are those of the entries
before it. -/
theorem checkTaskNames_cons (layout : Layout) (workflow : Workflow) {seen : List String} {earlier : List Task}
    (hseen : Seen seen earlier) (task : Task) (rest : List NamedTask) :
    (checkTaskNames workflow.name seen (namedTask layout workflow task :: rest)).map Finding.diagnostic =
      nameReport layout workflow.name earlier task ++
        (checkTaskNames workflow.name (task.name :: seen) rest).map Finding.diagnostic := by
  have hpattern : isName task.name = true ↔ ¬ NameRule.pattern.Broken earlier task :=
    isName_iff.trans not_not.symm
  have hreserved : (!reservedNames.contains task.name) = true ↔ ¬ NameRule.reserved.Broken earlier task := by
    simp [NameRule.Broken, reservedNames]
  have hlength : decide (Text.utf16Length task.name.toList ≤ NameRule.limit task) = true ↔
      ¬ NameRule.length.Broken earlier task := by
    simp [NameRule.Broken]
  have hduplicate : (!seen.contains task.name) = true ↔ ¬ NameRule.duplicate.Broken earlier task := by
    simp [NameRule.Broken, hseen task.name]
  have hmessage : (Problem.taskName task.name).message = NameRule.pattern.message workflow.name task :=
    message_pattern ("Task name '" ++ task.name)
  simp only [namedTask, checkTaskNames, nameLimit_hasJoin, List.map_append, map_diagnostic_require hpattern,
    map_diagnostic_require hreserved, map_diagnostic_require hlength, map_diagnostic_require hduplicate,
    hmessage, message_reservedName workflow.name, nameReport, NameRule.all, List.flatMap_cons,
    List.flatMap_nil, List.append_assoc, List.append_nil]
  rfl

/-- **The run.** What is reported from an entry on is what the rules ask for, entry by entry. -/
theorem checkTaskNames_report (layout : Layout) (workflow : Workflow) {seen : List String} {earlier : List Task}
    (hseen : Seen seen earlier) (rest : List Task) :
    (checkTaskNames workflow.name seen (rest.map (namedTask layout workflow))).map Finding.diagnostic =
      (rest.zipIdx earlier.length).flatMap fun entry =>
        nameReport layout workflow.name ((earlier ++ rest).take entry.2) entry.1 := by
  induction rest generalizing seen earlier with
  | nil => rfl
  | cons task rest ih =>
    have hrest := ih (hseen.add task)
    rw [List.append_assoc, List.length_append] at hrest
    rw [List.map_cons, checkTaskNames_cons layout workflow hseen, hrest, List.zipIdx_cons, List.flatMap_cons, List.take_left]
    rfl

/-! ## Counting duplicates -/

/-- the report of a name that an earlier entry has -/
def reportsDuplicate (diagnostic : Diagnostic) : Bool :=
  "Duplicate task name '".toList.isPrefixOf diagnostic.message.toList

theorem reportsDuplicate_message {workflow : String} {task : Task} {rule : NameRule} {range : Range} :
    reportsDuplicate (.structural (rule.message workflow task) range) = true ↔ rule = .duplicate := by
  unfold reportsDuplicate Diagnostic.message NameRule.message
  cases rule with
  | duplicate =>
    refine iff_of_true ?_ rfl
    simp only [String.toList_append, List.append_assoc, List.isPrefixOf_iff_prefix]
    exact List.prefix_append _ _
  | _ =>
    -- the first letter is another one
    refine iff_of_false ?_ nofun
    simp only [String.toList_append, List.append_assoc]
    exact Bool.false_ne_true

theorem countP_nameReport (layout : Layout) (workflow : String) (earlier : List Task) (task : Task) :
    (nameReport layout workflow earlier task).countP reportsDuplicate =
      if NameRule.duplicate.Broken earlier task then 1 else 0 := by
  have hrule : ∀ rule : NameRule, (if rule.Broken earlier task then
      [Diagnostic.structural (rule.message workflow task) (layout.task workflow task.name)] else []).countP
        reportsDuplicate = if rule = .duplicate ∧ rule.Broken earlier task then 1 else 0 := by
    intro rule
    by_cases hbroken : rule.Broken earlier task
    · rw [if_pos hbroken, List.countP_singleton]
      simp only [reportsDuplicate_message, hbroken, and_true]
    · simp [hbroken]
  simp [nameReport, NameRule.all, List.countP_append, hrule]

/-- **The count.** Each entry is a duplicate or brings a new name. -/
theorem duplicates_add_new (layout : Layout) (workflow : Workflow) {seen : List String} {earlier : List Task}
    (hseen : Seen seen earlier) (rest : List Task) :
    ((checkTaskNames workflow.name seen (rest.map (namedTask layout workflow))).map Finding.diagnostic).countP
        reportsDuplicate + ((rest.map Task.name).toFinset \ seen.toFinset).card = rest.length := by
  induction rest generalizing seen earlier with
  | nil => simp [checkTaskNames]
  | cons task rest ih =>
    have hrest := ih (hseen.add task)
    have hbroken : NameRule.duplicate.Broken earlier task ↔ task.name ∈ seen := (hseen task.name).symm
    rw [List.toFinset_cons] at hrest
    rw [List.map_cons, checkTaskNames_cons layout workflow hseen, List.countP_append, countP_nameReport, List.map_cons,
      List.toFinset_cons, List.length_cons, ← hrest]
    by_cases hname : task.name ∈ seen
    · have hmem : task.name ∈ seen.toFinset := List.mem_toFinset.2 hname
      rw [if_pos (hbroken.2 hname), Finset.insert_sdiff_of_mem _ hmem, Finset.insert_eq_of_mem hmem]
      omega
    · have hmem : task.name ∉ seen.toFinset := fun h => hname (List.mem_toFinset.1 h)
      -- the new name is taken out of what is still to come, and counts here
      have hnew := Finset.card_erase_add_one (Finset.mem_insert_self task.name ((rest.map Task.name).toFinset \ seen.toFinset))
      rw [Finset.erase_insert_eq_erase] at hnew
      rw [if_neg fun h => hname (hbroken.1 h), Finset.insert_sdiff_of_notMem _ hmem, Finset.sdiff_insert]
      omega

end Check

/-! ## The table of the graph -/

namespace TaskGraph

/-- each name stands for one node, and each node is what one name stands for -/
structure OneToOne (graph : TaskGraph) : Prop where
  node : ∀ name ∈ graph.nodes, ∃! i, (name, i) ∈ graph.indices
  name : ∀ i < graph.nodes.length, ∃! name, (name, i) ∈ graph.indices

theorem length_indices (graph : TaskGraph) : graph.indices.length = graph.nodes.toFinset.card := by
  have hnames : (graph.indices.map Prod.fst).toFinset = graph.nodes.toFinset := by
    ext name
    rw [List.mem_toFinset, List.mem_toFinset]
    exact mem_indices_map_fst_iff
  rw [← hnames, List.toFinset_card_of_nodup graph.nodup_indices, List.length_map]

/-- The table has a line for each node exactly if names and nodes are one to one. -/
theorem length_indices_eq_iff {graph : TaskGraph} : graph.indices.length = graph.nodes.length ↔ graph.OneToOne := by
  have hall : graph.indices.length = graph.nodes.length ↔
      ∀ entry ∈ graph.nodes.zipIdx, graph.index? entry.1 = some entry.2 := by
    rw [indices, ← List.length_zipIdx (l := graph.nodes) (i := 0), List.length_filter_eq_length_iff]
    simp
  rw [hall]
  constructor
  · intro h
    constructor
    · intro name hname
      obtain ⟨i, hi⟩ := exists_indexIn? hname
      refine ⟨i, mem_indices_iff.2 hi, fun j hj => ?_⟩
      exact Option.some.inj ((mem_indices_iff.1 hj).symm.trans hi)
    · intro i hi
      have hentry : (graph.nodes[i], i) ∈ graph.nodes.zipIdx := List.mk_mem_zipIdx_iff_getElem?.2 (List.getElem?_eq_getElem hi)
      refine ⟨graph.nodes[i], mem_indices_iff.2 (h _ hentry), fun other hother => ?_⟩
      have hnode := (indexIn?_eq_some_iff.1 (mem_indices_iff.1 hother)).1
      exact Option.some.inj (hnode.symm.trans (List.getElem?_eq_getElem hi))
  · rintro h ⟨name, i⟩ hentry
    have hnode := List.mk_mem_zipIdx_iff_getElem?.1 hentry
    obtain ⟨other, hother, -⟩ := h.name i (List.getElem?_eq_some_iff.1 hnode).1
    have hindex := mem_indices_iff.1 hother
    obtain rfl : name = other := Option.some.inj (hnode.symm.trans (indexIn?_eq_some_iff.1 hindex).1)
    exact hindex

end TaskGraph

/-! ## All names of a document -/

namespace Check

/-- what is to be reported of the name of a workflow -/
def workflowNameReport (layout : Layout) (workflow : String) : List Diagnostic :=
  if ¬ WellNamed workflow then
    [.structural ("Workflow name '" ++ workflow ++ "' must match /^[a-z0-9_-]+$/") (layout.workflow workflow)]
  else []

theorem checkWorkflowNames_eq (layout : Layout) (workflow : Workflow) :
    (checkWorkflowNames layout workflow).map Finding.diagnostic =
      workflowNameReport layout workflow.name ++
        (checkTaskNames workflow.name [] (workflow.tasks.map (namedTask layout workflow))).map Finding.diagnostic := by
  have hmessage : (Problem.workflowName workflow.name).message =
      "Workflow name '" ++ workflow.name ++ "' must match /^[a-z0-9_-]+$/" :=
    message_pattern ("Workflow name '" ++ workflow.name)
  rw [checkWorkflowNames, List.map_append, map_diagnostic_require (isName_iff.trans not_not.symm), hmessage,
    workflowNameReport]

theorem countP_workflowNameReport (layout : Layout) (workflow : String) :
    (workflowNameReport layout workflow).countP reportsDuplicate = 0 := by
  have hmessage : ¬ reportsDuplicate (.structural ("Workflow name '" ++ workflow ++ "' must match /^[a-z0-9_-]+$/")
      (layout.workflow workflow)) = true := by
    unfold reportsDuplicate Diagnostic.message
    simp only [String.toList_append, List.append_assoc]
    exact Bool.false_ne_true
  unfold workflowNameReport
  split
  · rw [List.countP_singleton, if_neg hmessage]
  · rfl

/-- The entries of a workflow that are no duplicates are the lines of the table of its graph. -/
theorem duplicates_add_indices (layout : Layout) (workflow : Workflow) :
    ((checkWorkflowNames layout workflow).map Finding.diagnostic).countP reportsDuplicate +
      (TaskGraph.ofWorkflow workflow).indices.length = (TaskGraph.ofWorkflow workflow).nodes.length := by
  have hnew := duplicates_add_new layout workflow seen_nil workflow.tasks
  rw [List.toFinset_nil, Finset.sdiff_empty] at hnew
  rw [checkWorkflowNames_eq, List.countP_append, countP_workflowNameReport, Nat.zero_add, TaskGraph.length_indices,
    TaskGraph.ofWorkflow, List.length_map]
  exact hnew

/-- **What the name check reports.** Of each workflow, in document order, it reports the name if it does not fit the pattern, and
then of each entry of its tasks, in order of declaration, the rules that its name breaks, in the order pattern, reserved names,
length, duplicates. The duplicates of a workflow are as many as its graph has nodes more than names in its table, and there are
none exactly if names and nodes are one to one. -/
theorem checkNames_report (layout : Layout) (root : Mapping) :
    (checkNames layout root).map Finding.diagnostic =
      (Workflow.ofRoot root).flatMap (fun workflow =>
        workflowNameReport layout workflow.name ++ workflow.tasks.zipIdx.flatMap fun entry =>
          nameReport layout workflow.name (workflow.tasks.take entry.2) entry.1) ∧
    ∀ workflow : Workflow,
      ((checkWorkflowNames layout workflow).map Finding.diagnostic).countP reportsDuplicate +
        (TaskGraph.ofWorkflow workflow).indices.length = (TaskGraph.ofWorkflow workflow).nodes.length ∧
      ((∀ diagnostic ∈ (checkWorkflowNames layout workflow).map Finding.diagnostic, reportsDuplicate diagnostic = false) ↔
        (TaskGraph.ofWorkflow workflow).OneToOne) := by
  constructor
  · rw [checkNames, List.map_flatMap]
    apply List.flatMap_congr
    intro workflow _
    rw [checkWorkflowNames_eq, checkTaskNames_report layout workflow seen_nil]
    rfl
  · intro workflow
    have hcount := duplicates_add_indices layout workflow
    refine ⟨hcount, ?_⟩
    rw [← TaskGraph.length_indices_eq_iff, ← hcount, Nat.right_eq_add, List.countP_eq_zero]
    simp only [Bool.not_eq_true]

-- the key `1` comes twice, first as a number: both entries have the name `1`, and the second is a duplicate
example :
    let tasks := [(Value.int 1, Value.null), (Value.str "1", Value.null), (Value.str "fail", Value.null),
      (Value.str "", Value.null)]
    let workflow : Workflow := ⟨"w", some [(.str "tasks", .map tasks)]⟩
    (checkWorkflowNames (Layout.ofText []) workflow).map Finding.problem =
      [.duplicateName "1" "w", .reservedName "fail", .taskName ""] := by
  decide +kernel

end Check

end WorkflowLint
