/-
Which tasks of a drawing share a node.

The identifier of a node is the name of the workflow, a point and the name of the task. Both names may hold points, and then the
point in the middle cannot be told from the others: a task `b.c` of the workflow `a` and a task `c` of the workflow `a.b` are
drawn as one node `a.b.c`, although they are different tasks. `Overlaps` says when that is so: one workflow's name goes on where
the other's ends, and the first task's name goes on where the second's begins.

Results:
- `nodeId_eq_iff`: two identifiers are the same exactly if the names are, or overlap.
- `exists_task_of_mem_ends`: edges of a cluster end at identifiers of its own tasks.
- `nodes_shared_iff`: both for every document. So an edge reaches another workflow's task only where names overlap, and never
  where names pass the check, which allows no points in them.
- `node_of_two_tasks`: a document with two tasks of different names and one node for them.
-/
import WorkflowLint.Check.Name
import WorkflowLint.Proofs.Drawing
import WorkflowLint.Proofs.TaskGraph

namespace WorkflowLint

namespace Dot

theorem quote_injective : Function.Injective quote := by
  intro a b h
  have hchars : (quote a).toList ++ [] = (quote b).toList ++ [] := by rw [h]
  exact (selfDelimiting_quote a b [] [] hchars).1

/-- the identifiers at the ends of an edge -/
def Item.ends : Item → List String
  | .edge source target _ => [source, target]
  | _ => []

end Dot

namespace Diagram

/-! ## Identifiers that are the same -/

/-- The second workflow's name is the first one's, a point and a middle part; the first task's name is that middle part, a point
and the second one's. -/
def Overlaps (workflow task workflow' task' : String) : Prop :=
  ∃ middle, workflow' = workflow ++ "." ++ middle ∧ task = middle ++ "." ++ task'

theorem toList_nodeId (workflow task : String) : (nodeId workflow task).toList = workflow.toList ++ '.' :: task.toList := by
  simp [nodeId]

theorem Overlaps.nodeId_eq {workflow task workflow' task' : String} (h : Overlaps workflow task workflow' task') :
    nodeId workflow task = nodeId workflow' task' := by
  obtain ⟨middle, rfl, rfl⟩ := h
  apply String.toList_inj.1
  simp [nodeId]

theorem overlaps_of_split {workflow task workflow' task' : String} {middle : List Char}
    (hworkflow : workflow'.toList = workflow.toList ++ '.' :: middle)
    (htask : task.toList = middle ++ '.' :: task'.toList) : Overlaps workflow task workflow' task' := by
  refine ⟨String.ofList middle, String.toList_inj.1 ?_, String.toList_inj.1 ?_⟩
  · simp [hworkflow]
  · simp [htask]

/-- **Identifiers are the same** exactly if the names are, or overlap. -/
theorem nodeId_eq_iff {workflow task workflow' task' : String} :
    nodeId workflow task = nodeId workflow' task' ↔
      (workflow = workflow' ∧ task = task') ∨ Overlaps workflow task workflow' task' ∨
        Overlaps workflow' task' workflow task := by
  constructor
  · intro h
    have hchars := congrArg String.toList h
    rw [toList_nodeId, toList_nodeId] at hchars
    -- one of the two points stands before the other, or they are the same
    rcases List.append_eq_append_iff.1 hchars with ⟨m, hworkflow, hbehind⟩ | ⟨m, hworkflow, hbehind⟩
    · cases m with
      | nil =>
        rw [List.append_nil] at hworkflow
        exact Or.inl ⟨String.toList_inj.1 hworkflow.symm, String.toList_inj.1 (List.cons.inj hbehind).2⟩
      | cons c m =>
        obtain ⟨rfl, htask⟩ := List.cons.inj hbehind
        exact Or.inr (Or.inl (overlaps_of_split hworkflow htask))
    · cases m with
      | nil =>
        rw [List.append_nil] at hworkflow
        exact Or.inl ⟨String.toList_inj.1 hworkflow, String.toList_inj.1 (List.cons.inj hbehind).2.symm⟩
      | cons c m =>
        obtain ⟨rfl, htask⟩ := List.cons.inj hbehind
        exact Or.inr (Or.inr (overlaps_of_split hworkflow htask))
  · rintro (⟨rfl, rfl⟩ | h | h)
    · rfl
    · exact h.nodeId_eq
    · exact h.nodeId_eq.symm

theorem nodeItem_eq_iff {workflow workflow' : String} {task task' : Task} :
    nodeItem workflow task = nodeItem workflow' task' ↔ nodeId workflow task.name = nodeId workflow' task'.name := by
  constructor
  · intro h
    exact Dot.quote_injective ((String.append_left_inj _).1 (Dot.Item.line.inj h))
  · intro h
    rw [nodeItem, nodeItem, h]

/-- Names that overlap have a point in them: the longer workflow's name and the longer task's name. -/
theorem Overlaps.point_mem {workflow task workflow' task' : String} (h : Overlaps workflow task workflow' task') :
    '.' ∈ workflow'.toList ∧ '.' ∈ task.toList := by
  obtain ⟨middle, rfl, rfl⟩ := h
  simp

theorem point_not_mem_of_isName {name : String} (h : Check.isName name = true) : '.' ∉ name.toList := by
  intro hmem
  simp only [Check.isName, Bool.and_eq_true, List.all_eq_true] at h
  exact absurd (h.2 '.' hmem) (by decide)

/-! ## Ends of edges -/

theorem names_of_mem_namedEdges {workflow : Workflow} {edge : NamedEdge}
    (h : edge ∈ (TaskGraph.ofWorkflow workflow).namedEdges) :
    edge.source ∈ workflow.tasks.map Task.name ∧ edge.target ∈ workflow.tasks.map Task.name := by
  obtain ⟨numbered, hedge, rfl⟩ := List.mem_map.1 h
  obtain ⟨task, -, hmem⟩ := List.mem_flatMap.1 hedge
  obtain ⟨source, target, hsource, htarget⟩ := TaskGraph.exists_names_of_mem_edgesOf hmem
  have hnamed : (TaskGraph.ofWorkflow workflow).nameEdge numbered = ⟨source, target, numbered.link⟩ :=
    TaskGraph.nameEdge_eq hsource htarget
  rw [hnamed]
  exact ⟨TaskGraph.mem_of_indexIn? hsource, TaskGraph.mem_of_indexIn? htarget⟩

/-- Edges of a cluster end at identifiers of its own tasks. -/
theorem exists_task_of_mem_ends {workflow : Workflow} {item : Dot.Item} {id : String} (hitem : item ∈ cluster workflow)
    (hid : id ∈ item.ends) : ∃ task ∈ workflow.tasks, id = nodeId workflow.name task.name := by
  rw [cluster] at hitem
  simp only [List.mem_append] at hitem
  rcases hitem with (((hheading | hnode) | hedge) | hloop) | hleave
  · have hnone : ∀ line ∈ heading workflow.name, line.ends = [] := by simp [heading, Dot.Item.ends]
    rw [hnone item hheading] at hid
    cases hid
  · obtain ⟨task, -, rfl⟩ := List.mem_map.1 hnode
    cases hid
  · obtain ⟨edge, hmem, rfl⟩ := List.mem_map.1 hedge
    obtain ⟨hsource, htarget⟩ := names_of_mem_namedEdges hmem
    have hends : id = nodeId workflow.name edge.source ∨ id = nodeId workflow.name edge.target := by
      simpa [edgeItem, Dot.Item.ends] using hid
    rcases hends with rfl | rfl
    · obtain ⟨task, htask, hname⟩ := List.mem_map.1 hsource
      exact ⟨task, htask, by rw [hname]⟩
    · obtain ⟨task, htask, hname⟩ := List.mem_map.1 htarget
      exact ⟨task, htask, by rw [hname]⟩
  · obtain ⟨task, htask, hitem⟩ := List.mem_filterMap.1 hloop
    obtain ⟨name, -, rfl⟩ := Option.map_eq_some_iff.1 hitem
    exact ⟨task, htask, by simpa [Dot.Item.ends] using hid⟩
  · obtain rfl := List.mem_singleton.1 hleave
    cases hid

/-! ## Documents -/

/-- **Nodes are shared where names overlap.** The lines of two tasks' nodes are the same exactly if the names of their workflows
and their own are, or these overlap. An edge of one cluster ends at a node of another workflow's task only if one of its own
tasks shares that node. Where the names of all workflows pass the check, or those of all tasks, a node is shared only where the
names of the workflows and of the tasks are the same. -/
theorem nodes_shared_iff (text : List Char) :
    (∀ workflow ∈ Workflow.ofText text, ∀ other ∈ Workflow.ofText text, ∀ task ∈ workflow.tasks, ∀ otherTask ∈ other.tasks,
      (nodeItem workflow.name task = nodeItem other.name otherTask ↔
        (workflow.name = other.name ∧ task.name = otherTask.name) ∨
          Overlaps workflow.name task.name other.name otherTask.name ∨
          Overlaps other.name otherTask.name workflow.name task.name)) ∧
    (∀ workflow ∈ Workflow.ofText text, ∀ other ∈ Workflow.ofText text, ∀ otherTask ∈ other.tasks,
      ∀ item ∈ cluster workflow, nodeId other.name otherTask.name ∈ item.ends →
        ∃ task ∈ workflow.tasks, nodeItem workflow.name task = nodeItem other.name otherTask) ∧
    ((∀ workflow ∈ Workflow.ofText text, Check.isName workflow.name = true) ∨
        (∀ workflow ∈ Workflow.ofText text, ∀ task ∈ workflow.tasks, Check.isName task.name = true) →
      ∀ workflow ∈ Workflow.ofText text, ∀ other ∈ Workflow.ofText text, ∀ task ∈ workflow.tasks,
        ∀ otherTask ∈ other.tasks, nodeItem workflow.name task = nodeItem other.name otherTask →
          workflow.name = other.name ∧ task.name = otherTask.name) := by
  refine ⟨?_, ?_, ?_⟩
  · intro workflow _ other _ task _ otherTask _
    rw [nodeItem_eq_iff, nodeId_eq_iff]
  · intro workflow _ other _ otherTask _ item hitem hend
    obtain ⟨task, htask, hid⟩ := exists_task_of_mem_ends hitem hend
    exact ⟨task, htask, nodeItem_eq_iff.2 hid.symm⟩
  · intro hnames workflow hworkflow other hother task htask otherTask hotherTask hshared
    have hapart : ∀ first ∈ Workflow.ofText text, ∀ second ∈ Workflow.ofText text, ∀ a ∈ first.tasks, ∀ b ∈ second.tasks,
        ¬ Overlaps first.name a.name second.name b.name := by
      intro first hfirst second hsecond a ha b hb h
      rcases hnames with hworkflows | htasks
      · exact point_not_mem_of_isName (hworkflows second hsecond) h.point_mem.1
      · exact point_not_mem_of_isName (htasks first hfirst a ha) h.point_mem.2
    rcases nodeId_eq_iff.1 (nodeItem_eq_iff.1 hshared) with hsame | h | h
    · exact hsame
    · exact absurd h (hapart workflow hworkflow other hother task htask otherTask hotherTask)
    · exact absurd h (hapart other hother workflow hworkflow otherTask hotherTask task htask)

/-- two workflows with names that overlap -/
def overlapping : List Char :=
  "workflows:\n  a:\n    tasks:\n      b.c:\n        on-success: d\n      d: {}\n  a.b:\n    tasks:\n      c: {}\n".toList

/-- **Names that overlap** around the middle `b`. -/
theorem overlapping_tasks_share :
    ∃ workflow ∈ Workflow.ofText overlapping, ∃ other ∈ Workflow.ofText overlapping, ∃ task ∈ workflow.tasks,
      ∃ otherTask ∈ other.tasks, workflow.name ≠ other.name ∧ task.name ≠ otherTask.name ∧
        nodeItem workflow.name task = nodeItem other.name otherTask := by
  have hnames : ∃ workflow ∈ Workflow.ofText overlapping, ∃ other ∈ Workflow.ofText overlapping, ∃ task ∈ workflow.tasks,
      ∃ otherTask ∈ other.tasks, workflow.name = "a" ∧ task.name = "b.c" ∧ other.name = "a.b" ∧ otherTask.name = "c" := by
    decide +kernel
  obtain ⟨workflow, hworkflow, other, hother, task, htask, otherTask, hotherTask, hw, ht, ho, hot⟩ := hnames
  have hoverlap : Overlaps workflow.name task.name other.name otherTask.name := by
    rw [hw, ht, ho, hot]
    exact ⟨"b", by decide +kernel, by decide +kernel⟩
  refine ⟨workflow, hworkflow, other, hother, task, htask, otherTask, hotherTask, ?_, ?_, ?_⟩
  · rw [hw, ho]
    decide
  · rw [ht, hot]
    decide
  · exact ((nodes_shared_iff overlapping).1 workflow hworkflow other hother task htask otherTask hotherTask).2
      (Or.inr (Or.inl hoverlap))

/-- **One node for two tasks.** Of each workflow, the names and the lines behind the heading of its cluster. Both clusters have
the node `a.b.c`, and the edge of the first starts at the only task of the second. -/
theorem node_of_two_tasks :
    (Workflow.ofText overlapping).map (fun workflow =>
        (workflow.name, workflow.tasks.map Task.name, (cluster workflow).drop (heading workflow.name).length)) =
      [("a", ["b.c", "d"], [.line "\"a.b.c\";", .line "\"a.d\";", .edge "a.b.c" "a.d" none, .leave]),
        ("a.b", ["c"], [.line "\"a.b.c\";", .leave])] := by
  decide +kernel

end Diagram
end WorkflowLint
