/-
The graph of a workflow's tasks, in terms of the tasks.

A name stands for the last node that has it (`indexIn?_eq_some_iff`), so among distinct names a node stands for itself. An
edge for a requirement runs between the nodes that the two names stand for (`mem_edges_requires_iff`); where the names of a
workflow's tasks are distinct, that is from the node of a task to the node of each task that requires it
(`requiresEdge_iff`).

Read back by name, the edges are those that the entries declare (`ofWorkflow_by_name`). Where several entries have one name,
all their edges end at the node of the last one, but that node has the name they have, so nothing of it shows.
-/
import Mathlib.Data.List.Nodup
import WorkflowLint.Workflow.Graph

namespace WorkflowLint

open WorkflowLint.Yaml

namespace TaskGraph

/-! ## Names and nodes -/

theorem lastFrom_eq_none_iff {n : Nat} {name : String} {nodes : List String} :
    lastFrom n name nodes = none ↔ name ∉ nodes := by
  induction nodes generalizing n with
  | nil => simp [lastFrom]
  | cons other rest ih =>
    rw [lastFrom]
    split
    case h_1 i h =>
      have hmem : name ∈ rest := by
        by_contra hno
        rw [ih.2 hno] at h
        cases h
      simp [hmem]
    case h_2 h =>
      have hrest : name ∉ rest := ih.1 h
      by_cases ho : other = name
      · simp [ho]
      · simp [ho, hrest, Ne.symm ho]

theorem lastFrom_eq_some {n i : Nat} {name : String} {nodes : List String} (h : lastFrom n name nodes = some i) :
    ∃ k, i = n + k ∧ nodes[k]? = some name ∧ ∀ j, k < j → nodes[j]? ≠ some name := by
  induction nodes generalizing n with
  | nil => simp [lastFrom] at h
  | cons other rest ih =>
    rw [lastFrom] at h
    split at h
    case h_1 i' hrest =>
      obtain rfl := Option.some.inj h
      obtain ⟨k, hi, hk, hlast⟩ := ih hrest
      refine ⟨k + 1, by omega, by simpa using hk, fun j hj => ?_⟩
      obtain ⟨j, rfl⟩ : ∃ j', j = j' + 1 := ⟨j - 1, by omega⟩
      simpa using hlast j (by omega)
    case h_2 hrest =>
      have hno : name ∉ rest := lastFrom_eq_none_iff.1 hrest
      split at h
      case isTrue ho =>
        obtain rfl := Option.some.inj h
        refine ⟨0, rfl, by simp [ho], fun j hj hmem => hno ?_⟩
        obtain ⟨j, rfl⟩ : ∃ j', j = j' + 1 := ⟨j - 1, by omega⟩
        exact List.mem_of_getElem? (by simpa using hmem)
      case isFalse => cases h

/-- A name stands for the last node that has it. -/
theorem indexIn?_eq_some_iff {nodes : List String} {name : String} {i : Nat} :
    indexIn? nodes name = some i ↔ nodes[i]? = some name ∧ ∀ j, i < j → nodes[j]? ≠ some name := by
  constructor
  · intro h
    obtain ⟨k, rfl, hk, hlast⟩ := lastFrom_eq_some h
    rw [Nat.zero_add]
    exact ⟨hk, hlast⟩
  · rintro ⟨hi, hlast⟩
    cases h : indexIn? nodes name with
    | none => exact absurd (List.mem_of_getElem? hi) (lastFrom_eq_none_iff.1 h)
    | some k =>
      obtain ⟨k', hk, hat, hlast'⟩ := lastFrom_eq_some h
      rcases Nat.lt_trichotomy i k with hlt | rfl | hlt
      · exact absurd hat (hlast k' (by omega))
      · rfl
      · exact absurd hi (hlast' i (by omega))

theorem indexIn?_eq_some_iff_of_nodup {nodes : List String} (hnodup : nodes.Nodup) {name : String} {i : Nat} :
    indexIn? nodes name = some i ↔ nodes[i]? = some name := by
  rw [indexIn?_eq_some_iff]
  refine ⟨And.left, fun hi => ⟨hi, fun j hlt hj => ?_⟩⟩
  have hbound : i < nodes.length := (List.getElem?_eq_some_iff.1 hi).1
  exact Nat.ne_of_lt hlt ((List.getElem?_inj hbound hnodup).1 (hi.trans hj.symm))

/-! ## The table of names -/

/-- The table has each name once, with the last node that has it. -/
theorem mem_indices_iff {graph : TaskGraph} {name : String} {i : Nat} :
    (name, i) ∈ graph.indices ↔ graph.index? name = some i := by
  rw [indices, List.mem_filter, List.mem_zipIdx_iff_getElem?]
  simp only [beq_iff_eq, and_iff_right_iff_imp]
  intro h
  exact (indexIn?_eq_some_iff.1 h).1

theorem nodup_indices (graph : TaskGraph) : (graph.indices.map Prod.fst).Nodup := by
  have hnodes : graph.nodes.zipIdx.Nodup := by
    apply List.Nodup.of_map Prod.snd
    rw [List.zipIdx_map_snd]
    exact List.nodup_range' 1
  refine List.Nodup.map_on ?_ (hnodes.filter _)
  rintro ⟨name, i⟩ hi ⟨other, j⟩ hj (rfl : name = other)
  have hsame := (mem_indices_iff.1 hi).symm.trans (mem_indices_iff.1 hj)
  rw [Option.some.inj hsame]

theorem mem_of_indexIn? {nodes : List String} {name : String} {i : Nat} (h : indexIn? nodes name = some i) :
    name ∈ nodes :=
  List.mem_of_getElem? (indexIn?_eq_some_iff.1 h).1

theorem exists_indexIn? {nodes : List String} {name : String} (h : name ∈ nodes) : ∃ i, indexIn? nodes name = some i := by
  rw [← Option.ne_none_iff_exists']
  intro hnone
  exact lastFrom_eq_none_iff.1 hnone h

theorem mem_indices_map_fst_iff {graph : TaskGraph} {name : String} :
    name ∈ graph.indices.map Prod.fst ↔ name ∈ graph.nodes := by
  constructor
  · intro h
    obtain ⟨⟨other, i⟩, hi, rfl⟩ := List.mem_map.1 h
    exact mem_of_indexIn? (mem_indices_iff.1 hi)
  · intro h
    obtain ⟨i, hi⟩ := exists_indexIn? h
    exact List.mem_map.2 ⟨(name, i), mem_indices_iff.2 hi, rfl⟩

/-! ## Edges by name -/

/-- A node that a name stands for is read back as that name. -/
theorem nameEdge_eq {graph : TaskGraph} {source target : String} {edge : Edge}
    (hsource : graph.index? source = some edge.source) (htarget : graph.index? target = some edge.target) :
    graph.nameEdge edge = ⟨source, target, edge.link⟩ := by
  have hs := (indexIn?_eq_some_iff.1 hsource).1
  have ht := (indexIn?_eq_some_iff.1 htarget).1
  rw [nameEdge, hs, ht, Option.getD_some, Option.getD_some]

/-- Edges made for those of some names that stand for a node, read back: one for each declared name. -/
theorem map_nameEdge_filterMap {graph : TaskGraph} {edge : Nat → Edge} {named : String → NamedEdge}
    (h : ∀ name i, graph.index? name = some i → graph.nameEdge (edge i) = named name) (names : List String) :
    (names.filterMap fun name => (indexIn? graph.nodes name).map edge).map graph.nameEdge =
      (names.filter (· ∈ graph.nodes)).map named := by
  induction names with
  | nil => rfl
  | cons name names ih =>
    cases hindex : indexIn? graph.nodes name with
    | none =>
      have hundeclared : name ∉ graph.nodes := lastFrom_eq_none_iff.1 hindex
      rw [List.filterMap_cons_none (by rw [hindex, Option.map_none]), List.filter_cons_of_neg (by simpa using hundeclared), ih]
    | some i =>
      have hdeclared : name ∈ graph.nodes := mem_of_indexIn? hindex
      rw [List.filterMap_cons_some (by rw [hindex, Option.map_some]), List.filter_cons_of_pos (by simpa using hdeclared),
        List.map_cons, List.map_cons, h name i hindex, ih]

/-- An edge of a task runs between nodes that names stand for. -/
theorem exists_names_of_mem_edgesOf {nodes : List String} {task : Task} {edge : Edge} (h : edge ∈ edgesOf nodes task) :
    ∃ source target, indexIn? nodes source = some edge.source ∧ indexIn? nodes target = some edge.target := by
  unfold edgesOf at h
  cases hthis : indexIn? nodes task.name with
  | none => simp [hthis] at h
  | some this =>
    rw [hthis] at h
    rcases List.mem_append.1 h with hrequired | hsuccessor
    · unfold requirementEdges at hrequired
      cases hr : task.requirement with
      | none => simp [hr] at hrequired
      | unusable => simp [hr] at hrequired
      | all names =>
        rw [hr] at hrequired
        obtain ⟨name, -, hedge⟩ := List.mem_filterMap.1 hrequired
        obtain ⟨i, hi, rfl⟩ := Option.map_eq_some_iff.1 hedge
        exact ⟨name, task.name, hi, hthis⟩
    · obtain ⟨transition, -, hmem⟩ := List.mem_flatMap.1 hsuccessor
      obtain ⟨name, -, hedge⟩ := List.mem_filterMap.1 hmem
      obtain ⟨i, hi, rfl⟩ := Option.map_eq_some_iff.1 hedge
      exact ⟨task.name, name, hthis, hi⟩

end TaskGraph

/-- the names that a task waits for -/
def Task.requiredNames (task : Task) : List String :=
  match task.requirement with
  | .all names => names
  | _ => []

/-- the edges that a task declares, by name: from the tasks that it requires, then to its successors, each in the order and
as often as it names them; names that are not declared give none -/
def Task.declaredEdges (declared : List String) (task : Task) : List NamedEdge :=
  (task.requiredNames.filter (· ∈ declared)).map (fun name => ⟨name, task.name, .requires⟩) ++
    [Transition.onSuccess, .onError, .onComplete].flatMap fun transition =>
      ((task.successors transition).filter (· ∈ declared)).map fun name => ⟨task.name, name, .transition transition⟩

namespace TaskGraph

theorem map_nameEdge_edgesOf {graph : TaskGraph} {task : Task} (h : task.name ∈ graph.nodes) :
    (edgesOf graph.nodes task).map graph.nameEdge = task.declaredEdges graph.nodes := by
  obtain ⟨this, hthis⟩ := exists_indexIn? h
  have hrequired : (requirementEdges graph.nodes this task).map graph.nameEdge =
      (task.requiredNames.filter (· ∈ graph.nodes)).map fun name => ⟨name, task.name, .requires⟩ := by
    unfold requirementEdges Task.requiredNames
    cases task.requirement with
    | none => rfl
    | unusable => rfl
    | all names => exact map_nameEdge_filterMap (fun name i hi => @nameEdge_eq graph name task.name ⟨i, this, _⟩ hi hthis) names
  have hsuccessor (transition : Transition) : (successorEdges graph.nodes this task transition).map graph.nameEdge =
      ((task.successors transition).filter (· ∈ graph.nodes)).map fun name => ⟨task.name, name, .transition transition⟩ :=
    map_nameEdge_filterMap (fun name i hi => @nameEdge_eq graph task.name name ⟨this, i, _⟩ hthis hi) _
  rw [edgesOf, hthis, Task.declaredEdges]
  simp only [List.map_append, List.map_flatMap, hrequired, hsuccessor]
  rfl

/-- **The graph says what the entries declare.** There is one node per entry. The table has exactly the names of the entries,
each once and with the last entry of that name. By name the edges are those that the entries declare, one after the other; and
each of them runs between nodes that declared names stand for. -/
theorem ofWorkflow_by_name (workflow : Workflow) :
    let graph := ofWorkflow workflow
    let names := workflow.tasks.map Task.name
    graph.nodes = names ∧
    (graph.indices.map Prod.fst).Nodup ∧
    (∀ name, name ∈ graph.indices.map Prod.fst ↔ name ∈ names) ∧
    (∀ name i, (name, i) ∈ graph.indices ↔ names[i]? = some name ∧ ∀ j, i < j → names[j]? ≠ some name) ∧
    graph.namedEdges = workflow.tasks.flatMap (Task.declaredEdges names) ∧
    ∀ edge ∈ graph.edges, ∃ source ∈ names, ∃ target ∈ names,
      (source, edge.source) ∈ graph.indices ∧ (target, edge.target) ∈ graph.indices ∧
        graph.nameEdge edge = ⟨source, target, edge.link⟩ := by
  intro graph names
  refine ⟨rfl, nodup_indices graph, fun name => mem_indices_map_fst_iff, fun name i => ?_, ?_, ?_⟩
  · rw [mem_indices_iff]
    exact indexIn?_eq_some_iff
  · show (workflow.tasks.flatMap (edgesOf graph.nodes)).map graph.nameEdge = _
    rw [List.map_flatMap]
    apply List.flatMap_congr
    intro task htask
    exact map_nameEdge_edgesOf (List.mem_map_of_mem htask)
  · intro edge hedge
    obtain ⟨task, -, hmem⟩ := List.mem_flatMap.1 hedge
    obtain ⟨source, target, hsource, htarget⟩ := exists_names_of_mem_edgesOf hmem
    exact ⟨source, mem_of_indexIn? hsource, target, mem_of_indexIn? htarget, mem_indices_iff.2 hsource,
      mem_indices_iff.2 htarget, nameEdge_eq hsource htarget⟩

-- the keys `1` and `"1"` have one label: the first entry's edge starts at the second node, and by name that is no matter
example :
    let first := (Value.int 1, Value.map [(.str "on-success", .str "b")])
    let second := (Value.str "1", Value.map [(.str "requires", .seq [.str "b", .str "c"])])
    let graph := ofWorkflow ⟨"w", some [(.str "tasks", .map [first, second, (.str "b", .null)])]⟩
    graph.edges = [⟨1, 2, .transition .onSuccess⟩, ⟨2, 1, .requires⟩] ∧
      graph.namedEdges = [⟨"1", "b", .transition .onSuccess⟩, ⟨"b", "1", .requires⟩] := by
  decide +kernel

/-! ## Edges for requirements -/

/-- the graph has an edge from the node `i` to the node `j` that requires it -/
def RequiresEdge (graph : TaskGraph) (i j : Nat) : Prop :=
  ⟨i, j, .requires⟩ ∈ graph.edges

theorem mem_requirementEdges_iff {nodes : List String} {this i j : Nat} {task : Task} :
    ⟨i, j, .requires⟩ ∈ requirementEdges nodes this task ↔
      this = j ∧ ∃ names, task.requirement = .all names ∧ ∃ name ∈ names, indexIn? nodes name = some i := by
  unfold requirementEdges
  cases task.requirement with
  | all names =>
    simp only [List.mem_filterMap, Option.map_eq_some_iff, Edge.mk.injEq, Requirement.all.injEq, exists_eq_left']
    constructor
    · rintro ⟨name, hn, source, hs, rfl, rfl, -⟩
      exact ⟨rfl, name, hn, hs⟩
    · rintro ⟨rfl, name, hn, hs⟩
      exact ⟨name, hn, i, hs, rfl, rfl, trivial⟩
  | none => simp
  | unusable => simp

/-- Edges to successors have another link. -/
theorem not_mem_successorEdges (nodes : List String) (this i j : Nat) (task : Task) (transition : Transition) :
    ⟨i, j, .requires⟩ ∉ successorEdges nodes this task transition := by
  simp [successorEdges]

theorem mem_edges_requires_iff {workflow : Workflow} {i j : Nat} :
    (ofWorkflow workflow).RequiresEdge i j ↔
      ∃ task ∈ workflow.tasks, indexIn? (workflow.tasks.map Task.name) task.name = some j ∧
        ∃ names, task.requirement = .all names ∧
          ∃ name ∈ names, indexIn? (workflow.tasks.map Task.name) name = some i := by
  unfold RequiresEdge ofWorkflow
  simp only [List.mem_flatMap]
  refine exists_congr fun task => and_congr_right fun _ => ?_
  unfold edgesOf
  cases indexIn? (workflow.tasks.map Task.name) task.name with
  | none => simp
  | some this => simp [mem_requirementEdges_iff, not_mem_successorEdges]

end TaskGraph

/-! ## Tasks as nodes -/

/-- `task` waits for `required`, which is a task of the workflow -/
def Workflow.Requires (workflow : Workflow) (task required : Task) : Prop :=
  required ∈ workflow.tasks ∧ ∃ names, task.requirement = .all names ∧ required.name ∈ names

theorem Workflow.getElem?_map_name_iff {workflow : Workflow} {i : Nat} {name : String} :
    (workflow.tasks.map Task.name)[i]? = some name ↔ ∃ task, workflow.tasks[i]? = some task ∧ task.name = name := by
  rw [List.getElem?_map, Option.map_eq_some_iff]

theorem TaskGraph.requiresEdge_iff {workflow : Workflow} (hnames : (workflow.tasks.map Task.name).Nodup) {i j : Nat} :
    (ofWorkflow workflow).RequiresEdge i j ↔
      ∃ required task, workflow.tasks[i]? = some required ∧ workflow.tasks[j]? = some task ∧
        workflow.Requires task required := by
  rw [mem_edges_requires_iff]
  simp only [indexIn?_eq_some_iff_of_nodup hnames, Workflow.getElem?_map_name_iff]
  constructor
  · rintro ⟨task, ht, ⟨other, hj, hname⟩, names, hr, name, hn, required, hi, rfl⟩
    obtain rfl : other = task :=
      List.inj_on_of_nodup_map hnames (List.mem_of_getElem? hj) ht hname
    exact ⟨required, other, hi, hj, List.mem_of_getElem? hi, names, hr, hn⟩
  · rintro ⟨required, task, hi, hj, -, names, hr, hn⟩
    exact ⟨task, List.mem_of_getElem? hj, ⟨task, hj, rfl⟩, names, hr, required.name, hn, required, hi, rfl⟩

end WorkflowLint
