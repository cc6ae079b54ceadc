/-
A drawing shows what it is a drawing of, and nothing can be forged in it.

The text of a drawing is put together from names that may hold any characters: quotes, backslashes, line feeds, braces,
arrows. What a drawing shows of a workflow is a `Picture`: the names of the workflow and its tasks, the edges with their
labels, and the loops. `ofText_eq_iff` says that two texts have the same drawing exactly if they have the same pictures, and
of two documents with the given roots that these are the pictures of the workflows under the roots.

The argument is in the shape of the text. A way of writing is `SelfDelimiting` if what is written can be told from whatever
comes after it. A quoted name is, because a quote inside it never stands without a backslash before it; and so is what is put
together of such parts, one after the other, as an alternative or as a list, as long as the next character settles which
alternative it is and where the list ends. A line of a cluster, a cluster and a drawing are put together in these ways.
-/
import Mathlib.Data.List.Basic
import WorkflowLint.Diagram

namespace WorkflowLint

/-! ## Writing that delimits itself -/

namespace Text

/-- What is written for a value can be told from whatever is written after it. -/
def SelfDelimiting {α : Type} (write : α → List Char) : Prop :=
  ∀ a b rest rest', write a ++ rest = write b ++ rest' → a = b ∧ rest = rest'

namespace SelfDelimiting

variable {α β : Type} {write : α → List Char}

theorem lead (h : SelfDelimiting write) (before : List Char) : SelfDelimiting fun a => before ++ write a := by
  intro a b rest rest' heq
  rw [List.append_assoc, List.append_assoc, List.append_cancel_left_eq] at heq
  exact h a b rest rest' heq

/-- What comes after may depend on the value: it is known by then. -/
theorem follow (h : SelfDelimiting write) (after : α → List Char) : SelfDelimiting fun a => write a ++ after a := by
  intro a b rest rest' heq
  rw [List.append_assoc, List.append_assoc] at heq
  obtain ⟨rfl, hrest⟩ := h a b _ _ heq
  exact ⟨rfl, List.append_cancel_left hrest⟩

theorem pair (h : SelfDelimiting write) {write' : β → List Char} (h' : SelfDelimiting write') :
    SelfDelimiting fun both : α × β => write both.1 ++ write' both.2 := by
  rintro ⟨a, b⟩ ⟨a', b'⟩ rest rest' heq
  simp only [List.append_assoc] at heq
  obtain ⟨rfl, hsecond⟩ := h _ _ _ _ heq
  obtain ⟨rfl, hrest⟩ := h' _ _ _ _ hsecond
  exact ⟨rfl, hrest⟩

theorem comp (h : SelfDelimiting write) {f : β → α} (hf : Function.Injective f) : SelfDelimiting fun b => write (f b) := by
  intro a b rest rest' heq
  obtain ⟨hab, hrest⟩ := h _ _ _ _ heq
  exact ⟨hf hab, hrest⟩

/-- A value that may be missing, with a text in its place that cannot be taken for the beginning of a value. -/
theorem option (h : SelfDelimiting write) (missing : List Char)
    (hne : ∀ a rest rest', write a ++ rest ≠ missing ++ rest') :
    SelfDelimiting fun value? : Option α => value?.elim missing write := by
  intro a b rest rest' heq
  cases a with
  | none =>
    cases b with
    | none => exact ⟨rfl, List.append_cancel_left heq⟩
    | some b => exact absurd heq.symm (hne b rest' rest)
  | some a =>
    cases b with
    | none => exact absurd heq (hne a rest rest')
    | some b =>
      obtain ⟨rfl, hrest⟩ := h a b rest rest' heq
      exact ⟨rfl, hrest⟩

/-- A list of values, with a text at its end that cannot be taken for the beginning of another value. -/
theorem list (h : SelfDelimiting write) (stop : List Char) (hne : ∀ a rest rest', write a ++ rest ≠ stop ++ rest') :
    SelfDelimiting fun values : List α => values.flatMap write ++ stop := by
  intro as bs rest rest' heq
  induction as generalizing bs with
  | nil =>
    cases bs with
    | nil => exact ⟨rfl, List.append_cancel_left heq⟩
    | cons b bs =>
      refine absurd heq.symm ?_
      simp only [List.flatMap_cons, List.append_assoc]
      exact hne b _ _
  | cons a as ih =>
    cases bs with
    | nil =>
      refine absurd heq ?_
      simp only [List.flatMap_cons, List.append_assoc]
      exact hne a _ _
    | cons b bs =>
      simp only [List.flatMap_cons, List.append_assoc] at heq
      obtain ⟨rfl, htail⟩ := h a b _ _ heq
      obtain ⟨rfl, hrest⟩ := ih bs (by simpa only [List.append_assoc] using htail)
      exact ⟨rfl, hrest⟩

end SelfDelimiting

end Text

open Text

/-! ## Quoted names -/

namespace Dot

theorem selfDelimiting_quoteChar : SelfDelimiting quoteChar := by
  intro c d rest rest' heq
  unfold quoteChar at heq
  split at heq
  case isTrue hc =>
    split at heq
    case isTrue hd =>
      obtain ⟨hcd, hrest⟩ := List.cons.inj (List.cons.inj heq).2
      exact ⟨hcd, hrest⟩
    case isFalse hd => exact absurd (Or.inl (List.cons.inj heq).1.symm) hd
  case isFalse hc =>
    split at heq
    case isTrue hd => exact absurd (Or.inl (List.cons.inj heq).1) hc
    case isFalse hd => exact List.cons.inj heq

theorem quoteChar_ne_quote (c : Char) (rest rest' : List Char) : quoteChar c ++ rest ≠ ['"'] ++ rest' := by
  intro heq
  unfold quoteChar at heq
  split at heq
  case isTrue => exact absurd (List.cons.inj heq).1 (by decide)
  case isFalse hc => exact hc (Or.inr (List.cons.inj heq).1)

/-- A quoted name ends at the first quote without a backslash before it. -/
theorem selfDelimiting_quote : SelfDelimiting fun id => (quote id).toList := by
  have hbody : SelfDelimiting fun id : String => id.toList.flatMap quoteChar ++ ['"'] :=
    (selfDelimiting_quoteChar.list ['"'] quoteChar_ne_quote).comp fun a b => String.toList_inj.1
  have hquoted : ∀ id, (quote id).toList = ['"'] ++ (id.toList.flatMap quoteChar ++ ['"']) := by
    intro id
    simp [quote]
  simpa only [hquoted] using hbody.lead ['"']

/-- the characters of the text of items, from a depth on -/
def chars (depth : Nat) (items : List Item) : List Char :=
  (writeAll depth items).flatMap String.toList

theorem toList_render (items : List Item) : (render items).toList = chars 0 items := by
  simp [render, chars, String.toList_join]

section

variable (depth : Nat) (rest : List Item)

theorem chars_line (text : String) : chars depth (.line text :: rest) = (indented depth text).toList ++ chars depth rest :=
  rfl

theorem chars_enter (heading : String) :
    chars depth (.enter heading :: rest) = (indented depth (heading ++ " \x7b")).toList ++ chars (depth + 1) rest :=
  rfl

theorem chars_leave :
    chars depth (.leave :: rest) = (indented (depth - 1) "\x7d").toList ++ chars (depth - 1) rest :=
  rfl

theorem chars_edge (source target : String) (label : Option String) :
    chars depth (.edge source target label :: rest) =
      (indented depth (edgeText source target label)).toList ++ chars depth rest :=
  rfl

theorem toList_indented (text : String) :
    (indented depth text).toList = List.replicate (2 * depth) ' ' ++ (text.toList ++ ['\n']) := by
  simp [indented]

end

end Dot

namespace Diagram

/-! ## What a drawing shows -/

/-- what a drawing shows of a workflow -/
structure Picture where
  name : String
  tasks : List String
  /-- from one task to another, with a label -/
  edges : List (String × String × Option String)
  /-- a task and the variable it loops over -/
  loops : List (String × String)
  /-- no edge has the label of a loop -/
  edges_plain : ∀ edge ∈ edges, ∀ item, edge.2.2 ≠ some ("loop " ++ item)

theorem label?_ne_loop (link : Link) (item : String) : link.label? ≠ some ("loop " ++ item) := by
  intro h
  cases link with
  | requires => simp [Link.label?] at h
  | transition transition =>
    cases transition with
    | onSuccess => simp [Link.label?] at h
    | onError =>
      have hchars := congrArg String.toList (Option.some.inj h)
      simp [Transition.key] at hchars
    | onComplete =>
      have hchars := congrArg String.toList (Option.some.inj h)
      simp [Transition.key] at hchars

def Picture.ofWorkflow (workflow : Workflow) : Picture where
  name := workflow.name
  tasks := workflow.tasks.map Task.name
  edges := (TaskGraph.ofWorkflow workflow).namedEdges.map fun edge => (edge.source, edge.target, edge.link.label?)
  loops := workflow.tasks.filterMap fun task => task.loopVariable?.map fun item => (task.name, item)
  edges_plain := by
    intro edge hedge
    obtain ⟨named, -, rfl⟩ := List.mem_map.1 hedge
    exact label?_ne_loop named.link

/-! ## The lines of a cluster -/

/-- a line of a cluster: a node alone, or an edge from it to another, maybe with a label -/
abbrev Statement := String × Option (String × Option String)

namespace Statement

def item : Statement → Dot.Item
  | (id, none) => .line (Dot.quote id ++ ";")
  | (source, some (target, label)) => .edge source target label

/-- the text of a line of a cluster, part by part -/
def text (statement : Statement) : List Char :=
  "    ".toList ++ ((Dot.quote statement.1).toList ++ statement.2.elim ";\n".toList fun edge =>
    " -> ".toList ++ ((Dot.quote edge.1).toList ++ edge.2.elim ";\n".toList fun label =>
      " [label=".toList ++ ((Dot.quote label).toList ++ "];\n".toList)))

theorem chars_item (statement : Statement) (rest : List Dot.Item) :
    Dot.chars 2 (statement.item :: rest) = statement.text ++ Dot.chars 2 rest := by
  obtain ⟨source, _ | ⟨target, label⟩⟩ := statement
  case none => simp [item, text, Dot.chars_line, Dot.toList_indented, List.replicate]
  case some =>
    cases label <;> simp [item, text, Dot.chars_edge, Dot.toList_indented, Dot.edgeText, List.replicate]

theorem selfDelimiting_text : SelfDelimiting text := by
  have hlabel : SelfDelimiting fun label => " [label=".toList ++ ((Dot.quote label).toList ++ "];\n".toList) :=
    (Dot.selfDelimiting_quote.follow fun _ => "];\n".toList).lead " [label=".toList
  have hlabel? := hlabel.option ";\n".toList (by simp)
  have hedge := (Dot.selfDelimiting_quote.pair hlabel?).lead " -> ".toList
  have hedge? := hedge.option ";\n".toList (by simp)
  exact (Dot.selfDelimiting_quote.pair hedge?).lead "    ".toList

end Statement

/-! ## Clusters and drawings -/

/-- the first lines of a cluster -/
def heading (name : String) : List Dot.Item :=
  [.enter ("subgraph " ++ Dot.quote ("cluster_" ++ name)), .line ("label = " ++ Dot.quote name ++ ";"),
    .line "style = dashed;"]

def nodeLine (workflow task : String) : Statement :=
  (nodeId workflow task, none)

def edgeLine (workflow : String) (edge : String × String × Option String) : Statement :=
  (nodeId workflow edge.1, some (nodeId workflow edge.2.1, edge.2.2))

def loopLine (workflow : String) (loop : String × String) : Statement :=
  (nodeId workflow loop.1, some (nodeId workflow loop.1, some ("loop " ++ loop.2)))

/-- the lines of a cluster between its heading and its end -/
def Picture.statements (picture : Picture) : List Statement :=
  picture.tasks.map (nodeLine picture.name) ++
    (picture.edges.map (edgeLine picture.name) ++ picture.loops.map (loopLine picture.name))

theorem cluster_eq (workflow : Workflow) :
    cluster workflow =
      heading workflow.name ++ (Picture.ofWorkflow workflow).statements.map Statement.item ++ [.leave] := by
  have hloops : workflow.tasks.filterMap (loopItem? workflow.name) =
      (Picture.ofWorkflow workflow).loops.map fun loop => (loopLine workflow.name loop).item := by
    rw [Picture.ofWorkflow, List.map_filterMap]
    refine List.filterMap_congr fun task _ => ?_
    rw [loopItem?, Option.map_map]
    rfl
  rw [cluster, hloops, Picture.statements]
  simp only [List.map_append, List.map_map, List.append_assoc, Picture.ofWorkflow]
  rfl

/-- the characters of a cluster with a name and lines -/
def clusterChars (both : String × List Statement) : List Char :=
  Dot.chars 1 (heading both.1) ++ (both.2.flatMap Statement.text ++ Dot.chars 2 [.leave])

theorem chars_statements (statements : List Statement) (rest : List Dot.Item) :
    Dot.chars 2 (statements.map Statement.item ++ rest) = statements.flatMap Statement.text ++ Dot.chars 2 rest := by
  induction statements with
  | nil => rfl
  | cons statement statements ih =>
    rw [List.map_cons, List.cons_append, statement.chars_item, ih, List.flatMap_cons, List.append_assoc]

theorem chars_heading (name : String) (rest : List Dot.Item) :
    Dot.chars 1 (heading name ++ rest) = Dot.chars 1 (heading name) ++ Dot.chars 2 rest := by
  simp only [heading, List.cons_append, List.nil_append, Dot.chars_enter, Dot.chars_line, List.append_assoc]
  rfl

theorem chars_cluster (workflow : Workflow) (rest : List Dot.Item) :
    Dot.chars 1 (cluster workflow ++ rest) =
      clusterChars (workflow.name, (Picture.ofWorkflow workflow).statements) ++ Dot.chars 1 rest := by
  have hleave : Dot.chars 2 ([.leave] ++ rest) = Dot.chars 2 [.leave] ++ Dot.chars 1 rest := by
    rw [Dot.chars_leave, List.append_assoc]
    rfl
  rw [cluster_eq, List.append_assoc, List.append_assoc, chars_heading, chars_statements, hleave, clusterChars]
  simp only [List.append_assoc]

def Picture.chars (picture : Picture) : List Char :=
  clusterChars (picture.name, picture.statements)

theorem chars_clusters (workflows : List Workflow) (rest : List Dot.Item) :
    Dot.chars 1 (workflows.flatMap cluster ++ rest) =
      (workflows.map Picture.ofWorkflow).flatMap Picture.chars ++ Dot.chars 1 rest := by
  induction workflows with
  | nil => rfl
  | cons workflow workflows ih =>
    rw [List.flatMap_cons, List.append_assoc, chars_cluster, ih, List.map_cons, List.flatMap_cons, List.append_assoc]
    rfl

/-- the first lines of a drawing -/
def opening : List Dot.Item :=
  [.enter "digraph mistral", .line "rankdir=LR;", .line "node [shape=box, style=rounded];"]

theorem toList_render_items (workflows : List Workflow) :
    (Dot.render (items workflows)).toList = Dot.chars 0 opening ++
      ((workflows.map Picture.ofWorkflow).flatMap Picture.chars ++ Dot.chars 1 [.leave]) := by
  rw [Dot.toList_render, ← chars_clusters]
  simp only [items, opening, List.cons_append, List.nil_append, Dot.chars_enter, Dot.chars_line, List.append_assoc]
  rfl

theorem selfDelimiting_heading : SelfDelimiting fun name => Dot.chars 1 (heading name) := by
  have hname : SelfDelimiting fun name => (Dot.quote ("cluster_" ++ name)).toList :=
    Dot.selfDelimiting_quote.comp fun a b h => (String.append_right_inj _).1 h
  have hchars : ∀ name, Dot.chars 1 (heading name) = "  subgraph ".toList ++
      ((Dot.quote ("cluster_" ++ name)).toList ++
        (" \x7b\n".toList ++ Dot.chars 2 [.line ("label = " ++ Dot.quote name ++ ";"), .line "style = dashed;"])) := by
    intro name
    simp [heading, Dot.chars_enter, Dot.toList_indented, List.replicate]
  simpa only [hchars] using (hname.follow _).lead "  subgraph ".toList

/-- A line of a cluster begins with four spaces, and the end of the cluster with two. -/
theorem selfDelimiting_clusterChars : SelfDelimiting clusterChars := by
  have hlines := Statement.selfDelimiting_text.list (Dot.chars 2 [.leave]) (by
    simp [Statement.text, Dot.chars_leave, Dot.toList_indented, List.replicate])
  have hcluster := selfDelimiting_heading.pair hlines
  exact hcluster

/-- A cluster begins with two spaces, and the end of a drawing with none. -/
theorem Picture.chars_ne_leave (picture : Picture) (rest rest' : List Char) :
    picture.chars ++ rest ≠ Dot.chars 1 [.leave] ++ rest' := by
  simp [Picture.chars, clusterChars, heading, Dot.chars_enter, Dot.chars_leave, Dot.toList_indented, List.replicate]

/-! ## Reading the picture back -/

/-- Two lists that begin with members of a class and go on with others agree part by part. -/
theorem append_inj_of_class {α : Type} (p : α → Prop) {as as' bs bs' : List α} (has : ∀ a ∈ as, p a)
    (has' : ∀ a ∈ as', p a) (hbs : ∀ b ∈ bs, ¬ p b) (hbs' : ∀ b ∈ bs', ¬ p b) (h : as ++ bs = as' ++ bs') :
    as = as' ∧ bs = bs' := by
  classical
  have hfilter : ∀ {as bs : List α}, (∀ a ∈ as, p a) → (∀ b ∈ bs, ¬ p b) → (as ++ bs).filter p = as := by
    intro as bs has hbs
    rw [List.filter_append, List.filter_eq_self.2 (by simpa using has), List.filter_eq_nil_iff.2 (by simpa using hbs),
      List.append_nil]
  obtain rfl : as = as' := by rw [← hfilter has hbs, h, hfilter has' hbs']
  exact ⟨rfl, List.append_cancel_left h⟩

theorem nodeId_injective (workflow : String) : Function.Injective (nodeId workflow) := by
  intro a b h
  exact (String.append_right_inj _).1 h

theorem nodeLine_injective (workflow : String) : Function.Injective (nodeLine workflow) := by
  intro a b h
  exact nodeId_injective workflow (congrArg Prod.fst h)

theorem edgeLine_injective (workflow : String) : Function.Injective (edgeLine workflow) := by
  rintro ⟨source, target, label⟩ ⟨source', target', label'⟩ h
  simp only [edgeLine, Prod.mk.injEq, Option.some.injEq] at h
  obtain ⟨hsource, htarget, hlabel⟩ := h
  rw [nodeId_injective workflow hsource, nodeId_injective workflow htarget, hlabel]

theorem loopLine_injective (workflow : String) : Function.Injective (loopLine workflow) := by
  rintro ⟨task, item⟩ ⟨task', item'⟩ h
  simp only [loopLine, Prod.mk.injEq, Option.some.injEq] at h
  obtain ⟨htask, -, hitem⟩ := h
  rw [nodeId_injective workflow htask, (String.append_right_inj _).1 hitem]

/-- A node has no target, and the label of a loop is that of no edge: so each line of a cluster tells which of the three it
is. -/
theorem Picture.eq_of_statements {p q : Picture} (hname : p.name = q.name) (h : p.statements = q.statements) : p = q := by
  have htarget : ∀ picture : Picture, ∀ line ∈ picture.edges.map (edgeLine picture.name) ++
      picture.loops.map (loopLine picture.name), line.2 ≠ none := by
    intro picture
    refine List.forall_mem_append.2 ⟨?_, ?_⟩ <;> exact List.forall_mem_map.2 fun _ _ => Option.some_ne_none _
  obtain ⟨htasks, hlinks⟩ := append_inj_of_class (fun line => line.2 = none)
    (List.forall_mem_map.2 fun _ _ => rfl) (List.forall_mem_map.2 fun _ _ => rfl) (htarget p) (htarget q) h
  have hplain : ∀ picture : Picture, ∀ line ∈ picture.edges.map (edgeLine picture.name),
      ¬ ∃ target item, line.2 = some (target, some ("loop " ++ item)) := by
    intro picture
    refine List.forall_mem_map.2 ?_
    rintro edge hedge ⟨target, item, hline⟩
    exact picture.edges_plain edge hedge item (congrArg Prod.snd (Option.some.inj hline))
  have hloop : ∀ picture : Picture, ∀ line ∈ picture.loops.map (loopLine picture.name),
      ¬ ¬ ∃ target item, line.2 = some (target, some ("loop " ++ item)) := by
    intro picture
    exact List.forall_mem_map.2 fun loop _ => not_not_intro ⟨_, loop.2, rfl⟩
  obtain ⟨hedges, hloops⟩ := append_inj_of_class _ (hplain p) (hplain q) (hloop p) (hloop q) hlinks
  obtain ⟨name, tasks, edges, loops, _⟩ := p
  obtain ⟨_, tasks', edges', loops', _⟩ := q
  obtain rfl : name = _ := hname
  obtain rfl : tasks = tasks' := (nodeLine_injective name).list_map htasks
  obtain rfl : edges = edges' := (edgeLine_injective name).list_map hedges
  obtain rfl : loops = loops' := (loopLine_injective name).list_map hloops
  rfl

/-- What a drawing shows can be read off it. -/
theorem render_items_eq_iff (workflows others : List Workflow) :
    Dot.render (items workflows) = Dot.render (items others) ↔
      workflows.map Picture.ofWorkflow = others.map Picture.ofWorkflow := by
  have hpicture : SelfDelimiting Picture.chars := selfDelimiting_clusterChars.comp fun p q h =>
    Picture.eq_of_statements (congrArg Prod.fst h) (congrArg Prod.snd h)
  have hdrawing := (hpicture.list (Dot.chars 1 [.leave]) Picture.chars_ne_leave).lead (Dot.chars 0 opening)
  constructor
  · intro h
    have hchars := congrArg (fun drawing => drawing.toList ++ []) h
    simp only [toList_render_items] at hchars
    exact (hdrawing _ _ _ _ hchars).1
  · intro h
    exact String.toList_inj.1 (by rw [toList_render_items, toList_render_items, h])

/-- Two texts have the same drawing exactly if it shows the same: the same workflows in the same order, and in each the same
tasks, edges and loops, whatever characters their names hold. Of two documents these are the workflows under their roots. -/
theorem ofText_eq_iff (a b : List Char) :
    (ofText a = ofText b ↔
      (Workflow.ofText a).map Picture.ofWorkflow = (Workflow.ofText b).map Picture.ofWorkflow) ∧
    ∀ value root value' root', Yaml.parse a = .ok value → value.mapping? = some root →
      Yaml.parse b = .ok value' → value'.mapping? = some root' →
        (ofText a = ofText b ↔
          (Workflow.ofRoot root).map Picture.ofWorkflow = (Workflow.ofRoot root').map Picture.ofWorkflow) := by
  refine ⟨render_items_eq_iff _ _, ?_⟩
  intro value root value' root' hparse hroot hparse' hroot'
  rw [ofText, ofText, Workflow.ofText_of_root hparse hroot, Workflow.ofText_of_root hparse' hroot']
  exact render_items_eq_iff _ _

/-- a document whose only task has a name that looks like the lines of two -/
def forgedLines : List Char :=
  "workflows:\n  w:\n    tasks:\n      \"a\\\";\\n    \\\"w.b\": \x7b\x7d\n".toList

/-- a document that has the two tasks -/
def honestLines : List Char :=
  "workflows:\n  w:\n    tasks:\n      a: \x7b\x7d\n      b: \x7b\x7d\n".toList

/-- The name does not pass for two. -/
theorem forged_lines_drawn_apart :
    ((Workflow.ofText forgedLines).map Picture.ofWorkflow).map Picture.tasks = [["a\";\n    \"w.b"]] ∧
      ((Workflow.ofText honestLines).map Picture.ofWorkflow).map Picture.tasks = [["a", "b"]] ∧
      ofText forgedLines ≠ ofText honestLines := by
  have hforged : ((Workflow.ofText forgedLines).map Picture.ofWorkflow).map Picture.tasks = [["a\";\n    \"w.b"]] := by
    decide +kernel
  have hhonest : ((Workflow.ofText honestLines).map Picture.ofWorkflow).map Picture.tasks = [["a", "b"]] := by
    decide +kernel
  -- a document that shows tasks has a root
  have hparsed : ∀ {text : List Char} {tasks : List String},
      ((Workflow.ofText text).map Picture.ofWorkflow).map Picture.tasks = [tasks] →
        ∃ value root, Yaml.parse text = .ok value ∧ value.mapping? = some root := by
    intro text tasks htext
    rw [List.map_map] at htext
    obtain ⟨workflow, hworkflow, -⟩ := List.exists_of_mem_map (htext ▸ List.mem_singleton_self tasks)
    exact Workflow.exists_root_of_mem_ofText hworkflow
  obtain ⟨value, root, hparse, hroot⟩ := hparsed hforged
  obtain ⟨value', root', hparse', hroot'⟩ := hparsed hhonest
  refine ⟨hforged, hhonest, fun hsame => ?_⟩
  have hpictures := ((ofText_eq_iff forgedLines honestLines).2 value root value' root' hparse hroot hparse' hroot').1 hsame
  rw [← Workflow.ofText_of_root hparse hroot, ← Workflow.ofText_of_root hparse' hroot'] at hpictures
  rw [hpictures, hhonest] at hforged
  exact absurd hforged (by decide)

end Diagram
end WorkflowLint
