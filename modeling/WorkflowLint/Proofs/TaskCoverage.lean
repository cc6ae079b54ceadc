/-
Which tasks an embedded expression is checked against.

The scope check goes by lines: an expression belongs to the tasks whose span has the line it begins on. `coverage` counts
these tasks, and `CoversOnce` asks that there be one for every expression of a `tasks` section. `miscovered_documents` has
documents where it is not so. A task that is not found in block style gets lines from the top of the document; two tasks may
have one name; and a line of the section may belong to no task that is found.

`coverage_of_occurrence` says which tasks have the line of an expression, and that without these three causes there is one.
It goes by `Governs`: a line is in the span of a task that is found exactly if the task's header is the last outermost line
at or above it.
-/
import Mathlib.Data.List.MinMax
import WorkflowLint.Proofs.Extraction
import WorkflowLint.Proofs.Rows
import WorkflowLint.Workflow.Definition
import WorkflowLint.Yaml.Document

namespace WorkflowLint

open WorkflowLint.Text WorkflowLint.Expression

namespace Layout

/-! ## The section of a workflow's tasks -/

/-- the block of a workflow's `tasks` -/
def tasksBlock? (layout : Layout) (workflow : String) : Option Block :=
  (layout.workflowBlock? workflow).bind fun block => child? "tasks" block.body

theorem taskBlock?_eq (layout : Layout) (workflow task : String) :
    layout.taskBlock? workflow task = (layout.tasksBlock? workflow).bind fun tasks => child? task tasks.body := by
  simp [taskBlock?, tasksBlock?, Option.bind_assoc]

/-- whether a row would end a block whose header is indented by `indent` -/
def outermost (indent : Nat) (row : Row) : Bool :=
  !(row.isTrivia || decide (indent < row.indent))

/-- the rows of a block that are neither trivia nor indented deeper than the first that is no trivia -/
def Block.children (block : Block) : List Row :=
  match childIndent? block.body with
  | some indent => block.body.filter (outermost indent)
  | none => []

/-- how many tasks of a workflow have a line in their span -/
def coverage (layout : Layout) (workflow : Workflow) (line : Nat) : Nat :=
  workflow.tasks.countP fun task => (layout.taskSpan workflow.name task.name).contains line

/-- an expression begins on a line of the block, and there is no `#` on that line -/
def Block.Holds (layout : Layout) (block : Block) (occurrence : Occurrence) : Prop :=
  block.span.contains occurrence.range.start.line = true ∧
    ∀ shown ∈ layout.table.lineText? occurrence.range.start.line, '#' ∉ shown

instance (layout : Layout) (block : Block) (occurrence : Occurrence) : Decidable (block.Holds layout occurrence) :=
  inferInstanceAs (Decidable (_ ∧ _))

/-- every expression that begins in the `tasks` section of a workflow is in the span of one task -/
def CoversOnce (layout : Layout) (root : Yaml.Mapping) : Prop :=
  ∀ workflow ∈ Workflow.ofRoot root, 0 < workflow.tasks.length → ∀ tasks ∈ layout.tasksBlock? workflow.name,
    ∀ occurrence ∈ occurrences layout.table, tasks.Holds layout occurrence →
      layout.coverage workflow occurrence.range.start.line = 1

instance (layout : Layout) (root : Yaml.Mapping) : Decidable (layout.CoversOnce root) := by
  unfold CoversOnce
  infer_instance

/-- the mapping at the root of a document -/
def rootMapping? (text : List Char) : Option Yaml.Mapping :=
  match Yaml.parse text with
  | .error _ => none
  | .ok value => value.mapping?

/-- a document whose root is a mapping with a workflow that has an expression in no task or in several -/
def Miscovers (text : List Char) : Prop :=
  ∃ root ∈ rootMapping? text, ¬ (Layout.ofText text).CoversOnce root

instance (text : List Char) : Decidable (Miscovers text) :=
  inferInstanceAs (Decidable (∃ root ∈ rootMapping? text, ¬ (Layout.ofText text).CoversOnce root))

/-- **Documents with an expression in no task or in two.** -/
theorem miscovered_documents :
    -- both tasks are written in flow style and get all lines
    Miscovers "workflows:\n  wf:\n    tasks: \x7ba: \x7baction: \"<% $.x %>\"\x7d, b: \x7b\x7d\x7d".toList ∧
    -- the task gets the first line only, since the second is not indented
    Miscovers "version: '2.0'\nworkflows:\n  wf:\n    tasks: \x7ba: \x7baction: \"<% $.x %>\"\x7d\x7d".toList ∧
    -- an integer and a string have one name
    Miscovers "workflows:\n  wf:\n    tasks:\n      1:\n        action: <% $.x %>\n      '1':".toList ∧
    -- a value in quotes goes on, indented less than the task
    Miscovers "workflows:\n  wf:\n    tasks:\n       a:\n         action: \"<% $.x %>\n     <% $.y %>\"".toList ∧
    -- the name stands on the line of `tasks` already, and is found below it
    Miscovers "workflows:\n  wf:\n    tasks: \x7b\"<% x %>\": \"\n      <% x %>: y\"\x7d".toList := by
  refine ⟨?_, ?_, ?_, ?_, ?_⟩ <;> decide +kernel

/-! ## Blocks by number -/

/-- Rows of the layout from the number `n` on are numbered from `n`. -/
theorem number_of_place {text : List Char} {n i : Nat} {rows : List Row} {row : Row}
    (hrows : rows <+: (Layout.ofText text).rows.drop n) (h : rows[i]? = some row) : row.number = n + i := by
  obtain ⟨more, hmore⟩ := hrows
  obtain ⟨hlt, -⟩ := List.getElem?_eq_some_iff.1 h
  refine @number_of_getElem? text _ _ ?_
  rw [← List.getElem?_drop, ← hmore, List.getElem?_append_left hlt, h]

/-- A block found among rows of the layout, those from the number `n` on: its header stands where its number says, and its
body is made of the rows after it. -/
theorem child?_place {text : List Char} {n : Nat} {name : String} {rows : List Row} {block : Block}
    (hrows : rows <+: (Layout.ofText text).rows.drop n) (h : child? name rows = some block) :
    ∃ front rest, rows = front ++ block.header :: rest ∧ block.header.number = n + front.length ∧
      rest <+: (Layout.ofText text).rows.drop (block.header.number + 1) ∧
      block.body = bodyOf block.header.indent rest := by
  obtain ⟨-, -, front, rest, rfl, hbody⟩ := child?_inv h
  have hnumber : block.header.number = n + front.length := number_of_place hrows (by simp)
  obtain ⟨more, hmore⟩ := hrows
  refine ⟨front, rest, rfl, hnumber, ⟨more, ?_⟩, hbody⟩
  rw [hnumber, Nat.add_assoc, ← List.drop_drop, ← hmore]
  simp

theorem child?_body_place {text : List Char} {n : Nat} {name : String} {rows : List Row} {block : Block}
    (hrows : rows <+: (Layout.ofText text).rows.drop n) (h : child? name rows = some block) :
    block.body <+: (Layout.ofText text).rows.drop (block.header.number + 1) := by
  obtain ⟨front, rest, -, -, hrest, hbody⟩ := child?_place hrows h
  rw [hbody]
  exact (List.takeWhile_prefix _).trans hrest

/-- The body of the section is made of the rows after the line of `tasks`. -/
theorem tasksBlock?_place {text : List Char} {workflow : String} {tasks : Block}
    (h : (Layout.ofText text).tasksBlock? workflow = some tasks) :
    tasks.body <+: (Layout.ofText text).rows.drop (tasks.header.number + 1) := by
  obtain ⟨owner, howner, htasks⟩ := Option.bind_eq_some_iff.1 h
  obtain ⟨top, htop, hworkflow⟩ := Option.bind_eq_some_iff.1 howner
  exact child?_body_place (child?_body_place (@child?_body_place text 0 _ _ _ List.prefix_rfl htop) hworkflow) htasks

/-! ## The last outermost line -/

/-- the row is the last of the outermost ones of a block at or above the line -/
def Block.Governs (block : Block) (line : Nat) (row : Row) : Prop :=
  row ∈ block.children ∧ row.number ≤ line ∧ ∀ other ∈ block.children, other.number ≤ line → other.number ≤ row.number

theorem mem_children_iff {block : Block} {indent : Nat} {row : Row} (h : childIndent? block.body = some indent) :
    row ∈ block.children ↔ row ∈ block.body ∧ outermost indent row = true := by
  rw [Block.children, h]
  exact List.mem_filter

theorem mem_body_of_mem_children {block : Block} {row : Row} (h : row ∈ block.children) : row ∈ block.body := by
  unfold Block.children at h
  split at h
  case h_1 => exact (List.mem_filter.1 h).1
  case h_2 => exact absurd h List.not_mem_nil

/-- A block takes rows up to the first outermost one. -/
theorem bodyOf_split (indent : Nat) (rows : List Row) :
    ∃ more, rows = bodyOf indent rows ++ more ∧ (∀ row ∈ bodyOf indent rows, outermost indent row = false) ∧
      ∀ row, more.head? = some row → outermost indent row = true := by
  refine ⟨_, List.takeWhile_append_dropWhile.symm, fun row hrow => ?_, fun row hrow => ?_⟩
  · rw [bodyOf] at hrow
    have htaken := List.mem_takeWhile_imp hrow
    rw [outermost, htaken]
    rfl
  · have hstop := List.head?_dropWhile_not (fun row : Row => row.isTrivia || decide (indent < row.indent)) rows
    rw [hrow] at hstop
    simpa [outermost] using hstop

theorem getElem?_append_cons (front : List Row) (row : Row) (rest : List Row) (i : Nat) :
    (front ++ row :: rest)[front.length + (i + 1)]? = rest[i]? := by
  rw [List.getElem?_append_right (Nat.le_add_right _ _), Nat.add_sub_cancel_left, List.getElem?_cons_succ]

theorem contains_iff {span : LineSpan} {line : Nat} : span.contains line = true ↔ span.first ≤ line ∧ line ≤ span.last := by
  simp [LineSpan.contains]

section

variable {text : List Char} {tasks block : Block} {name : String}
  (hplace : tasks.body <+: (Layout.ofText text).rows.drop (tasks.header.number + 1))
include hplace

theorem eq_of_number_eq {row other : Row} (hrow : row ∈ tasks.body) (hother : other ∈ tasks.body)
    (h : row.number = other.number) : row = other := by
  obtain ⟨i, hi⟩ := List.getElem?_of_mem hrow
  obtain ⟨j, hj⟩ := List.getElem?_of_mem hother
  rw [number_of_place hplace hi, number_of_place hplace hj] at h
  obtain rfl : i = j := by omega
  exact Option.some.inj (hi.symm.trans hj)

theorem mem_body_of_place {row : Row} (hrow : row ∈ (Layout.ofText text).rows) (hlt : tasks.header.number < row.number)
    (hle : row.number ≤ tasks.span.last) : row ∈ tasks.body := by
  obtain ⟨n, hn⟩ := List.getElem?_of_mem hrow
  obtain rfl := number_of_getElem? hn
  obtain ⟨more, hmore⟩ := hplace
  obtain ⟨i, hi⟩ : ∃ i, row.number = tasks.header.number + 1 + i := ⟨row.number - (tasks.header.number + 1), by omega⟩
  have hlast : row.number ≤ tasks.header.number + tasks.body.length := hle
  rw [hi, ← List.getElem?_drop, ← hmore, List.getElem?_append_left (by omega)] at hn
  exact List.mem_of_getElem? hn

theorem Block.Governs.unique {line : Nat} {row other : Row} (h : tasks.Governs line row)
    (h' : tasks.Governs line other) : row = other := by
  have hle := h'.2.2 row h.1 h.2.1
  have hge := h.2.2 other h'.1 h'.2.1
  exact eq_of_number_eq hplace (mem_body_of_mem_children h.1) (mem_body_of_mem_children h'.1) (Nat.le_antisymm hle hge)

/-- The header of a block among the tasks is outermost. -/
theorem header_mem_children (h : child? name tasks.body = some block) : block.header ∈ tasks.children := by
  obtain ⟨hindent, hdeclares, front, rest, hrows, -⟩ := child?_inv h
  have hmem : block.header ∈ tasks.body := by
    rw [hrows]
    exact List.mem_append_right _ List.mem_cons_self
  have htrivia := isTrivia_of_declares (List.mem_of_mem_drop (hplace.subset hmem)) hdeclares
  refine (mem_children_iff hindent).2 ⟨hmem, ?_⟩
  simp [outermost, htrivia]

/-- No outermost line below the header is in the header's block. -/
theorem last_lt_of_mem_children (h : child? name tasks.body = some block) {other : Row} (hother : other ∈ tasks.children)
    (hlt : block.header.number < other.number) : block.span.last < other.number := by
  obtain ⟨hmem, hout⟩ := (mem_children_iff (child?_inv h).1).1 hother
  obtain ⟨front, rest, hrows, hnumber, -, hbody⟩ := child?_place hplace h
  obtain ⟨more, hmore, hinside, -⟩ := bodyOf_split block.header.indent rest
  rw [← hbody] at hmore hinside
  obtain ⟨i, hi⟩ := List.getElem?_of_mem hmem
  have hother := number_of_place hplace hi
  obtain ⟨j, rfl⟩ : ∃ j, i = front.length + (j + 1) := ⟨i - front.length - 1, by omega⟩
  rw [hrows, getElem?_append_cons, hmore] at hi
  show block.header.number + block.body.length < other.number
  by_contra hle
  -- the row would be one of those that the block takes
  rw [List.getElem?_append_left (by omega)] at hi
  rw [hinside other (List.mem_of_getElem? hi)] at hout
  exact Bool.noConfusion hout

/-- What ends a block in the midst of the section is outermost. -/
theorem exists_mem_children (h : child? name tasks.body = some block) (hlt : block.span.last < tasks.span.last) :
    ∃ other ∈ tasks.children, other.number = block.span.last + 1 := by
  obtain ⟨front, rest, hrows, hnumber, -, hbody⟩ := child?_place hplace h
  obtain ⟨more, hmore, -, hstop⟩ := bodyOf_split block.header.indent rest
  rw [← hbody] at hmore
  have hlast : block.header.number + block.body.length < tasks.header.number + tasks.body.length := hlt
  cases more with
  | nil =>
    rw [List.append_nil] at hmore
    rw [hrows, hmore, List.length_append, List.length_cons] at hlast
    omega
  | cons other more =>
    have hat : tasks.body[front.length + (block.body.length + 1)]? = some other := by
      rw [hrows, getElem?_append_cons, hmore]
      simp
    refine ⟨other, (mem_children_iff (child?_inv h).1).2 ⟨List.mem_of_getElem? hat, hstop other rfl⟩, ?_⟩
    rw [number_of_place hplace hat]
    show _ = block.header.number + block.body.length + 1
    omega

/-- A line of a task is governed by the header of the task. -/
theorem governs_of_contains {line : Nat} (h : child? name tasks.body = some block)
    (hline : block.span.contains line = true) : tasks.Governs line block.header := by
  rw [contains_iff] at hline
  refine ⟨header_mem_children hplace h, hline.1, fun other hother hle => ?_⟩
  by_contra hlt
  have hlast := last_lt_of_mem_children hplace h hother (Nat.lt_of_not_le hlt)
  omega

theorem contains_of_governs {line : Nat} (h : child? name tasks.body = some block) (hle : line ≤ tasks.span.last)
    (hgoverns : tasks.Governs line block.header) : block.span.contains line = true := by
  rw [contains_iff]
  refine ⟨hgoverns.2.1, ?_⟩
  by_contra hlt
  obtain ⟨other, hother, hnumber⟩ := exists_mem_children hplace h (by omega)
  have hbefore := hgoverns.2.2 other hother (by omega)
  have hlast : block.header.number ≤ block.span.last := Nat.le_add_right _ _
  omega

/-- A line that is no trivia has an outermost line at or above it. -/
theorem exists_governs {row : Row} (hrow : row ∈ tasks.body) (htrivia : row.isTrivia = false) :
    ∃ other, tasks.Governs row.number other := by
  obtain ⟨i, hi⟩ := List.getElem?_of_mem hrow
  obtain ⟨first, hfirst⟩ : ∃ first, tasks.body.find? (fun row => !row.isTrivia) = some first := by
    rw [← Option.isSome_iff_exists, List.find?_isSome]
    exact ⟨row, hrow, by simp [htrivia]⟩
  have hindent : childIndent? tasks.body = some first.indent := by rw [childIndent?, hfirst, Option.map_some]
  obtain ⟨hnot, before, after, hbody, hbefore⟩ := List.find?_eq_some_iff_append.1 hfirst
  have hmem : first ∈ tasks.children := by
    refine (mem_children_iff hindent).2 ⟨List.mem_of_find?_eq_some hfirst, ?_⟩
    simpa [outermost] using hnot
  have hle : first.number ≤ row.number := by
    have hat : tasks.body[before.length]? = some first := by rw [hbody]; simp
    rw [number_of_place hplace hi, number_of_place hplace hat]
    by_contra hlt
    -- what comes before the first line that is no trivia is trivia
    rw [hbody, List.getElem?_append_left (by omega)] at hi
    have := hbefore row (List.mem_of_getElem? hi)
    simp [htrivia] at this
  cases hmax : (tasks.children.filter fun other => other.number ≤ row.number).argmax Row.number with
  | none =>
    have hnone := List.argmax_eq_none.1 hmax
    have hin : first ∈ tasks.children.filter fun other => other.number ≤ row.number :=
      List.mem_filter.2 ⟨hmem, by simpa using hle⟩
    rw [hnone] at hin
    exact absurd hin List.not_mem_nil
  | some other =>
    obtain ⟨hchild, hnumber⟩ := List.mem_filter.1 (List.argmax_mem hmax)
    refine ⟨other, hchild, by simpa using hnumber, fun another ha han => ?_⟩
    exact List.le_of_mem_argmax (List.mem_filter.2 ⟨ha, by simpa using han⟩) hmax

end

/-! ## The line of an expression -/

theorem start_of_mem_occurrences {text : List Char} {occurrence : Occurrence}
    (h : occurrence ∈ occurrences (LineTable.ofText text)) :
    ∃ before rest, text = before ++ '<' :: rest ∧ occurrence.range.start = Position.zero.advanceAll before := by
  obtain ⟨site, hs, rfl⟩ := List.mem_map.1 h
  obtain ⟨before, inside, after, htext, -, -, rfl⟩ := mem_sites hs
  refine ⟨before, _, htext, ?_⟩
  subst htext
  have hoccurrence := occurrence_eq_occurrenceAt before inside after
  rw [List.cons_append, List.cons_append] at hoccurrence
  rw [hoccurrence]
  exact LineTable.position_append _ _

/-- The line that an expression begins on is trivia only if there is a `#` on it. -/
theorem exists_row_of_mem_occurrences {text : List Char} {occurrence : Occurrence}
    (h : occurrence ∈ occurrences (LineTable.ofText text))
    (hclean : ∀ shown ∈ (LineTable.ofText text).lineText? occurrence.range.start.line, '#' ∉ shown) :
    ∃ row, (Layout.ofText text).rows[occurrence.range.start.line]? = some row ∧ row.isTrivia = false := by
  obtain ⟨before, rest, htext, hstart⟩ := start_of_mem_occurrences h
  obtain ⟨line, hline, hmem⟩ := exists_mem_linesFrom 0 before rest (c := '<') (by decide)
  have hnumber : occurrence.range.start.line = before.count '\n' := by
    rw [hstart, Position.advanceAll_line]
    exact Nat.zero_add _
  have hat : (LineTable.ofText text).lines[occurrence.range.start.line]? = some line := by
    rw [hnumber, htext]
    exact hline
  refine ⟨Row.ofLine _ line, by rw [getElem?_rows, hat, Option.map_some], ?_⟩
  rw [Bool.eq_false_iff, ne_eq, ofLine_isTrivia_iff, ← isTrivia_text_iff]
  intro htrivia
  have hshown : '<' ∈ line.text := by
    rcases line.text_eq with ht | ht
    · rwa [ht] at hmem
    · rw [ht] at hmem
      simpa using hmem
  refine hclean line.text ?_ (hash_mem_of_isTrivia htrivia hshown (by decide))
  rw [LineTable.lineText?, hat]
  rfl

/-! ## Coverage -/

theorem countP_le_one {tasks : List Task} {p : Task → Bool} (hdistinct : (tasks.map Task.name).Nodup)
    (h : ∀ a ∈ tasks, ∀ b ∈ tasks, p a = true → p b = true → a.name = b.name) : tasks.countP p ≤ 1 := by
  induction tasks with
  | nil => exact Nat.zero_le _
  | cons task tasks ih =>
    rw [List.map_cons, List.nodup_cons] at hdistinct
    cases hp : p task with
    | false =>
      rw [List.countP_cons_of_neg (by rw [hp]; decide)]
      exact ih hdistinct.2 fun a ha b hb => h a (List.mem_cons_of_mem _ ha) b (List.mem_cons_of_mem _ hb)
    | true =>
      have hnone : tasks.countP p = 0 := by
        rw [List.countP_eq_zero]
        intro other ho hother
        have hname := h task List.mem_cons_self other (List.mem_cons_of_mem _ ho) hp hother
        exact hdistinct.1 (List.mem_map.2 ⟨other, ho, hname.symm⟩)
      rw [List.countP_cons_of_pos hp, hnone]

theorem child?_eq_taskBlock? {layout : Layout} {workflow : String} {tasks : Block}
    (h : layout.tasksBlock? workflow = some tasks) (name : String) :
    child? name tasks.body = layout.taskBlock? workflow name := by
  rw [taskBlock?_eq, h, Option.bind_some]

/-- the lines of a task that is not found -/
def topSpan (layout : Layout) : LineSpan :=
  ⟨0, (bodyOf 0 (layout.rows.drop 1)).length⟩

/-- a task has a line that `header` governs: it is found there, or it is not found and its lines go down so far -/
def Reaches (layout : Layout) (workflow task : String) (line : Nat) (header : Row) : Prop :=
  match layout.taskBlock? workflow task with
  | some block => block.header = header
  | none => layout.topSpan.contains line = true

theorem contains_iff_reaches {text : List Char} {workflow : String} {tasks : Block} {line : Nat} {header : Row}
    (htasks : (Layout.ofText text).tasksBlock? workflow = some tasks) (hle : line ≤ tasks.span.last)
    (hgoverns : tasks.Governs line header) (task : String) :
    ((Layout.ofText text).taskSpan workflow task).contains line = true ↔
      (Layout.ofText text).Reaches workflow task line header := by
  have hplace := tasksBlock?_place htasks
  unfold taskSpan Reaches
  cases hblock : (Layout.ofText text).taskBlock? workflow task with
  | none => exact Iff.rfl
  | some block =>
    have hchild := (child?_eq_taskBlock? htasks task).trans hblock
    constructor
    · intro hline
      exact (governs_of_contains hplace hchild hline).unique hplace hgoverns
    · rintro rfl
      exact contains_of_governs hplace hchild hle hgoverns

/-- Some outermost line governs the line of an expression. -/
theorem exists_governs_of_mem_occurrences {text : List Char} {workflow : String} {tasks : Block} {occurrence : Occurrence}
    (htasks : (Layout.ofText text).tasksBlock? workflow = some tasks)
    (hoccurrence : occurrence ∈ occurrences (LineTable.ofText text)) (hholds : tasks.Holds (Layout.ofText text) occurrence)
    (hbelow : tasks.header.number < occurrence.range.start.line) :
    ∃ header, tasks.Governs occurrence.range.start.line header := by
  have hplace := tasksBlock?_place htasks
  obtain ⟨row, hrow, htrivia⟩ := exists_row_of_mem_occurrences hoccurrence hholds.2
  have hnumber := number_of_getElem? hrow
  have hlast : row.number ≤ tasks.span.last := by
    rw [hnumber]
    exact (contains_iff.1 hholds.1).2
  rw [← hnumber] at hbelow ⊢
  exact exists_governs hplace (mem_body_of_place hplace (List.mem_of_getElem? hrow) hbelow hlast) htrivia

/-- **One task for each expression.** An expression that begins below the line of `tasks`, on a line of the section without
`#`, is in the span of those tasks that are found on the last outermost line at or above it, and of tasks that are not found
if no unindented line keeps them from reaching it. So when every task is found and no two have one name, it is in one span
at most, and in exactly one when besides every outermost line of the section is the header of a task. -/
theorem coverage_of_occurrence (text : List Char) (workflow : Workflow) (tasks : Block) (occurrence : Occurrence)
    (htasks : (Layout.ofText text).tasksBlock? workflow.name = some tasks)
    (hoccurrence : occurrence ∈ occurrences (LineTable.ofText text)) (hholds : tasks.Holds (Layout.ofText text) occurrence)
    (hbelow : tasks.header.number < occurrence.range.start.line) :
    let layout := Layout.ofText text
    let line := occurrence.range.start.line
    ∃ header, tasks.Governs line header ∧
      (∀ task, (layout.taskSpan workflow.name task).contains line = true ↔ layout.Reaches workflow.name task line header) ∧
      ((workflow.tasks.map Task.name).Nodup →
        (∀ task ∈ workflow.tasks, (layout.taskBlock? workflow.name task.name).isSome = true) →
        layout.coverage workflow line ≤ 1 ∧
          ((∀ row ∈ tasks.children, ∃ task ∈ workflow.tasks,
              (layout.taskBlock? workflow.name task.name).map Block.header = some row) →
            layout.coverage workflow line = 1)) := by
  intro layout line
  obtain ⟨header, hgoverns⟩ := exists_governs_of_mem_occurrences htasks hoccurrence hholds hbelow
  have hle : line ≤ tasks.span.last := (contains_iff.1 hholds.1).2
  have hreaches := contains_iff_reaches htasks hle hgoverns
  refine ⟨header, hgoverns, hreaches, fun hdistinct hlocated => ?_⟩
  have hdeclares : ∀ task ∈ workflow.tasks, (layout.taskSpan workflow.name task.name).contains line = true →
      header.declares task.name = true := by
    intro task htask hline
    obtain ⟨block, hblock⟩ := Option.isSome_iff_exists.1 (hlocated task htask)
    have hheader : block.header = header := by
      have := (hreaches task.name).1 hline
      rwa [Reaches, hblock] at this
    rw [← child?_eq_taskBlock? htasks] at hblock
    rw [← hheader]
    exact (child?_inv hblock).2.1
  have hone : layout.coverage workflow line ≤ 1 :=
    countP_le_one hdistinct fun a ha b hb hina hinb => name_eq_of_declares (hdeclares a ha hina) (hdeclares b hb hinb)
  refine ⟨hone, fun hheaders => Nat.le_antisymm hone (List.countP_pos_iff.2 ?_)⟩
  obtain ⟨task, htask, hheader⟩ := hheaders header hgoverns.1
  obtain ⟨block, hblock, hsame⟩ := Option.map_eq_some_iff.1 hheader
  refine ⟨task, htask, (hreaches task.name).2 ?_⟩
  rw [Reaches, hblock]
  exact hsame

/-- a document in block style, with expressions in two tasks, one of them on a line of its own -/
def twoTasks : List Char :=
  ("workflows:\n  wf:\n    tasks:\n      # first\n      a:\n        action: <% $.x %>\n" ++
    "      'b':\n       action: >\n         <% $.y %>").toList

/-- Both expressions are checked once. -/
theorem coverage_twoTasks :
    ∃ root ∈ rootMapping? twoTasks, ∃ workflow ∈ Workflow.ofRoot root,
      (Layout.ofText twoTasks).coverage workflow 5 = 1 ∧ (Layout.ofText twoTasks).coverage workflow 8 = 1 := by
  let layout := Layout.ofText twoTasks
  have hsample : ∃ root ∈ rootMapping? twoTasks, ∃ workflow ∈ Workflow.ofRoot root,
      ∃ tasks ∈ layout.tasksBlock? workflow.name, (workflow.tasks.map Task.name).Nodup ∧
        (∀ task ∈ workflow.tasks, (layout.taskBlock? workflow.name task.name).isSome = true) ∧
        (∀ row ∈ tasks.children, ∃ task ∈ workflow.tasks,
          (layout.taskBlock? workflow.name task.name).map Block.header = some row) ∧
        ∀ line ∈ [5, 8], ∃ occurrence ∈ occurrences layout.table,
          occurrence.range.start.line = line ∧ tasks.Holds layout occurrence ∧ tasks.header.number < line := by
    decide +kernel
  obtain ⟨root, hroot, workflow, hworkflow, tasks, htasks, hdistinct, hlocated, hheaders, hlines⟩ := hsample
  have hone : ∀ line ∈ [5, 8], layout.coverage workflow line = 1 := by
    intro line hline
    obtain ⟨occurrence, hoccurrence, rfl, hholds, hbelow⟩ := hlines line hline
    obtain ⟨-, -, -, hcoverage⟩ :=
      coverage_of_occurrence twoTasks workflow tasks occurrence htasks hoccurrence hholds hbelow
    exact (hcoverage hdistinct hlocated).2 hheaders
  exact ⟨root, hroot, workflow, hworkflow, hone 5 (by simp), hone 8 (by simp)⟩

end Layout

end WorkflowLint
