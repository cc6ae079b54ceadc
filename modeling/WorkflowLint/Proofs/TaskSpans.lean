/-
The lines of one task and the lines of another.

A lookup goes from block to block, and every block is cut out of the body of the one before it. `Block.Opens` says what a block
is without the lookup that found it: its header stands where its number says, and its body is made of all rows below that are
trivia or indented deeper, up to the first that is neither. This holds of a block at the root (`opens_of_child?`) and is kept by
each step inwards (`Block.Opens.child`), since what ends the outer block would end the inner one as well.

From it come the two facts about spans: a child's block lies inside that of its parent, below the header
(`Block.Opens.within`), and two children with different names have no line in common (`Block.Opens.apart`). The second needs no
order of any kind in the text: both headers have the same indentation, so whichever stands lower ends the block of the other.

`located_tasks_apart` puts them together for tasks, in every text: tabs, odd dedents, repeated keys and comments anywhere.
-/
import WorkflowLint.Proofs.TaskCoverage

namespace WorkflowLint

open WorkflowLint.Expression

namespace Layout

/-! ## Spans -/

/-- no line is in both spans -/
def LineSpan.Apart (span other : LineSpan) : Prop :=
  ∀ line, ¬ (span.contains line = true ∧ other.contains line = true)

/-- all lines of a span are in the other one -/
def LineSpan.Within (span outer : LineSpan) : Prop :=
  outer.first ≤ span.first ∧ span.last ≤ outer.last

theorem LineSpan.apart_of_lt {span other : LineSpan} (h : span.last < other.first) : span.Apart other := by
  rintro line ⟨hspan, hother⟩
  rw [contains_iff] at hspan hother
  omega

theorem LineSpan.Apart.symm {span other : LineSpan} (h : span.Apart other) : other.Apart span :=
  fun line hline => h line hline.symm

theorem LineSpan.Within.contains {span outer : LineSpan} (h : span.Within outer) {line : Nat}
    (hline : span.contains line = true) : outer.contains line = true := by
  rw [contains_iff] at hline ⊢
  exact ⟨h.1.trans hline.1, hline.2.trans h.2⟩

theorem LineSpan.Apart.mono {span other outer outer' : LineSpan} (h : outer.Apart outer') (hspan : span.Within outer)
    (hother : other.Within outer') : span.Apart other :=
  fun line hline => h line ⟨hspan.contains hline.1, hother.contains hline.2⟩

/-! ## The block that a row opens -/

/-- the block is the one that its header opens in the document -/
structure Block.Opens (layout : Layout) (block : Block) : Prop where
  header : layout.rows[block.header.number]? = some block.header
  body : block.body = bodyOf block.header.indent (layout.rows.drop (block.header.number + 1))

/-- What ends a block ends every block that is indented deeper. -/
theorem outermost_of_le {indent inner : Nat} {row : Row} (hle : indent ≤ inner) (h : outermost indent row = true) :
    outermost inner row = true := by
  simp only [outermost, Bool.not_eq_true', Bool.or_eq_false_iff, decide_eq_false_iff_not] at h ⊢
  exact ⟨h.1, fun hlt => h.2 (Nat.lt_of_le_of_lt hle hlt)⟩

/-- Rows behind one that ends the block do not count. -/
theorem bodyOf_append_of_outermost {indent : Nat} {more : List Row} (rows : List Row)
    (h : ∀ row, more.head? = some row → outermost indent row = true) : bodyOf indent (rows ++ more) = bodyOf indent rows := by
  have hmore : bodyOf indent more = [] := by
    cases more with
    | nil => rfl
    | cons row more =>
      refine List.takeWhile_cons_of_neg ?_
      have hstop := h row rfl
      rw [outermost, Bool.not_eq_true'] at hstop
      rw [hstop]
      exact Bool.false_ne_true
  induction rows with
  | nil => exact hmore
  | cons row rows ih =>
    rw [bodyOf] at ih
    rw [bodyOf, bodyOf, List.cons_append, List.takeWhile_cons, List.takeWhile_cons, ih]
    rfl

section

variable {text : List Char} {parent block block' : Block} {name name' : String}

/-- A block found at the root of the document. -/
theorem opens_of_child? (h : child? name (Layout.ofText text).rows = some block) : block.Opens (Layout.ofText text) := by
  obtain ⟨front, rest, hrows, hnumber, -, hbody⟩ := @child?_place text 0 _ _ _ List.prefix_rfl h
  rw [Nat.zero_add] at hnumber
  rw [List.drop_zero] at hrows
  constructor
  · rw [hrows, hnumber]
    simp
  · rw [hbody, hrows, hnumber]
    simp

theorem Block.Opens.place (hp : parent.Opens (Layout.ofText text)) :
    parent.body <+: (Layout.ofText text).rows.drop (parent.header.number + 1) := by
  rw [hp.body]
  exact List.takeWhile_prefix _

theorem Block.Opens.indent_lt (hp : parent.Opens (Layout.ofText text)) {row : Row} (hrow : row ∈ parent.body)
    (htrivia : row.isTrivia = false) : parent.header.indent < row.indent := by
  rw [hp.body] at hrow
  have htaken := List.mem_takeWhile_imp hrow
  simpa [htrivia] using htaken

/-- A block found among the rows of another one: it was cut off there, but it would not have reached any further. -/
theorem Block.Opens.child (hp : parent.Opens (Layout.ofText text)) (h : child? name parent.body = some block) :
    block.Opens (Layout.ofText text) := by
  obtain ⟨front, rest, hrows, hnumber, -, hbody⟩ := child?_place hp.place h
  obtain ⟨more, hmore, -, hstop⟩ :=
    bodyOf_split parent.header.indent ((Layout.ofText text).rows.drop (parent.header.number + 1))
  rw [← hp.body, hrows] at hmore
  have hmem : block.header ∈ parent.body := by
    rw [hrows]
    exact List.mem_append_right _ List.mem_cons_self
  have htrivia := isTrivia_of_declares (List.mem_of_mem_drop (hp.place.subset hmem)) (child?_inv h).2.1
  have hdeeper := hp.indent_lt hmem htrivia
  constructor
  · rw [hnumber, ← List.getElem?_drop, hmore]
    simp
  · have hbelow : (Layout.ofText text).rows.drop (block.header.number + 1) = rest ++ more := by
      rw [hnumber, Nat.add_assoc, ← List.drop_drop, hmore]
      simp
    rw [hbody, hbelow, bodyOf_append_of_outermost]
    exact fun row hrow => outermost_of_le (Nat.le_of_lt hdeeper) (hstop row hrow)

/-- A child's lines are below the header of the parent, and the parent's block has them all. -/
theorem Block.Opens.within (hp : parent.Opens (Layout.ofText text)) (h : child? name parent.body = some block) :
    parent.header.number < block.header.number ∧ block.span.Within parent.span := by
  obtain ⟨front, rest, hrows, hnumber, -, hbody⟩ := child?_place hp.place h
  have hshort : block.body.length ≤ rest.length := by
    rw [hbody]
    exact (List.takeWhile_prefix _).length_le
  have hlength : parent.body.length = front.length + (rest.length + 1) := by
    rw [hrows, List.length_append, List.length_cons]
  refine ⟨by omega, ?_, ?_⟩
  · show parent.header.number ≤ block.header.number
    omega
  · show block.header.number + block.body.length ≤ parent.header.number + parent.body.length
    omega

/-- Two children with different names have no line in common: the lower header ends the block of the upper one. -/
theorem Block.Opens.apart (hp : parent.Opens (Layout.ofText text)) (h : child? name parent.body = some block)
    (h' : child? name' parent.body = some block') (hne : name ≠ name') : block.span.Apart block'.span := by
  have hchild := header_mem_children hp.place h
  have hchild' := header_mem_children hp.place h'
  rcases Nat.lt_trichotomy block.header.number block'.header.number with hlt | heq | hgt
  · exact LineSpan.apart_of_lt (last_lt_of_mem_children hp.place h hchild' hlt)
  · have hsame := eq_of_number_eq hp.place (mem_body_of_mem_children hchild) (mem_body_of_mem_children hchild') heq
    have hdeclares := (child?_inv h).2.1
    rw [hsame] at hdeclares
    exact absurd (name_eq_of_declares hdeclares (child?_inv h').2.1) hne
  · exact (LineSpan.apart_of_lt (last_lt_of_mem_children hp.place h' hchild hgt)).symm

/-- The rows of a block other than its header are in its body. -/
theorem Block.Opens.mem_body (hp : parent.Opens (Layout.ofText text)) {row : Row} (hrow : row ∈ (Layout.ofText text).rows)
    (hspan : parent.span.contains row.number = true) (hne : row.number ≠ parent.header.number) : row ∈ parent.body := by
  have hbounds := contains_iff.1 hspan
  have hlt : parent.header.number < row.number := Nat.lt_of_le_of_ne hbounds.1 hne.symm
  exact mem_body_of_place hp.place hrow hlt hbounds.2

end

/-! ## Tasks -/

/-- The four blocks on the way to a task. -/
theorem taskBlock?_inv {layout : Layout} {workflow task : String} {block : Block}
    (h : layout.taskBlock? workflow task = some block) :
    ∃ outer owner tasks, child? "workflows" layout.rows = some outer ∧ child? workflow outer.body = some owner ∧
      child? "tasks" owner.body = some tasks ∧ child? task tasks.body = some block := by
  obtain ⟨owner, howner, h⟩ := Option.bind_eq_some_iff.1 h
  obtain ⟨outer, houter, howner⟩ := Option.bind_eq_some_iff.1 howner
  obtain ⟨tasks, htasks, hblock⟩ := Option.bind_eq_some_iff.1 h
  exact ⟨outer, owner, tasks, houter, howner, htasks, hblock⟩

/-- The lines of a task are among those of its workflow, below the header. -/
theorem Block.Opens.within_owner {text : List Char} {owner tasks block : Block} {name : String}
    (ho : owner.Opens (Layout.ofText text)) (htasks : child? "tasks" owner.body = some tasks)
    (hblock : child? name tasks.body = some block) :
    owner.header.number < block.header.number ∧ block.span.Within owner.span := by
  obtain ⟨hbelow, hfirst, hlast⟩ := ho.within htasks
  obtain ⟨hbelow', hfirst', hlast'⟩ := (ho.child htasks).within hblock
  exact ⟨hbelow.trans hbelow', hfirst.trans hfirst', hlast'.trans hlast⟩

theorem taskBlock?_apart {text : List Char} {w t w' t' : String} {block block' : Block}
    (h : (Layout.ofText text).taskBlock? w t = some block) (h' : (Layout.ofText text).taskBlock? w' t' = some block')
    (hne : (w, t) ≠ (w', t')) : block.span.Apart block'.span := by
  obtain ⟨outer, owner, tasks, houter, howner, htasks, hblock⟩ := taskBlock?_inv h
  obtain ⟨outer', owner', tasks', houter', howner', htasks', hblock'⟩ := taskBlock?_inv h'
  obtain rfl : outer = outer' := Option.some.inj (houter.symm.trans houter')
  have hopens := opens_of_child? houter
  by_cases hw : w = w'
  · subst hw
    obtain rfl : owner = owner' := Option.some.inj (howner.symm.trans howner')
    obtain rfl : tasks = tasks' := Option.some.inj (htasks.symm.trans htasks')
    refine ((hopens.child howner).child htasks).apart hblock hblock' ?_
    rintro rfl
    exact hne rfl
  · -- the tasks may have one name, but their workflows are apart
    have hinside := (hopens.child howner).within_owner htasks hblock
    have hinside' := (hopens.child howner').within_owner htasks' hblock'
    exact (hopens.apart howner howner' hw).mono hinside.2 hinside'.2

/-- **Tasks that are found do not overlap, in any text.** The lines of such a task are those of the block that its header
opens, and below the header none but trivia is indented as little. They lie below the header of its workflow and inside the
block of that, which lies inside the block of `workflows`. Two different tasks have no line in common, of one workflow or of
two, so an expression is in the span of one of them at most. -/
theorem located_tasks_apart (text : List Char) :
    let layout := Layout.ofText text
    (∀ w t block, layout.taskBlock? w t = some block →
      layout.taskSpan w t = block.span ∧ block.Opens layout ∧
      (∀ row ∈ layout.rows, (layout.taskSpan w t).contains row.number = true → row.number ≠ block.header.number →
        row.isTrivia = false → block.header.indent < row.indent) ∧
      ∃ owner outer, layout.workflowBlock? w = some owner ∧ owner.Opens layout ∧
        child? "workflows" layout.rows = some outer ∧ outer.Opens layout ∧
        owner.header.number < (layout.taskSpan w t).first ∧ (layout.taskSpan w t).Within owner.span ∧
        owner.span.Within outer.span) ∧
    (∀ w t w' t', (layout.taskBlock? w t).isSome = true → (layout.taskBlock? w' t').isSome = true → (w, t) ≠ (w', t') →
      (layout.taskSpan w t).Apart (layout.taskSpan w' t')) ∧
    ∀ occurrence ∈ occurrences layout.table, ∀ w t w' t',
      (layout.taskBlock? w t).isSome = true → (layout.taskSpan w t).contains occurrence.range.start.line = true →
      (layout.taskBlock? w' t').isSome = true → (layout.taskSpan w' t').contains occurrence.range.start.line = true →
      (w, t) = (w', t') := by
  intro layout
  have hapart : ∀ w t w' t', (layout.taskBlock? w t).isSome = true → (layout.taskBlock? w' t').isSome = true →
      (w, t) ≠ (w', t') → (layout.taskSpan w t).Apart (layout.taskSpan w' t') := by
    intro w t w' t' h h' hne
    obtain ⟨block, hblock⟩ := Option.isSome_iff_exists.1 h
    obtain ⟨block', hblock'⟩ := Option.isSome_iff_exists.1 h'
    rw [taskSpan_of_taskBlock? hblock, taskSpan_of_taskBlock? hblock']
    exact taskBlock?_apart hblock hblock' hne
  refine ⟨fun w t block h => ?_, hapart, fun occurrence _ w t w' t' h hline h' hline' => ?_⟩
  · obtain ⟨outer, owner, tasks, houter, howner, htasks, hblock⟩ := taskBlock?_inv h
    have hopens := opens_of_child? houter
    have hown := hopens.child howner
    have htask := (hown.child htasks).child hblock
    obtain ⟨hbelow, hinside⟩ := hown.within_owner htasks hblock
    rw [taskSpan_of_taskBlock? h]
    refine ⟨rfl, htask, fun row hrow hspan hne htrivia => htask.indent_lt (htask.mem_body hrow hspan hne) htrivia, ?_⟩
    refine ⟨owner, outer, ?_, hown, houter, hopens, hbelow, hinside, (hopens.within howner).2⟩
    rw [workflowBlock?, houter, Option.bind_some, howner]
  · by_contra hne
    exact hapart w t w' t' h h' hne _ ⟨hline, hline'⟩

/-- two workflows with a task of one name, a comment at the margin, and a line that is indented less than the task above it -/
def unevenDocument : List Char :=
  ("workflows:\n  a:\n    tasks:\n      t:\n# -\n       x: 1\n     u: 2\n\n      v:\n  b:\n\t\t\ttasks:\n" ++
    "    t: <% 1 %>").toList

/-- The line that belongs to no task keeps the two beside it apart. -/
theorem uneven_tasks_apart :
    let layout := Layout.ofText unevenDocument
    layout.taskSpan "a" "t" = ⟨3, 5⟩ ∧ layout.taskSpan "a" "v" = ⟨8, 8⟩ ∧ layout.taskSpan "b" "t" = ⟨11, 11⟩ ∧
      (layout.taskSpan "a" "t").Apart (layout.taskSpan "a" "v") ∧
      (layout.taskSpan "a" "t").Apart (layout.taskSpan "b" "t") := by
  intro layout
  have hfound : (layout.taskBlock? "a" "t").isSome = true ∧ (layout.taskBlock? "a" "v").isSome = true ∧
      (layout.taskBlock? "b" "t").isSome = true := by
    decide +kernel
  have hspans : layout.taskSpan "a" "t" = ⟨3, 5⟩ ∧ layout.taskSpan "a" "v" = ⟨8, 8⟩ ∧
      layout.taskSpan "b" "t" = ⟨11, 11⟩ := by
    decide +kernel
  obtain ⟨-, hapart, -⟩ := located_tasks_apart unevenDocument
  refine ⟨hspans.1, hspans.2.1, hspans.2.2, ?_, ?_⟩
  · exact hapart _ _ _ _ hfound.1 hfound.2.1 (by decide)
  · exact hapart _ _ _ _ hfound.1 hfound.2.2 (by decide)

end Layout

end WorkflowLint
