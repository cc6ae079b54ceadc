/-
Lookups find every key of a document in block style.

`Entry` is an entry of a block mapping as it is laid out: the line with its key, and below it either lines of any kind that
belong to it (`loose`), or entries of its own at an indentation of theirs (`group`). `Entry.Laid` says which lines may stand
where: entries of one mapping are indented alike and deeper than the one they belong to, by any number of spaces; what
belongs to a loose entry is indented deeper or begins an item of a sequence at the same indentation; blank lines and comments
may stand anywhere.

`Declares` follows a path of keys through such entries to the line that the last key stands on, and `Misses` to a mapping
that lacks the next key. The layout knows of none of this structure: it goes by the indentation of rows.
`descend_of_declares` is the induction along the path that shows the two to agree, and `lookup_block_style` is what it means
for each kind of lookup.
-/
import WorkflowLint.Proofs.KeyLines

namespace WorkflowLint

open WorkflowLint.Text

namespace Layout

/-! ## Entries -/

/-- an entry of a block mapping as it is laid out -/
inductive Entry where
  /-- an entry with the lines that belong to it -/
  | loose (head : Head) (below : List (List Char))
  /-- an entry whose value is a block mapping, indented by `inner`, with blank lines and comments before it -/
  | group (head : Head) (filler : List (List Char)) (inner : Nat) (entries : List Entry)

namespace Entry

def head : Entry → Head
  | loose head _ => head
  | group head _ _ _ => head

def name (entry : Entry) : String :=
  entry.head.name

mutual

/-- the lines of an entry below its first one -/
def under : Entry → List (List Char)
  | loose _ below => below
  | group _ filler inner entries => filler ++ linesOf inner entries

/-- the lines of entries that are indented by `indent` -/
def linesOf (indent : Nat) : List Entry → List (List Char)
  | [] => []
  | entry :: rest => entry.head.line indent :: (entry.under ++ linesOf indent rest)

end

/-- a line that may follow an entry indented by `indent` -/
def Below (indent : Nat) (line : List Char) : Prop :=
  '\n' ∉ line ∧ (IsTrivia line ∨ indent < indentOf line ∨ indentOf line = indent ∧ IsItem line)

/-- a blank line or a comment -/
def Filler (line : List Char) : Prop :=
  '\n' ∉ line ∧ IsTrivia line

/-- the entry may be indented by `indent` -/
inductive Laid : Nat → Entry → Prop where
  | loose {indent : Nat} {head : Head} {below : List (List Char)} : (∀ line ∈ below, Below indent line) →
      Laid indent (.loose head below)
  | group {indent : Nat} {head : Head} {filler : List (List Char)} {inner : Nat} {entries : List Entry} :
      indent < inner → (∀ line ∈ filler, Filler line) → (entries.map name).Nodup →
      (∀ entry ∈ entries, Laid inner entry) → Laid indent (.group head filler inner entries)

/-- entries of one mapping, indented by `indent`, with blank lines and comments before them -/
structure Arranged (filler : List (List Char)) (indent : Nat) (entries : List Entry) : Prop where
  filler : ∀ line ∈ filler, Filler line
  distinct : (entries.map name).Nodup
  laid : ∀ entry ∈ entries, Laid indent entry

end Entry

/-- a document in block style -/
structure BlockDocument where
  filler : List (List Char)
  indent : Nat
  entries : List Entry
  arranged : Entry.Arranged filler indent entries

def BlockDocument.lines (document : BlockDocument) : List (List Char) :=
  document.filler ++ Entry.linesOf document.indent document.entries

def BlockDocument.text (document : BlockDocument) : List Char :=
  joinLines document.lines

/-- Following the keys of `path` through entries that come after the lines `before` leads to `entry`, which is indented by
`column` and has the lines `above` before it. -/
inductive Declares : (before : List (List Char)) → (indent : Nat) → List Entry → (path : List String) →
    (above : List (List Char)) → (column : Nat) → Entry → Prop where
  | here {before : List (List Char)} {indent : Nat} (front back : List Entry) {entry : Entry} :
      Declares before indent (front ++ entry :: back) [entry.name] (before ++ Entry.linesOf indent front) indent entry
  | into {before : List (List Char)} {indent : Nat} (front back : List Entry) {head : Head} {filler : List (List Char)}
      {inner : Nat} {entries : List Entry} {path : List String} {above : List (List Char)} {column : Nat} {entry : Entry} :
      Declares (before ++ Entry.linesOf indent front ++ head.line indent :: filler) inner entries path above column entry →
      Declares before indent (front ++ .group head filler inner entries :: back) (head.name :: path) above column entry

/-- Following the keys of `path` through entries leads to entries none of which has the next key. -/
inductive Misses : List Entry → (path : List String) → Prop where
  | here {entries : List Entry} {name : String} {path : List String} :
      name ∉ entries.map Entry.name → Misses entries (name :: path)
  | into (front back : List Entry) {head : Head} {filler : List (List Char)} {inner : Nat} {entries : List Entry}
      {path : List String} :
      Misses entries path → Misses (front ++ .group head filler inner entries :: back) (head.name :: path)

namespace BlockDocument

/-- The key that `path` leads to is that of `entry`, indented by `column` on the line after the lines `above`. -/
def Declares (document : BlockDocument) (path : List String) (above : List (List Char)) (column : Nat)
    (entry : Entry) : Prop :=
  Layout.Declares document.filler document.indent document.entries path above column entry

def Misses (document : BlockDocument) (path : List String) : Prop :=
  Layout.Misses document.entries path

end BlockDocument

/-! ## The lines of entries -/

namespace Entry

theorem linesOf_append (indent : Nat) (front back : List Entry) :
    linesOf indent (front ++ back) = linesOf indent front ++ linesOf indent back := by
  induction front with
  | nil => simp [linesOf]
  | cons entry front ih => simp [linesOf, ih]

theorem mem_linesOf {indent : Nat} {entries : List Entry} {line : List Char} (h : line ∈ linesOf indent entries) :
    ∃ entry ∈ entries, line = entry.head.line indent ∨ line ∈ entry.under := by
  induction entries with
  | nil => simp [linesOf] at h
  | cons entry entries ih =>
    rw [linesOf, List.mem_cons, List.mem_append] at h
    rcases h with h | h | h
    · exact ⟨entry, List.mem_cons_self, Or.inl h⟩
    · exact ⟨entry, List.mem_cons_self, Or.inr h⟩
    · obtain ⟨other, ho, hline⟩ := ih h
      exact ⟨other, List.mem_cons_of_mem _ ho, hline⟩

/-- a line that is part of what a header indented by `indent` opens -/
def Inside (indent : Nat) (line : List Char) : Prop :=
  '\n' ∉ line ∧ (IsTrivia line ∨ indent < indentOf line)

theorem Inside.below {indent : Nat} {line : List Char} (h : Inside indent line) : Below indent line :=
  ⟨h.1, h.2.imp_right Or.inl⟩

theorem Below.inside {indent inner : Nat} {line : List Char} (h : Below inner line) (hlt : indent < inner) :
    Inside indent line := by
  obtain ⟨hline, ht | hd | ⟨hi, -⟩⟩ := h
  · exact ⟨hline, Or.inl ht⟩
  · exact ⟨hline, Or.inr (Nat.lt_trans hlt hd)⟩
  · exact ⟨hline, Or.inr (hi ▸ hlt)⟩

theorem Filler.inside {line : List Char} (indent : Nat) (h : Filler line) : Inside indent line :=
  ⟨h.1, Or.inl h.2⟩

/-- Lines of entries that are indented deeper than a header are inside of it, once that is known of the lines below each
of the entries. -/
theorem inside_of_mem_linesOf {indent inner : Nat} {entries : List Entry} {line : List Char} (hlt : indent < inner)
    (hbelow : ∀ entry ∈ entries, ∀ other ∈ entry.under, Below inner other) (h : line ∈ linesOf inner entries) :
    Inside indent line := by
  obtain ⟨entry, he, rfl | hu⟩ := mem_linesOf h
  · exact ⟨entry.head.not_mem_line inner, Or.inr ((entry.head.indentOf_line inner).symm ▸ hlt)⟩
  · exact (hbelow entry he line hu).inside hlt

/-- What stands below an entry may stand there. -/
theorem Laid.below_of_mem {indent : Nat} {entry : Entry} (h : Laid indent entry) :
    ∀ line ∈ entry.under, Below indent line := by
  induction h with
  | loose hbelow => simpa [under] using hbelow
  | @group indent head filler inner entries hlt hfiller hdistinct hlaid ih =>
    intro line hl
    rw [under, List.mem_append] at hl
    rcases hl with hl | hl
    · exact ((hfiller line hl).inside indent).below
    · exact (inside_of_mem_linesOf hlt ih hl).below

theorem Laid.group_inv {indent : Nat} {head : Head} {filler : List (List Char)} {inner : Nat} {entries : List Entry}
    (h : Laid indent (.group head filler inner entries)) : indent < inner ∧ Arranged filler inner entries := by
  cases h with
  | group hlt hfiller hdistinct hlaid => exact ⟨hlt, hfiller, hdistinct, hlaid⟩

theorem Arranged.inside {filler : List (List Char)} {indent inner : Nat} {entries : List Entry}
    (h : Arranged filler inner entries) (hlt : indent < inner) :
    ∀ line ∈ filler ++ linesOf inner entries, Inside indent line := by
  intro line hl
  rcases List.mem_append.1 hl with hl | hl
  · exact (h.filler line hl).inside indent
  · exact inside_of_mem_linesOf hlt (fun entry he => (h.laid entry he).below_of_mem) hl

theorem Arranged.not_mem {filler : List (List Char)} {indent : Nat} {entries : List Entry}
    (h : Arranged filler indent entries) : ∀ line ∈ filler ++ linesOf indent entries, '\n' ∉ line := by
  intro line hl
  rcases List.mem_append.1 hl with hl | hl
  · exact (h.filler line hl).1
  · obtain ⟨entry, he, rfl | hu⟩ := mem_linesOf hl
    · exact entry.head.not_mem_line indent
    · exact ((h.laid entry he).below_of_mem line hu).1

end Entry

/-! ## One step of a lookup -/

/-- Among the rows of entries, those at the indentation of the entries declare only the entries' names. -/
theorem not_declares_linesOf {before : List (List Char)} {indent : Nat} {entries : List Entry} {name : String}
    (hlaid : ∀ entry ∈ entries, entry.Laid indent) (hname : name ∉ entries.map Entry.name) :
    ∀ row ∈ rowsAfter before (Entry.linesOf indent entries), row.indent = indent → row.declares name = false := by
  intro row hrow hindent
  obtain ⟨n, start, line, hline, rfl⟩ := mem_rowsAfter hrow
  obtain ⟨entry, he, rfl | hu⟩ := Entry.mem_linesOf hline
  · have hne : entry.head.name ≠ name := fun heq => hname (List.mem_map.2 ⟨entry, he, heq⟩)
    rw [declares_ofLine_head, decide_eq_false hne]
  · rw [ofLine_indent] at hindent
    have hnone : (Row.ofLine n ⟨start, line⟩).key = none := by
      obtain ⟨-, ht | hd | ⟨-, hitem⟩⟩ := (hlaid entry he).below_of_mem line hu
      · exact ofLine_key_eq_none (Or.inl ht)
      · exact absurd hindent (Nat.ne_of_gt hd)
      · exact ofLine_key_eq_none (Or.inr hitem)
    rw [Row.declares, hnone]

theorem isTrivia_filler {before filler : List (List Char)} (h : ∀ line ∈ filler, Entry.Filler line) :
    ∀ row ∈ rowsAfter before filler, row.isTrivia = true := by
  intro row hrow
  obtain ⟨n, start, line, hline, rfl⟩ := mem_rowsAfter hrow
  exact (ofLine_isTrivia_iff n).2 (h line hline).2

theorem not_declares_filler {before filler : List (List Char)} {name : String}
    (h : ∀ line ∈ filler, Entry.Filler line) : ∀ row ∈ rowsAfter before filler, row.declares name = false := by
  intro row hrow
  obtain ⟨n, start, line, hline, rfl⟩ := mem_rowsAfter hrow
  rw [Row.declares, ofLine_key_eq_none (Or.inl (h line hline).2)]

theorem childIndent?_linesOf {before filler : List (List Char)} {indent : Nat} {entry : Entry} {entries : List Entry}
    (h : ∀ line ∈ filler, Entry.Filler line) :
    childIndent? (rowsAfter before (filler ++ Entry.linesOf indent (entry :: entries))) = some indent := by
  rw [rowsAfter_append, childIndent?_append _ (isTrivia_filler h), Entry.linesOf, rowsAfter, ofLine_head,
    childIndent?_cons _ rfl]

/-- A name that no entry has is not found among them. -/
theorem child?_eq_none {before filler : List (List Char)} {indent : Nat} {entries : List Entry} {name : String}
    (h : Entry.Arranged filler indent entries) (hname : name ∉ entries.map Entry.name) :
    child? name (rowsAfter before (filler ++ Entry.linesOf indent entries)) = none := by
  have hnone : firstNamed indent name (rowsAfter before (filler ++ Entry.linesOf indent entries)) = none := by
    rw [rowsAfter_append, firstNamed_append _ fun row hr _ => not_declares_filler h.filler row hr,
      ← List.append_nil (rowsAfter _ _), firstNamed_append _ (not_declares_linesOf h.laid hname), firstNamed]
  cases entries with
  | nil =>
    rw [Entry.linesOf, rowsAfter_append, child?, childIndent?_append _ (isTrivia_filler h.filler)]
    rfl
  | cons entry entries =>
    rw [child?, childIndent?_linesOf h.filler]
    exact hnone

/-- The name of an entry is found on the line of that entry. -/
theorem child?_eq_some {before filler : List (List Char)} {indent : Nat} {front back : List Entry} {entry : Entry}
    (h : Entry.Arranged filler indent (front ++ entry :: back)) :
    let above := before ++ filler ++ Entry.linesOf indent front
    child? entry.name (rowsAfter before (filler ++ Entry.linesOf indent (front ++ entry :: back))) =
      some ⟨headRow above indent entry.head, bodyOf indent
        (rowsAfter (above ++ [entry.head.line indent]) (entry.under ++ Entry.linesOf indent back))⟩ := by
  intro above
  have hfront : entry.name ∉ front.map Entry.name := by
    have hd := h.distinct
    rw [List.map_append, List.map_cons, List.nodup_append] at hd
    exact fun hm => hd.2.2 _ hm _ List.mem_cons_self rfl
  have hindent : childIndent? (rowsAfter before (filler ++ Entry.linesOf indent (front ++ entry :: back))) =
      some indent := by
    cases front with
    | nil => exact childIndent?_linesOf h.filler
    | cons first front => exact childIndent?_linesOf h.filler
  have hlaid : ∀ other ∈ front, other.Laid indent := fun other ho => h.laid other (List.mem_append_left _ ho)
  rw [child?, hindent]
  show firstNamed indent entry.name _ = _
  rw [rowsAfter_append, firstNamed_append _ fun row hr _ => not_declares_filler h.filler row hr,
    Entry.linesOf_append, rowsAfter_append, firstNamed_append _ (not_declares_linesOf hlaid hfront),
    Entry.linesOf, rowsAfter]
  refine firstNamed_cons _ ?_ ?_
  · rw [ofLine_head]
  · rw [declares_ofLine_head]
    exact decide_eq_true rfl

/-- The block of an entry with entries of its own has exactly their lines. -/
theorem bodyOf_group {before filler : List (List Char)} {indent inner : Nat} {entries back : List Entry}
    (h : Entry.Arranged filler inner entries) (hlt : indent < inner) :
    bodyOf indent (rowsAfter before (filler ++ Entry.linesOf inner entries ++ Entry.linesOf indent back)) =
      rowsAfter before (filler ++ Entry.linesOf inner entries) := by
  have hinside : ∀ row ∈ rowsAfter before (filler ++ Entry.linesOf inner entries),
      row.isTrivia = true ∨ indent < row.indent := by
    intro row hrow
    obtain ⟨n, start, line, hline, rfl⟩ := mem_rowsAfter hrow
    rw [ofLine_isTrivia_iff, ofLine_indent]
    exact (h.inside hlt line hline).2
  have hrest : ∀ others, bodyOf indent (rowsAfter others (Entry.linesOf indent back)) = [] := by
    intro others
    cases back with
    | nil => rfl
    | cons next back =>
      rw [Entry.linesOf, rowsAfter, ofLine_head]
      exact bodyOf_cons_eq_nil _ rfl (Nat.le_refl _)
  rw [rowsAfter_append, bodyOf_append hinside, hrest, List.append_nil]

theorem child?_group {before filler below : List (List Char)} {indent inner : Nat} {front back entries : List Entry}
    {head : Head} (h : Entry.Arranged filler indent (front ++ .group head below inner entries :: back)) :
    let above := before ++ filler ++ Entry.linesOf indent front
    child? head.name (rowsAfter before (filler ++ Entry.linesOf indent (front ++ .group head below inner entries :: back))) =
        some ⟨headRow above indent head, rowsAfter (above ++ [head.line indent]) (below ++ Entry.linesOf inner entries)⟩ ∧
      Entry.Arranged below inner entries := by
  intro above
  obtain ⟨hlt, harranged⟩ := (h.laid _ (List.mem_append_right _ List.mem_cons_self)).group_inv
  have hchild := @child?_eq_some before filler indent front back (.group head below inner entries) h
  rw [Entry.under] at hchild
  refine ⟨?_, harranged⟩
  rw [← bodyOf_group harranged hlt]
  exact hchild

/-! ## Lookups along a path -/

/-- the block that a path of keys leads to -/
def descend : List String → List Row → Option Block
  | [], _ => none
  | [name], rows => child? name rows
  | name :: next :: path, rows => (child? name rows).bind fun block => descend (next :: path) block.body

theorem descend_cons {name : String} {path : List String} {rows : List Row} {block : Block} (hpath : path ≠ [])
    (h : child? name rows = some block) : descend (name :: path) rows = descend path block.body := by
  cases path with
  | nil => exact absurd rfl hpath
  | cons next path => rw [descend, h, Option.bind_some]

theorem descend_eq_none {name : String} (path : List String) {rows : List Row} (h : child? name rows = none) :
    descend (name :: path) rows = none := by
  cases path with
  | nil => exact h
  | cons next path => rw [descend, h, Option.bind_none]

/-- What a path leads to is one of the rows. -/
theorem header_mem_of_descend {path : List String} {rows : List Row} {block : Block} (h : descend path rows = some block) :
    block.header ∈ rows := by
  fun_induction descend path rows with
  | case1 => simp at h
  | case2 name rows =>
    obtain ⟨-, -, front, rest, rfl, -⟩ := child?_inv h
    exact List.mem_append_right _ List.mem_cons_self
  | case3 name next path rows ih =>
    obtain ⟨outer, houter, hinner⟩ := Option.bind_eq_some_iff.1 h
    obtain ⟨-, -, front, rest, rfl, hbody⟩ := child?_inv houter
    have hmem := ih outer hinner
    rw [hbody] at hmem
    exact List.mem_append_right _ (List.mem_cons_of_mem _ ((List.takeWhile_prefix _).subset hmem))

theorem Declares.path_ne_nil {before above : List (List Char)} {indent column : Nat} {entries : List Entry}
    {path : List String} {entry : Entry} (h : Declares before indent entries path above column entry) : path ≠ [] := by
  cases h with
  | here => exact List.cons_ne_nil _ _
  | into _ _ _ => exact List.cons_ne_nil _ _

theorem Misses.path_ne_nil {entries : List Entry} {path : List String} (h : Misses entries path) : path ≠ [] := by
  cases h with
  | here _ => exact List.cons_ne_nil _ _
  | into _ _ _ => exact List.cons_ne_nil _ _

/-- The line of a declared key stands where it is said to. -/
theorem Declares.lines {before above : List (List Char)} {indent column : Nat} {entries : List Entry}
    {path : List String} {entry : Entry} (h : Declares before indent entries path above column entry) :
    ∃ rest, before ++ Entry.linesOf indent entries = above ++ entry.head.line column :: rest := by
  induction h with
  | @here before indent front back entry =>
    refine ⟨entry.under ++ Entry.linesOf indent back, ?_⟩
    rw [Entry.linesOf_append, Entry.linesOf, List.append_assoc]
  | @into before indent front back head filler inner entries path above column entry h ih =>
    obtain ⟨rest, hrest⟩ := ih
    refine ⟨rest ++ Entry.linesOf indent back, ?_⟩
    rw [← List.cons_append, ← List.append_assoc, ← hrest, Entry.linesOf_append, Entry.linesOf, Entry.under, Entry.head]
    simp

/-- The rows below a header hold what its entry declares, by induction along the path: the rows of one mapping lead to the
entry with the first key, and if that has entries of its own, its block has exactly their rows. -/
theorem descend_of_declares {before filler above : List (List Char)} {indent column : Nat} {entries : List Entry}
    {path : List String} {entry : Entry} (h : Declares (before ++ filler) indent entries path above column entry)
    (harranged : Entry.Arranged filler indent entries) :
    ∃ body, descend path (rowsAfter before (filler ++ Entry.linesOf indent entries)) =
      some ⟨headRow above column entry.head, body⟩ := by
  generalize hstart : before ++ filler = start at h
  induction h generalizing before filler with
  | here =>
    subst hstart
    exact ⟨_, child?_eq_some harranged⟩
  | into _ _ h ih =>
    subst hstart
    obtain ⟨hchild, hinner⟩ := @child?_group before _ _ _ _ _ _ _ _ harranged
    obtain ⟨body, hbody⟩ := ih hinner (List.append_cons _ _ _).symm
    exact ⟨body, (descend_cons h.path_ne_nil hchild).trans hbody⟩

theorem descend_of_misses {before filler : List (List Char)} {indent : Nat} {entries : List Entry} {path : List String}
    (h : Misses entries path) (harranged : Entry.Arranged filler indent entries) :
    descend path (rowsAfter before (filler ++ Entry.linesOf indent entries)) = none := by
  induction h generalizing before filler indent with
  | here hname => exact descend_eq_none _ (child?_eq_none harranged hname)
  | into _ _ h ih =>
    obtain ⟨hchild, hinner⟩ := @child?_group before _ _ _ _ _ _ _ _ harranged
    exact (descend_cons h.path_ne_nil hchild).trans (ih hinner)

/-! ## Lookups -/

theorem taskBlock?_eq_descend (layout : Layout) (workflow task : String) :
    layout.taskBlock? workflow task = descend ["workflows", workflow, "tasks", task] layout.rows := by
  simp [taskBlock?, workflowBlock?, descend, Option.bind_assoc]

/-- what the layout is asked for -/
inductive Lookup where
  | rootKey (key : String)
  | workflow (name : String)
  | workflowKey (workflow key : String)
  | task (workflow name : String)
  | taskKey (workflow task key : String)
deriving DecidableEq, Repr

namespace Lookup

/-- the keys on the way to the one that is asked for -/
def path : Lookup → List String
  | rootKey key => [key]
  | workflow w => ["workflows", w]
  | workflowKey w key => ["workflows", w, key]
  | task w t => ["workflows", w, "tasks", t]
  | taskKey w t key => ["workflows", w, "tasks", t, key]

section

variable {α : Type} (measure : Nat → Nat → α) (top : α)

/-- what becomes of the offsets that a lookup comes to, or of the top of the document -/
def via (layout : Layout) : Lookup → α
  | rootKey key => layout.rootKeyVia measure top key
  | workflow w => layout.workflowVia measure top w
  | workflowKey w key => layout.workflowKeyVia measure top w key
  | task w t => layout.taskVia measure top w t
  | taskKey w t key => layout.taskKeyVia measure top w t key

/-- what a lookup turns to for a key that is not there -/
def fallbackVia (layout : Layout) : Lookup → α
  | rootKey _ | workflow _ | task _ _ => top
  | workflowKey w _ => layout.workflowVia measure top w
  | taskKey w t _ => layout.taskVia measure top w t

/-- Every lookup follows its path. -/
theorem via_eq (layout : Layout) (lookup : Lookup) :
    lookup.via measure top layout =
      orVia measure top (lookup.fallbackVia measure top layout) (descend lookup.path layout.rows) := by
  cases lookup with
  | rootKey key => rfl
  | workflow w => rfl
  | workflowKey w key =>
    simp [via, fallbackVia, path, workflowKeyVia, workflowBlock?, descend, Option.bind_assoc]
  | task w t => simp [via, fallbackVia, path, taskVia, taskBlock?_eq_descend]
  | taskKey w t key =>
    simp [via, fallbackVia, path, taskKeyVia, taskBlock?, workflowBlock?, descend, Option.bind_assoc]

end

/-- the layout's answer -/
def range (layout : Layout) : Lookup → Range :=
  via layout.table.range layout.top layout

/-- the answer for a key that is not there -/
def fallback (layout : Layout) : Lookup → Range :=
  fallbackVia layout.table.range layout.top layout

theorem range_eq (layout : Layout) (lookup : Lookup) :
    lookup.range layout = layout.rangeOr (lookup.fallback layout) (descend lookup.path layout.rows) :=
  via_eq layout.table.range layout.top layout lookup

end Lookup

namespace BlockDocument

theorem rows_eq {document : BlockDocument} (h : document.lines ≠ []) :
    (Layout.ofText document.text).rows = rowsAfter [] document.lines :=
  rows_ofText_joinLines h document.arranged.not_mem

/-- The rows are those of the entries also if there are none; the one row is that of a blank line then. -/
theorem exists_rows_eq (document : BlockDocument) :
    ∃ filler, Entry.Arranged filler document.indent document.entries ∧
      (Layout.ofText document.text).rows = rowsAfter [] (filler ++ Entry.linesOf document.indent document.entries) := by
  by_cases hne : document.lines = []
  · have hblank : Entry.Filler [] := ⟨List.not_mem_nil, fun c hc => by simp [trimStart] at hc⟩
    refine ⟨[[]], ⟨?_, document.arranged.distinct, document.arranged.laid⟩, ?_⟩
    · intro line hl
      rw [List.mem_singleton.1 hl]
      exact hblank
    · rw [text, hne, (List.append_eq_nil_iff.1 hne).2]
      rfl
  · exact ⟨document.filler, document.arranged, rows_eq hne⟩

/-- A declared key stands on its line in the text, and what leads to it are lines. -/
theorem Declares.text_eq {document : BlockDocument} {path : List String} {above : List (List Char)} {column : Nat}
    {entry : Entry} (h : document.Declares path above column entry) :
    ∃ rest, document.lines = above ++ entry.head.line column :: rest ∧ ∀ line ∈ above, '\n' ∉ line := by
  obtain ⟨rest, hlines⟩ := Layout.Declares.lines h
  refine ⟨rest, hlines, fun line hl => document.arranged.not_mem line ?_⟩
  rw [hlines]
  exact List.mem_append_left _ hl

end BlockDocument

/-- **Lookups are exact in block style.** The range of a declared key is that of the key itself, on the line where its entry
stands; a key that is missing where it would have to stand gets the range it falls back to. -/
theorem lookup_block_style (document : BlockDocument) (lookup : Lookup) :
    let layout := Layout.ofText document.text
    (∀ above column entry, document.Declares lookup.path above column entry →
      (∃ rest, document.lines = above ++ entry.head.line column :: rest) ∧
        lookup.range layout = entry.head.range above.length column) ∧
    (document.Misses lookup.path → lookup.range layout = lookup.fallback layout) := by
  intro layout
  constructor
  case left =>
    intro above column entry h
    obtain ⟨rest, hlines, habove⟩ := h.text_eq
    obtain ⟨body, hbody⟩ := @descend_of_declares [] _ _ _ _ _ _ _ h document.arranged
    refine ⟨⟨rest, hlines⟩, ?_⟩
    calc
      lookup.range layout = layout.rangeOr (lookup.fallback layout) (descend lookup.path (rowsAfter [] document.lines)) := by
        rw [Lookup.range_eq, BlockDocument.rows_eq (by rw [hlines]; simp)]
      _ = layout.headerRange ⟨headRow above column entry.head, body⟩ := by
        rw [BlockDocument.lines, hbody]
        rfl
      _ = entry.head.range above.length column := by
        show (Layout.ofText (joinLines document.lines)).headerRange _ = _
        rw [hlines, headerRange_headRow habove]
  case right =>
    intro h
    obtain ⟨filler, harranged, hrows⟩ := document.exists_rows_eq
    rw [Lookup.range_eq, hrows, descend_of_misses h harranged]
    rfl

/-- a workflow with one task: keys in quotes, a comment, a carriage return, a line that continues a value -/
def sampleDocument : BlockDocument where
  filler := ["# ---".toList]
  indent := 0
  entries := [.group ⟨"workflows", .plain, none, false, by decide, nofun⟩ [] 2
    [.group ⟨"wf", .plain, none, false, by decide, nofun⟩ [] 3 [.group ⟨"tasks", .plain, none, false, by decide, nofun⟩ [] 4
      [.group ⟨"t.1", .double, none, true, by decide, nofun⟩ [] 6
        [.loose ⟨"action", .single, some ['|'], false, by decide, by simp⟩ ["        action: x".toList]]]]]]
  arranged := by
    have hcomment : Entry.Filler "# ---".toList := ⟨by decide, isTrivial_iff.1 (by decide)⟩
    have hbelow : Entry.Below 6 "        action: x".toList := ⟨by decide, Or.inr (Or.inl (by decide))⟩
    have hgroup : ∀ {indent inner head entry}, indent < inner → Entry.Laid inner entry →
        Entry.Laid indent (.group head [] inner [entry]) :=
      fun hlt h => .group hlt nofun (by simp) (List.forall_mem_singleton.2 h)
    refine ⟨List.forall_mem_singleton.2 hcomment, by simp, List.forall_mem_singleton.2 ?_⟩
    refine hgroup (by decide) (hgroup (by decide) (hgroup (by decide) (hgroup (by decide) (.loose ?_))))
    exact List.forall_mem_singleton.2 hbelow

/-- the key in single quotes, seven columns into the sixth line -/
theorem lookup_block_style_sample :
    sampleDocument.text =
      "# ---\nworkflows:\n  wf:\n   tasks:\n    \"t.1\":\r\n      'action': |\n        action: x".toList ∧
    (Layout.ofText sampleDocument.text).taskKey "wf" "t.1" "action" = ⟨⟨5, 7⟩, ⟨5, 13⟩⟩ := by
  refine ⟨by decide, ?_⟩
  have hdeclares : sampleDocument.Declares ["workflows", "wf", "tasks", "t.1", "action"] _ _ _ :=
    .into [] [] (.into [] [] (.into [] [] (.into [] [] (.here [] []))))
  exact ((lookup_block_style sampleDocument (.taskKey "wf" "t.1" "action")).1 _ _ _ hdeclares).2

end Layout

end WorkflowLint
