/-
Blocks of a document by indentation alone, and where its workflows, tasks and attributes are declared.

The block of a header reaches to the line before the next one that is neither trivia nor indented deeper than the header.
The indentation of a block's children is that of its first line that is not trivia; a child is the first line at that
indentation that declares the name, compared literally. So a key is only ever found among the direct children of the block
it belongs to, in any text whatever, block style or not.

Every lookup comes to the offsets of a key: of the one asked for if it is found, else of the nearest one above it, at last of
none, which stands for the top of the document. Its answer is the range between them.
-/
import WorkflowLint.Layout.Row

namespace WorkflowLint

namespace Layout

open WorkflowLint.Text

/-- a header line and the lines that belong to it -/
structure Block where
  header : Row
  body : List Row
deriving DecidableEq, Repr

/-- the rows that belong to a header indented by `indent`, of all rows after it -/
def bodyOf (indent : Nat) (rows : List Row) : List Row :=
  rows.takeWhile fun row => row.isTrivia || decide (indent < row.indent)

/-- the indentation of the children among the rows of a body -/
def childIndent? (rows : List Row) : Option Nat :=
  (rows.find? fun row => !row.isTrivia).map Row.indent

/-- whether a row declares the name -/
def Row.declares (row : Row) (name : String) : Bool :=
  match row.key with
  | some key => key.text == name.toList
  | none => false

/-- the block of the first row with the given indentation and name -/
def firstNamed (indent : Nat) (name : String) : List Row → Option Block
  | [] => none
  | row :: rest =>
    if row.indent = indent ∧ row.declares name then some ⟨row, bodyOf row.indent rest⟩
    else firstNamed indent name rest

/-- the direct child with the given name among the rows of a body -/
def child? (name : String) (rows : List Row) : Option Block :=
  (childIndent? rows).bind fun indent => firstNamed indent name rows

/-- lines `first` to `last`, both included -/
structure LineSpan where
  first : Nat
  last : Nat
deriving DecidableEq, Repr

def LineSpan.contains (span : LineSpan) (line : Nat) : Bool :=
  span.first ≤ line && line ≤ span.last

/-- the lines of a block, its header included -/
def Block.span (block : Block) : LineSpan :=
  ⟨block.header.number, block.header.number + block.body.length⟩

end Layout

/-- a document seen as rows -/
structure Layout where
  table : LineTable
  rows : List Layout.Row
deriving Repr

namespace Layout

def ofText (text : List Char) : Layout :=
  let table := LineTable.ofText text
  ⟨table, rowsFrom 0 table.lines⟩

/-- widest range at the top of the document -/
def topWidth : Nat := 10

/-- the range for what has no better place: the beginning of the first line -/
def top (layout : Layout) : Range :=
  let width :=
    match layout.table.lineText? 0 with
    | some text => min (Text.utf16Length text) topWidth
    | none => 0
  ⟨⟨0, 0⟩, ⟨0, width⟩⟩

/-! ## Blocks -/

def workflowBlock? (layout : Layout) (workflow : String) : Option Block :=
  (child? "workflows" layout.rows).bind fun block => child? workflow block.body

def taskBlock? (layout : Layout) (workflow task : String) : Option Block :=
  (layout.workflowBlock? workflow).bind fun block =>
    (child? "tasks" block.body).bind fun tasks => child? task tasks.body

/-! ## Lookups

A lookup is the same whatever becomes of the offsets that it comes to: `measure` takes those of a key, and `top` stands for the
top of the document. -/

section

variable {α : Type} (measure : Nat → Nat → α) (top : α)

/-- what becomes of the key that a block's header declares -/
def headerVia (block : Block) : α :=
  match block.header.key with
  | some key => measure key.start key.stop
  | none => top

/-- what becomes of a block's header, or `fallback` if there is no block -/
def orVia (fallback : α) : Option Block → α
  | some block => headerVia measure top block
  | none => fallback

/-- a key at the root of the document -/
def rootKeyVia (layout : Layout) (key : String) : α :=
  orVia measure top top (child? key layout.rows)

def workflowVia (layout : Layout) (name : String) : α :=
  orVia measure top top (layout.workflowBlock? name)

/-- an attribute of a workflow, else the workflow's name -/
def workflowKeyVia (layout : Layout) (workflow key : String) : α :=
  orVia measure top (layout.workflowVia measure top workflow)
    ((layout.workflowBlock? workflow).bind fun block => child? key block.body)

def taskVia (layout : Layout) (workflow name : String) : α :=
  orVia measure top top (layout.taskBlock? workflow name)

/-- an attribute of a task, else the task's name -/
def taskKeyVia (layout : Layout) (workflow task key : String) : α :=
  orVia measure top (layout.taskVia measure top workflow task)
    ((layout.taskBlock? workflow task).bind fun block => child? key block.body)

end

/-! ## Ranges -/

/-- the range of the key that a block's header declares -/
def headerRange (layout : Layout) : Block → Range :=
  headerVia layout.table.range layout.top

/-- the range of a block's header, or `fallback` if there is no block -/
def rangeOr (layout : Layout) : Range → Option Block → Range :=
  orVia layout.table.range layout.top

def rootKey (layout : Layout) : String → Range :=
  layout.rootKeyVia layout.table.range layout.top

def workflow (layout : Layout) : String → Range :=
  layout.workflowVia layout.table.range layout.top

def workflowKey (layout : Layout) : String → String → Range :=
  layout.workflowKeyVia layout.table.range layout.top

def task (layout : Layout) : String → String → Range :=
  layout.taskVia layout.table.range layout.top

def taskKey (layout : Layout) : String → String → String → Range :=
  layout.taskKeyVia layout.table.range layout.top

/-- The lines of a task. A task whose header is not found in block style gets the lines from the top of the document to
the one before the next line without indentation. -/
def taskSpan (layout : Layout) (workflow task : String) : LineSpan :=
  match layout.taskBlock? workflow task with
  | some block => block.span
  | none => ⟨0, (bodyOf 0 (layout.rows.drop 1)).length⟩

end Layout

end WorkflowLint
