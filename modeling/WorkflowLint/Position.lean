/-
Coordinates in a document: a zero-based line and a zero-based column that counts UTF-16 code units.

`Position.advance` moves over one character; a line feed is the only line break. Positions are ordered by line, then by
column. A `Range` is half open.

Lines and columns are numbers of any size here. In the program they are words of 32 bits, so texts with 2^32 lines or columns
and more, and origins that are as far out, are left aside.
-/
import WorkflowLint.Text.Units

namespace WorkflowLint

/-- one cell of a document -/
structure Position where
  line : Nat
  character : Nat
deriving DecidableEq, Repr, Inhabited

namespace Position

/-- the beginning of a document -/
def zero : Position := ⟨0, 0⟩

/-- the position just after the character `c` that stands at `p` -/
def advance (p : Position) (c : Char) : Position :=
  if c = '\n' then ⟨p.line + 1, 0⟩ else ⟨p.line, p.character + Text.utf16Size c⟩

/-- the position just after a text that begins at `p` -/
def advanceAll (p : Position) (text : List Char) : Position :=
  text.foldl advance p

instance : LT Position where
  lt p q := p.line < q.line ∨ (p.line = q.line ∧ p.character < q.character)

instance (p q : Position) : Decidable (p < q) :=
  inferInstanceAs (Decidable (p.line < q.line ∨ (p.line = q.line ∧ p.character < q.character)))

instance : Ord Position where
  compare p q := (compare p.line q.line).then (compare p.character q.character)

/-- how a position is shown to people: one-based, `LINE:COLUMN` -/
def display (p : Position) : String :=
  toString (p.line + 1) ++ ":" ++ toString (p.character + 1)

theorem advanceAll_append (p : Position) (a b : List Char) :
    p.advanceAll (a ++ b) = (p.advanceAll a).advanceAll b :=
  List.foldl_append

end Position

/-- the cells from `start` up to but not including `stop` -/
structure Range where
  start : Position
  stop : Position
deriving DecidableEq, Repr, Inhabited

namespace Range

/-- the range between two positions given in either order -/
def between (a b : Position) : Range :=
  if b < a then ⟨b, a⟩ else ⟨a, b⟩

/-- the empty range at a position -/
def point (p : Position) : Range :=
  ⟨p, p⟩

end Range

end WorkflowLint
