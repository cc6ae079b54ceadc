/-
The lines of one document, with the byte offset at which each begins.

A line feed ends a line; a carriage return just before it, or at the very end, is not part of the line's text. `position`
turns a byte offset into coordinates: the last line that begins at or before the offset, then the UTF-16 length of what
that line has before it. So an offset past the end counts as the end. An offset inside a character is rounded down;
`position?` refuses it instead.
-/
import WorkflowLint.Position

namespace WorkflowLint

/-- one line: the byte offset of its first character, and its characters without the line feed -/
structure Line where
  start : Nat
  chars : List Char
deriving DecidableEq, Repr

namespace Line

/-- the line without a final carriage return -/
def text (line : Line) : List Char :=
  if line.chars.getLast? = some '\r' then line.chars.dropLast else line.chars

end Line

/-- the lines of a text, the first of which begins at byte `start`; there is always at least one -/
def linesFrom (start : Nat) : List Char → List Line
  | [] => [⟨start, []⟩]
  | c :: rest =>
    if c = '\n' then ⟨start, []⟩ :: linesFrom (start + c.utf8Size) rest
    else
      match linesFrom (start + c.utf8Size) rest with
      | [] => [⟨start, [c]⟩]
      | line :: lines => ⟨start, c :: line.chars⟩ :: lines

/-- a document together with its lines -/
structure LineTable where
  source : List Char
  lines : List Line
deriving Repr

namespace LineTable

/-- the table of a text -/
def ofText (source : List Char) : LineTable :=
  ⟨source, linesFrom 0 source⟩

/-- how many lines there are -/
def size (table : LineTable) : Nat :=
  table.lines.length

/-- byte offset of the first character of a line -/
def lineStart? (table : LineTable) (n : Nat) : Option Nat :=
  (table.lines[n]?).map Line.start

/-- a line without its ending -/
def lineText? (table : LineTable) (n : Nat) : Option (List Char) :=
  (table.lines[n]?).map Line.text

/-- coordinates of a byte offset among lines numbered from `n`, the first of which begins at or before the offset -/
def positionIn (offset : Nat) (n : Nat) : List Line → Position
  | [] => ⟨n, 0⟩
  | [line] => ⟨n, Text.utf16Length (Text.takeBytes (offset - line.start) line.chars)⟩
  | line :: next :: lines =>
    if next.start ≤ offset then positionIn offset (n + 1) (next :: lines)
    else ⟨n, Text.utf16Length (Text.takeBytes (offset - line.start) line.chars)⟩

/-- coordinates of a byte offset -/
def position (table : LineTable) (offset : Nat) : Position :=
  positionIn offset 0 table.lines

/-- the offset, or the end of the document if it lies past that -/
def clamp (table : LineTable) (offset : Nat) : Nat :=
  min offset (Text.utf8Length table.source)

/-- coordinates of a byte offset, unless it lies inside a character -/
def position? (table : LineTable) (offset : Nat) : Option Position :=
  if Text.onBoundary (table.clamp offset) table.source then some (table.position offset) else none

/-- the range between two byte offsets -/
def range (table : LineTable) (a b : Nat) : Range :=
  Range.between (table.position a) (table.position b)

/-- the range between two byte offsets, unless one of them lies inside a character -/
def range? (table : LineTable) (a b : Nat) : Option Range := do
  return Range.between (← table.position? a) (← table.position? b)

end LineTable

end WorkflowLint
