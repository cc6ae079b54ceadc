/-
Places in a YAML text, and the classes of characters that decide how it is read.

A line ends at a line feed, a carriage return, both together, or one of three Unicode separators. The ending counts as a
line feed, except that the line and the paragraph separator stand for themselves. Columns count characters.
-/
import WorkflowLint.Text.Blank

namespace WorkflowLint.Yaml

/-- a place: the bytes before it in the text, and its zero-based line and column -/
structure Mark where
  index : Nat
  line : Nat
  column : Nat
deriving DecidableEq, Repr, Inhabited

/-! ## Character classes -/

def isBreak (c : Char) : Bool :=
  c == '\n' || c == '\r' || c == '\u0085' || c == '\u2028' || c == '\u2029'

/-- the character that a line ending stands for in a scalar -/
def breakText (c : Char) : Char :=
  if c = '\u2028' ∨ c = '\u2029' then c else '\n'

/-- letters, digits, `-` and `_`: what names of anchors, handles and directives consist of -/
def isNameChar (c : Char) : Bool :=
  Text.isLetter c || Text.isDigit c || c == '-' || c == '_'

/-- whether the line ends here -/
def atLineEnd : List Char → Bool
  | [] => true
  | c :: _ => isBreak c

/-- whether a space, a tab, the end of the line or the end of the text comes next -/
def atGap : List Char → Bool
  | [] => true
  | c :: _ => Text.isIndent c || isBreak c

/-- whether one of the two document marks comes next, which count only at the beginning of a line -/
def atDocumentMark : List Char → Bool
  | '-' :: '-' :: '-' :: rest => atGap rest
  | '.' :: '.' :: '.' :: rest => atGap rest
  | _ => false

/-! ## Marks -/

namespace Mark

def zero : Mark := ⟨0, 0, 0⟩

/-- the place after a character that does not end a line -/
def next (mark : Mark) (c : Char) : Mark :=
  ⟨mark.index + c.utf8Size, mark.line, mark.column + 1⟩

/-- the place after a line ending of `width` bytes -/
def newLine (mark : Mark) (width : Nat) : Mark :=
  ⟨mark.index + width, mark.line + 1, 0⟩

/-- the place after a text -/
def after : Mark → List Char → Mark
  | mark, [] => mark
  | mark, '\r' :: '\n' :: rest => after (mark.newLine 2) rest
  | mark, c :: rest => if isBreak c then after (mark.newLine c.utf8Size) rest else after (mark.next c) rest

end Mark

/-- a place together with the text that follows it -/
structure Cursor where
  rest : List Char
  mark : Mark
deriving Repr

namespace Cursor

def skip (cursor : Cursor) (n : Nat) : Cursor :=
  ⟨cursor.rest.drop n, cursor.mark.after (cursor.rest.take n)⟩

def skipWhile (cursor : Cursor) (p : Char → Bool) : Cursor :=
  cursor.skip (cursor.rest.takeWhile p).length

/-- passes over one line ending, if there is one here -/
def skipBreak (cursor : Cursor) : Cursor :=
  match cursor.rest with
  | '\r' :: '\n' :: _ => cursor.skip 2
  | c :: _ => if isBreak c then cursor.skip 1 else cursor
  | [] => cursor

end Cursor

end WorkflowLint.Yaml
