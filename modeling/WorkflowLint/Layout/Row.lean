/-
One line of a document as the layout sees it: how far it is indented, whether it is only blank or a comment, and the key
it declares if it looks like an entry of a block mapping.

A key is written in double quotes, in single quotes, or plain. After it come spaces or tabs, a colon, and then a space, a
tab or the end of the line. A plain key is the shortest run that is followed so; it has no `#` in it. A line that begins a
sequence item declares no key.
-/
import WorkflowLint.LineTable
import WorkflowLint.Text.Blank

namespace WorkflowLint.Layout

open WorkflowLint.Text

/-- a key without white space at its end, and the byte offsets it reaches from and to -/
structure KeySpan where
  text : List Char
  start : Nat
  stop : Nat
deriving DecidableEq, Repr

/-- one line: its number, its indentation, whether it is blank or a comment, and its key -/
structure Row where
  number : Nat
  indent : Nat
  isTrivia : Bool
  key : Option KeySpan
deriving DecidableEq, Repr

/-- whether padding, a colon and then a space, a tab or the end come next -/
def atColon (text : List Char) : Bool :=
  match text.dropWhile isIndent with
  | [':'] => true
  | ':' :: c :: _ => isIndent c
  | _ => false

/-- the shortest run without `#` up to a colon that ends a key -/
def plainRun : List Char → Option (List Char)
  | [] => none
  | c :: rest =>
    if atColon (c :: rest) then some []
    else if c = '#' then none
    else (plainRun rest).map fun run => c :: run

/-- what stands before the next `quote`, if a colon that ends a key follows that -/
def quotedRun (quote : Char) (text : List Char) : Option (List Char) :=
  match text.dropWhile (· != quote) with
  | [] => none
  | _ :: after => if atColon after then some (text.takeWhile (· != quote)) else none

/-- what a plain key may begin with -/
def startsPlain (c : Char) : Bool :=
  !isBlank c && !(['#', '\'', '"', '[', ']', '{', '}', ','].contains c)

/-- the key at the front of a line, and how many characters stand before it -/
def keyAt : List Char → Option (Nat × List Char)
  | [] => none
  | c :: rest =>
    if c = '"' ∨ c = '\'' then (quotedRun c rest).map fun run => (1, run)
    else if startsPlain c then (plainRun rest).map fun run => (0, c :: run)
    else none

/-- whether the line begins a sequence item: a dash alone or with white space after it -/
def isItem : List Char → Bool
  | ['-'] => true
  | '-' :: c :: _ => isBlank c
  | _ => false

/-- whether the line is blank or only a comment -/
def isTrivial (text : List Char) : Bool :=
  match trim text with
  | [] => true
  | c :: _ => c == '#'

/-- the row of the line with the number `n` -/
def Row.ofLine (n : Nat) (line : Line) : Row :=
  let indent := (line.text.takeWhile isIndent).length
  let rest := line.text.dropWhile isIndent
  let key :=
    if isTrivial rest || isItem rest then none
    else (keyAt rest).map fun (lead, run) =>
      let start := line.start + indent + lead
      ⟨trimEnd run, start, start + utf8Length (trimEnd run)⟩
  ⟨n, indent, isTrivial rest, key⟩

/-- the rows of lines numbered from `n` -/
def rowsFrom (n : Nat) : List Line → List Row
  | [] => []
  | line :: lines => Row.ofLine n line :: rowsFrom (n + 1) lines

end WorkflowLint.Layout
