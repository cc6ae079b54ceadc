/-
Reading scalars: plain ones, quoted ones, and literal or folded blocks.

All three fold line endings. Blanks around a line ending vanish; a single ending becomes a space; of several the first is
dropped and the others stay. A separator that stands for itself is never dropped.

Every reader goes over the characters once, with the mark of the next one, and gives the scalar's text and where the
reading stopped.
-/
import WorkflowLint.Yaml.Fault

namespace WorkflowLint.Yaml

open WorkflowLint.Text

/-- a problem and its place -/
abbrev Trouble := Problem × Mark

/-! ## What stands between two pieces of text -/

/-- blanks read since the last piece of text, or, after a line ending, the endings -/
structure Gap where
  blanks : List Char
  /-- whether a line has ended; from then on blanks are dropped -/
  newLine : Bool
  first : Option Char
  more : List Char

namespace Gap

def empty : Gap := ⟨[], false, none, []⟩

/-- the gap after an escaped line ending, which itself stands for nothing -/
def escaped : Gap := ⟨[], true, none, []⟩

def isEmpty (gap : Gap) : Bool :=
  gap.blanks.isEmpty && !gap.newLine

def addBlank (gap : Gap) (c : Char) : Gap :=
  if gap.newLine then gap else { gap with blanks := gap.blanks ++ [c] }

def addBreak (gap : Gap) (c : Char) : Gap :=
  if gap.newLine then { gap with more := gap.more ++ [breakText c] } else ⟨[], true, some (breakText c), []⟩

/-- what the gap stands for inside a scalar -/
def text (gap : Gap) : List Char :=
  if gap.newLine then
    match gap.first with
    | some '\n' => if gap.more.isEmpty then [' '] else gap.more
    | some c => c :: gap.more
    | none => gap.more
  else gap.blanks

end Gap

/-! ## Plain scalars -/

/-- flow indicators that end a plain scalar inside a flow collection -/
def isFlowIndicator (c : Char) : Bool :=
  c == ',' || c == '[' || c == ']' || c == '{' || c == '}'

/-- whether a colon before this text is refused inside a flow collection -/
def refusesColon : List Char → Bool
  | [] => false
  | c :: _ => isFlowIndicator c || c == '?'

/-- what a plain scalar has given: its text, where reading stopped, and whether a line ended just before that -/
structure Plain where
  text : List Char
  cursor : Cursor
  newLine : Bool

/-- Reads on in a plain scalar. `indent` is the least column of its further lines, `acc` its text so far in reverse. -/
def plainFrom (inFlow : Bool) (indent : Nat) : List Char → Mark → Gap → List Char → Except Trouble Plain
  | [], mark, gap, acc => .ok ⟨acc.reverse, ⟨[], mark⟩, gap.newLine⟩
  | '\r' :: '\n' :: rest, mark, gap, acc => plainFrom inFlow indent rest (mark.newLine 2) (gap.addBreak '\n') acc
  | c :: rest, mark, gap, acc =>
    if isIndent c then
      if gap.newLine ∧ mark.column < indent ∧ c = '\t' then .error (.tabViolatesIndentation, mark)
      else plainFrom inFlow indent rest (mark.next c) (gap.addBlank c) acc
    else if isBreak c then plainFrom inFlow indent rest (mark.newLine c.utf8Size) (gap.addBreak c) acc
    else
      let begins := !gap.isEmpty
      if (begins && ((!inFlow && decide (mark.column < indent)) || c == '#')) ||
          (begins && mark.column == 0 && atDocumentMark (c :: rest)) ||
          (c == ':' && atGap rest) || (inFlow && isFlowIndicator c) then
        .ok ⟨acc.reverse, ⟨c :: rest, mark⟩, gap.newLine⟩
      else if inFlow && c == ':' && refusesColon rest then .error (.flowColon, mark)
      else plainFrom inFlow indent rest (mark.next c) Gap.empty (c :: gap.text.reverse ++ acc)

/-! ## Quoted scalars -/

/-- the character that a one-letter escape stands for -/
def simpleEscape? (c : Char) : Option Char :=
  match c with
  | '0' => some '\x00'
  | 'a' => some '\x07'
  | 'b' => some '\x08'
  | 't' => some '\t'
  | '\t' => some '\t'
  | 'n' => some '\n'
  | 'v' => some '\x0b'
  | 'f' => some '\x0c'
  | 'r' => some '\r'
  | 'e' => some '\x1b'
  | ' ' => some ' '
  | '"' => some '"'
  | '/' => some '/'
  | '\\' => some '\\'
  | 'N' => some '\u0085'
  | '_' => some '\u00a0'
  | 'L' => some '\u2028'
  | 'P' => some '\u2029'
  | _ => none

/-- how many hexadecimal digits follow the letter of a numeric escape -/
def codeLength? (c : Char) : Option Nat :=
  match c with
  | 'x' => some 2
  | 'u' => some 4
  | 'U' => some 8
  | _ => none

def hexDigit? (c : Char) : Option Nat :=
  if isDigit c then some (c.toNat - '0'.toNat)
  else if 'a' ≤ c ∧ c ≤ 'f' then some (c.toNat - 'a'.toNat + 10)
  else if 'A' ≤ c ∧ c ≤ 'F' then some (c.toNat - 'A'.toNat + 10)
  else none

/-- the number that `n` hexadecimal digits at the front give, after a number that is already `acc` -/
def hexNumber? : Nat → Nat → List Char → Option Nat
  | 0, acc, _ => some acc
  | _ + 1, _, [] => none
  | n + 1, acc, c :: rest => (hexDigit? c).bind fun d => hexNumber? n (acc * 16 + d) rest

/-- the character with a number, which is neither a surrogate nor beyond the last code point -/
def character? (n : Nat) : Option Char :=
  if h : n.isValidChar then some (Char.ofNatAux n h) else none

/-- Reads on in a quoted scalar, of which `skip` characters are already read. `acc` is its text so far in reverse. -/
def quotedFrom (quote : Char) : Nat → List Char → Mark → Gap → List Char → Except (Activity × Trouble) (List Char × Cursor)
  | _, [], mark, _, _ => .error (.quotedScalar, .endInQuotes, mark)
  | skip + 1, c :: rest, mark, gap, acc => quotedFrom quote skip rest (mark.next c) gap acc
  | 0, '\r' :: '\n' :: rest, mark, gap, acc => quotedFrom quote 0 rest (mark.newLine 2) (gap.addBreak '\n') acc
  | 0, c :: rest, mark, gap, acc =>
    if isIndent c then quotedFrom quote 0 rest (mark.next c) (gap.addBlank c) acc
    else if isBreak c then quotedFrom quote 0 rest (mark.newLine c.utf8Size) (gap.addBreak c) acc
    else if mark.column = 0 ∧ atDocumentMark (c :: rest) then .error (.quotedScalar, .documentMarkInQuotes, mark)
    else
      let before := gap.text.reverse ++ acc
      if c = quote then
        match quote, rest with
        | '\'', '\'' :: _ => quotedFrom quote 1 rest (mark.next c) Gap.empty ('\'' :: before)
        | _, _ => .ok (before.reverse, ⟨rest, mark.next c⟩)
      else if c = '\\' ∧ quote = '"' then
        match rest with
        | [] => .error (.quotedEscape, .unknownEscape, mark)
        | '\r' :: '\n' :: rest => quotedFrom quote 0 rest ((mark.next c).newLine 2) Gap.escaped before
        | e :: rest =>
          let inside := (mark.next c).next e
          if isBreak e then quotedFrom quote 0 rest ((mark.next c).newLine e.utf8Size) Gap.escaped before
          else
            match simpleEscape? e, codeLength? e with
            | some d, _ => quotedFrom quote 0 rest inside Gap.empty (d :: before)
            | none, some n =>
              match hexNumber? n 0 rest with
              | none => .error (.quotedEscape, .missingHexadecimal, inside)
              | some code =>
                match character? code with
                | none => .error (.quotedEscape, .badCodePoint, inside)
                | some d => quotedFrom quote n rest inside Gap.empty (d :: before)
            | none, none => .error (.quotedEscape, .unknownEscape, mark)
      else quotedFrom quote 0 rest (mark.next c) Gap.empty (c :: before)

/-! ## Block scalars -/

/-- what happens to the line endings after the last line of a block scalar -/
inductive Chomping where
  /-- all are dropped -/
  | strip
  /-- one is kept -/
  | clip
  /-- all are kept -/
  | keep
deriving DecidableEq, Repr

/-- the state of reading a block scalar -/
structure BlockState where
  /-- the column of its lines, once known -/
  indent : Option Nat
  /-- the deepest column reached by lines that are still blank -/
  deepest : Nat
  /-- whether the last line began with a blank -/
  blankLed : Bool
  /-- the ending of the last line -/
  lead : Option Char
  /-- the endings of the empty lines after it -/
  breaks : List Char
  /-- the text so far, in reverse -/
  acc : List Char

namespace BlockState

/-- whether the column of the next character still lies in the indentation -/
def inIndent (state : BlockState) (column : Nat) : Bool :=
  match state.indent with
  | none => true
  | some indent => column < indent

/-- the column of the lines, which the first line that is not blank settles -/
def settle (state : BlockState) (least column : Nat) : BlockState :=
  match state.indent with
  | some _ => state
  | none => { state with indent := some (max (max state.deepest column) (max least 1)) }

/-- the text of the endings before a line that begins with `c` -/
def leadText (state : BlockState) (folded : Bool) (c : Char) : List Char :=
  match state.lead with
  | some '\n' =>
    if folded && !state.blankLed && !isIndent c then
      if state.breaks.isEmpty then [' '] else state.breaks
    else '\n' :: state.breaks
  | some d => d :: state.breaks
  | none => state.breaks

/-- the whole text -/
def finish (state : BlockState) (chomping : Chomping) : List Char :=
  let tail :=
    match chomping with
    | .strip => []
    | .clip => state.lead.toList
    | .keep => state.lead.toList ++ state.breaks
  state.acc.reverse ++ tail

end BlockState

/-- Reads on in a block scalar. `least` is the least column its lines may have, `inLine` says whether a line's text has
begun. -/
def blockFrom (folded : Bool) (chomping : Chomping) (least : Nat) :
    Bool → List Char → Mark → BlockState → Except Trouble (List Char × Cursor)
  | _, [], mark, state => .ok (state.finish chomping, ⟨[], mark⟩)
  | inLine, '\r' :: '\n' :: rest, mark, state =>
    blockFrom folded chomping least false rest (mark.newLine 2)
      (if inLine then { state with lead := some '\n', breaks := [] }
        else { state with deepest := max state.deepest mark.column, breaks := state.breaks ++ ['\n'] })
  | inLine, c :: rest, mark, state =>
    if isBreak c then
      blockFrom folded chomping least false rest (mark.newLine c.utf8Size)
        (if inLine then { state with lead := some (breakText c), breaks := [] }
          else { state with deepest := max state.deepest mark.column, breaks := state.breaks ++ [breakText c] })
    else if inLine then blockFrom folded chomping least true rest (mark.next c) { state with acc := c :: state.acc }
    else if state.inIndent mark.column && c == ' ' then blockFrom folded chomping least false rest (mark.next c) state
    else if state.inIndent mark.column && c == '\t' then .error (.tabForIndentation, mark)
    else
      let state := state.settle least mark.column
      if state.indent = some mark.column then
        let acc := c :: (state.leadText folded c).reverse ++ state.acc
        blockFrom folded chomping least true rest (mark.next c) ⟨state.indent, state.deepest, isIndent c, none, [], acc⟩
      else .ok (state.finish chomping, ⟨c :: rest, mark⟩)

/-- the header after a block scalar's indicator: chomping, explicit indentation, and how many characters it takes -/
def blockHeader : List Char → Except (Problem × Nat) (Chomping × Nat × Nat)
  | [] => .ok (.clip, 0, 0)
  | c :: rest =>
    if c = '+' ∨ c = '-' then
      let chomping := if c = '+' then .keep else .strip
      match rest with
      | d :: _ =>
        if d = '0' then .error (.zeroIndentation, 1)
        else if isDigit d then .ok (chomping, d.toNat - '0'.toNat, 2)
        else .ok (chomping, 0, 1)
      | [] => .ok (chomping, 0, 1)
    else if c = '0' then .error (.zeroIndentation, 0)
    else if isDigit c then
      let indent := c.toNat - '0'.toNat
      match rest with
      | '+' :: _ => .ok (.keep, indent, 2)
      | '-' :: _ => .ok (.strip, indent, 2)
      | _ => .ok (.clip, indent, 1)
    else .ok (.clip, 0, 0)

/-- Reads a block scalar from just after its indicator. `parent` is the column of the block around it, or -1. -/
def blockScalar (folded : Bool) (parent : Int) (cursor : Cursor) : Except Trouble (List Char × Cursor) :=
  match blockHeader cursor.rest with
  | .error (problem, n) => .error (problem, (cursor.skip n).mark)
  | .ok (chomping, increment, n) =>
    let cursor := (cursor.skip n).skipWhile isIndent
    let cursor :=
      match cursor.rest with
      | '#' :: _ => cursor.skipWhile fun c => !isBreak c
      | _ => cursor
    if atLineEnd cursor.rest then
      let cursor := cursor.skipBreak
      let indent := if increment = 0 then none else some ((max parent 0).toNat + increment)
      blockFrom folded chomping (parent + 1).toNat false cursor.rest cursor.mark ⟨indent, 0, false, none, [], []⟩
    else .error (.missingLineEnd, cursor.mark)

end WorkflowLint.Yaml
