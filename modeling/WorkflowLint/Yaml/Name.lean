/-
Reading anchors, aliases, tags and directives.

A tag is written in full between angle brackets, or as a handle and a suffix; a lone `!` is a tag by itself. Percent signs
escape the bytes of one character at a time.
-/
import WorkflowLint.Yaml.Scalar
import WorkflowLint.Yaml.Token

namespace WorkflowLint.Yaml

open WorkflowLint.Text

/-- a trouble met during an activity that began at a mark -/
def during (activity : Activity) (start : Mark) (problem : Problem) (mark : Mark) : SyntaxFault :=
  ⟨problem, mark, some (activity, start)⟩

/-! ## Anchors and aliases -/

/-- whether what follows a name may do so -/
def endsAnchor : List Char → Bool
  | [] => true
  | c :: rest => atGap (c :: rest) || ['?', ':', ',', ']', '}', '%', '@', '`'].contains c

/-- the name after the indicator at the cursor -/
def readAnchor (activity : Activity) (cursor : Cursor) : Except SyntaxFault (List Char × Cursor) :=
  let inside := cursor.skip 1
  let name := inside.rest.takeWhile isNameChar
  let after := inside.skip name.length
  if name.isEmpty || !endsAnchor after.rest then
    .error (during activity cursor.mark .malformedAnchor after.mark)
  else .ok (name, after)

/-! ## Escaped characters -/

/-- how many bytes a character has that begins with an octet -/
def octetWidth? (octet : Nat) : Option Nat :=
  if octet < 0x80 then some 1
  else if octet / 0x20 = 0x6 then some 2
  else if octet / 0x10 = 0xE then some 3
  else if octet / 0x08 = 0x1E then some 4
  else none

/-- the bits that an octet of a character of the given width begins it with -/
def octetBits (width octet : Nat) : Nat :=
  match width with
  | 1 => octet
  | 2 => octet % 0x20
  | 3 => octet % 0x10
  | _ => octet % 0x08

/-- the least code point that needs the given number of bytes -/
def leastOfWidth : Nat → Nat
  | 1 => 0
  | 2 => 0x80
  | 3 => 0x800
  | _ => 0x10000

/-- an escaped octet at the front -/
def octet? : List Char → Option Nat
  | '%' :: a :: b :: _ => (hexDigit? a).bind fun x => (hexDigit? b).map fun y => 16 * x + y
  | _ => none

/-- `n` more octets of a character whose bits so far are `acc` -/
def trailingOctets : Nat → Nat → Cursor → Except Trouble Nat
  | 0, acc, _ => .ok acc
  | n + 1, acc, cursor =>
    match octet? cursor.rest with
    | none => .error (.missingOctet, cursor.mark)
    | some octet =>
      if octet / 0x40 = 2 then trailingOctets n (acc * 0x40 + octet % 0x40) (cursor.skip 3)
      else .error (.badTrailingOctet, cursor.mark)

/-- The escaped character at the cursor, and how many characters its escape takes. Bytes that encode no character give
`none`. -/
def escapedChar (cursor : Cursor) : Except Trouble (Option Char × Nat) :=
  match octet? cursor.rest with
  | none => .error (.missingOctet, cursor.mark)
  | some octet =>
    match octetWidth? octet with
    | none => .error (.badLeadingOctet, cursor.mark)
    | some width => do
      let code ← trailingOctets (width - 1) (octetBits width octet) (cursor.skip 3)
      let c := if leastOfWidth width ≤ code then character? code else none
      return (c, 3 * width)

/-! ## Tags -/

/-- what the text of a tag consists of; some indicators only where the tag is written in full -/
def isUriChar (verbatim : Bool) (c : Char) : Bool :=
  isNameChar c || ";/?:@&=+$.%!~*'()".toList.contains c || (verbatim && ",[]".toList.contains c)

/-- reads on in the text of a tag, of which `skip` characters are already read -/
def uriFrom (verbatim : Bool) : Nat → List Char → Mark → TagText → Except Trouble (TagText × Cursor)
  | _, [], mark, acc => .ok (acc.reverse, ⟨[], mark⟩)
  | skip + 1, c :: rest, mark, acc => uriFrom verbatim skip rest (mark.next c) acc
  | 0, c :: rest, mark, acc =>
    if c = '%' then do
      let (d, n) ← escapedChar ⟨c :: rest, mark⟩
      uriFrom verbatim (n - 1) rest (mark.next c) (d :: acc)
    else if isUriChar verbatim c then uriFrom verbatim 0 rest (mark.next c) (some c :: acc)
    else .ok (acc.reverse, ⟨c :: rest, mark⟩)

/-- a text ends at its first NUL -/
def untilNul (text : TagText) : TagText :=
  text.takeWhile fun c => c != some '\x00'

/-- Reads the text of a tag, which is not empty unless a handle comes before it. -/
def readUri (verbatim : Bool) (activity : Activity) (start : Mark) (mayBeEmpty : Bool) (cursor : Cursor) :
    Except SyntaxFault (TagText × Cursor) :=
  match uriFrom verbatim 0 cursor.rest cursor.mark [] with
  | .error (problem, mark) => .error (during activity start problem mark)
  | .ok (text, after) =>
    if text.isEmpty && !mayBeEmpty then .error (during activity start .missingUri after.mark)
    else .ok (untilNul text, after)

/-- Reads `!`, a name, and a second `!` if there is one. In a directive the second may only be missing if the name is. -/
def readHandle (inDirective : Bool) (start : Mark) (cursor : Cursor) : Except SyntaxFault (List Char × Cursor) :=
  match cursor.rest with
  | '!' :: rest =>
    let name := rest.takeWhile isNameChar
    let after := cursor.skip (1 + name.length)
    match after.rest with
    | '!' :: _ => .ok ('!' :: name ++ ['!'], after.skip 1)
    | _ =>
      if inDirective && !name.isEmpty then .error (during .tagDirectiveBareHandle start .missingBang after.mark)
      else .ok ('!' :: name, after)
  | _ => .error (during (if inDirective then .tagDirectiveHandle else .tag) start .missingBang cursor.mark)

/-- handle and suffix of the tag at the cursor, before the check of what follows it -/
def tagParts (cursor : Cursor) : Except SyntaxFault (List Char × TagText × Cursor) :=
  let start := cursor.mark
  match cursor.rest with
  | '!' :: '<' :: _ => do
    let (text, after) ← readUri true .tagUri start false (cursor.skip 2)
    match after.rest with
    | '>' :: _ => return ([], text, after.skip 1)
    | _ => .error (during .tag start .missingAngle after.mark)
  | _ => do
    let (handle, after) ← readHandle false start cursor
    if handle.length ≥ 2 ∧ handle.getLast? = some '!' then
      let (suffix, after) ← readUri false .tagUri start false after
      return (handle, suffix, after)
    else
      let (rest, after) ← readUri false .tagUri start true after
      let suffix := (handle.drop 1).map some ++ rest
      if suffix.isEmpty then return ([], [some '!'], after) else return (['!'], suffix, after)

/-- reads a tag; a gap follows it, or a comma inside a flow collection -/
def readTag (inFlow : Bool) (cursor : Cursor) : Except SyntaxFault (List Char × TagText × Cursor) := do
  let (handle, suffix, after) ← tagParts cursor
  let ends :=
    match after.rest with
    | ',' :: _ => inFlow
    | rest => atGap rest
  if ends then return (handle, suffix, after) else .error (during .tag cursor.mark .missingGap after.mark)

/-! ## Directives -/

/-- most digits of a part of a version number -/
def versionDigits : Nat := 9

def readVersionPart (start : Mark) (cursor : Cursor) : Except SyntaxFault (Nat × Cursor) :=
  let digits := cursor.rest.takeWhile isDigit
  if versionDigits < digits.length then
    .error (during .versionDirective start .longVersionNumber (cursor.skip versionDigits).mark)
  else if digits.isEmpty then .error (during .versionDirective start .missingVersionNumber cursor.mark)
  else .ok (digits.foldl (fun n c => 10 * n + (c.toNat - '0'.toNat)) 0, cursor.skip digits.length)

def readVersion (start : Mark) (cursor : Cursor) : Except SyntaxFault (TokenKind × Cursor) := do
  let (major, cursor) ← readVersionPart start (cursor.skipWhile isIndent)
  match cursor.rest with
  | '.' :: _ =>
    let (minor, cursor) ← readVersionPart start (cursor.skip 1)
    return (.version major minor, cursor)
  | _ => .error (during .versionDirective start .missingVersionPoint cursor.mark)

def readHandleDirective (start : Mark) (cursor : Cursor) : Except SyntaxFault (TokenKind × Cursor) := do
  let (handle, cursor) ← readHandle true start (cursor.skipWhile isIndent)
  match cursor.rest with
  | c :: _ =>
    if isIndent c then
      let (expansion, cursor) ← readUri true .tagDirectiveUri start false (cursor.skipWhile isIndent)
      if atGap cursor.rest then return (.handle handle expansion, cursor)
      else .error (during .tagDirective start .missingGap cursor.mark)
    else .error (during .tagDirective start .missingBlank cursor.mark)
  | [] => .error (during .tagDirective start .missingBlank cursor.mark)

/-- reads a directive with the rest of its line; gives its token's kind, where the token ends and where the line does -/
def readDirective (cursor : Cursor) : Except SyntaxFault (TokenKind × Mark × Cursor) := do
  let start := cursor.mark
  let inside := cursor.skip 1
  let name := inside.rest.takeWhile isNameChar
  let after := inside.skip name.length
  if name.isEmpty then .error (during .directive start .missingDirectiveName after.mark)
  else if !atGap after.rest then .error (during .directive start .malformedDirectiveName after.mark)
  else
    let (kind, after) ←
      if name = ['Y', 'A', 'M', 'L'] then readVersion start after
      else if name = ['T', 'A', 'G'] then readHandleDirective start after
      else .error (during .directive start .unknownDirective after.mark)
    let tail := after.skipWhile isIndent
    let tail :=
      match tail.rest with
      | '#' :: _ => tail.skipWhile fun c => !isBreak c
      | _ => tail
    if atLineEnd tail.rest then return (kind, after.mark, tail.skipBreak)
    else .error (during .directive start .missingLineEnd tail.mark)

end WorkflowLint.Yaml
