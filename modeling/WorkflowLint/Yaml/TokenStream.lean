/-
The tokens of a YAML text, up to its end or the first fault of its notation.

Whether a scalar is a key shows only at the colon after it, so each flow level remembers one place at which a key may have
begun. When the colon comes, a key token is put in at that place, and in block context, if the key opens a block, the
block's start as well. A place is given up at the end of its line or after 1024 bytes; that is a fault if only a key
can stand there. Tokens from a remembered place on are not yet final: when a fault comes up, the stream ends before them.
-/
import WorkflowLint.Yaml.Name
import WorkflowLint.Yaml.Repertoire

namespace WorkflowLint.Yaml

open WorkflowLint.Text

/-- a place at which a key may have begun -/
structure KeyPlace where
  /-- how many tokens come before it -/
  number : Nat
  /-- whether nothing but a key can stand there -/
  required : Bool
  mark : Mark
deriving Repr

/-- the state between two tokens -/
structure Reader where
  cursor : Cursor
  /-- tokens read so far, last one first -/
  tokens : List Token
  /-- how many they are -/
  count : Nat
  /-- the place of a possible key at each flow level, innermost first; the last one is that of block context -/
  keys : List (Option KeyPlace)
  /-- whether a key may begin here -/
  keyAllowed : Bool
  /-- the column of the current block, or -1, and those of the blocks around it -/
  indent : Int
  outer : List Int
  ended : Bool

namespace Reader

def start (text : List Char) : Reader :=
  ⟨⟨text, Mark.zero⟩, [⟨.streamStart, Mark.zero, Mark.zero⟩], 1, [none], true, -1, [], false⟩

def mark (reader : Reader) : Mark :=
  reader.cursor.mark

def rest (reader : Reader) : List Char :=
  reader.cursor.rest

def column (reader : Reader) : Int :=
  reader.mark.column

/-- whether we are inside a flow collection -/
def inFlow (reader : Reader) : Bool :=
  1 < reader.keys.length

def push (reader : Reader) (token : Token) : Reader :=
  { reader with tokens := token :: reader.tokens, count := reader.count + 1 }

/-- puts a token in so that `number` tokens come before it -/
def insertAt (reader : Reader) (number : Nat) (token : Token) : Reader :=
  let (after, before) := reader.tokens.splitAt (reader.count - number)
  { reader with tokens := after ++ token :: before, count := reader.count + 1 }

/-! ## Places of keys -/

/-- the fault of a place that needed a key -/
def keyFault (place : KeyPlace) (mark : Mark) : SyntaxFault :=
  during .simpleKey place.mark .missingColon mark

/-- most bytes between the beginning of a key and its colon -/
def keyReach : Nat := 1024

def isStale (mark : Mark) (place : KeyPlace) : Bool :=
  place.mark.line < mark.line || place.mark.index + keyReach < mark.index

/-- gives up the places that are out of reach of their colon -/
def dropStale (mark : Mark) : List (Option KeyPlace) → Except SyntaxFault (List (Option KeyPlace))
  | [] => .ok []
  | none :: outer => do return none :: (← dropStale mark outer)
  | some place :: outer => do
    let outer ← dropStale mark outer
    if isStale mark place then
      if place.required then .error (keyFault place mark) else return none :: outer
    else return some place :: outer

def refresh (reader : Reader) : Except SyntaxFault Reader := do
  return { reader with keys := ← dropStale reader.mark reader.keys }

/-- gives up the place of the current flow level -/
def forgetKey (reader : Reader) : Except SyntaxFault Reader :=
  match reader.keys with
  | some place :: outer =>
    if place.required then .error (keyFault place reader.mark) else .ok { reader with keys := none :: outer }
  | _ => .ok reader

/-- remembers this place as one where a key may begin, if one may -/
def rememberKey (reader : Reader) : Except SyntaxFault Reader :=
  if reader.keyAllowed then do
    let place := ⟨reader.count, !reader.inFlow && reader.indent == reader.column, reader.mark⟩
    let reader ← reader.forgetKey
    return { reader with keys := some place :: reader.keys.drop 1 }
  else .ok reader

/-- how many tokens are final: those before every remembered place -/
def settled (reader : Reader) : Nat :=
  reader.keys.foldl (fun n place => match place with | some place => min n place.number | none => n) reader.count

/-! ## Blocks -/

/-- opens a block at a column if that is deeper than the current one; its token comes after `number` others -/
def openBlock (reader : Reader) (column : Int) (kind : TokenKind) (number : Nat) (mark : Mark) : Reader :=
  if !reader.inFlow && reader.indent < column then
    { reader.insertAt number ⟨kind, mark, mark⟩ with indent := column, outer := reader.indent :: reader.outer }
  else reader

/-- closes the blocks of `outer` that are deeper than a column, after the current one -/
def closeFrom (column : Int) (reader : Reader) : List Int → Reader
  | [] => reader
  | indent :: outer =>
    if column < reader.indent then
      closeFrom column { reader.push ⟨.blockEnd, reader.mark, reader.mark⟩ with indent, outer } outer
    else reader

/-- closes the blocks that are deeper than a column -/
def closeBlocks (reader : Reader) (column : Int) : Reader :=
  if reader.inFlow then reader else closeFrom column reader reader.outer

/-! ## The way to the next token -/

def byteOrderMark : Char := '\uFEFF'

/-- Passes over blanks, comments and line endings, and over a byte order mark at the beginning of a line; says whether a key
may begin after them. Tabs count as blanks only where no key may begin. -/
def gapFrom (inFlow : Bool) : Bool → Bool → List Char → Mark → Bool × Cursor
  | _, allowed, [], mark => (allowed, ⟨[], mark⟩)
  | _, allowed, '\r' :: '\n' :: rest, mark => gapFrom inFlow false (allowed || !inFlow) rest (mark.newLine 2)
  | inComment, allowed, c :: rest, mark =>
    if isBreak c then gapFrom inFlow false (allowed || !inFlow) rest (mark.newLine c.utf8Size)
    else if inComment then gapFrom inFlow true allowed rest (mark.next c)
    else if c == byteOrderMark && mark.column == 0 then gapFrom inFlow false allowed rest (mark.next c)
    else if c == ' ' || (c == '\t' && (inFlow || !allowed)) then gapFrom inFlow false allowed rest (mark.next c)
    else if c == '#' then gapFrom inFlow true allowed rest (mark.next c)
    else (allowed, ⟨c :: rest, mark⟩)

def skipGap (reader : Reader) : Reader :=
  let (keyAllowed, cursor) := gapFrom reader.inFlow false reader.keyAllowed reader.rest reader.mark
  { reader with keyAllowed, cursor }

/-! ## One token of each kind -/

/-- a token made of the next `n` characters -/
def indicator (reader : Reader) (kind : TokenKind) (n : Nat) : Reader :=
  let after := reader.cursor.skip n
  { reader.push ⟨kind, reader.mark, after.mark⟩ with cursor := after }

/-- a token that was read up to a cursor -/
def upTo (reader : Reader) (kind : TokenKind) (after : Cursor) : Reader :=
  { reader.push ⟨kind, reader.mark, after.mark⟩ with cursor := after }

/-- leaves all blocks; no key may begin until the next line -/
def leaveBlocks (reader : Reader) : Except SyntaxFault Reader := do
  let reader ← (reader.closeBlocks (-1)).forgetKey
  return { reader with keyAllowed := false }

/-- the end of the text, which counts as the beginning of a line -/
def endOfStream (reader : Reader) : Except SyntaxFault Reader := do
  let mark := reader.mark
  let mark := if mark.column = 0 then mark else ⟨mark.index, mark.line + 1, 0⟩
  let reader ← { reader with cursor := ⟨[], mark⟩ }.leaveBlocks
  return { reader.push ⟨.streamEnd, mark, mark⟩ with ended := true }

def directive (reader : Reader) : Except SyntaxFault Reader := do
  let reader ← reader.leaveBlocks
  let (kind, stop, after) ← readDirective reader.cursor
  return { reader.push ⟨kind, reader.mark, stop⟩ with cursor := after }

def documentMark (reader : Reader) (kind : TokenKind) : Except SyntaxFault Reader := do
  let reader ← reader.leaveBlocks
  return reader.indicator kind 3

def openFlow (reader : Reader) (kind : TokenKind) : Except SyntaxFault Reader := do
  let reader ← reader.rememberKey
  return { reader with keys := none :: reader.keys, keyAllowed := true }.indicator kind 1

def closeFlow (reader : Reader) (kind : TokenKind) : Except SyntaxFault Reader := do
  let reader ← reader.forgetKey
  let keys := if reader.inFlow then reader.keys.drop 1 else reader.keys
  return { reader with keys, keyAllowed := false }.indicator kind 1

def flowEntry (reader : Reader) : Except SyntaxFault Reader := do
  let reader ← reader.forgetKey
  return { reader with keyAllowed := true }.indicator .flowEntry 1

/-- opens a block at this column for an indicator, which must be able to stand where a key may begin -/
def openHere (reader : Reader) (kind : TokenKind) (problem : Problem) : Except SyntaxFault Reader :=
  if reader.inFlow then .ok reader
  else if reader.keyAllowed then .ok (reader.openBlock reader.column kind reader.count reader.mark)
  else .error ⟨problem, reader.mark, none⟩

def blockEntry (reader : Reader) : Except SyntaxFault Reader := do
  let reader ← reader.openHere .blockSequenceStart .misplacedEntry
  let reader ← reader.forgetKey
  return { reader with keyAllowed := true }.indicator .blockEntry 1

def explicitKey (reader : Reader) : Except SyntaxFault Reader := do
  let reader ← reader.openHere .blockMappingStart .misplacedKey
  let reader ← reader.forgetKey
  return { reader with keyAllowed := !reader.inFlow }.indicator .key 1

def colon (reader : Reader) : Except SyntaxFault Reader :=
  match reader.keys with
  | some place :: outer =>
    let reader := reader.insertAt place.number ⟨.key, place.mark, place.mark⟩
    let reader := reader.openBlock place.mark.column .blockMappingStart place.number place.mark
    .ok ({ reader with keys := none :: outer, keyAllowed := false }.indicator .value 1)
  | _ => do
    let reader ← reader.openHere .blockMappingStart .misplacedValue
    return { reader with keyAllowed := !reader.inFlow }.indicator .value 1

def anchor (reader : Reader) (activity : Activity) (kind : List Char → TokenKind) : Except SyntaxFault Reader := do
  let reader ← reader.rememberKey
  let (name, after) ← readAnchor activity reader.cursor
  return { reader with keyAllowed := false }.upTo (kind name) after

def tag (reader : Reader) : Except SyntaxFault Reader := do
  let reader ← reader.rememberKey
  let (handle, suffix, after) ← readTag reader.inFlow reader.cursor
  return { reader with keyAllowed := false }.upTo (.tag handle suffix) after

def blockText (reader : Reader) (folded : Bool) : Except SyntaxFault Reader := do
  let reader ← reader.forgetKey
  match blockScalar folded reader.indent (reader.cursor.skip 1) with
  | .error (problem, mark) => .error (during .blockScalar reader.mark problem mark)
  | .ok (text, after) => return { reader with keyAllowed := true }.upTo (.scalar text false) after

def quotedText (reader : Reader) (quote : Char) : Except SyntaxFault Reader := do
  let reader ← reader.rememberKey
  let inside := reader.cursor.skip 1
  match quotedFrom quote 0 inside.rest inside.mark Gap.empty [] with
  | .error (activity, problem, mark) => .error (during activity reader.mark problem mark)
  | .ok (text, after) => return { reader with keyAllowed := false }.upTo (.scalar text false) after

def plainText (reader : Reader) : Except SyntaxFault Reader := do
  let reader ← reader.rememberKey
  match plainFrom reader.inFlow (reader.indent + 1).toNat reader.rest reader.mark Gap.empty [] with
  | .error (problem, mark) => .error (during .plainScalar reader.mark problem mark)
  | .ok plain => return { reader with keyAllowed := plain.newLine }.upTo (.scalar plain.text true) plain.cursor

/-! ## The next token -/

/-- characters that begin no plain scalar -/
def isIndicator (c : Char) : Bool :=
  "-?:,[]\x7b\x7d#&*!|>'\"%@`".toList.contains c

/-- whether a plain scalar begins with `c` before `rest` -/
def startsPlain (inFlow : Bool) (c : Char) (rest : List Char) : Bool :=
  (!atGap (c :: rest) && !isIndicator c) ||
    (c == '-' && !(match rest with | d :: _ => isIndent d | [] => false)) ||
    (!inFlow && (c == '?' || c == ':') && !atGap rest)

/-- reads the token that begins with the character `c` -/
def readAt (reader : Reader) (c : Char) (rest : List Char) : Except SyntaxFault Reader :=
  let atMark := reader.mark.column == 0 && atDocumentMark (c :: rest)
  if reader.mark.column == 0 && c == '%' then reader.directive
  else if atMark && c == '-' then reader.documentMark .documentStart
  else if atMark then reader.documentMark .documentEnd
  else if c == '[' then reader.openFlow .flowSequenceStart
  else if c == '{' then reader.openFlow .flowMappingStart
  else if c == ']' then reader.closeFlow .flowSequenceEnd
  else if c == '}' then reader.closeFlow .flowMappingEnd
  else if c == ',' then reader.flowEntry
  else if c == '-' && atGap rest then reader.blockEntry
  else if c == '?' && (reader.inFlow || atGap rest) then reader.explicitKey
  else if c == ':' && (reader.inFlow || atGap rest) then reader.colon
  else if c == '*' then reader.anchor .aliased .aliased
  else if c == '&' then reader.anchor .anchor .anchor
  else if c == '!' then reader.tag
  else if c == '|' && !reader.inFlow then reader.blockText false
  else if c == '>' && !reader.inFlow then reader.blockText true
  else if c == '\'' || c == '"' then reader.quotedText c
  else if startsPlain reader.inFlow c rest then reader.plainText
  else .error (during .nextToken reader.mark .noToken reader.mark)

/-- reads the next token -/
def next (reader : Reader) : Except SyntaxFault Reader := do
  let reader ← reader.skipGap.refresh
  let reader := reader.closeBlocks reader.column
  let reader ←
    match reader.rest with
    | [] => reader.endOfStream
    | c :: rest => reader.readAt c rest
  reader.refresh

end Reader

/-- the tokens of a text, and the fault that ended them early -/
structure TokenStream where
  tokens : List Token
  fault : Option SyntaxFault

/-- the fault of a refused character, whose line and column are not known when it is noticed -/
def Refusal.fault (refusal : Refusal) : SyntaxFault :=
  ⟨.controlCharacter, ⟨refusal.offset, 0, 0⟩, none⟩

/-- what reading a token gives when the text holds a refused character: its fault, if reading comes near its block -/
def Refusal.guard (refusal : Refusal) : Except SyntaxFault Reader → Except SyntaxFault Reader
  | .ok reader => if refusal.allows reader.mark then .ok reader else .error refusal.fault
  | .error fault => if refusal.allows fault.mark then .error fault else .error refusal.fault

/-- reads the next token of a text with its refused character -/
def Reader.guardedNext (refusal : Option Refusal) (reader : Reader) : Except SyntaxFault Reader :=
  match refusal with
  | some refusal => refusal.guard reader.next
  | none => reader.next

/-- reads tokens to the end of the text or to a fault; every token but the last takes a character -/
def readTokens (refusal : Option Refusal) : Nat → Reader → TokenStream
  | 0, reader => ⟨reader.tokens.reverse, none⟩
  | fuel + 1, reader =>
    if reader.ended then ⟨reader.tokens.reverse, none⟩
    else
      match reader.guardedNext refusal with
      | .ok reader => readTokens refusal fuel reader
      | .error fault => ⟨reader.tokens.reverse.take reader.settled, some fault⟩

def TokenStream.ofText (text : List Char) : TokenStream :=
  readTokens (refusal? text) (text.length + 2) (Reader.start text)

end WorkflowLint.Yaml
