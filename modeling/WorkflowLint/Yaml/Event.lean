/-
The events of a YAML document: scalars, aliases, and the beginnings and ends of sequences and mappings, in reading order.

`Grammar` is the reader's memory: the tokens that are left, what is expected next, and what is expected once that is done.
`step` gives the next event. It looks at no more tokens than it needs, so the events before a fault do not depend on it. A
missing node is an empty plain scalar.
-/
import WorkflowLint.Yaml.TokenStream

namespace WorkflowLint.Yaml

/-- anchor and resolved tag of a node -/
structure Properties where
  anchor : Option (List Char)
  tag : Option TagText
deriving DecidableEq, Repr

def Properties.none : Properties := ⟨.none, .none⟩

inductive Event where
  | aliased (name : List Char)
  | scalar (properties : Properties) (text : List Char) (isPlain : Bool)
  | sequenceStart (properties : Properties)
  | sequenceEnd
  | mappingStart (properties : Properties)
  | mappingEnd
  | documentStart
  | documentEnd
  | streamEnd
deriving DecidableEq, Repr

/-- an event and where it begins -/
structure PlacedEvent where
  event : Event
  mark : Mark
deriving DecidableEq, Repr

/-- what the grammar allows next -/
inductive Expected where
  | firstDocument
  | documentContent
  | documentEnd
  | blockNode
  | blockItemFirst
  | blockItem
  | inlineItem
  | blockKeyFirst
  | blockKey
  | blockValue
  | flowItemFirst
  | flowItem
  | flowPairKey
  | flowPairValue
  | flowPairEnd
  | flowKeyFirst
  | flowKey
  | flowValue
  | flowEmptyValue
deriving DecidableEq, Repr

structure Grammar where
  tokens : List Token
  /-- why there are no tokens after these -/
  fault : SyntaxFault
  expected : Expected
  /-- what is expected after the current node, innermost first -/
  later : List Expected
  /-- where the collections around begin, innermost first -/
  starts : List Mark
  /-- the tag handles of the document -/
  handles : List (List Char × TagText)

namespace Grammar

abbrev Result := Except SyntaxFault (PlacedEvent × Grammar)

def peek (g : Grammar) : Except SyntaxFault Token :=
  match g.tokens with
  | token :: _ => .ok token
  | [] => .error g.fault

def advance (g : Grammar) : Grammar :=
  { g with tokens := g.tokens.drop 1 }

/-- goes on with what is expected after the current node -/
def resume (g : Grammar) : Grammar :=
  match g.later with
  | expected :: later => { g with expected, later }
  | [] => { g with expected := .documentEnd }

def expect (g : Grammar) (expected : Expected) : Grammar :=
  { g with expected }

/-- remembers what is expected after a node that comes first -/
def defer (g : Grammar) (expected : Expected) : Grammar :=
  { g with later := expected :: g.later }

/-- enters a collection that begins with the next token -/
def enter (g : Grammar) : Except SyntaxFault Grammar := do
  let token ← g.peek
  return { g.advance with starts := token.start :: g.starts }

def leave (g : Grammar) : Grammar :=
  { g.resume with starts := g.starts.drop 1 }

def emit (event : Event) (mark : Mark) (g : Grammar) : Result :=
  .ok (⟨event, mark⟩, g)

/-- the scalar that stands for a missing node -/
def missing (mark : Mark) (g : Grammar) : Result :=
  emit (.scalar Properties.none [] true) mark g

/-- a fault in the innermost collection -/
def faultIn (g : Grammar) (activity : Activity) (problem : Problem) (mark : Mark) : Result :=
  .error ⟨problem, mark, g.starts.head?.map fun start => (activity, start)⟩

/-! ## Nodes -/

/-- a tag with its handle replaced by what the handle stands for -/
def resolveTag (g : Grammar) (start tagMark : Mark) (handle : List Char) (suffix : TagText) :
    Except SyntaxFault TagText :=
  if handle.isEmpty then .ok suffix
  else
    match g.handles.lookup handle with
    | some expansion => .ok (expansion ++ suffix)
    | none => .error (during .node start .undefinedHandle tagMark)

/-- the anchor and the tag before a node, in either order, and where the first of them begins -/
def properties (g : Grammar) : Except SyntaxFault (Properties × Mark × Grammar) := do
  let token ← g.peek
  let start := token.start
  match token.kind with
  | .anchor name =>
    let g := g.advance
    let next ← g.peek
    match next.kind with
    | .tag handle suffix =>
      let g := g.advance
      let _ ← g.peek
      let tag ← g.resolveTag start next.start handle suffix
      return (⟨some name, some tag⟩, start, g)
    | _ => return (⟨some name, none⟩, start, g)
  | .tag handle suffix =>
    let g := g.advance
    let next ← g.peek
    match next.kind with
    | .anchor name =>
      let g := g.advance
      let _ ← g.peek
      let tag ← g.resolveTag start start handle suffix
      return (⟨some name, some tag⟩, start, g)
    | _ =>
      let tag ← g.resolveTag start start handle suffix
      return (⟨none, some tag⟩, start, g)
  | _ => return (Properties.none, start, g)

/-- A node. `inBlock` says whether it may be a block collection, `inlineItems` whether its items may begin without one. -/
def node (g : Grammar) (inBlock inlineItems : Bool) : Result := do
  let token ← g.peek
  match token.kind with
  | .aliased name => emit (.aliased name) token.start g.resume.advance
  | _ =>
    let (properties, start, g) ← g.properties
    let token ← g.peek
    match token.kind with
    | .blockEntry =>
      if inlineItems then emit (.sequenceStart properties) start (g.expect .inlineItem)
      else bare properties start token g
    | .scalar text isPlain => emit (.scalar properties text isPlain) start g.resume.advance
    | .flowSequenceStart => emit (.sequenceStart properties) start (g.expect .flowItemFirst)
    | .flowMappingStart => emit (.mappingStart properties) start (g.expect .flowKeyFirst)
    | .blockSequenceStart =>
      if inBlock then emit (.sequenceStart properties) start (g.expect .blockItemFirst)
      else bare properties start token g
    | .blockMappingStart =>
      if inBlock then emit (.mappingStart properties) start (g.expect .blockKeyFirst)
      else bare properties start token g
    | _ => bare properties start token g
where
  /-- no content: an empty scalar if there is an anchor or a tag, else a fault -/
  bare (properties : Properties) (start : Mark) (token : Token) (g : Grammar) : Result :=
    if properties.anchor.isSome || properties.tag.isSome then emit (.scalar properties [] true) start g.resume
    else .error (during (if inBlock then .blockNode else .flowNode) start .missingNode token.start)

/-! ## Documents -/

/-- reads the directives before a document -/
def directives : List Token → Grammar → Bool → Except SyntaxFault Grammar
  | [], g, _ => .error g.fault
  | token :: rest, g, versionSeen =>
    match token.kind with
    | .version major minor =>
      if versionSeen then .error ⟨.duplicateVersion, token.start, none⟩
      else if major = 1 ∧ (minor = 1 ∨ minor = 2) then directives rest g.advance true
      else .error ⟨.incompatibleVersion, token.start, none⟩
    | .handle name expansion =>
      if (g.handles.lookup name).isSome then .error ⟨.duplicateHandle, token.start, none⟩
      else directives rest { g.advance with handles := g.handles ++ [(name, expansion)] } versionSeen
    | _ => .ok g

/-- the handles that every document has unless it says otherwise -/
def defaultHandles : List (List Char × TagText) :=
  [(['!'], [some '!']), (['!', '!'], "tag:yaml.org,2002:".toList.map some)]

def firstDocument (g : Grammar) : Result := do
  let token ← g.peek
  let explicit : Except SyntaxFault (PlacedEvent × Grammar) := do
    let g ← directives g.tokens g false
    let g := { g with handles := g.handles ++ defaultHandles }
    let next ← g.peek
    if next.kind = .documentStart then
      emit .documentStart token.start ((g.defer .documentEnd).expect .documentContent).advance
    else .error ⟨.missingDocumentStart, next.start, none⟩
  match token.kind with
  | .streamEnd => emit .streamEnd token.start g.advance
  | .version _ _ => explicit
  | .handle _ _ => explicit
  | .documentStart => explicit
  | _ =>
    let g := { g with handles := defaultHandles }
    emit .documentStart token.start ((g.defer .documentEnd).expect .blockNode)

def documentContent (g : Grammar) : Result := do
  let token ← g.peek
  match token.kind with
  | .version _ _ => missing token.start g.resume
  | .handle _ _ => missing token.start g.resume
  | .documentStart => missing token.start g.resume
  | .documentEnd => missing token.start g.resume
  | .streamEnd => missing token.start g.resume
  | _ => g.node true false

def documentEnd (g : Grammar) : Result := do
  let token ← g.peek
  if token.kind = .documentEnd then emit .documentEnd token.start g.advance
  else emit .documentEnd token.start g

/-! ## Block collections -/

def blockItem (g : Grammar) : Result := do
  let token ← g.peek
  match token.kind with
  | .blockEntry =>
    let g := g.advance
    let next ← g.peek
    if next.kind = .blockEntry ∨ next.kind = .blockEnd then missing token.stop (g.expect .blockItem)
    else (g.defer .blockItem).node true false
  | .blockEnd => emit .sequenceEnd token.start g.leave.advance
  | _ => g.faultIn .blockCollection .missingDash token.start

def inlineItem (g : Grammar) : Result := do
  let token ← g.peek
  if token.kind = .blockEntry then
    let g := g.advance
    let next ← g.peek
    if next.kind = .blockEntry ∨ next.kind = .key ∨ next.kind = .value ∨ next.kind = .blockEnd then
      missing token.stop (g.expect .inlineItem)
    else (g.defer .inlineItem).node true false
  else emit .sequenceEnd token.start g.resume

def blockKey (g : Grammar) : Result := do
  let token ← g.peek
  match token.kind with
  | .key =>
    let g := g.advance
    let next ← g.peek
    if next.kind = .key ∨ next.kind = .value ∨ next.kind = .blockEnd then missing token.stop (g.expect .blockValue)
    else (g.defer .blockValue).node true true
  | .blockEnd => emit .mappingEnd token.start g.leave.advance
  | _ => g.faultIn .blockMapping .missingKey token.start

def blockValue (g : Grammar) : Result := do
  let token ← g.peek
  if token.kind = .value then
    let g := g.advance
    let next ← g.peek
    if next.kind = .key ∨ next.kind = .value ∨ next.kind = .blockEnd then missing token.stop (g.expect .blockKey)
    else (g.defer .blockKey).node true true
  else missing token.start (g.expect .blockKey)

/-! ## Flow collections -/

/-- passes over the comma before an item that is not the first -/
def comma (g : Grammar) (isFirst : Bool) (closer : TokenKind) (activity : Activity) (problem : Problem) :
    Except SyntaxFault Grammar := do
  let token ← g.peek
  if isFirst || token.kind == closer then return g
  else if token.kind = .flowEntry then
    let g := g.advance
    let _ ← g.peek
    return g
  else .error ⟨problem, token.start, g.starts.head?.map fun start => (activity, start)⟩

def flowItem (g : Grammar) (isFirst : Bool) : Result := do
  let g ← g.comma isFirst .flowSequenceEnd .flowSequence .missingCommaOrSquare
  let token ← g.peek
  match token.kind with
  | .flowSequenceEnd => emit .sequenceEnd token.start g.leave.advance
  | .key => emit (.mappingStart Properties.none) token.start (g.expect .flowPairKey).advance
  | _ => (g.defer .flowItem).node false false

/-- The key of a single pair in a flow sequence. Where there is none, the token that shows it is passed over. -/
def flowPairKey (g : Grammar) : Result := do
  let token ← g.peek
  if token.kind = .value ∨ token.kind = .flowEntry ∨ token.kind = .flowSequenceEnd then
    missing token.stop (g.expect .flowPairValue).advance
  else (g.defer .flowPairValue).node false false

def flowPairValue (g : Grammar) : Result := do
  let token ← g.peek
  if token.kind = .value then
    let g := g.advance
    let next ← g.peek
    if next.kind = .flowEntry ∨ next.kind = .flowSequenceEnd then missing next.start (g.expect .flowPairEnd)
    else (g.defer .flowPairEnd).node false false
  else missing token.start (g.expect .flowPairEnd)

def flowPairEnd (g : Grammar) : Result := do
  let token ← g.peek
  emit .mappingEnd token.start (g.expect .flowItem)

def flowKey (g : Grammar) (isFirst : Bool) : Result := do
  let g ← g.comma isFirst .flowMappingEnd .flowMapping .missingCommaOrBrace
  let token ← g.peek
  match token.kind with
  | .flowMappingEnd => emit .mappingEnd token.start g.leave.advance
  | .key =>
    let g := g.advance
    let next ← g.peek
    if next.kind = .value ∨ next.kind = .flowEntry ∨ next.kind = .flowMappingEnd then
      missing next.start (g.expect .flowValue)
    else (g.defer .flowValue).node false false
  | _ => (g.defer .flowEmptyValue).node false false

def flowValue (g : Grammar) : Result := do
  let token ← g.peek
  if token.kind = .value then
    let g := g.advance
    let next ← g.peek
    if next.kind = .flowEntry ∨ next.kind = .flowMappingEnd then missing next.start (g.expect .flowKey)
    else (g.defer .flowKey).node false false
  else missing token.start (g.expect .flowKey)

def flowEmptyValue (g : Grammar) : Result := do
  let token ← g.peek
  missing token.start (g.expect .flowKey)

/-! ## All events of a document -/

/-- the next event -/
def step (g : Grammar) : Result :=
  match g.expected with
  | .firstDocument => g.firstDocument
  | .documentContent => g.documentContent
  | .documentEnd => g.documentEnd
  | .blockNode => g.node true false
  | .blockItemFirst => do (← g.enter).blockItem
  | .blockItem => g.blockItem
  | .inlineItem => g.inlineItem
  | .blockKeyFirst => do (← g.enter).blockKey
  | .blockKey => g.blockKey
  | .blockValue => g.blockValue
  | .flowItemFirst => do (← g.enter).flowItem true
  | .flowItem => g.flowItem false
  | .flowPairKey => g.flowPairKey
  | .flowPairValue => g.flowPairValue
  | .flowPairEnd => g.flowPairEnd
  | .flowKeyFirst => do (← g.enter).flowKey true
  | .flowKey => g.flowKey false
  | .flowValue => g.flowValue
  | .flowEmptyValue => g.flowEmptyValue

/-- the grammar before the first document of a stream; the token of the stream's start is passed over -/
def ofTokens (stream : TokenStream) : Grammar :=
  ⟨stream.tokens.drop 1, stream.fault.getD ⟨.endInQuotes, Mark.zero, none⟩, .firstDocument, [], [], []⟩

/-- whether nothing but ends of documents comes before the end of the stream -/
def atStreamEnd : List Token → Bool
  | [] => false
  | token :: rest =>
    match token.kind with
    | .documentEnd => atStreamEnd rest
    | .streamEnd => true
    | _ => false

end Grammar

/-- The events of a stream's first document. A stream without documents has none. -/
structure DocumentEvents where
  events : List PlacedEvent
  /-- what ended the events early -/
  fault : Option SyntaxFault
  /-- whether the stream holds something after the document -/
  hasMore : Bool

/-- reads events to the end of the document or to a fault; `acc` holds those read so far in reverse -/
def readEvents : Nat → Grammar → List PlacedEvent → DocumentEvents
  | 0, g, acc => ⟨acc.reverse, some g.fault, false⟩
  | fuel + 1, g, acc =>
    match g.step with
    | .error fault => ⟨acc.reverse, some fault, false⟩
    | .ok (placed, g) =>
      match placed.event with
      | .streamEnd => ⟨acc.reverse, none, false⟩
      | .documentEnd => ⟨acc.reverse, none, !Grammar.atStreamEnd g.tokens⟩
      | .documentStart => readEvents fuel g acc
      | _ => readEvents fuel g (placed :: acc)

/-- the events of the first document; a token gives rise to at most four events -/
def DocumentEvents.ofTokens (stream : TokenStream) : DocumentEvents :=
  readEvents (4 * stream.tokens.length + 8) (Grammar.ofTokens stream) []

end WorkflowLint.Yaml
