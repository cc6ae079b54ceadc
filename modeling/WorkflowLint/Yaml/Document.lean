/-
From a YAML text to its value.

Events are converted in reading order, so of several faults the first in the text is the one reported; a fault of the
notation counts where the events end. An alias is expanded at its place. Every anchor gets a number: how many different
names were anchored before it. An alias keeps the number its name had when it was read, and stands for the last node with
that number. Depth and the count of expansions are limited.

`parse` is total: the conversion runs on a bound that is computed from the number of events and never reached.
-/
import WorkflowLint.Yaml.Event
import WorkflowLint.Yaml.Resolve

namespace WorkflowLint.Yaml

/-! ## Anchors -/

/-- an event of a document with its aliases numbered -/
inductive Item where
  | aliased (number : Nat)
  | scalar (tag : Option TagText) (text : List Char) (isPlain : Bool)
  | sequenceStart (tag : Option TagText)
  | sequenceEnd
  | mappingStart (tag : Option TagText)
  | mappingEnd
deriving DecidableEq, Repr

/-- an item and where it begins -/
structure PlacedItem where
  item : Item
  mark : Mark
deriving DecidableEq, Repr

/-- the names anchored so far, latest first, each with its number, and the places of numbered nodes, latest first -/
structure Anchors where
  names : List (List Char × Nat)
  places : List (Nat × Nat)

/-- the anchors after a node at a place -/
def Anchors.record (anchors : Anchors) (place : Nat) : Option (List Char) → Anchors
  | none => anchors
  | some name =>
    let number := anchors.names.length
    ⟨(name, number) :: anchors.names.filter fun entry => entry.1 != name, (number, place) :: anchors.places⟩

/-- the items of a document, the places its aliases stand for, and what ended the items early -/
structure Items where
  items : List PlacedItem
  places : List (Nat × Nat)
  fault : Option Fault

/-- numbers the aliases of events whose first one has the place `n`; an alias of no anchor ends them -/
def numberFrom (fault : Option Fault) : Nat → Anchors → List PlacedEvent → Items
  | _, anchors, [] => ⟨[], anchors.places, fault⟩
  | n, anchors, ⟨event, mark⟩ :: rest =>
    let go (item : Item) (anchors : Anchors) : Items :=
      let tail := numberFrom fault (n + 1) anchors rest
      { tail with items := ⟨item, mark⟩ :: tail.items }
    match event with
    | .aliased name =>
      match anchors.names.lookup name with
      | some number => go (.aliased number) anchors
      | none => ⟨[], anchors.places, some (.unknownAnchor mark)⟩
    | .scalar properties text isPlain =>
      go (.scalar properties.tag text isPlain) (anchors.record n properties.anchor)
    | .sequenceStart properties => go (.sequenceStart properties.tag) (anchors.record n properties.anchor)
    | .mappingStart properties => go (.mappingStart properties.tag) (anchors.record n properties.anchor)
    | .sequenceEnd => go .sequenceEnd anchors
    | .mappingEnd => go .mappingEnd anchors
    | _ => numberFrom fault n anchors rest

/-! ## Tags -/

/-- the text of a tag, unless some of it encodes no character -/
def tagString? (tag : TagText) : Option (List Char) :=
  tag.mapM id

/-- a text without the `!` it begins with, unless that is all of it -/
def dropBang : List Char → List Char
  | '!' :: c :: rest => c :: rest
  | text => text

/-- the name of a tag that makes a tagged value: one that begins with `!` -/
def localTag? (tag : Option TagText) : Option String :=
  match tag with
  | some (some '!' :: rest) =>
    (tagString? (some '!' :: rest)).map fun text => String.ofList (dropBang (dropBang text))
  | _ => none

/-- the value of a scalar whose tag does not make it a tagged value -/
def scalarValue (tag : Option TagText) (text : List Char) (isPlain : Bool) : Except ContentProblem Value :=
  let untagged := if isPlain then plainValue text else .ok (.str (String.ofList text))
  match tag with
  | none => untagged
  | some tag =>
    match (tagString? tag).bind fun t => coreTag? (String.ofList t) with
    | some core => coreValue core text
    | none => if tag.head? = some (some '!') then untagged else .ok (.str (String.ofList text))

/-! ## Values -/

/-- the way from the root of a document to a value -/
inductive Path where
  | root
  | item (parent : Path) (index : Nat)
  | entry (parent : Path) (key : String)
  /-- below a key that is no scalar -/
  | unnamed (parent : Path)
deriving DecidableEq, Repr

def Path.text : Path → String
  | root => "."
  | item parent index => parent.text ++ "[" ++ toString index ++ "]"
  | entry parent key => (if parent = root then "" else parent.text ++ ".") ++ key
  | unnamed parent => (if parent = root then "" else parent.text ++ ".") ++ "?"

/-- how a key is named when it comes up again -/
def keyDescription : Value → String
  | .null => "with null key"
  | .bool b => "with key `" ++ (if b then "true" else "false") ++ "`"
  | .int n => "with key " ++ toString n
  | .float x => "with key " ++ String.ofList x.text
  | .str s => "with key " ++ String.ofList (Text.quoted s.toList)
  | _ => "in YAML map"

/-- what stays the same while a document is converted -/
structure Source where
  items : List PlacedItem
  places : List (Nat × Nat)
  /-- why there are no items after these -/
  fault : Fault

/-- a value, the items after it, and the number of aliases expanded up to there -/
structure Converted (α : Type) where
  value : α
  rest : List PlacedItem
  expansions : Nat

/-- most aliases that may be expanded -/
def Source.aliasLimit (source : Source) : Nat :=
  100 * source.items.length

mutual

/-- Converts the next node. `depth` more collections may be nested; `tagDone` says that a tag here is already dealt with,
which does not hold for the node that an alias stands for. -/
def convert (source : Source) : Nat → Nat → Bool → Path → List PlacedItem → Nat → Except Fault (Converted Value)
  | 0, _, _, _, _, _ => .error source.fault
  | _ + 1, _, _, _, [], _ => .error source.fault
  | fuel + 1, depth, tagDone, path, ⟨item, mark⟩ :: rest, expansions =>
    match item with
    | .aliased number =>
      if source.aliasLimit < expansions + 1 then .error .aliasLimit
      else
        match source.places.lookup number with
        | none => .error source.fault
        | some place => do
          let target ← convert source fuel depth false path (source.items.drop place) (expansions + 1)
          return ⟨target.value, rest, target.expansions⟩
    | .scalar tag text isPlain =>
      let name := if tagDone then none else localTag? tag
      let result :=
        match name with
        | some name => (scalarValue none text isPlain).map (Value.tagged name)
        | none => scalarValue (if tagDone then none else tag) text isPlain
      match result with
      | .ok value => .ok ⟨value, rest, expansions⟩
      | .error problem => .error (.content path.text problem mark)
    | .sequenceStart tag =>
      if depth = 0 then .error (.depthLimit mark)
      else do
        let items ← convertItems source fuel (depth - 1) path 0 rest expansions []
        let value := Value.seq items.value
        let name := if tagDone then none else localTag? tag
        return ⟨match name with | some name => .tagged name value | none => value, items.rest, items.expansions⟩
    | .mappingStart tag =>
      if depth = 0 then .error (.depthLimit mark)
      else do
        let name := if tagDone then none else localTag? tag
        let entries ← convertEntries source fuel (depth - 1) (tagDone || name.isSome) path mark rest expansions []
        let value := Value.map entries.value
        return ⟨match name with | some name => .tagged name value | none => value, entries.rest, entries.expansions⟩
    | _ => .error source.fault
termination_by structural fuel => fuel

/-- converts the items of a sequence from the one with the number `index` on; `acc` holds those before it in reverse -/
def convertItems (source : Source) :
    Nat → Nat → Path → Nat → List PlacedItem → Nat → List Value → Except Fault (Converted (List Value))
  | 0, _, _, _, _, _, _ => .error source.fault
  | _ + 1, _, _, _, [], _, _ => .error source.fault
  | fuel + 1, depth, path, index, ⟨item, mark⟩ :: rest, expansions, acc =>
    if item = .sequenceEnd then .ok ⟨acc.reverse, rest, expansions⟩
    else do
      let first ← convert source fuel depth false (.item path index) (⟨item, mark⟩ :: rest) expansions
      convertItems source fuel depth path (index + 1) first.rest first.expansions (first.value :: acc)
termination_by structural fuel => fuel

/-- Converts the entries of a mapping that begins at `start`; `acc` holds those before in reverse. The tag of a key is
dealt with if that of the mapping was. -/
def convertEntries (source : Source) :
    Nat → Nat → Bool → Path → Mark → List PlacedItem → Nat → Mapping → Except Fault (Converted Mapping)
  | 0, _, _, _, _, _, _, _ => .error source.fault
  | _ + 1, _, _, _, _, [], _, _ => .error source.fault
  | fuel + 1, depth, tagDone, path, start, ⟨item, mark⟩ :: rest, expansions, acc =>
    if item = .mappingEnd then .ok ⟨acc.reverse, rest, expansions⟩
    else do
      let key ← convert source fuel depth tagDone path (⟨item, mark⟩ :: rest) expansions
      match acc.find? fun entry => entry.1.same key.value with
      | some entry => .error (.content path.text (.duplicateKey (keyDescription entry.1)) start)
      | none =>
        let below :=
          match item with
          | .scalar _ text _ => Path.entry path (String.ofList text)
          | _ => Path.unnamed path
        let value ← convert source fuel depth false below key.rest key.expansions
        convertEntries source fuel depth tagDone path start value.rest value.expansions
          ((key.value, value.value) :: acc)
termination_by structural fuel => fuel

end

/-! ## Texts -/

/-- most collections that may be nested -/
def depthLimit : Nat := 128

/-- the value of a document's events -/
def valueOf (document : DocumentEvents) : Except Fault Value :=
  let items := numberFrom (document.fault.map Fault.malformed) 0 ⟨[], []⟩ document.events
  match items.items, items.fault with
  | [], none => .ok .null
  | _, fault => do
    let source : Source := ⟨items.items, items.places, fault.getD .secondDocument⟩
    let fuel := 2 * (depthLimit + 2) * (items.items.length + 2)
    let result ← convert source fuel depthLimit false .root items.items 0
    match fault with
    | some fault => .error fault
    | none => if document.hasMore then .error .secondDocument else return result.value

/-- The value of a text that holds at most one document. White space alone is null. -/
def parse (text : List Char) : Except Fault Value :=
  if (Text.trim text).isEmpty then .ok .null
  else valueOf (DocumentEvents.ofTokens (TokenStream.ofText text))

end WorkflowLint.Yaml
