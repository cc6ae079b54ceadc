/-
Values of YAML documents.

A mapping keeps its entries in document order. Two values are the same key if they agree up to the order of entries in
mappings; whole numbers and fractions never agree. `Value.bare` looks through tags, and the accessors that follow it go by
the bare value, so that a tag on a value changes nothing they return.
-/
import WorkflowLint.Decimal.Shortest

namespace WorkflowLint.Yaml

inductive Value where
  | null
  | bool (b : Bool)
  | int (n : Int)
  | float (x : Binary64)
  | str (s : String)
  | seq (items : List Value)
  | map (entries : List (Value × Value))
  /-- a value with a tag, given without the mark that tags begin with -/
  | tagged (tag : String) (value : Value)
deriving Repr, Inhabited

/-- the entries of a mapping, in document order -/
abbrev Mapping := List (Value × Value)

namespace Value

/-! ## Sameness of keys -/

mutual

/-- whether two values are the same key -/
def same : Value → Value → Bool
  | null, null => true
  | bool a, bool b => a == b
  | int a, int b => a == b
  | float x, float y => x.same y
  | str s, str t => s == t
  | seq xs, seq ys => sameItems xs ys
  | map xs, map ys => xs.length == ys.length && sameEntries xs ys
  | tagged s x, tagged t y => s == t && same x y
  | _, _ => false

/-- whether two sequences agree item by item -/
def sameItems : List Value → List Value → Bool
  | [], [] => true
  | x :: xs, y :: ys => same x y && sameItems xs ys
  | _, _ => false

/-- whether every entry of the first mapping has its equal in the second -/
def sameEntries : List (Value × Value) → List (Value × Value) → Bool
  | [], _ => true
  | (k, v) :: xs, ys => (ys.any fun entry => same k entry.1 && same v entry.2) && sameEntries xs ys

end

/-! ## Looking through tags -/

/-- the value without its tags -/
def bare : Value → Value
  | tagged _ value => bare value
  | value => value

def mapping? (value : Value) : Option Mapping :=
  match value.bare with
  | map entries => some entries
  | _ => none

def items? (value : Value) : Option (List Value) :=
  match value.bare with
  | seq items => some items
  | _ => none

def string? (value : Value) : Option String :=
  match value.bare with
  | str s => some s
  | _ => none

def isNull (value : Value) : Bool :=
  match value.bare with
  | null => true
  | _ => false

/-- How a value is named in messages and as a key: a scalar by its text, a collection by a placeholder. -/
def label (value : Value) : String :=
  match value.bare with
  | null => "null"
  | bool b => if b then "true" else "false"
  | int n => toString n
  | float x => String.ofList x.text
  | str s => s
  | seq _ => "[...]"
  | map _ => "\x7b...\x7d"
  | tagged _ _ => ""

end Value

namespace Mapping

/-- the value of the entry whose key is the given string, null or not -/
def field? (entries : Mapping) (key : String) : Option Value :=
  match entries with
  | [] => none
  | (.str k, value) :: rest => if k = key then some value else field? rest key
  | _ :: rest => field? rest key

/-- the value of the entry whose key is the given string, unless it is null -/
def present? (entries : Mapping) (key : String) : Option Value :=
  (field? entries key).filter fun value => !value.isNull

/-- the labels of the keys, in document order -/
def labels (entries : Mapping) : List String :=
  entries.map fun entry => entry.1.label

end Mapping

/-- the labels of a mapping's keys; none for any other value -/
def Value.keyLabels (value : Value) : List String :=
  match value.mapping? with
  | some entries => Mapping.labels entries
  | none => []

end WorkflowLint.Yaml
