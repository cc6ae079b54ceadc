/-
JSON values, their text over several lines, and the JSON form of diagnostics.

In the text, each item stands on a line of its own, two spaces deeper than the collection it belongs to; what is outside
ASCII stands for itself. When a diagnostic is read, fields that it does not have are passed over, all of its own must be
there, and a structure may also be given as the list of its fields.
-/
import WorkflowLint.Diagnostic

namespace WorkflowLint

inductive Json where
  | null
  | bool (b : Bool)
  | int (n : Int)
  /-- a number that is written as a fraction or with an exponent -/
  | fraction
  | str (s : String)
  | arr (items : List Json)
  | obj (fields : List (String × Json))
deriving Repr, Inhabited

namespace Json

/-! ## Text -/

/-- a digit of a number below sixteen -/
def hexDigit (n : Nat) : Char :=
  (Nat.digitChar n)

def escapeChar (c : Char) : List Char :=
  if c = '"' then ['\\', '"']
  else if c = '\\' then ['\\', '\\']
  else if c = '\n' then ['\\', 'n']
  else if c = '\r' then ['\\', 'r']
  else if c = '\t' then ['\\', 't']
  else if c = '\x08' then ['\\', 'b']
  else if c = '\x0c' then ['\\', 'f']
  else if c.toNat < 0x20 then ['\\', 'u', '0', '0', hexDigit (c.toNat / 16), hexDigit (c.toNat % 16)]
  else [c]

/-- a string in double quotes -/
def quote (s : String) : String :=
  "\"" ++ String.ofList (s.toList.flatMap escapeChar) ++ "\""

/-- a new line at a depth -/
def newLine (depth : Nat) : String :=
  "\n" ++ String.ofList (List.replicate (2 * depth) ' ')

mutual

/-- the text of a value at a depth -/
def render (depth : Nat) : Json → String
  | null => "null"
  | bool b => if b then "true" else "false"
  | int n => toString n
  | fraction => "0.0"
  | str s => quote s
  | arr [] => "[]"
  | arr (item :: rest) =>
    "[" ++ newLine (depth + 1) ++ render (depth + 1) item ++ renderItems (depth + 1) rest ++ newLine depth ++ "]"
  | obj [] => "\x7b\x7d"
  | obj ((key, value) :: rest) =>
    "\x7b" ++ newLine (depth + 1) ++ quote key ++ ": " ++ render (depth + 1) value ++ renderFields (depth + 1) rest ++
      newLine depth ++ "\x7d"

/-- the text of the items after the first -/
def renderItems (depth : Nat) : List Json → String
  | [] => ""
  | item :: rest => "," ++ newLine depth ++ render depth item ++ renderItems depth rest

/-- the text of the fields after the first -/
def renderFields (depth : Nat) : List (String × Json) → String
  | [] => ""
  | (key, value) :: rest =>
    "," ++ newLine depth ++ quote key ++ ": " ++ render depth value ++ renderFields depth rest

end

/-! ## Access -/

/-- the values of the named fields: of an object by name, of a list by place -/
def fields? (names : List String) : Json → Option (List Json)
  | obj fields => names.mapM fun name => fields.lookup name
  | arr items => if items.length = names.length then some items else none
  | _ => none

def string? : Json → Option String
  | str s => some s
  | _ => none

/-- a whole number of 32 bits -/
def word? : Json → Option Nat
  | int n => if 0 ≤ n ∧ n < Int.pow 2 32 then some n.toNat else none
  | _ => none

end Json

/-! ## Diagnostics -/

def Position.toJson (p : Position) : Json :=
  .obj [("line", .int p.line), ("character", .int p.character)]

def Position.ofJson? (json : Json) : Option Position :=
  match json.fields? ["line", "character"] with
  | some [line, character] => do return ⟨← line.word?, ← character.word?⟩
  | _ => none

def Range.toJson (range : Range) : Json :=
  .obj [("start", range.start.toJson), ("end", range.stop.toJson)]

/-- the range with the given ends, in whatever order they come -/
def Range.ofJson? (json : Json) : Option Range :=
  match json.fields? ["start", "end"] with
  | some [start, stop] => do return ⟨← Position.ofJson? start, ← Position.ofJson? stop⟩
  | _ => none

namespace Diagnostic

def toJson : Diagnostic → Json
  | lexical message position =>
    .obj [("kind", .str "lexical"), ("message", .str message), ("position", position.toJson)]
  | structural message range =>
    .obj [("kind", .str "structural"), ("message", .str message), ("range", range.toJson)]

def lexicalOfJson? (json : Json) : Option Diagnostic :=
  match json.fields? ["message", "position"] with
  | some [message, position] => do return lexical (← message.string?) (← Position.ofJson? position)
  | _ => none

def structuralOfJson? (json : Json) : Option Diagnostic :=
  match json.fields? ["message", "range"] with
  | some [message, range] => do return structural (← message.string?) (← Range.ofJson? range)
  | _ => none

/-- a diagnostic of a kind from its other fields -/
def ofKind? (kind : String) (json : Json) : Option Diagnostic :=
  if kind = "lexical" then lexicalOfJson? json
  else if kind = "structural" then structuralOfJson? json
  else none

def ofJson? : Json → Option Diagnostic
  | .obj fields =>
    match fields.lookup "kind" with
    | some (.str kind) => ofKind? kind (.obj fields)
    | _ => none
  | .arr (.str kind :: rest) => ofKind? kind (.arr rest)
  | _ => none

end Diagnostic

end WorkflowLint
