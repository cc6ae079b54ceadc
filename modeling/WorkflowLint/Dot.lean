/-
Writing graphs in the DOT language, one item per line, indented by two spaces per open block.
-/

namespace WorkflowLint.Dot

inductive Item where
  | line (text : String)
  /-- opens a block with a heading -/
  | enter (heading : String)
  /-- closes the innermost block -/
  | leave
  | edge (source target : String) (label : Option String)
deriving DecidableEq, Repr

def quoteChar (c : Char) : List Char :=
  if c = '\\' ∨ c = '"' then ['\\', c] else [c]

/-- an identifier in double quotes, with quotes and backslashes escaped -/
def quote (id : String) : String :=
  "\"" ++ String.ofList (id.toList.flatMap quoteChar) ++ "\""

/-- a line at a depth -/
def indented (depth : Nat) (text : String) : String :=
  String.ofList (List.replicate (2 * depth) ' ') ++ text ++ "\n"

def edgeText (source target : String) : Option String → String
  | some label => quote source ++ " -> " ++ quote target ++ " [label=" ++ quote label ++ "];"
  | none => quote source ++ " -> " ++ quote target ++ ";"

/-- the text of an item at a depth, and the depth after it -/
def write (depth : Nat) : Item → String × Nat
  | .line text => (indented depth text, depth)
  | .enter heading => (indented depth (heading ++ " \x7b"), depth + 1)
  | .leave => (indented (depth - 1) "\x7d", depth - 1)
  | .edge source target label => (indented depth (edgeText source target label), depth)

/-- the text of each item, from a depth on -/
def writeAll (depth : Nat) : List Item → List String
  | [] => []
  | item :: rest =>
    let (text, depth) := write depth item
    text :: writeAll depth rest

/-- the text of all items -/
def render (items : List Item) : String :=
  String.join (writeAll 0 items)

end WorkflowLint.Dot
