/-
What the linter reports: a message at a point inside an expression, or a message about a range of the document.
-/
import WorkflowLint.Position

namespace WorkflowLint

inductive Diagnostic where
  /-- a fault inside an expression -/
  | lexical (message : String) (position : Position)
  /-- a fault of the document around it -/
  | structural (message : String) (range : Range)
deriving DecidableEq, Repr

namespace Diagnostic

def message : Diagnostic → String
  | lexical message _ => message
  | structural message _ => message

/-- where it is; a point is an empty range -/
def range : Diagnostic → Range
  | lexical _ position => Range.point position
  | structural _ range => range

def start (diagnostic : Diagnostic) : Position :=
  diagnostic.range.start

/-- the family a diagnostic belongs to, for people -/
def family : Diagnostic → String
  | lexical _ _ => "YAQL syntax error"
  | structural _ _ => "Mistral error"

/-- the message with its family before it -/
def displayMessage (diagnostic : Diagnostic) : String :=
  diagnostic.family ++ ": " ++ diagnostic.message

end Diagnostic

end WorkflowLint
