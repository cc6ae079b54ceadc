/-
What can be wrong with one expression, and the wording of each fault.
-/
import WorkflowLint.Position

namespace WorkflowLint.Expression

inductive Bracket where
  | paren
  | square
  | brace
deriving DecidableEq, Repr

namespace Bracket

def opener : Bracket → Char
  | paren => '('
  | square => '['
  | brace => '{'

def closer : Bracket → Char
  | paren => ')'
  | square => ']'
  | brace => '}'

def noun : Bracket → String
  | paren => "parenthesis"
  | square => "bracket"
  | brace => "brace"

end Bracket

inductive Fault where
  /-- a character that begins no token -/
  | unexpectedCharacter (c : Char)
  /-- a string literal without its closing quote -/
  | unterminatedString
  /-- a decimal point with no digit after it -/
  | missingFraction
  /-- a closing bracket that does not fit the innermost open one -/
  | unmatched (bracket : Bracket)
  /-- an opening bracket that is never closed -/
  | unclosed (bracket : Bracket)
deriving DecidableEq, Repr

def Fault.message : Fault → String
  | .unexpectedCharacter c => "Unexpected character: " ++ String.singleton c
  | .unterminatedString => "Unterminated string literal"
  | .missingFraction => "Expected digit after decimal point"
  | .unmatched bracket => "Unmatched closing " ++ bracket.noun
  | .unclosed bracket => "Unclosed " ++ bracket.noun

/-- a fault and the point it is reported at -/
structure LexicalError where
  fault : Fault
  position : Position
deriving DecidableEq, Repr

def LexicalError.message (error : LexicalError) : String :=
  error.fault.message

end WorkflowLint.Expression
