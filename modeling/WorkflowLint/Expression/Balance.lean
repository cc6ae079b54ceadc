/-
Brackets of an expression.

`unbalanced` reads the tokens once with the stack of brackets that are open. A closing bracket that does not fit the
innermost open one is reported and changes nothing; what is still open at the end is reported after that, in the order in
which it was opened. `check` is everything that is wrong with one expression: first what the reading of its tokens finds,
then its brackets.
-/
import WorkflowLint.Expression.Segment

namespace WorkflowLint.Expression

open WorkflowLint.Text

namespace Bracket

def all : List Bracket :=
  [paren, square, brace]

/-- the bracket that a text opens -/
def opening? (text : List Char) : Option Bracket :=
  all.find? fun bracket => text == [bracket.opener]

/-- the bracket that a text closes -/
def closing? (text : List Char) : Option Bracket :=
  all.find? fun bracket => text == [bracket.closer]

end Bracket

/-- the faults of the brackets among the tokens, given the open brackets, innermost first -/
def unbalanced : List (Bracket × Position) → List Token → List LexicalError
  | stack, [] => stack.reverse.map fun (bracket, p) => ⟨.unclosed bracket, p⟩
  | stack, token :: rest =>
    if token.kind = .delimiter then
      match Bracket.opening? token.text, Bracket.closing? token.text with
      | some bracket, _ => unbalanced ((bracket, token.range.start) :: stack) rest
      | none, none => unbalanced stack rest
      | none, some bracket =>
        match stack with
        | (top, p) :: below =>
          if top = bracket then unbalanced below rest
          else ⟨.unmatched bracket, token.range.start⟩ :: unbalanced ((top, p) :: below) rest
        | [] => ⟨.unmatched bracket, token.range.start⟩ :: unbalanced [] rest
    else unbalanced stack rest

/-- every fault of an expression that begins at `origin`; a blank expression has none -/
def check (origin : Position) (text : List Char) : List LexicalError :=
  if (trim text).isEmpty then []
  else
    let (tokens, errors) := tokenize origin text
    errors ++ unbalanced [] tokens

end WorkflowLint.Expression
