/-
What an expression refers to by name: variables, written `$.name`, and tasks, written `task('name')` or `task("name")`.

References are found in the raw text of the expression. No reference can begin inside another one, so looking at every
character in turn finds them all, from left to right.
-/
import WorkflowLint.Text.Blank

namespace WorkflowLint.Expression

open WorkflowLint.Text

/-- the variable reference at the very front of a text -/
def variableAt : List Char → Option (List Char)
  | '$' :: '.' :: c :: rest => if startsWord c then some (c :: rest.takeWhile continuesWord) else none
  | _ => none

/-- the names after `$.`, in order and with repetitions -/
def variableNames : List Char → List (List Char)
  | [] => []
  | c :: rest =>
    match variableAt (c :: rest) with
    | some name => name :: variableNames rest
    | none => variableNames rest

/-- what a referenced task's name may consist of -/
def isTaskNameChar (c : Char) : Bool :=
  isLetter c || isDigit c || c == '_' || c == '-'

def isQuote (c : Char) : Bool :=
  c == '\'' || c == '"'

/-- the task reference at the very front of a text; the two quotes need not be alike -/
def taskAt : List Char → Option (List Char)
  | 't' :: 'a' :: 's' :: 'k' :: '(' :: q :: rest =>
    if isQuote q then
      match rest.takeWhile isTaskNameChar, rest.dropWhile isTaskNameChar with
      | [], _ => none
      | name, q' :: ')' :: _ => if isQuote q' then some name else none
      | _, _ => none
    else none
  | _ => none

/-- the names of the tasks referred to, in order and with repetitions -/
def taskReferences : List Char → List (List Char)
  | [] => []
  | c :: rest =>
    match taskAt (c :: rest) with
    | some name => name :: taskReferences rest
    | none => taskReferences rest

end WorkflowLint.Expression
