/-
The vocabulary of the expression language: kinds of token, and the fixed tables of its operators, delimiters, keywords
and functions.
-/
import WorkflowLint.Position
import WorkflowLint.Text.Blank

namespace WorkflowLint.Expression

inductive TokenKind where
  | operator
  | delimiter
  | keyword
  | function
  | identifier
  | string
  | number
deriving DecidableEq, Repr

/-- A token and where it stands. The text of a string literal is its value, without quotes and escapes; every other token
has the text it was read from. -/
structure Token where
  kind : TokenKind
  text : List Char
  range : Range
deriving DecidableEq, Repr

/-- operators spelled with symbols, longer ones before their own beginnings -/
def symbolOperators : List (List Char) :=
  [['>', '='], ['<', '='], ['!', '='], ['+'], ['-'], ['*'], ['/'], ['%'], ['='], ['<'], ['>']]

/-- operators spelled as words; such an operator is a whole word, never the beginning of a longer one -/
def wordOperators : List String :=
  ["and", "not", "or", "in"]

def delimiters : List Char :=
  ['(', ')', '{', '}', '[', ']', ',', ';', '?', ':', '$', '.']

def keywords : List String :=
  ["let", "where", "select", "selectMany", "limit", "skip", "true", "false", "null", "if", "then", "else", "switch",
    "case"]

def functions : List String :=
  ["concat", "join", "len", "split", "str", "regex", "match", "replace", "contains", "toLower", "toUpper", "trim",
    "endsWith", "startsWith", "int", "float", "abs", "round", "floor", "ceiling", "pow", "mod", "list", "dict", "sum",
    "avg", "min", "max", "distinct", "count", "fold", "filter", "range", "first", "last", "any", "all", "task", "env",
    "json_escape", "execute", "get_param", "get_attr"]

/-- the kind of a word that is not an operator -/
def classify (word : List Char) : TokenKind :=
  if keywords.contains (String.ofList word) then .keyword
  else if functions.contains (String.ofList word) then .function
  else .identifier

end WorkflowLint.Expression
