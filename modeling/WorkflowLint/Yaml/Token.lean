/-
Tokens of YAML: the indicators, names, tags and scalars of a text, with block structure made explicit by tokens that
stand for indentation.
-/
import WorkflowLint.Yaml.Mark

namespace WorkflowLint.Yaml

/-- The text of a tag. An escaped character whose bytes encode no character is `none`. -/
abbrev TagText := List (Option Char)

inductive TokenKind where
  | streamStart
  | streamEnd
  | version (major minor : Nat)
  | handle (name : List Char) (expansion : TagText)
  | documentStart
  | documentEnd
  | blockSequenceStart
  | blockMappingStart
  | blockEnd
  | flowSequenceStart
  | flowSequenceEnd
  | flowMappingStart
  | flowMappingEnd
  | blockEntry
  | flowEntry
  | key
  | value
  | aliased (name : List Char)
  | anchor (name : List Char)
  | tag (handle : List Char) (suffix : TagText)
  | scalar (text : List Char) (isPlain : Bool)
deriving DecidableEq, Repr

/-- a token, where it begins and where it ends -/
structure Token where
  kind : TokenKind
  start : Mark
  stop : Mark
deriving DecidableEq, Repr

end WorkflowLint.Yaml
