/-
Everything that can be wrong with a YAML text, and the wording of each fault.

A fault of the notation names a problem and its place, and mostly what was being read and where that began. A fault of the
content names the path to the value it is about. Places are one-based when shown; the very beginning is not shown.
-/
import WorkflowLint.Text.Quoted
import WorkflowLint.Yaml.Mark

namespace WorkflowLint.Yaml

/-! ## Notation -/

inductive Problem where
  | controlCharacter
  | noToken
  | missingColon
  | misplacedEntry
  | misplacedKey
  | misplacedValue
  | missingDirectiveName
  | malformedDirectiveName
  | unknownDirective
  | missingLineEnd
  | missingVersionNumber
  | longVersionNumber
  | missingVersionPoint
  | missingBlank
  | missingGap
  | malformedAnchor
  | missingAngle
  | missingBang
  | missingUri
  | missingOctet
  | badLeadingOctet
  | badTrailingOctet
  | zeroIndentation
  | tabForIndentation
  | documentMarkInQuotes
  | endInQuotes
  | unknownEscape
  | missingHexadecimal
  | badCodePoint
  | flowColon
  | tabViolatesIndentation
  | missingDocumentStart
  | incompatibleVersion
  | duplicateVersion
  | duplicateHandle
  | undefinedHandle
  | missingNode
  | missingDash
  | missingKey
  | missingCommaOrSquare
  | missingCommaOrBrace
deriving DecidableEq, Repr

def Problem.message : Problem → String
  | controlCharacter => "control characters are not allowed"
  | noToken => "found character that cannot start any token"
  | missingColon => "could not find expected ':'"
  | misplacedEntry => "block sequence entries are not allowed in this context"
  | misplacedKey => "mapping keys are not allowed in this context"
  | misplacedValue => "mapping values are not allowed in this context"
  | missingDirectiveName => "could not find expected directive name"
  | malformedDirectiveName => "found unexpected non-alphabetical character"
  | unknownDirective => "found unknown directive name"
  | missingLineEnd => "did not find expected comment or line break"
  | missingVersionNumber => "did not find expected version number"
  | longVersionNumber => "found extremely long version number"
  | missingVersionPoint => "did not find expected digit or '.' character"
  | missingBlank => "did not find expected whitespace"
  | missingGap => "did not find expected whitespace or line break"
  | malformedAnchor => "did not find expected alphabetic or numeric character"
  | missingAngle => "did not find the expected '>'"
  | missingBang => "did not find expected '!'"
  | missingUri => "did not find expected tag URI"
  | missingOctet => "did not find URI escaped octet"
  | badLeadingOctet => "found an incorrect leading UTF-8 octet"
  | badTrailingOctet => "found an incorrect trailing UTF-8 octet"
  | zeroIndentation => "found an indentation indicator equal to 0"
  | tabForIndentation => "found a tab character where an indentation space is expected"
  | documentMarkInQuotes => "found unexpected document indicator"
  | endInQuotes => "found unexpected end of stream"
  | unknownEscape => "found unknown escape character"
  | missingHexadecimal => "did not find expected hexadecimal number"
  | badCodePoint => "found invalid Unicode character escape code"
  | flowColon => "found unexpected ':'"
  | tabViolatesIndentation => "found a tab character that violates indentation"
  | missingDocumentStart => "did not find expected <document start>"
  | incompatibleVersion => "found incompatible YAML document"
  | duplicateVersion => "found duplicate %YAML directive"
  | duplicateHandle => "found duplicate %TAG directive"
  | undefinedHandle => "found undefined tag handle"
  | missingNode => "did not find expected node content"
  | missingDash => "did not find expected '-' indicator"
  | missingKey => "did not find expected key"
  | missingCommaOrSquare => "did not find expected ',' or ']'"
  | missingCommaOrBrace => "did not find expected ',' or '\x7d'"

/-- what was being read when a problem was met -/
inductive Activity where
  | simpleKey
  | nextToken
  | directive
  | versionDirective
  | tagDirective
  | tagDirectiveUri
  | tagDirectiveHandle
  | tagDirectiveBareHandle
  | tag
  | tagUri
  | anchor
  | aliased
  | blockScalar
  | quotedScalar
  | quotedEscape
  | plainScalar
  | node
  | blockNode
  | flowNode
  | blockCollection
  | blockMapping
  | flowSequence
  | flowMapping
deriving DecidableEq, Repr

def Activity.message : Activity → String
  | simpleKey => "while scanning a simple key"
  | nextToken => "while scanning for the next token"
  | directive => "while scanning a directive"
  | versionDirective => "while scanning a %YAML directive"
  | tagDirective => "while scanning a %TAG directive"
  | tagDirectiveUri => "while parsing a %TAG directive"
  | tagDirectiveHandle => "while scanning a tag directive"
  | tagDirectiveBareHandle => "while parsing a tag directive"
  | tag => "while scanning a tag"
  | tagUri => "while parsing a tag"
  | anchor => "while scanning an anchor"
  | aliased => "while scanning an alias"
  | blockScalar => "while scanning a block scalar"
  | quotedScalar => "while scanning a quoted scalar"
  | quotedEscape => "while parsing a quoted scalar"
  | plainScalar => "while scanning a plain scalar"
  | node => "while parsing a node"
  | blockNode => "while parsing a block node"
  | flowNode => "while parsing a flow node"
  | blockCollection => "while parsing a block collection"
  | blockMapping => "while parsing a block mapping"
  | flowSequence => "while parsing a flow sequence"
  | flowMapping => "while parsing a flow mapping"

/-- a problem and its place, and what was being read and where that began -/
structure SyntaxFault where
  problem : Problem
  mark : Mark
  context : Option (Activity × Mark)
deriving DecidableEq, Repr

/-! ## Content -/

/-- why an event's content gives no value -/
inductive ContentProblem where
  /-- a second entry for a key; the description shows the key -/
  | duplicateKey (description : String)
  /-- a whole number that fits 128 bits but not 64 -/
  | wideInteger (value : Int)
  /-- a scalar that its tag does not fit -/
  | misfit (text : List Char) (expected : String)
deriving DecidableEq, Repr

def ContentProblem.message : ContentProblem → String
  | duplicateKey description => "duplicate entry " ++ description
  | wideInteger value =>
    "invalid type: integer `" ++ toString value ++ "` as " ++ (if value < 0 then "i128" else "u128") ++
      ", expected any YAML value"
  | misfit text expected => "invalid value: string " ++ String.ofList (Text.quoted text) ++ ", expected " ++ expected

/-! ## All faults -/

inductive Fault where
  | malformed (fault : SyntaxFault)
  | unknownAnchor (mark : Mark)
  /-- collections nested too deeply -/
  | depthLimit (mark : Mark)
  /-- aliases expanded too often -/
  | aliasLimit
  | secondDocument
  | content (path : String) (problem : ContentProblem) (mark : Mark)
deriving DecidableEq, Repr

/-- ` at line L column C`, or ` at position N` for a place that is known by its byte offset only, or nothing for the beginning
of the text -/
def Mark.suffix (mark : Mark) : String :=
  if mark.line = 0 ∧ mark.column = 0 then
    if mark.index = 0 then "" else " at position " ++ toString mark.index
  else " at line " ++ toString (mark.line + 1) ++ " column " ++ toString (mark.column + 1)

def SyntaxFault.message (fault : SyntaxFault) : String :=
  fault.problem.message ++ fault.mark.suffix ++
    match fault.context with
    | none => ""
    | some (activity, mark) =>
      ", " ++ activity.message ++
        (if mark.line = fault.mark.line ∧ mark.column = fault.mark.column then "" else mark.suffix)

def Fault.message : Fault → String
  | malformed fault => fault.message
  | unknownAnchor mark => "unknown anchor" ++ mark.suffix
  | depthLimit mark => "recursion limit exceeded" ++ mark.suffix
  | aliasLimit => "repetition limit exceeded"
  | secondDocument => "deserializing from YAML containing more than one document is not supported"
  | content path problem mark => (if path = "." then "" else path ++ ": ") ++ problem.message ++ mark.suffix

end WorkflowLint.Yaml
