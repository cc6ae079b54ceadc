/-
What a scalar stands for.

An unquoted scalar is null, a truth value, a whole number, a fraction or a string, in this order. A whole number that fits
neither 64 bits nor more than 128 is a fault; beyond 128 bits it is read as a fraction. Zeros before a whole number make it
a string. The four core tags say what a scalar is to be read as, whatever its quotes.
-/
import WorkflowLint.Decimal.Numeral
import WorkflowLint.Yaml.Fault
import WorkflowLint.Yaml.Value

namespace WorkflowLint.Yaml

def isNullText (text : List Char) : Bool :=
  ["~", "null", "Null", "NULL"].contains (String.ofList text)

def bool? (text : List Char) : Option Bool :=
  let word := String.ofList text
  if ["true", "True", "TRUE"].contains word then some true
  else if ["false", "False", "FALSE"].contains word then some false
  else none

/-- whether zeros stand before a whole number, apart from a sign -/
def isPadded (text : List Char) : Bool :=
  match (Numeral.sign text).2 with
  | '0' :: c :: rest => (c :: rest).all Text.isDigit
  | _ => false

/-- the digits of a number in one of the marked bases -/
def markedNatural? : List Char → Option Nat
  | '0' :: 'x' :: digits => Numeral.natural? 16 digits
  | '0' :: 'o' :: digits => Numeral.natural? 8 digits
  | '0' :: 'b' :: digits => Numeral.natural? 2 digits
  | _ => none

/-- a whole number: an optional sign, then decimal digits or a base and its digits -/
def integer? (text : List Char) : Option Int :=
  let (negative, digits) := Numeral.sign text
  let n :=
    match markedNatural? digits with
    | some n => some n
    | none => if isPadded text then none else Numeral.natural? 10 digits
  n.map fun n => if negative then -(n : Int) else n

/-- what width of machine integer a whole number needs -/
inductive Width where
  | narrow
  | wide
  | beyond
deriving DecidableEq, Repr

/-- 64 bits are narrow, 128 bits are wide; a number below zero has one bit less for its size. -/
def widthOf (n : Int) : Width :=
  if -Int.pow 2 63 ≤ n ∧ n < Int.pow 2 64 then .narrow
  else if -Int.pow 2 127 ≤ n ∧ n < Int.pow 2 128 then .wide
  else .beyond

/-- a fraction; what overflows is none -/
def float? (text : List Char) : Option Binary64 :=
  let unsigned :=
    match text with
    | '+' :: '+' :: _ => none
    | '+' :: '-' :: _ => none
    | '+' :: rest => some rest
    | _ => some text
  match unsigned with
  | none => none
  | some rest =>
    if [".inf", ".Inf", ".INF"].contains (String.ofList rest) then some (.infinite false)
    else if ["-.inf", "-.Inf", "-.INF"].contains (String.ofList text) then some (.infinite true)
    else if [".nan", ".NaN", ".NAN"].contains (String.ofList text) then some .nan
    else (Numeral.fraction? rest).filter Binary64.isFinite

/-- a whole number as a value, a fault if it is too wide, nothing if the text is no whole number in range -/
def integerValue? (text : List Char) : Option (Except ContentProblem Value) :=
  match integer? text with
  | none => none
  | some n =>
    match widthOf n with
    | .narrow => some (.ok (.int n))
    | .wide => some (.error (.wideInteger n))
    | .beyond => none

/-- what an unquoted scalar stands for -/
def plainValue (text : List Char) : Except ContentProblem Value :=
  if text.isEmpty || isNullText text then .ok .null
  else
    match bool? text with
    | some b => .ok (.bool b)
    | none =>
      match integerValue? text with
      | some result => result
      | none =>
        match if isPadded text then none else float? text with
        | some x => .ok (.float x)
        | none => .ok (.str (String.ofList text))

/-- a core tag: what its scalar is to be read as -/
inductive CoreTag where
  | bool
  | int
  | float
  | null
deriving DecidableEq, Repr

def coreTag? (tag : String) : Option CoreTag :=
  if tag = "tag:yaml.org,2002:bool" then some .bool
  else if tag = "tag:yaml.org,2002:int" then some .int
  else if tag = "tag:yaml.org,2002:float" then some .float
  else if tag = "tag:yaml.org,2002:null" then some .null
  else none

/-- what a scalar with a core tag stands for -/
def coreValue (tag : CoreTag) (text : List Char) : Except ContentProblem Value :=
  match tag with
  | .bool =>
    match bool? text with
    | some b => .ok (.bool b)
    | none => .error (.misfit text "a boolean")
  | .int => (integerValue? text).getD (.error (.misfit text "an integer"))
  | .float =>
    match float? text with
    | some x => .ok (.float x)
    | none => .error (.misfit text "a float")
  | .null => if isNullText text then .ok .null else .error (.misfit text "null")

end WorkflowLint.Yaml
