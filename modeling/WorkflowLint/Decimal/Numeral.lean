/-
Numerals: how digits are read as whole numbers in a base, and as decimal fractions.
-/
import WorkflowLint.Decimal.Binary64
import WorkflowLint.Text.Blank

namespace WorkflowLint

namespace Numeral

open WorkflowLint.Text

/-- the value of a digit in a base up to sixteen -/
def digit? (base : Nat) (c : Char) : Option Nat :=
  let n :=
    if isDigit c then some (c.toNat - '0'.toNat)
    else if 'a' ≤ c ∧ c ≤ 'f' then some (c.toNat - 'a'.toNat + 10)
    else if 'A' ≤ c ∧ c ≤ 'F' then some (c.toNat - 'A'.toNat + 10)
    else none
  n.filter fun d => d < base

/-- the value of the digits, read after a number that is already `acc` -/
def readFrom (base acc : Nat) : List Char → Option Nat
  | [] => some acc
  | c :: rest => (digit? base c).bind fun d => readFrom base (acc * base + d) rest

/-- the value of one digit or more in a base -/
def natural? (base : Nat) (text : List Char) : Option Nat :=
  if text.isEmpty then none else readFrom base 0 text

/-- a sign, if there is one, and what follows it; the flag is set for a minus -/
def sign : List Char → Bool × List Char
  | '-' :: rest => (true, rest)
  | '+' :: rest => (false, rest)
  | text => (false, text)

/-- the exponent after the digits of a fraction: nothing, or a mark, an optional sign and digits -/
def exponent? : List Char → Option Int
  | [] => some 0
  | c :: rest =>
    if c = 'e' ∨ c = 'E' then
      let (negative, digits) := sign rest
      (natural? 10 digits).map fun n => if negative then -(n : Int) else n
    else none

/-- The number written as an optional sign, digits with an optional point among them, and an optional exponent. There is
at least one digit before the exponent. -/
def fraction? (text : List Char) : Option Binary64 :=
  let (negative, text) := sign text
  let whole := text.takeWhile isDigit
  let (part, rest) :=
    match text.dropWhile isDigit with
    | '.' :: tail => (tail.takeWhile isDigit, tail.dropWhile isDigit)
    | tail => ([], tail)
  match natural? 10 (whole ++ part), exponent? rest with
  | some digits, some e => some (Binary64.ofDecimal negative digits (e - part.length))
  | _, _ => none

end Numeral

end WorkflowLint
