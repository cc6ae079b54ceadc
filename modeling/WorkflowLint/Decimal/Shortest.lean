/-
The shortest decimal text of a binary number, and how it is laid out.

`shortest` tries one digit, two digits and so on: on each decimal grid it looks at the two neighbours of the number and
takes the first that reads back as the number, the nearer one if both do, the even one on a tie. A number reads back from
every decimal in the interval half way to its two neighbours; the ends belong to it if its mantissa is even.
-/
import WorkflowLint.Decimal.Binary64

namespace WorkflowLint

namespace Binary64

/-! ## Which digits -/

/-- `a / b < c / d` for positive denominators -/
def ratioLt (a b c d : Nat) : Bool :=
  a * d < c * b

/-- A positive number with the interval that rounds to it, over the common denominator `den`. -/
structure Interval where
  low : Nat
  value : Nat
  high : Nat
  den : Nat
  closed : Bool

/-- The interval of `mantissa · 2 ^ exponent`. The gap below a power of two is half as wide as the gap above it. -/
def interval (mantissa : Nat) (exponent : Int) : Interval :=
  let step := if mantissa = Nat.pow 2 52 ∧ leastExponent < exponent then 1 else 2
  let (num, den) :=
    match exponent - 2 with
    | .ofNat k => (Nat.pow 2 k, 1)
    | .negSucc k => (1, Nat.pow 2 (k + 1))
  ⟨(4 * mantissa - step) * num, 4 * mantissa * num, (4 * mantissa + 2) * num, den, mantissa % 2 = 0⟩

/-- whether the decimal `d · 10 ^ e` lies in the interval -/
def Interval.holds (i : Interval) (d : Nat) (e : Int) : Bool :=
  let (a, b) :=
    match e with
    | .ofNat k => (d * Nat.pow 10 k, 1)
    | .negSucc k => (d, Nat.pow 10 (k + 1))
  let above := ratioLt i.low i.den a b || (i.closed && i.low * b == a * i.den)
  let below := ratioLt a b i.high i.den || (i.closed && i.high * b == a * i.den)
  above && below

/-- the multiple of `10 ^ e` next to the number that lies in its interval, if there is one -/
def Interval.onGrid (i : Interval) (e : Int) : Option Nat :=
  let (num, den) :=
    match e with
    | .ofNat k => (i.value, i.den * Nat.pow 10 k)
    | .negSucc k => (i.value * Nat.pow 10 (k + 1), i.den)
  let d := num / den
  let r := num % den
  let lower := i.holds d e && d != 0
  let upper := i.holds (d + 1) e
  if lower && upper then
    if 2 * r < den then some d
    else if den < 2 * r then some (d + 1)
    else if d % 2 = 0 then some d
    else some (d + 1)
  else if lower then some d
  else if upper then some (d + 1)
  else none

/-- the first of the grids `10 ^ e`, `10 ^ (e - 1)`, … on which the number has a hit, and that hit -/
def Interval.search (i : Interval) : Nat → Int → Option (Nat × Int)
  | 0, _ => none
  | tries + 1, e =>
    match i.onGrid e with
    | some d => some (d, e)
    | none => i.search tries (e - 1)

/-- drops the zeros at the end of `d`, each into the exponent `e` -/
def dropZeros : Nat → Nat → Int → Nat × Int
  | 0, d, e => (d, e)
  | tries + 1, d, e => if d % 10 = 0 ∧ d ≠ 0 then dropZeros tries (d / 10) (e + 1) else (d, e)

/-- A decimal exponent from that of the first digit to three above it: the logarithm of 2 is just above three tenths. -/
def gridStart (mantissa : Nat) (exponent : Int) : Int :=
  3 * (Nat.log2 mantissa + exponent) / 10 + 2

/-- the fewest digits `d` and the exponent `e` such that `d · 10 ^ e` reads back as the positive number -/
def shortest (mantissa : Nat) (exponent : Int) : Nat × Int :=
  match (interval mantissa exponent).search 24 (gridStart mantissa exponent) with
  | some (d, e) => dropZeros 20 d e
  | none => (0, 0)

/-! ## Layout -/

/-- the least and the greatest decimal exponent of the first digit that are written without an exponent mark -/
def plainExponents : Int × Int := (-5, 15)

/-- Digits `ds` with the first one at `10 ^ first`: with a decimal point and at least one digit after it, or, far from
zero, as a number from one to ten and an exponent. -/
def layOut (ds : List Char) (first : Int) : List Char :=
  if first < plainExponents.1 ∨ plainExponents.2 < first then
    let exponent := 'e' :: (toString first).toList
    match ds with
    | [] => exponent
    | [d] => d :: exponent
    | d :: rest => d :: '.' :: rest ++ exponent
  else
    match first with
    | .negSucc k => ['0', '.'] ++ List.replicate k '0' ++ ds
    | .ofNat k =>
      if ds.length ≤ k + 1 then ds ++ List.replicate (k + 1 - ds.length) '0' ++ ['.', '0']
      else ds.take (k + 1) ++ '.' :: ds.drop (k + 1)

/-- the text of a positive finite number -/
def magnitude (mantissa : Nat) (exponent : Int) : List Char :=
  if mantissa = 0 then ['0', '.', '0']
  else
    let (d, e) := shortest mantissa exponent
    let ds := Nat.toDigits 10 d
    layOut ds (e + ds.length - 1)

/-- the text of a number -/
def text : Binary64 → List Char
  | nan => ['.', 'n', 'a', 'n']
  | infinite negative => (if negative then ['-'] else []) ++ ['.', 'i', 'n', 'f']
  | finite negative mantissa exponent => (if negative then ['-'] else []) ++ magnitude mantissa exponent

end Binary64

end WorkflowLint
