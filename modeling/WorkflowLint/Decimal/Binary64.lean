/-
Numbers with 53 binary digits of precision and the exponent range of the 64-bit floating-point format, as exact data.

A finite number is `± mantissa · 2 ^ exponent`, with the largest mantissa below `2 ^ 53` that the exponent range allows, so
each number has one form. `ofDecimal` rounds `digits · 10 ^ scale` to the nearest such number, ties to the even mantissa.
-/

namespace WorkflowLint

inductive Binary64 where
  | nan
  | infinite (negative : Bool)
  | finite (negative : Bool) (mantissa : Nat) (exponent : Int)
deriving DecidableEq, Repr

namespace Binary64

/-- the least exponent of a finite number -/
def leastExponent : Int := -1074

/-- the greatest exponent of a finite number -/
def greatestExponent : Int := 971

def zero (negative : Bool) : Binary64 :=
  finite negative 0 leastExponent

/-- `num / den` to the nearest integer, ties to the even one -/
def roundDiv (num den : Nat) : Nat :=
  let q := num / den
  let r := num % den
  if 2 * r < den then q
  else if den < 2 * r then q + 1
  else if q % 2 = 0 then q
  else q + 1

/-- numerator and denominator of `num / den · 2 ^ (-e)` -/
def scale (num den : Nat) (e : Int) : Nat × Nat :=
  match e with
  | .ofNat k => (num, den * Nat.pow 2 k)
  | .negSucc k => (num * Nat.pow 2 (k + 1), den)

/-- the number with the exponent `e` nearest to `num / den`; a mantissa that rounds up to `2 ^ 53` moves on -/
def withExponent (negative : Bool) (num den : Nat) (e : Int) : Binary64 :=
  let (n, d) := scale num den e
  let m := roundDiv n d
  let (m, e) := if m = Nat.pow 2 53 then (Nat.pow 2 52, e + 1) else (m, e)
  if greatestExponent < e then infinite negative else finite negative m e

/-- the number nearest to `num / den`, for positive `num` and `den` -/
def ofRatio (negative : Bool) (num den : Nat) : Binary64 :=
  let e := max ((Nat.log2 num : Int) - Nat.log2 den - 52) leastExponent
  let (n, d) := scale num den e
  if leastExponent < e ∧ n < d * Nat.pow 2 52 then withExponent negative num den (e - 1)
  else withExponent negative num den e

/-- how many decimal digits a number has, at least -/
def digitCount (n : Nat) : Nat :=
  (Nat.toDigits 10 n).length

/-- The number nearest to `± digits · 10 ^ scale`. What is far out of range is settled before any power is computed. -/
def ofDecimal (negative : Bool) (digits : Nat) (scale : Int) : Binary64 :=
  if digits = 0 then zero negative
  else if 310 ≤ scale then infinite negative
  else if scale + digitCount digits < -330 then zero negative
  else
    match scale with
    | .ofNat k => ofRatio negative (digits * Nat.pow 10 k) 1
    | .negSucc k => ofRatio negative digits (Nat.pow 10 (k + 1))

def isFinite : Binary64 → Bool
  | finite _ _ _ => true
  | _ => false

/-- whether a number is zero or above; the negative zero is zero -/
def isNonNegative : Binary64 → Bool
  | nan => false
  | infinite negative => !negative
  | finite negative mantissa _ => !negative || mantissa == 0

/-- whether two numbers count as one mapping key: the two zeros do, and so do two results that are not numbers -/
def same : Binary64 → Binary64 → Bool
  | nan, nan => true
  | infinite a, infinite b => a == b
  | finite a m e, finite b n f => (m == 0 && n == 0) || (a == b && m == n && e == f)
  | _, _ => false

end Binary64

end WorkflowLint
