/-
Finite binary floating-point numbers of 64 bits, as exact values.

A `Double` is plus or minus `mantissa * 2 ^ exponent`. `ofRatio?` rounds a ratio to the nearest
such number, ties to the even mantissa, and has no answer where the nearest number would be
infinite. All arithmetic is exact on natural numbers before that rounding.
-/

import JobQueue.Decimal.Digits

namespace JobQueue

/-- A finite 64-bit floating-point number, `mantissa * 2 ^ exponent` with a sign. Its mantissa
has 53 bits, or fewer at the least exponent, which is `-1074`. -/
structure Double where
  negative : Bool
  mantissa : Nat
  exponent : Int
deriving DecidableEq, Repr, Inhabited

namespace Double

/-- The least exponent, used by the numbers nearest to zero. -/
def leastExponent : Int := -1074

/-- The greatest exponent. -/
def greatestExponent : Int := 971

/-- Zero, with a sign. -/
def zero (negative : Bool) : Double := ⟨negative, 0, leastExponent⟩

/-- The quotient `num / den` rounded to the nearest whole number, a tie to the even one. -/
def roundDiv (num den : Nat) : Nat :=
  let q := num / den
  let r := num % den
  if 2 * r > den || (2 * r == den && q % 2 == 1) then q + 1 else q

/-- `num / den` in units of `2 ^ e`, rounded. -/
def scaled (num den : Nat) (e : Int) : Nat :=
  if e ≥ 0 then roundDiv num (den * Nat.pow 2 e.toNat)
  else roundDiv (num * Nat.pow 2 (-e).toNat) den

/-- Whether `num / den` is at least `2 ^ e`. -/
def atLeastPower (num den : Nat) (e : Int) : Bool :=
  if e ≥ 0 then den * Nat.pow 2 e.toNat ≤ num else den ≤ num * Nat.pow 2 (-e).toNat

/-- The number nearest to `num / den` with the sign given, a tie to the even mantissa; `none`
when the nearest would be infinite. -/
def ofRatio? (negative : Bool) (num den : Nat) : Option Double :=
  if num = 0 ∨ den = 0 then some (zero negative)
  else
    let guess : Int := (num.log2 : Int) - den.log2
    let top := if atLeastPower num den guess then guess else guess - 1
    let e := max (top - 52) leastExponent
    let m := scaled num den e
    let (m, e) := if m = Nat.pow 2 53 then (Nat.pow 2 52, e + 1) else (m, e)
    if e > greatestExponent then none else some ⟨negative, m, e⟩

/-- The number nearest to an integer. -/
def ofInt? (n : Int) : Option Double := ofRatio? (n < 0) n.natAbs 1

/-- The magnitude as a ratio of natural numbers. -/
def ratio (x : Double) : Nat × Nat :=
  if x.exponent ≥ 0 then (x.mantissa * Nat.pow 2 x.exponent.toNat, 1)
  else (x.mantissa, Nat.pow 2 (-x.exponent).toNat)

/-- Whether the number is zero, of either sign. -/
def isZero (x : Double) : Bool := x.mantissa == 0

/-- The value as a ratio with a signed numerator. -/
def signedRatio (x : Double) : Int × Nat :=
  let (n, d) := x.ratio
  (if x.negative then -(n : Int) else n, d)

/-- How two numbers compare; the two zeros are equal. -/
def compare (x y : Double) : Ordering :=
  let (a, b) := x.signedRatio
  let (c, d) := y.signedRatio
  Ord.compare (a * d) (c * b)

/-- How a number compares with an integer. -/
def compareInt (x : Double) (n : Int) : Ordering :=
  let (a, b) := x.signedRatio
  Ord.compare a (n * b)

/-- Whether two numbers are equal as values, so that the two zeros are. -/
def same (x y : Double) : Bool := compare x y == .eq

/-- The whole number a value stands for, if it stands for one. -/
def toInt? (x : Double) : Option Int :=
  let (a, b) := x.signedRatio
  if a % b = 0 then some (a / b) else none

/-- The nearest whole number, a half away from zero. -/
def roundHalfAway (x : Double) : Int :=
  let (n, d) := x.ratio
  let m := (2 * n + d) / (2 * d)
  if x.negative then -(m : Int) else m

/-- The number nearest to `mantissa * 10 ^ exponent`. Where the power of ten alone decides that
the answer is infinite or zero, it is not computed. -/
def ofDecimal? (negative : Bool) (mantissa : Nat) (exponent : Int) : Option Double :=
  if mantissa = 0 then some (zero negative)
  else if exponent > 400 then none
  else if exponent + mantissa.log2 < -1200 then some (zero negative)
  else if exponent ≥ 0 then ofRatio? negative (mantissa * Nat.pow 10 exponent.toNat) 1
  else ofRatio? negative mantissa (Nat.pow 10 (-exponent).toNat)

end Double

end JobQueue
