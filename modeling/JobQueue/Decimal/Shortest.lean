/-
The shortest decimal that reads back as a given floating-point number.

A decimal reads back as a number when it lies between the midpoints to the number's two
neighbours, ends included where the mantissa is even. `shortest` tries one digit, two digits and
so on up to seventeen, and of the two points of a grid around the value takes the nearer one that
reads back.
-/

import JobQueue.Decimal.Double

namespace JobQueue.Double

/-- The interval of values that round to a number, as numerators over one denominator: lower
end, value, upper end, denominator. -/
def interval (x : Double) : Nat × Nat × Nat × Nat :=
  let m := x.mantissa
  let below := if m = Nat.pow 2 52 ∧ x.exponent > leastExponent then 1 else 2
  let scale : Nat := 4
  let (num, den) :=
    if x.exponent ≥ 0 then (Nat.pow 2 x.exponent.toNat, 1) else (1, Nat.pow 2 (-x.exponent).toNat)
  ((scale * m - below) * num, scale * m * num, (scale * m + 2) * num, scale * den)

/-- Whether `value / den` lies in the interval of values that round to `x`. -/
def readsBack (x : Double) (value den : Nat) : Bool :=
  let (lo, _, hi, d) := x.interval
  if x.mantissa % 2 = 0 then lo * den ≤ value * d && value * d ≤ hi * den
  else lo * den < value * d && value * d < hi * den

/-- The number of digits before the decimal point of `num / den`; negative for zeros after it. -/
def magnitude (num den : Nat) : Int :=
  let guess : Int := ((num.log2 : Int) - den.log2) * 30103 / 100000
  let reaches (k : Int) : Bool :=
    if k ≥ 0 then den * Nat.pow 10 k.toNat ≤ num else den ≤ num * Nat.pow 10 (-k).toNat
  if reaches (guess + 1) then guess + 2 else if reaches guess then guess + 1
  else if reaches (guess - 1) then guess else guess - 1

/-- The grid of decimals `k * 10 ^ e` has a point that reads back as `x`: the nearer of the two
around the value, the even one of two equally near. -/
def onGrid? (x : Double) (e : Int) : Option Nat :=
  let (num, den) := x.ratio
  let (num, den) :=
    if e ≥ 0 then (num, den * Nat.pow 10 e.toNat) else (num * Nat.pow 10 (-e).toNat, den)
  let k := num / den
  let back (k : Nat) : Bool :=
    if e ≥ 0 then x.readsBack (k * Nat.pow 10 e.toNat) 1 else x.readsBack k (Nat.pow 10 (-e).toNat)
  let first := roundDiv num den
  let second := if first = k then k + 1 else k
  if back first then some first else if back second then some second else none

/-- Tries grids of `done + 1` digits and more, `left` of them at most. -/
def searchGrid (x : Double) (top : Int) (done : Nat) : Nat → Option (Nat × Int)
  | 0 => none
  | left + 1 =>
      let e := top - (done + 1 : Int)
      match onGrid? x e with
      | some k => some (k, e)
      | none => searchGrid x top (done + 1) left

/-- A number without the zeros it ends with, and how many they were. -/
def dropZeros (fuel : Nat) (k : Nat) (e : Int) : Nat × Int :=
  match fuel with
  | 0 => (k, e)
  | fuel + 1 => if k % 10 = 0 ∧ k ≠ 0 then dropZeros fuel (k / 10) (e + 1) else (k, e)

/-- The shortest decimal `k * 10 ^ e` that reads back as `x`, without zeros at its end. -/
def shortest (x : Double) : Nat × Int :=
  if x.isZero then (0, 0)
  else
    let (num, den) := x.ratio
    match searchGrid x (magnitude num den) 0 17 with
    | some (k, e) => dropZeros 20 k e
    | none => (x.mantissa, 0)

/-- Where the written form of a number changes. -/
structure Layout where
  /-- Least power of ten, as digits before the point, that is written without an exponent. -/
  plainFrom : Int
  /-- Greatest such power. -/
  plainTo : Int
  /-- What is put before an exponent that is not negative. -/
  plus : String
  /-- Whether a whole number is written with `.0`. -/
  point : Bool

/-- Writes the digits `ds` with the point after the first `point` of them. -/
def positional (layout : Layout) (ds : List Char) (point : Int) : List Char :=
  let n : Int := ds.length
  if point ≤ 0 then '0' :: '.' :: (List.replicate (-point).toNat '0' ++ ds)
  else if point < n then ds.take point.toNat ++ '.' :: ds.drop point.toNat
  else
    let whole := ds ++ List.replicate (point - n).toNat '0'
    if layout.point then whole ++ ['.', '0'] else whole

/-- Writes the digits `ds` with an exponent. -/
def scientific (layout : Layout) (ds : List Char) (exponent : Int) : List Char :=
  let head :=
    match ds with
    | [] => []
    | [d] => [d]
    | d :: rest => d :: '.' :: rest
  let sign := if exponent < 0 then ['-'] else layout.plus.toList
  head ++ 'e' :: (sign ++ Decimal.digits exponent.natAbs)

/-- The shortest decimal of a number, written as `layout` says. -/
def write (layout : Layout) (x : Double) : String :=
  let (k, e) := x.shortest
  let ds := Decimal.digits k
  let point := if x.isZero then 1 else (ds.length : Int) + e
  let body :=
    if layout.plainFrom ≤ point ∧ point ≤ layout.plainTo then positional layout ds point
    else scientific layout ds (point - 1)
  String.ofList (if x.negative then '-' :: body else body)

end JobQueue.Double
