/-
Numbers written to a fixed count of digits.

`Double.toPlaces` gives the decimal with at most so many digits that lies nearest to a number, a
tie away from zero. `Double.fifteen` writes it with a point in every case, and with an exponent
where the number is below 0.0001 or has more than fifteen digits before the point.
-/

import JobQueue.Decimal.Floating

namespace JobQueue

namespace Double

/-- The quotient `num / den` rounded to the nearest whole number, a tie upwards. -/
def roundUp (num den : Nat) : Nat := (2 * num + den) / (2 * den)

/-- The decimal `k * 10 ^ e` with at most `places` digits that is nearest to the magnitude of a
number, without zeros at its end. -/
def toPlaces (places : Nat) (x : Double) : Nat × Int :=
  if x.isZero then (0, 0)
  else
    let (num, den) := x.ratio
    let e := magnitude num den - places
    let k :=
      if e ≥ 0 then roundUp num (den * Nat.pow 10 e.toNat)
      else roundUp (num * Nat.pow 10 (-e).toNat) den
    dropZeros (places + 1) k e

/-- Digits with a point after the first, and zero as the second where there is none. -/
def pointed : List Char → List Char
  | [] => []
  | [d] => [d, '.', '0']
  | d :: rest => d :: '.' :: rest

/-- An exponent with its sign and two digits at least. -/
def exponentChars (exponent : Int) : List Char :=
  let ds := if exponent.natAbs < 10 then Decimal.padded 2 exponent.natAbs
    else Decimal.digits exponent.natAbs
  'e' :: (if exponent < 0 then '-' else '+') :: ds

/-- A number written to fifteen digits. Zero has no sign. -/
def fifteen (x : Double) : String :=
  let (k, e) := x.toPlaces 15
  let ds := Decimal.digits k
  let point := if x.isZero then 1 else (ds.length : Int) + e
  let body :=
    if -3 ≤ point ∧ point ≤ 15 then positional ⟨0, 0, "", true⟩ ds point
    else pointed ds ++ exponentChars (point - 1)
  String.ofList (if x.negative && !x.isZero then '-' :: body else body)

end Double

/-- A number written to fifteen digits. -/
def Floating.fifteen : Floating → String
  | .finite x => x.fifteen
  | .infinite true => "-Inf"
  | .infinite false => "Inf"
  | .undefined => ""

end JobQueue
