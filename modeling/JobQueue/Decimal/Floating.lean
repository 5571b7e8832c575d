/-
Floating-point numbers with the infinite ones and the undefined one.
-/

import JobQueue.Decimal.Shortest

namespace JobQueue

/-- A floating-point number. -/
inductive Floating where
  | finite (x : Double)
  | infinite (negative : Bool)
  | undefined
deriving Repr

namespace Floating

/-- The number nearest to a decimal one; infinite when that is too large. -/
def ofDecimal (negative : Bool) (mantissa : Nat) (exponent : Int) : Floating :=
  match Double.ofDecimal? negative mantissa exponent with
  | some x => .finite x
  | none => .infinite negative

/-- Whether the number differs from zero. -/
def isNonzero : Floating → Bool
  | .finite x => !x.isZero
  | _ => true

/-- The nearest whole number between zero and a bound, halves away from zero. -/
def toNatBelow (bound : Nat) : Floating → Nat
  | .finite x => min x.roundHalfAway.toNat (bound - 1)
  | .infinite true | .undefined => 0
  | .infinite false => bound - 1

/-- No exponent, and no point after a whole number. -/
def plain : Double.Layout := ⟨-10000, 10000, "", false⟩

/-- The number as a text, without an exponent. -/
def text : Floating → String
  | .finite x => x.write plain
  | .infinite true => "-inf"
  | .infinite false => "inf"
  | .undefined => "NaN"

/-- The words for numbers that are not finite. -/
def ofWord? (negative : Bool) (word : String) : Option Floating :=
  if word = "inf" || word = "infinity" then some (.infinite negative)
  else if word = "nan" then some .undefined
  else none

/-- An exponent: at most one sign, and digits. Nothing stands for zero. -/
def exponent? : List Char → Option Int
  | [] => some 0
  | 'e' :: rest => Decimal.signed? rest
  | _ => none

/-- Digits with at most one point among them, and perhaps an exponent. -/
def ofDigits? (negative : Bool) (cs : List Char) : Option Floating := do
  let (whole, rest) := Decimal.spanDigits cs
  let (part, rest) := match rest with
    | '.' :: more => Decimal.spanDigits more
    | _ => ([], rest)
  let mantissa ← Decimal.ofDigits? (whole ++ part)
  let exponent ← exponent? rest
  some (ofDecimal negative mantissa (exponent - part.length))

/-- A number without its sign, in small letters. -/
def ofUnsigned? (negative : Bool) (cs : List Char) : Option Floating :=
  ofWord? negative (String.ofList cs) <|> ofDigits? negative cs

/-- Reads a number as a person may type it; capitals do not matter. -/
def read? (s : String) : Option Floating :=
  match s.toList.map Char.toLower with
  | '-' :: rest => ofUnsigned? true rest
  | '+' :: rest => ofUnsigned? false rest
  | cs => ofUnsigned? false cs

end Floating

end JobQueue
