/-
Decimal digits of natural numbers.

`digits` writes a number with as few digits as it needs, `padded` with exactly as many as
asked, and `ofDigits?` reads digits back.
-/

namespace JobQueue.Decimal

/-- The character of a digit; numbers above nine count modulo ten. -/
def digitChar (n : Nat) : Char :=
  Char.ofNat (48 + n % 10)

/-- The value of a decimal digit. -/
def digitValue? (c : Char) : Option Nat :=
  if '0' ≤ c ∧ c ≤ '9' then some (c.toNat - 48) else none

/-- The number with the fewest digits, `0` for zero. -/
def digits (n : Nat) : List Char :=
  if _h : n < 10 then [digitChar n] else digits (n / 10) ++ [digitChar n]
termination_by n
decreasing_by omega

/-- The last `width` digits of a number, with zeros in front where it has fewer. -/
def padded : Nat → Nat → List Char
  | 0, _ => []
  | width + 1, n => padded width (n / 10) ++ [digitChar n]

/-- Appends digits to a number read so far; `none` at a character that is no digit. -/
def readDigits (start : Nat) : List Char → Option Nat
  | [] => some start
  | c :: rest =>
      match digitValue? c with
      | some d => readDigits (start * 10 + d) rest
      | none => none

/-- The number that a nonempty text of digits writes. -/
def ofDigits? : List Char → Option Nat
  | [] => none
  | cs => readDigits 0 cs

/-- The number as a text. -/
def natText (n : Nat) : String :=
  String.ofList (digits n)

/-- The number as a text, with `-` in front when it is negative. -/
def intText (n : Int) : String :=
  if n < 0 then String.ofList ('-' :: digits n.natAbs) else natText n.natAbs

/-- The digits a text begins with, and what follows them. -/
def spanDigits (cs : List Char) : List Char × List Char :=
  cs.span fun c => (digitValue? c).isSome

/-- An unsigned number as a person may type it: digits, after at most one `+`. -/
def unsigned? : List Char → Option Nat
  | '+' :: rest => ofDigits? rest
  | cs => ofDigits? cs

/-- A whole number as a person may type it: digits, after at most one sign. -/
def signed? : List Char → Option Int
  | '-' :: rest => (ofDigits? rest).map fun n => -(n : Int)
  | cs => (unsigned? cs).map fun n => (n : Int)

theorem length_padded (width n : Nat) : (padded width n).length = width := by
  induction width generalizing n with
  | zero => rfl
  | succ width ih => simp [padded, ih]

end JobQueue.Decimal
