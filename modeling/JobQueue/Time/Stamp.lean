/-
Written forms of instants.

All forms are `YYYY-MM-DDTHH:MM:SS`, a fraction and `Z`; they differ in the number of fraction
digits. A year outside 0 to 9999 carries its sign. A leap second is written as second 60.
-/

import JobQueue.Time.Instant
import JobQueue.Decimal.Digits

namespace JobQueue.Instant

/-- A year: four digits from 0 to 9999, else a sign and at least four digits. -/
def yearChars (year : Int) : List Char :=
  if 0 ≤ year ∧ year ≤ 9999 then Decimal.padded 4 year.toNat
  else
    let n := year.natAbs
    let ds := if n < 10000 then Decimal.padded 4 n else Decimal.digits n
    (if year < 0 then '-' else '+') :: ds

/-- A date as year, month and day. -/
def dateChars (d : Date) : List Char :=
  yearChars d.year ++ '-' :: (Decimal.padded 2 d.month ++ '-' :: Decimal.padded 2 d.day)

/-- The second that is written: one more than its place in the minute inside a leap second. -/
def writtenSecond (t : Instant) : Nat :=
  t.secondOfDay % 60 + t.nanos / nanosPerSecond

/-- Hour, minute and second. -/
def clockChars (t : Instant) : List Char :=
  Decimal.padded 2 (t.secondOfDay / 3600) ++ ':' ::
    (Decimal.padded 2 (t.secondOfDay / 60 % 60) ++ ':' :: Decimal.padded 2 t.writtenSecond)

/-- A fraction with a number of digits, cut off after them; nothing for no digits. -/
def fractionChars (places : Nat) (t : Instant) : List Char :=
  if places = 0 then []
  else '.' :: Decimal.padded places (t.nanos % nanosPerSecond / Nat.pow 10 (9 - places))

/-- The written form with a number of fraction digits. -/
def stampChars (places : Nat) (t : Instant) : List Char :=
  dateChars t.date ++ 'T' :: (clockChars t ++ (fractionChars places t ++ ['Z']))

/-- The written form with a number of fraction digits. -/
def stamp (places : Nat) (t : Instant) : String :=
  String.ofList (stampChars places t)

/-- The fewest of 0, 3, 6 and 9 fraction digits that keep the instant. -/
def placesNeeded (t : Instant) : Nat :=
  let n := t.nanos % nanosPerSecond
  if n = 0 then 0 else if n % 1000000 = 0 then 3 else if n % 1000 = 0 then 6 else 9

/-- The form of a lease: whole seconds. -/
def leaseText (t : Instant) : String := t.stamp 0

/-- The form of a stored time: microseconds. -/
def storedText (t : Instant) : String := t.stamp 6

/-- The form in a structured value: as many digits as the instant needs. -/
def jsonText (t : Instant) : String := t.stamp t.placesNeeded

end JobQueue.Instant
