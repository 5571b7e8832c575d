/-
Days of the Gregorian calendar, extended to all years.

Days are counted from 1970-01-01, which is day zero. `Date.toDay` counts the days up to a date
and `Date.ofDay` finds the date of a day; both work in cycles of 400 years that begin on the
first of March.
-/

namespace JobQueue

/-- A date of the calendar. -/
structure Date where
  year : Int
  month : Nat
  day : Nat
deriving DecidableEq, Repr, Inhabited

namespace Date

/-- Whether a year has 366 days. -/
def isLeapYear (year : Int) : Bool :=
  year % 4 == 0 && (year % 100 != 0 || year % 400 == 0)

/-- How many days a month has. -/
def daysInMonth (year : Int) (month : Nat) : Nat :=
  if month = 2 then if isLeapYear year then 29 else 28
  else if month = 4 ∨ month = 6 ∨ month = 9 ∨ month = 11 then 30
  else 31

/-- A date that the calendar has. -/
def Valid (d : Date) : Prop :=
  1 ≤ d.month ∧ d.month ≤ 12 ∧ 1 ≤ d.day ∧ d.day ≤ daysInMonth d.year d.month

instance (d : Date) : Decidable d.Valid := by
  unfold Valid; infer_instance

/-- The days from the first of March of a cycle's first year to the first of March of another
of its years. -/
def daysBeforeYear (yearOfCycle : Nat) : Nat :=
  yearOfCycle * 365 + yearOfCycle / 4 - yearOfCycle / 100

/-- The days from the first of March to the first of a month, months counted from March. -/
def daysBeforeMonth (monthFromMarch : Nat) : Nat :=
  (153 * monthFromMarch + 2) / 5

/-- The number of a date's day, counted from 1970-01-01. -/
def toDay (d : Date) : Int :=
  let year := if d.month ≤ 2 then d.year - 1 else d.year
  let cycle := year / 400
  let yearOfCycle := (year % 400).toNat
  let monthFromMarch := if d.month ≤ 2 then d.month + 9 else d.month - 3
  let dayOfYear := daysBeforeMonth monthFromMarch + d.day - 1
  cycle * 146097 + (daysBeforeYear yearOfCycle + dayOfYear : Nat) - 719468

/-- The date of a day, counted from 1970-01-01. -/
def ofDay (n : Int) : Date :=
  let shifted := n + 719468
  let cycle := shifted / 146097
  let dayOfCycle := (shifted % 146097).toNat
  let yearOfCycle :=
    (dayOfCycle - dayOfCycle / 1460 + dayOfCycle / 36524 - dayOfCycle / 146096) / 365
  let dayOfYear := dayOfCycle - daysBeforeYear yearOfCycle
  let monthFromMarch := (5 * dayOfYear + 2) / 153
  let day := dayOfYear - daysBeforeMonth monthFromMarch + 1
  let month := if monthFromMarch < 10 then monthFromMarch + 3 else monthFromMarch - 9
  let year := (yearOfCycle : Int) + cycle * 400
  ⟨if month ≤ 2 then year + 1 else year, month, day⟩

/-- The day of the week of a day, from 1 for Sunday to 7 for Saturday. -/
def weekdayOfDay (n : Int) : Nat :=
  ((n + 4) % 7).toNat + 1

end Date

end JobQueue
