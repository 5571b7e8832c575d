/-
Instants of universal time.

An instant is a whole second, counted from the start of 1970, and the nanoseconds into it. A leap
second is the second before it carried on: its nanoseconds are 10^9 and more. `Instant.since`
is the time from one instant to another, `plus?` and `plusDays?` move an instant and have no
answer outside the calendar that the clock knows.
-/

import JobQueue.Time.Calendar

namespace JobQueue

/-- An instant of universal time. -/
structure Instant where
  seconds : Int
  nanos : Nat
deriving DecidableEq, Repr, Inhabited

namespace Instant

/-- The nanoseconds of a second. -/
def nanosPerSecond : Nat := 1000000000

/-- The seconds of a day. -/
def secondsPerDay : Nat := 86400

/-- The first instant of the calendar: the start of the year -262143. -/
def earliest : Instant :=
  ⟨Date.toDay ⟨-262143, 1, 1⟩ * secondsPerDay, 0⟩

/-- The last instant of the calendar: the end of the year 262142. -/
def latest : Instant :=
  ⟨Date.toDay ⟨262142, 12, 31⟩ * secondsPerDay + 86399, 999999999⟩

/-- The instant lies in the calendar, in a second that has its nanoseconds. -/
def Valid (t : Instant) : Prop :=
  earliest.seconds ≤ t.seconds ∧ t.seconds ≤ latest.seconds ∧ t.nanos < 2 * nanosPerSecond

instance (t : Instant) : Decidable t.Valid := by
  unfold Valid; infer_instance

/-- The instant lies in no leap second. -/
def Plain (t : Instant) : Prop :=
  t.nanos < nanosPerSecond

instance (t : Instant) : Decidable t.Plain := by
  unfold Plain; infer_instance

/-- The order of instants: by second, then by nanosecond. -/
def before (a b : Instant) : Bool :=
  a.seconds < b.seconds || (a.seconds == b.seconds && a.nanos < b.nanos)

instance : LT Instant := ⟨fun a b => a.before b = true⟩

instance (a b : Instant) : Decidable (a < b) :=
  inferInstanceAs (Decidable (a.before b = true))

/-- No instant of the first is after the second. -/
instance : LE Instant := ⟨fun a b => b.before a = false⟩

instance (a b : Instant) : Decidable (a ≤ b) :=
  inferInstanceAs (Decidable (b.before a = false))

/-- The day an instant lies in. -/
def day (t : Instant) : Int := t.seconds / secondsPerDay

/-- The second of its day an instant lies in. -/
def secondOfDay (t : Instant) : Nat := (t.seconds % secondsPerDay).toNat

/-- The date of an instant. -/
def date (t : Instant) : Date := Date.ofDay t.day

/-- The instant as nanoseconds from the start of 1970. -/
def toNanos (t : Instant) : Int := t.seconds * nanosPerSecond + t.nanos

/-- The instant that lies some nanoseconds after the start of 1970, outside leap seconds. -/
def ofNanos (n : Int) : Instant :=
  ⟨n / nanosPerSecond, (n % nanosPerSecond).toNat⟩

/-- What a leap second that lies between the times of day of two instants adds to the seconds
between them. -/
def leapBetween (a b : Instant) : Int :=
  if b.secondOfDay < a.secondOfDay then if b.nanos ≥ nanosPerSecond then 1 else 0
  else if a.secondOfDay < b.secondOfDay then if a.nanos ≥ nanosPerSecond then -1 else 0
  else 0

/-- The nanoseconds from the second instant to the first. -/
def since (a b : Instant) : Int :=
  (a.seconds - b.seconds + leapBetween a b) * nanosPerSecond + ((a.nanos : Int) - b.nanos)

/-- The instant if it lies in the calendar. -/
def inCalendar? (t : Instant) : Option Instant :=
  if earliest.seconds ≤ t.seconds ∧ t.seconds ≤ latest.seconds then some t else none

/-- The instant some nanoseconds later, if the calendar has it. -/
def plus? (t : Instant) (nanos : Int) : Option Instant :=
  inCalendar? (ofNanos (t.toNanos + nanos))

/-- The same time of day some days later, if the calendar has that day. -/
def plusDays? (t : Instant) (days : Nat) : Option Instant :=
  inCalendar? ⟨t.seconds + days * secondsPerDay, t.nanos⟩

/-- The start of the second an instant lies in. -/
def toSecond (t : Instant) : Instant := ⟨t.seconds, 0⟩

/-- The start of the microsecond an instant lies in. -/
def toMicro (t : Instant) : Instant := ⟨t.seconds, t.nanos / 1000 * 1000⟩

end Instant

end JobQueue
