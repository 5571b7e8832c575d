/-
Reading times in the one strict form.

`YYYY-MM-DD`, `T`, `t` or a blank, `HH:MM:SS`, a fraction of any length, and an offset with a
colon. Leases and stored times are read this way: what is not in this form is no time at all.
-/

import JobQueue.Time.Scan
import JobQueue.Time.Stamp

namespace JobQueue.Time

/-- The greatest offset, 23 hours and 59 minutes. -/
def greatestOffset : Nat := (23 * 60 + 59) * 60

/-- Reads the strict form up to its end and gives what follows. -/
def strictFields : Scan Fields := fun cs => do
  let (year, cs) ← number 4 4 cs
  let ((), cs) ← exactly '-' cs
  let (month, cs) ← number 2 2 cs
  let month ← within 1 12 month
  let ((), cs) ← exactly '-' cs
  let (day, cs) ← number 2 2 cs
  let day ← within 1 31 day
  let ((), cs) ← dateTimeMark cs
  let (hour, cs) ← number 2 2 cs
  let hour ← within 0 23 hour
  let ((), cs) ← exactly ':' cs
  let (minute, cs) ← number 2 2 cs
  let minute ← within 0 59 minute
  let ((), cs) ← exactly ':' cs
  let (second, cs) ← number 2 2 cs
  let second ← within 0 60 second
  let (nanos, cs) ← fraction? cs
  let (shift, cs) ← offset (fun cs => (exactly ':' cs).map Prod.snd) cs
  if shift.natAbs > greatestOffset then .error .outOfRange
  else .ok (⟨year, month, day, hour, minute, second, nanos, shift⟩, cs)

/-- The instant that a text in the strict form names. -/
def readStrict (s : String) : Except Fault Instant := do
  let (fields, rest) ← strictFields s.toList
  if rest.isEmpty then fields.toInstant else .error .tooLong

/-- The instant that a text in the strict form names, if it is in that form. -/
def strict? (s : String) : Option Instant :=
  (readStrict s).toOption

end JobQueue.Time
