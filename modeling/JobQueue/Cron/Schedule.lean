/-
Schedules: the seconds at which something is due.

Every field of a schedule stands for a set of numbers; a second is due when all its fields have
theirs in the sets. `Schedule.next?` is the first due second after an instant, or nothing once
the years of the schedule are over.
-/

import JobQueue.Cron.Expression
import JobQueue.Text.Blank
import JobQueue.Time.Instant

namespace JobQueue.Cron

/-- A kind of field: its least and greatest number, and the names of some numbers. -/
structure Scale where
  least : Nat
  greatest : Nat
  names : List (String × Nat)

namespace Scale

def second : Scale := ⟨0, 59, []⟩
def minute : Scale := ⟨0, 59, []⟩
def hour : Scale := ⟨0, 23, []⟩
def dayOfMonth : Scale := ⟨1, 31, []⟩

def month : Scale := ⟨1, 12, [
  ("jan", 1), ("january", 1), ("feb", 2), ("february", 2), ("mar", 3), ("march", 3), ("apr", 4),
  ("april", 4), ("may", 5), ("jun", 6), ("june", 6), ("jul", 7), ("july", 7), ("aug", 8),
  ("august", 8), ("sep", 9), ("september", 9), ("oct", 10), ("october", 10), ("nov", 11),
  ("november", 11), ("dec", 12), ("december", 12)]⟩

/-- The week starts on Sunday. -/
def dayOfWeek : Scale := ⟨1, 7, [
  ("sun", 1), ("sunday", 1), ("mon", 2), ("monday", 2), ("tue", 3), ("tues", 3), ("tuesday", 3),
  ("wed", 4), ("wednesday", 4), ("thu", 5), ("thurs", 5), ("thursday", 5), ("fri", 6),
  ("friday", 6), ("sat", 7), ("saturday", 7)]⟩

def year : Scale := ⟨1970, 2100, []⟩

/-- The numbers from one to another. -/
def between (first last : Nat) : List Nat :=
  (List.range (last + 1 - first)).map (first + ·)

/-- All numbers of a scale. -/
def all (s : Scale) : List Nat := between s.least s.greatest

/-- A number if the scale has it. -/
def number? (s : Scale) (n : Nat) : Option Nat :=
  if s.least ≤ n ∧ n ≤ s.greatest then some n else none

/-- The number of a name; capitals do not matter. -/
def ofName? (s : Scale) (name : String) : Option Nat := s.names.lookup (Text.lower name)

/-- The numbers of a range that does not descend. -/
def range? (s : Scale) (first last : Nat) : Option (List Nat) := do
  let first ← s.number? first
  let last ← s.number? last
  if first ≤ last then some (between first last) else none

/-- The numbers of a part. -/
def part? (s : Scale) : Part → Option (List Nat)
  | .every => some s.all
  | .one n => (s.number? n).map ([·])
  | .range first last => s.range? first last
  | .namedRange first last => do s.range? (← s.ofName? first) (← s.ofName? last)

/-- What a step starts from: a single number stands for all from it on. -/
def base? (s : Scale) : Part → Option (List Nat)
  | .one n => (s.number? n).map fun n => between n s.greatest
  | p => s.part? p

/-- The first of every `step` numbers. -/
def everyNth (step : Nat) (ns : List Nat) : List Nat :=
  (ns.zipIdx.filter fun (_, i) => i % step = 0).map Prod.fst

/-- The numbers of an item. -/
def item? (s : Scale) : Item → Option (List Nat)
  | .plain p => s.part? p
  | .stepped p step =>
      if 1 ≤ step ∧ step ≤ s.greatest then (s.base? p).map (everyNth step) else none
  | .named name => (s.ofName? name).map ([·])

/-- The numbers of a field: those of the scale that stand in one of its items. -/
def field? (s : Scale) (items : List Item) : Option (List Nat) := do
  let sets ← items.mapM s.item?
  some (s.all.filter fun n => sets.any fun set => set.contains n)

end Scale

/-- The sets of numbers of the fields, each in rising order. -/
structure Schedule where
  seconds : List Nat
  minutes : List Nat
  hours : List Nat
  daysOfMonth : List Nat
  months : List Nat
  daysOfWeek : List Nat
  years : List Nat
deriving DecidableEq, Repr

/-- A text that is no schedule. -/
def unreadable : String := "Invalid expression: Invalid cron expression."

namespace Schedule

/-- Every second of the calendar's years. -/
def always : Schedule where
  seconds := Scale.second.all
  minutes := Scale.minute.all
  hours := Scale.hour.all
  daysOfMonth := Scale.dayOfMonth.all
  months := Scale.month.all
  daysOfWeek := Scale.dayOfWeek.all
  years := Scale.year.all

/-- The start of every hour. -/
def hourly : Schedule := { always with seconds := [0], minutes := [0] }

/-- Midnight of every day. -/
def daily : Schedule := { hourly with hours := [0] }

/-- The years of a schedule whose text goes on after the sixth field, or ends there. -/
def years? (rest : List Char) : Option (List Nat) :=
  match field false rest with
  | some (items, []) => Scale.year.field? items
  | some (_, _ :: _) => none
  | none => if rest.isEmpty then some Scale.year.all else none

/-- The schedule that is written. -/
def ofExpression? : Expression → Option Schedule
  | .yearly => some { daily with daysOfMonth := [1], months := [1] }
  | .monthly => some { daily with daysOfMonth := [1] }
  | .weekly => some { daily with daysOfWeek := [1] }
  | .daily => some daily
  | .hourly => some hourly
  | .fields second minute hour dayOfMonth month dayOfWeek rest => do
      some {
        seconds := ← Scale.second.field? second
        minutes := ← Scale.minute.field? minute
        hours := ← Scale.hour.field? hour
        daysOfMonth := ← Scale.dayOfMonth.field? dayOfMonth
        months := ← Scale.month.field? month
        daysOfWeek := ← Scale.dayOfWeek.field? dayOfWeek
        years := ← years? rest }

/-- Reads a schedule. -/
def parse (text : String) : Except String Schedule :=
  match (read text).bind ofExpression? with
  | some s => .ok s
  | none => .error unreadable

/-- Whether something is due on a day. -/
def hasDay (s : Schedule) (day : Int) : Bool :=
  let date := Date.ofDay day
  s.years.contains date.year.toNat && s.months.contains date.month &&
    s.daysOfMonth.contains date.day && s.daysOfWeek.contains (Date.weekdayOfDay day)

/-- The first due second of a day that has one, from a second of the day on. -/
def firstOfDay (s : Schedule) (start : Nat) : Option Nat :=
  s.hours.findSome? fun h =>
    if (h + 1) * 3600 ≤ start then none
    else s.minutes.findSome? fun m =>
      if (h * 60 + m + 1) * 60 ≤ start then none
      else s.seconds.findSome? fun sec =>
        let n := (h * 60 + m) * 60 + sec
        if start ≤ n then some n else none

/-- The first due second of some days, from a second of the first of them on. -/
def firstFrom (s : Schedule) (day : Int) (start : Nat) : Nat → Option Instant
  | 0 => none
  | days + 1 =>
      match if s.hasDay day then s.firstOfDay start else none with
      | some n => some ⟨day * Instant.secondsPerDay + n, 0⟩
      | none => firstFrom s (day + 1) 0 days

/-- The day after the last one of the years of schedules. -/
def lastDay : Int := Date.toDay ⟨Scale.year.greatest + 1, 1, 1⟩

/-- The first due second after an instant. -/
def next? (s : Schedule) (t : Instant) : Option Instant :=
  let start : Instant := ⟨t.seconds + 1, 0⟩
  let first := Date.toDay ⟨Scale.year.least, 1, 1⟩
  if start.day < first then s.firstFrom first 0 (lastDay - first).toNat
  else s.firstFrom start.day start.secondOfDay (lastDay - start.day).toNat

end Schedule

end JobQueue.Cron
