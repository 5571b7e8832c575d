/-
Levels of the log.

A filter lets through all events up to a level; the level `off` lets through none. A level is
written as its name or as its number, in capitals or not.
-/

import JobQueue.Decimal.Digits
import JobQueue.Text.Blank

namespace JobQueue

/-- How much is let through. -/
inductive LogLevel where
  | off
  | error
  | warn
  | info
  | debug
  | trace
deriving DecidableEq, Repr

namespace LogLevel

/-- All levels, by their numbers. -/
def all : List LogLevel := [.off, .error, .warn, .info, .debug, .trace]

/-- The number of a level. -/
def number : LogLevel → Nat
  | .off => 0
  | .error => 1
  | .warn => 2
  | .info => 3
  | .debug => 4
  | .trace => 5

/-- The name of a level. -/
def name : LogLevel → String
  | .off => "off"
  | .error => "error"
  | .warn => "warn"
  | .info => "info"
  | .debug => "debug"
  | .trace => "trace"

/-- Whether a filter of one level lets an event of another through. -/
def admits (filter event : LogLevel) : Bool := event.number ≤ filter.number

/-- The level that a text writes. -/
def read? (s : String) : Option LogLevel :=
  match Decimal.unsigned? s.toList with
  | some n => all[n]?
  | none => all.find? fun level => level.name = Text.lower s

end LogLevel

end JobQueue
