/-
Starting the log.

The filter comes from a variable if that is set and can be read, else from the settings. The log
is started once; a second start is refused. Once started it reports itself, if the filter lets
that through.
-/

import JobQueue.Error
import JobQueue.Log.Filter
import JobQueue.Settings.Basic

namespace JobQueue

/-- The variable that holds a filter. -/
def filterVariable : String := "RUST_LOG"

namespace LogSettings

/-- The filter that counts, given the value of the variable. The error stands without the account of
the fault. -/
def activeFilter (s : LogSettings) (override : Option String) : Except ServiceError LogFilter :=
  match (override.bind LogFilter.read?) <|> LogFilter.read? s.filter with
  | some f => .ok f
  | none => .error (.configuration "Invalid log filter")

/-- The report of a start. -/
def startEvent (s : LogSettings) : LogEvent where
  level := .info
  target := "beacon_core::telemetry"
  message := "Telemetry initialized"
  fields := [("json", .bool s.json), ("service_name", .str s.serviceName)]

end LogSettings

/-- What a structured line of the log says about an event. -/
def LogEvent.toFields (e : LogEvent) : Fields :=
  [("fields", .obj e.allFields), ("level", .str e.level.name.toUpper), ("target", .str e.target)]

/-- The error of a second start. -/
def alreadyStarted : ServiceError :=
  .internal ("Failed to install tracing subscriber: " ++
    "a global default trace dispatcher has already been set")

/-- The log of the service: the filter it was started with, if it was. -/
structure Log where
  filter : Option LogFilter
deriving Repr

namespace Log

/-- A log that nobody has started. -/
def silent : Log := ⟨none⟩

/-- Starts the log; gives the events that are let through at once. -/
def start (log : Log) (s : LogSettings) (override : Option String) :
    Except ServiceError (List LogEvent × Log) := do
  let f ← s.activeFilter override
  if log.filter.isSome then .error alreadyStarted
  else .ok ([s.startEvent].filter f.shows, ⟨some f⟩)

end Log

end JobQueue
