/-
The settings of the service.

There are four groups: details of the application, the database, the jobs and the log. Every
setting has a value of its own when nothing is said about it. Groups are read field by field by a
`LeafReader`, which says how the values of a source become texts, numbers and switches.
-/

import JobQueue.Export.File
import JobQueue.Pool.Basic
import JobQueue.Decimal.Word

namespace JobQueue

/-- What is said about the application itself. -/
structure AppDetails where
  name : String
  version : String
  environment : String
deriving DecidableEq, Repr, Inhabited

/-- Where records and export files are kept. -/
structure DatabaseSettings where
  url : String
  maxConnections : Nat
  connectSeconds : Nat
deriving DecidableEq, Repr, Inhabited

/-- How jobs are processed. -/
structure JobsSettings where
  maxWorkers : Nat
  batchSize : Nat
  reservationMinutes : Nat
  scanSchedule : String
  sendSeconds : Nat
  resultSeconds : Nat
  resultSendSeconds : Nat
  shutdownSeconds : Nat
  expirationDays : Nat
deriving DecidableEq, Repr, Inhabited

/-- What is logged, and how. -/
structure LogSettings where
  serviceName : String
  filter : String
  json : Bool
deriving DecidableEq, Repr, Inhabited

/-- All settings. -/
structure Settings where
  app : AppDetails
  database : DatabaseSettings
  jobs : JobsSettings
  log : LogSettings
deriving DecidableEq, Repr, Inhabited

/-- The database that keeps everything in memory. -/
def memoryUrl : String := "memory://"

/-- The environment if none is named. -/
def defaultEnvironment : String := "development"

/-- The details when nothing is said. -/
def AppDetails.default : AppDetails := ⟨"beacon", "0.1.0", defaultEnvironment⟩

/-- The database settings when nothing is said. -/
def DatabaseSettings.default : DatabaseSettings := ⟨"sqlite://beacon.db?mode=rwc", 5, 30⟩

/-- The log settings when nothing is said. -/
def LogSettings.default : LogSettings := ⟨"beacon", "info,beacon=debug", false⟩

namespace JobsSettings

/-- The job settings when nothing is said: a scan every minute, on the minute. -/
def default : JobsSettings where
  maxWorkers := Pool.defaultSize
  batchSize := 50
  reservationMinutes := 5
  scanSchedule := "0 * * * * *"
  sendSeconds := 30
  resultSeconds := 300
  resultSendSeconds := 10
  shutdownSeconds := 30
  expirationDays := defaultExpirationDays

/-- Seconds stay below this. -/
def secondsBound : Nat := Word.count 64

/-- How long a lease holds. -/
def window (s : JobsSettings) : Span :=
  Span.ofSeconds (min (s.reservationMinutes * 60) (secondsBound - 1))

/-- How long the pool waits. -/
def limits (s : JobsSettings) : PoolLimits :=
  ⟨s.sendSeconds, s.resultSeconds, s.resultSendSeconds⟩

end JobsSettings

/-- The settings when nothing is said. -/
def Settings.default : Settings :=
  ⟨.default, .default, .default, .default⟩

/-- Whether records are kept in memory only. -/
def DatabaseSettings.isMemory (d : DatabaseSettings) : Bool := d.url == memoryUrl

/-- The ranges that numbers of settings come from. -/
inductive NumberRange where
  | size
  | word64
  | word32
deriving DecidableEq, Repr

namespace NumberRange

/-- The numbers of a range stay below this. -/
def bound : NumberRange → Nat
  | .size | .word64 => Word.count 64
  | .word32 => Word.count 32

/-- The name of a range in messages. -/
def name : NumberRange → String
  | .size => "usize"
  | .word64 => "u64"
  | .word32 => "u32"

end NumberRange

/-- How values of a source become texts, switches and numbers. -/
structure LeafReader (V ε : Type) where
  text : V → Except ε String
  switch : V → Except ε Bool
  number : NumberRange → V → Except ε Nat

/-- A setting of a group: its name, and how it is read into the group. -/
structure Setting (α V ε : Type) where
  name : String
  set : α → V → Except ε α

section

variable {V ε : Type} (r : LeafReader V ε)

/-- The settings of the application's details. -/
def AppDetails.settings : List (Setting AppDetails V ε) := [
  ⟨"name", fun g v => (r.text v).map fun s => { g with name := s }⟩,
  ⟨"version", fun g v => (r.text v).map fun s => { g with version := s }⟩,
  ⟨"environment", fun g v => (r.text v).map fun s => { g with environment := s }⟩]

/-- The settings of the database. -/
def DatabaseSettings.settings : List (Setting DatabaseSettings V ε) := [
  ⟨"url", fun g v => (r.text v).map fun s => { g with url := s }⟩,
  ⟨"max_connections", fun g v => (r.number .word32 v).map fun n => { g with maxConnections := n }⟩,
  ⟨"connect_timeout_secs",
    fun g v => (r.number .word64 v).map fun n => { g with connectSeconds := n }⟩]

/-- The settings of the jobs. -/
def JobsSettings.settings : List (Setting JobsSettings V ε) := [
  ⟨"max_workers", fun g v => (r.number .size v).map fun n => { g with maxWorkers := n }⟩,
  ⟨"batch_size", fun g v => (r.number .size v).map fun n => { g with batchSize := n }⟩,
  ⟨"reservation_timeout_minutes",
    fun g v => (r.number .word64 v).map fun n => { g with reservationMinutes := n }⟩,
  ⟨"scan_schedule", fun g v => (r.text v).map fun s => { g with scanSchedule := s }⟩,
  ⟨"send_timeout_secs", fun g v => (r.number .word64 v).map fun n => { g with sendSeconds := n }⟩,
  ⟨"result_timeout_secs",
    fun g v => (r.number .word64 v).map fun n => { g with resultSeconds := n }⟩,
  ⟨"result_send_timeout_secs",
    fun g v => (r.number .word64 v).map fun n => { g with resultSendSeconds := n }⟩,
  ⟨"shutdown_timeout_secs",
    fun g v => (r.number .word64 v).map fun n => { g with shutdownSeconds := n }⟩,
  ⟨"export_file_expiration_days",
    fun g v => (r.number .word32 v).map fun n => { g with expirationDays := n }⟩]

/-- The settings of the log. -/
def LogSettings.settings : List (Setting LogSettings V ε) := [
  ⟨"service_name", fun g v => (r.text v).map fun s => { g with serviceName := s }⟩,
  ⟨"filter", fun g v => (r.text v).map fun s => { g with filter := s }⟩,
  ⟨"json", fun g v => (r.switch v).map fun b => { g with json := b }⟩]

end

/-- How a source reads a whole group: by the group's name for messages, its settings, and the
group to start from. -/
abbrev GroupReader (V ε : Type) :=
  {α : Type} → String → List (Setting α V ε) → α → V → Except ε α

/-- The names of the groups in messages. -/
def AppDetails.groupName : String := "AppMetadata"
def DatabaseSettings.groupName : String := "DatabaseConfig"
def JobsSettings.groupName : String := "JobsConfig"
def LogSettings.groupName : String := "TelemetryConfig"
def Settings.groupName : String := "AppConfig"

/-- The four groups as settings of the whole. A group that is there starts from its own values
for nothing said. -/
def Settings.settings {V ε : Type} (r : LeafReader V ε) (group : GroupReader V ε) :
    List (Setting Settings V ε) := [
  ⟨"app", fun s v =>
    (group AppDetails.groupName (AppDetails.settings r) .default v).map
      fun g => { s with app := g }⟩,
  ⟨"database", fun s v =>
    (group DatabaseSettings.groupName (DatabaseSettings.settings r) .default v).map
      fun g => { s with database := g }⟩,
  ⟨"jobs", fun s v =>
    (group JobsSettings.groupName (JobsSettings.settings r) .default v).map
      fun g => { s with jobs := g }⟩,
  ⟨"telemetry", fun s v =>
    (group LogSettings.groupName (LogSettings.settings r) .default v).map
      fun g => { s with log := g }⟩]

end JobQueue
