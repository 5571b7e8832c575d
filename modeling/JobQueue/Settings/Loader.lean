/-
Loading settings.

The layers are the file of default values, the file of the environment, the local file, and
variables that start with the service's name; over them go a few variables of plain names. The
settings are checked last. A `Loaded` holds settings that have been checked; loading again keeps
them unless all goes well.
-/

import JobQueue.Settings.Check
import JobQueue.Settings.EnvFile
import JobQueue.Settings.Reading
import JobQueue.Toml.Document
import JobQueue.Decimal.Word

namespace JobQueue

/-- Files under their names, without the ending. -/
abbrev SettingsFiles := List (String × String)

namespace Settings

/-- The variable that names the environment. -/
def environmentVariable : String := "BEACON_ENVIRONMENT"

/-- What variables of the last layer start with. -/
def variablePrefix : String := "beacon__"

/-- The origin of values from variables. -/
def variableOrigin : String := "the environment"

/-- The environment that is named, or the default one. -/
def environmentOf (vars : EnvFile.Variables) : String :=
  (vars.lookup environmentVariable).getD defaultEnvironment

/-- The text of a variable as a value: a switch or a number if it reads as one. -/
def variableLeaf (s : String) : Leaf :=
  match Text.lower s with
  | "true" => .switch true
  | "false" => .switch false
  | _ =>
      match (Decimal.signed? s.toList).filter (Word.fits 64) with
      | some n => .int n
      | none =>
          match Floating.read? s with
          | some x => .float x
          | none => .text s

/-- The key of a variable of the last layer, in small letters and with points in place of double
underscores. -/
def variableKey? (name : String) : Option String :=
  (Text.dropStart? variablePrefix.toList (Tree.lowerName name).toList).map fun rest =>
    (String.ofList rest).replace "__" "."

/-- The values of the last layer. -/
def variableLayer (vars : EnvFile.Variables) : List (String × Tree) :=
  vars.filterMap fun (name, value) =>
    (variableKey? name).map fun key => (key, .leaf (some variableOrigin) (variableLeaf value))

/-- The origin of values from a file. -/
def fileOrigin (name : String) : String := s!"config/{name}.toml"

/-- The values of a file. The error stands without the place of the fault. -/
def fileLayer (name document : String) : Except ServiceError (List (String × Tree)) :=
  match Toml.read document with
  | some fields => .ok (Tree.ofFields (fileOrigin name) fields)
  | none => .error (.configuration "TOML parse error")

/-- The values of the files that are there, each file over the ones before it. -/
def fileLayers (files : SettingsFiles) : List String → Tree → Except ServiceError Tree
  | [], t => .ok t
  | name :: rest, t =>
      match files.lookup name with
      | some document => do
          let values ← fileLayer name document
          fileLayers files rest (t.layer values)
      | none => fileLayers files rest t

/-- The names of the files, in the order of their layers. -/
def fileNames (environment : String) : List String := ["default", environment, "local"]

/-- All layers put together. -/
def layers (files : SettingsFiles) (vars : EnvFile.Variables) : Except ServiceError Tree := do
  let t ← fileLayers files (fileNames (environmentOf vars)) (.table [])
  .ok (t.layer (variableLayer vars))

/-- The number of a plain variable, if it is one of 64 bits. -/
def plainNumber? (vars : EnvFile.Variables) (name : String) : Option Nat := do
  let s ← vars.lookup name
  let n ← Decimal.unsigned? (Text.trim s).toList
  if n < NumberRange.word64.bound then some n else none

/-- The job settings with those that plain variables set in place of the others. -/
def withPlainVariables (vars : EnvFile.Variables) (s : JobsSettings) : JobsSettings :=
  let number (name : String) (range : NumberRange) (other : Nat) : Nat :=
    ((plainNumber? vars name).filter fun n => n < range.bound).getD other
  { s with
    maxWorkers := number "JOB_MAX_WORKERS" .size s.maxWorkers
    batchSize := number "JOB_BATCH_SIZE" .size s.batchSize
    reservationMinutes := number "JOB_RESERVATION_TIMEOUT" .word64 s.reservationMinutes
    expirationDays := number "EXPORT_FILE_EXPIRATION_DAYS" .word32 s.expirationDays }

/-- The error of settings that are not in order. -/
def problemError (problems : List Problem) : ServiceError :=
  .configuration s!"Configuration validation failed:\n{problemText problems}"

/-- Settings from files and variables. -/
def load (files : SettingsFiles) (vars : EnvFile.Variables) : Except ServiceError Settings := do
  let t ← layers files vars
  let read ← t.asSettings.mapError fun e => .configuration e.message
  let s : Settings := { read with
    app := { read.app with environment := environmentOf vars }
    jobs := withPlainVariables vars read.jobs }
  if s.problems.isEmpty then .ok s else .error (problemError s.problems)

end Settings

/-- Settings that are held while the service runs. -/
structure Loaded where
  settings : Settings

namespace Loaded

/-- Loads settings for the first time. -/
def start (files : SettingsFiles) (vars : EnvFile.Variables) : Except ServiceError Loaded :=
  (Settings.load files vars).map Loaded.mk

/-- Loads the settings again; what is held stays when that fails. -/
def reload (l : Loaded) (files : SettingsFiles) (vars : EnvFile.Variables) :
    Except ServiceError Unit × Loaded :=
  match Settings.load files vars with
  | .ok s => (.ok (), ⟨s⟩)
  | .error e => (.error e, l)

end Loaded

end JobQueue
