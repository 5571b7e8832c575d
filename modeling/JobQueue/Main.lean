/-
The command line of the service.

It takes its settings from the folder `config`, from the file `.env` and from the variables of the
process, and then scans on schedule. What keeps it from starting is said on the error stream, and
the exit code is one. A pool that cannot be made breaks the program off.
-/

import JobQueue.Service.App
import JobQueue.Settings.Loader
import Std.Time.DateTime.Timestamp

namespace JobQueue.Command

/-- The text of a file, if it can be read. -/
def readFile? (path : String) : IO (Option String) := do
  try return some (← IO.FS.readFile path) catch _ => return none

/-- The variables of the process. -/
def vars : IO EnvFile.Variables := do
  let text := (← readFile? "/proc/self/environ").getD ""
  return (text.splitOn "\x00").filterMap fun entry =>
    match entry.splitOn "=" with
    | name :: value => if name.isEmpty then none else some (name, String.intercalate "=" value)
    | [] => none

/-- The files of settings that are there. -/
def settingsFiles (vars : EnvFile.Variables) : IO SettingsFiles := do
  let names := Settings.fileNames (Settings.environmentOf vars)
  let texts ← names.mapM fun name => readFile? (Settings.fileOrigin name)
  return (names.zip texts).filterMap fun (name, text) => text.map fun t => (name, t)

/-- What there is on the disk for a database; its file is made if that is allowed. -/
def diskFor (d : DatabaseSettings) : IO Database.Disk := do
  match Database.Address.ofUrl? d.url with
  | none => return ⟨fun _ => false, fun _ => false⟩
  | some a =>
      let mode : IO.FS.Mode := if a.mayCreate then .append else .read
      let found ← try
          if !a.isMemory then let _ ← IO.FS.Handle.mk a.path mode
          pure true
        catch _ => pure false
      return ⟨fun _ => found, fun _ => found⟩

/-- The present. -/
def present : IO Instant := do
  let now ← Std.Time.Timestamp.now
  return Instant.ofNanos now.toNanosecondsSinceUnixEpoch.val

/-- A nature in which it is a given time, with ids above a random number. -/
def natureAt (now : Instant) : IO Nature := do
  let base ← IO.rand 0 1000000000000
  return ⟨fun _ => now, fun n => "00000000-0000-4000-8000-" ++
    String.ofList (Decimal.padded 12 (base + n)), 0, 0⟩

/-- The longest time to sleep without a look at the clock, in milliseconds. -/
def longestSleep : Nat := 3600000

/-- Scans at each due second of the schedule. -/
partial def serve (app : App Site) (s : Session Site) : IO Unit := do
  let now ← present
  if let some next := app.schedule.next? now then
    let wait := (Span.mk (next.since now).toNat).millisUp
    IO.sleep (min wait longestSleep).toUInt32
    if wait > longestSleep then serve app s
    else
      let nature ← natureAt (← present)
      let s := s.setWorld { s.world with nature := nature }
      if let some (_, s) := s.perform (Scanner.scanOnce s.processor).run then serve app s

/-- Says why the service ends. -/
def fail (e : ServiceError) : IO UInt32 := do
  IO.eprintln (App.failureText e)
  return 1

/-- The exit code of a program that breaks off. -/
def brokenOff : UInt32 := 101

/-- Runs the service. -/
def run : IO UInt32 := do
  let vars := EnvFile.apply (← vars) ((← readFile? ".env").getD "")
  match Loaded.start (← settingsFiles vars) vars with
  | .error e => fail e
  | .ok loaded =>
      let disk ← diskFor loaded.settings.database
      match App.launch loaded.settings vars disk with
      | .error e => fail e
      | .ok (events, app) =>
          for e in events do IO.println e.message
          (← IO.getStdout).flush
          match Session.start? app.processor (Site.start (← natureAt (← present))) with
          | some s =>
              serve app s
              return 0
          | none => return brokenOff

end JobQueue.Command

def main : IO UInt32 := JobQueue.Command.run
