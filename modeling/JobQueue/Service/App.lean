/-
The service: a processor with the built-in handlers, a scanner, and an orderly end.

A run scans on schedule until it is told to stop; then it waits for a scan in progress, shuts the
pool down within its deadline, and closes the stores.
-/

import JobQueue.Engine.Session
import JobQueue.Log.Start
import JobQueue.Service.Export
import JobQueue.Service.Site
import JobQueue.Settings.EnvFile

namespace JobQueue

/-- A service that has been put together. -/
structure App (W : Type) where
  settings : Settings
  processor : Processor W
  schedule : Cron.Schedule
  stores : Stores W

namespace App

variable {W : Type}

/-- The processor with the handlers of e-mails and of data. -/
def processorOf (settings : JobsSettings) (stores : Stores W) (clock : W → Instant × W)
    (mailer : Mailer W) (sender : String) (overflow : Word.Overflow) :
    Except JobError (Processor W) := do
  let p : Processor W :=
    ⟨settings, ⟨stores.records, clock, overflow⟩, some stores.files, .empty, true⟩
  let exporter : Exporter W := ⟨stores.source, stores.files, clock, settings.expirationDays⟩
  let p ← p.register (sendEmail mailer sender).toHandler
  p.register exporter.processData.toHandler

/-- Puts a service together, all but the channels of its pool. Its sums wrap around, as they do in a
program that is built for use. -/
def assemble (settings : Settings) (stores : Stores W) (clock : W → Instant × W)
    (mailer : Mailer W) (sender : String) : Except ServiceError (App W) := do
  let p ← (processorOf settings.jobs stores clock mailer sender .wraps).mapError JobError.toService
  let schedule ← (Scanner.readSchedule settings.jobs.scanSchedule).mapError JobError.toService
  .ok ⟨settings, p, schedule, stores⟩

/-- Makes the channels of the pool and puts the service together around them. There is no service,
whatever else the settings say, if the channels are too large to be made. -/
def make? (settings : Settings) (stores : Stores W) (clock : W → Instant × W)
    (mailer : Mailer W) (sender : String) : Option (Except ServiceError (App W)) :=
  if Pool.canStart (Pool.sizeFor settings.jobs.maxWorkers) then
    some (assemble settings stores clock mailer sender)
  else none

/-- Scans on schedule for some milliseconds, then ends the service. -/
def run (a : App W) (millis : Nat) (s : Session W) :
    Option (Except ServiceError Unit × Session W) := do
  let (start, s) ← s.beginScanner a.schedule
  let ((), s) ← s.perform (Task.sleep millis)
  let (_, s) ← s.stopScanner start
  let deadline := Span.ofSeconds a.settings.jobs.shutdownSeconds
  let (ended, s) ← s.perform (Engine.shutdown s.processor deadline)
  some (ended.mapError JobError.toService, s.setWorld (a.stores.close s.world))

end App

/-- Starts the log and the service as the settings say, all but the channels of its pool; gives the
events that are logged. -/
def App.launch (settings : Settings) (vars : EnvFile.Variables) (disk : Database.Disk) :
    Except ServiceError (List LogEvent × App Site) := do
  let (events, _) ← Log.silent.start settings.log (vars.lookup filterVariable)
  let stores ← Site.storesFor disk settings.database
  let app ← App.assemble settings stores Site.clock .silent
    (senderOf (vars.lookup senderVariable))
  .ok (events, app)

/-- What a service that cannot start or go on says as it ends. -/
def App.failureText (e : ServiceError) : String := s!"beacon-server: {e.message}"

end JobQueue
