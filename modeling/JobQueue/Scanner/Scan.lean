/-
Scans: one page of available records, handed to the processor.

A record is available if its lease began before the cutoff, which lies one window before the
present. A scanner starts a scan at each due second of its schedule until it is stopped.
-/

import JobQueue.Cron.Schedule
import JobQueue.Engine.Basic

namespace JobQueue

/-- What became of the records of a scan. -/
structure ScanReport where
  total : Nat
  successful : Nat
  failed : Nat
deriving DecidableEq, Repr

namespace ScanReport

/-- The report of a scan that found nothing. -/
def empty : ScanReport := ⟨0, 0, 0⟩

/-- Whether a result is a success. -/
def isSuccess (r : JobResult) : Bool :=
  match r with
  | .ok () => true
  | .error _ => false

/-- The report of a scan with these results. -/
def ofResults (results : List JobResult) : ScanReport where
  total := results.length
  successful := results.countP isSuccess
  failed := results.countP fun r => !isSuccess r

end ScanReport

namespace Scanner

/-- Reads a schedule; one that cannot be read makes no scanner. -/
def readSchedule (text : String) : Except JobError Cron.Schedule :=
  match Cron.Schedule.parse text with
  | .ok s => .ok s
  | .error reason => .error (.configuration s!"Invalid cron expression '{text}': {reason}")

/-- The time before which leases have run out: one window before the present, but not before the
start of the calendar. A window that no instant can be moved by is refused. -/
def cutoff (window : Span) (now : Instant) : Except JobError Instant :=
  if window.isUsable then .ok ((now.plus? (-(window.nanos : Int))).getD Instant.earliest)
  else
    .error (.configuration
      "Invalid reservation timeout: Source duration value is out of range for the target type")

variable {W : Type}

/-- Fetches a page of available records. -/
def fetch (p : Processor W) : JobTask W (List JobRecord) := do
  let now ← JobTask.perform p.backend.clock
  let before ← JobTask.ofExcept (cutoff p.settings.window now)
  JobTask.call (p.backend.records.available before p.settings.batchSize 0)

/-- One scan. -/
def scanOnce (p : Processor W) : JobTask (Engine W) ScanReport := do
  let records ← ExceptT.mk (Engine.onWorld (fetch p).run)
  if records.isEmpty then return .empty
  let results ← ExceptT.lift (Engine.processConcurrently p records)
  match results with
  | .ok results => return .ofResults results
  | .error c => JobTask.breakOff c

/-- A step of the scanner's life. -/
def happen (e : Event) : Task (Engine W) Unit :=
  Task.perform fun engine => ((), { engine with scanner := engine.scanner.after e })

/-- A value of the scanner's life. -/
def observe {α : Type} (f : Lifecycle → α) : Task (Engine W) α :=
  Task.perform fun engine => (f engine.scanner, engine)

/-- Calls start; gives the number of the call. -/
def call : Task (Engine W) Nat :=
  Task.perform fun engine =>
    (engine.scanner.starts.length, { engine with scanner := engine.scanner.after .start })

/-- The first steps of a start; says whether it has claimed the scanner. -/
def enter (i : Nat) : Task (Engine W) Bool := do
  happen (.claim i)
  match ← observe fun l => l.resultOf? i with
  | some _ => return false
  | none =>
      happen (.subscribe i)
      return true

/-- The time from now to the next due second, if there is one. -/
def untilNext (p : Processor W) (schedule : Cron.Schedule) : Task W (Option Span) := do
  let now ← Task.perform p.backend.clock
  match schedule.next? now with
  | none => return none
  | some next =>
      let later ← Task.perform p.backend.clock
      return some ⟨(next.since later).toNat⟩

/-- The end of a start. -/
def leave (i : Nat) : Task (Engine W) Bool := do
  happen (.leave i)
  return false

/-- One round of a start; says whether there is to be another one. What a scan ends with is of no
matter to the scanner. -/
def round (p : Processor W) (schedule : Cron.Schedule) (i : Nat) : Task (Engine W) Bool := do
  happen (.check i)
  if ← observe fun l => l.isLeaving i then leave i
  else
    match ← Engine.onWorld (untilNext p schedule) with
    | none =>
        happen (.plan i false)
        leave i
    | some span =>
        happen (.plan i true)
        let signalled ← Task.awaitFor (fun engine : Engine W => engine.scanner.isSignalled i)
          span.millisUp
        if signalled then
          happen (.hear i)
          leave i
        else
          happen (.tick i)
          let _ ← (scanOnce p).run
          happen (.scanned i)
          return true

/-- Calls stop. A scan in progress ends first. -/
def stop : Task (Engine W) Unit := do
  let j ← Task.perform fun engine =>
    (engine.scanner.stops.length, { engine with scanner := engine.scanner.after .stop })
  happen (.send j)

end Scanner

end JobQueue
