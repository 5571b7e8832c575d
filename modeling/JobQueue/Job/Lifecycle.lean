/-
The lifecycle of one run: claim, execute, finalize.

A run first checks its copy of the record, saves it with a lease, and only then runs the handler
of its payload's type. A success deletes the record; a failure saves it with one more attempt and
no lease, so that it can be taken again. A run whose claim cannot be saved leaves its copy as it
was and runs no handler. Where sums are checked, a failure of a record that already has the greatest
number of attempts breaks off before it is saved.
-/

import JobQueue.Job.Handler

namespace JobQueue

/-- The stores, the clock and the arithmetic that runs use. -/
structure Backend (W : Type) where
  records : RecordStore W
  clock : W → Instant × W
  overflow : Word.Overflow

/-- What a run needs to know. -/
structure Executor (W : Type) where
  backend : Backend W
  registry : Registry W
  lease : Span

/-- How a run ended: its copy of the record, and its result. -/
structure Ended where
  record : JobRecord
  result : Except (Fault JobError) Unit
deriving Repr

namespace Executor

variable {W : Type}

/-- Refuses a record that is no queued one. -/
def check (r : JobRecord) : Option JobError :=
  if r.id.isEmpty then some (.invalidRecord "job record has no id")
  else if r.collection != queueCollection then
    some (.invalidRecord s!"record {r.id} belongs to '{r.collection}', expected '{queueCollection}'")
  else none

/-- Runs the handler of a claimed record. A handler that breaks off has failed. -/
def execute (x : Executor W) (worker : Option Nat) (r : JobRecord) :
    Task W (Except JobError Unit) :=
  match Job.ofRecord r with
  | .error e => .done (.error e)
  | .ok job =>
      match x.registry.get job.jobType with
      | .error e => .done (.error e)
      | .ok handler => do
          match ← (handler.run (JobContext.ofJob job worker) job).run with
          | .ok () => return .ok ()
          | .error (.error e) => return .error e
          | .error (.crash c) => return .error (.crashed c.message)

/-- Removes a record whose handler succeeded. -/
def complete (x : Executor W) (r : JobRecord) : Task W Ended := do
  match ← Task.perform (x.backend.records.delete r) with
  | .ok () => return ⟨r, .ok ()⟩
  | .error (.error e) => return ⟨r, .error (.error (.completion r.id e))⟩
  | .error (.crash c) => return ⟨r, .error (.crash c)⟩

/-- Whether one attempt more is a sum that breaks off. -/
def overflows (x : Executor W) (r : JobRecord) : Bool :=
  match x.backend.overflow with
  | .wraps => false
  | .breaksOff => r.isSpent

/-- How a sum breaks off that is too large. -/
def overflowCrash : Crash := .text "attempt to add with overflow"

/-- Releases a record whose handler failed. That the release could not be saved changes nothing
in the result. -/
def release (x : Executor W) (r : JobRecord) (cause : JobError) : Task W Ended := do
  let now ← Task.perform x.backend.clock
  if x.overflows r then
    return ⟨r, .error (.crash overflowCrash)⟩
  let failed := r.markFailed now
  match ← Task.perform (x.backend.records.save failed) with
  | .ok () | .error (.error _) => return ⟨failed, .error (.error cause)⟩
  | .error (.crash c) => return ⟨failed, .error (.crash c)⟩

/-- What follows a saved claim. -/
def afterClaim (x : Executor W) (worker : Option Nat) (claimed : JobRecord) : Task W Ended := do
  match ← x.execute worker claimed with
  | .ok () => x.complete claimed
  | .error e => x.release claimed e

/-- Claims, executes and finalizes one record. -/
def run (x : Executor W) (worker : Option Nat) (r : JobRecord) : Task W Ended :=
  match check r with
  | some e => .done ⟨r, .error (.error e)⟩
  | none => do
      let now ← Task.perform x.backend.clock
      if r.isReserved x.lease now then
        return ⟨r, .error (.error (.alreadyReserved r.id))⟩
      let claimed := r.reserve now
      match ← Task.perform (x.backend.records.save claimed) with
      | .ok () => x.afterClaim worker claimed
      | .error (.error e) => return ⟨r, .error (.error (.reservation r.id e))⟩
      | .error (.crash c) => return ⟨claimed, .error (.crash c)⟩

/-- Runs one record after another. A run that breaks off ends the whole. -/
def runAll (x : Executor W) : List JobRecord → Task W (Except Crash (List (Except JobError Unit)))
  | [] => .done (.ok [])
  | r :: rest => do
      let ended ← x.run none r
      match ended.result with
      | .error (.crash c) => return .error c
      | .error (.error e) => return (← x.runAll rest).map (.error e :: ·)
      | .ok () => return (← x.runAll rest).map (.ok () :: ·)

end Executor

end JobQueue
