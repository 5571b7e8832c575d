/-
The processor: what callers hand work to.

A processor puts new jobs into its store, says where a job stands, and knows the handlers. It has
a pool of workers, or runs its batches one job after another.
-/

import JobQueue.Export.File
import JobQueue.Settings.Basic

namespace JobQueue

/-- A processor over a world that holds its stores. -/
structure Processor (W : Type) where
  settings : JobsSettings
  backend : Backend W
  /-- Where the status of a job that is gone is looked up. -/
  exports : Option (ExportStore W)
  registry : Registry W
  isPooled : Bool

namespace Processor

variable {W : Type}

/-- What a run needs of the processor. -/
def executor (p : Processor W) : Executor W := ⟨p.backend, p.registry, p.settings.window⟩

/-- The processor with one handler more. -/
def register (p : Processor W) (h : Handler W) : Except JobError (Processor W) :=
  (p.registry.register h).map fun r => { p with registry := r }

/-- How many workers the processor has. -/
def workers (p : Processor W) : Nat :=
  if p.isPooled then Pool.sizeFor p.settings.maxWorkers else 0

/-- Stores a new job, if its payload is in order. -/
def enqueue (p : Processor W) (name description : String) (payload : Json) :
    JobTask W JobRecord := do
  let fields ← JobTask.ofExcept (Payload.fieldsOf payload)
  let _ ← JobTask.ofExcept (Payload.validate fields)
  JobTask.call (p.backend.records.create ⟨name, description, payload.compact⟩)

/-- The status of a job that is gone: it is taken to have failed if there is a place for its
export file and the file is not there. -/
def statusOfGone (p : Processor W) (id : String) : JobTask W JobStatus :=
  match p.exports with
  | none => pure .completed
  | some exports => do
      match ← JobTask.call (exports.findByJob id) with
      | some _ => return .completed
      | none => return .failed

/-- Where a job stands. -/
def status (p : Processor W) (id : String) : JobTask W JobStatus := do
  match ← JobTask.call (p.backend.records.find id) with
  | none => p.statusOfGone id
  | some r =>
      let now ← JobTask.perform p.backend.clock
      return if r.isReserved p.settings.window now then .processing else .queued

end Processor

namespace Pool

/-- A pool as a text for people, under the name it was given. -/
def describe {W : Type} (p : Pool W) (name : String) : String :=
  "WorkerPool \x7b id: " ++ Text.quoted name ++ ", size: " ++ Decimal.natText p.size ++
    ", shutdown: " ++ (if p.isShutdown then "true" else "false") ++ ", .. \x7d"

end Pool

/-- A processor as a text for people, with the text of its pool. -/
def Processor.describe {W : Type} (p : Processor W) (pool : String) : String :=
  "JobProcessor \x7b registry: " ++ p.registry.describe ++ ", pool: " ++
    (if p.isPooled then "Some(" ++ pool ++ ")" else "None") ++ ", .. \x7d"

end JobQueue
