/-
Handlers and their registry.

A handler runs the jobs of one type as a task. The registry keeps the first handler accepted for
each type; later ones for the same type are refused and change nothing.
-/

import JobQueue.Job.Task
import JobQueue.Store.Basic
import JobQueue.Payload.Typed

namespace JobQueue

/-- A task that may end with an error or break off. -/
abbrev JobTask (W α : Type) := ExceptT (Fault JobError) (Task W) α

namespace JobTask

variable {W α : Type}

/-- Ends with an error. -/
def fail (e : JobError) : JobTask W α := throw (.error e)

/-- Breaks off. -/
def breakOff (c : Crash) : JobTask W α := throw (.crash c)

/-- Goes on with a result. -/
def ofExcept (r : Except JobError α) : JobTask W α :=
  match r with
  | .ok a => pure a
  | .error e => fail e

/-- A pause. -/
def sleep (millis : Nat) : JobTask W Unit :=
  ExceptT.lift (Task.sleep millis)

/-- One atomic step. -/
def perform (step : W → α × W) : JobTask W α :=
  ExceptT.lift (Task.perform step)

/-- A store call whose error is one of the job. -/
def call (c : StoreCall W α) : JobTask W α :=
  ExceptT.mk do
    match ← Task.perform c with
    | .ok a => return .ok a
    | .error (.error e) => return .error (.error (.store e))
    | .error (.crash c) => return .error (.crash c)

end JobTask

/-- What a handler is told about the run. -/
structure JobContext where
  correlationId : String
  workerId : Option Nat
  attempts : UInt32
deriving DecidableEq, Repr

namespace JobContext

/-- The context of a job on a worker, or on the caller's own task. -/
def ofJob (j : Job) (worker : Option Nat) : JobContext := ⟨j.id, worker, j.attempts⟩

/-- The context as a text for people. -/
def describe (c : JobContext) : String :=
  let worker :=
    match c.workerId with
    | none => "None"
    | some n => s!"Some({Decimal.natText n})"
  "JobContext \x7b correlation_id: " ++ Text.quoted c.correlationId ++ ", worker_id: " ++ worker ++
    ", attempts: " ++ Decimal.natText c.attempts.toNat ++ ", .. \x7d"

end JobContext

/-- A handler of the jobs of one type. -/
structure Handler (W : Type) where
  jobType : String
  run : JobContext → Job → JobTask W Unit

/-- A handler whose payload is typed. -/
structure TypedHandler (W D O : Type) where
  jobType : String
  data : Codec D
  options : Codec O
  noOptions : O
  run : JobContext → TypedPayload D O → JobTask W Unit

namespace TypedHandler

variable {W D O : Type}

/-- The handler that decodes the payload first and refuses one of another type. -/
def toHandler (h : TypedHandler W D O) : Handler W where
  jobType := h.jobType
  run := fun context job => do
    let payload ← JobTask.ofExcept (job.decode h.data h.options h.noOptions)
    if payload.jobType != h.jobType then
      JobTask.fail (.invalidPayload
        s!"invalid job type: expected {h.jobType}, got {payload.jobType}")
    else h.run context payload

/-- The typed handler as a text for people. -/
def describe (h : TypedHandler W D O) : String :=
  s!"Typed({Text.quoted h.jobType})"

end TypedHandler

/-- The handlers under their job types. -/
structure Registry (W : Type) where
  handlers : List (String × Handler W)

namespace Registry

variable {W : Type}

/-- A registry without handlers. -/
def empty : Registry W := ⟨[]⟩

/-- Adds a handler for a type that has none. -/
def register (r : Registry W) (h : Handler W) : Except JobError (Registry W) :=
  if h.jobType.isEmpty then .error (.registration "handler job type cannot be empty")
  else if (r.handlers.lookup h.jobType).isSome then
    .error (.registration s!"handler for job type '{h.jobType}' already registered")
  else .ok ⟨r.handlers ++ [(h.jobType, h)]⟩

/-- The handler of a type. -/
def get (r : Registry W) (jobType : String) : Except JobError (Handler W) :=
  match r.handlers.lookup jobType with
  | some h => .ok h
  | none => .error (.noHandler jobType)

/-- How many types have a handler. -/
def size (r : Registry W) : Nat := r.handlers.length

/-- The types that have a handler, in order. -/
def jobTypes (r : Registry W) : List String :=
  (r.handlers.map Prod.fst).mergeSort fun a b => a ≤ b

/-- The registry as a text for people. -/
def describe (r : Registry W) : String :=
  "JobRegistry \x7b job_types: [" ++ Text.joinNames (r.jobTypes.map Text.quoted) ++ "] \x7d"

end Registry

end JobQueue
