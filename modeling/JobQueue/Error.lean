/-
What can go wrong, and how it is said.

`StoreError` is what a store answers, `JobError` what a job ends with, and `ServiceError` what
the service tells those who call it. Each has one `message`, and the conversions from one to the
next say which errors keep their kind.
-/

import JobQueue.Time.Span

namespace JobQueue

/-- What a store answers when a call fails. -/
inductive StoreError where
  | notFound (id : String)
  | database (text : String)
  | corrupt (id reason : String)
deriving DecidableEq, Repr

/-- The wording of a store error. -/
def StoreError.message : StoreError → String
  | .notFound id => s!"Record not found: {id}"
  | .database text => s!"Database error: {text}"
  | .corrupt id reason => s!"Corrupt record {id}: {reason}"

/-- The kind of a store error. -/
def StoreError.kind : StoreError → String
  | .notFound _ => "NotFound"
  | .database _ => "Database"
  | .corrupt .. => "Corrupt"

/-- What a job, a batch or the pool ends with. -/
inductive JobError where
  | invalidRecord (text : String)
  | alreadyReserved (jobId : String)
  | reservation (jobId : String) (cause : StoreError)
  | invalidPayload (text : String)
  | noHandler (jobType : String)
  | handlerFailed (text : String)
  | crashed (text : String)
  | completion (jobId : String) (cause : StoreError)
  | store (cause : StoreError)
  | poolShutdown
  | enqueueTimeout (jobId : String) (seconds : Nat)
  | resultTimeout (seconds : Nat)
  | shutdownDeadline (deadline : Span)
  | configuration (text : String)
  | registration (text : String)
  | serialization (text : String)
deriving DecidableEq, Repr

namespace JobError

/-- The wording of a job error. -/
def message : JobError → String
  | .invalidRecord text => s!"Invalid job record: {text}"
  | .alreadyReserved id => s!"Job {id} is already reserved"
  | .reservation id cause => s!"Failed to reserve job {id}: {cause.message}"
  | .invalidPayload text => s!"Invalid job payload: {text}"
  | .noHandler jobType => s!"No handler registered for job type: {jobType}"
  | .handlerFailed text => s!"Job handler failed: {text}"
  | .crashed text => s!"Job handler panicked: {text}"
  | .completion id cause => s!"Job {id} completed but could not be removed: {cause.message}"
  | .store cause => s!"Store error: {cause.message}"
  | .poolShutdown => "pool is shutdown"
  | .enqueueTimeout id seconds =>
      s!"Timed out enqueueing job {id} after {Decimal.natText seconds}s"
  | .resultTimeout seconds =>
      s!"Timed out waiting for job result after {Decimal.natText seconds}s"
  | .shutdownDeadline deadline =>
      s!"Worker pool shutdown exceeded deadline of {deadline.text}"
  | .configuration text => s!"Configuration error: {text}"
  | .registration text => s!"Handler registration failed: {text}"
  | .serialization text => s!"Serialization error: {text}"

/-- The kind of a job error. -/
def kind : JobError → String
  | .invalidRecord _ => "InvalidRecord"
  | .alreadyReserved _ => "AlreadyReserved"
  | .reservation .. => "Reservation"
  | .invalidPayload _ => "InvalidPayload"
  | .noHandler _ => "NoHandler"
  | .handlerFailed _ => "HandlerFailed"
  | .crashed _ => "Panicked"
  | .completion .. => "Completion"
  | .store _ => "Store"
  | .poolShutdown => "PoolShutdown"
  | .enqueueTimeout .. => "EnqueueTimeout"
  | .resultTimeout _ => "ResultTimeout"
  | .shutdownDeadline _ => "ShutdownDeadline"
  | .configuration _ => "Configuration"
  | .registration _ => "Registration"
  | .serialization _ => "Serialization"

/-- Whether the store is to blame rather than the job. -/
def isInfrastructure : JobError → Bool
  | .reservation .. | .completion .. | .store _ => true
  | _ => false

/-- Whether the pool ended the job's wait rather than the job itself. -/
def isPoolCapacity : JobError → Bool
  | .poolShutdown | .enqueueTimeout .. | .resultTimeout _ => true
  | _ => false

end JobError

/-- What the service tells its callers. -/
inductive ServiceError where
  | notFound (resource id : String)
  | validation (text : String)
  | conflict (text : String)
  | database (text : String)
  | configuration (text : String)
  | timeout (text : String)
  | internal (text : String)
  | other (text : String)
deriving DecidableEq, Repr

namespace ServiceError

/-- The wording of a service error. -/
def message : ServiceError → String
  | .notFound resource id => s!"Resource not found: {resource} with id {id}"
  | .validation text => s!"Validation error: {text}"
  | .conflict text => s!"Conflict: {text}"
  | .database text => s!"Database error: {text}"
  | .configuration text => s!"Configuration error: {text}"
  | .timeout text => s!"Operation timed out: {text}"
  | .internal text => s!"Internal error: {text}"
  | .other text => text

/-- A short code for programs. -/
def code : ServiceError → String
  | .notFound .. => "NOT_FOUND"
  | .validation _ => "VALIDATION_ERROR"
  | .conflict _ => "CONFLICT"
  | .database _ => "DATABASE_ERROR"
  | .configuration _ => "CONFIGURATION_ERROR"
  | .timeout _ => "TIMEOUT"
  | .internal _ | .other _ => "INTERNAL_ERROR"

/-- Whether the same call may succeed later. -/
def isTransient : ServiceError → Bool
  | .database _ | .timeout _ => true
  | _ => false

end ServiceError

/-- A store error as the service tells it. -/
def StoreError.toService : StoreError → ServiceError
  | .notFound id => .notFound "JobRecord" id
  | e => .database e.message

/-- A job error as the service tells it. -/
def JobError.toService : JobError → ServiceError
  | .registration text => .conflict text
  | .configuration text => .configuration text
  | .invalidRecord text | .invalidPayload text => .validation text
  | .store cause => .database cause.message
  | .shutdownDeadline deadline => .timeout (JobError.shutdownDeadline deadline).message
  | .resultTimeout seconds => .timeout (JobError.resultTimeout seconds).message
  | e => .internal e.message

end JobQueue
