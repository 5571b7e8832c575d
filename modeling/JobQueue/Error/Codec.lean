/-
Errors as objects: written with their kind and message, read from their kind and what belongs to
it.
-/

import JobQueue.Error
import JobQueue.Json.Decode

namespace JobQueue

/-- An error as an object. -/
def errorObject (kind message : String) : Json :=
  .obj [("error", .str kind), ("message", .str message)]

/-- A store error as an object. -/
def StoreError.toJson (e : StoreError) : Json := errorObject e.kind e.message

/-- A job error as an object. -/
def JobError.toJson (e : JobError) : Json := errorObject e.kind e.message

/-- A service error as an object. -/
def ServiceError.toJson (e : ServiceError) : Json := errorObject e.code e.message

/-- A decoding error as an object. -/
def DecodeError.toJson (e : DecodeError) : Json := errorObject "Deserialize" e.message

/-- A result as a value: a success without a value is the text `ok`. -/
def JobResult.toJson : Except JobError Unit → Json
  | .ok () => .str "ok"
  | .error e => e.toJson

/-- The text of a field, empty if there is none. -/
def textOf (v : Json) (key : String) : String := ((v.get? key).bind Json.str?).getD ""

/-- The number of a field, zero if there is none. -/
def numberOf (v : Json) (key : String) : Nat :=
  match v.get? key with
  | some (.int n) => n.toNat
  | _ => 0

/-- Reads a store error. -/
def StoreError.ofJson? (v : Json) : Option StoreError :=
  match textOf v "kind" with
  | "NotFound" => some (.notFound (textOf v "id"))
  | "Database" => some (.database (textOf v "message"))
  | "Corrupt" => some (.corrupt (textOf v "id") (textOf v "reason"))
  | _ => none

/-- Reads a job error. -/
def JobError.ofJson? (v : Json) : Option JobError :=
  let text := textOf v "message"
  let id := textOf v "job_id"
  let cause := (v.get? "source").bind StoreError.ofJson?
  match textOf v "kind" with
  | "InvalidRecord" => some (.invalidRecord text)
  | "InvalidPayload" => some (.invalidPayload text)
  | "NoHandler" => some (.noHandler text)
  | "HandlerFailed" => some (.handlerFailed text)
  | "Panicked" => some (.crashed text)
  | "Configuration" => some (.configuration text)
  | "Registration" => some (.registration text)
  | "Serialization" => some (.serialization text)
  | "AlreadyReserved" => some (.alreadyReserved id)
  | "Reservation" => cause.map (.reservation id)
  | "Completion" => cause.map (.completion id)
  | "Store" => cause.map .store
  | "PoolShutdown" => some .poolShutdown
  | "EnqueueTimeout" => some (.enqueueTimeout id (numberOf v "secs"))
  | "ResultTimeout" => some (.resultTimeout (numberOf v "secs"))
  | "ShutdownDeadline" => some (.shutdownDeadline (Span.ofMillis (numberOf v "ms")))
  | _ => none

/-- Reads a service error. -/
def ServiceError.ofJson? (v : Json) : Option ServiceError :=
  let text := textOf v "message"
  match textOf v "kind" with
  | "NotFound" => some (.notFound "JobRecord" (textOf v "id"))
  | "Validation" => some (.validation text)
  | "Conflict" => some (.conflict text)
  | "Database" => some (.database text)
  | "Configuration" => some (.configuration text)
  | "Timeout" => some (.timeout text)
  | "Internal" => some (.internal text)
  | "Other" => some (.other text)
  | _ => none

end JobQueue
