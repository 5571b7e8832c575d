/-
Payloads and the jobs read from them.

A payload is an object with a nonempty text as its `type` and, where it has them, objects as
`data` and `options`. A record whose payload text is such an object is a job.
-/

import JobQueue.Error
import JobQueue.Record.Basic
import JobQueue.Json.Reader

namespace JobQueue

namespace Payload

/-- Whether a value is an object. -/
def isObject : Json → Bool
  | .obj _ => true
  | _ => false

/-- Refuses a field that is there and is no object. -/
def checkObject (fields : Fields) (name : String) : Except JobError Unit :=
  match Fields.get? fields name with
  | some v =>
      if isObject v then .ok () else .error (.invalidPayload s!"'{name}' field must be an object")
  | none => .ok ()

/-- The job type of a payload, if the payload is in order. -/
def validate (fields : Fields) : Except JobError String := do
  let jobType ←
    match Fields.get? fields "type" with
    | none => .error (.invalidPayload "job payload must contain a 'type' field")
    | some (.str t) =>
        if t.isEmpty then .error (.invalidPayload "'type' field must be a non-empty string")
        else .ok t
    | some _ => .error (.invalidPayload "'type' field must be a non-empty string")
  checkObject fields "data"
  checkObject fields "options"
  .ok jobType

/-- The fields of a payload, if it is an object. -/
def fieldsOf : Json → Except JobError Fields
  | .obj fields => .ok fields
  | _ => .error (.invalidPayload "job payload must be a JSON object")

/-- The fields of a payload text. In the error, what follows the colon stands for the account that a
reader of texts gives of the first fault and its place. -/
def parse (text : String) : Except JobError Fields :=
  match Json.read text with
  | some v => fieldsOf v
  | none => .error (.invalidPayload "payload is not valid JSON: unreadable text")

end Payload

/-- A record read as a job. -/
structure Job where
  id : String
  name : String
  description : String
  jobType : String
  payload : Fields
  attempts : UInt32
  reservedAt : Option Instant
  created : Instant
  updated : Instant
deriving Repr

namespace Job

/-- Reads a record as a job. -/
def ofRecord (r : JobRecord) : Except JobError Job := do
  let payload ← Payload.parse r.payload
  let jobType ← Payload.validate payload
  .ok {
    id := r.id
    name := r.name
    description := r.description
    jobType := jobType
    payload := payload
    attempts := r.attempts
    reservedAt := r.reservedSince?
    created := r.created
    updated := r.updated }

/-- An object that stands under a key of the payload. -/
def objectAt? (j : Job) (key : String) : Option Fields :=
  match Fields.get? j.payload key with
  | some (.obj fields) => some fields
  | _ => none

/-- The data of the payload. -/
def data? (j : Job) : Option Fields := j.objectAt? "data"

/-- The options of the payload. -/
def options? (j : Job) : Option Fields := j.objectAt? "options"

end Job

end JobQueue
