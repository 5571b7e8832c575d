/-
Payloads with typed data.

`TypedPayload.ofFields` decodes a payload's data and options, `toJson` writes them back. Options
may be missing, data may not.
-/

import JobQueue.Payload.Basic
import JobQueue.Json.Decode

namespace JobQueue

/-- A payload whose data and options are typed. -/
structure TypedPayload (D O : Type) where
  jobType : String
  data : D
  options : O
deriving Repr

/-- How values of a type are written and read. -/
structure Codec (α : Type) where
  encode : α → Json
  decode : Json.Decoder α

/-- Objects as they are. -/
def Codec.fields : Codec Fields := ⟨.obj, Json.asFields⟩

namespace TypedPayload

/-- The payload as an object. -/
def toJson {D O : Type} (data : Codec D) (options : Codec O) (p : TypedPayload D O) : Json :=
  .obj [("data", data.encode p.data), ("options", options.encode p.options),
    ("type", .str p.jobType)]

/-- What has been decoded of a payload. -/
structure Partial (D O : Type) where
  jobType : Option String
  data : Option D
  options : O

/-- The decoders of the three fields, as they are declared. -/
def decoders {D O : Type} (data : Codec D) (options : Codec O) :
    List (Json.FieldDecoder (Partial D O)) := [
  ⟨"type", true, fun p v => (Json.asString v).map fun s => { p with jobType := some s }⟩,
  ⟨"data", true, fun p v => (data.decode v).map fun d => { p with data := some d }⟩,
  ⟨"options", false, fun p v => (options.decode v).map fun o => { p with options := o }⟩]

/-- Reads a payload; `noOptions` stands for missing options. -/
def ofJson {D O : Type} (data : Codec D) (options : Codec O) (noOptions : O) :
    Json.Decoder (TypedPayload D O) := fun v => do
  let p ← Json.asRecord "JobPayload" (decoders data options) ⟨none, none, noOptions⟩ v
  match p.jobType, p.data with
  | some t, some d => .ok ⟨t, d, p.options⟩
  | none, _ => .error (.missingField "type")
  | some _, none => .error (.missingField "data")

end TypedPayload

/-- Decodes the payload of a job. -/
def Job.decode {D O : Type} (data : Codec D) (options : Codec O) (noOptions : O) (j : Job) :
    Except JobError (TypedPayload D O) :=
  match TypedPayload.ofJson data options noOptions (.obj j.payload) with
  | .ok p => .ok p
  | .error e =>
      .error (.invalidPayload s!"payload does not match job type '{j.jobType}': {e.message}")

end JobQueue
