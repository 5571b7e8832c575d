/-
Records as structured values.

A record is written as an object of its nine fields and read from one, or from a list of the
nine in the order they are declared. Times are written with as few digits as they need and read
in the loose form.
-/

import JobQueue.Record.Basic
import JobQueue.Time.Loose
import JobQueue.Json.Decode

namespace JobQueue

/-- An instant as a structured value. -/
def Instant.toJson (t : Instant) : Json := .str t.jsonText

/-- Reads an instant. -/
def Instant.ofJson : Json.Decoder Instant
  | .str s =>
      match Time.readLoose s with
      | .ok t => .ok t
      | .error fault => .error (.custom fault.message)
  | v => Json.mismatch v "an RFC 3339 formatted date and time string"

namespace JobRecord

/-- The record as an object. -/
def toJson (r : JobRecord) : Json :=
  .obj [
    ("attempts", .int r.attempts.toNat),
    ("collection", .str r.collection),
    ("created", r.created.toJson),
    ("description", .str r.description),
    ("id", .str r.id),
    ("name", .str r.name),
    ("payload", .str r.payload),
    ("reserved_at", .str r.reservedAt),
    ("updated", r.updated.toJson)]

/-- The decoders of the nine fields, as they are declared. -/
def decoders : List (Json.FieldDecoder JobRecord) := [
  ⟨"id", true, fun r v => (Json.asString v).map fun s => { r with id := s }⟩,
  ⟨"collection", true, fun r v => (Json.asString v).map fun s => { r with collection := s }⟩,
  ⟨"name", true, fun r v => (Json.asString v).map fun s => { r with name := s }⟩,
  ⟨"description", true, fun r v => (Json.asString v).map fun s => { r with description := s }⟩,
  ⟨"payload", true, fun r v => (Json.asString v).map fun s => { r with payload := s }⟩,
  ⟨"attempts", true, fun r v =>
    (Json.asNatBelow attemptBound "u32" v).map fun n => { r with attempts := .ofNat n }⟩,
  ⟨"reserved_at", true, fun r v => (Json.asString v).map fun s => { r with reservedAt := s }⟩,
  ⟨"created", true, fun r v => (Instant.ofJson v).map fun t => { r with created := t }⟩,
  ⟨"updated", true, fun r v => (Instant.ofJson v).map fun t => { r with updated := t }⟩]

/-- A record with nothing in it, before its fields are decoded. -/
def blank : JobRecord := ⟨"", "", "", "", "", 0, "", ⟨0, 0⟩, ⟨0, 0⟩⟩

/-- Reads a record. -/
def ofJson : Json.Decoder JobRecord :=
  Json.asRecord "JobRecord" decoders blank

end JobRecord

namespace NewJobRecord

/-- The request as an object. -/
def toJson (n : NewJobRecord) : Json :=
  .obj [
    ("description", .str n.description), ("name", .str n.name), ("payload", .str n.payload)]

/-- Reads a request. -/
def ofJson : Json.Decoder NewJobRecord :=
  Json.asRecord "NewJobRecord" [
    ⟨"name", true, fun n v => (Json.asString v).map fun s => { n with name := s }⟩,
    ⟨"description", true, fun n v => (Json.asString v).map fun s => { n with description := s }⟩,
    ⟨"payload", true, fun n v => (Json.asString v).map fun s => { n with payload := s }⟩]
    ⟨"", "", ""⟩

end NewJobRecord

namespace JobStatus

/-- The status as a structured value: its name. -/
def toJson (s : JobStatus) : Json := .str s.name

/-- Reads a status. -/
def ofJson : Json.Decoder JobStatus :=
  Json.asVariant ([JobStatus.queued, .processing, .completed, .failed].map fun s => (s.name, s))

end JobStatus

end JobQueue
