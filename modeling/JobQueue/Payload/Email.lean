/-
E-mail jobs.
-/

import JobQueue.Payload.Typed
import JobQueue.Text.Blank

namespace JobQueue

/-- The job type of e-mail jobs. -/
def emailJobType : String := "email"

/-- An e-mail to send: the template is filled with the variables. -/
structure EmailData where
  recipient : String
  subject : String
  template : String
  values : Fields
deriving Repr

namespace EmailData

/-- Refuses an e-mail without an address that has an `@`, a subject and a template. -/
def validate (e : EmailData) : Except JobError Unit :=
  if Text.isAllBlank e.recipient || !e.recipient.contains '@' then
    .error (.invalidPayload s!"invalid recipient address: '{e.recipient}'")
  else if Text.isAllBlank e.subject then
    .error (.invalidPayload "email subject is required")
  else if Text.isAllBlank e.template then
    .error (.invalidPayload "email template is required")
  else .ok ()

/-- The data as an object. -/
def toJson (e : EmailData) : Json :=
  .obj [("subject", .str e.subject), ("template", .str e.template), ("to", .str e.recipient),
    ("variables", .obj e.values)]

/-- Reads the data; variables may be missing. -/
def ofJson : Json.Decoder EmailData :=
  Json.asRecord "EmailJobData" [
    ⟨"to", true, fun e v => (Json.asString v).map fun s => { e with recipient := s }⟩,
    ⟨"subject", true, fun e v => (Json.asString v).map fun s => { e with subject := s }⟩,
    ⟨"template", true, fun e v => (Json.asString v).map fun s => { e with template := s }⟩,
    ⟨"variables", false, fun e v => (Json.asFields v).map fun f => { e with values := f }⟩]
    ⟨"", "", "", []⟩

/-- How the data is written and read. -/
def codec : Codec EmailData := ⟨toJson, ofJson⟩

end EmailData

end JobQueue
