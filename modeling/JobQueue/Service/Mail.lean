/-
Sending e-mails.

The handler checks an e-mail and hands it to a mailer under the sender's address; nothing is sent
that is not in order. The sender comes from a variable, unless that is blank or not set.
-/

import JobQueue.Job.Handler
import JobQueue.Payload.Email

namespace JobQueue

/-- The sender if none is named. -/
def defaultSender : String := "noreply@beacon.local"

/-- The variable that names the sender. -/
def senderVariable : String := "SMTP_FROM_EMAIL"

/-- The sender that the value of the variable names. -/
def senderOf (value? : Option String) : String :=
  (value?.filter fun s => !Text.isAllBlank s).getD defaultSender

/-- Sends an e-mail in the name of a sender. -/
abbrev Mailer (W : Type) := String → EmailData → JobTask W Unit

/-- A mailer that keeps nothing of what it is given. -/
def Mailer.silent {W : Type} : Mailer W := fun _ _ => pure ()

/-- The handler of e-mail jobs. -/
def sendEmail {W : Type} (mailer : Mailer W) (sender : String) :
    TypedHandler W EmailData Fields where
  jobType := emailJobType
  data := EmailData.codec
  options := Codec.fields
  noOptions := []
  run := fun _ payload => do
    JobTask.ofExcept payload.data.validate
    mailer sender payload.data

end JobQueue
