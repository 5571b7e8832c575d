/-
Records of queued work and their leases.

A record carries its payload as text, the number of failed attempts in a word of 32 bits, and a
lease: empty, or the written start of the time for which somebody holds the record. A lease that
cannot be read holds nothing, so damage to it can never pin a record.
-/

import JobQueue.Decimal.Word
import JobQueue.Time.Strict
import JobQueue.Time.Span

namespace JobQueue

/-- The collection that all queued records belong to. -/
def queueCollection : String := "queues"

/-- A stored piece of work. -/
structure JobRecord where
  id : String
  collection : String
  name : String
  description : String
  payload : String
  attempts : UInt32
  reservedAt : String
  created : Instant
  updated : Instant
deriving DecidableEq, Repr, Inhabited

/-- What is given to make a record. -/
structure NewJobRecord where
  name : String
  description : String
  payload : String
deriving DecidableEq, Repr, Inhabited

/-- The record made of it, free and without attempts. -/
def NewJobRecord.toRecord (new : NewJobRecord) (id : String) (now : Instant) : JobRecord where
  id := id
  collection := queueCollection
  name := new.name
  description := new.description
  payload := new.payload
  attempts := 0
  reservedAt := ""
  created := now
  updated := now

/-- The time from which a lease text holds, if it says one. -/
def leaseStart? (text : String) : Option Instant :=
  if text.isEmpty then none else Time.strict? text

/-- Whether a lease of a given length, begun at `start`, still holds. A length that no instant
can be moved by never ends. -/
def leaseHolds (window : Span) (start now : Instant) : Bool :=
  if window.isUsable then now.since start < window.nanos else true

namespace JobRecord

/-- One more than the greatest number of attempts. -/
def attemptBound : Nat := Word.count 32

/-- Whether the number of attempts is the greatest there is. -/
def isSpent (r : JobRecord) : Bool := r.attempts.toNat + 1 == attemptBound

/-- The time from which the record is leased. -/
def reservedSince? (r : JobRecord) : Option Instant := leaseStart? r.reservedAt

/-- Whether a lease holds the record. -/
def isReserved (r : JobRecord) (window : Span) (now : Instant) : Bool :=
  match r.reservedSince? with
  | some start => leaseHolds window start now
  | none => false

/-- The record with a lease that starts now. -/
def reserve (r : JobRecord) (now : Instant) : JobRecord :=
  { r with reservedAt := now.leaseText, updated := now }

/-- The record after a failed attempt: one attempt more, and free. After the greatest number of
attempts comes none. -/
def markFailed (r : JobRecord) (now : Instant) : JobRecord :=
  { r with attempts := r.attempts + 1, reservedAt := "", updated := now }

/-- Whether a scan may take the record: it is free, its lease cannot be read, or the lease
started before the time given. -/
def isAvailable (r : JobRecord) (expiredBefore : Instant) : Bool :=
  if r.reservedAt.isEmpty then true
  else
    match Time.strict? r.reservedAt with
    | some start => start < expiredBefore
    | none => true

end JobRecord

/-- Where a record stands. -/
inductive JobStatus where
  | queued
  | processing
  | completed
  | failed
deriving DecidableEq, Repr

/-- The name of a status. -/
def JobStatus.name : JobStatus → String
  | .queued => "queued"
  | .processing => "processing"
  | .completed => "completed"
  | .failed => "failed"

end JobQueue
