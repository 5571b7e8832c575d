/-
The accounts of one batch.

Every record of a batch has a slot, in the order of the records. An index is either still open,
waiting in the queue of its record's id, or its slot is filled. `outstanding` counts the open
indices. A report fills the earliest open index of its id; a wait that runs out is charged to
the earliest open index of all.
-/

import JobQueue.Error

namespace JobQueue

/-- The result of one job. -/
abbrev JobResult := Except JobError Unit

/-- Open indices under the ids they wait for. -/
abbrev Pending := List (String × List Nat)

namespace Pending

/-- Opens an index for an id, behind those that wait already. -/
def push (id : String) (index : Nat) : Pending → Pending
  | [] => [(id, [index])]
  | (k, queue) :: rest =>
      if k = id then (k, queue ++ [index]) :: rest else (k, queue) :: push id index rest

/-- Closes the first open index of an id. -/
def takeFor (id : String) : Pending → Option (Nat × Pending)
  | [] => none
  | (k, queue) :: rest =>
      if k = id then
        match queue with
        | index :: more => some (index, (k, more) :: rest)
        | [] => none
      else (takeFor id rest).map fun (index, rest) => (index, (k, queue) :: rest)

/-- The queue whose front is least, as its id and that front. -/
def leastFront : Pending → Option (String × Nat)
  | [] => none
  | (_, []) :: rest => leastFront rest
  | (k, index :: _) :: rest =>
      match leastFront rest with
      | some (l, least) => if least < index then some (l, least) else some (k, index)
      | none => some (k, index)

/-- Closes the least index that waits at the front of a queue. -/
def takeFirst (p : Pending) : Option (Nat × Pending) :=
  match leastFront p with
  | some (id, _) => takeFor id p
  | none => none

/-- All open indices. -/
def indices (p : Pending) : List Nat := p.flatMap Prod.snd

end Pending

/-- The accounts of one batch. -/
structure Ledger where
  slots : List (Option JobResult)
  pending : Pending
  outstanding : Nat

namespace Ledger

/-- The accounts of a batch of `n` records before anything is sent. -/
def start (n : Nat) : Ledger := ⟨List.replicate n none, [], 0⟩

/-- Fills a slot. -/
def fill (l : Ledger) (index : Nat) (result : JobResult) : List (Option JobResult) :=
  l.slots.set index (some result)

/-- A record was sent: its index is open. -/
def sent (l : Ledger) (id : String) (index : Nat) : Ledger :=
  { l with pending := l.pending.push id index, outstanding := l.outstanding + 1 }

/-- A record could not be sent. -/
def refused (l : Ledger) (index : Nat) (e : JobError) : Ledger :=
  { l with slots := l.fill index (.error e) }

/-- A report came in. One that no open index waits for changes nothing. -/
def receive (l : Ledger) (id : String) (result : JobResult) : Ledger :=
  match l.pending.takeFor id with
  | some (index, pending) =>
      { slots := l.fill index result, pending := pending, outstanding := l.outstanding - 1 }
  | none => l

/-- A wait for a report ran out. -/
def expire (l : Ledger) (e : JobError) : Ledger :=
  match l.pending.takeFirst with
  | some (index, pending) =>
      { slots := l.fill index (.error e), pending := pending, outstanding := l.outstanding - 1 }
  | none => { l with outstanding := l.outstanding - 1 }

/-- The results, with `unresolved` in the slots that are still empty. -/
def finish (l : Ledger) (unresolved : JobError) : List JobResult :=
  l.slots.map fun slot => slot.getD (.error unresolved)

end Ledger

end JobQueue
