/-
What a store of records offers.

A store lives in a world of type `W`: each call takes the world and gives an answer and the world
after it. A call may answer with a store error, or break off altogether.
-/

import JobQueue.Error
import JobQueue.Record.Basic

namespace JobQueue

/-- How code breaks off: with a text, or with something that is none. -/
inductive Crash where
  | text (message : String)
  | nameless
deriving DecidableEq, Repr

/-- The text of a crash. -/
def Crash.message : Crash → String
  | .text message => message
  | .nameless => "unknown panic"

/-- How a call ends that gives no value: with an error, or by breaking off. -/
inductive Fault (ε : Type) where
  | error (e : ε)
  | crash (c : Crash)
deriving DecidableEq, Repr

/-- A store call: its answer and the world after it. -/
abbrev StoreCall (W α : Type) := W → Except (Fault StoreError) α × W

/-- A part of a world. -/
structure Part (W A : Type) where
  get : W → A
  set : A → W → W

namespace Part

variable {W A α : Type}

/-- A step on the part. -/
def use (p : Part W A) (step : A → α × A) (w : W) : α × W :=
  let (a, part) := step (p.get w)
  (a, p.set part w)

/-- A step on the part that may answer with a store error. -/
def answer (p : Part W A) (step : A → Except StoreError α × A) : StoreCall W α := fun w =>
  let (result, part) := step (p.get w)
  (result.mapError .error, p.set part w)

end Part

/-- What comes from outside: the readings of the clock and the new ids, each in its order. -/
structure Nature where
  readings : Nat → Instant
  ids : Nat → String
  /-- How often the clock has been read. -/
  read : Nat
  /-- How many ids have been made. -/
  made : Nat

namespace Nature

/-- Reads the clock. -/
def now (n : Nature) : Instant × Nature := (n.readings n.read, { n with read := n.read + 1 })

/-- Makes an id. -/
def fresh (n : Nature) : String × Nature := (n.ids n.made, { n with made := n.made + 1 })

end Nature

/-- The calls of a store of records. -/
structure RecordStore (W : Type) where
  /-- Makes a record under an id of its own. -/
  create : NewJobRecord → StoreCall W JobRecord
  /-- Finds a record. -/
  find : String → StoreCall W (Option JobRecord)
  /-- Replaces a stored record. -/
  save : JobRecord → StoreCall W Unit
  /-- Removes a stored record. -/
  delete : JobRecord → StoreCall W Unit
  /-- A page of the records that a scan may take, newest first. -/
  available : Instant → Nat → Nat → StoreCall W (List JobRecord)

end JobQueue
