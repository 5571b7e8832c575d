/-
Records kept in memory.

The records stand under their ids, each id once. Only a stored record can be saved or deleted,
so nothing brings a deleted record back. `available` pages through one list: the available
records, newest first, records of one age by id.
-/

import JobQueue.Store.Basic

namespace JobQueue

/-- Records under their ids. -/
structure MemoryStore where
  records : List (String × JobRecord)
deriving Repr, Inhabited

namespace MemoryStore

/-- A store without records. -/
def empty : MemoryStore := ⟨[]⟩

/-- The record under an id. -/
def get? (m : MemoryStore) (id : String) : Option JobRecord := m.records.lookup id

/-- How many records there are. -/
def size (m : MemoryStore) : Nat := m.records.length

/-- Puts a record under an id, in place of one that stands there. -/
def put (id : String) (r : JobRecord) : List (String × JobRecord) → List (String × JobRecord)
  | [] => [(id, r)]
  | (k, s) :: rest => if k = id then (id, r) :: rest else (k, s) :: put id r rest

/-- The store with a record under its id. -/
def insert (m : MemoryStore) (r : JobRecord) : MemoryStore := ⟨put r.id r m.records⟩

/-- The store without the record under an id. -/
def erase (m : MemoryStore) (id : String) : MemoryStore :=
  ⟨m.records.filter fun p => p.1 != id⟩

/-- Makes a record under the id given. -/
def create (new : NewJobRecord) (id : String) (now : Instant) (m : MemoryStore) :
    JobRecord × MemoryStore :=
  let r := new.toRecord id now
  (r, m.insert r)

/-- Replaces a stored record. -/
def save (r : JobRecord) (m : MemoryStore) : Except StoreError Unit × MemoryStore :=
  match m.get? r.id with
  | some _ => (.ok (), m.insert r)
  | none => (.error (.notFound r.id), m)

/-- Removes a stored record. -/
def delete (r : JobRecord) (m : MemoryStore) : Except StoreError Unit × MemoryStore :=
  match m.get? r.id with
  | some _ => (.ok (), m.erase r.id)
  | none => (.error (.notFound r.id), m)

/-- Whether the first record comes no later than the second in a page: the newer first, of one
age the lesser id. -/
def pageOrder (a b : JobRecord) : Bool :=
  if b.created < a.created then true
  else if a.created < b.created then false
  else a.id ≤ b.id

/-- The records that a scan may take, in the order of the pages. -/
def pageList (m : MemoryStore) (expiredBefore : Instant) : List JobRecord :=
  ((m.records.map Prod.snd).filter fun r => r.isAvailable expiredBefore).mergeSort pageOrder

/-- One page of the records that a scan may take. -/
def available (m : MemoryStore) (expiredBefore : Instant) (limit offset : Nat) :
    List JobRecord :=
  ((m.pageList expiredBefore).drop offset).take limit

/-- The store as part of a world that also has a nature. -/
def recordStore {W : Type} (place : Part W MemoryStore) (nature : Part W Nature) :
    RecordStore W where
  create := fun new w =>
    let (id, w) := nature.use Nature.fresh w
    let (now, w) := nature.use Nature.now w
    let (r, m) := create new id now (place.get w)
    (.ok r, place.set m w)
  find := fun id w => (.ok ((place.get w).get? id), w)
  save := fun r w => place.answer (save r) w
  delete := fun r w => place.answer (delete r) w
  available := fun before limit offset w => (.ok ((place.get w).available before limit offset), w)

end MemoryStore

end JobQueue
