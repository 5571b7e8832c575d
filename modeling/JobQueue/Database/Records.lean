/-
Queued records in a database.

Times are written with six digits after the point, so that their texts compare as the times do.
`save` leaves the collection and the creation time of a line as they are. `available` compares
leases as texts: a lease that is no time is taken for one by its spelling. A line that is no
record makes a call that reads it fail.
-/

import JobQueue.Database.Basic
import JobQueue.Store.Basic

namespace JobQueue.Database

/-! ### Lines and records -/

/-- The cells of a record. -/
def recordCells (r : JobRecord) : List Cell := [
  .text r.id, .text r.collection, .text r.name, .text r.description, .text r.payload,
  .int r.attempts.toNat, .text r.reservedAt, .text r.created.storedText,
  .text r.updated.storedText]

/-- The record that a line holds. -/
def readRecord (l : Line) : Except StoreError JobRecord := do
  let id ← readText "id" (l.at 0)
  let collection ← readText "collection" (l.at 1)
  let name ← readText "name" (l.at 2)
  let description ← readText "description" (l.at 3)
  let payload ← readText "payload" (l.at 4)
  let attempts ← readInt "attempts" (l.at 5)
  let reservedAt ← readText "reserved_at" (l.at 6)
  let created ← readText "created" (l.at 7)
  let updated ← readText "updated" (l.at 8)
  let attempts ← countBelow JobRecord.attemptBound id "attempts" attempts
  let created ← storedTime id "created" created
  let updated ← storedTime id "updated" updated
  .ok ⟨id, collection, name, description, payload, .ofNat attempts, reservedAt, created, updated⟩

/-- The cells of a line after a record has been saved to it. -/
def savedCells (r : JobRecord) (cells : List Cell) : List Cell :=
  let old (place : Nat) : Cell := (cells[place]?).getD .null
  [old 0, old 1, .text r.name, .text r.description, .text r.payload, .int r.attempts.toNat,
    .text r.reservedAt, old 7, .text r.updated.storedText]

/-- Whether a line has an id. -/
def hasId (id : String) (l : Line) : Bool := (l.at 0).same (.text id)

/-! ### The calls -/

/-- Writes a new record. -/
def createRecord (r : JobRecord) : Database → Except StoreError JobRecord × Database :=
  write fun db => (db.insertRecord (recordCells r)).map fun db => (r, db)

/-- Finds a record by its id. -/
def findRecord (id : String) : Database → Except StoreError (Option JobRecord) × Database :=
  read fun db =>
    match db.records.lines.find? (hasId id) with
    | some l => (readRecord l).map some
    | none => .ok none

/-- Changes the table of records if it has a line with an id. -/
def changeRecord (id : String) (change : Table → Table) :
    Database → Except StoreError Unit × Database :=
  write fun db =>
    if db.records.lines.any (hasId id) then .ok ((), { db with records := change db.records })
    else .error (.notFound id)

/-- Replaces what may change of a stored record. -/
def saveRecord (r : JobRecord) : Database → Except StoreError Unit × Database :=
  changeRecord r.id fun t => t.update (hasId r.id) (savedCells r)

/-- Removes a stored record. -/
def deleteRecord (r : JobRecord) : Database → Except StoreError Unit × Database :=
  changeRecord r.id fun t => t.erase (hasId r.id)

/-- Whether a scan may take the record of a line: it belongs to the queue, and its lease is empty
or comes before a text. -/
def isFree (before : String) (l : Line) : Bool :=
  (l.at 1).same (.text queueCollection) &&
    ((l.at 6).same (.text "") || (l.at 6).less (.text before))

/-- Whether the first line comes no later than the second in a page: by the text of the creation
time, the greater first, and of one text by the lesser id. -/
def linePageOrder (a b : Line) : Bool :=
  match Cell.compare (a.at 7) (b.at 7) with
  | .gt => true
  | .lt => false
  | .eq => Cell.compare (a.at 0) (b.at 0) != .gt

/-- The lines that a scan may take, in the order of the pages. -/
def freeLines (before : Instant) (db : Database) : List Line :=
  (db.records.lines.filter (isFree before.leaseText)).mergeSort linePageOrder

/-- A number of lines as a query takes it: one that no cell holds counts as the greatest that a
cell does. -/
def asked (lines : Nat) : Nat := min lines (Word.count 63 - 1)

/-- One page of the records that a scan may take. -/
def availableRecords (before : Instant) (limit offset : Nat) :
    Database → Except StoreError (List JobRecord) × Database :=
  read fun db => (((db.freeLines before).drop (asked offset)).take (asked limit)).mapM readRecord

/-- The database as a store of records in a world that also has a nature. -/
def recordStore {W : Type} (place : Part W Database) (nature : Part W Nature) : RecordStore W where
  create := fun new w =>
    let (now, w) := nature.use Nature.now w
    let (id, w) := nature.use Nature.fresh w
    place.answer (createRecord (new.toRecord id now.toMicro)) w
  find := fun id => place.answer (findRecord id)
  save := fun r => place.answer (saveRecord r)
  delete := fun r => place.answer (deleteRecord r)
  available := fun before limit offset => place.answer (availableRecords before limit offset)

end JobQueue.Database
