/-
The world that the service works in: stores in memory and in a database, and what has been sent.

The settings say which of the stores are used; the others stay as they are.
-/

import JobQueue.Database.Address
import JobQueue.Database.Exports
import JobQueue.Database.Records
import JobQueue.Export.Memory
import JobQueue.Service.Mail
import JobQueue.Store.Memory

namespace JobQueue

/-- The stores that a service uses, and what is done with them at its end. -/
structure Stores (W : Type) where
  records : RecordStore W
  files : ExportStore W
  source : ExportSource W
  close : W → W

/-- An e-mail that has been sent, and in whose name. -/
structure SentEmail where
  sender : String
  email : EmailData
deriving Repr

/-- All that the service works on. -/
structure Site where
  nature : Nature
  records : MemoryStore
  files : MemoryExports
  sources : MemorySource
  database : Database
  /-- The e-mails sent, the latest first. -/
  outbox : List SentEmail

namespace Site

/-- A site where nothing has happened. -/
def start (nature : Nature) : Site := ⟨nature, .empty, .empty, .empty, .new, []⟩

/-- The nature of the site. -/
def naturePart : Part Site Nature := ⟨Site.nature, fun n s => { s with nature := n }⟩

/-- The records in memory. -/
def recordsPart : Part Site MemoryStore := ⟨Site.records, fun m s => { s with records := m }⟩

/-- The export files in memory. -/
def filesPart : Part Site MemoryExports := ⟨Site.files, fun m s => { s with files := m }⟩

/-- The sources in memory. -/
def sourcesPart : Part Site MemorySource := ⟨Site.sources, fun m s => { s with sources := m }⟩

/-- The database. -/
def databasePart : Part Site Database := ⟨Site.database, fun d s => { s with database := d }⟩

/-- Reads the clock. -/
def clock : Site → Instant × Site := naturePart.use Nature.now

/-- The stores in memory. -/
def memoryStores : Stores Site where
  records := MemoryStore.recordStore recordsPart naturePart
  files := MemoryExports.exportStore filesPart naturePart
  source := MemorySource.exportSource sourcesPart
  close := id

/-- The stores in the database. -/
def databaseStores : Stores Site where
  records := Database.recordStore databasePart naturePart
  files := Database.exportStore databasePart naturePart
  source := Database.exportSource databasePart
  close := fun s => { s with database := s.database.close }

/-- The stores that the settings name. -/
def storesFor (disk : Database.Disk) (d : DatabaseSettings) : Except ServiceError (Stores Site) :=
  if d.isMemory then .ok memoryStores else (d.connect disk).map fun _ => databaseStores

/-- A mailer that keeps what it is given, or fails. -/
def mailer (failure : Option String) : Mailer Site := fun sender email =>
  match failure with
  | some text => JobTask.fail (.handlerFailed text)
  | none => JobTask.perform fun s => ((), { s with outbox := ⟨sender, email⟩ :: s.outbox })

end Site

end JobQueue
