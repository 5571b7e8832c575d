/-
Export files and exported rows in a database.

Both times of a file are cut to microseconds before it is stored. The latest file of a job is the
one with the greatest creation text, of one text the last one written. Rows can be fetched from
every table of the database.
-/

import JobQueue.Database.Basic
import JobQueue.Database.Selection
import JobQueue.Export.File
import JobQueue.Decimal.Word

namespace JobQueue.Database

/-! ### Files -/

/-- The cells of a file. -/
def fileCells (f : ExportFile) : List Cell := [
  .text f.id, .text f.jobId, .text f.userId, .text f.fileName, .bytes f.content,
  .int f.recordCount, .text f.expiresAt.storedText, .text f.created.storedText]

/-- One more than the greatest record count that is read. -/
def countBound : Nat := Word.count 64

/-- The file that a line holds. -/
def readFile (l : Line) : Except StoreError ExportFile := do
  let id ← readText "id" (l.at 0)
  let jobId ← readText "job_id" (l.at 1)
  let userId ← readText "user_id" (l.at 2)
  let fileName ← readText "file_name" (l.at 3)
  let content ← readBytes "content" (l.at 4)
  let recordCount ← readInt "record_count" (l.at 5)
  let expiresAt ← readText "expires_at" (l.at 6)
  let created ← readText "created" (l.at 7)
  let recordCount ← countBelow countBound id "record_count" recordCount
  let expiresAt ← storedTime id "expires_at" expiresAt
  let created ← storedTime id "created" created
  .ok ⟨id, jobId, userId, fileName, content, recordCount, expiresAt, created⟩

/-- The file as it is stored: its times in whole microseconds. -/
def storedFile (new : NewExportFile) (id : String) (now : Instant) : ExportFile :=
  { new.toFile id now.toMicro with expiresAt := new.expiresAt.toMicro }

/-- Writes a new file. A record count that no cell holds is refused before the database is
asked. -/
def createFile (f : ExportFile) (db : Database) : Except StoreError ExportFile × Database :=
  if Cell.holds f.recordCount then
    write (fun db => (db.insertFile (fileCells f)).map fun db => (f, db)) db
  else
    (.error (.corrupt f.id s!"record_count out of range: {Decimal.natText f.recordCount}"), db)

/-- The later of a line seen so far and the next one. -/
def laterLine (best : Option Line) (next : Line) : Option Line :=
  match best with
  | some b => if Cell.compare (next.at 7) (b.at 7) = .lt then some b else some next
  | none => some next

/-- The line of the latest file of a job. -/
def latestLine (jobId : String) (t : Table) : Option Line :=
  (t.linesWith 1 (.text jobId)).foldl laterLine none

/-- Finds the latest file of a job. -/
def findFile (jobId : String) : Database → Except StoreError (Option ExportFile) × Database :=
  read fun db =>
    match latestLine jobId db.files with
    | some l => (readFile l).map some
    | none => .ok none

/-- The database as a store of export files in a world that also has a nature. -/
def exportStore {W : Type} (place : Part W Database) (nature : Part W Nature) : ExportStore W where
  create := fun new w =>
    let (now, w) := nature.use Nature.now w
    let (id, w) := nature.use Nature.fresh w
    place.answer (createFile (storedFile new id now)) w
  findByJob := fun jobId => place.answer (findFile jobId)

/-! ### Rows -/

/-- The rows of a table that pass some filters. -/
def rowsOf (source : String) (filters : Row) (db : Database) : Except StoreError (List Row) :=
  match db.table? source with
  | some t => (Selection.ofFilters source filters).map fun s => (s.lines t).map t.toFields
  | none => .error (.notFound source)

/-- Fetches the rows of a source; its name is looked at before the database is asked. -/
def fetchRows (source : String) (filters : Row) (db : Database) :
    Except StoreError (List Row) × Database :=
  if isWord source then read (rowsOf source filters) db
  else (.error (.database s!"invalid export source name: {Text.quoted source}"), db)

/-- The database as a source of rows. -/
def exportSource {W : Type} (place : Part W Database) : ExportSource W where
  fetch := fun source filters => place.answer (fetchRows source filters)

end JobQueue.Database
