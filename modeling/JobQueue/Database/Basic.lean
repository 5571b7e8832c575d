/-
Databases: the tables of queued records and of export files, beside any others.

A database is open until it is closed; after that every call on it fails and changes nothing.
The names of its tables count letter by letter.
-/

import JobQueue.Database.Table
import JobQueue.Record.Basic
import JobQueue.Text.Quoted

namespace JobQueue

namespace Database

/-- The name of the table of queued records. -/
def recordsName : String := "queues"

/-- The name of the table of export files. -/
def filesName : String := "export_files"

/-- The columns of queued records. -/
def recordColumns : List Column := [
  .key "id", .required "collection" .text, .required "name" .text, .required "description" .text,
  .required "payload" .text, .required "attempts" .whole, .required "reserved_at" .text,
  .required "created" .text, .required "updated" .text]

/-- The columns of export files. -/
def fileColumns : List Column := [
  .key "id", .required "job_id" .text, .required "user_id" .text, .required "file_name" .text,
  .required "content" .bytes, .required "record_count" .whole, .required "expires_at" .text,
  .required "created" .text]

end Database

/-- The tables of a database. -/
structure Database where
  records : Database.Table
  files : Database.Table
  /-- Other tables under their names. -/
  others : List (String × Database.Table)
  isOpen : Bool

namespace Database

/-- A new database: both tables, no lines. -/
def new : Database := ⟨.empty recordColumns, .empty fileColumns, [], true⟩

/-- The table with a name. -/
def table? (db : Database) (name : String) : Option Table :=
  if name = recordsName then some db.records
  else if name = filesName then some db.files
  else db.others.lookup name

/-- The database with one table more. -/
def withTable (name : String) (t : Table) (db : Database) : Database :=
  { db with others := (name, t) :: db.others }

/-- The closed database. -/
def close (db : Database) : Database := { db with isOpen := false }

/-- The error of every call on a closed database. -/
def closedError : StoreError := .database "attempted to acquire a connection on a closed pool"

/-- A call that answers from the database and leaves it as it is. -/
def read {α : Type} (answer : Database → Except StoreError α) (db : Database) :
    Except StoreError α × Database :=
  (if db.isOpen then answer db else .error closedError, db)

/-- A call that changes the database when it succeeds. -/
def write {α : Type} (change : Database → Except StoreError (α × Database)) (db : Database) :
    Except StoreError α × Database :=
  if db.isOpen then
    match change db with
    | .ok (a, db) => (.ok a, db)
    | .error e => (.error e, db)
  else (.error closedError, db)

/-- Writes a line of cells into the table of queued records. -/
def insertRecord (cells : List Cell) (db : Database) : Except StoreError Database :=
  (db.records.insert cells).map fun t => { db with records := t }

/-- Writes a line of cells into the table of export files. -/
def insertFile (cells : List Cell) (db : Database) : Except StoreError Database :=
  (db.files.insert cells).map fun t => { db with files := t }

/-! ### Reading lines -/

/-- The error for a cell of a kind that its column should not hold, up to the account of the two
kinds. -/
def kindError (column : String) : StoreError :=
  .database s!"error occurred while decoding column {Text.quoted column}"

/-- The text in a cell. -/
def readText (column : String) : Cell → Except StoreError String
  | .text s => .ok s
  | _ => .error (kindError column)

/-- The bytes in a cell; a text counts as the bytes that encode it. -/
def readBytes (column : String) : Cell → Except StoreError Bytes
  | .text s => .ok (.ofText s)
  | .bytes b => .ok b
  | _ => .error (kindError column)

/-- The whole number in a cell. -/
def readInt (column : String) : Cell → Except StoreError Int
  | .int n => .ok n
  | _ => .error (kindError column)

/-- A number of things below a bound; any other number makes the line corrupt. -/
def countBelow (bound : Nat) (id column : String) (n : Int) : Except StoreError Nat :=
  if 0 ≤ n ∧ n < bound then .ok n.toNat
  else .error (.corrupt id s!"{column} out of range: {Decimal.intText n}")

/-- A stored time; any other text makes the line corrupt. -/
def storedTime (id column text : String) : Except StoreError Instant :=
  match Time.readStrict text with
  | .ok t => .ok t
  | .error fault => .error (.corrupt id s!"invalid {column} timestamp: {fault.message}")

end Database

end JobQueue
