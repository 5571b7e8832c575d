/-
Export files.

A file belongs to a job and to the user who asked for it, and expires. Files are never changed;
the latest file of a job is the one that counts.
-/

import JobQueue.Export.Format
import JobQueue.Store.Basic
import JobQueue.Text.Bytes

namespace JobQueue

/-- The days that an export file lasts if nothing else is said. -/
def defaultExpirationDays : Nat := 30

/-- The most days that may be asked for in the settings. -/
def longestExpirationDays : Nat := 36500

/-- The instant some days later, or the last one there is. -/
def expirationFrom (now : Instant) (days : Nat) : Instant :=
  (now.plusDays? days).getD Instant.latest

/-- A stored export file. -/
structure ExportFile where
  id : String
  jobId : String
  /-- Who asked for the file, empty if nobody is known. -/
  userId : String
  fileName : String
  content : Bytes
  recordCount : Nat
  expiresAt : Instant
  created : Instant
deriving DecidableEq, Repr

/-- Whether a file has expired. -/
def ExportFile.isExpired (f : ExportFile) (now : Instant) : Bool := f.expiresAt ≤ now

/-- What is given to make an export file. -/
structure NewExportFile where
  jobId : String
  userId : String
  fileName : String
  content : Bytes
  recordCount : Nat
  expiresAt : Instant
deriving DecidableEq, Repr

namespace NewExportFile

/-- A file of nobody in particular that lasts for the default time. -/
def start (jobId fileName : String) (content : Bytes) (recordCount : Nat) (now : Instant) :
    NewExportFile where
  jobId := jobId
  userId := ""
  fileName := fileName
  content := content
  recordCount := recordCount
  expiresAt := expirationFrom now defaultExpirationDays

/-- The file as one asked for by a user. -/
def withUser (f : NewExportFile) (user : String) : NewExportFile := { f with userId := user }

/-- The file with another expiration, in days from now. -/
def expiresInDays (f : NewExportFile) (now : Instant) (days : Nat) : NewExportFile :=
  { f with expiresAt := expirationFrom now days }

/-- The stored form. -/
def toFile (f : NewExportFile) (id : String) (now : Instant) : ExportFile where
  id := id
  jobId := f.jobId
  userId := f.userId
  fileName := f.fileName
  content := f.content
  recordCount := f.recordCount
  expiresAt := f.expiresAt
  created := now

end NewExportFile

/-- The calls of a store of export files. -/
structure ExportStore (W : Type) where
  /-- Makes a file under an id of its own. -/
  create : NewExportFile → StoreCall W ExportFile
  /-- Finds the latest file of a job. -/
  findByJob : String → StoreCall W (Option ExportFile)

/-- The call of a source of rows. -/
structure ExportSource (W : Type) where
  /-- The rows of a named source whose fields equal every filter. -/
  fetch : String → Row → StoreCall W (List Row)

end JobQueue
