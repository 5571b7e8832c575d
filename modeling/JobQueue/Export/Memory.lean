/-
Export files and rows kept in memory.

`MemoryExports.find` gives the latest file of a job, the last made of those of one time.
`MemorySource.fetch` gives the rows that have the value asked for under every filter, in their
order; a missing field counts as null.
-/

import JobQueue.Export.File

namespace JobQueue

/-- Export files in the order they were made. -/
structure MemoryExports where
  files : List ExportFile
deriving Repr, Inhabited

namespace MemoryExports

/-- No files. -/
def empty : MemoryExports := ⟨[]⟩

/-- How many files there are. -/
def size (m : MemoryExports) : Nat := m.files.length

/-- Makes a file under the id given. -/
def create (new : NewExportFile) (id : String) (now : Instant) (m : MemoryExports) :
    ExportFile × MemoryExports :=
  let f := new.toFile id now
  (f, ⟨m.files ++ [f]⟩)

/-- The file that counts of a file seen so far and the next one: the later, of one time the
next. -/
def later (best : Option ExportFile) (next : ExportFile) : Option ExportFile :=
  match best with
  | some b => if next.created < b.created then some b else some next
  | none => some next

/-- The latest file of a job. -/
def find (m : MemoryExports) (jobId : String) : Option ExportFile :=
  (m.files.filter fun f => f.jobId == jobId).foldl later none

/-- The files as part of a world that also has a nature. -/
def exportStore {W : Type} (place : Part W MemoryExports) (nature : Part W Nature) :
    ExportStore W where
  create := fun new w =>
    let (id, w) := nature.use Nature.fresh w
    let (now, w) := nature.use Nature.now w
    let (f, m) := create new id now (place.get w)
    (.ok f, place.set m w)
  findByJob := fun id w => (.ok ((place.get w).find id), w)

end MemoryExports

/-- Whether a row has the value asked for under every filter. -/
def Row.fits (filters row : Row) : Bool :=
  filters.all fun (key, wanted) => Json.same ((Fields.get? row key).getD .null) wanted

/-- Rows under the names of their sources. -/
structure MemorySource where
  sources : List (String × List Row)
deriving Repr, Inhabited

namespace MemorySource

/-- No sources. -/
def empty : MemorySource := ⟨[]⟩

/-- The source with other rows under a name. -/
def insert (m : MemorySource) (name : String) (rows : List Row) : MemorySource :=
  ⟨(name, rows) :: m.sources.filter fun p => p.1 != name⟩

/-- The rows of a source that fit the filters. -/
def fetch (m : MemorySource) (name : String) (filters : Row) : Except StoreError (List Row) :=
  match m.sources.lookup name with
  | some rows => .ok (rows.filter fun row => Row.fits filters row)
  | none => .error (.notFound name)

/-- The sources as part of a world. -/
def exportSource {W : Type} (place : Part W MemorySource) : ExportSource W where
  fetch := fun name filters w => place.answer (fun m => (m.fetch name filters, m)) w

end MemorySource

end JobQueue
