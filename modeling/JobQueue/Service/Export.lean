/-
Processing data.

Only exports do anything: the rows of the source that pass the filters become a file of the job,
in the format that the target names. The file is made last, so an export that fails leaves none.
-/

import JobQueue.Export.File
import JobQueue.Job.Handler
import JobQueue.Payload.DataProcessing

namespace JobQueue

/-- Where exports read and write, and how long their files last. -/
structure Exporter (W : Type) where
  source : ExportSource W
  files : ExportStore W
  clock : W → Instant × W
  days : Nat

namespace Exporter

variable {W : Type}

/-- The name of the file of a job. -/
def fileName (source jobId : String) (format : ExportFormat) : String :=
  s!"{source}_{jobId}.{format.fileEnding}"

/-- The file that is made of some rows. -/
def fileOf (jobId : String) (d : DataProcessing) (format : ExportFormat) (rows : List Row)
    (now : Instant) (days : Nat) : NewExportFile :=
  let content := Bytes.ofText (format.render rows)
  ((NewExportFile.start jobId (fileName d.source jobId format) content rows.length
    now).withUser d.requestedBy).expiresInDays now days

/-- Exports rows into a file of a job. -/
def exportRows (e : Exporter W) (jobId : String) (d : DataProcessing) : JobTask W Unit := do
  let format ← JobTask.ofExcept (ExportFormat.ofTarget d.target)
  let rows ← JobTask.call (e.source.fetch d.source d.filters)
  let now ← JobTask.perform e.clock
  let _ ← JobTask.call (e.files.create (fileOf jobId d format rows now e.days))

/-- The handler of data processing jobs. -/
def processData (e : Exporter W) : TypedHandler W DataProcessing Fields where
  jobType := dataProcessingJobType
  data := DataProcessing.codec
  options := Codec.fields
  noOptions := []
  run := fun context payload => do
    JobTask.ofExcept payload.data.validate
    match payload.data.operation with
    | .exportRows => e.exportRows context.correlationId payload.data
    | .importRows | .transform | .aggregate => pure ()

end Exporter

end JobQueue
