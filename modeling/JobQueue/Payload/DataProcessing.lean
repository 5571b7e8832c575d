/-
Data processing jobs.
-/

import JobQueue.Payload.Typed
import JobQueue.Text.Blank

namespace JobQueue

/-- The job type of data processing jobs. -/
def dataProcessingJobType : String := "data_processing"

/-- What is done with the data. -/
inductive DataOperation where
  | exportRows
  | importRows
  | transform
  | aggregate
deriving DecidableEq, Repr

namespace DataOperation

/-- The name of an operation. -/
def name : DataOperation → String
  | .exportRows => "export"
  | .importRows => "import"
  | .transform => "transform"
  | .aggregate => "aggregate"

/-- All operations, as they are declared. -/
def all : List DataOperation := [.exportRows, .importRows, .transform, .aggregate]

/-- Whether an operation needs a target. -/
def needsTarget : DataOperation → Bool
  | .exportRows | .transform => true
  | _ => false

end DataOperation

/-- A piece of data processing: from a source, some of its rows, to a target. -/
structure DataProcessing where
  operation : DataOperation
  source : String
  target : String
  filters : Fields
  options : Fields
deriving Repr

namespace DataProcessing

/-- Refuses data without a source, or without a target where the operation needs one. -/
def validate (d : DataProcessing) : Except JobError Unit :=
  if Text.isAllBlank d.source then
    .error (.invalidPayload "data processing source is required")
  else if d.operation.needsTarget && Text.isAllBlank d.target then
    .error (.invalidPayload s!"data processing target is required for {d.operation.name}")
  else .ok ()

/-- The user who asked for the work, empty if the options name none. -/
def requestedBy (d : DataProcessing) : String :=
  match Fields.get? d.options "user_id" with
  | some (.str user) => user
  | _ => ""

/-- The data as an object. -/
def toJson (d : DataProcessing) : Json :=
  .obj [("filters", .obj d.filters), ("operation", .str d.operation.name),
    ("options", .obj d.options), ("source", .str d.source), ("target", .str d.target)]

/-- Reads an operation. -/
def operationOfJson : Json.Decoder DataOperation :=
  Json.asVariant (DataOperation.all.map fun o => (o.name, o))

/-- Reads the data; only operation and source may not be missing. -/
def ofJson : Json.Decoder DataProcessing :=
  Json.asRecord "DataProcessingJobData" [
    ⟨"operation", true, fun d v => (operationOfJson v).map fun o => { d with operation := o }⟩,
    ⟨"source", true, fun d v => (Json.asString v).map fun s => { d with source := s }⟩,
    ⟨"target", false, fun d v => (Json.asString v).map fun s => { d with target := s }⟩,
    ⟨"filters", false, fun d v => (Json.asFields v).map fun f => { d with filters := f }⟩,
    ⟨"options", false, fun d v => (Json.asFields v).map fun f => { d with options := f }⟩]
    ⟨.exportRows, "", "", [], []⟩

/-- How the data is written and read. -/
def codec : Codec DataProcessing := ⟨toJson, ofJson⟩

end DataProcessing

end JobQueue
