/-
The formats that rows are exported in.

A target names a format by itself or by what follows its last point. Rows are rendered as lines
of cells under a line of column names, or as a list of objects.
-/

import JobQueue.Error
import JobQueue.Export.Delimited
import JobQueue.Json.Printer
import JobQueue.Text.Blank

namespace JobQueue

/-- A row of values under the names of its columns. -/
abbrev Row := Fields

/-- The columns of some rows: the keys of all rows, each where it was first seen. -/
def columnsOf (rows : List Row) : List String :=
  (rows.flatMap fun row => row.map Prod.fst).foldl
    (fun seen key => if seen.contains key then seen else seen ++ [key]) []

/-- The text of a value in a cell: nothing for null or no value, a text as it is, anything else
in its compact form. -/
def cellText : Option Json → String
  | none => ""
  | some .null => ""
  | some (.str s) => s
  | some v => v.compact

/-- The cells of a row under the columns given. -/
def cellsOf (columns : List String) (row : Row) : List (List Char) :=
  columns.map fun column => (cellText (Fields.get? row column)).toList

/-- A format of exported rows. -/
inductive ExportFormat where
  | delimited
  | objects
deriving DecidableEq, Repr

namespace ExportFormat

/-- The end of the names of files in a format. -/
def fileEnding : ExportFormat → String
  | .delimited => "csv"
  | .objects => "json"

/-- The part of a text after its last point; the whole text if it has none. -/
def afterLastPoint (s : String) : String :=
  String.ofList ((Text.splitAtChar '.' s.toList).getLastD [])

/-- The format that a target names. -/
def ofTarget (target : String) : Except JobError ExportFormat :=
  let target := Text.lower (Text.trim target)
  let ending := afterLastPoint target
  if ending = ExportFormat.delimited.fileEnding then .ok .delimited
  else if ending = ExportFormat.objects.fileEnding then .ok .objects
  else .error (.invalidPayload s!"unsupported export target: {target}")

/-- The lines of the delimited form: the columns, then each row. -/
def table (rows : List Row) : List (List (List Char)) :=
  let columns := columnsOf rows
  columns.map String.toList :: rows.map (cellsOf columns)

/-- The rows in a format. -/
def render (format : ExportFormat) (rows : List Row) : String :=
  match format with
  | .delimited => String.ofList (Delimited.lines (table rows))
  | .objects => (Json.arr (rows.map .obj)).pretty

end ExportFormat

end JobQueue
