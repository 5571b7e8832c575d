/-
Tables.

A table has columns and lines; each line has a number of its own and one cell for each column.
Lines stand in the order of their numbers, and a new line gets the number after the last. A table
may hide these numbers. Names of columns are the same whether written in capitals or not.
-/

import JobQueue.Database.Affinity
import JobQueue.Error

namespace JobQueue.Database

/-- A column of a table. -/
structure Column where
  name : String
  affinity : Affinity
  collation : Collation
  /-- Whether each line must hold a value here. -/
  isRequired : Bool
  /-- Whether no two lines may hold equal values here. -/
  isKey : Bool
deriving DecidableEq, Repr

namespace Column

/-- A column that takes any value. -/
def free (name : String) (affinity : Affinity) : Column := ⟨name, affinity, .exact, false, false⟩

/-- A column of a declared type that takes any value. -/
def declared (name type : String) : Column := free name (Affinity.ofDeclared type)

/-- A column that must hold a value. -/
def required (name : String) (affinity : Affinity) : Column :=
  ⟨name, affinity, .exact, true, false⟩

/-- A column of texts that tell the lines apart. -/
def key (name : String) : Column := ⟨name, .text, .exact, true, true⟩

/-- Whether a column takes two cells for equal. -/
def identifies (c : Column) (a b : Cell) : Bool :=
  (a.collated c.collation).same (b.collated c.collation)

theorem identifies_of_exact {c : Column} (exact : c.collation = .exact) :
    c.identifies = Cell.same := by
  funext a b
  simp [identifies, exact]

end Column

/-- A line of a table. -/
structure Line where
  number : Int
  cells : List Cell
deriving Repr

/-- The cell at a place of a line. -/
def Line.at (l : Line) (place : Nat) : Cell := (l.cells[place]?).getD .null

/-- Columns and lines. -/
structure Table where
  columns : List Column
  lines : List Line
  /-- Whether the numbers of the lines can be asked for. -/
  isNumbered : Bool
deriving Repr

namespace Table

/-- A table without lines. -/
def empty (columns : List Column) : Table := ⟨columns, [], true⟩

/-- The place of the column with a name. -/
def place? (t : Table) (name : String) : Option Nat :=
  t.columns.findIdx? fun c => Text.lower c.name = Text.lower name

/-- The words that stand for the number of a line where no column has them as its name. -/
def numberNames : List String := ["rowid", "oid", "_rowid_"]

/-- Whether a name stands for the number of a line where no column has it. -/
def numbers (t : Table) (name : String) : Bool :=
  t.isNumbered && numberNames.contains (Text.lower name)

/-- The number of the next line. -/
def nextNumber (t : Table) : Int := (t.lines.getLast?.elim 0 Line.number) + 1

/-- Cells as the columns keep them. -/
def keptCells (t : Table) (cells : List Cell) : List Cell :=
  t.columns.zipWith (fun c cell => cell.kept c.affinity) cells

/-- Whether some column must hold a value and these cells have none for it. -/
def lacksValue (t : Table) (cells : List Cell) : Bool :=
  (t.columns.zip cells).any fun (c, cell) => c.isRequired && cell.isNull

/-- Whether some column tells the lines apart and a line has the value of these cells there. -/
def repeatsKey (t : Table) (cells : List Cell) : Bool :=
  t.columns.zipIdx.any fun (c, i) =>
    c.isKey && t.lines.any fun l => c.identifies (l.at i) ((cells[i]?).getD .null)

/-- The error of a database that turned a statement down. The reason stands for the words that the
database finds for it. -/
def refusal (reason : String) : StoreError :=
  .database ("error returned from database: " ++ reason)

/-- The table with a line more. -/
def insert (cells : List Cell) (t : Table) : Except StoreError Table :=
  let cells := t.keptCells cells
  if t.lacksValue cells then .error (refusal "a value is required")
  else if t.repeatsKey cells then .error (refusal "the key is taken")
  else .ok { t with lines := t.lines ++ [⟨t.nextNumber, cells⟩] }

/-- The lines with a value at a place. -/
def linesWith (place : Nat) (value : Cell) (t : Table) : List Line :=
  t.lines.filter fun l => (l.at place).same value

/-- The table with the cells of some lines changed. -/
def update (isMeant : Line → Bool) (change : List Cell → List Cell) (t : Table) : Table :=
  { t with lines := t.lines.map fun l =>
      if isMeant l then { l with cells := t.keptCells (change l.cells) } else l }

/-- The table without some lines. -/
def erase (isMeant : Line → Bool) (t : Table) : Table :=
  { t with lines := t.lines.filter fun l => !isMeant l }

/-- A line as the fields of an object under the names of the columns. -/
def toFields (t : Table) (l : Line) : Fields :=
  Fields.ofList ((t.columns.map Column.name).zip (l.cells.map Cell.toJson))

end Table

end JobQueue.Database
