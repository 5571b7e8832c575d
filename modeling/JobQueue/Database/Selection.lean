/-
Selections: the lines of one table that have given values.

A selection is built from the name of a table and the values asked for under names of columns.
Names must be plain words, because they stand in the text of the query; values are scalars, stand
outside the text, and are handed over one by one. A name that belongs to no column is read as a
text of its own: it never holds nothing, and equals a value only if the value is that very text.
-/

import JobQueue.Database.Table
import JobQueue.Export.Format
import JobQueue.Text.Quoted

namespace JobQueue.Database

/-- A letter or the low line. -/
def isWordStart (c : Char) : Bool := c.isAlpha || c = '_'

/-- A letter, a digit or the low line. -/
def isWordChar (c : Char) : Bool := isWordStart c || c.isDigit

/-- Whether a text is a word that may stand in a query: letters, digits and low lines, no digit
first. -/
def isWord (s : String) : Bool :=
  match s.toList with
  | [] => false
  | c :: rest => isWordStart c && rest.all isWordChar

/-- A value asked for under a name; null asks for a place that holds nothing. -/
structure Condition where
  name : String
  wanted : Cell
deriving Repr

namespace Condition

/-- What stands in a line under a name, with the column as whose value it is compared. -/
def subject (t : Table) (l : Line) (name : String) : Column × Cell :=
  match t.place? name with
  | some i => ((t.columns[i]?).getD (.free name .bytes), l.at i)
  | none =>
      if t.numbers name then (.free name .whole, .int l.number)
      else (.free name .bytes, .text name)

/-- Whether a line has what is asked for. -/
def holds (t : Table) (c : Condition) (l : Line) : Bool :=
  let (column, cell) := subject t l c.name
  if c.wanted.isNull then cell.isNull
  else column.identifies cell (c.wanted.compared column.affinity)

/-- The condition as it stands in the text of a query. -/
def text (c : Condition) : String :=
  "\"" ++ c.name ++ "\"" ++ if c.wanted.isNull then " IS NULL" else " = ?"

/-- The condition for a filter. -/
def ofFilter (name : String) (value : Json) : Except StoreError Condition :=
  if !isWord name then
    .error (.database s!"invalid export filter name: {Text.quoted name}")
  else
    match Cell.ofJson? value with
    | some cell => .ok ⟨name, cell⟩
    | none => .error (.database s!"filter on {name} must be a scalar")

end Condition

/-- The lines of a table that have all that is asked for. -/
structure Selection where
  source : String
  conditions : List Condition
deriving Repr

namespace Selection

/-- The text of the query. -/
def text (s : Selection) : String :=
  let conditions := s.conditions.map Condition.text
  "SELECT * FROM \"" ++ s.source ++ "\"" ++
    if conditions.isEmpty then "" else " WHERE " ++ String.intercalate " AND " conditions

/-- The values that are handed over beside the text. -/
def parameters (s : Selection) : List Cell :=
  (s.conditions.map Condition.wanted).filter fun c => !c.isNull

/-- The lines selected, in their order. -/
def lines (s : Selection) (t : Table) : List Line :=
  t.lines.filter fun l => s.conditions.all fun c => c.holds t l

/-- The selection for some filters; the first filter that is out of order is the error. -/
def ofFilters (source : String) (filters : Row) : Except StoreError Selection := do
  let conditions ← filters.mapM fun (name, value) => Condition.ofFilter name value
  .ok ⟨source, conditions⟩

end Selection

end JobQueue.Database
