/-
What stands in one place of a table.

Cells of any kind may stand in any column. Numbers compare by value whatever their kind; of two
cells of different kinds a number comes before a text and a text before bytes, and nothing at all
before everything. A cell that holds nothing equals no cell, itself included.
-/

import JobQueue.Decimal.Floating
import JobQueue.Decimal.Word
import JobQueue.Json.Value
import JobQueue.Text.Bytes

namespace JobQueue.Database

/-- One value of a table. -/
inductive Cell where
  | null
  | int (value : Int)
  | real (value : Floating)
  | text (value : String)
  | bytes (value : Bytes)
deriving Repr

namespace Cell

/-- The greatest whole number that a cell holds. -/
def greatestInt : Int := (Word.count 63 : Int) - 1

/-- The least whole number that a cell holds. -/
def leastInt : Int := -(Word.count 63 : Int)

/-- Whether a cell can hold a whole number. -/
def holds (n : Int) : Bool := Word.fits 64 n

/-- The floating-point number nearest to a whole one. -/
def realOfInt (n : Int) : Floating :=
  match Double.ofInt? n with
  | some x => .finite x
  | none => .infinite (n < 0)

/-- The cell for a scalar of structured values; a whole number that no cell holds becomes a
floating-point one. Lists and objects have no cell. -/
def ofJson? : Json → Option Cell
  | .null => some .null
  | .bool b => some (.int (if b then 1 else 0))
  | .int n => some (if holds n then .int n else .real (realOfInt n))
  | .double x => some (.real (.finite x))
  | .str s => some (.text s)
  | .arr _ | .obj _ => none

/-- A cell as a structured value. Bytes and infinite numbers have none. -/
def toJson : Cell → Json
  | .int n => .int n
  | .real (.finite x) => .double x
  | .text s => .str s
  | .null | .real _ | .bytes _ => .null

/-- Whether the cell holds nothing. -/
def isNull : Cell → Bool
  | .null => true
  | _ => false

/-- The place of a cell's kind in the order of cells. -/
def rank : Cell → Nat
  | .null => 0
  | .int _ | .real _ => 1
  | .text _ => 2
  | .bytes _ => 3

/-- How two floating-point numbers compare. -/
def compareReal : Floating → Floating → Ordering
  | .finite x, .finite y => x.compare y
  | .infinite a, .infinite b => Ord.compare b a
  | .infinite a, _ => if a then .lt else .gt
  | _, .infinite b => if b then .gt else .lt
  | _, _ => .eq

/-- How a floating-point number compares with a whole one. -/
def compareRealInt : Floating → Int → Ordering
  | .finite x, n => x.compareInt n
  | .infinite a, _ => if a then .lt else .gt
  | .undefined, _ => .lt

/-- How two texts compare, character by character. -/
def compareText (a b : String) : Ordering :=
  if a < b then .lt else if a = b then .eq else .gt

/-- The order of cells. -/
def compare : Cell → Cell → Ordering
  | .int m, .int n => Ord.compare m n
  | .int m, .real y => (compareRealInt y m).swap
  | .real x, .int n => compareRealInt x n
  | .real x, .real y => compareReal x y
  | .text s, .text t => compareText s t
  | .bytes s, .bytes t => s.compare t
  | a, b => Ord.compare a.rank b.rank

/-- Whether two cells hold equal values. -/
def same (a b : Cell) : Bool := !a.isNull && !b.isNull && compare a b == .eq

/-- Whether both cells hold values and the first comes before the second. -/
def less (a b : Cell) : Bool := !a.isNull && !b.isNull && compare a b == .lt

end Cell

end JobQueue.Database
