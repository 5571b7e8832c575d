/-
Affinities and collations: what a column makes of the values put into it or compared with it.

The declared type of a column decides its affinity by the words in it. A column of whole numbers
turns a text that writes a number into that number, and a number without a fraction into a whole
one; a column of text turns numbers into their written form; a column of bytes changes nothing.
No affinity refuses a value. The collation of a column decides which texts it takes for equal.
-/

import JobQueue.Database.Cell
import JobQueue.Decimal.Rounded
import JobQueue.Text.Blank

namespace JobQueue.Database

/-- What a column prefers to hold. -/
inductive Affinity where
  | whole
  | text
  | bytes
  | real
  | numeric
deriving DecidableEq, Repr

namespace Affinity

/-- Whether a text has another inside it. -/
def mentions (word text : List Char) : Bool :=
  match text with
  | [] => word.isEmpty
  | c :: rest => word.isPrefixOf (c :: rest) || mentions word rest

/-- The affinity that a declared type gives; capitals do not matter. -/
def ofDeclared (declared : String) : Affinity :=
  let has (word : String) : Bool := mentions word.toList (Text.lower declared).toList
  if has "int" then .whole
  else if has "char" || has "clob" || has "text" then .text
  else if has "blob" || declared.isEmpty then .bytes
  else if has "real" || has "floa" || has "doub" then .real
  else .numeric

end Affinity

/-- Which texts a column takes for equal. -/
inductive Collation where
  | exact
  /-- Capitals count as small letters. -/
  | caseless
  /-- Spaces at the end do not count. -/
  | trimmed
deriving DecidableEq, Repr

namespace Collation

/-- What is compared of a text. -/
def essence (s : String) : Collation → String
  | .exact => s
  | .caseless => Text.lower s
  | .trimmed => String.ofList (s.toList.reverse.dropWhile (· = ' ')).reverse

end Collation

namespace Cell

/-- The blank characters that may stand around a written number. -/
def isGap (c : Char) : Bool := c = ' ' || (9 ≤ c.toNat && c.toNat ≤ 13)

/-- The number that digits, a point and an exponent write; a whole one where they are digits
alone and a cell can hold it. -/
def unsignedNumber? (negative : Bool) (cs : List Char) : Option Cell :=
  match Decimal.ofDigits? cs with
  | some n =>
      let n : Int := if negative then -n else n
      some (if holds n then .int n else .real (realOfInt n))
  | none => (Floating.ofDigits? negative (cs.map Char.toLower)).map .real

/-- The number that a text writes, with blank characters around it. -/
def numberOf? (s : String) : Option Cell :=
  let cs := s.toList.dropWhile isGap
  let cs := (cs.reverse.dropWhile isGap).reverse
  match cs with
  | '-' :: rest => unsignedNumber? true rest
  | '+' :: rest => unsignedNumber? false rest
  | rest => unsignedNumber? false rest

/-- A text that writes a number as that number; any other cell as it is. -/
def asNumber : Cell → Cell
  | .text s => (numberOf? s).getD (.text s)
  | c => c

/-- A number as its written form; any other cell as it is. -/
def asText : Cell → Cell
  | .int n => .text (Decimal.intText n)
  | .real x => .text x.fifteen
  | c => c

/-- A floating-point number without a fraction as the whole one, unless that is the greatest or
the least there is or beyond them. -/
def asWhole : Cell → Cell
  | .real (.finite x) =>
      match x.toInt? with
      | some n => if leastInt < n && n < greatestInt then .int n else .real (.finite x)
      | none => .real (.finite x)
  | c => c

/-- A number as a floating-point one; zero loses its sign. -/
def asReal : Cell → Cell
  | .int n => .real (realOfInt n)
  | .real (.finite x) => .real (.finite (if x.isZero then .zero false else x))
  | c => c

/-- A cell as a column keeps it. -/
def kept (affinity : Affinity) (c : Cell) : Cell :=
  match affinity with
  | .whole | .numeric => c.asNumber.asWhole
  | .real => c.asNumber.asReal
  | .text => c.asText
  | .bytes => c

/-- A cell as it is compared with those of a column. -/
def compared (affinity : Affinity) (c : Cell) : Cell :=
  match affinity with
  | .whole | .numeric | .real => c.asNumber
  | .text => c.asText
  | .bytes => c

/-- What is compared of a cell. -/
def collated (collation : Collation) : Cell → Cell
  | .text s => .text (collation.essence s)
  | c => c

@[simp] theorem collated_exact (c : Cell) : c.collated .exact = c := by
  cases c <;> rfl

end Cell

end JobQueue.Database
