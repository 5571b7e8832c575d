/-
The text of schedules.

A schedule is a shorthand such as `@daily`, or six or seven fields: second, minute, hour, day of
the month, month, day of the week, and perhaps year. A field is a list of items between commas.
Of the ways to read an item the first that fits counts, and blanks may stand around every number
and name. `read` gives the fields as they are written; what numbers they stand for is said in
`Schedule`.
-/

import JobQueue.Decimal.Digits
import JobQueue.Text.Reading
import JobQueue.Decimal.Word

namespace JobQueue.Cron

/-- What an item ranges over before a step is taken. -/
inductive Part where
  | every
  | one (n : Nat)
  | range (first last : Nat)
  | namedRange (first last : String)
deriving DecidableEq, Repr

/-- One item of a field. -/
inductive Item where
  | plain (part : Part)
  | stepped (part : Part) (step : Nat)
  | named (name : String)
deriving DecidableEq, Repr

/-- A written schedule. -/
inductive Expression where
  | yearly
  | monthly
  | weekly
  | daily
  | hourly
  /-- The items of six fields, and the text after them, where a year may stand. -/
  | fields (second minute hour dayOfMonth month dayOfWeek : List Item) (rest : List Char)
deriving Repr

/-- The blanks between the parts of a schedule. -/
def isGap (c : Char) : Bool := c == ' ' || c == '\t' || c == '\r' || c == '\n'

/-- A text without the blanks it starts with. -/
def skipGap (cs : List Char) : List Char := cs.dropWhile isGap

/-- A letter of a name. -/
def isLetter (c : Char) : Bool := ('a' ≤ c && c ≤ 'z') || ('A' ≤ c && c ≤ 'Z')

/-- Numbers stay below this. -/
def numberBound : Nat := Word.count 32

/-- A number, with the blanks around it. -/
def number : Reading Nat := fun cs =>
  let (ds, rest) := Decimal.spanDigits (skipGap cs)
  match Decimal.ofDigits? ds with
  | some n => if n < numberBound then some (n, skipGap rest) else none
  | none => none

/-- A name, with the blanks around it. -/
def name : Reading String := fun cs =>
  (Reading.many isLetter (skipGap cs)).map fun (letters, rest) =>
    (String.ofList letters, skipGap rest)

/-- Two readings with a dash between them. -/
def dashed {α : Type} (side : Reading α) : Reading (α × α) := fun cs => do
  let (first, cs) ← side cs
  let ((), cs) ← Reading.mark '-' cs
  let (last, cs) ← side cs
  some ((first, last), cs)

/-- What an item ranges over. `allowsAny` says whether a question mark may stand for all. -/
def part (allowsAny : Bool) : Reading Part := fun cs =>
  (if allowsAny then (Reading.mark '?' cs).map fun r => (.every, r.2) else none) <|>
  ((Reading.mark '*' cs).map fun r => (.every, r.2)) <|>
  ((dashed number cs).map fun r => (.range r.1.1 r.1.2, r.2)) <|>
  ((number cs).map fun r => (.one r.1, r.2)) <|>
  ((dashed name cs).map fun r => (.namedRange r.1.1 r.1.2, r.2))

/-- A part with a step. -/
def stepped (allowsAny : Bool) : Reading Item := fun cs => do
  let (p, cs) ← part allowsAny cs
  let ((), cs) ← Reading.mark '/' cs
  let (step, cs) ← number cs
  some (.stepped p step, cs)

/-- An item. -/
def item (allowsAny : Bool) : Reading Item := fun cs =>
  stepped allowsAny cs <|>
  ((part allowsAny cs).map fun r => (.plain r.1, r.2)) <|>
  ((name cs).map fun r => (.named r.1, r.2))

/-- The items that follow the first one, each after a comma. A comma that no item follows is
left to the rest. -/
def moreItems (allowsAny : Bool) : Nat → List Char → List Item × List Char
  | 0, cs => ([], cs)
  | fuel + 1, cs =>
      match (Reading.mark ',' cs).bind fun r => item allowsAny r.2 with
      | some (i, rest) =>
          let (items, rest) := moreItems allowsAny fuel rest
          (i :: items, rest)
      | none => ([], cs)

/-- A field, with the blanks around it. -/
def field (allowsAny : Bool) : Reading (List Item) := fun cs => do
  let (first, rest) ← item allowsAny (skipGap cs)
  let (more, rest) := moreItems allowsAny rest.length rest
  some (first :: more, skipGap rest)

/-- The shorthands. -/
def shorthands : List (String × Expression) := [
  ("@yearly", .yearly), ("@monthly", .monthly), ("@weekly", .weekly), ("@daily", .daily),
  ("@hourly", .hourly)]

/-- A shorthand that is the whole text, but for blanks around it. -/
def shorthand? (cs : List Char) : Option Expression :=
  let inner := (skipGap (skipGap cs).reverse).reverse
  shorthands.lookup (String.ofList inner)

/-- Reads a schedule up to its sixth field, or the whole of a shorthand. -/
def read (text : String) : Option Expression := do
  let cs := text.toList
  match shorthand? cs with
  | some e => some e
  | none =>
      let (second, cs) ← field false cs
      let (minute, cs) ← field false cs
      let (hour, cs) ← field false cs
      let (dayOfMonth, cs) ← field true cs
      let (month, cs) ← field false cs
      let (dayOfWeek, cs) ← field true cs
      some (.fields second minute hour dayOfMonth month dayOfWeek cs)

end JobQueue.Cron
