/-
Reading times in the form that structured values allow.

It is the strict form loosened: blanks may stand before each number and each mark, numbers may
have fewer digits, a year may carry a sign and then have any number of digits, the offset may be
the letters `UTC` or have blanks and colons between hours and minutes, and blanks may follow.
-/

import JobQueue.Time.Strict
import JobQueue.Decimal.Word

namespace JobQueue.Time

/-- The greatest number of digits that are looked at where the width is free. -/
def anyWidth (cs : List Char) : Nat := cs.length

/-- A year: up to four digits, or any number of digits after a sign. It has to fit 32 bits. -/
def looseYear : Scan Int := fun cs => do
  let cs := Text.trimStart cs
  let (year, rest) ←
    match cs with
    | '-' :: more => (number 1 (anyWidth more) more).map fun (n, rest) => (-(n : Int), rest)
    | '+' :: more => (number 1 (anyWidth more) more).map fun (n, rest) => ((n : Int), rest)
    | _ => (number 1 4 cs).map fun (n, rest) => ((n : Int), rest)
  if Word.fits 32 year then .ok (year, rest) else .error .outOfRange

/-- A number of one or two digits with blanks before it, between two bounds. -/
def looseNumber (least most : Nat) : Scan Nat := fun cs => do
  let (n, rest) ← number 1 2 (Text.trimStart cs)
  let n ← within least most n
  .ok (n, rest)

/-- A mark with blanks before it. -/
def looseMark (c : Char) : Scan Unit := fun cs => exactly c (Text.trimStart cs)

/-- An offset: the letters `UTC` in either case, or the usual one with colons and blanks
between hours and minutes. -/
def looseOffset : Scan Int := fun cs =>
  let cs := Text.trimStart cs
  match cs with
  | a :: b :: c :: rest =>
      if a.toUpper = 'U' ∧ b.toUpper = 'T' ∧ c.toUpper = 'C' then .ok (0, rest)
      else offset skipColons cs
  | _ => offset skipColons cs
where
  skipColons (cs : List Char) : Except Fault (List Char) :=
    .ok (cs.dropWhile fun c => c == ':' || Text.isBlank c)

/-- Reads the loose form up to its end and gives what follows. -/
def looseFields : Scan Fields := fun cs => do
  let (year, cs) ← looseYear cs
  let ((), cs) ← looseMark '-' cs
  let (month, cs) ← looseNumber 1 12 cs
  let ((), cs) ← looseMark '-' cs
  let (day, cs) ← looseNumber 1 31 cs
  let ((), cs) ← dateTimeMark cs
  let (hour, cs) ← looseNumber 0 23 cs
  let ((), cs) ← looseMark ':' cs
  let (minute, cs) ← looseNumber 0 59 cs
  let ((), cs) ← looseMark ':' cs
  let (second, cs) ← looseNumber 0 60 cs
  let (nanos, cs) ← fraction? cs
  let (shift, cs) ← looseOffset cs
  .ok (⟨year, month, day, hour, minute, second, nanos, shift⟩, cs)

/-- The instant that a text in the loose form names. -/
def readLoose (s : String) : Except Fault Instant := do
  let (fields, rest) ← looseFields s.toList
  if (Text.trimStart rest).isEmpty then fields.toInstant else .error .tooLong

end JobQueue.Time
