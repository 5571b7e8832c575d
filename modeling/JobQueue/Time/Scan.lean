/-
Parts of written times.

The pieces that the readers of times share: numbers of a bounded width, fractions, offsets from
universal time, and the making of an instant from the numbers read. Each takes the text and
gives what follows it, or says what is wrong.
-/

import JobQueue.Time.Instant
import JobQueue.Decimal.Digits
import JobQueue.Text.Blank
import JobQueue.Decimal.Word

namespace JobQueue.Time

/-- What is wrong with a written time. -/
inductive Fault where
  | tooShort
  | invalid
  | outOfRange
  | impossible
  | tooLong
deriving DecidableEq, Repr

/-- The wording of a fault. -/
def Fault.message : Fault → String
  | .tooShort => "premature end of input"
  | .invalid => "input contains invalid characters"
  | .outOfRange => "input is out of range"
  | .impossible => "no possible date and time matching input"
  | .tooLong => "trailing input"

/-- A reader of one piece: the value read and the text after it. -/
abbrev Scan (α : Type) := List Char → Except Fault (α × List Char)

/-- The bytes a text takes. -/
def byteCount (cs : List Char) : Nat :=
  cs.foldr (fun c n => c.utf8Size + n) 0

/-- Takes at most `limit` digits, and keeps the number they write. -/
def takeDigits : Nat → Nat → Nat → List Char → Nat × Nat × List Char
  | 0, taken, value, cs => (taken, value, cs)
  | limit + 1, taken, value, cs =>
      match cs with
      | c :: rest =>
          match Decimal.digitValue? c with
          | some d => takeDigits limit (taken + 1) (value * 10 + d) rest
          | none => (taken, value, cs)
      | [] => (taken, value, cs)

/-- A number of at least `least` and at most `most` digits that fits 64 bits with a sign. -/
def number (least most : Nat) : Scan Nat := fun cs =>
  if byteCount cs < least then .error .tooShort
  else
    let (taken, value, rest) := takeDigits most 0 0 cs
    if taken < least then .error .invalid
    else if value ≥ Word.count 63 then .error .outOfRange
    else .ok (value, rest)

/-- One given character. -/
def exactly (c : Char) : Scan Unit := fun cs =>
  match cs with
  | [] => .error .tooShort
  | d :: rest => if c = d then .ok ((), rest) else .error .invalid

/-- The letter or blank between date and time. -/
def dateTimeMark : Scan Unit := fun cs =>
  match cs with
  | 'T' :: rest | 't' :: rest | ' ' :: rest => .ok ((), rest)
  | [] => .error .tooShort
  | _ => .error .invalid

/-- The digits after a point as nanoseconds; digits after the ninth are dropped. -/
def fraction : Scan Nat := fun cs =>
  if cs.isEmpty then .error .tooShort
  else
    let (taken, value, rest) := takeDigits 9 0 0 cs
    if taken = 0 then .error .invalid
    else .ok (value * Nat.pow 10 (9 - taken), rest.dropWhile fun c => (Decimal.digitValue? c).isSome)

/-- A fraction after its point, or nothing where no point stands. -/
def fraction? : Scan Nat := fun cs =>
  match cs with
  | '.' :: rest => fraction rest
  | _ => .ok (0, cs)

/-- Two digits, of any value. -/
def twoDigits : Scan Nat := fun cs =>
  if byteCount cs < 2 then .error .tooShort
  else
    match takeDigits 2 0 0 cs with
    | (2, value, rest) => .ok (value, rest)
    | _ => .error .invalid

/-- Hours and minutes after the sign of an offset, with `between` read between them, in
seconds. -/
def offsetBody (between : List Char → Except Fault (List Char)) : Scan Nat := fun cs => do
  let (hours, cs) ← twoDigits cs
  let cs ← between cs
  let (minutes, cs) ← twoDigits cs
  if minutes ≥ 60 then .error .outOfRange
  else .ok (hours * 3600 + minutes * 60, cs)

/-- An offset from universal time in seconds: `Z`, or a sign, hours and minutes. The sign may be
a minus sign of its own, U+2212. -/
def offset (between : List Char → Except Fault (List Char)) : Scan Int := fun cs =>
  match cs with
  | 'Z' :: rest | 'z' :: rest => .ok (0, rest)
  | '+' :: rest => (offsetBody between rest).map fun (n, rest) => ((n : Int), rest)
  | '-' :: rest => (offsetBody between rest).map fun (n, rest) => (-(n : Int), rest)
  | [] => .error .tooShort
  | c :: rest =>
      if c = Char.ofNat 0x2212 then
        (offsetBody between rest).map fun (n, rest) => (-(n : Int), rest)
      else .error .invalid

/-- The fields of a written time, before they are checked together. -/
structure Fields where
  year : Int
  month : Nat
  day : Nat
  hour : Nat
  minute : Nat
  second : Nat
  nanos : Nat
  offset : Int
deriving Repr

/-- A number that has to lie between two bounds. -/
def within (least most n : Nat) : Except Fault Nat :=
  if least ≤ n ∧ n ≤ most then .ok n else .error .outOfRange

/-- The instant that the fields name. The date has to exist, second 60 is a leap second in any
minute, and an offset is less than a day. -/
def Fields.toInstant (f : Fields) : Except Fault Instant := do
  let date : Date := ⟨f.year, f.month, f.day⟩
  if ¬ date.Valid then .error .outOfRange
  else
    let (second, nanos) :=
      if f.second = 60 then (59, Instant.nanosPerSecond + f.nanos) else (f.second, f.nanos)
    let local_ : Instant :=
      ⟨date.toDay * Instant.secondsPerDay + (f.hour * 3600 + f.minute * 60 + second : Nat), nanos⟩
    if local_.inCalendar?.isNone then .error .outOfRange
    else if f.offset.natAbs ≥ Instant.secondsPerDay then .error .outOfRange
    else
      match Instant.inCalendar? ⟨local_.seconds - f.offset, nanos⟩ with
      | some t => .ok t
      | none => .error .impossible

end JobQueue.Time
