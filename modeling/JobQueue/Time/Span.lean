/-
Lengths of time.

A span is a number of nanoseconds, none of them negative. Its text counts in the largest unit
that leaves a whole part: seconds, then thousandths, millionths and billionths of one.
-/

import JobQueue.Decimal.Digits
import JobQueue.Decimal.Word

namespace JobQueue

/-- A length of time. -/
structure Span where
  nanos : Nat
deriving DecidableEq, Repr, Inhabited

namespace Span

/-- A span of whole seconds. -/
def ofSeconds (n : Nat) : Span := ⟨n * 1000000000⟩

/-- A span of whole milliseconds. -/
def ofMillis (n : Nat) : Span := ⟨n * 1000000⟩

/-- The whole seconds of a span. -/
def seconds (s : Span) : Nat := s.nanos / 1000000000

/-- The milliseconds of a span, a started one counted whole. -/
def millisUp (s : Span) : Nat := (s.nanos + 999999) / 1000000

/-- The longest span that can be taken from an instant: the milliseconds of a signed 64-bit
number. -/
def longest : Span := ofMillis (Word.count 63 - 1)

/-- Whether a span can be taken from an instant. -/
def isUsable (s : Span) : Bool := s.nanos ≤ longest.nanos

/-- Drops the zeros that digits end with. -/
def dropZerosAtEnd (ds : List Char) : List Char :=
  (ds.reverse.dropWhile (· == '0')).reverse

/-- A whole part and a fraction of some digits, without zeros at its end. -/
def decimalText (whole part places : Nat) (unit : String) : String :=
  let fraction := dropZerosAtEnd (Decimal.padded places part)
  let point := if fraction.isEmpty then [] else '.' :: fraction
  String.ofList (Decimal.digits whole ++ point) ++ unit

/-- A span as a text. -/
def text (s : Span) : String :=
  let n := s.nanos
  if n ≥ 1000000000 then decimalText (n / 1000000000) (n % 1000000000) 9 "s"
  else if n ≥ 1000000 then decimalText (n / 1000000) (n % 1000000) 6 "ms"
  else if n ≥ 1000 then decimalText (n / 1000) (n % 1000) 3 "µs"
  else decimalText n 0 0 "ns"

end Span

end JobQueue
