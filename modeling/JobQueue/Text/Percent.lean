/-
Percent signs: a byte of a text may stand as a percent sign and its two hexadecimal digits.

A percent sign that two digits do not follow stands for itself. The bytes must encode a text.
-/

import JobQueue.Json.Reader
import JobQueue.Text.Bytes

namespace JobQueue.Text.Percent

/-- The byte that two hexadecimal digits write. -/
def byte? (high low : Char) : Option UInt8 := do
  let h ← Json.hexValue? high
  let l ← Json.hexValue? low
  some (UInt8.ofNat (16 * h + l))

/-- The bytes that a text stands for. -/
def bytes : List Char → List UInt8
  | '%' :: high :: low :: rest =>
      match byte? high low with
      | some b => b :: bytes rest
      | none => String.utf8EncodeChar '%' ++ bytes (high :: low :: rest)
  | c :: rest => String.utf8EncodeChar c ++ bytes rest
  | [] => []

/-- The text that a text stands for. -/
def decode? (cs : List Char) : Option String := Bytes.text? ⟨bytes cs⟩

/-- The same where a plus sign stands for a space. -/
def decodeForm? (cs : List Char) : Option String :=
  decode? (cs.map fun c => if c = '+' then ' ' else c)

end JobQueue.Text.Percent
