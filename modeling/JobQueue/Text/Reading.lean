/-
Readers of text: a value from the start of a text, and the rest.
-/

namespace JobQueue

/-- Reads the start of a text; the rest follows. -/
abbrev Reading (α : Type) := List Char → Option (α × List Char)

namespace Reading

/-- One character. -/
def mark (c : Char) : Reading Unit
  | d :: rest => if d = c then some ((), rest) else none
  | [] => none

/-- The text that is given. -/
def word : List Char → Reading Unit
  | [], cs => some ((), cs)
  | c :: more, cs => (mark c cs).bind fun r => word more r.2

/-- The characters up to the first one outside a class; there must be one at least. -/
def many (p : Char → Bool) : Reading (List Char) := fun cs =>
  if (cs.takeWhile p).isEmpty then none else some (cs.takeWhile p, cs.dropWhile p)

end Reading

end JobQueue
