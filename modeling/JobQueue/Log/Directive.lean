/-
Directives of a log filter.

A directive is a level for all events, or a target, perhaps with a span and a field in brackets,
and perhaps a level after `=`. Without a level everything is let through.
-/

import JobQueue.Log.Level
import JobQueue.Text.Blank

namespace JobQueue

/-- A field that a span or an event must have. -/
structure FieldPattern where
  name : String
  /-- Whether a value is asked for. -/
  hasValue : Bool
deriving DecidableEq, Repr

/-- What is let through, and where. -/
structure Directive where
  level : LogLevel
  /-- What the targets begin with. -/
  target : Option String
  span : Option String
  field : Option FieldPattern
deriving DecidableEq, Repr

namespace Directive

/-- Errors only, from everywhere: what stands in for an empty filter. -/
def errorsOnly : Directive := ⟨.error, none, none, none⟩

/-! ### Reading

The marks of a directive are looked for in the text without the blanks around it, but what stands
between them is taken from the same places of the text with the blanks. -/

/-- Two views of the rest of a directive, one place for another: where marks are looked for, and
where words are taken from. -/
structure View where
  marks : List Char
  words : List Char

namespace View

/-- The word up to the first mark, the mark, and the view after it. -/
def wordTo (isMark : Char → Bool) (v : View) : String × Option Char × View :=
  let n := (v.marks.takeWhile fun c => !isMark c).length
  (String.ofList (v.words.take n), v.marks[n]?, ⟨v.marks.drop (n + 1), v.words.drop (n + 1)⟩)

end View

/-- Blocks of characters beyond ASCII that are neither letters nor digits. -/
def symbolBlocks : List (Nat × Nat) := [
  (0x80, 0xA9), (0xAB, 0xB1), (0xB4, 0xB4), (0xB6, 0xB8), (0xBB, 0xBB), (0xBF, 0xBF),
  (0xD7, 0xD7), (0xF7, 0xF7), (0x2000, 0x206F), (0x20A0, 0x20CF), (0x2190, 0x245F),
  (0x2500, 0x2775), (0x2794, 0x2BFF), (0x3000, 0x3004), (0x3008, 0x3020), (0xE000, 0xF8FF),
  (0xFFF0, 0xFFFF), (0x1F000, 0x1F0FF), (0x1F200, 0x1FAFF)]

/-- Whether a character is a letter or a digit. -/
def isLetterOrDigit (c : Char) : Bool :=
  c.isAlphanum || (c.toNat ≥ 0x80 && !symbolBlocks.any fun (a, b) => a ≤ c.toNat && c.toNat ≤ b)

/-- Whether a target or a level may begin with a character. -/
def canBegin (c : Char) : Bool := isLetterOrDigit c || c = '-' || c = ':' || c = '_'

/-- The level after `=`: all there is if nothing follows. -/
def levelAfter? (v : View) : Option LogLevel :=
  if v.words.isEmpty then some .trace else LogLevel.read? (String.ofList v.words)

/-- What follows the brackets: nothing, or a level. -/
def afterSpan? (d : Directive) (v : View) : Option Directive :=
  match v.marks with
  | [] => some d
  | '=' :: marks => (levelAfter? ⟨marks, v.words.drop 1⟩).map fun level => { d with level := level }
  | _ => none

/-- A field: its name, and perhaps a value. -/
def fieldOf? (s : String) : Option FieldPattern :=
  if s.isEmpty then none
  else some ⟨String.ofList (s.toList.takeWhile fun c => c != '='), s.toList.contains '='⟩

/-- A field in braces, and what follows it. -/
def fieldPart? (d : Directive) (v : View) : Option Directive :=
  match v.wordTo fun c => c = '\x7d' with
  | (word, some _, v) => do
      let field ← fieldOf? word
      match v.marks with
      | ']' :: marks => afterSpan? { d with field := some field } ⟨marks, v.words.drop 1⟩
      | _ => none
  | _ => none

/-- What stands in brackets, and what follows them. -/
def spanPart? (d : Directive) (v : View) : Option Directive :=
  match v.wordTo fun c => c = ']' || c = '\x7b' with
  | (word, some ']', v) => afterSpan? { d with span := some word } v
  | (word, some _, v) => fieldPart? { d with span := if word.isEmpty then none else some word } v
  | _ => none

/-- A directive that is one word: a level, or a target from which all is let through. -/
def ofWord (s : String) : Directive :=
  match LogLevel.read? s with
  | some level => ⟨level, none, none, none⟩
  | none => ⟨.trace, some s, none, none⟩

/-- Reads a directive. -/
def read? (s : String) : Option Directive :=
  let v : View := ⟨(Text.trim s).toList, s.toList⟩
  let blank : Directive := ⟨.trace, none, none, none⟩
  match v.marks with
  | [] => none
  | '[' :: marks => spanPart? blank ⟨marks, v.words.drop 1⟩
  | c :: _ =>
      if canBegin c then
        match v.wordTo fun c => c = '=' || c = '[' with
        | (word, some '=', v) =>
            (levelAfter? v).map fun level => { blank with target := some word, level := level }
        | (word, some _, v) => spanPart? { blank with target := some word } v
        | (_, none, _) => some (ofWord s)
      else none

end Directive

end JobQueue
