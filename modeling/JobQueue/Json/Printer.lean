/-
The written form of structured values.

`compact` puts no blank between the parts of a value; `pretty` puts every item and field on a
line of its own, two blanks deeper than the value that holds it. Both write the fields of an
object in the order of their keys and share the writing of texts and numbers.
-/

import JobQueue.Json.Value

namespace JobQueue.Json

/-- A hexadecimal digit, in lower case. -/
def hexChar (n : Nat) : Char :=
  if n < 10 then Char.ofNat (48 + n) else Char.ofNat (87 + n)

/-- A character inside quotes: the quote, the backslash and the characters below U+0020 are
escaped, all others stand for themselves. -/
def escapeChar (c : Char) : List Char :=
  if c = '"' then ['\\', '"']
  else if c = '\\' then ['\\', '\\']
  else if c = '\n' then ['\\', 'n']
  else if c = '\r' then ['\\', 'r']
  else if c = '\t' then ['\\', 't']
  else if c.toNat = 8 then ['\\', 'b']
  else if c.toNat = 12 then ['\\', 'f']
  else if c.toNat < 32 then
    ['\\', 'u', '0', '0', hexChar (c.toNat / 16), hexChar (c.toNat % 16)]
  else [c]

/-- A text in quotes. -/
def quote (s : String) : List Char :=
  '"' :: (s.toList.flatMap escapeChar ++ ['"'])

/-- Floating-point numbers are written without an exponent from `1e-5` up to `1e16`, and a whole
one with `.0`. -/
def numberLayout : Double.Layout := ⟨-4, 16, "+", true⟩

mutual

/-- A value without blanks. -/
def compactChars : Json → List Char
  | .null => "null".toList
  | .bool b => (if b then "true" else "false").toList
  | .int n => (Decimal.intText n).toList
  | .double x => (x.write numberLayout).toList
  | .str s => quote s
  | .arr items => '[' :: (compactItems items ++ [']'])
  | .obj fields => '{' :: (compactFields fields ++ ['}'])

/-- The items of a list with commas between them. -/
def compactItems : List Json → List Char
  | [] => []
  | [x] => compactChars x
  | x :: y :: rest => compactChars x ++ ',' :: compactItems (y :: rest)

/-- The fields of an object with commas between them. -/
def compactFields : List (String × Json) → List Char
  | [] => []
  | [(k, x)] => quote k ++ ':' :: compactChars x
  | (k, x) :: f :: rest => quote k ++ ':' :: (compactChars x ++ ',' :: compactFields (f :: rest))

end

/-- A value as one text without blanks. -/
def compact (v : Json) : String :=
  String.ofList (compactChars v)

/-- The start of a line at a depth. -/
def newLine (level : Nat) : List Char :=
  '\n' :: List.replicate (2 * level) ' '

mutual

/-- A value over several lines; `level` is the depth of the line it begins on. -/
def prettyChars (level : Nat) : Json → List Char
  | .arr [] => ['[', ']']
  | .arr (x :: xs) =>
      '[' :: (prettyItems (level + 1) (x :: xs) ++ (newLine level ++ [']']))
  | .obj [] => ['{', '}']
  | .obj (f :: fs) =>
      '{' :: (prettyFields (level + 1) (f :: fs) ++ (newLine level ++ ['}']))
  | .null => "null".toList
  | .bool b => (if b then "true" else "false").toList
  | .int n => (Decimal.intText n).toList
  | .double x => (x.write numberLayout).toList
  | .str s => quote s

/-- The items of a list, each on its line. -/
def prettyItems (level : Nat) : List Json → List Char
  | [] => []
  | [x] => newLine level ++ prettyChars level x
  | x :: y :: rest =>
      newLine level ++ (prettyChars level x ++ ',' :: prettyItems level (y :: rest))

/-- The fields of an object, each on its line. -/
def prettyFields (level : Nat) : List (String × Json) → List Char
  | [] => []
  | [(k, x)] => newLine level ++ (quote k ++ ':' :: ' ' :: prettyChars level x)
  | (k, x) :: f :: rest =>
      newLine level ++ (quote k ++ ':' :: ' ' ::
        (prettyChars level x ++ ',' :: prettyFields level (f :: rest)))

end

/-- A value as a text of several lines. -/
def pretty (v : Json) : String :=
  String.ofList (prettyChars 0 v)

end JobQueue.Json
