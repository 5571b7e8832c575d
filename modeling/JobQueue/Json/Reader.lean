/-
Reading structured values from text.

`Json.read` accepts one value with blanks around it and nothing else. Lists and objects may
stand inside one another as deep as the caller allows; of equal keys the last one counts; a
whole number outside the signed and unsigned 64-bit ranges, and any number with a point or an
exponent, is a floating-point number, and one too large for that is refused.
-/

import JobQueue.Json.Printer
import JobQueue.Decimal.Word

namespace JobQueue.Json

/-- The blanks that may stand between the parts of a value. -/
def isSpace (c : Char) : Bool :=
  c == ' ' || c == '\n' || c == '\r' || c == '\t'

/-- A text without the blanks it begins with. -/
def skipSpace (cs : List Char) : List Char :=
  cs.dropWhile isSpace

/-- The value of a hexadecimal digit. -/
def hexValue? (c : Char) : Option Nat :=
  if '0' ≤ c ∧ c ≤ '9' then some (c.toNat - 48)
  else if 'a' ≤ c ∧ c ≤ 'f' then some (c.toNat - 87)
  else if 'A' ≤ c ∧ c ≤ 'F' then some (c.toNat - 55)
  else none

/-- Four hexadecimal digits. -/
def hex4? : List Char → Option (Nat × List Char)
  | a :: b :: c :: d :: rest => do
      let a ← hexValue? a
      let b ← hexValue? b
      let c ← hexValue? c
      let d ← hexValue? d
      some (((a * 16 + b) * 16 + c) * 16 + d, rest)
  | _ => none

/-- The character of a `\u` escape: one group of four digits, or two that form a pair of
surrogates. A surrogate alone is refused. -/
def unicode? (cs : List Char) : Option (Char × List Char) := do
  let (high, rest) ← hex4? cs
  if 0xD800 ≤ high ∧ high < 0xDC00 then
    match rest with
    | '\\' :: 'u' :: more =>
        let (low, rest) ← hex4? more
        if 0xDC00 ≤ low ∧ low < 0xE000 then
          some (Char.ofNat (0x10000 + (high - 0xD800) * 1024 + (low - 0xDC00)), rest)
        else none
    | _ => none
  else if 0xDC00 ≤ high ∧ high < 0xE000 then none
  else some (Char.ofNat high, rest)

/-- The character of an escape, after its backslash. -/
def escape? : List Char → Option (Char × List Char)
  | '"' :: rest => some ('"', rest)
  | '\\' :: rest => some ('\\', rest)
  | '/' :: rest => some ('/', rest)
  | 'b' :: rest => some (Char.ofNat 8, rest)
  | 'f' :: rest => some (Char.ofNat 12, rest)
  | 'n' :: rest => some ('\n', rest)
  | 'r' :: rest => some ('\r', rest)
  | 't' :: rest => some ('\t', rest)
  | 'u' :: rest => unicode? rest
  | _ => none

/-- The characters of a text up to its closing quote, after its opening one. Each step takes a
character at least, so `fuel` may be the length of what is left. -/
def textChars? : Nat → List Char → Option (List Char × List Char)
  | 0, _ => none
  | _ + 1, [] => none
  | fuel + 1, c :: rest =>
      if c = '"' then some ([], rest)
      else if c = '\\' then do
        let (d, rest) ← escape? rest
        let (ds, rest) ← textChars? fuel rest
        some (d :: ds, rest)
      else if c.toNat < 32 then none
      else do
        let (ds, rest) ← textChars? fuel rest
        some (c :: ds, rest)

/-- A text, after its opening quote. -/
def text? (cs : List Char) : Option (String × List Char) :=
  (textChars? (cs.length + 1) cs).map fun (ds, rest) => (String.ofList ds, rest)

/-- The digits of an exponent with its sign, after the letter `e`. -/
def exponent? (cs : List Char) : Option (Int × List Char) :=
  let (negative, cs) :=
    match cs with
    | '-' :: rest => (true, rest)
    | '+' :: rest => (false, rest)
    | _ => (false, cs)
  let (ds, rest) := Decimal.spanDigits cs
  (Decimal.ofDigits? ds).map fun n => (if negative then -(n : Int) else (n : Int), rest)

/-- The digits after a decimal point, one at least; no digits without a point. -/
def fraction? : List Char → Option (List Char × List Char)
  | '.' :: rest =>
      let (ds, rest) := Decimal.spanDigits rest
      if ds.isEmpty then none else some (ds, rest)
  | cs => some ([], cs)

/-- A number that is written without a point and without an exponent. -/
def wholeNumber? (negative : Bool) (n : Nat) : Option Json :=
  if negative then
    if n = 0 then some (.double (Double.zero true))
    else if n ≤ Word.count 63 then some (.int (-(n : Int)))
    else (Double.ofDecimal? true n 0).map .double
  else if n < Word.count 64 then some (.int n)
  else (Double.ofDecimal? false n 0).map .double

/-- The whole part of a number: one zero, or digits that do not begin with a zero. -/
def wholePart? (cs : List Char) : Option (List Char × List Char) :=
  match cs with
  | '0' :: rest => some (['0'], rest)
  | _ =>
      let (ds, rest) := Decimal.spanDigits cs
      if ds.isEmpty then none else some (ds, rest)

/-- A number after its sign. -/
def unsigned? (negative : Bool) (cs : List Char) : Option (Json × List Char) := do
  let (whole, rest) ← wholePart? cs
  let (part, rest) ← fraction? rest
  let mantissa ← Decimal.ofDigits? (whole ++ part)
  match rest with
  | 'e' :: more | 'E' :: more =>
      let (e, rest) ← exponent? more
      let x ← Double.ofDecimal? negative mantissa (e - part.length)
      some (.double x, rest)
  | _ =>
      if part.isEmpty then
        let v ← wholeNumber? negative mantissa
        some (v, rest)
      else
        let x ← Double.ofDecimal? negative mantissa (-part.length)
        some (.double x, rest)

/-- A number. -/
def number? : List Char → Option (Json × List Char)
  | '-' :: rest => unsigned? true rest
  | cs => unsigned? false cs

/-- The items of a list up to its closing bracket, read by `item`. Each takes a character at
least, so `fuel` may be the length of what is left. -/
def items? (item : List Char → Option (Json × List Char)) :
    Nat → List Char → Option (List Json × List Char)
  | 0, _ => none
  | fuel + 1, cs => do
      let (v, rest) ← item cs
      match skipSpace rest with
      | ']' :: rest => some ([v], rest)
      | ',' :: rest =>
          let (vs, rest) ← items? item fuel rest
          some (v :: vs, rest)
      | _ => none

/-- The fields of an object up to its closing brace, with values read by `item`. -/
def fields? (item : List Char → Option (Json × List Char)) :
    Nat → List Char → Option (List (String × Json) × List Char)
  | 0, _ => none
  | fuel + 1, cs => do
      match skipSpace cs with
      | '"' :: rest =>
          let (k, rest) ← text? rest
          match skipSpace rest with
          | ':' :: rest =>
              let (v, rest) ← item rest
              match skipSpace rest with
              | '}' :: rest => some ([(k, v)], rest)
              | ',' :: rest =>
                  let (fs, rest) ← fields? item fuel rest
                  some ((k, v) :: fs, rest)
              | _ => none
          | _ => none
      | _ => none

/-- A list after its opening bracket. -/
def list? (item : List Char → Option (Json × List Char)) (cs : List Char) :
    Option (Json × List Char) :=
  match skipSpace cs with
  | ']' :: rest => some (.arr [], rest)
  | cs => (items? item (cs.length + 1) cs).map fun (vs, rest) => (.arr vs, rest)

/-- An object after its opening brace. -/
def object? (item : List Char → Option (Json × List Char)) (cs : List Char) :
    Option (Json × List Char) :=
  match skipSpace cs with
  | '}' :: rest => some (.obj [], rest)
  | cs => (fields? item (cs.length + 1) cs).map fun (fs, rest) => (ofFields fs, rest)

/-- A value with the blanks before it, in which lists and objects stand at most `depth` deep. -/
def value? : Nat → List Char → Option (Json × List Char)
  | depth, cs =>
      match skipSpace cs with
      | 'n' :: 'u' :: 'l' :: 'l' :: rest => some (.null, rest)
      | 't' :: 'r' :: 'u' :: 'e' :: rest => some (.bool true, rest)
      | 'f' :: 'a' :: 'l' :: 's' :: 'e' :: rest => some (.bool false, rest)
      | '"' :: rest => (text? rest).map fun (s, rest) => (.str s, rest)
      | '[' :: rest =>
          match depth with
          | 0 => none
          | depth + 1 => list? (value? depth) rest
      | '{' :: rest =>
          match depth with
          | 0 => none
          | depth + 1 => object? (value? depth) rest
      | cs => number? cs

/-- One value with blanks around it, in which lists and objects stand at most `depth` deep. -/
def readWithin (depth : Nat) (s : String) : Option Json := do
  let (v, rest) ← value? depth s.toList
  if (skipSpace rest).isEmpty then some v else none

/-- How deep lists and objects may stand inside one another in a payload. -/
def depthLimit : Nat := 127

/-- One value with blanks around it. -/
def read (s : String) : Option Json :=
  readWithin depthLimit s

end JobQueue.Json
