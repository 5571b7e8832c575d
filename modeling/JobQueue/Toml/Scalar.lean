/-
Texts, numbers, dates and times of TOML documents.
-/

import JobQueue.Json.Reader
import JobQueue.Text.Reading
import JobQueue.Time.Calendar
import JobQueue.Toml.Value
import JobQueue.Decimal.Word

namespace JobQueue.Toml

/-! ### Texts -/

/-- Characters that may not stand in a document as they are: the control characters but the
tab. -/
def isControl (c : Char) : Bool := (c.toNat < 32 && c != '\t') || c.toNat == 127

/-- The end of a line: a line feed, perhaps after a carriage return. -/
def lineEnd : Reading Unit
  | '\n' :: rest => some ((), rest)
  | '\r' :: '\n' :: rest => some ((), rest)
  | _ => none

/-- A blank within a line. -/
def isGap (c : Char) : Bool := c == ' ' || c == '\t'

/-- A number of so many hexadecimal digits. -/
def hexDigits : Nat → Nat → Reading Nat
  | 0, n, cs => some (n, cs)
  | _ + 1, _, [] => none
  | count + 1, n, c :: rest =>
      match Json.hexValue? c with
      | some d => hexDigits count (n * 16 + d) rest
      | none => none

/-- A character by its number. -/
def scalar (digits : Nat) : Reading Char := fun cs => do
  let (n, rest) ← hexDigits digits 0 cs
  if n.isValidChar then some (Char.ofNat n, rest) else none

/-- What follows a backslash. -/
def escape : Reading Char
  | 'b' :: rest => some (Char.ofNat 8, rest)
  | 't' :: rest => some ('\t', rest)
  | 'n' :: rest => some ('\n', rest)
  | 'f' :: rest => some (Char.ofNat 12, rest)
  | 'r' :: rest => some ('\r', rest)
  | '"' :: rest => some ('"', rest)
  | '\\' :: rest => some ('\\', rest)
  | 'u' :: rest => scalar 4 rest
  | 'U' :: rest => scalar 8 rest
  | _ => none

/-- The rest of a text between double quotes on one line. -/
def quotedRest : Nat → Reading (List Char)
  | 0, _ => none
  | _, [] => none
  | fuel + 1, c :: rest =>
      if c = '"' then some ([], rest)
      else if c = '\\' then do
        let (d, rest) ← escape rest
        let (more, rest) ← quotedRest fuel rest
        some (d :: more, rest)
      else if isControl c then none
      else do
        let (more, rest) ← quotedRest fuel rest
        some (c :: more, rest)

/-- The rest of a text between single quotes on one line. -/
def plainRest : Reading (List Char)
  | [] => none
  | c :: rest =>
      if c = '\'' then some ([], rest)
      else if isControl c then none
      else (plainRest rest).map fun (more, rest) => (c :: more, rest)

/-- The quotes at the end of a text over lines: three end it, up to two more belong to it. -/
def closing (quote : Char) (cs : List Char) : Option (List Char × List Char) :=
  let quotes := cs.takeWhile (· == quote)
  if quotes.length < 3 then none
  else
    let extra := min (quotes.length - 3) 2
    some (List.replicate extra quote, cs.drop (3 + extra))

/-- Blanks and ends of lines. -/
def skipLines : List Char → List Char
  | '\r' :: '\n' :: rest => skipLines rest
  | c :: rest => if isGap c || c = '\n' then skipLines rest else c :: rest
  | [] => []

/-- What follows a backslash at the end of a line: the text goes on with the next character that
is no blank. -/
def continued? (cs : List Char) : Option (List Char) :=
  match lineEnd (cs.dropWhile isGap) with
  | some (_, rest) => some (skipLines rest)
  | none => none

/-- The rest of a text over lines. `escapes` says whether backslashes count. -/
def linesRest (quote : Char) (escapes : Bool) : Nat → Reading (List Char)
  | 0, _ => none
  | _, [] => none
  | fuel + 1, c :: rest =>
      match closing quote (c :: rest) with
      | some r => some r
      | none =>
          let next (d : Char) (rest : List Char) :=
            (linesRest quote escapes fuel rest).map fun (more, rest) => (d :: more, rest)
          if escapes && c = '\\' then
            match continued? rest with
            | some rest => linesRest quote escapes fuel rest
            | none => (escape rest).bind fun (d, rest) => next d rest
          else
            match lineEnd (c :: rest) with
            | some (_, rest) => next '\n' rest
            | none => if isControl c then none else next c rest

/-- A text over lines without the end of line it may begin with. -/
def dropFirstEnd (cs : List Char) : List Char :=
  match lineEnd cs with
  | some (_, rest) => rest
  | none => cs

/-- A text between double quotes on one line. -/
def quoted : Reading String
  | '"' :: rest => (quotedRest (rest.length + 1) rest).map fun (cs, rest) => (String.ofList cs, rest)
  | _ => none

/-- A text between single quotes on one line. -/
def plain : Reading String
  | '\'' :: rest => (plainRest rest).map fun (cs, rest) => (String.ofList cs, rest)
  | _ => none

/-- A text between three quotes of a kind. -/
def lines (quote : Char) (escapes : Bool) : Reading String := fun cs => do
  let ((), rest) ← Reading.word [quote, quote, quote] cs
  let rest := dropFirstEnd rest
  let (text, rest) ← linesRest quote escapes (rest.length + 1) rest
  some (String.ofList text, rest)

/-- A text. Three quotes never begin a text on one line. -/
def text : Reading String
  | '"' :: '"' :: '"' :: rest => lines '"' true ('"' :: '"' :: '"' :: rest)
  | '\'' :: '\'' :: '\'' :: rest => lines '\'' false ('\'' :: '\'' :: '\'' :: rest)
  | '"' :: rest => quoted ('"' :: rest)
  | cs => plain cs

/-! ### Numbers -/

/-- Digits of a base with single underscores between them. -/
def grouped (isDigit : Char → Bool) : Reading (List Char)
  | [] => none
  | c :: rest =>
      if isDigit c then
        match rest with
        | '_' :: d :: more =>
            if isDigit d then
              (grouped isDigit (d :: more)).map fun (ds, rest) => (c :: ds, rest)
            else none
        | d :: more =>
            if isDigit d then
              (grouped isDigit (d :: more)).map fun (ds, rest) => (c :: ds, rest)
            else some ([c], d :: more)
        | [] => some ([c], [])
      else none

/-- A decimal digit. -/
def isDecimal (c : Char) : Bool := (Decimal.digitValue? c).isSome

/-- The number that digits of a base write. -/
def ofBase (base : Nat) (ds : List Char) : Nat :=
  ds.foldl (fun n c => n * base + (Json.hexValue? c).getD 0) 0

/-- A whole number that fits in 64 bits with its sign. -/
def fits (n : Int) : Option Value :=
  if Word.fits 64 n then some (.int n) else none

/-- A whole number in another base, after the letter of the base. -/
def based (base : Nat) (isDigit : Char → Bool) : Reading Value := fun cs => do
  let (ds, rest) ← grouped isDigit cs
  let v ← fits (ofBase base ds)
  some (v, rest)

/-- The sign before a number. -/
def sign : List Char → Bool × List Char
  | '-' :: rest => (true, rest)
  | '+' :: rest => (false, rest)
  | cs => (false, cs)

/-- The exponent of a number, if one stands there. -/
def exponent : Reading (Option Int)
  | c :: rest =>
      if c = 'e' || c = 'E' then do
        let (negative, rest) := sign rest
        let (ds, rest) ← grouped isDecimal rest
        let n : Int := ofBase 10 ds
        some (some (if negative then -n else n), rest)
      else some (none, c :: rest)
  | [] => some (none, [])

/-- The fraction of a number, if one stands there. -/
def fraction : Reading (Option (List Char))
  | '.' :: rest => (grouped isDecimal rest).map fun (ds, rest) => (some ds, rest)
  | cs => some (none, cs)

/-- A floating-point number that is not too large. -/
def float? (negative : Bool) (digits : List Char) (e : Int) : Option Value :=
  match Floating.ofDecimal negative (ofBase 10 digits) e with
  | .infinite false => none
  | x => some (.float x)

/-- A decimal number after its sign. -/
def decimal (negative : Bool) : Reading Value := fun cs => do
  let (whole, rest) ← grouped isDecimal cs
  if whole.length > 1 && whole.head? = some '0' then none
  else
    let (part, rest) ← fraction rest
    let (e, rest) ← exponent rest
    match part, e with
    | none, none =>
        let n : Int := ofBase 10 whole
        (fits (if negative then -n else n)).map fun v => (v, rest)
    | part, e =>
        let part := part.getD []
        (float? negative (whole ++ part) (e.getD 0 - part.length)).map fun v => (v, rest)

/-- A hexadecimal digit. -/
def isHex (c : Char) : Bool := (Json.hexValue? c).isSome

/-- A number. -/
def number : Reading Value
  | '0' :: 'x' :: rest => based 16 isHex rest
  | '0' :: 'o' :: rest => based 8 (fun c => '0' ≤ c && c ≤ '7') rest
  | '0' :: 'b' :: rest => based 2 (fun c => c == '0' || c == '1') rest
  | cs =>
      let (negative, rest) := sign cs
      ((Reading.word "inf".toList rest).map fun r => (.float (.infinite negative), r.2)) <|>
      ((Reading.word "nan".toList rest).map fun r => (.float .undefined, r.2)) <|>
      decimal negative rest

/-! ### Dates and times -/

/-- A number of so many digits. -/
def digits (count : Nat) : Reading Nat := fun cs => do
  let n ← Decimal.ofDigits? (cs.take count)
  if (cs.take count).length = count then some (n, cs.drop count) else none

/-- A date, as it is written. -/
def date : Reading String := fun cs => do
  let (year, rest) ← digits 4 cs
  let ((), rest) ← Reading.mark '-' rest
  let (month, rest) ← digits 2 rest
  let ((), rest) ← Reading.mark '-' rest
  let (day, rest) ← digits 2 rest
  if Date.Valid ⟨year, month, day⟩ then some (String.ofList (cs.take 10), rest) else none

/-- The digits after the point of a second; nine count, and zeros at the end do not. -/
def secondPart : Reading String
  | '.' :: rest =>
      (Reading.many isDecimal rest).map fun (ds, rest) =>
        let kept := ((ds.take 9).reverse.dropWhile (· == '0')).reverse
        (if kept.isEmpty then "" else String.ofList ('.' :: kept), rest)
  | cs => some ("", cs)

/-- A time of day, as it is written. -/
def time : Reading String := fun cs => do
  let (hour, rest) ← digits 2 cs
  let ((), rest) ← Reading.mark ':' rest
  let (minute, rest) ← digits 2 rest
  let ((), rest) ← Reading.mark ':' rest
  let (second, rest) ← digits 2 rest
  let (part, rest) ← secondPart rest
  if hour < 24 ∧ minute < 60 ∧ second ≤ 60 then some (String.ofList (cs.take 8) ++ part, rest)
  else none

/-- An offset from universal time, if one stands there. -/
def offset : Reading String
  | 'Z' :: rest | 'z' :: rest => some ("Z", rest)
  | c :: rest =>
      if c = '+' || c = '-' then do
        let (hour, more) ← digits 2 rest
        let ((), more) ← Reading.mark ':' more
        let (minute, more) ← digits 2 more
        if hour < 24 ∧ minute < 60 then some (String.ofList (c :: rest.take 5), more) else none
      else some ("", c :: rest)
  | [] => some ("", [])

/-- A date with a time of day. -/
def dateTime : Reading String := fun cs => do
  let (d, rest) ← date cs
  match rest with
  | c :: more =>
      if c = 'T' || c = 't' || c = ' ' then do
        let (t, more) ← time more
        let (o, more) ← offset more
        some (d ++ "T" ++ t ++ o, more)
      else none
  | [] => none

/-- A date, a time of day, or both. -/
def moment : Reading Value := fun cs =>
  (dateTime cs <|> date cs <|> time cs).map fun (s, rest) => (.moment s, rest)

/-- Whether a text begins like a date or a time. -/
def looksLikeMoment (cs : List Char) : Bool :=
  let ds := cs.takeWhile isDecimal
  match cs.drop ds.length with
  | '-' :: _ => ds.length == 4
  | ':' :: _ => ds.length == 2
  | _ => false

end JobQueue.Toml
