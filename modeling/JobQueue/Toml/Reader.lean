/-
Statements of TOML documents.

A document is a list of lines: a key with a value, or the header of a table or of an item of a
list of tables. Values may be lists and tables of their own.
-/

import JobQueue.Toml.Scalar

namespace JobQueue.Toml

/-- One line of a document that says something. -/
inductive Statement where
  | pair (path : List String) (value : Value)
  | header (path : List String)
  | itemHeader (path : List String)
deriving Repr

/-- A text without the blanks it starts with. -/
def skipGap (cs : List Char) : List Char := cs.dropWhile isGap

/-- A character of a key without quotes. -/
def isBare (c : Char) : Bool :=
  isDecimal c || ('a' ≤ c && c ≤ 'z') || ('A' ≤ c && c ≤ 'Z') || c == '_' || c == '-'

/-- One part of a key. -/
def keyPart : Reading String := fun cs =>
  match cs with
  | '"' :: _ => quoted cs
  | '\'' :: _ => plain cs
  | _ => (Reading.many isBare cs).map fun (ds, rest) => (String.ofList ds, rest)

/-- A key: parts with points between them, and blanks around the parts. -/
def key : Nat → Reading (List String)
  | 0, _ => none
  | fuel + 1, cs => do
      let (part, rest) ← keyPart (skipGap cs)
      match skipGap rest with
      | '.' :: more => (key fuel more).map fun (parts, rest) => (part :: parts, rest)
      | rest => some ([part], rest)

/-- A text without the comment it may start with; a control character in it is refused. -/
def skipComment (cs : List Char) : Option (List Char) :=
  match cs with
  | '#' :: rest =>
      let comment := rest.takeWhile fun c => c != '\n'
      let after := rest.drop comment.length
      let comment := if comment.getLast? = some '\r' && !after.isEmpty then comment.dropLast else comment
      if comment.any isControl then none else some (rest.drop comment.length)
  | cs => some cs

/-- A text without the blanks, comments and ends of lines that it starts with. -/
def skipFiller : Nat → List Char → Option (List Char)
  | 0, _ => none
  | fuel + 1, cs => do
      let cs ← skipComment (skipGap cs)
      match lineEnd cs with
      | some (_, rest) => skipFiller fuel rest
      | none => some cs

/-- A table within a line while it is read: its fields, and whether a field is a table that its
key has made. -/
inductive Draft where
  | value (v : Value)
  | made (fields : List (String × Draft))

mutual

/-- The table of a draft. -/
def Draft.toValue : Draft → Value
  | .value v => v
  | .made fields => .table (draftFields fields)

/-- The fields of a draft. -/
def draftFields : List (String × Draft) → List (String × Value)
  | [] => []
  | (k, d) :: rest => (k, d.toValue) :: draftFields rest

end

/-- The draft of a value under a key of several parts. -/
def Draft.under : List String → Value → Draft
  | [], v => .value v
  | part :: rest, v => .made [(part, Draft.under rest v)]

/-- The fields of a draft with one more. A key that is there, or that leads through a value, is
refused. -/
def Draft.add? (fields : List (String × Draft)) : List String → Value →
    Option (List (String × Draft))
  | [], _ => none
  | part :: rest, v =>
      match fields.lookup part with
      | none => some (fields ++ [(part, Draft.under rest v)])
      | some (.made inner) => do
          if rest.isEmpty then none
          else
            let inner ← Draft.add? inner rest v
            some (fields.map fun (k, d) => if k = part then (k, .made inner) else (k, d))
      | some (.value _) => none

mutual

/-- A value. -/
def value : Nat → Reading Value
  | 0, _ => none
  | fuel + 1, cs =>
      match cs with
      | '[' :: rest => do
          let rest ← skipFiller (rest.length + 1) rest
          let (items, rest) ← listRest fuel rest
          some (.list items, rest)
      | '\x7b' :: rest =>
          match skipGap rest with
          | '\x7d' :: rest => some (.table [], rest)
          | rest => do
              let (fields, rest) ← tableRest fuel [] rest
              some (.table (draftFields fields), rest)
      | '"' :: _ | '\'' :: _ => (text cs).map fun (s, rest) => (.text s, rest)
      | _ =>
          ((Reading.word "true".toList cs).map fun r => (.switch true, r.2)) <|>
          ((Reading.word "false".toList cs).map fun r => (.switch false, r.2)) <|>
          (if looksLikeMoment cs then moment cs else number cs)

/-- The items of a list up to its end. A comma may stand after the last one. -/
def listRest : Nat → Reading (List Value)
  | 0, _ => none
  | fuel + 1, cs =>
      match cs with
      | ']' :: rest => some ([], rest)
      | _ => do
          let (v, rest) ← value fuel cs
          let rest ← skipFiller (rest.length + 1) rest
          match rest with
          | ',' :: more =>
              let more ← skipFiller (more.length + 1) more
              let (vs, rest) ← listRest fuel more
              some (v :: vs, rest)
          | ']' :: more => some ([v], more)
          | _ => none

/-- The fields of a table up to its end, all on one line. -/
def tableRest : Nat → List (String × Draft) → Reading (List (String × Draft))
  | 0, _, _ => none
  | fuel + 1, fields, cs => do
      let (path, rest) ← key (cs.length + 1) cs
      let ((), rest) ← Reading.mark '=' rest
      let (v, rest) ← value fuel (skipGap rest)
      let fields ← Draft.add? fields path v
      match skipGap rest with
      | ',' :: more => tableRest fuel fields more
      | '\x7d' :: more => some (fields, more)
      | _ => none

end

/-- The header of a table, or of an item of a list of tables. -/
def header (cs : List Char) : Option (Statement × List Char) :=
  match cs with
  | '[' :: '[' :: rest => do
      let (path, rest) ← key (rest.length + 1) rest
      let ((), rest) ← Reading.word [']', ']'] rest
      some (.itemHeader path, rest)
  | '[' :: rest => do
      let (path, rest) ← key (rest.length + 1) rest
      let ((), rest) ← Reading.mark ']' rest
      some (.header path, rest)
  | _ => none

/-- A line that says something. -/
def statement (cs : List Char) : Option (Statement × List Char) :=
  match cs with
  | '[' :: _ => header cs
  | _ => do
      let (path, rest) ← key (cs.length + 1) cs
      let ((), rest) ← Reading.mark '=' rest
      let rest := skipGap rest
      let (v, rest) ← value (rest.length + 1) rest
      some (.pair path v, rest)

/-- The statements of a text. -/
def statementsIn : Nat → List Char → Option (List Statement)
  | 0, _ => none
  | fuel + 1, cs => do
      let cs ← skipFiller (cs.length + 1) cs
      if cs.isEmpty then some []
      else
        let (s, rest) ← statement cs
        let rest ← skipComment (skipGap rest)
        match lineEnd rest, rest with
        | some (_, rest), _ => (statementsIn fuel rest).map (s :: ·)
        | none, [] => some [s]
        | none, _ :: _ => none

/-- The statements of a document. -/
def statements (document : String) : Option (List Statement) :=
  let cs := document.toList
  let cs := if cs.head? = some (Char.ofNat 0xFEFF) then cs.tail else cs
  statementsIn (cs.length + 1) cs

end JobQueue.Toml
