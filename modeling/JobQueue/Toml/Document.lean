/-
TOML documents.

The statements of a document build its tables one after another. A table can be described once:
a header may give fields to a table that until then only stood on the way to others, and a key
of several parts may only add to tables that such keys have made.
-/

import JobQueue.Toml.Reader

namespace JobQueue.Toml

/-- How a table came to be. -/
inductive Origin where
  /-- It stands on the way to the table of a header. -/
  | passed
  /-- It stands on the way of a key of several parts. -/
  | dotted
  /-- It has a header of its own. -/
  | headed
deriving DecidableEq, Repr

/-- A part of a document while it is built. -/
inductive Node where
  | value (v : Value)
  | table (origin : Origin) (fields : List (String × Node))
  /-- The items of a list of tables, the last one first. -/
  | items (tables : List (List (String × Node)))

namespace Node

mutual

/-- The value of a part. -/
def toValue : Node → Value
  | .value v => v
  | .table _ fields => .table (fieldValues fields)
  | .items tables => .list (itemValues tables).reverse

/-- The values of fields. -/
def fieldValues : List (String × Node) → List (String × Value)
  | [] => []
  | (k, n) :: rest => (k, n.toValue) :: fieldValues rest

/-- The values of tables. -/
def itemValues : List (List (String × Node)) → List Value
  | [] => []
  | fields :: rest => .table (fieldValues fields) :: itemValues rest

end

/-- The fields with one of them replaced, or one more. -/
def put (key : String) (n : Node) : List (String × Node) → List (String × Node)
  | [] => [(key, n)]
  | (k, m) :: rest => if k = key then (key, n) :: rest else (k, m) :: put key n rest

/-- Changes the fields of the table that a path leads to. -/
def descend (change : List (String × Node) → Option (List (String × Node))) :
    List String → List (String × Node) → Option (List (String × Node))
  | [], fields => change fields
  | part :: rest, fields =>
      match fields.lookup part with
      | none => do
          let inner ← descend change rest []
          some (put part (.table .passed inner) fields)
      | some (.table origin inner) => do
          let inner ← descend change rest inner
          some (put part (.table origin inner) fields)
      | some (.items (last :: earlier)) => do
          let last ← descend change rest last
          some (put part (.items (last :: earlier)) fields)
      | some _ => none

/-- The fields with a table that has a header. -/
def addHeader (key : String) (fields : List (String × Node)) : Option (List (String × Node)) :=
  match fields.lookup key with
  | none => some (put key (.table .headed []) fields)
  | some (.table .passed inner) => some (put key (.table .headed inner) fields)
  | some _ => none

/-- The fields with one more item in a list of tables. -/
def addItem (key : String) (fields : List (String × Node)) : Option (List (String × Node)) :=
  match fields.lookup key with
  | none => some (put key (.items [[]]) fields)
  | some (.items tables) => some (put key (.items ([] :: tables)) fields)
  | some _ => none

/-- The fields with a value under a key that is not there. -/
def addValue (key : String) (v : Value) (fields : List (String × Node)) :
    Option (List (String × Node)) :=
  match fields.lookup key with
  | none => some (put key (.value v) fields)
  | some _ => none

/-- The fields with a value under a path of several parts: the last table on the way has to be
one that such a path has made. -/
def addPath (v : Value) : List String → List (String × Node) → Option (List (String × Node))
  | [], _ => none
  | [key], fields => addValue key v fields
  | part :: rest, fields =>
      match fields.lookup part with
      | none => do
          let inner ← addPath v rest []
          some (put part (.table .dotted inner) fields)
      | some (.table origin inner) =>
          if origin = .headed || (origin = .passed && rest.length ≤ 1) then none
          else do
            let inner ← addPath v rest inner
            some (put part (.table origin inner) fields)
      | some (.items (last :: earlier)) =>
          if rest.length ≤ 1 then none
          else do
            let last ← addPath v rest last
            some (put part (.items (last :: earlier)) fields)
      | some _ => none

end Node

/-- A document while it is built: its fields, and the path of the table that keys go to. -/
structure Building where
  root : List (String × Node)
  current : List String

/-- The document after one more statement. -/
def Building.after (d : Building) : Statement → Option Building
  | .pair path v => do
      let root ← Node.descend (Node.addPath v path) d.current d.root
      some { d with root := root }
  | .header path => do
      let root ← Node.descend (Node.addHeader (path.getLastD ""))
        path.dropLast d.root
      some ⟨root, path⟩
  | .itemHeader path => do
      let root ← Node.descend (Node.addItem (path.getLastD ""))
        path.dropLast d.root
      some ⟨root, path⟩

/-- Reads a document. -/
def read (document : String) : Option (List (String × Value)) := do
  let ss ← statements document
  let d ← ss.foldlM Building.after ⟨[], []⟩
  some (Node.fieldValues d.root)

end JobQueue.Toml
