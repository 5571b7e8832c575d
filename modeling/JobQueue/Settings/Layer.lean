/-
Layers of settings.

A layer is a file or the environment. Its values are put into one tree, later layers over earlier
ones: tables are merged field by field, any other value replaces what stands there. Every value
knows the layer it comes from, so that a message can name it. Names of fields are kept in small
letters.
-/

import JobQueue.Decimal.Floating
import JobQueue.Settings.Basic
import JobQueue.Text.Quoted
import JobQueue.Toml.Value

namespace JobQueue

/-- A value of a layer. -/
inductive Leaf where
  | text (s : String)
  | int (n : Int)
  | float (x : Floating)
  | switch (b : Bool)
  /-- The place of an item of a list that was never given. -/
  | missing
deriving Repr

/-- The settings of layers put together. `origin` names the layer of a value. -/
inductive Tree where
  | leaf (origin : Option String) (value : Leaf)
  | list (origin : Option String) (items : List Tree)
  | table (fields : List (String × Tree))
deriving Repr, Inhabited

namespace Tree

/-- A character in a small letter. Besides the capitals, the Kelvin sign has a small letter among
the letters of names. -/
def lowerChar (c : Char) : Char := if c = Char.ofNat 0x212A then 'k' else c.toLower

/-- A name in small letters. -/
def lowerName (s : String) : String := String.ofList (s.toList.map lowerChar)

/-- The fields with one of them replaced, or one more. -/
def put (key : String) (t : Tree) : List (String × Tree) → List (String × Tree)
  | [] => [(key, t)]
  | (k, u) :: rest => if k = key then (key, t) :: rest else (k, u) :: put key t rest

/-- The fields of a tree; none if it is no table. -/
def fieldsOf : Tree → List (String × Tree)
  | .table fields => fields
  | _ => []

mutual

/-- The value of a field after another is put over it. A table is merged into one that is there;
one without fields leaves what is there. -/
def covering (old : Option Tree) : Tree → Tree
  | .table [] => old.getD (.table [])
  | .table (f :: fields) => .table (mergeFields (fieldsOf (old.getD (.table []))) (f :: fields))
  | t => t

/-- Fields with other fields put over them. -/
def mergeFields (old : List (String × Tree)) : List (String × Tree) → List (String × Tree)
  | [] => old
  | (k, t) :: rest =>
      let name := lowerName k
      mergeFields (put name (covering (old.lookup name) t) old) rest

end

/-- A step on the way to a value. -/
inductive Step where
  | field (name : String)
  | item (index : Nat)
deriving DecidableEq, Repr

/-- The place of an item that was never given. -/
def nothing : Tree := .leaf none .missing

/-- The items of a tree; none if it is no list. -/
def itemsOf : Tree → List Tree
  | .list _ items => items
  | _ => []

/-- Items with one of them changed; missing ones are made up to it. -/
def changeItem (index : Nat) (change : Tree → Tree) (items : List Tree) : List Tree :=
  let items := items ++ List.replicate (index + 1 - items.length) nothing
  items.modify index change

/-- The origin of a list. -/
def listOrigin : Tree → Option String
  | .list origin _ => origin
  | _ => none

/-- A tree with a value put where a path leads to. What stands in the way and is no table or list
of the kind the path needs gives way to one. -/
def set : List Step → Tree → Tree → Tree
  | [], value, old => covering (some old) value
  | .field name :: rest, value, old =>
      let fields := fieldsOf old
      let name := lowerName name
      match rest with
      | [] => .table (put name (covering (fields.lookup name) value) fields)
      | _ => .table (put name (set rest value ((fields.lookup name).getD nothing)) fields)
  | .item index :: rest, value, old =>
      match rest with
      | [] => .list (listOrigin old) (changeItem index (fun _ => value) (itemsOf old))
      | _ => .list (listOrigin old) (changeItem index (set rest value) (itemsOf old))

/-- A character of a name in a path. -/
def isNameChar (c : Char) : Bool :=
  (Decimal.digitValue? c).isSome || ('a' ≤ c && c ≤ 'z') || ('A' ≤ c && c ≤ 'Z') || c == '_' ||
    c == '-'

/-- The steps after the first name of a path. -/
def moreSteps : Nat → List Char → Option (List Step)
  | _, [] => some []
  | 0, _ => none
  | fuel + 1, '.' :: rest => do
      let name := rest.takeWhile isNameChar
      if name.isEmpty then none
      else
        let steps ← moreSteps fuel (rest.dropWhile isNameChar)
        some (.field (String.ofList name) :: steps)
  | fuel + 1, '[' :: rest => do
      let (ds, rest) := Decimal.spanDigits rest
      let n ← Decimal.ofDigits? ds
      match rest with
      | ']' :: rest => (moreSteps fuel rest).map (.item n :: ·)
      | _ => none
  | _ + 1, _ => none

/-- The path that a key names: names with points between them and places of items in brackets.
Any other key is one name. -/
def pathOf (key : String) : List Step :=
  let cs := key.toList
  let first := cs.takeWhile isNameChar
  let steps := if first.isEmpty then none else moreSteps cs.length (cs.dropWhile isNameChar)
  match steps with
  | some steps => .field (String.ofList first) :: steps
  | none => [.field key]

/-- A tree with a layer's values put over it. -/
def layer (old : Tree) (values : List (String × Tree)) : Tree :=
  values.foldl (fun t (key, v) => set (pathOf key) v t) old

mutual

/-- A value of a document as one of a layer. -/
def ofToml (origin : String) : Toml.Value → Tree
  | .text s => .leaf (some origin) (.text s)
  | .int n => .leaf (some origin) (.int n)
  | .float x => .leaf (some origin) (.float x)
  | .switch b => .leaf (some origin) (.switch b)
  | .moment s => .leaf (some origin) (.text s)
  | .list items => .list (some origin) (ofItems origin items)
  | .table fields => .table (ofFields origin fields)

/-- Items of a document as items of a layer. -/
def ofItems (origin : String) : List Toml.Value → List Tree
  | [] => []
  | v :: rest => ofToml origin v :: ofItems origin rest

/-- Fields of a document as fields of a layer. -/
def ofFields (origin : String) : List (String × Toml.Value) → List (String × Tree)
  | [] => []
  | (k, v) :: rest => (k, ofToml origin v) :: ofFields origin rest

end

end Tree

end JobQueue
