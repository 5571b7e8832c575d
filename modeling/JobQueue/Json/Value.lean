/-
Structured values: null, booleans, numbers, texts, lists and objects.

An object is kept as its fields in the order of their keys, each key once (`Fields.Ordered`);
`insert` and `ofFields` keep that form. Whole numbers and floating-point numbers are different
values: `1` is not `1.0`.
-/

import JobQueue.Decimal.Shortest

namespace JobQueue

/-- A structured value. -/
inductive Json where
  | null
  | bool (value : Bool)
  | int (value : Int)
  | double (value : Double)
  | str (value : String)
  | arr (items : List Json)
  | obj (fields : List (String × Json))
deriving Repr, Inhabited

/-- The fields of an object, in the order of their keys. -/
abbrev Fields := List (String × Json)

namespace Fields

/-- Sets one field: replaces the value of an equal key, else puts the key in its place. -/
def insert (key : String) (value : Json) : Fields → Fields
  | [] => [(key, value)]
  | (k, v) :: rest =>
      if key < k then (key, value) :: (k, v) :: rest
      else if key = k then (key, value) :: rest
      else (k, v) :: insert key value rest

/-- The value of a key. -/
def get? (fields : Fields) (key : String) : Option Json :=
  fields.lookup key

/-- The object with these fields; of equal keys the last one counts. -/
def ofList (pairs : List (String × Json)) : Fields :=
  pairs.foldl (fun fields (k, v) => Fields.insert k v fields) []

/-- The keys rise from field to field. -/
def Ordered : Fields → Prop
  | [] => True
  | [_] => True
  | (k, _) :: (l, v) :: rest => k < l ∧ Ordered ((l, v) :: rest)

end Fields

namespace Json

/-- The value under a key of an object. -/
def get? (v : Json) (key : String) : Option Json :=
  match v with
  | .obj fields => Fields.get? fields key
  | _ => none

/-- The text that a value is. -/
def str? : Json → Option String
  | .str s => some s
  | _ => none

/-- The object with these fields, whatever their order. -/
def ofFields (pairs : List (String × Json)) : Json :=
  .obj (Fields.ofList pairs)

mutual

/-- Whether two values are equal. The two floating-point zeros are equal; a whole number never
equals a floating-point one. -/
def same : Json → Json → Bool
  | .null, .null => true
  | .bool a, .bool b => a == b
  | .int a, .int b => a == b
  | .double a, .double b => a.same b
  | .str a, .str b => a == b
  | .arr xs, .arr ys => sameItems xs ys
  | .obj xs, .obj ys => sameFields xs ys
  | _, _ => false

/-- Whether two lists are equal item by item. -/
def sameItems : List Json → List Json → Bool
  | [], [] => true
  | x :: xs, y :: ys => same x y && sameItems xs ys
  | _, _ => false

/-- Whether two objects have the same keys with equal values. -/
def sameFields : List (String × Json) → List (String × Json) → Bool
  | [], [] => true
  | (k, x) :: xs, (l, y) :: ys => k == l && same x y && sameFields xs ys
  | _, _ => false

end

mutual

/-- How many lists and objects stand inside one another, the outermost included. -/
def depth : Json → Nat
  | .arr items => depthItems items + 1
  | .obj fields => depthFields fields + 1
  | _ => 0

/-- The greatest depth of the items of a list. -/
def depthItems : List Json → Nat
  | [] => 0
  | x :: xs => max (depth x) (depthItems xs)

/-- The greatest depth of the values of some fields. -/
def depthFields : List (String × Json) → Nat
  | [] => 0
  | (_, x) :: xs => max (depth x) (depthFields xs)

end

end Json

end JobQueue
