/-
Decoding structured values into typed ones.

A decoder either gives a value or says what it found and what it expected. A record is decoded
from an object, field by field in the order of the object's keys, fields it does not know being
passed over, or from a list of its fields in the order they are declared.
-/

import JobQueue.Json.Printer
import JobQueue.Text.Quoted

namespace JobQueue

/-- Why a value could not be decoded. -/
inductive DecodeError where
  | invalidType (found expected : String)
  | invalidValue (found expected : String)
  | invalidLength (length : Nat) (expected : String)
  | unknownVariant (name : String) (known : List String)
  | missingField (name : String)
  | custom (text : String)
deriving DecidableEq, Repr

/-- The wording of a decoding error. -/
def DecodeError.message : DecodeError → String
  | .invalidType found expected => s!"invalid type: {found}, expected {expected}"
  | .invalidValue found expected => s!"invalid value: {found}, expected {expected}"
  | .invalidLength length expected =>
      s!"invalid length {Decimal.natText length}, expected {expected}"
  | .unknownVariant name known =>
      let names := Text.joinNames (known.map fun k => "`" ++ k ++ "`")
      s!"unknown variant `{name}`, expected one of {names}"
  | .missingField name => s!"missing field `{name}`"
  | .custom text => text

namespace Json

/-- Floating-point numbers in messages are written without an exponent. -/
def plainLayout : Double.Layout := ⟨-10000, 10000, "", true⟩

/-- A value as a message names it. -/
def describe : Json → String
  | .null => "null"
  | .bool b => if b then "boolean `true`" else "boolean `false`"
  | .int n => s!"integer `{Decimal.intText n}`"
  | .double x => s!"floating point `{x.write plainLayout}`"
  | .str s => s!"string {Text.quoted s}"
  | .arr _ => "sequence"
  | .obj _ => "map"

/-- A decoder of values. -/
abbrev Decoder (α : Type) := Json → Except DecodeError α

/-- Refuses a value, naming what was expected. -/
def mismatch {α : Type} (v : Json) (expected : String) : Except DecodeError α :=
  .error (.invalidType v.describe expected)

/-- A text. -/
def asString : Decoder String
  | .str s => .ok s
  | v => mismatch v "a string"

/-- A boolean. -/
def asBool : Decoder Bool
  | .bool b => .ok b
  | v => mismatch v "a boolean"

/-- A natural number below a bound; `name` says what was expected. -/
def asNatBelow (bound : Nat) (name : String) : Decoder Nat
  | .int n =>
      if 0 ≤ n ∧ n < bound then .ok n.toNat
      else .error (.invalidValue (Json.int n).describe name)
  | v => mismatch v name

/-- An object. -/
def asFields : Decoder JobQueue.Fields
  | .obj fields => .ok fields
  | v => mismatch v "a map"

/-- How one field of a record is decoded into the record made so far. -/
structure FieldDecoder (α : Type) where
  name : String
  required : Bool
  set : α → Decoder α

/-- The record with the fields of an object set, in the order of the object's keys. -/
def setFields {α : Type} (decoders : List (FieldDecoder α)) (start : α) :
    List (String × Json) → Except DecodeError α
  | [] => .ok start
  | (k, v) :: rest => do
      match decoders.find? fun d => d.name == k with
      | some d =>
          let next ← d.set start v
          setFields decoders next rest
      | none => setFields decoders start rest

/-- The record with its fields set from a list, in the order they are declared. `total` is the
length of the whole list and `seen` the number of items taken from it. -/
def setItems {α : Type} (expected : String) (total seen : Nat) (start : α) :
    List (FieldDecoder α) → List Json → Except DecodeError α
  | [], [] => .ok start
  | [], _ :: _ => .error (.invalidLength total "fewer elements in array")
  | d :: ds, [] =>
      if d.required then .error (.invalidLength seen expected)
      else setItems expected total seen start ds []
  | d :: ds, v :: vs => do
      let next ← d.set start v
      setItems expected total (seen + 1) next ds vs

/-- Decodes a record. `start` holds the values of the fields that may be missing. -/
def asRecord {α : Type} (name : String) (decoders : List (FieldDecoder α)) (start : α) :
    Decoder α
  | .obj fields => do
      let record ← setFields decoders start fields
      match decoders.find? fun d => d.required && (Fields.get? fields d.name).isNone with
      | some d => .error (.missingField d.name)
      | none => .ok record
  | .arr items =>
      let count := if decoders.length = 1 then "1 element"
        else s!"{Decimal.natText decoders.length} elements"
      setItems s!"struct {name} with {count}" items.length 0 start decoders items
  | v => mismatch v s!"struct {name}"

/-- Finds a name among those of the alternatives. -/
def nameAmong {α : Type} (known : List (String × α)) (name : String) : Except DecodeError α :=
  match known.lookup name with
  | some a => .ok a
  | none => .error (.unknownVariant name (known.map Prod.fst))

/-- One of several alternatives without content: its name, or an object with the name as its one
key and null as its value. -/
def asVariant {α : Type} (known : List (String × α)) : Decoder α
  | .str name => nameAmong known name
  | .obj [(name, v)] => do
      let a ← nameAmong known name
      match v with
      | .null => .ok a
      | v => mismatch v "unit"
  | .obj _ => .error (.invalidValue "map" "map with a single key")
  | v => mismatch v "string or map"

end Json

end JobQueue
