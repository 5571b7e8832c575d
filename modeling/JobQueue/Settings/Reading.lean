/-
Settings from layers.

Values of layers are converted kindly: texts become numbers and switches, switches become
numbers, numbers become texts, and floating-point numbers are rounded. A message names the field
and the layer of a value that cannot be converted.
-/

import JobQueue.Settings.Layer
import JobQueue.Decimal.Word

namespace JobQueue

/-- Why a value of a layer cannot be used. -/
inductive LayerError where
  /-- A value of another kind than the setting. -/
  | kind (found expected : String) (path : Option String) (origin : Option String)
  /-- Something else than a group of settings. -/
  | group (found expected : String)
deriving DecidableEq, Repr

namespace LayerError

/-- A part of a message that may be missing. -/
def part (before : String) (value : Option String) (after : String) : String :=
  match value with
  | some s => before ++ s ++ after
  | none => ""

/-- The wording of a layer error. -/
def message : LayerError → String
  | .kind found expected path origin =>
      s!"invalid type: {found}, expected {expected}" ++ part " for key `" path "`" ++
        part " in " origin ""
  | .group found expected => s!"invalid type: {found}, expected {expected}"

/-- A path behind one more name. -/
def joined (name : String) : Option String → String
  | none => name
  | some rest => if rest.startsWith "[" then name ++ rest else name ++ "." ++ rest

/-- An error seen from one level further out. -/
def behind (name : String) : LayerError → LayerError
  | .kind found expected path origin => .kind found expected (some (joined name path)) origin
  | e => e

end LayerError

namespace Leaf

/-- A leaf as messages about settings name it. -/
def describe : Leaf → String
  | .text s => s!"string {Text.quoted s}"
  | .int n => s!"64-bit integer `{Decimal.intText n}`"
  | .float x => s!"floating point `{x.text}`"
  | .switch b => if b then "boolean `true`" else "boolean `false`"
  | .missing => "unit value"

/-- A floating-point number with a point in it. -/
def withPoint (x : Floating) : String :=
  let s := x.text
  if s.contains '.' || !s.any Char.isDigit then s else s ++ ".0"

/-- A leaf as messages about groups name it. -/
def describeForGroup : Leaf → String
  | .int n => s!"integer `{Decimal.intText n}`"
  | .float x => s!"floating point `{withPoint x}`"
  | leaf => leaf.describe

/-- The words for a switch, besides `1` and `0`. -/
def switchWord? (s : String) : Option Bool :=
  if s = "true" || s = "on" || s = "yes" then some true
  else if s = "false" || s = "off" || s = "no" then some false
  else none

/-- The switch that a leaf stands for. A text that stands for none is given in small letters. -/
def switch? : Leaf → Except String Bool
  | .switch b => .ok b
  | .int n => .ok (n != 0)
  | .float x => .ok x.isNonzero
  | .text s =>
      let s := Text.lower s
      if s = "1" then .ok true
      else if s = "0" then .ok false
      else
        match switchWord? s with
        | some b => .ok b
        | none => .error (Leaf.text s).describe
  | .missing => .error Leaf.missing.describe

/-- Numbers of 64 bits stay below this. -/
def wordBound : Nat := Word.count 64

/-- The number of 64 bits that a leaf stands for, or what it is and what was expected. -/
def word? : Leaf → Except (String × String) Nat
  | .switch b => .ok (if b then 1 else 0)
  | .int n =>
      if 0 ≤ n then .ok n.toNat
      else .error ((Leaf.int n).describe, "an unsigned 64 bit or less integer")
  | .float x => .ok (x.toNatBelow wordBound)
  | .text s =>
      match switchWord? (Text.lower s) with
      | some b => .ok (if b then 1 else 0)
      | none =>
          match Decimal.unsigned? s.toList with
          | some n =>
              if n < wordBound then .ok n else .error ((Leaf.text s).describe, "an integer")
          | none => .error ((Leaf.text s).describe, "an integer")
  | .missing => .error (Leaf.missing.describe, "an integer")

/-- The text that a leaf stands for. -/
def text? : Leaf → Option String
  | .text s => some s
  | .int n => some (Decimal.intText n)
  | .float x => some x.text
  | .switch b => some (if b then "true" else "false")
  | .missing => none

end Leaf

namespace Tree

/-- Something that is no leaf, as messages name it. -/
def describe : Tree → String
  | .leaf _ v => v.describe
  | .list .. => "sequence"
  | .table _ => "map"

/-- The layer that a tree comes from. -/
def origin : Tree → Option String
  | .leaf o _ => o
  | .list o _ => o
  | .table _ => none

/-- A text. -/
def asText (t : Tree) : Except LayerError String :=
  match t with
  | .leaf o v =>
      match v.text? with
      | some s => .ok s
      | none => .error (.kind v.describe "a string" none o)
  | t => .error (.kind t.describe "a string" none t.origin)

/-- A switch. -/
def asSwitch (t : Tree) : Except LayerError Bool :=
  match t with
  | .leaf o v => v.switch?.mapError fun found => .kind found "a boolean" none o
  | t => .error (.kind t.describe "a boolean" none t.origin)

/-- A number of 64 bits. -/
def asWord (t : Tree) : Except LayerError Nat :=
  match t with
  | .leaf o v => v.word?.mapError fun (found, expected) => .kind found expected none o
  | t => .error (.kind t.describe "an integer" none t.origin)

/-- A number of a range. -/
def asNumber (range : NumberRange) (t : Tree) : Except LayerError Nat := do
  let n ← t.asWord
  if n < range.bound then .ok n
  else
    .error (.kind s!"64-bit unsigned integer `{Decimal.natText n}`" "an unsigned 32 bit integer"
      none none)

/-- Trees as leaves of settings. -/
def leaves : LeafReader Tree LayerError := ⟨asText, asSwitch, asNumber⟩

/-- A group with the fields of a table set; fields that it does not have are passed over. -/
def setFields {α : Type} (settings : List (Setting α Tree LayerError)) :
    α → List (String × Tree) → Except LayerError α
  | start, [] => .ok start
  | start, (k, t) :: rest =>
      match settings.find? fun s => s.name == k with
      | some s => do
          let next ← (s.set start t).mapError (.behind k)
          setFields settings next rest
      | none => setFields settings start rest

/-- A group with its settings set from items, in the order of the settings. -/
def setItems {α : Type} (index : Nat) :
    α → List (Setting α Tree LayerError) → List Tree → Except LayerError α
  | start, s :: settings, t :: items => do
      let next ← (s.set start t).mapError (.behind s!"[{Decimal.natText index}]")
      setItems (index + 1) next settings items
  | start, _, _ => .ok start

/-- Groups from tables or lists. -/
def group : GroupReader Tree LayerError := fun name settings start t =>
  match t with
  | .table fields => setFields settings start fields
  | .list _ items => setItems 0 start settings items
  | .leaf _ v => .error (.group v.describeForGroup s!"struct {name}")

/-- The settings that a tree holds. -/
def asSettings (t : Tree) : Except LayerError Settings :=
  group Settings.groupName (Settings.settings leaves group) .default t

end Tree

end JobQueue
