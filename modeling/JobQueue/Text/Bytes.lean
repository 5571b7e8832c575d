/-
Bytes: what a file holds, whether or not they encode a text.
-/

namespace JobQueue

/-- A row of bytes. -/
structure Bytes where
  values : List UInt8
deriving DecidableEq, Repr

namespace Bytes

/-- The bytes that encode a text. -/
def ofText (s : String) : Bytes := ⟨s.toList.flatMap String.utf8EncodeChar⟩

/-- The text that the bytes encode, if there is one. -/
def text? (b : Bytes) : Option String := String.fromUTF8? b.values.toByteArray

/-- The number of bytes. -/
def utf8ByteSize (b : Bytes) : Nat := b.values.length

/-- How two rows of bytes compare, byte by byte. -/
def compare (a b : Bytes) : Ordering := compareOfLessAndEq a.values b.values

instance : Coe String Bytes := ⟨ofText⟩

/-- Where a text is asked for, bytes that encode none stand for the empty one. -/
instance : CoeOut Bytes String := ⟨fun b => b.text?.getD ""⟩

theorem text?_ofText (s : String) : (ofText s).text? = some s := by
  have encoded : (ofText s).values.toByteArray = s.toByteArray := String.utf8Encode_toList
  rw [text?, encoded, String.fromUTF8?, dif_pos s.isValidUTF8]
  rfl

end Bytes

end JobQueue
