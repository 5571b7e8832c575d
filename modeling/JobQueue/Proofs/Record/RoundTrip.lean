/-
Records in structured values.

A record is read back from the object of its nine fields, and from the list of the nine in the order
in which they are declared (`JobRecord.read_back`): with all texts, all numbers of attempts, and all
times of the calendar. Both are read back from their texts as well.
-/

import JobQueue.Proofs.Json.RoundTrip
import JobQueue.Proofs.Record.Attempts
import JobQueue.Proofs.Time.Loose
import JobQueue.Record.Codec

namespace JobQueue

theorem Instant.ofJson_toJson {t : Instant} (valid : t.Valid) (proper : t.Proper) :
    Instant.ofJson t.toJson = .ok t := by
  rw [Instant.toJson, Instant.ofJson, Time.readLoose_jsonText valid proper]

theorem Json.asNatBelow_int {bound n : Nat} {name : String} (fits : n < bound) :
    Json.asNatBelow bound name (.int n) = .ok n := by
  rw [Json.asNatBelow, if_pos ⟨Int.natCast_nonneg n, Int.ofNat_lt.mpr fits⟩, Int.toNat_natCast]

namespace JobRecord

variable {r : JobRecord}

/-- The record as a list: the values of its fields, in the order in which they are declared. -/
def toItems (r : JobRecord) : Json :=
  .arr (decoders.filterMap fun d => r.toJson.get? d.name)

theorem toItems_eq : r.toItems = .arr [.str r.id, .str r.collection, .str r.name,
    .str r.description, .str r.payload, .int r.attempts.toNat, .str r.reservedAt, r.created.toJson,
    r.updated.toJson] := rfl

/-- A record that can be: its times are times of the calendar. -/
structure Valid (r : JobRecord) : Prop where
  created : r.created.Valid ∧ r.created.Proper
  updated : r.updated.Valid ∧ r.updated.Proper

/-- What is not a text in a record is read back. -/
theorem Valid.decoded (valid : r.Valid) :
    Json.asNatBelow attemptBound "u32" (.int r.attempts.toNat) = .ok r.attempts.toNat ∧
      Instant.ofJson r.created.toJson = .ok r.created ∧
      Instant.ofJson r.updated.toJson = .ok r.updated :=
  ⟨Json.asNatBelow_int r.attempts_lt,
    Instant.ofJson_toJson valid.created.1 valid.created.2,
    Instant.ofJson_toJson valid.updated.1 valid.updated.2⟩

theorem ofJson_toJson (valid : r.Valid) : ofJson r.toJson = .ok r := by
  obtain ⟨attempts, created, updated⟩ := valid.decoded
  rw [ofJson, toJson, Json.asRecord]
  simp only [Json.setFields, decoders, List.find?, String.reduceBEq]
  simp only [attempts, created, updated, Json.asString]
  simp only [bind, Except.bind, Except.map, Fields.get?_cons, UInt32.ofNat_toNat]
  simp

theorem ofJson_toItems (valid : r.Valid) : ofJson r.toItems = .ok r := by
  obtain ⟨attempts, created, updated⟩ := valid.decoded
  rw [ofJson, toItems_eq, Json.asRecord]
  simp only [Json.setItems, decoders]
  simp only [attempts, created, updated, Json.asString]
  simp only [bind, Except.bind, Except.map, UInt32.ofNat_toNat]

/-! ### Texts of records -/

theorem plain_attempts : Json.IsPlain (.int r.attempts.toNat) := by
  have bound : attemptBound ≤ Word.count 64 := by decide
  have few : (r.attempts.toNat : Int) < Word.count 64 :=
    Int.ofNat_lt.mpr (Nat.lt_of_lt_of_le r.attempts_lt bound)
  have least : -(Word.count 63 : Int) ≤ 0 := by decide
  exact ⟨⟨Int.le_trans least (Int.natCast_nonneg _), few⟩, nofun⟩

theorem plain_str (s : String) : Json.IsPlain (.str s) := ⟨trivial, nofun⟩

theorem plain_obj {fields : Fields} (ordered : Fields.Ordered fields) :
    Json.IsPlain (.obj fields) := ⟨ordered, nofun⟩

theorem plain_toJson : r.toJson.Every Json.IsPlain := by
  have ordered : Fields.Ordered [
      ("attempts", .int r.attempts.toNat), ("collection", .str r.collection),
      ("created", r.created.toJson), ("description", .str r.description), ("id", .str r.id),
      ("name", .str r.name), ("payload", .str r.payload), ("reserved_at", .str r.reservedAt),
      ("updated", r.updated.toJson)] := by
    simp only [Fields.Ordered]
    decide
  exact ⟨plain_obj ordered, plain_attempts, plain_str _, plain_str _, plain_str _,
    plain_str _, plain_str _, plain_str _, plain_str _, plain_str _, trivial⟩

theorem plain_toItems : r.toItems.Every Json.IsPlain :=
  ⟨⟨trivial, nofun⟩, plain_str _, plain_str _, plain_str _, plain_str _, plain_str _,
    plain_attempts, plain_str _, plain_str _, plain_str _, trivial⟩

/-- A record is read back from its object and from the list of its fields, and each of the two from
its text. -/
theorem read_back (valid : r.Valid) :
    (ofJson r.toJson = .ok r ∧ Json.read r.toJson.compact = some r.toJson) ∧
      ofJson r.toItems = .ok r ∧ Json.read r.toItems.compact = some r.toItems := by
  have object : r.toJson.depth = 1 := rfl
  have list : r.toItems.depth = 1 := rfl
  have shallow : 1 ≤ Json.depthLimit := by decide
  exact ⟨⟨ofJson_toJson valid,
      Json.read_compact_of_plain plain_toJson (object.trans_le shallow)⟩,
    ofJson_toItems valid,
    Json.read_compact_of_plain plain_toItems (list.trans_le shallow)⟩

/-- A record of the extremes: the first and the last instant of the calendar, the greatest number of
attempts, texts in need of escapes. -/
def extremeRecord : JobRecord where
  id := "\"\\\n"
  collection := queueCollection
  name := ""
  description := "\x00é"
  payload := "\x7b\"type\":\"A\"\x7d"
  attempts := 4294967295
  reservedAt := "yesterday-ish"
  created := Instant.earliest
  updated := Instant.latest

theorem read_back_extreme : extremeRecord.Valid ∧
    (ofJson extremeRecord.toJson = .ok extremeRecord ∧
      Json.read extremeRecord.toJson.compact = some extremeRecord.toJson) ∧
    ofJson extremeRecord.toItems = .ok extremeRecord ∧
      Json.read extremeRecord.toItems.compact = some extremeRecord.toItems := by
  have valid : extremeRecord.Valid := by
    constructor <;> decide
  exact ⟨valid, read_back valid⟩

end JobRecord

end JobQueue
