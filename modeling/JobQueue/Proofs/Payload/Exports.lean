/-
Payloads that ask for an export.

A value asks for an export if it is a payload of data processing whose data names the operation
(`Payload.AsksForExport`). Its text then reads as an export wherever it reads as a typed payload at
all (`Payload.IsExport`, `AsksForExport.isExport`), whatever becomes of the numbers in it: the
fields that decide are texts, and each decides under its own key alone (`Json.setFields_own`).
-/

import JobQueue.Proofs.Payload.RoundTrip

namespace JobQueue

/-! ### Fields of an object -/

namespace Json

variable {α : Type} {fields fields' : Fields} {key : String} {v : Json} {depth : Nat}

/-- What is read back under a key is what stands there, read back. -/
theorem get?_rereadFields? (read : rereadFields? fields depth = some fields')
    (here : Fields.get? fields key = some v) :
    ∃ v', v.reread? depth = some v' ∧ Fields.get? fields' key = some v' := by
  induction fields generalizing fields' with
  | nil => cases here
  | cons f rest ih =>
      obtain ⟨k, x⟩ := f
      obtain ⟨y, first, others⟩ := Option.bind_eq_some_iff.mp read
      obtain ⟨rest', later, rfl⟩ := Option.map_eq_some_iff.mp others
      rw [Fields.get?_cons] at here ⊢
      by_cases own : key = k
      · rw [if_pos own] at here ⊢
        cases here
        exact ⟨y, first, rfl⟩
      · rw [if_neg own] at here ⊢
        exact ih later here

/-- An alternative without content is read back as it was, if at all. -/
theorem reread?_of_asVariant {known : List (String × α)} {a : α} {v' : Json}
    (read : asVariant known v = .ok a) (again : v.reread? depth = some v') : v' = v := by
  obtain ⟨name, _, rfl | rfl⟩ := of_asVariant read
  · cases again
    rfl
  · cases depth <;> cases again
    rfl

end Json

/-! ### Exports -/

namespace DataProcessing

variable {fields : Fields} {d : DataProcessing} {op : Json}

/-- The operation is read from the field of that name. -/
theorem operation_of_ofJson (nodup : (fields.map Prod.fst).Nodup)
    (here : Fields.get? fields "operation" = some op) (decoded : ofJson (.obj fields) = .ok d) :
    operationOfJson op = .ok d.operation := by
  obtain ⟨before, after, own, same⟩ := Json.setFields_own operation (by
    exact .own rfl (.put (fun _ _ => rfl) (.put (fun _ _ => rfl) (.put (fun _ _ => rfl)
      (.put (fun _ _ => rfl) .nil))))) rfl nodup here (Json.of_asRecord decoded).1
  obtain ⟨o, read, rfl⟩ := Json.of_map_eq_ok own
  rw [read, same]

end DataProcessing

namespace TypedPayload

variable {D O : Type} {data : Codec D} {options : Codec O} {noOptions : O} {fields : Fields}
  {p : TypedPayload D O} {v : Json}

/-- The type is read from the field of that name. -/
theorem jobType_of_ofJson (nodup : (fields.map Prod.fst).Nodup)
    (here : Fields.get? fields "type" = some v)
    (decoded : ofJson data options noOptions (.obj fields) = .ok p) :
    Json.asString v = .ok p.jobType := by
  have setBy : Json.SetBy (decoders data options) Partial.jobType "type" :=
    .own rfl (.put (fun _ _ => rfl) (.put (fun _ _ => rfl) .nil))
  obtain ⟨before, after, own, same⟩ :=
    Json.setFields_own _ setBy rfl nodup here (Json.of_asRecord (ofJson_eq_ok.mp decoded)).1
  obtain ⟨t, read, rfl⟩ := Json.of_map_eq_ok own
  rw [read, Option.some.inj same]

/-- The data are read from the field of that name. -/
theorem data_of_ofJson (nodup : (fields.map Prod.fst).Nodup)
    (here : Fields.get? fields "data" = some v)
    (decoded : ofJson data options noOptions (.obj fields) = .ok p) :
    data.decode v = .ok p.data := by
  have setBy : Json.SetBy (decoders data options) Partial.data "data" :=
    .put (fun _ _ => rfl) (.own rfl (.put (fun _ _ => rfl) .nil))
  obtain ⟨before, after, own, same⟩ :=
    Json.setFields_own _ setBy rfl nodup here (Json.of_asRecord (ofJson_eq_ok.mp decoded)).1
  obtain ⟨d, read, rfl⟩ := Json.of_map_eq_ok own
  rw [read, Option.some.inj same]

end TypedPayload

namespace Payload

variable {v : Json} {text : String} {fields : Fields}

/-- Whether a value is a payload of data processing that names the export as its operation. -/
def AsksForExport (v : Json) : Prop :=
  ∃ fields data op, v = .obj fields ∧
    Fields.get? fields "type" = some (.str dataProcessingJobType) ∧
    Fields.get? fields "data" = some (.obj data) ∧ Fields.get? data "operation" = some op ∧
    DataProcessing.operationOfJson op = .ok .exportRows

/-- Whether a payload text is read as an export, if it is read at all. -/
structure IsExport (text : String) : Prop where
  jobType : ∀ fields jobType, parse text = .ok fields → validate fields = .ok jobType →
    jobType = dataProcessingJobType
  operation : ∀ fields p, parse text = .ok fields →
    TypedPayload.ofJson DataProcessing.codec Codec.fields [] (.obj fields) = .ok p →
      p.data.operation = .exportRows

theorem parse_eq_ok : parse text = .ok fields ↔ Json.read text = some (.obj fields) := by
  rw [parse]
  cases Json.read text with
  | none => exact iff_of_false nofun nofun
  | some v => cases v <;> simp [fieldsOf]

/-- The type that a payload is accepted with is a text under that key, and not empty. -/
theorem of_validate {jobType : String} (valid : validate fields = .ok jobType) :
    Fields.get? fields "type" = some (.str jobType) ∧ jobType ≠ "" := by
  rw [validate] at valid
  split at valid
  · cases valid
  next t here =>
    split at valid
    · cases valid
    next nonempty =>
      obtain ⟨_, named, rest⟩ := Json.of_bind_eq_ok valid
      obtain ⟨_, _, rest⟩ := Json.of_bind_eq_ok rest
      obtain ⟨_, _, same⟩ := Json.of_bind_eq_ok rest
      cases named
      cases same
      exact ⟨here, by simpa using nonempty⟩
  · cases valid

/-- What asks for an export is read as one from its text. -/
theorem AsksForExport.isExport (asks : AsksForExport v) (regular : v.Every Json.IsRegular) :
    IsExport v.compact := by
  obtain ⟨fields, data, op, rfl, type, given, named, isExport⟩ := asks
  have reads : ∀ {fields'}, parse (Json.obj fields).compact = .ok fields' →
      ∃ depth, Json.rereadFields? fields depth = some fields' := by
    intro fields' parsed
    have whole := parse_eq_ok.mp parsed
    rw [Json.read_compact regular] at whole
    obtain ⟨_, read, same⟩ := Option.map_eq_some_iff.mp whole
    cases same
    exact ⟨_, read⟩
  constructor
  case jobType =>
    intro fields' jobType parsed valid
    obtain ⟨depth, read⟩ := reads parsed
    obtain ⟨_, again, there⟩ := Json.get?_rereadFields? read type
    cases again
    exact Json.str.inj (Option.some.inj ((of_validate valid).1.symm.trans there))
  case operation =>
    intro fields' p parsed decoded
    obtain ⟨depth, read⟩ := reads parsed
    obtain ⟨_, again, there⟩ := Json.get?_rereadFields? read given
    cases depth with
    | zero => cases again
    | succ depth =>
        obtain ⟨data', read', rfl⟩ := Option.map_eq_some_iff.mp again
        obtain ⟨op', again', there'⟩ := Json.get?_rereadFields? read' named
        obtain rfl := Json.reread?_of_asVariant isExport again'
        have nodup : (fields'.map Prod.fst).Nodup := by
          rw [Json.keys_rereadFields? read]
          exact regular.self.nodup
        have nodup' : (data'.map Prod.fst).Nodup := by
          have inside := Json.everyField_iff.mp regular.2 _ (Fields.mem_of_get? given)
          rw [Json.keys_rereadFields? read']
          exact Fields.Ordered.nodup inside.self
        have decoded' := TypedPayload.data_of_ofJson nodup there decoded
        have read := DataProcessing.operation_of_ofJson nodup' there' decoded'
        rw [isExport] at read
        exact (Except.ok.inj read).symm

end Payload

end JobQueue
