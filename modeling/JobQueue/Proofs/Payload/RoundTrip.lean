/-
Typed payloads and their encoding.

A typed payload is decoded from the object that it is written as (`Codec.Survives.kept`). What any
payload is decoded to is written with what the payload gives for the known fields and nothing else:
unknown fields are dropped, and defaults are filled in where a field is missing
(`Codec.Survives.settled`). Values keep their spelling, but for an operation, which is always written
by its name (`DataOperation.spelt`). Both kinds of payload survive so (`payloads_survive`).
-/

import JobQueue.Payload.DataProcessing
import JobQueue.Payload.Email
import JobQueue.Proofs.Json.Records

namespace JobQueue

open Json (FieldShape WrittenField SetBy)

/-! ### Codecs -/

namespace Codec

variable {α : Type}

/-- Whether what a codec writes is read as what it was. -/
def Returns (c : Codec α) : Prop := ∀ a, c.decode (c.encode a) = .ok a

/-- Whether what a codec reads is written again as a spelling has it. -/
def SpeltBy (c : Codec α) (spell : Json → Json) : Prop :=
  ∀ v a, v.Every Json.IsRegular → c.decode v = .ok a → c.encode a = spell v

theorem returns_fields : fields.Returns := fun _ => rfl

theorem speltBy_fields : fields.SpeltBy id := by
  intro v own _ read
  cases v with
  | obj =>
      cases read
      rfl
  | null | bool | int | double | str | arr => cases read

end Codec

theorem Json.str_of_asString {u : Json} {s : String} (read : Json.asString u = .ok s) :
    Json.str s = u := by
  cases u with
  | str =>
      cases read
      rfl
  | null | bool | int | double | arr | obj => cases read

/-! ### E-mails -/

namespace EmailData

/-- The fields of an e-mail. -/
def writtenFields : List (WrittenField EmailData) := [
  ⟨⟨"to", none, id⟩, fun e => .str e.recipient⟩,
  ⟨⟨"subject", none, id⟩, fun e => .str e.subject⟩,
  ⟨⟨"template", none, id⟩, fun e => .str e.template⟩,
  ⟨⟨"variables", some (.obj []), id⟩, fun e => .obj e.values⟩]

/-- The shape of an e-mail: all is spelt as it is given, and missing variables are none. -/
def shape : List FieldShape := writtenFields.map (·.toFieldShape)

theorem returns : codec.Returns := fun _ => rfl

theorem speltBy : codec.SpeltBy (Json.settled shape) := by
  intro v e regular decoded
  refine (Json.settled_of_asRecord writtenFields rfl ?names ?fits regular decoded).symm
  case names => decide
  case fits =>
    refine List.forall_mem_cons.mpr ⟨?recipient, List.forall_mem_cons.mpr ⟨?subject,
      List.forall_mem_cons.mpr ⟨?template, List.forall_mem_cons.mpr ⟨?values, nofun⟩⟩⟩⟩
    case recipient =>
      exact .of_put rfl (fun _ _ _ read _ => Json.str_of_asString read) rfl
        (.own rfl (.put (fun _ _ => rfl) (.put (fun _ _ => rfl) (.put (fun _ _ => rfl) .nil))))
    case subject =>
      exact .of_put rfl (fun _ _ _ read _ => Json.str_of_asString read) rfl
        (.put (fun _ _ => rfl) (.own rfl (.put (fun _ _ => rfl) (.put (fun _ _ => rfl) .nil))))
    case template =>
      exact .of_put rfl (fun _ _ _ read _ => Json.str_of_asString read) rfl
        (.put (fun _ _ => rfl) (.put (fun _ _ => rfl) (.own rfl (.put (fun _ _ => rfl) .nil))))
    case values =>
      exact .of_put rfl (fun u f regular read _ => Codec.speltBy_fields u f regular read) rfl
        (.put (fun _ _ => rfl) (.put (fun _ _ => rfl) (.put (fun _ _ => rfl) (.own rfl .nil))))

end EmailData

/-! ### Data processing -/

/-- An operation as it is written: by its name, also where it was given as an object. -/
def DataOperation.spelt : Json → Json
  | .obj [(name, .null)] => .str name
  | v => v

namespace DataProcessing

/-- The name that an operation is found under is its own. -/
theorem name_of_lookup {name : String} {o : DataOperation}
    (known : (DataOperation.all.map fun o => (o.name, o)).lookup name = some o) :
    o.name = name := by
  obtain ⟨earlier, later, split, _⟩ := List.lookup_eq_some_iff.mp known
  have listed : (name, o) ∈ DataOperation.all.map fun o => (o.name, o) :=
    split ▸ List.mem_append_right _ List.mem_cons_self
  obtain ⟨o', _, same⟩ := List.mem_map.mp listed
  cases same
  rfl

theorem spelt_of_operationOfJson {v : Json} {o : DataOperation}
    (read : operationOfJson v = .ok o) : Json.str o.name = DataOperation.spelt v := by
  obtain ⟨name, known, rfl | rfl⟩ := Json.of_asVariant read
  all_goals
    rw [name_of_lookup known]
    rfl

/-- The fields of a piece of data processing. -/
def writtenFields : List (WrittenField DataProcessing) := [
  ⟨⟨"operation", none, DataOperation.spelt⟩, fun d => .str d.operation.name⟩,
  ⟨⟨"source", none, id⟩, fun d => .str d.source⟩,
  ⟨⟨"target", some (.str ""), id⟩, fun d => .str d.target⟩,
  ⟨⟨"filters", some (.obj []), id⟩, fun d => .obj d.filters⟩,
  ⟨⟨"options", some (.obj []), id⟩, fun d => .obj d.options⟩]

/-- The shape of a piece of data processing: the operation by its name, all else as it is given, and
an empty target, no filters and no options where they are missing. -/
def shape : List FieldShape := writtenFields.map (·.toFieldShape)

theorem returns : codec.Returns := by
  rintro ⟨operation, source, target, filters, options⟩
  cases operation <;> rfl

theorem speltBy : codec.SpeltBy (Json.settled shape) := by
  intro v d regular decoded
  refine (Json.settled_of_asRecord writtenFields rfl ?names ?fits regular decoded).symm
  case names => decide
  case fits =>
    refine List.forall_mem_cons.mpr ⟨?operation, List.forall_mem_cons.mpr ⟨?source,
      List.forall_mem_cons.mpr ⟨?target, List.forall_mem_cons.mpr ⟨?filters,
        List.forall_mem_cons.mpr ⟨?options, nofun⟩⟩⟩⟩⟩
    case operation =>
      exact .of_put rfl (fun _ _ _ read _ => spelt_of_operationOfJson read) rfl
        (.own rfl (.put (fun _ _ => rfl) (.put (fun _ _ => rfl) (.put (fun _ _ => rfl)
          (.put (fun _ _ => rfl) .nil)))))
    case source =>
      exact .of_put rfl (fun _ _ _ read _ => Json.str_of_asString read) rfl
        (.put (fun _ _ => rfl) (.own rfl (.put (fun _ _ => rfl) (.put (fun _ _ => rfl)
          (.put (fun _ _ => rfl) .nil)))))
    case target =>
      exact .of_put rfl (fun _ _ _ read _ => Json.str_of_asString read) rfl
        (.put (fun _ _ => rfl) (.put (fun _ _ => rfl) (.own rfl (.put (fun _ _ => rfl)
          (.put (fun _ _ => rfl) .nil)))))
    case filters =>
      exact .of_put rfl (fun u f regular read _ => Codec.speltBy_fields u f regular read) rfl
        (.put (fun _ _ => rfl) (.put (fun _ _ => rfl) (.put (fun _ _ => rfl) (.own rfl
          (.put (fun _ _ => rfl) .nil)))))
    case options =>
      exact .of_put rfl (fun u f regular read _ => Codec.speltBy_fields u f regular read) rfl
        (.put (fun _ _ => rfl) (.put (fun _ _ => rfl) (.put (fun _ _ => rfl)
          (.put (fun _ _ => rfl) (.own rfl .nil)))))

end DataProcessing

/-! ### Payloads -/

namespace TypedPayload

variable {D O : Type} {data : Codec D} {options : Codec O} {noOptions : O} {fields : Fields}
  {p : TypedPayload D O} {v : Json}

/-- What has been decoded of a payload when all of it has been. -/
def whole (p : TypedPayload D O) : Partial D O := ⟨some p.jobType, some p.data, p.options⟩

theorem ofJson_eq_ok : ofJson data options noOptions v = .ok p ↔
    Json.asRecord "JobPayload" (decoders data options) ⟨none, none, noOptions⟩ v =
      .ok p.whole := by
  rw [ofJson]
  cases Json.asRecord "JobPayload" (decoders data options) ⟨none, none, noOptions⟩ v with
  | error e => exact iff_of_false nofun nofun
  | ok decoded =>
      obtain ⟨jobType, content, chosen⟩ := decoded
      obtain ⟨jobType', content', chosen'⟩ := p
      cases jobType <;> cases content <;>
        simp [whole, bind, Except.bind]

/-- What is written is read as the payload that it was. -/
theorem ofJson_toJson (returns : data.Returns) (returns' : options.Returns) :
    ofJson data options noOptions (p.toJson data options) = .ok p := by
  refine ofJson_eq_ok.mpr ?_
  simp only [toJson, Json.asRecord, Json.setFields, decoders, List.find?, String.reduceBEq]
  simp only [returns p.data, returns' p.options, Json.asString]
  rfl

/-- The fields of a payload whose data are spelt in a way. -/
def writtenFields (data : Codec D) (spell : Json → Json) :
    List (WrittenField (Partial D Fields)) := [
  ⟨⟨"type", none, id⟩, fun p => (p.jobType.map .str).getD .null⟩,
  ⟨⟨"data", none, spell⟩, fun p => (p.data.map data.encode).getD .null⟩,
  ⟨⟨"options", some (.obj []), id⟩, fun p => .obj p.options⟩]

/-- The shape of a payload whose data are spelt in a way: missing options are none. -/
def shape (spell : Json → Json) : List FieldShape := [
  ⟨"type", none, id⟩, ⟨"data", none, spell⟩, ⟨"options", some (.obj []), id⟩]

theorem toJson_of_ofJson {spell : Json → Json} {p : TypedPayload D Fields}
    (spelt : data.SpeltBy spell) (regular : v.Every Json.IsRegular)
    (decoded : ofJson data .fields [] v = .ok p) :
    p.toJson data .fields = v.settled (shape spell) := by
  have sorted : p.toJson data .fields = .ofFields
      [("type", .str p.jobType), ("data", data.encode p.data), ("options", .obj p.options)] := rfl
  refine sorted.trans (Json.settled_of_asRecord (writtenFields data spell) rfl ?names ?fits regular
    (ofJson_eq_ok.mp decoded)).symm
  case names => exact (by decide : ["type", "data", "options"].Nodup)
  case fits =>
    refine List.forall_mem_cons.mpr ⟨?jobType, List.forall_mem_cons.mpr ⟨?content,
      List.forall_mem_cons.mpr ⟨?chosen, nofun⟩⟩⟩
    case jobType =>
      exact .of_put rfl (fun _ _ _ read _ => Json.str_of_asString read) rfl
        (.own rfl (.put (fun _ _ => rfl) (.put (fun _ _ => rfl) .nil)))
    case content =>
      exact .of_put rfl (fun u d regular read _ => spelt u d regular read) rfl
        (.put (fun _ _ => rfl) (.own rfl (.put (fun _ _ => rfl) .nil)))
    case chosen =>
      exact .of_put rfl (fun u o regular read _ => Codec.speltBy_fields u o regular read) rfl
        (.put (fun _ _ => rfl) (.put (fun _ _ => rfl) (.own rfl .nil)))

end TypedPayload

theorem Job.decode_eq_ok {D O : Type} {data : Codec D} {options : Codec O} {noOptions : O}
    {j : Job} {p : TypedPayload D O} : j.decode data options noOptions = .ok p ↔
      TypedPayload.ofJson data options noOptions (.obj j.payload) = .ok p := by
  rw [decode]
  cases TypedPayload.ofJson data options noOptions (.obj j.payload) with
  | error e => exact iff_of_false nofun nofun
  | ok q => simp

/-! ### Payloads and what is read again -/

/-- Whether an object is decoded to a typed payload, whatever job carries it. -/
def Payload.ReadsAs {D : Type} (data : Codec D) (fields : Fields) (p : TypedPayload D Fields) :
    Prop :=
  ∀ job : Job, job.payload = fields → job.decode data .fields [] = .ok p

theorem Codec.Returns.readsAs {D : Type} {data : Codec D} {p : TypedPayload D Fields}
    {fields : Fields} (returns : data.Returns) (written : p.toJson data .fields = .obj fields) :
    Payload.ReadsAs data fields p := by
  rintro job rfl
  rw [Job.decode_eq_ok, ← written]
  exact TypedPayload.ofJson_toJson returns returns_fields

/-- Payloads with such data, with any object as options, are not changed by being written and read.
-/
structure Codec.Survives {D : Type} (data : Codec D) (spell : Json → Json) : Prop where
  /-- A payload with a type is written as an object in order, which is accepted with that type and
  decoded to the payload. -/
  kept (p : TypedPayload D Fields) : p.jobType ≠ "" →
    ∃ fields, p.toJson data .fields = .obj fields ∧ Fields.Ordered fields ∧
      Payload.validate fields = .ok p.jobType ∧ Payload.ReadsAs data fields p
  /-- What the payload of a job is decoded to is written as an object that is decoded to it again. -/
  again (job : Job) (p : TypedPayload D Fields) : job.decode data .fields [] = .ok p →
    ∃ fields, p.toJson data .fields = .obj fields ∧ Payload.ReadsAs data fields p
  /-- That object has what the payload of the job gives for the three fields, the data spelt so, no
  options where none are given, and no other fields. -/
  settled (job : Job) (p : TypedPayload D Fields) :
    (Json.obj job.payload).Every Json.IsRegular → job.decode data .fields [] = .ok p →
      p.toJson data .fields = (Json.obj job.payload).settled (TypedPayload.shape spell)

theorem Payload.validate_eq_ok {fields : Fields} {jobType : String}
    (type : Fields.get? fields "type" = some (.str jobType)) (nonempty : jobType ≠ "")
    (objects : ∀ name ∈ ["data", "options"], ∃ own, Fields.get? fields name = some (.obj own)) :
    validate fields = .ok jobType := by
  obtain ⟨data, data_eq⟩ := objects "data" (by simp)
  obtain ⟨options, options_eq⟩ := objects "options" (by simp)
  have named : jobType.isEmpty = false := by simpa using nonempty
  simp [validate, checkObject, isObject, type, named, data_eq, options_eq, bind, Except.bind]

theorem Codec.survives {D : Type} {data : Codec D} {spell : Json → Json} (returns : data.Returns)
    (objects : ∀ d, ∃ fields, data.encode d = .obj fields) (spelt : data.SpeltBy spell) :
    data.Survives spell where
  kept p typed := by
    refine ⟨_, rfl, ⟨by decide, by decide, trivial⟩, ?accepted, returns.readsAs rfl⟩
    obtain ⟨fields, object⟩ := objects p.data
    exact Payload.validate_eq_ok rfl typed (List.forall_mem_cons.mpr
      ⟨⟨fields, congrArg some object⟩, List.forall_mem_singleton.mpr ⟨p.options, rfl⟩⟩)
  again _ p _ := ⟨_, rfl, returns.readsAs rfl⟩
  settled job p regular decoded :=
    TypedPayload.toJson_of_ofJson spelt regular (Job.decode_eq_ok.mp decoded)

/-- Payloads of e-mails and of data processing are not changed by being written and read. -/
theorem payloads_survive : EmailData.codec.Survives (Json.settled EmailData.shape) ∧
    DataProcessing.codec.Survives (Json.settled DataProcessing.shape) :=
  ⟨Codec.survives EmailData.returns (fun _ => ⟨_, rfl⟩) EmailData.speltBy,
    Codec.survives DataProcessing.returns (fun _ => ⟨_, rfl⟩) DataProcessing.speltBy⟩

/-- A job for an export that is asked for by an object, not by its name. -/
def roundaboutExport : Job where
  id := "r1"
  name := "export"
  description := ""
  jobType := dataProcessingJobType
  payload := [("data", .obj [("operation", .obj [("export", .null)]), ("source", .str "users"),
    ("target", .str "csv")]), ("type", .str dataProcessingJobType)]
  attempts := 0
  reservedAt := none
  created := Instant.earliest
  updated := Instant.earliest

/-- What the job is decoded to. -/
def roundaboutPayload : TypedPayload DataProcessing Fields :=
  ⟨dataProcessingJobType, ⟨.exportRows, "users", "csv", [], []⟩, []⟩

theorem roundaboutExport_regular :
    (Json.obj roundaboutExport.payload).Every Json.IsRegular := by
  simp only [roundaboutExport, Json.Every, Json.EveryField, Json.IsRegular, Fields.Ordered]
  decide

theorem decode_roundaboutExport :
    roundaboutExport.decode DataProcessing.codec .fields [] = .ok roundaboutPayload := rfl

/-- The payload of such a job is accepted, but it is not written with what it gives for each field as
it gives it. -/
theorem roundaboutExport_respelt :
    Payload.validate roundaboutExport.payload = .ok dataProcessingJobType ∧
    roundaboutExport.decode DataProcessing.codec .fields [] = .ok roundaboutPayload ∧
    roundaboutPayload.toJson DataProcessing.codec .fields ≠
      (Json.obj roundaboutExport.payload).settled (TypedPayload.shape
        (Json.settled (DataProcessing.shape.map fun f => { f with spell := id }))) := by
  refine ⟨rfl, decode_roundaboutExport, fun same => ?_⟩
  have operations := congrArg (fun v => (v.get? "data").bind (·.get? "operation")) same
  cases operations

theorem payloads_survive_export :
    (∃ fields, roundaboutPayload.toJson DataProcessing.codec .fields = .obj fields ∧
      Fields.Ordered fields ∧ Payload.validate fields = .ok dataProcessingJobType ∧
      Payload.ReadsAs DataProcessing.codec fields roundaboutPayload) ∧
    roundaboutPayload.toJson DataProcessing.codec .fields =
      (Json.obj roundaboutExport.payload).settled
        (TypedPayload.shape (Json.settled DataProcessing.shape)) :=
  ⟨payloads_survive.2.kept roundaboutPayload (by decide),
    payloads_survive.2.settled _ _ roundaboutExport_regular decode_roundaboutExport⟩

end JobQueue
