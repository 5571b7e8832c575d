/-
What is enqueued can be read.

A payload is looked at twice: before it is stored, as a value, and when its record is read as a job,
as a text. Where the value has no floating-point numbers and is not too deep, its text is read back
as the value itself, so both looks come to the same: what is refused is refused with the error that
reading a record of it gives, and what is stored is read as a job with just its fields
(`enqueued_of_plain`). This holds in the memory store as in a database (`PayloadStore`), and any
call of the store may fail.
-/

import JobQueue.Processor
import JobQueue.Proofs.Job.Guarantee
import JobQueue.Proofs.Json.RoundTrip
import JobQueue.Proofs.Simulation.Scripts
import JobQueue.Proofs.Store.Payloads

namespace JobQueue

variable {W C : Type}

/-- A record store that keeps its records in memory or in a database, and whose calls may fail. -/
inductive PayloadStore : {C : Type} → Shelf W C → (C → String) → RecordStore W → Prop where
  | memory {place : Part W MemoryStore} {nature : Part W Nature} {records : RecordStore W}
      (beside : place.Beside nature)
      (mayFail : RecordStore.MayFail (MemoryStore.orderlyShelf place fun _ => True).Same
        (MemoryStore.recordStore place nature) records) :
      PayloadStore (MemoryStore.orderlyShelf place fun _ => True) JobRecord.payload records
  | database {place : Part W Database} {nature : Part W Nature} {records : RecordStore W}
      (beside : place.Beside nature)
      (mayFail : RecordStore.MayFail (Database.keyedShelf place).Same
        (Database.recordStore place nature) records) :
      PayloadStore (Database.keyedShelf place) Database.Line.payload records

theorem PayloadStore.carries {shelf : Shelf W C} {payload : C → String} {records : RecordStore W}
    (store : PayloadStore shelf payload records) : shelf.Carries payload records := by
  cases store with
  | memory beside mayFail =>
      exact (MemoryStore.carries beside).mayFail (fun _ _ same => same) mayFail
  | database beside mayFail =>
      exact (Database.carries beside).mayFail (fun _ _ same => same) mayFail

variable {v : Json} {r : JobRecord} {fields : Fields} {jobType : String}

/-! ### Two looks at one payload -/

/-- Whether a record is read as a job of a type with these fields. -/
def JobRecord.ReadsAs (r : JobRecord) (jobType : String) (fields : Fields) : Prop :=
  ∃ job, Job.ofRecord r = .ok job ∧ job.jobType = jobType ∧ job.payload = fields

namespace Payload

/-- The fields and the job type of a value, if it is a payload in order. -/
def checked (v : Json) : Except JobError (Fields × String) := do
  let fields ← fieldsOf v
  let jobType ← validate fields
  .ok (fields, jobType)

theorem checked_obj (fields : Fields) :
    checked (.obj fields) = (validate fields).map fun jobType => (fields, jobType) := by
  show Except.bind (validate fields) _ = _
  cases validate fields <;> rfl

theorem checked_eq_ok :
    checked v = .ok (fields, jobType) ↔ v = .obj fields ∧ validate fields = .ok jobType := by
  cases v with
  | obj own =>
      rw [checked_obj, Json.obj.injEq]
      cases valid : validate own with
      | error e =>
          refine iff_of_false nofun ?_
          rintro ⟨rfl, other⟩
          rw [valid] at other
          cases other
      | ok own' =>
          rw [Except.map, Except.ok.injEq, Prod.mk.injEq]
          refine and_congr_right ?_
          rintro rfl
          rw [valid, Except.ok.injEq]
  | null | bool | int | double | str | arr => exact iff_of_false nofun nofun

end Payload

/-- A record is read as the value is whose text is its payload. -/
theorem Job.ofRecord_of_plain (plain : v.Every Json.IsPlain) (flat : v.depth ≤ Json.depthLimit)
    (text : r.payload = v.compact) : Job.ofRecord r = (Payload.checked v).map fun read =>
      ⟨r.id, r.name, r.description, read.2, read.1, r.attempts, r.reservedSince?, r.created,
        r.updated⟩ := by
  have parsed : Payload.parse r.payload = Payload.fieldsOf v := by
    rw [text, Payload.parse, Json.read_compact_of_plain plain flat]
  rw [Job.ofRecord, parsed, Payload.checked]
  cases Payload.fieldsOf v with
  | error e => rfl
  | ok fields =>
      show Except.bind (Payload.validate fields) _ =
        Except.map _ (Except.bind (Payload.validate fields) _)
      cases Payload.validate fields <;> rfl

theorem JobRecord.readsAs_of_plain (plain : v.Every Json.IsPlain)
    (flat : v.depth ≤ Json.depthLimit) (text : r.payload = v.compact)
    (checked : Payload.checked v = .ok (fields, jobType)) : r.ReadsAs jobType fields := by
  have read := Job.ofRecord_of_plain plain flat text
  rw [checked] at read
  exact ⟨_, read, rfl, rfl⟩

/-! ### Enqueueing -/

namespace Processor

variable {p : Processor W} {name description : String} {w : W}

theorem enqueue_of_refused {e : JobError} (refused : Payload.checked v = .error e) :
    (p.enqueue name description v).run = .done (.error (.error e)) := by
  cases v with
  | obj fields =>
      rw [Payload.checked_obj] at refused
      show (JobTask.ofExcept (Payload.validate fields) >>= _ : JobTask W JobRecord).run = _
      cases valid : Payload.validate fields with
      | error e' =>
          rw [valid] at refused
          cases refused
          rfl
      | ok jobType =>
          rw [valid] at refused
          cases refused
  | null | bool | int | double | str | arr =>
      cases refused
      rfl

theorem enqueue_of_checked {read : Fields × String} (checked : Payload.checked v = .ok read) :
    p.enqueue name description v =
      JobTask.call (p.backend.records.create ⟨name, description, v.compact⟩) := by
  obtain ⟨rfl, valid⟩ := Payload.checked_eq_ok.mp checked
  rw [enqueue]
  show (JobTask.ofExcept (Payload.validate read.1) >>= _ : JobTask W JobRecord) = _
  rw [valid]
  rfl

/-- What comes of enqueueing a value, and of reading records that have its text as their payload. -/
structure Enqueued (shelf : Shelf W C) (payload : C → String) (p : Processor W)
    (name description : String) (v : Json) (w : W) : Prop where
  /-- If the store makes the record, the value is accepted if and only if such records are read. -/
  accepted : ∀ made r, (p.backend.records.create ⟨name, description, v.compact⟩ w).1 = .ok made →
    r.payload = v.compact → (((p.enqueue name description v).run.runAlone w).1 = .ok made ↔
      ∃ job, Job.ofRecord r = .ok job)
  /-- If such records cannot be read, the value is refused for the same reason, and no step is
  taken. -/
  refused : ∀ r e, r.payload = v.compact → Job.ofRecord r = .error e →
    (p.enqueue name description v).run = .done (.error (.error e))
  /-- The new record is read as a job of just these fields, and so is every record that is found
  under its id as long as the payload is kept there. -/
  stored : ∀ made w', (p.enqueue name description v).run.runAlone w = (.ok made, w') →
    ∃ fields jobType, v = .obj fields ∧ Payload.validate fields = .ok jobType ∧
      made.ReadsAs jobType fields ∧ shelf.payload? payload w' made.id = some v.compact ∧
      ∀ later r, shelf.Good later → shelf.payload? payload later made.id = some v.compact →
        (p.backend.records.find made.id later).1 = .ok (some r) → r.ReadsAs jobType fields
  /-- What fails changes nothing in the store. -/
  unchanged : ∀ fault w', (p.enqueue name description v).run.runAlone w = (.error fault, w') →
    shelf.Same w w'

section

variable {shelf : Shelf W C} {payload : C → String} (plain : v.Every Json.IsPlain)
  (flat : v.depth ≤ Json.depthLimit)

include plain flat

/-- A value that is no payload in order is refused at once. -/
theorem enqueued_of_refused {e : JobError} (refused : Payload.checked v = .error e) :
    Enqueued shelf payload p name description v w := by
  have ending : (p.enqueue name description v).run = .done (.error (.error e)) :=
    enqueue_of_refused refused
  have unread : ∀ r : JobRecord, r.payload = v.compact → Job.ofRecord r = .error e :=
    fun r text => by rw [Job.ofRecord_of_plain plain flat text, refused]; rfl
  constructor
  case accepted =>
    intro made r _ text
    rw [ending, unread r text]
    exact iff_of_false nofun nofun
  case refused =>
    intro r e' text failed
    rw [unread r text] at failed
    cases failed
    exact ending
  case stored =>
    intro made w' ended
    rw [ending] at ended
    cases ended
  case unchanged =>
    intro fault w' ended
    rw [ending] at ended
    cases ended
    exact .refl

/-- A payload in order comes to one call of the store, and to what that call comes to. -/
theorem enqueued_of_checked (carries : shelf.Carries payload p.backend.records)
    (good : shelf.Good w) (checked : Payload.checked v = .ok (fields, jobType)) :
    Enqueued shelf payload p name description v w := by
  obtain ⟨object, valid⟩ := Payload.checked_eq_ok.mp checked
  have called := JobTask.runAlone_call
    (p.backend.records.create ⟨name, description, v.compact⟩) w
  rw [← enqueue_of_checked checked] at called
  have reads : ∀ {r : JobRecord}, r.payload = v.compact → r.ReadsAs jobType fields :=
    fun text => JobRecord.readsAs_of_plain plain flat text checked
  have creation := carries.create ⟨name, description, v.compact⟩ w good
  constructor
  case accepted =>
    intro made r took text
    obtain ⟨job, read, _⟩ := reads text
    rw [called, took]
    exact iff_of_true rfl ⟨job, read⟩
  case refused =>
    intro r e text failed
    obtain ⟨job, read, _⟩ := reads text
    rw [read] at failed
    cases failed
  case stored =>
    intro made w' ended
    rw [called] at ended
    generalize p.backend.records.create ⟨name, description, v.compact⟩ w = result
      at creation ended
    cases creation with
    | failed => cases ended
    | made text here =>
        cases ended
        refine ⟨fields, jobType, object, valid, reads text, here, ?_⟩
        intro later r good' kept found
        have shown := (carries.found _ later r good' found).2
        exact reads (Option.some.inj (shown.symm.trans kept))
  case unchanged =>
    intro fault w' ended
    rw [called] at ended
    generalize p.backend.records.create ⟨name, description, v.compact⟩ w = result
      at creation ended
    cases creation with
    | failed same =>
        cases ended
        exact same
    | made => cases ended

end

/-- What is enqueued can be read, and what cannot be read is not enqueued. -/
theorem enqueued_of_plain {shelf : Shelf W C} {payload : C → String}
    (store : PayloadStore shelf payload p.backend.records) (plain : v.Every Json.IsPlain)
    (flat : v.depth ≤ Json.depthLimit) (good : shelf.Good w) :
    Enqueued shelf payload p name description v w := by
  cases checked : Payload.checked v with
  | error e => exact enqueued_of_refused plain flat checked
  | ok read => exact enqueued_of_checked plain flat store.carries good checked

end Processor

/-! ### An instance -/

namespace Simulation

open World (storePart naturePart plainRecords)

/-- The store of a world is a memory store each of whose calls may fail. -/
theorem World.records_mayFail {harmless : World → World → Prop}
    (calm : ∀ w w' : World, w'.store = w.store → harmless w w') :
    RecordStore.MayFail harmless plainRecords World.records := by
  have planned (α : Type) (entry : Call) (act : StoreCall World α) :
      StoreCall.MayFail harmless act (World.planned entry act) := by
    intro w
    rcases World.planned_cases with ⟨w₀, kept, does⟩ | ⟨fault, w', kept, fails⟩
    · exact .inl ⟨w₀, calm w w₀ kept, does⟩
    · exact .inr ⟨fault, w', calm w w' kept, fails⟩
  exact ⟨fun _ => planned _ _ _, fun _ => planned _ _ _, fun _ => planned _ _ _,
    fun _ => planned _ _ _, fun _ _ _ w => planned _ (.available _ w.nature.now.1 _ _) _ w⟩

theorem World.storePart_beside : storePart.Beside naturePart :=
  ⟨fun _ _ => rfl, fun _ _ => rfl, fun _ _ => rfl, fun _ _ => rfl⟩

theorem World.same_orderly {w w' : World} (kept : w'.store = w.store) :
    (MemoryStore.orderlyShelf storePart fun _ => True).Same w w' := by
  refine ⟨fun ⟨_, orderly⟩ => ⟨trivial, ?_⟩, fun id => congrArg (·.get? id) kept⟩
  show w'.store.Orderly
  rw [kept]
  exact orderly

/-- A processor whose store may fail. -/
def shakyProcessor : Processor World :=
  ⟨.default, World.backend, none, easyExecutor.registry, false⟩

/-- A payload with the extreme whole numbers, a text in need of escapes, and empty objects. -/
def knottyPayload : Json :=
  .obj [("data", .obj []), ("note", .str "\"\\\n\x01é"),
    ("numbers", .arr [.int (-9223372036854775808), .int 18446744073709551615, .null, .bool true]),
    ("type", .str "A")]

theorem knottyPayload_plain : knottyPayload.Every Json.IsPlain := by
  have ordered : "data" < "note" ∧ "note" < "numbers" ∧ "numbers" < "type" := by decide
  simp [knottyPayload, Json.Every, Json.EveryField, Json.EveryItem,
    Json.IsPlain, Json.IsRegular, Fields.Ordered, Word.count, ordered]

theorem enqueued_knottyPayload :
    ∃ made w', (shakyProcessor.enqueue "job" "" knottyPayload).run.runAlone (World.still []) =
        (.ok made, w') ∧
      Processor.Enqueued (MemoryStore.orderlyShelf storePart fun _ => True) JobRecord.payload
        shakyProcessor "job" "" knottyPayload (World.still []) :=
  ⟨_, _, rfl, Processor.enqueued_of_plain
    (.memory World.storePart_beside (World.records_mayFail fun _ _ => World.same_orderly))
    knottyPayload_plain (by decide) ⟨trivial, nofun, List.nodup_nil⟩⟩

end Simulation

end JobQueue
