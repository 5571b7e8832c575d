/-
One store of records in two forms.

Requests are served one after another (`RecordStore.serveAll`). Suppose that each record that is
saved comes from an earlier reply and has been changed by claims and failures only (`Derived`), that
new ids differ, and that all times are regular. Then a database that begins empty replies as a
memory store does, to which each scan is put with its time cut off at the second (`replies_agree`).
Beside the mirrored lines, the proof keeps track of the records that have been shown so far
(`Chronicle`): their ids have been made before, and two of one id have one creation time.
-/

import JobQueue.Proofs.Database.Mirror
import Mathlib.Data.List.Nodup

namespace JobQueue

/-! ### Requests and replies -/

/-- A call of a store of records. -/
inductive Request where
  | create (new : NewJobRecord)
  | find (id : String)
  | save (r : JobRecord)
  | delete (r : JobRecord)
  | available (before : Instant) (limit offset : Nat)

namespace Request

/-- The request, a scan with its time cut off at the second. -/
def atSecond : Request → Request
  | .available before limit offset => .available (before.cut 0) limit offset
  | request => request

/-- A scan goes by a time that is not after the year 9999. -/
def Timely : Request → Prop
  | .available before _ _ => before.Timely
  | _ => True

/-- Whether the request is for a new record. -/
def isCreate : Request → Bool
  | .create _ => true
  | _ => false

end Request

/-- The answer to a request. -/
inductive Reply where
  | made (r : JobRecord)
  | found (r : Option JobRecord)
  | done
  | page (records : List JobRecord)
  | failed (fault : Fault StoreError)
deriving DecidableEq

namespace Reply

/-- The records that a reply shows. -/
def shown : Reply → List JobRecord
  | .made r => [r]
  | .found r => r.toList
  | .page records => records
  | .done | .failed _ => []

/-- The id of a record that has just been made. -/
def newId? : Reply → Option String
  | .made r => some r.id
  | _ => none

/-- The reply for the answer to a call. -/
def ofAnswer {α : Type} (reply : α → Reply) : Except (Fault StoreError) α → Reply
  | .ok a => reply a
  | .error fault => .failed fault

/-- The reply for the answer of a step on a part of a world. -/
def ofStep {α : Type} (reply : α → Reply) (answer : Except StoreError α) : Reply :=
  ofAnswer reply (answer.mapError .error)

end Reply

namespace RecordStore

variable {W : Type}

/-- Serves a request. -/
def serve (records : RecordStore W) (request : Request) (w : W) : Reply × W :=
  match request with
  | .create new => (records.create new w).map (Reply.ofAnswer .made) id
  | .find key => (records.find key w).map (Reply.ofAnswer .found) id
  | .save r => (records.save r w).map (Reply.ofAnswer fun _ => .done) id
  | .delete r => (records.delete r w).map (Reply.ofAnswer fun _ => .done) id
  | .available before limit offset =>
      (records.available before limit offset w).map (Reply.ofAnswer .page) id

/-- Serves requests one after another. -/
def serveAll (records : RecordStore W) : List Request → W → List Reply × W
  | [], w => ([], w)
  | request :: rest, w =>
      let (reply, w) := records.serve request w
      let (replies, w) := records.serveAll rest w
      (reply :: replies, w)

end RecordStore

/-- A record that comes from one of those shown by claims and failures at regular times, while its
number of attempts is one of 32 bits. -/
inductive Derived (shown : List JobRecord) : JobRecord → Prop where
  | shown {r : JobRecord} (member : r ∈ shown) : Derived shown r
  | reserve {r : JobRecord} {t : Instant} (derived : Derived shown r) (now : t.Regular) :
      Derived shown (r.reserve t)
  | markFailed {r : JobRecord} {t : Instant} (derived : Derived shown r) (now : t.Regular) :
      Derived shown (r.markFailed t)

/-- Each record that is saved derives from the records that earlier replies have shown. -/
def Honest {W : Type} (records : RecordStore W) (requests : List Request) (w : W) : Prop :=
  ∀ earlier r later, requests = earlier ++ .save r :: later →
    Derived ((records.serveAll earlier w).1.flatMap Reply.shown) r

/-- Two parts of a world let things be put and found again, and leave each other alone. -/
structure Part.Beside {W A B : Type} (p : Part W A) (q : Part W B) : Prop where
  first : p.Lawful
  second : q.Lawful
  firstKept : ∀ b w, p.get (q.set b w) = p.get w
  secondKept : ∀ a w, q.get (p.set a w) = q.get w

/-! ### Records that have been shown -/

variable {shown new : List JobRecord} {r : JobRecord} {n : Nature}

theorem Derived.mono (derived : Derived shown r) : Derived (shown ++ new) r := by
  induction derived with
  | shown member => exact .shown (List.mem_append_left _ member)
  | reserve _ now ih => exact .reserve ih now
  | markFailed _ now ih => exact .markFailed ih now

/-- A derived record has the id and the creation time of one shown. -/
theorem Derived.origin (derived : Derived shown r) :
    ∃ s ∈ shown, r.id = s.id ∧ r.created = s.created := by
  induction derived with
  | shown member => exact ⟨_, member, rfl, rfl⟩
  | reserve _ _ ih => exact ih
  | markFailed _ _ ih => exact ih

/-- What is kept of the records that have been shown, when some ids have been made and some are
still to be made. -/
structure Chronicle (n : Nature) (shown : List JobRecord) : Prop where
  ids : Function.Injective n.ids
  readings : ∀ k, (n.readings k).Regular
  regular : ∀ r ∈ shown, r.Regular
  used : ∀ r ∈ shown, ∃ k < n.made, r.id = n.ids k
  akin : ∀ r ∈ shown, ∀ s ∈ shown, r.id = s.id → r.created = s.created

namespace Chronicle

theorem regular_derived (chronicle : Chronicle n shown) (derived : Derived shown r) :
    r.Regular := by
  induction derived with
  | shown member => exact chronicle.regular _ member
  | reserve _ now ih => exact ih.reserve now
  | markFailed _ now ih => exact ih.markFailed now

theorem akin_derived (chronicle : Chronicle n shown) {s : JobRecord} (first : Derived shown r)
    (second : Derived shown s) (same : r.id = s.id) : r.created = s.created := by
  obtain ⟨r', member, own, created⟩ := first.origin
  obtain ⟨s', member', own', created'⟩ := second.origin
  rw [created, created']
  exact chronicle.akin r' member s' member' (own.symm.trans (same.trans own'))

/-- To show records again that derive from those shown changes nothing. -/
theorem more (chronicle : Chronicle n shown) (derived : ∀ r ∈ new, Derived shown r) :
    Chronicle n (shown ++ new) := by
  have all : ∀ r ∈ shown ++ new, Derived shown r := by
    intro r member
    rcases List.mem_append.mp member with old | late
    · exact .shown old
    · exact derived r late
  refine ⟨chronicle.ids, chronicle.readings, ?_, ?_, ?_⟩
  · intro r member
    exact chronicle.regular_derived (all r member)
  · intro r member
    obtain ⟨s, there, own, _⟩ := (all r member).origin
    rw [own]
    exact chronicle.used s there
  · intro r member s member' same
    exact chronicle.akin_derived (all r member) (all s member') same

/-- A record is made under the next id. -/
theorem made (chronicle : Chronicle n shown) (fields : NewJobRecord) (k : Nat) :
    Chronicle { n with read := n.read + 1, made := n.made + 1 }
      (shown ++ [fields.toRecord (n.ids n.made) (n.readings k)]) := by
  have fresh : ∀ r ∈ shown, r.id ≠ n.ids n.made := by
    intro r member taken
    obtain ⟨k, earlier, own⟩ := chronicle.used r member
    exact absurd (chronicle.ids (own.symm.trans taken)) (Nat.ne_of_lt earlier)
  refine ⟨chronicle.ids, chronicle.readings, ?_, ?_, ?_⟩
  · intro r member
    rcases List.mem_append.mp member with old | late
    · exact chronicle.regular r old
    · rw [List.mem_singleton.mp late]
      exact JobRecord.regular_toRecord fields _ (chronicle.readings k)
  · intro r member
    rcases List.mem_append.mp member with old | late
    · obtain ⟨k, earlier, own⟩ := chronicle.used r old
      exact ⟨k, Nat.lt_succ_of_lt earlier, own⟩
    · rw [List.mem_singleton.mp late]
      exact ⟨n.made, Nat.lt_succ_self _, rfl⟩
  · -- Two records of one id are both old, or both the new one.
    intro r member s member' same
    rcases List.mem_append.mp member with old | late <;>
      rcases List.mem_append.mp member' with old' | late'
    · exact chronicle.akin r old s old' same
    · rw [List.mem_singleton.mp late'] at same
      exact absurd same (fresh r old)
    · rw [List.mem_singleton.mp late] at same
      exact absurd same.symm (fresh s old')
    · rw [List.mem_singleton.mp late, List.mem_singleton.mp late']

end Chronicle

/-! ### What a memory store holds after a call -/

namespace MemoryStore

variable {m : MemoryStore} {entry : String × JobRecord}

theorem mem_save (member : entry ∈ (save r m).2.records) :
    entry = (r.id, r) ∨ entry ∈ m.records := by
  unfold save at member
  split at member
  · exact mem_put member
  · exact .inr member

theorem mem_delete (member : entry ∈ (delete r m).2.records) : entry ∈ m.records := by
  unfold delete at member
  split at member
  · exact (List.mem_filter.mp member).1
  · exact member

theorem mem_of_available {before : Instant} {limit offset : Nat}
    (member : r ∈ m.available before limit offset) : ∃ entry ∈ m.records, entry.2 = r := by
  have sorted := List.mem_of_mem_drop (List.mem_of_mem_take member)
  have kept := (List.mem_filter.mp (List.mem_mergeSort.mp sorted)).1
  exact List.mem_map.mp kept

theorem length_insert_le : (m.insert r).records.length ≤ m.records.length + 1 := by
  cases stored : m.get? r.id with
  | some old =>
      have keys := congrArg List.length (keys_insert stored)
      rw [List.length_map, List.length_map] at keys
      omega
  | none =>
      have last : (m.insert r).records = m.records ++ [(r.id, r)] :=
        put_of_notMem (lookup_eq_none_iff.mp stored)
      simp [last]

theorem length_save : (save r m).2.records.length = m.records.length := by
  unfold save
  cases stored : m.get? r.id with
  | some old =>
      have keys := congrArg List.length (keys_insert stored)
      rwa [List.length_map, List.length_map] at keys
  | none => rfl

theorem length_delete_le : (delete r m).2.records.length ≤ m.records.length := by
  unfold delete
  split
  · exact List.length_filter_le _ _
  · exact Nat.le_refl _

end MemoryStore

/-- The reply to a save or a delete shows no record. -/
theorem Reply.notMem_shown_done {answer : Except (Fault StoreError) Unit} :
    r ∉ (Reply.ofAnswer (fun _ => .done) answer).shown := by
  cases answer <;> simp [Reply.ofAnswer, Reply.shown]

/-! ### Two stores -/

section Twins

variable {W₁ W₂ : Type} {place₁ : Part W₁ MemoryStore} {nature₁ : Part W₁ Nature}
  {place₂ : Part W₂ Database} {nature₂ : Part W₂ Nature} {w₁ : W₁} {w₂ : W₂}

/-- The nature after a record has been made. -/
def Nature.spent (n : Nature) : Nature := { n with read := n.read + 1, made := n.made + 1 }

/-- The record that is made next. -/
def Nature.next (n : Nature) (new : NewJobRecord) : JobRecord :=
  new.toRecord (n.ids n.made) (n.readings n.read)

theorem MemoryStore.created (beside : place₁.Beside nature₁) (new : NewJobRecord) (w₁ : W₁) :
    let r := (nature₁.get w₁).next new
    let call := (MemoryStore.recordStore place₁ nature₁).create new w₁
    call.1 = .ok r ∧ place₁.get call.2 = (place₁.get w₁).insert r ∧
      nature₁.get call.2 = (nature₁.get w₁).spent := by
  simp [MemoryStore.recordStore, Part.use, MemoryStore.create, Nature.fresh, Nature.now,
    beside.first _ _, beside.second _ _, beside.firstKept, beside.secondKept, Nature.next,
    Nature.spent]

theorem Database.created (beside : place₂.Beside nature₂) (new : NewJobRecord) (w₂ : W₂)
    (regular : ((nature₂.get w₂).readings (nature₂.get w₂).read).Regular) :
    let r := (nature₂.get w₂).next new
    let call := (Database.recordStore place₂ nature₂).create new w₂
    let after := createRecord r (place₂.get w₂)
    call.1 = after.1.mapError Fault.error ∧ place₂.get call.2 = after.2 ∧
      nature₂.get call.2 = (nature₂.get w₂).spent := by
  simp [Database.recordStore, Part.use, Part.answer, Nature.fresh, Nature.now, beside.first _ _,
    beside.second _ _, beside.firstKept, beside.secondKept, Nature.next, Nature.spent,
    regular.toMicro_eq]

/-- A memory store grows by a record that is made. -/
theorem MemoryStore.length_serve_le (beside : place₁.Beside nature₁) (request : Request) (w₁ : W₁) :
    (place₁.get ((recordStore place₁ nature₁).serve request.atSecond w₁).2).records.length ≤
      (place₁.get w₁).records.length + if request.isCreate = true then 1 else 0 := by
  cases request with
  | create new =>
      have stored := (MemoryStore.created beside new w₁).2.1
      exact stored ▸ length_insert_le
  | find key => exact Nat.le_refl _
  | save r =>
      have stored : place₁.get ((recordStore place₁ nature₁).serve (.save r) w₁).2 =
          (MemoryStore.save r (place₁.get w₁)).2 := beside.first _ _
      exact stored ▸ Nat.le_of_eq length_save
  | delete r =>
      have stored : place₁.get ((recordStore place₁ nature₁).serve (.delete r) w₁).2 =
          (MemoryStore.delete r (place₁.get w₁)).2 := beside.first _ _
      exact stored ▸ length_delete_le
  | available before limit offset => exact Nat.le_refl _

/-- A memory store and a database with the same records and the same nature, all of whose records
derive from those that have been shown. -/
structure Twins (place₁ : Part W₁ MemoryStore) (nature₁ : Part W₁ Nature)
    (place₂ : Part W₂ Database) (nature₂ : Part W₂ Nature) (shown : List JobRecord) (w₁ : W₁)
    (w₂ : W₂) : Prop where
  mirrors : Database.Mirrors (place₁.get w₁) (place₂.get w₂)
  nature : nature₂.get w₂ = nature₁.get w₁
  chronicle : Chronicle (nature₁.get w₁) shown
  stored : ∀ entry ∈ (place₁.get w₁).records, Derived shown entry.2

/-- Twins give one reply to a request, a scan of the memory store going by the second, and are twins
afterwards. -/
def Agree (place₁ : Part W₁ MemoryStore) (nature₁ : Part W₁ Nature) (place₂ : Part W₂ Database)
    (nature₂ : Part W₂ Nature) (shown : List JobRecord) (w₁ : W₁) (w₂ : W₂) (request : Request) :
    Prop :=
  let before := (MemoryStore.recordStore place₁ nature₁).serve request.atSecond w₁
  let after := (Database.recordStore place₂ nature₂).serve request w₂
  after.1 = before.1 ∧
    Twins place₁ nature₁ place₂ nature₂ (shown ++ before.1.shown) before.2 after.2

namespace Twins

variable {w₁' : W₁} {w₂' : W₂} {request : Request}

/-- A call that makes no record and shows none but derived ones keeps the stores twins. -/
theorem onward (twins : Twins place₁ nature₁ place₂ nature₂ shown w₁ w₂)
    (mirrors : Database.Mirrors (place₁.get w₁') (place₂.get w₂'))
    (kept : nature₁.get w₁' = nature₁.get w₁) (kept' : nature₂.get w₂' = nature₂.get w₂)
    (stored : ∀ entry ∈ (place₁.get w₁').records, Derived shown entry.2)
    (derived : ∀ r ∈ new, Derived shown r) :
    Twins place₁ nature₁ place₂ nature₂ (shown ++ new) w₁' w₂' where
  mirrors := mirrors
  nature := by rw [kept, kept', twins.nature]
  chronicle := kept ▸ twins.chronicle.more derived
  stored := fun entry member => (stored entry member).mono

theorem derived_of_get? (twins : Twins place₁ nature₁ place₂ nature₂ shown w₁ w₂) {id : String}
    (found : (place₁.get w₁).get? id = some r) : Derived shown r :=
  twins.stored (id, r) (MemoryStore.mem_of_get? found)

/-- No record stands under the next id. -/
theorem get?_next (twins : Twins place₁ nature₁ place₂ nature₂ shown w₁ w₂)
    (fields : NewJobRecord) :
    (place₁.get w₁).get? ((nature₁.get w₁).next fields).id = none := by
  refine Option.eq_none_iff_forall_ne_some.mpr fun r found => ?_
  obtain ⟨s, member, own, _⟩ := (twins.derived_of_get? found).origin
  obtain ⟨k, earlier, used⟩ := twins.chronicle.used s member
  have next : (nature₁.get w₁).ids k = (nature₁.get w₁).ids (nature₁.get w₁).made :=
    used.symm.trans (own.symm.trans (twins.mirrors.keyed.id_eq found))
  exact absurd (twins.chronicle.ids next) (Nat.ne_of_lt earlier)

theorem create (twins : Twins place₁ nature₁ place₂ nature₂ shown w₁ w₂)
    (beside₁ : place₁.Beside nature₁) (beside₂ : place₂.Beside nature₂) (fields : NewJobRecord) :
    Agree place₁ nature₁ place₂ nature₂ shown w₁ w₂ (.create fields) := by
  unfold Agree
  intro before after
  have chronicle := twins.chronicle
  have regular : ((nature₁.get w₁).next fields).Regular :=
    JobRecord.regular_toRecord fields _ (chronicle.readings _)
  obtain ⟨made, stored, spent⟩ := MemoryStore.created beside₁ fields w₁
  obtain ⟨made', stored', spent'⟩ :=
    Database.created beside₂ fields w₂ (twins.nature ▸ chronicle.readings _)
  rw [twins.nature] at made' stored' spent'
  obtain ⟨answered, mirrors⟩ := twins.mirrors.createRecord regular (twins.get?_next fields)
  have reply : before.1 = .made ((nature₁.get w₁).next fields) :=
    congrArg (Reply.ofAnswer .made) made
  have reply' : after.1 = .made ((nature₁.get w₁).next fields) := by
    rw [answered] at made'
    exact congrArg (Reply.ofAnswer .made) made'
  refine ⟨reply'.trans reply.symm, ?_⟩
  rw [reply]
  refine ⟨?_, spent'.trans spent.symm, ?_, ?_⟩
  · exact stored ▸ stored' ▸ mirrors
  · exact spent ▸ chronicle.made fields _
  · intro entry member
    have member' : entry ∈ ((place₁.get w₁).insert ((nature₁.get w₁).next fields)).records :=
      stored ▸ member
    rcases MemoryStore.mem_put member' with rfl | old
    · exact .shown (by simp [Reply.shown])
    · exact (twins.stored entry old).mono

theorem find (twins : Twins place₁ nature₁ place₂ nature₂ shown w₁ w₂)
    (beside₂ : place₂.Beside nature₂) (key : String) :
    Agree place₁ nature₁ place₂ nature₂ shown w₁ w₂ (.find key) := by
  unfold Agree
  intro before after
  have called : Database.findRecord key (place₂.get w₂) =
      (.ok ((place₁.get w₁).get? key), place₂.get w₂) := twins.mirrors.findRecord_eq
  have reply : after.1 = .found ((place₁.get w₁).get? key) :=
    congrArg (Reply.ofStep .found) (congrArg Prod.fst called)
  have kept : place₂.get after.2 = place₂.get w₂ :=
    (beside₂.first _ _).trans (congrArg Prod.snd called)
  refine ⟨reply, twins.onward ?_ rfl (beside₂.secondKept _ _) twins.stored ?_⟩
  · rw [kept]
    exact twins.mirrors
  · intro r member
    exact twins.derived_of_get? (Option.mem_toList.mp member)

theorem save (twins : Twins place₁ nature₁ place₂ nature₂ shown w₁ w₂)
    (beside₁ : place₁.Beside nature₁) (beside₂ : place₂.Beside nature₂)
    (derived : Derived shown r) :
    Agree place₁ nature₁ place₂ nature₂ shown w₁ w₂ (.save r) := by
  unfold Agree
  intro before after
  obtain ⟨answered, mirrors⟩ := twins.mirrors.saveRecord
    (twins.chronicle.regular_derived derived) fun old found =>
      twins.chronicle.akin_derived derived (twins.derived_of_get? found)
        (twins.mirrors.keyed.id_eq found).symm
  have stored : place₁.get before.2 = (MemoryStore.save r (place₁.get w₁)).2 := beside₁.first _ _
  have stored' : place₂.get after.2 = (Database.saveRecord r (place₂.get w₂)).2 :=
    beside₂.first _ _
  refine ⟨congrArg (Reply.ofStep fun _ => .done) answered,
    twins.onward ?_ (beside₁.secondKept _ _) (beside₂.secondKept _ _) ?_ ?_⟩
  · rw [stored, stored']
    exact mirrors
  · rw [stored]
    intro entry member
    rcases MemoryStore.mem_save member with rfl | old
    · exact derived
    · exact twins.stored entry old
  · intro r member
    exact absurd member Reply.notMem_shown_done

theorem delete (twins : Twins place₁ nature₁ place₂ nature₂ shown w₁ w₂)
    (beside₁ : place₁.Beside nature₁) (beside₂ : place₂.Beside nature₂) (r : JobRecord) :
    Agree place₁ nature₁ place₂ nature₂ shown w₁ w₂ (.delete r) := by
  unfold Agree
  intro before after
  obtain ⟨answered, mirrors⟩ := twins.mirrors.deleteRecord (r := r)
  have stored : place₁.get before.2 = (MemoryStore.delete r (place₁.get w₁)).2 :=
    beside₁.first _ _
  have stored' : place₂.get after.2 = (Database.deleteRecord r (place₂.get w₂)).2 :=
    beside₂.first _ _
  refine ⟨congrArg (Reply.ofStep fun _ => .done) answered,
    twins.onward ?_ (beside₁.secondKept _ _) (beside₂.secondKept _ _) ?_ ?_⟩
  · rw [stored, stored']
    exact mirrors
  · rw [stored]
    intro entry member
    exact twins.stored entry (MemoryStore.mem_delete member)
  · intro r member
    exact absurd member Reply.notMem_shown_done

/-- Of fewer records than a cell can number, twins give the same page. -/
theorem available (twins : Twins place₁ nature₁ place₂ nature₂ shown w₁ w₂)
    (beside₂ : place₂.Beside nature₂) {cutoff : Instant} (limit offset : Nat)
    (timely : cutoff.Timely) (few : (place₁.get w₁).records.length < Word.count 63) :
    Agree place₁ nature₁ place₂ nature₂ shown w₁ w₂ (.available cutoff limit offset) := by
  unfold Agree
  intro before after
  have called := twins.mirrors.availableRecords_eq limit offset timely few
  have reply : after.1 = .page ((place₁.get w₁).available (cutoff.cut 0) limit offset) :=
    congrArg (Reply.ofStep .page) (congrArg Prod.fst called)
  have kept : place₂.get after.2 = place₂.get w₂ :=
    (beside₂.first _ _).trans (congrArg Prod.snd called)
  refine ⟨reply, twins.onward ?_ rfl (beside₂.secondKept _ _) twins.stored ?_⟩
  · rw [kept]
    exact twins.mirrors
  · intro r member
    obtain ⟨entry, there, rfl⟩ := MemoryStore.mem_of_available member
    exact twins.stored entry there

/-- Twins give one reply to a request and stay twins. -/
theorem step (twins : Twins place₁ nature₁ place₂ nature₂ shown w₁ w₂)
    (beside₁ : place₁.Beside nature₁) (beside₂ : place₂.Beside nature₂)
    (honest : ∀ r, request = .save r → Derived shown r) (timely : request.Timely)
    (few : (place₁.get w₁).records.length < Word.count 63) :
    Agree place₁ nature₁ place₂ nature₂ shown w₁ w₂ request := by
  cases request with
  | create fields => exact twins.create beside₁ beside₂ fields
  | find key => exact twins.find beside₂ key
  | save r => exact twins.save beside₁ beside₂ (honest r rfl)
  | delete r => exact twins.delete beside₁ beside₂ r
  | available cutoff limit offset => exact twins.available beside₂ limit offset timely few

/-- Twins give the same replies to requests, as long as there are fewer records than a cell can
number. -/
theorem run {requests : List Request} (twins : Twins place₁ nature₁ place₂ nature₂ shown w₁ w₂)
    (beside₁ : place₁.Beside nature₁) (beside₂ : place₂.Beside nature₂)
    (honest : ∀ earlier r later, requests = earlier ++ .save r :: later → Derived (shown ++
      ((Database.recordStore place₂ nature₂).serveAll earlier w₂).1.flatMap Reply.shown) r)
    (timely : ∀ request ∈ requests, request.Timely)
    (few : (place₁.get w₁).records.length + requests.countP Request.isCreate < Word.count 63) :
    ((Database.recordStore place₂ nature₂).serveAll requests w₂).1 =
      ((MemoryStore.recordStore place₁ nature₁).serveAll (requests.map Request.atSecond) w₁).1 := by
  induction requests generalizing shown w₁ w₂ with
  | nil => rfl
  | cons request rest ih =>
      have first : ∀ r, request = .save r → Derived shown r := by
        rintro r rfl
        simpa [RecordStore.serveAll] using honest [] r rest rfl
      obtain ⟨answered, twins'⟩ := twins.step beside₁ beside₂ first
        (timely request List.mem_cons_self) (Nat.lt_of_le_of_lt (Nat.le_add_right _ _) few)
      rw [List.map_cons, RecordStore.serveAll, RecordStore.serveAll]
      refine List.cons_eq_cons.mpr ⟨answered, ih twins' ?_ ?_ ?_⟩
      · -- What the first reply shows counts as shown before the rest.
        intro earlier r later split
        have derived := honest (request :: earlier) r later (by rw [split, List.cons_append])
        rw [RecordStore.serveAll] at derived
        simpa [answered] using derived
      · exact fun other member => timely other (List.mem_cons_of_mem _ member)
      · have grown := MemoryStore.length_serve_le beside₁ request w₁
        rw [List.countP_cons] at few
        omega

end Twins

/-! ### What a memory store replies -/

/-- The reply for an answer shows that no record stands under the id, if it is one of failure. -/
theorem Reply.notFound_of_failed {C : Type} {cell : Option C} {id : String}
    {fault : Fault StoreError}
    (failed : Reply.ofAnswer (fun _ => .done) (Shelf.answer id cell) = .failed fault) :
    fault = .error (.notFound id) := by
  cases cell with
  | some c => cases failed
  | none =>
      cases failed
      rfl

/-- A memory store fails only where no record stands. -/
theorem MemoryStore.notFound_of_failed (beside : place₁.Beside nature₁) {request : Request}
    {fault : Fault StoreError}
    (failed : ((recordStore place₁ nature₁).serve request w₁).1 = .failed fault) :
    ∃ id, fault = .error (.notFound id) := by
  have reliable : (shelf place₁).Reliable (recordStore place₁ nature₁) :=
    MemoryStore.reliable beside.first
  cases request with
  | create | find | available => cases failed
  | save r =>
      have answered := reliable.save_answer r w₁ trivial
      have reply : Reply.ofAnswer (fun _ => .done) ((recordStore place₁ nature₁).save r w₁).1 =
          .failed fault := failed
      rw [answered] at reply
      exact ⟨r.id, Reply.notFound_of_failed reply⟩
  | delete r =>
      have answered := reliable.delete_answer r w₁ trivial
      have reply : Reply.ofAnswer (fun _ => .done) ((recordStore place₁ nature₁).delete r w₁).1 =
          .failed fault := failed
      rw [answered] at reply
      exact ⟨r.id, Reply.notFound_of_failed reply⟩

theorem MemoryStore.notFound_of_failed_serveAll (beside : place₁.Beside nature₁)
    {requests : List Request} {fault : Fault StoreError}
    (failed : .failed fault ∈ ((recordStore place₁ nature₁).serveAll requests w₁).1) :
    ∃ id, fault = .error (.notFound id) := by
  induction requests generalizing w₁ with
  | nil => cases failed
  | cons request rest ih =>
      rw [RecordStore.serveAll] at failed
      rcases List.mem_cons.mp failed with here | later
      · exact notFound_of_failed beside here.symm
      · exact ih later

theorem MemoryStore.serve_of_not_create (beside : place₁.Beside nature₁) {request : Request}
    (other : request.isCreate = false) (w₁ : W₁) :
    ((recordStore place₁ nature₁).serve request w₁).1.newId? = none ∧
      nature₁.get ((recordStore place₁ nature₁).serve request w₁).2 = nature₁.get w₁ := by
  have unnamed : ∀ answer, (Reply.ofAnswer (fun _ : Unit => .done) answer).newId? = none := by
    intro answer
    cases answer <;> rfl
  cases request with
  | create => cases other
  | find | available => exact ⟨rfl, rfl⟩
  | save | delete => exact ⟨unnamed _, beside.secondKept _ _⟩

/-- Records are made under the ids in their order. -/
theorem MemoryStore.newIds_serveAll (beside : place₁.Beside nature₁) (requests : List Request)
    (w₁ : W₁) : ((recordStore place₁ nature₁).serveAll requests w₁).1.filterMap Reply.newId? =
      (List.range' (nature₁.get w₁).made (requests.countP Request.isCreate)).map
        (nature₁.get w₁).ids := by
  induction requests generalizing w₁ with
  | nil => rfl
  | cons request rest ih =>
      rw [RecordStore.serveAll, List.filterMap_cons, ih]
      cases kind : request.isCreate with
      | true =>
          cases request with
          | create new =>
              obtain ⟨made, _, spent⟩ := MemoryStore.created beside new w₁
              have reply : ((recordStore place₁ nature₁).serve (.create new) w₁).1 =
                  .made ((nature₁.get w₁).next new) := congrArg (Reply.ofAnswer .made) made
              have after : nature₁.get ((recordStore place₁ nature₁).serve (.create new) w₁).2 =
                  (nature₁.get w₁).spent := spent
              rw [reply, after, List.countP_cons_of_pos kind, List.range'_succ, List.map_cons]
              rfl
          | find | save | delete | available => cases kind
      | false =>
          obtain ⟨unnamed, kept⟩ := serve_of_not_create beside kind w₁
          rw [unnamed, kept, List.countP_cons_of_neg (by simp [kind])]

/-- A database and a memory store are one store. Let both begin empty and be given the same ids, all
different, and the same regular times; let each record that is saved derive from earlier replies,
and let scans go by times up to the year 9999. Then the database replies to requests as the memory
store does whose scans go by the same times cut off at the second: the same records and pages, and
the same errors, each of which says that no record stands under an id. The ids of new records
differ. A table numbers its lines by words of 63 bits, so there are no more new records than that.
-/
theorem replies_agree {requests : List Request}
    (beside₁ : place₁.Beside nature₁) (beside₂ : place₂.Beside nature₂)
    (empty₁ : place₁.get w₁ = .empty) (empty₂ : place₂.get w₂ = .new)
    (nature : nature₂.get w₂ = nature₁.get w₁) (ids : Function.Injective (nature₁.get w₁).ids)
    (readings : ∀ k, ((nature₁.get w₁).readings k).Regular)
    (honest : Honest (Database.recordStore place₂ nature₂) requests w₂)
    (timely : ∀ request ∈ requests, request.Timely)
    (few : requests.countP Request.isCreate < Word.count 63) :
    let replies := ((Database.recordStore place₂ nature₂).serveAll requests w₂).1
    replies = ((MemoryStore.recordStore place₁ nature₁).serveAll
      (requests.map Request.atSecond) w₁).1 ∧
    (∀ fault, .failed fault ∈ replies → ∃ id, fault = .error (.notFound id)) ∧
    (replies.filterMap Reply.newId?).Nodup := by
  intro replies
  have twins : Twins place₁ nature₁ place₂ nature₂ [] w₁ w₂ := by
    refine ⟨?_, nature, ⟨ids, readings, by simp, by simp, by simp⟩, ?_⟩
    · rw [empty₁, empty₂]
      exact ⟨rfl, rfl, .nil, .nil⟩
    · rw [empty₁]
      exact fun entry member => absurd member (List.not_mem_nil)
  have agree : replies = ((MemoryStore.recordStore place₁ nature₁).serveAll
      (requests.map Request.atSecond) w₁).1 := by
    refine twins.run beside₁ beside₂ honest timely ?_
    rw [empty₁]
    simpa [MemoryStore.empty] using few
  refine ⟨agree, ?_, ?_⟩
  · intro fault failed
    exact MemoryStore.notFound_of_failed_serveAll beside₁ (agree ▸ failed)
  · rw [agree, MemoryStore.newIds_serveAll beside₁]
    exact List.Nodup.map ids List.nodup_range'

end Twins

/-! ### A leased record -/

namespace Part

variable {A B : Type}

/-- The first part of a pair. -/
def first : Part (A × B) A := ⟨Prod.fst, fun a w => (a, w.2)⟩

/-- The second part of a pair. -/
def second : Part (A × B) B := ⟨Prod.snd, fun b w => (w.1, b)⟩

theorem first_beside_second : (first : Part (A × B) A).Beside (second : Part (A × B) B) where
  first := fun _ _ => rfl
  second := fun _ _ => rfl
  firstKept := fun _ _ => rfl
  secondKept := fun _ _ => rfl

end Part

/-- The first of May 2024, at ten. -/
def mayMorning : Instant := ⟨1714557600, 0⟩

/-- A clock that stands still, and ids of more and more letters. -/
def stillNature : Nature :=
  ⟨fun _ => mayMorning, fun k => String.ofList (List.replicate k 'a'), 0, 0⟩

/-- The record that is made first. -/
def firstRecord : JobRecord := stillNature.next ⟨"job", "", "\x7b\"type\":\"A\"\x7d"⟩

/-- A record is made and leased, and a scan goes by a time half a second after the start of the
lease. -/
def leaseAndScan : List Request :=
  [.create ⟨"job", "", "\x7b\"type\":\"A\"\x7d"⟩, .save (firstRecord.reserve mayMorning),
    .available ⟨1714557600, 500000000⟩ 10 0, .delete firstRecord, .find firstRecord.id]

theorem mayMorning_regular : mayMorning.Regular := ⟨by decide, by decide, by decide +kernel⟩

/-- Both stores keep a record leased from the very second of a scan to themselves. -/
theorem replies_agree_leased :
    ((Database.recordStore Part.first Part.second).serveAll leaseAndScan (.new, stillNature)).1 =
      [.made firstRecord, .done, .page [], .done, .found none] := by
  have ids : Function.Injective stillNature.ids := by
    intro j k same
    have lengths := congrArg (fun s => s.toList.length) same
    simpa [stillNature] using lengths
  have honest : Honest (Database.recordStore Part.first Part.second) leaseAndScan
      (.new, stillNature) := by
    rintro (_ | ⟨request, _ | ⟨request', rest⟩⟩) r later split
    · cases split
    · cases split
      exact .reserve (.shown (List.mem_singleton.mpr rfl)) mayMorning_regular
    · have member : .save r ∈ leaseAndScan.drop 2 := by
        rw [split]
        simp
      simp [leaseAndScan] at member
  have timely : ∀ request ∈ leaseAndScan, request.Timely := by
    simp only [leaseAndScan, List.forall_mem_cons]
    exact ⟨trivial, trivial, ⟨by decide, by decide +kernel⟩, trivial, trivial, by simp⟩
  have empty₁ : Part.first.get (MemoryStore.empty, stillNature) = .empty := rfl
  have empty₂ : Part.first.get (Database.new, stillNature) = .new := rfl
  obtain ⟨agree, _⟩ := replies_agree Part.first_beside_second Part.first_beside_second empty₁ empty₂
    rfl ids (fun _ => mayMorning_regular) honest timely (by decide)
  rw [agree]
  decide +kernel

end JobQueue
