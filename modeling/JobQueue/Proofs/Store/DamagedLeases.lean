/-
Damaged leases.

A lease that names no time holds nothing, at no time and for no window. The memory store offers a
record with such a lease to every scan. A database judges leases by their spelling, so it offers the
record to just those scans before whose time, as it is written, the lease comes
(`damaged_lease_offered`). A lease that begins with a letter comes before no written time, so its
record is on no page of a database at all (`damaged_lease_hidden`).
-/

import JobQueue.Proofs.Database.Lines
import JobQueue.Proofs.Time.Stamp
import JobQueue.Proofs.Store.Memory

namespace JobQueue

variable {r : JobRecord} {window : Span} {now before : Instant} {id : String}

/-- The record has a lease, and it names no time. -/
def JobRecord.HasDamagedLease (r : JobRecord) : Prop :=
  r.reservedAt ≠ "" ∧ Time.strict? r.reservedAt = none

namespace JobRecord

instance (r : JobRecord) : Decidable r.HasDamagedLease := by
  unfold HasDamagedLease; infer_instance

theorem HasDamagedLease.isReserved (damaged : r.HasDamagedLease) :
    r.isReserved window now = false := by
  have unread : r.reservedSince? = none := by
    rw [reservedSince?, leaseStart?]
    split
    · rfl
    · exact damaged.2
  rw [JobRecord.isReserved, unread]

theorem HasDamagedLease.isAvailable (damaged : r.HasDamagedLease) :
    r.isAvailable before = true := by
  rw [JobRecord.isAvailable]
  split
  · rfl
  · rw [damaged.2]

end JobRecord

/-- A page of the memory store that is long enough holds all records that a scan may take. -/
theorem MemoryStore.mem_available {m : MemoryStore} {limit : Nat} (stored : m.get? id = some r)
    (free : r.isAvailable before = true) (enough : m.size ≤ limit) :
    r ∈ m.available before limit 0 := by
  have kept : r ∈ m.records.map Prod.snd :=
    List.mem_map.mpr ⟨(id, r), MemoryStore.mem_of_get? stored, rfl⟩
  have short : (m.pageList before).length ≤ limit := by
    rw [pageList, List.length_mergeSort]
    refine Nat.le_trans (List.length_filter_le _ _) ?_
    rwa [List.length_map]
  rw [available, List.drop_zero, List.take_of_length_le short, pageList, List.mem_mergeSort,
    List.mem_filter]
  exact ⟨kept, free⟩

/-- A record with a damaged lease is held by nobody, and the memory store offers it to every scan.
A database offers it to just those scans before whose time, as it is written, the lease comes. -/
theorem damaged_lease_offered (damaged : r.HasDamagedLease) (before : Instant) :
    (∀ window now, r.isReserved window now = false) ∧
    (∀ (m : MemoryStore) id limit, m.get? id = some r → m.size ≤ limit →
      r ∈ m.available before limit 0) ∧
    ∀ (db : Database) l limit, db.isOpen = true → db.Readable → l ∈ db.records.lines → l.Holds r →
      r.collection = queueCollection → db.records.lines.length ≤ Database.asked limit →
        ∃ page, (Database.availableRecords before limit 0 db).1 = .ok page ∧
          (r ∈ page ↔ r.reservedAt < before.leaseText) := by
  refine ⟨fun _ _ => damaged.isReserved, ?_, ?_⟩
  · intro m id limit stored enough
    exact MemoryStore.mem_available stored damaged.isAvailable enough
  · intro db l limit isOpen readable member holds queued enough
    obtain ⟨page, answered, found⟩ :=
      Database.availableRecords_whole isOpen readable before enough
    refine ⟨page, answered, ?_⟩
    rw [found]
    constructor
    · rintro ⟨l', _, holds', free⟩
      obtain ⟨_, empty | early⟩ := (Database.isFree_iff holds').mp free
      · exact absurd empty damaged.1
      · exact early
    · intro early
      exact ⟨l, member, holds, (Database.isFree_iff holds).mpr ⟨queued, .inr early⟩⟩

/-- A record made on the first of May 2024 whose lease somebody has written by hand. -/
def handLeased (lease : String) : JobRecord :=
  ⟨"r1", queueCollection, "job", "", "\x7b\"type\":\"A\"\x7d", 0, lease, ⟨1714557600, 0⟩,
    ⟨1714557600, 0⟩⟩

namespace Database

/-- The line of such a record. -/
def handLeasedLine (lease : String) : Line := ⟨1, recordCells (handLeased lease)⟩

/-- A database of such a record alone. -/
def handLeasedBase (lease : String) : Database := (createRecord (handLeased lease) .new).2

theorem handLeasedBase_lines (lease : String) :
    (handLeasedBase lease).records.lines = [handLeasedLine lease] := rfl

theorem holds_handLeased (lease : String) : (handLeasedLine lease).Holds (handLeased lease) := by
  have read : Time.strict? (Instant.storedText ⟨1714557600, 0⟩) = some ⟨1714557600, 0⟩ := by
    decide +kernel
  exact ⟨rfl, rfl, rfl, rfl, rfl, rfl, rfl, ⟨_, rfl, read⟩, ⟨_, rfl, read⟩⟩

theorem readable_handLeased (lease : String) : (handLeasedBase lease).Readable := by
  intro l member
  rw [handLeasedBase_lines, List.mem_singleton] at member
  exact ⟨_, member ▸ holds_handLeased lease⟩

/-- The lease `2024-01` is damaged, and both stores offer its record to a scan of May 2024. -/
theorem damaged_lease_offered_month : (handLeased "2024-01").HasDamagedLease ∧
    handLeased "2024-01" ∈
      (MemoryStore.empty.insert (handLeased "2024-01")).available ⟨1714557600, 0⟩ 1 0 ∧
    ∃ page, (availableRecords ⟨1714557600, 0⟩ 1 0 (handLeasedBase "2024-01")).1 = .ok page ∧
      handLeased "2024-01" ∈ page := by
  have damaged : (handLeased "2024-01").HasDamagedLease := by decide +kernel
  have early : (handLeased "2024-01").reservedAt < Instant.leaseText ⟨1714557600, 0⟩ := by
    decide +kernel
  obtain ⟨_, memory, database⟩ := damaged_lease_offered damaged ⟨1714557600, 0⟩
  obtain ⟨page, answered, offered⟩ := database (handLeasedBase "2024-01") (handLeasedLine "2024-01")
    1 rfl (readable_handLeased _) List.mem_cons_self (holds_handLeased _) rfl (by decide)
  exact ⟨damaged, memory _ "r1" 1 rfl (by decide), page, answered, offered.mpr early⟩

/-- The lease `yesterday-ish` is damaged and holds nobody's claim, but no page of the database has
its record, whatever the scan. -/
theorem damaged_lease_hidden : (handLeased "yesterday-ish").HasDamagedLease ∧
    (handLeasedBase "yesterday-ish").isOpen = true ∧
    (findRecord "r1" (handLeasedBase "yesterday-ish")).1 = .ok (some (handLeased "yesterday-ish")) ∧
    ∀ before limit offset, ∃ page,
      (availableRecords before limit offset (handLeasedBase "yesterday-ish")).1 = .ok page ∧
        handLeased "yesterday-ish" ∉ page := by
  have isOpen : (handLeasedBase "yesterday-ish").isOpen = true := rfl
  refine ⟨by decide +kernel, isOpen, ?_, ?_⟩
  · rw [findRecord, read, if_pos isOpen, handLeasedBase_lines,
      List.find?_cons_of_pos (hasId_iff.mpr rfl)]
    simp only [readRecord_eq_ok.mpr (holds_handLeased _)]
    rfl
  · intro before limit offset
    obtain ⟨page, answered, found⟩ := availableRecords_of_readable isOpen
      (readable_handLeased "yesterday-ish") before limit offset
    refine ⟨page, answered, ?_⟩
    intro offered
    obtain ⟨l, member, holds⟩ := (found _).mp offered
    have free := (mem_freeLines.mp (List.mem_of_mem_drop (List.mem_of_mem_take member))).2
    obtain ⟨_, empty | early⟩ := (isFree_iff holds).mp free
    · exact absurd empty (by decide)
    · have letters : "yesterday-ish".toList = 'y' :: "esterday-ish".toList := by decide +kernel
      exact Instant.not_lt_stamp letters (by decide) early

end Database

end JobQueue
