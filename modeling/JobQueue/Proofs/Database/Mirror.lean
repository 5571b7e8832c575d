/-
A database beside a memory store.

Times that are whole microseconds of four-digit years are read back as they were written, and their
texts compare as they do (`Instant.Regular`). A database whose lines are those of the records of a
memory store, one by one and in their order, mirrors it (`Database.Mirrors`): each call gives the
same answer, and leaves a database that mirrors what it leaves of the memory store. A save does so
if the record has the creation time of the one stored, since it leaves that of a line as it is.
-/

import JobQueue.Proofs.Database.Lines
import JobQueue.Proofs.Store.Leases
import JobQueue.Proofs.Time.Lease
import Mathlib.Data.List.Forall2

namespace JobQueue

/-! ### Regular times and records -/

namespace Instant

variable {a b t : Instant}

/-- A time that its stored text tells: a whole microsecond of the years 0 to 9999. -/
structure Exact (t : Instant) : Prop where
  proper : t.Proper
  micros : t.nanos % 1000 = 0
  year : t.HasFourDigitYear

theorem Exact.toMicro_eq (exact : t.Exact) : t.toMicro = t := by
  have whole : t.nanos / 1000 * 1000 = t.nanos :=
    Nat.div_mul_cancel (Nat.dvd_of_mod_eq_zero exact.micros)
  rw [toMicro, whole]

theorem Exact.cut_six (exact : t.Exact) : t.cut 6 = t := exact.toMicro_eq

theorem Exact.strict?_storedText (exact : t.Exact) : Time.strict? t.storedText = some t := by
  rw [storedText, Time.strict?_stamp_of_proper (by decide) exact.proper exact.year, exact.cut_six]

theorem Exact.storedText_lt_storedText_iff (first : a.Exact) (second : b.Exact) :
    a.storedText < b.storedText ↔ a < b := by
  rw [storedText, storedText, stamp_lt_stamp_iff_of_proper (by decide) first.proper second.proper
    first.year second.year, first.cut_six, second.cut_six]

/-- A whole microsecond of the years 0 to 9999, in no leap second. -/
structure Regular (t : Instant) : Prop where
  plain : t.Plain
  micros : t.nanos % 1000 = 0
  year : t.HasFourDigitYear

theorem Regular.exact (regular : t.Regular) : t.Exact :=
  ⟨regular.plain.proper, regular.micros, regular.year⟩

theorem Regular.toMicro_eq (regular : t.Regular) : t.toMicro = t := regular.exact.toMicro_eq

theorem Regular.strict?_storedText (regular : t.Regular) : Time.strict? t.storedText = some t :=
  regular.exact.strict?_storedText

theorem storedText_lt_storedText_iff (first : a.Regular) (second : b.Regular) :
    a.storedText < b.storedText ↔ a < b :=
  first.exact.storedText_lt_storedText_iff second.exact

theorem Regular.strict?_leaseText (regular : t.Regular) :
    Time.strict? t.leaseText = some t.toSecond := by
  rw [leaseText, Time.strict?_stamp (by decide) regular.plain regular.year, cut_zero regular.plain]

end Instant

/-- A time up to the end of the year 9999. -/
structure Instant.Timely (t : Instant) : Prop where
  nanos : t.nanos < 2 * nanosPerSecond
  year : t.date.year ≤ 9999

namespace JobRecord

variable {r : JobRecord} {t before : Instant}

/-- A record of the queue whose times are regular and whose lease is one that a claim has written.
-/
structure Regular (r : JobRecord) : Prop where
  collection : r.collection = queueCollection
  lease : r.reservedAt = "" ∨ ∃ since : Instant, since.Regular ∧ r.reservedAt = since.leaseText
  created : r.created.Regular
  updated : r.updated.Regular

theorem Regular.reserve (regular : r.Regular) (now : t.Regular) : (r.reserve t).Regular where
  collection := regular.collection
  lease := .inr ⟨t, now, rfl⟩
  created := regular.created
  updated := now

theorem Regular.markFailed (regular : r.Regular) (now : t.Regular) :
    (r.markFailed t).Regular where
  collection := regular.collection
  lease := .inl rfl
  created := regular.created
  updated := now

theorem regular_toRecord (new : NewJobRecord) (id : String) (now : t.Regular) :
    (new.toRecord id t).Regular where
  collection := rfl
  lease := .inl rfl
  created := now
  updated := now

/-- A scan may take a regular record if its lease is empty or is spelt before the lease of the time
given, cut off at its second. -/
theorem Regular.isAvailable_iff (regular : r.Regular) (timely : before.Timely) :
    r.isAvailable (before.cut 0) = true ↔ r.reservedAt = "" ∨ r.reservedAt < before.leaseText := by
  unfold isAvailable
  rcases regular.lease with empty | ⟨since, began, leased⟩
  · rw [empty]
    exact iff_of_true rfl (.inl rfl)
  · have some : since.leaseText.isEmpty = false := by
      rw [String.isEmpty_eq_false_iff]
      exact since.leaseText_ne_empty
    have later := Instant.leaseText_lt_leaseText_iff began.plain began.year timely.nanos
      timely.year
    simp only [leased, some, began.strict?_leaseText, since.leaseText_ne_empty, later, false_or,
      Bool.false_eq_true, if_false, decide_eq_true_eq]

end JobRecord

namespace Database

variable {m : MemoryStore} {db : Database} {entry : String × JobRecord} {l : Line} {r : JobRecord}
  {old : JobRecord} {id : String} {entries : List (String × JobRecord)} {lines : List Line}

/-! ### Lines that have the cells of records -/

/-- A line is that of a regular record, which stands under its own id. -/
structure Writes (entry : String × JobRecord) (l : Line) : Prop where
  key : entry.1 = entry.2.id
  regular : entry.2.Regular
  cells : l.cells = recordCells entry.2

theorem Writes.holds (writes : Writes entry l) : l.Holds entry.2 := by
  obtain ⟨number, cells⟩ := l
  have same : cells = recordCells entry.2 := writes.cells
  subst same
  exact ⟨rfl, rfl, rfl, rfl, rfl, rfl, rfl, ⟨_, rfl, writes.regular.created.strict?_storedText⟩,
    ⟨_, rfl, writes.regular.updated.strict?_storedText⟩⟩

theorem Writes.hasId_iff (writes : Writes entry l) : hasId id l = true ↔ entry.1 = id := by
  rw [Database.hasId_iff, writes.holds.id, writes.key, Cell.text.injEq]

theorem keptCells_recordCells :
    (Table.empty recordColumns).keptCells (recordCells r) = recordCells r := rfl

/-- A record is saved to the line of a record with its creation time. -/
theorem Writes.savedLine (writes : Writes entry l) (own : entry.1 = r.id) (regular : r.Regular)
    (created : r.created = entry.2.created) : Writes (r.id, r) (savedLine r l) where
  key := rfl
  regular := regular
  cells := by
    have id : entry.2.id = r.id := writes.key.symm.trans own
    have collection := writes.regular.collection.trans regular.collection.symm
    have saved : savedCells r (recordCells entry.2) = recordCells r := by
      simp [savedCells, recordCells, id, collection, created]
    rw [Database.savedLine, writes.cells, saved, keptCells_recordCells]

/-! ### The calls -/

/-- An open database has the lines of the records of a memory store, in their order. -/
structure Mirrors (m : MemoryStore) (db : Database) : Prop where
  isOpen : db.isOpen = true
  columns : db.records.columns = recordColumns
  distinct : (m.records.map Prod.fst).Nodup
  lines : List.Forall₂ Writes m.records db.records.lines

theorem Mirrors.keyed (mirrors : Mirrors m db) : m.Keyed := by
  have own : ∀ {entries : List (String × JobRecord)} {lines : List Line},
      List.Forall₂ Writes entries lines → ∀ entry ∈ entries, entry.1 = entry.2.id := by
    intro entries lines written
    induction written with
    | nil => simp
    | cons writes _ ih => exact List.forall_mem_cons.mpr ⟨writes.key, ih⟩
  exact own mirrors.lines

theorem rel_find (id : String) (written : List.Forall₂ Writes entries lines) :
    Option.Rel (fun r l => Writes (id, r) l) (entries.lookup id) (lines.find? (hasId id)) := by
  induction written with
  | nil => exact .none
  | @cons entry l entries lines writes written ih =>
      obtain ⟨key, r⟩ := entry
      rw [MemoryStore.lookup_cons]
      by_cases here : key = id
      · rw [if_pos here.symm, List.find?_cons_of_pos (writes.hasId_iff.mpr here)]
        exact .some (here ▸ writes)
      · rw [if_neg fun same => here same.symm,
          List.find?_cons_of_neg fun has => here (writes.hasId_iff.mp has)]
        exact ih

theorem Mirrors.findRecord_eq (mirrors : Mirrors m db) :
    findRecord id db = (.ok (m.get? id), db) := by
  have found := rel_find id mirrors.lines
  rw [findRecord, read, if_pos mirrors.isOpen, MemoryStore.get?]
  generalize m.records.lookup id = stored at found
  generalize db.records.lines.find? (hasId id) = line at found
  cases found with
  | none => rfl
  | some writes =>
      simp only [readRecord_eq_ok.mpr writes.holds]
      rfl

/-! ### Saves and deletes -/

theorem unsaved (written : List.Forall₂ Writes entries lines)
    (absent : r.id ∉ entries.map Prod.fst) :
    lines.map (fun l => if hasId r.id l then savedLine r l else l) = lines := by
  induction written with
  | nil => rfl
  | @cons entry l entries lines writes written ih =>
      rw [List.map_cons, List.mem_cons, not_or] at absent
      rw [List.map_cons, if_neg fun has => absent.1 (writes.hasId_iff.mp has).symm, ih absent.2]

/-- Records and lines after a save. -/
theorem forall₂_put (written : List.Forall₂ Writes entries lines)
    (distinct : (entries.map Prod.fst).Nodup) (regular : r.Regular)
    (stored : entries.lookup r.id = some old) (created : r.created = old.created) :
    List.Forall₂ Writes (MemoryStore.put r.id r entries)
      (lines.map fun l => if hasId r.id l then savedLine r l else l) := by
  induction written with
  | nil => cases stored
  | @cons entry l entries lines writes written ih =>
      obtain ⟨key, s⟩ := entry
      rw [List.map_cons, List.nodup_cons] at distinct
      rw [MemoryStore.lookup_cons] at stored
      rw [MemoryStore.put, List.map_cons]
      by_cases here : key = r.id
      · -- Ids are distinct, so the save leaves all lines after this one as they are.
        rw [if_pos here.symm, Option.some.injEq] at stored
        subst stored
        rw [if_pos here, if_pos (writes.hasId_iff.mpr here), unsaved written (here ▸ distinct.1)]
        exact .cons (writes.savedLine here regular created) written
      · rw [if_neg fun same => here same.symm] at stored
        rw [if_neg here, if_neg fun has => here (writes.hasId_iff.mp has)]
        exact .cons writes (ih distinct.2 stored)

theorem Mirrors.any_eq (mirrors : Mirrors m db) :
    db.records.lines.any (hasId id) = (m.get? id).isSome := by
  have found := rel_find id mirrors.lines
  rw [any_hasId, MemoryStore.get?]
  generalize m.records.lookup id = stored at found
  generalize db.records.lines.find? (hasId id) = line at found
  cases found with
  | none => rfl
  | some => rfl

theorem Mirrors.saveRecord (mirrors : Mirrors m db) (regular : r.Regular)
    (created : ∀ old, m.get? r.id = some old → r.created = old.created) :
    (saveRecord r db).1 = (MemoryStore.save r m).1 ∧
      Mirrors (MemoryStore.save r m).2 (saveRecord r db).2 := by
  rw [Database.saveRecord, changeRecord, write, if_pos mirrors.isOpen, mirrors.any_eq,
    MemoryStore.save]
  cases stored : m.get? r.id with
  | none => exact ⟨rfl, mirrors⟩
  | some old =>
      refine ⟨rfl, mirrors.isOpen, mirrors.columns, ?_, ?_⟩
      · exact MemoryStore.keys_insert stored ▸ mirrors.distinct
      · have saved := forall₂_put mirrors.lines mirrors.distinct regular stored
          (created old stored)
        rw [← update_eq mirrors.columns] at saved
        exact saved

theorem Mirrors.deleteRecord (mirrors : Mirrors m db) :
    (deleteRecord r db).1 = (MemoryStore.delete r m).1 ∧
      Mirrors (MemoryStore.delete r m).2 (deleteRecord r db).2 := by
  rw [Database.deleteRecord, changeRecord, write, if_pos mirrors.isOpen, mirrors.any_eq,
    MemoryStore.delete]
  cases stored : m.get? r.id with
  | none => exact ⟨rfl, mirrors⟩
  | some old =>
      refine ⟨rfl, mirrors.isOpen, mirrors.columns, ?_, ?_⟩
      · exact mirrors.distinct.sublist (List.filter_sublist.map Prod.fst)
      · refine List.rel_filter ?_ mirrors.lines
        intro entry l writes
        show (entry.1 != r.id) = true ↔ (!hasId r.id l) = true
        rw [bne_iff_ne, Bool.not_eq_true', ← Bool.not_eq_true, writes.hasId_iff]

/-- A line is added for a record under an id that no line has. -/
theorem insert_recordCells {t : Table} (columns : t.columns = recordColumns)
    (free : t.lines.any (hasId r.id) = false) :
    t.insert (recordCells r) =
      .ok { t with lines := t.lines ++ [⟨t.nextNumber, recordCells r⟩] } := by
  have kept : t.keptCells (recordCells r) = recordCells r := by
    rw [Table.keptCells, columns]
    rfl
  have given : t.lacksValue (recordCells r) = false := by
    rw [Table.lacksValue, columns]
    rfl
  have unique : t.repeatsKey (recordCells r) = false := by
    have first : ∀ l : Line, (l.at 0).same (((recordCells r)[0]?).getD .null) = hasId r.id l :=
      fun l => rfl
    rw [Table.repeatsKey, columns]
    simp only [recordColumns, Column.key, Column.required, Column.identifies_of_exact,
      List.zipIdx_cons, List.zipIdx_nil, List.any_cons, List.any_nil, Bool.true_and, Bool.false_and,
      Bool.or_false, first, free]
  rw [Table.insert, kept, given, unique]
  rfl

theorem Mirrors.createRecord (mirrors : Mirrors m db) (regular : r.Regular)
    (fresh : m.get? r.id = none) :
    (createRecord r db).1 = .ok r ∧ Mirrors (m.insert r) (createRecord r db).2 := by
  have absent := MemoryStore.lookup_eq_none_iff.mp fresh
  have free : db.records.lines.any (hasId r.id) = false := by
    rw [mirrors.any_eq, fresh]
    rfl
  have created : Database.createRecord r db = (.ok r, { db with
      records := { db.records with
        lines := db.records.lines ++ [⟨db.records.nextNumber, recordCells r⟩] } }) := by
    rw [Database.createRecord, write, if_pos mirrors.isOpen, insertRecord,
      insert_recordCells mirrors.columns free]
    rfl
  rw [created]
  have put : (m.insert r).records = m.records ++ [(r.id, r)] := MemoryStore.put_of_notMem absent
  refine ⟨rfl, mirrors.isOpen, mirrors.columns, ?_, ?_⟩
  · rw [put, List.map_append, List.nodup_append]
    refine ⟨mirrors.distinct, by simp, ?_⟩
    rintro key member _ last rfl
    have same : key = r.id := List.mem_singleton.mp last
    exact absent (same ▸ member)
  · rw [put]
    exact List.rel_append mirrors.lines (.cons ⟨rfl, regular, rfl⟩ .nil)

/-! ### Pages -/

theorem Writes.isFree_eq {before : Instant} (writes : Writes entry l) (timely : before.Timely) :
    entry.2.isAvailable (before.cut 0) = isFree before.leaseText l := by
  rw [Bool.eq_iff_iff, isFree_iff writes.holds, writes.regular.isAvailable_iff timely,
    and_iff_right writes.regular.collection]

theorem compareText_of_lt {s t : String} (less : s < t) : Cell.compareText s t = .lt := by
  rw [Cell.compareText, if_pos less]

theorem compareText_of_gt {s t : String} (greater : t < s) : Cell.compareText s t = .gt := by
  have notLess : ¬ s < t := fun less => String.lt_irrefl s (String.lt_trans less greater)
  have differs : s ≠ t := fun same => String.lt_irrefl s (same ▸ greater)
  rw [Cell.compareText, if_neg notLess, if_neg differs]

theorem compareText_self {s : String} : Cell.compareText s s = .eq := by
  rw [Cell.compareText, if_neg (String.lt_irrefl s), if_pos rfl]

theorem compareText_bne_gt {s t : String} : (Cell.compareText s t != .gt) = decide (s ≤ t) := by
  by_cases after : t < s
  · rw [compareText_of_gt after, decide_eq_false (String.not_le.mpr after)]
    rfl
  · rw [decide_eq_true (String.not_lt.mp after)]
    by_cases before : s < t
    · rw [compareText_of_lt before]
      rfl
    · rw [String.le_antisymm (String.not_lt.mp after) (String.not_lt.mp before), compareText_self]
      rfl

/-- Lines come in the order of their records. -/
theorem Writes.pageOrder_eq {entry' : String × JobRecord} {l' : Line} (writes : Writes entry l)
    (writes' : Writes entry' l') :
    MemoryStore.pageOrder entry.2 entry'.2 = linePageOrder l l' := by
  have start : l.at 7 = .text entry.2.created.storedText := by rw [Line.at, writes.cells]; rfl
  have start' : l'.at 7 = .text entry'.2.created.storedText := by rw [Line.at, writes'.cells]; rfl
  have order := Instant.storedText_lt_storedText_iff writes.regular.created writes'.regular.created
  have order' := Instant.storedText_lt_storedText_iff writes'.regular.created writes.regular.created
  rw [MemoryStore.pageOrder, linePageOrder, start, start', writes.holds.id, writes'.holds.id]
  simp only [Cell.compare]
  by_cases later : entry'.2.created < entry.2.created
  · rw [if_pos later, compareText_of_gt (order'.mpr later)]
  · rw [if_neg later]
    by_cases earlier : entry.2.created < entry'.2.created
    · rw [if_pos earlier, compareText_of_lt (order.mpr earlier)]
    · rw [if_neg earlier, Instant.eq_of_not_lt earlier later, compareText_self]
      exact compareText_bne_gt.symm

/-- Sorting keeps related lists related, if it goes by what relates them. -/
theorem forall₂_mergeSort {α β : Type} {R : α → β → Prop} {le : α → α → Bool} {le' : β → β → Bool}
    {first : List α} {second : List β} (related : List.Forall₂ R first second)
    (same : ∀ a b a' b', R a b → R a' b' → le a a' = le' b b') :
    List.Forall₂ R (first.mergeSort le) (second.mergeSort le') := by
  obtain ⟨length, pairs⟩ := List.forall₂_iff_zip.mp related
  have firsts := List.map_fst_zip (Nat.le_of_eq length)
  have seconds := List.map_snd_zip (Nat.le_of_eq length.symm)
  have sorted : ((first.zip second).mergeSort fun p q => le p.1 q.1).map Prod.fst =
      first.mergeSort le := by
    have order : ∀ p, p ∈ first.zip second → ∀ q, q ∈ first.zip second →
        le p.1 q.1 = le p.1 q.1 := fun _ _ _ _ => rfl
    rw [List.map_mergeSort order, firsts]
  have sorted' : ((first.zip second).mergeSort fun p q => le p.1 q.1).map Prod.snd =
      second.mergeSort le' := by
    have order : ∀ p, p ∈ first.zip second → ∀ q, q ∈ first.zip second →
        le p.1 q.1 = le' p.2 q.2 := fun p here q there => same _ _ _ _ (pairs here) (pairs there)
    rw [List.map_mergeSort order, seconds]
  rw [← sorted, ← sorted', List.forall₂_map_left_iff, List.forall₂_map_right_iff, List.forall₂_same]
  intro pair member
  exact pairs (List.mem_mergeSort.mp member)

theorem mapM_readRecord_of_writes {records : List JobRecord}
    (written : List.Forall₂ (fun r l => Writes (r.id, r) l) records lines) :
    lines.mapM readRecord = .ok records := by
  induction written with
  | nil => rfl
  | cons writes _ ih =>
      rw [List.mapM_cons, readRecord_eq_ok.mpr writes.holds, ih]
      rfl

theorem take_asked {α : Type} {page : List α} {n : Nat} (few : page.length < Word.count 63) :
    page.take (asked n) = page.take n := by
  have most : page.length ≤ Word.count 63 - 1 := Nat.le_sub_one_of_lt few
  by_cases small : n ≤ Word.count 63 - 1
  · rw [asked, Nat.min_eq_left small]
  · have all : page.length ≤ n := Nat.le_trans most (Nat.le_of_not_le small)
    rw [asked, Nat.min_eq_right (Nat.le_of_not_le small), List.take_of_length_le most,
      List.take_of_length_le all]

theorem drop_asked {α : Type} {page : List α} {n : Nat} (few : page.length < Word.count 63) :
    page.drop (asked n) = page.drop n := by
  have most : page.length ≤ Word.count 63 - 1 := Nat.le_sub_one_of_lt few
  by_cases small : n ≤ Word.count 63 - 1
  · rw [asked, Nat.min_eq_left small]
  · have all : page.length ≤ n := Nat.le_trans most (Nat.le_of_not_le small)
    rw [asked, Nat.min_eq_right (Nat.le_of_not_le small), List.drop_of_length_le most,
      List.drop_of_length_le all]

/-- Of fewer lines than a cell can number, each page is that of the memory store at the time cut off
at its second. -/
theorem Mirrors.availableRecords_eq (mirrors : Mirrors m db) {before : Instant} (limit offset : Nat)
    (timely : before.Timely) (few : m.records.length < Word.count 63) :
    availableRecords before limit offset db =
      (.ok (m.available (before.cut 0) limit offset), db) := by
  have written : List.Forall₂ (fun r l => Writes (r.id, r) l) (m.records.map Prod.snd)
      db.records.lines := by
    rw [List.forall₂_map_left_iff]
    exact mirrors.lines.imp fun entry l writes => ⟨rfl, writes.regular, writes.cells⟩
  have free : List.Forall₂ (fun r l => Writes (r.id, r) l)
      ((m.records.map Prod.snd).filter fun r => r.isAvailable (before.cut 0))
      (db.records.lines.filter (isFree before.leaseText)) := by
    refine List.rel_filter ?_ written
    intro r l writes
    exact Bool.eq_iff_iff.mp (writes.isFree_eq timely)
  have sorted : List.Forall₂ (fun r l => Writes (r.id, r) l) (m.pageList (before.cut 0))
      (db.freeLines before) :=
    forall₂_mergeSort free fun _ _ _ _ writes writes' => writes.pageOrder_eq writes'
  have fewFree : (db.freeLines before).length < Word.count 63 := by
    rw [freeLines, List.length_mergeSort]
    exact Nat.lt_of_le_of_lt (List.length_filter_le _ _) (mirrors.lines.length_eq ▸ few)
  have fewLeft : ((db.freeLines before).drop offset).length < Word.count 63 := by
    rw [List.length_drop]
    omega
  rw [availableRecords, read, if_pos mirrors.isOpen, drop_asked fewFree, take_asked fewLeft,
    mapM_readRecord_of_writes (List.forall₂_take _ (List.forall₂_drop _ sorted))]
  rfl

end Database

end JobQueue
