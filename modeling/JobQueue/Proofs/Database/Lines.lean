/-
Lines of the table of records and what they tell.

A line holds a record if each of its cells holds what the column should (`readRecord_eq_ok`).
Whether a scan may take the record of such a line is then a matter of its collection and of the
spelling of its lease (`isFree_iff`). Where every line holds a record, every page is given
(`availableRecords_of_readable`), and one that is long enough holds just the records of the lines
that a scan may take (`availableRecords_whole`).
-/

import JobQueue.Proofs.Database.Records
import JobQueue.Proofs.Record.Attempts

namespace JobQueue.Database

variable {l : Line} {r : JobRecord} {cell : Cell} {column id s text : String}

/-! ### Cells -/

theorem readText_eq_ok : readText column cell = .ok s ↔ cell = .text s := by
  cases cell <;> simp [readText]

theorem readInt_eq_ok {n : Int} : readInt column cell = .ok n ↔ cell = .int n := by
  cases cell <;> simp [readInt]

theorem countBelow_eq_ok {bound count : Nat} {n : Int} :
    countBelow bound id column n = .ok count ↔ n = count ∧ count < bound := by
  unfold countBelow
  split
  next inside =>
    rw [Except.ok.injEq]
    omega
  next outside =>
    refine iff_of_false (by simp) fun both => outside ?_
    omega

theorem storedTime_eq_ok {t : Instant} :
    storedTime id column text = .ok t ↔ Time.strict? text = some t := by
  unfold storedTime Time.strict?
  cases Time.readStrict text <;> simp [Except.toOption]

theorem bind_eq_ok {α β : Type} {first : Except StoreError α} {next : α → Except StoreError β}
    {b : β} : first >>= next = .ok b ↔ ∃ a, first = .ok a ∧ next a = .ok b := by
  cases first <;> simp [bind, Except.bind]

theorem less_text {a b : String} : (Cell.text a).less (.text b) = true ↔ a < b := by
  simp only [Cell.less, Cell.isNull, Cell.compare, Cell.compareText]
  by_cases before : a < b
  · rw [if_pos before]
    exact iff_of_true rfl before
  · rw [if_neg before]
    refine iff_of_false ?_ before
    split <;> decide

/-! ### Records -/

/-- What the cells of a line are that holds a record. -/
structure Line.Holds (l : Line) (r : JobRecord) : Prop where
  id : l.at 0 = .text r.id
  collection : l.at 1 = .text r.collection
  name : l.at 2 = .text r.name
  description : l.at 3 = .text r.description
  payload : l.at 4 = .text r.payload
  attempts : l.at 5 = .int r.attempts.toNat
  reservedAt : l.at 6 = .text r.reservedAt
  created : ∃ text, l.at 7 = .text text ∧ Time.strict? text = some r.created
  updated : ∃ text, l.at 8 = .text text ∧ Time.strict? text = some r.updated

theorem readRecord_eq_ok : readRecord l = .ok r ↔ l.Holds r := by
  unfold readRecord
  simp only [bind_eq_ok, readText_eq_ok, readInt_eq_ok, countBelow_eq_ok, storedTime_eq_ok,
    Except.ok.injEq]
  constructor
  · rintro ⟨id, here, collection, here₁, name, here₂, description, here₃, payload, here₄, n, here₅,
      reservedAt, here₆, created, here₇, updated, here₈, attempts, ⟨rfl, bounded⟩, start, began,
      change, changed, rfl⟩
    rw [← JobRecord.toNat_ofNat_of_lt bounded] at here₅
    exact ⟨here, here₁, here₂, here₃, here₄, here₅, here₆, ⟨created, here₇, began⟩,
      ⟨updated, here₈, changed⟩⟩
  · rintro ⟨here, here₁, here₂, here₃, here₄, here₅, here₆, ⟨created, here₇, began⟩,
      ⟨updated, here₈, changed⟩⟩
    refine ⟨_, here, _, here₁, _, here₂, _, here₃, _, here₄, _, here₅, _, here₆, _, here₇, _, here₈,
      _, ⟨rfl, r.attempts_lt⟩, _, began, _, changed, ?_⟩
    rw [UInt32.ofNat_toNat]

/-- The record that is found under an id is the one that the line with the id holds. -/
theorem of_findRecord {db : Database} (found : (findRecord id db).1 = .ok (some r)) :
    ∃ l, db.records.lines.find? (hasId id) = some l ∧ l.Holds r ∧ r.id = id := by
  rw [findRecord, read] at found
  dsimp only at found
  split at found
  · split at found
    next l there =>
      cases held : readRecord l with
      | error e => simp [held, Except.map] at found
      | ok r' =>
          simp only [held, Except.map, Except.ok.injEq, Option.some.injEq] at found
          subst found
          have holds := readRecord_eq_ok.mp held
          have own := holds.id.symm.trans (hasId_iff.mp (List.find?_some there))
          exact ⟨l, there, holds, Cell.text.inj own⟩
    next => simp at found
  · simp at found

/-- A scan may take a record of the queue whose lease is empty or spelt before a text. -/
theorem isFree_iff {before : String} (holds : l.Holds r) : isFree before l = true ↔
    r.collection = queueCollection ∧ (r.reservedAt = "" ∨ r.reservedAt < before) := by
  rw [isFree, Bool.and_eq_true, Bool.or_eq_true, Cell.same_text, Cell.same_text, holds.collection,
    holds.reservedAt, less_text, Cell.text.injEq, Cell.text.injEq]

/-! ### Pages -/

/-- Every line of the table holds a record. -/
def Readable (db : Database) : Prop := ∀ l ∈ db.records.lines, ∃ r, l.Holds r

theorem mapM_readRecord {lines : List Line} (readable : ∀ l ∈ lines, ∃ r, l.Holds r) :
    ∃ page, lines.mapM readRecord = .ok page ∧ ∀ r, r ∈ page ↔ ∃ l ∈ lines, l.Holds r := by
  induction lines with
  | nil => exact ⟨[], rfl, by simp⟩
  | cons l rest ih =>
      obtain ⟨first, holds⟩ := readable l List.mem_cons_self
      obtain ⟨page, read, members⟩ := ih fun l member => readable l (List.mem_cons_of_mem _ member)
      have only : ∀ r, l.Holds r ↔ r = first := fun r => by
        rw [← readRecord_eq_ok, readRecord_eq_ok.mpr holds, Except.ok.injEq, eq_comm]
      refine ⟨first :: page, ?_, fun r => ?_⟩
      · rw [List.mapM_cons, readRecord_eq_ok.mpr holds, read]
        rfl
      · simp only [List.mem_cons, members, exists_eq_or_imp, only]

theorem mem_freeLines {db : Database} {before : Instant} : l ∈ db.freeLines before ↔
    l ∈ db.records.lines ∧ isFree before.leaseText l = true := by
  rw [freeLines, List.mem_mergeSort, List.mem_filter]

/-- An open database whose lines are in order gives every page. -/
theorem availableRecords_of_readable {db : Database} (isOpen : db.isOpen = true)
    (readable : db.Readable) (before : Instant) (limit offset : Nat) :
    ∃ page, (availableRecords before limit offset db).1 = .ok page ∧ ∀ r, r ∈ page ↔
      ∃ l ∈ ((db.freeLines before).drop (asked offset)).take (asked limit), l.Holds r := by
  have held : ∀ l ∈ ((db.freeLines before).drop (asked offset)).take (asked limit),
      ∃ r, l.Holds r := by
    intro l member
    exact readable l (mem_freeLines.mp (List.mem_of_mem_drop (List.mem_of_mem_take member))).1
  obtain ⟨page, answered, found⟩ := mapM_readRecord held
  refine ⟨page, ?_, found⟩
  rw [availableRecords, read, if_pos isOpen, answered]

/-- A page that is long enough holds the records of all lines that a scan may take. -/
theorem availableRecords_whole {db : Database} {limit : Nat} (isOpen : db.isOpen = true)
    (readable : db.Readable) (before : Instant)
    (enough : db.records.lines.length ≤ asked limit) :
    ∃ page, (availableRecords before limit 0 db).1 = .ok page ∧
      ∀ r, r ∈ page ↔ ∃ l ∈ db.records.lines, l.Holds r ∧ isFree before.leaseText l = true := by
  have all : (db.freeLines before).length ≤ asked limit := by
    rw [freeLines, List.length_mergeSort]
    exact Nat.le_trans (List.length_filter_le _ _) enough
  have first : asked 0 = 0 := Nat.zero_min _
  obtain ⟨page, answered, found⟩ := availableRecords_of_readable isOpen readable before limit 0
  refine ⟨page, answered, ?_⟩
  intro r
  rw [found, first, List.drop_zero, List.take_of_length_le all]
  constructor
  · rintro ⟨l, member, holds⟩
    exact ⟨l, (mem_freeLines.mp member).1, holds, (mem_freeLines.mp member).2⟩
  · rintro ⟨l, member, holds, free⟩
    exact ⟨l, mem_freeLines.mpr ⟨member, free⟩, holds⟩

end JobQueue.Database
