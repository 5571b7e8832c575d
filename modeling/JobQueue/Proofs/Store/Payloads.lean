/-
The stored payloads.

`Shelf.payload?` is the payload that a store keeps under an id, if it keeps a record there. A store
carries its payloads (`Shelf.Carries`) if a new record and a saved one are kept with the payload
that they have, a look-up and a page change nothing, and a record that one of them shows has the
payload kept under its id. The memory store does so where each record stands under its own id
(`MemoryStore.carries`), a database does so where no two lines have one id (`Database.carries`), and
so does a store that does what another does or fails (`Shelf.Carries.mayFail`).
-/

import JobQueue.Proofs.Store.Equivalence
import JobQueue.Proofs.Store.Page

namespace JobQueue

variable {W C α : Type}

/-! ### Calls that may fail -/

/-- A call that does what another does, after changes that do not matter, or that fails with no more
than such changes. -/
def StoreCall.MayFail (harmless : W → W → Prop) (base call : StoreCall W α) : Prop :=
  ∀ w, (∃ w₀, harmless w w₀ ∧ call w = base w₀) ∨
    ∃ fault w', harmless w w' ∧ call w = (.error fault, w')

/-- A store each of whose calls does what that of another does or fails. -/
structure RecordStore.MayFail (harmless : W → W → Prop) (base records : RecordStore W) : Prop where
  create : ∀ new, StoreCall.MayFail harmless (base.create new) (records.create new)
  find : ∀ id, StoreCall.MayFail harmless (base.find id) (records.find id)
  save : ∀ r, StoreCall.MayFail harmless (base.save r) (records.save r)
  delete : ∀ r, StoreCall.MayFail harmless (base.delete r) (records.delete r)
  available : ∀ before limit offset,
    StoreCall.MayFail harmless (base.available before limit offset)
      (records.available before limit offset)

/-- A call that never fails of itself is one that may fail. -/
theorem StoreCall.MayFail.self {harmless : W → W → Prop} (refl : ∀ w, harmless w w)
    (call : StoreCall W α) : StoreCall.MayFail harmless call call :=
  fun w => .inl ⟨w, refl w, rfl⟩

theorem RecordStore.MayFail.self {harmless : W → W → Prop} (refl : ∀ w, harmless w w)
    (records : RecordStore W) : RecordStore.MayFail harmless records records where
  create := fun _ => .self refl _
  find := fun _ => .self refl _
  save := fun _ => .self refl _
  delete := fun _ => .self refl _
  available := fun _ _ _ => .self refl _

namespace Shelf

variable {shelf : Shelf W C} {payload : C → String} {new : NewJobRecord} {r : JobRecord}
  {id : String} {w w' w₀ : W} {harmless : W → W → Prop}

/-- The payload that is kept under an id. -/
def payload? (shelf : Shelf W C) (payload : C → String) (w : W) (id : String) : Option String :=
  (shelf.cell w id).map payload

/-- What comes of a call that is to make a record: a record with the payload given, which is kept
under its id, or no change. -/
inductive Creation (shelf : Shelf W C) (payload : C → String) (new : NewJobRecord) (w : W) :
    Except (Fault StoreError) JobRecord × W → Prop where
  | made {r : JobRecord} {w' : W} (text : r.payload = new.payload)
      (here : shelf.payload? payload w' r.id = some new.payload)
      (elsewhere : shelf.SameBut r.id w w') : Creation shelf payload new w (.ok r, w')
  | failed {fault : Fault StoreError} {w' : W} (same : shelf.Same w w') :
      Creation shelf payload new w (.error fault, w')

/-- New and saved records are kept with their payloads, look-ups and pages change nothing, and a
record that is shown has the payload that is kept under its id. -/
structure Carries (shelf : Shelf W C) (payload : C → String) (records : RecordStore W) : Prop
    extends shelf.Keeps records where
  written : ∀ r c, payload (shelf.written r c) = r.payload
  create : ∀ new w, shelf.Good w → shelf.Creation payload new w (records.create new w)
  looking : ∀ id w, shelf.Good w → shelf.Same w (records.find id w).2
  missed : ∀ id w, shelf.Good w → (records.find id w).1 = .ok none → shelf.cell w id = none
  found : ∀ id w r, shelf.Good w → (records.find id w).1 = .ok (some r) →
    r.id = id ∧ shelf.payload? payload w id = some r.payload
  paging : ∀ before limit offset w, shelf.Good w →
    shelf.Same w (records.available before limit offset w).2
  shown : ∀ before limit offset w page, shelf.Good w →
    (records.available before limit offset w).1 = .ok page →
      ∀ r ∈ page, shelf.payload? payload w r.id = some r.payload

theorem payload?_eq_none_iff : shelf.payload? payload w id = none ↔ shelf.cell w id = none :=
  Option.map_eq_none_iff

theorem Same.payload? (same : shelf.Same w w') :
    shelf.payload? payload w' id = shelf.payload? payload w id := by
  rw [Shelf.payload?, same.cell, Shelf.payload?]

theorem SameBut.payload? {own : String} (elsewhere : shelf.SameBut own w w') (other : id ≠ own) :
    shelf.payload? payload w' id = shelf.payload? payload w id := by
  rw [Shelf.payload?, elsewhere.cell id other, Shelf.payload?]

/-- Where a record is made a little later, it comes to the same. -/
theorem Creation.after {result : Except (Fault StoreError) JobRecord × W}
    (creation : shelf.Creation payload new w₀ result) (same : shelf.Same w w₀) :
    shelf.Creation payload new w result := by
  cases creation with
  | made text here elsewhere =>
      refine .made text here ⟨fun good => elsewhere.good (same.good good), fun other differs => ?_⟩
      rw [elsewhere.cell other differs, same.cell]
  | failed same' => exact .failed (same.trans same')

/-- A store whose calls may fail carries its payloads as well. -/
theorem Carries.mayFail {base records : RecordStore W} (carries : shelf.Carries payload base)
    (calm : ∀ w w', harmless w w' → shelf.Same w w')
    (mayFail : RecordStore.MayFail harmless base records) : shelf.Carries payload records where
  save := by
    intro r w good
    rcases mayFail.save r w with ⟨w₀, same, does⟩ | ⟨fault, w', same, fails⟩
    · rw [does]
      exact (carries.save r w₀ ((calm _ _ same).good good)).after (calm _ _ same)
    · exact fails ▸ .failed (calm _ _ same)
  delete := by
    intro r w good
    rcases mayFail.delete r w with ⟨w₀, same, does⟩ | ⟨fault, w', same, fails⟩
    · rw [does]
      exact (carries.delete r w₀ ((calm _ _ same).good good)).after (calm _ _ same)
    · exact fails ▸ .failed (calm _ _ same)
  written := carries.written
  create := by
    intro new w good
    rcases mayFail.create new w with ⟨w₀, same, does⟩ | ⟨fault, w', same, fails⟩
    · rw [does]
      exact (carries.create new w₀ ((calm _ _ same).good good)).after (calm _ _ same)
    · exact fails ▸ .failed (calm _ _ same)
  looking := by
    intro id w good
    rcases mayFail.find id w with ⟨w₀, same, does⟩ | ⟨fault, w', same, fails⟩
    · rw [does]
      exact (calm _ _ same).trans (carries.looking id w₀ ((calm _ _ same).good good))
    · exact fails ▸ calm _ _ same
  missed := by
    intro id w good missed
    rcases mayFail.find id w with ⟨w₀, same, does⟩ | ⟨fault, w', same, fails⟩
    · rw [does] at missed
      rw [← (calm _ _ same).cell]
      exact carries.missed id w₀ ((calm _ _ same).good good) missed
    · simp [fails] at missed
  found := by
    intro id w r good found
    rcases mayFail.find id w with ⟨w₀, same, does⟩ | ⟨fault, w', same, fails⟩
    · rw [does] at found
      rw [← (calm _ _ same).payload?]
      exact carries.found id w₀ r ((calm _ _ same).good good) found
    · simp [fails] at found
  paging := by
    intro before limit offset w good
    rcases mayFail.available before limit offset w with
      ⟨w₀, same, does⟩ | ⟨fault, w', same, fails⟩
    · rw [does]
      exact (calm _ _ same).trans
        (carries.paging before limit offset w₀ ((calm _ _ same).good good))
    · exact fails ▸ calm _ _ same
  shown := by
    intro before limit offset w page good shown r member
    rcases mayFail.available before limit offset w with
      ⟨w₀, same, does⟩ | ⟨fault, w', same, fails⟩
    · rw [does] at shown
      rw [← (calm _ _ same).payload?]
      exact carries.shown before limit offset w₀ page ((calm _ _ same).good good) shown r member
    · simp [fails] at shown

end Shelf

/-! ### Records in memory -/

namespace MemoryStore

variable {m : MemoryStore} {place : Part W MemoryStore} {nature : Part W Nature}
  {before : Instant} {limit offset : Nat} {r : JobRecord}

theorem Orderly.get?_of_mem_available (orderly : m.Orderly)
    (member : r ∈ m.available before limit offset) : m.get? r.id = some r := by
  have listed := List.mem_of_mem_drop (List.mem_of_mem_take member)
  exact (orderly.mem_pageList_iff.mp listed).1

/-- An orderly memory store carries its payloads. -/
theorem carries (beside : place.Beside nature) :
    (orderlyShelf place fun _ => True).Carries JobRecord.payload (recordStore place nature) where
  toKeeps := (orderly_reliable beside.first fun _ _ _ => trivial).toKeeps
  written := fun _ _ => rfl
  create := by
    intro new w ⟨_, orderly⟩
    obtain ⟨made, stored, _⟩ := created beside new w
    generalize (recordStore place nature).create new w = result at made stored
    obtain ⟨answer, w'⟩ := result
    dsimp only at made stored
    subst made
    refine .made rfl ?_ ⟨fun _ => ⟨trivial, ?_⟩, fun other differs => ?_⟩
    · simp [Shelf.payload?, orderlyShelf, shelf, stored, Nature.next, NewJobRecord.toRecord]
    · rw [stored]
      exact orderly.insert
    · simp [orderlyShelf, shelf, stored, differs]
  looking := fun _ _ _ => .refl
  missed := by
    intro id w _ missed
    simpa [recordStore, orderlyShelf, shelf] using missed
  found := by
    intro id w r ⟨_, orderly⟩ found
    have stored : (place.get w).get? id = some r := by simpa [recordStore] using found
    exact ⟨orderly.keyed.id_eq stored, congrArg (Option.map JobRecord.payload) stored⟩
  paging := fun _ _ _ _ _ => .refl
  shown := by
    intro before limit offset w page ⟨_, orderly⟩ shown r member
    have same : (place.get w).available before limit offset = page := by
      simpa [recordStore] using shown
    have stored := orderly.get?_of_mem_available (same ▸ member)
    exact congrArg (Option.map JobRecord.payload) stored

end MemoryStore

/-! ### Records in a database -/

namespace Database

variable {db db' : Database} {t t' : Table} {l : Line} {r : JobRecord} {id : String}
  {place : Part W Database} {nature : Part W Nature}

/-- The payload in a line. -/
def Line.payload (l : Line) : String :=
  match l.at 4 with
  | .text s => s
  | _ => ""

theorem Line.Holds.payload_eq (holds : l.Holds r) : l.payload = r.payload := by
  rw [Line.payload, holds.payload]

/-- Each line that has an id is the one that is found under it. -/
def Keyed (db : Database) : Prop :=
  ∀ l ∈ db.records.lines, ∀ id, hasId id l = true → db.records.lines.find? (hasId id) = some l

theorem eq_of_hasId {other : String} (first : hasId id l = true) (second : hasId other l = true) :
    other = id :=
  Decidable.byContradiction fun differs => by
    rw [not_hasId differs first] at second
    cases second

theorem Keyed.update (keyed : db.Keyed) (columns : db.records.columns = recordColumns) :
    Keyed { db with records := db.records.update (hasId r.id) (savedCells r) } := by
  intro l' member id own
  dsimp only at member ⊢
  rw [update_eq columns] at member ⊢
  obtain ⟨l, there, rfl⟩ := List.mem_map.mp member
  rw [find?_update]
  by_cases meant : hasId r.id l = true
  · rw [if_pos meant] at own ⊢
    rw [eq_of_hasId (hasId_savedLine meant) own, if_pos rfl, keyed l there _ meant, Option.map_some]
  · rw [if_neg meant] at own ⊢
    have differs : id ≠ r.id := fun same => meant (same ▸ own)
    rw [if_neg differs]
    exact keyed l there id own

theorem Keyed.erase (keyed : db.Keyed) :
    Keyed { db with records := db.records.erase (hasId r.id) } := by
  intro l member id own
  obtain ⟨there, other⟩ := List.mem_filter.mp member
  have differs : id ≠ r.id := by
    rintro rfl
    simp [own] at other
  show (db.records.lines.filter fun l => !hasId r.id l).find? (hasId id) = some l
  rw [find?_erase, if_neg differs]
  exact keyed l there id own

/-- A line that is added holds the record, and no line has its id. -/
theorem of_insert_recordCells (columns : t.columns = recordColumns)
    (added : t.insert (recordCells r) = .ok t') : t.lines.any (hasId r.id) = false ∧
      t' = { t with lines := t.lines ++ [⟨t.nextNumber, recordCells r⟩] } := by
  cases taken : t.lines.any (hasId r.id) with
  | false =>
      rw [insert_recordCells columns taken] at added
      exact ⟨rfl, (Except.ok.inj added).symm⟩
  | true =>
      have repeats : t.repeatsKey (t.keptCells (recordCells r)) = true := by
        have kept : t.keptCells (recordCells r) = recordCells r := by
          rw [Table.keptCells, columns]
          rfl
        have first : ∀ l : Line, (l.at 0).same (((recordCells r)[0]?).getD .null) = hasId r.id l :=
          fun l => rfl
        rw [kept, Table.repeatsKey, columns]
        simp only [recordColumns, Column.key, Column.identifies_of_exact, List.zipIdx_cons,
          List.any_cons, Bool.true_and, first, taken, Bool.true_or]
      rw [Table.insert, repeats] at added
      split at added <;> cases added

/-- What comes of writing a new record. -/
theorem createRecord_cases (columns : db.records.columns = recordColumns) :
    ((createRecord r db).1 = .ok r ∧ db.records.lines.any (hasId r.id) = false ∧
      (createRecord r db).2 = { db with records := { db.records with
        lines := db.records.lines ++ [⟨db.records.nextNumber, recordCells r⟩] } }) ∨
    ((∃ e, (createRecord r db).1 = .error e) ∧ (createRecord r db).2 = db) := by
  rw [createRecord, write]
  split
  next =>
    cases added : db.records.insert (recordCells r) with
    | error e =>
        rw [insertRecord, added]
        exact .inr ⟨⟨e, rfl⟩, rfl⟩
    | ok t =>
        obtain ⟨free, rfl⟩ := of_insert_recordCells columns added
        rw [insertRecord, added]
        exact .inl ⟨rfl, free, rfl⟩
  next => exact .inr ⟨⟨_, rfl⟩, rfl⟩

theorem hasId_recordCells {number : Int} :
    hasId id (Line.mk number (recordCells r)) = true ↔ r.id = id := by
  rw [hasId_iff, ← Cell.text.injEq]
  rfl

theorem find?_added {lines : List Line} {number : Int} (free : lines.any (hasId r.id) = false) :
    (lines ++ [Line.mk number (recordCells r)]).find? (hasId id) =
      if id = r.id then some ⟨number, recordCells r⟩ else lines.find? (hasId id) := by
  rw [List.find?_append]
  split
  next own =>
    subst own
    rw [any_hasId, Option.isSome_eq_false_iff, Option.isNone_iff_eq_none] at free
    rw [free, Option.none_or, List.find?_cons_of_pos (hasId_recordCells.mpr rfl)]
  next other =>
    rw [List.find?_cons_of_neg (by simpa [hasId_recordCells] using Ne.symm other), List.find?_nil,
      Option.or_none]

theorem Keyed.added (keyed : db.Keyed) {number : Int}
    (free : db.records.lines.any (hasId r.id) = false) :
    Keyed { db with records := { db.records with
      lines := db.records.lines ++ [⟨number, recordCells r⟩] } } := by
  intro l member id own
  dsimp only at member ⊢
  rw [find?_added free]
  rcases List.mem_append.mp member with old | new
  · have differs : id ≠ r.id := by
      rintro rfl
      rw [List.any_eq_false] at free
      exact free l old own
    rw [if_neg differs]
    exact keyed l old id own
  · obtain rfl := List.mem_singleton.mp new
    rw [if_pos (hasId_recordCells.mp own).symm]

/-- The lines of the table of records where no two have one id. -/
def keyedShelf (place : Part W Database) : Shelf W Line :=
  { shelf place with Good := fun w => (shelf place).Good w ∧ (place.get w).Keyed }

theorem same_of_records {w w' : W} (kept : (place.get w').records = (place.get w).records) :
    (keyedShelf place).Same w w' := by
  constructor
  · rintro ⟨columns, keyed⟩
    refine ⟨(congrArg Table.columns kept).trans columns, ?_⟩
    rw [Keyed, kept]
    exact keyed
  · intro id
    exact congrArg (·.lines.find? (hasId id)) kept

theorem same_of_get {w w' : W} (kept : place.get w' = place.get w) :
    (keyedShelf place).Same w w' := same_of_records (congrArg records kept)

theorem keyed_changeRecord {change : Table → Table} (keyed : db.Keyed)
    (kept : Keyed { db with records := change db.records }) :
    (changeRecord id change db).2.Keyed := by
  rw [changeRecord, write]
  split
  next =>
    cases db.records.lines.any (hasId id) with
    | true => exact kept
    | false => exact keyed
  next => exact keyed

/-- A step on the database with the time that is read and the id that is made before it. -/
def stamped (place : Part W Database) (nature : Part W Nature)
    (step : String → Instant → Database → Except StoreError α × Database) : StoreCall W α :=
  fun w =>
  let (now, w) := nature.use Nature.now w
  let (id, w) := nature.use Nature.fresh w
  place.answer (step id now) w

theorem stamped_spec (beside : place.Beside nature)
    (step : String → Instant → Database → Except StoreError α × Database) (w : W) :
    ∃ result, step ((nature.get w).ids (nature.get w).made)
        ((nature.get w).readings (nature.get w).read) (place.get w) = result ∧
      (stamped place nature step w).1 = result.1.mapError Fault.error ∧
      place.get (stamped place nature step w).2 = result.2 ∧
      nature.get (stamped place nature step w).2 = (nature.get w).spent := by
  refine ⟨_, rfl, ?_⟩
  simp [stamped, Part.use, Part.answer, Nature.fresh, Nature.now, beside.first _ _,
    beside.second _ _, beside.firstKept, beside.secondKept, Nature.spent]

theorem recordStore_create_eq {new : NewJobRecord} : (recordStore place nature).create new =
    stamped place nature fun id now => createRecord (new.toRecord id now.toMicro) := by
  funext w
  simp only [recordStore, stamped]

/-- What is done to the database when a record is made under the next id. -/
theorem recordStore_create (beside : place.Beside nature) (new : NewJobRecord) (w : W) :
    ∃ r, r.id = (nature.get w).ids (nature.get w).made ∧ r.payload = new.payload ∧
      ((recordStore place nature).create new w).1 =
        (createRecord r (place.get w)).1.mapError Fault.error ∧
      place.get ((recordStore place nature).create new w).2 = (createRecord r (place.get w)).2 ∧
      nature.get ((recordStore place nature).create new w).2 = (nature.get w).spent := by
  rw [recordStore_create_eq]
  obtain ⟨result, same, called⟩ := stamped_spec beside
    (fun id now => createRecord (new.toRecord id now.toMicro)) w
  exact ⟨new.toRecord _ _, rfl, rfl, same ▸ called⟩

theorem holds_of_mapM {lines : List Line} {page : List JobRecord}
    (read : lines.mapM readRecord = .ok page) (member : r ∈ page) : ∃ l ∈ lines, l.Holds r := by
  induction lines generalizing page with
  | nil =>
      cases read
      cases member
  | cons first rest ih =>
      rw [List.mapM_cons, bind_eq_ok] at read
      obtain ⟨s, held, read⟩ := read
      obtain ⟨others, later, same⟩ := bind_eq_ok.mp read
      cases same
      rcases List.mem_cons.mp member with rfl | there
      · exact ⟨first, List.mem_cons_self, readRecord_eq_ok.mp held⟩
      · obtain ⟨l, inside, holds⟩ := ih later there
        exact ⟨l, List.mem_cons_of_mem _ inside, holds⟩

theorem holds_of_availableRecords {before : Instant} {limit offset : Nat} {page : List JobRecord}
    (answered : (availableRecords before limit offset db).1 = .ok page) (member : r ∈ page) :
    ∃ l ∈ db.records.lines, l.Holds r := by
  rw [availableRecords, read] at answered
  dsimp only at answered
  split at answered
  next =>
    obtain ⟨l, listed, holds⟩ := holds_of_mapM answered member
    exact ⟨l, (mem_freeLines.mp (List.mem_of_mem_drop (List.mem_of_mem_take listed))).1, holds⟩
  next => cases answered

/-- A database where no two lines have one id carries its payloads. -/
theorem carries (beside : place.Beside nature) :
    (keyedShelf place).Carries Line.payload (recordStore place nature) where
  save := by
    intro r w ⟨good, keyed⟩
    refine ((keeps beside.first).save r w good).withGood fun _ => ⟨?_, ?_⟩
    · exact ((keeps beside.first).save r w good).elsewhere.good good
    · have after : place.get ((recordStore place nature).save r w).2 =
          (saveRecord r (place.get w)).2 := beside.first _ w
      rw [after]
      exact keyed_changeRecord keyed (keyed.update good)
  delete := by
    intro r w ⟨good, keyed⟩
    refine ((keeps beside.first).delete r w good).withGood fun _ => ⟨?_, ?_⟩
    · exact ((keeps beside.first).delete r w good).elsewhere.good good
    · have after : place.get ((recordStore place nature).delete r w).2 =
          (deleteRecord r (place.get w)).2 := beside.first _ w
      rw [after]
      exact keyed_changeRecord keyed keyed.erase
  written := fun _ _ => rfl
  create := by
    intro new w ⟨columns, keyed⟩
    obtain ⟨r, _, text, answered, stored, _⟩ := recordStore_create beside new w
    generalize (recordStore place nature).create new w = result at answered stored
    obtain ⟨answer, w'⟩ := result
    dsimp only at answered stored
    rcases createRecord_cases (r := r) columns with ⟨made, free, grown⟩ | ⟨⟨e, failed⟩, same⟩
    · rw [made] at answered
      rw [grown] at stored
      subst answered
      refine .made text ?_ ⟨fun _ => ⟨?_, ?_⟩, fun other differs => ?_⟩
      · simp only [Shelf.payload?, keyedShelf, shelf, stored, find?_added free, if_pos,
          Option.map_some]
        exact congrArg some text
      · simp only [shelf, stored]
        exact columns
      · rw [stored]
        exact keyed.added free
      · simp only [keyedShelf, shelf, stored, find?_added free, if_neg differs]
    · rw [failed] at answered
      rw [same] at stored
      subst answered
      exact .failed (same_of_get stored)
  looking := fun _ w _ => same_of_get (beside.first _ w)
  missed := by
    intro id w _ missed
    have answered := Part.answer_eq_ok.mp missed
    rw [findRecord, read] at answered
    dsimp only at answered
    split at answered
    next =>
      cases there : (place.get w).records.lines.find? (hasId id) with
      | none => exact there
      | some l =>
          rw [there] at answered
          dsimp only at answered
          cases held : readRecord l <;> rw [held] at answered <;> cases answered
    next => cases answered
  found := by
    intro id w r _ found
    obtain ⟨l, there, holds, own⟩ := of_findRecord (Part.answer_eq_ok.mp found)
    refine ⟨own, ?_⟩
    rw [← holds.payload_eq]
    exact congrArg (Option.map Line.payload) there
  paging := fun _ _ _ w _ => same_of_get (beside.first _ w)
  shown := by
    intro before limit offset w page ⟨_, keyed⟩ shown r member
    obtain ⟨l, there, holds⟩ := holds_of_availableRecords (Part.answer_eq_ok.mp shown) member
    rw [← holds.payload_eq]
    exact congrArg (Option.map Line.payload) (keyed l there r.id (hasId_iff.mpr holds.id))

end Database

end JobQueue
