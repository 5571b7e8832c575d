/-
Records, files and new ids together.

An archive tells of a world with stores what is kept under each id and with which payload, which ids
are still to come, and which jobs have a file. From one state of it to a later one (`Onward`) new
ids are used up and files are added, and what is kept under an id that has been used keeps its
payload until it goes for good; where the payload is of a wanted kind, it goes only if there is a
file. Calls of the stores lead onward: look-ups and pages always, a save if its record has the
payload that is kept (`Serves.onward_save`), a delete if there is a file where one is wanted
(`Serves.onward_delete`), and a new record is kept under an id that was still to come
(`Serves.created`).
-/

import JobQueue.Export.File
import JobQueue.Proofs.Store.Payloads

namespace JobQueue

variable {W C : Type}

/-- What is told of a world with stores of records and of files. -/
structure Archive (W C : Type) extends Shelf W C where
  /-- The payload of what is kept. -/
  payload : C → String
  /-- Whether what stands beside the records is in order. -/
  IsTidy : W → Prop
  /-- Whether an id is still to come. -/
  IsFresh : W → String → Prop
  /-- Whether a job has a file. -/
  HasFile : W → String → Prop

namespace Archive

variable {archive : Archive W C} {wanted : String → Prop} {w w' w₀ : W} {id text : String}
  {r : JobRecord}

/-- The payload that is kept under an id. -/
def text? (archive : Archive W C) (w : W) (id : String) : Option String :=
  archive.toShelf.payload? archive.payload w id

/-- The stores are in order, and nothing is kept under an id that is still to come. -/
structure Sound (archive : Archive W C) (w : W) : Prop where
  good : archive.Good w
  tidy : archive.IsTidy w
  vacant : ∀ id, archive.IsFresh w id → archive.cell w id = none

/-- Beside the records no more has happened than that ids have been used and files added. -/
structure Aside (archive : Archive W C) (w w' : W) : Prop where
  tidy : archive.IsTidy w → archive.IsTidy w'
  fresh : ∀ id, archive.IsFresh w' id → archive.IsFresh w id
  files : ∀ id, archive.HasFile w id → archive.HasFile w' id

/-- The records are as they were, and beside them no more has happened than may happen there. -/
structure Spared (archive : Archive W C) (w w' : W) : Prop where
  same : archive.toShelf.Same w w'
  aside : archive.Aside w w'

/-- From one state of an archive to a later one: a payload that is kept under a used id stays until
it goes for good, and where it is wanted, a file is there when it has gone. -/
structure Onward (archive : Archive W C) (wanted : String → Prop) (w w' : W) : Prop where
  sound : archive.Sound w'
  fresh : ∀ id, archive.IsFresh w' id → archive.IsFresh w id
  files : ∀ id, archive.HasFile w id → archive.HasFile w' id
  kept : ∀ id, ¬ archive.IsFresh w id → archive.text? w' id = archive.text? w id ∨
    archive.text? w' id = none ∧
      ∀ text, archive.text? w id = some text → wanted text → archive.HasFile w' id

theorem Aside.refl : archive.Aside w w := ⟨fun tidy => tidy, fun _ fresh => fresh, fun _ has => has⟩

theorem Aside.trans (first : archive.Aside w w₀) (second : archive.Aside w₀ w') :
    archive.Aside w w' where
  tidy := fun tidy => second.tidy (first.tidy tidy)
  fresh := fun id fresh => first.fresh id (second.fresh id fresh)
  files := fun id has => second.files id (first.files id has)

theorem Spared.refl : archive.Spared w w := ⟨.refl, .refl⟩

theorem Sound.spared (sound : archive.Sound w) (spared : archive.Spared w w') :
    archive.Sound w' where
  good := spared.same.good sound.good
  tidy := spared.aside.tidy sound.tidy
  vacant := fun id fresh =>
    (spared.same.cell id).trans (sound.vacant id (spared.aside.fresh id fresh))

theorem Sound.not_fresh (sound : archive.Sound w) (kept : archive.text? w id = some text) :
    ¬ archive.IsFresh w id := by
  intro fresh
  rw [text?, Shelf.payload?, sound.vacant id fresh] at kept
  cases kept

theorem Onward.refl (sound : archive.Sound w) : archive.Onward wanted w w :=
  ⟨sound, fun _ fresh => fresh, fun _ has => has, fun _ _ => .inl rfl⟩

theorem Onward.trans (first : archive.Onward wanted w w₀) (second : archive.Onward wanted w₀ w') :
    archive.Onward wanted w w' where
  sound := second.sound
  fresh := fun id fresh => first.fresh id (second.fresh id fresh)
  files := fun id has => second.files id (first.files id has)
  kept := by
    intro id used
    have used₀ : ¬ archive.IsFresh w₀ id := fun fresh => used (first.fresh id fresh)
    rcases first.kept id used with same | ⟨gone, filed⟩
    · exact same ▸ second.kept id used₀
    · refine .inr ⟨?_, fun text kept want => second.files id (filed text kept want)⟩
      rcases second.kept id used₀ with same' | ⟨gone', _⟩
      · exact same'.trans gone
      · exact gone'

theorem Onward.of_spared (sound : archive.Sound w) (spared : archive.Spared w w') :
    archive.Onward wanted w w' where
  sound := sound.spared spared
  fresh := spared.aside.fresh
  files := spared.aside.files
  kept := fun _ _ => .inl spared.same.payload?

/-- A change under one id leads onward if what it does there does. -/
theorem Onward.of_sameBut (sound : archive.Sound w) (elsewhere : archive.toShelf.SameBut id w w')
    (aside : archive.Aside w w') (used : ¬ archive.IsFresh w' id)
    (here : ¬ archive.IsFresh w id → archive.text? w' id = archive.text? w id ∨
      archive.text? w' id = none ∧
        ∀ text, archive.text? w id = some text → wanted text → archive.HasFile w' id) :
    archive.Onward wanted w w' where
  sound := by
    refine ⟨elsewhere.good sound.good, aside.tidy sound.tidy, fun other fresh => ?_⟩
    have differs : other ≠ id := fun same => used (same ▸ fresh)
    exact (elsewhere.cell other differs).trans (sound.vacant other (aside.fresh other fresh))
  fresh := aside.fresh
  files := aside.files
  kept := by
    intro other used'
    by_cases own : other = id
    · subst own
      exact here used'
    · exact .inl (elsewhere.payload? own)

/-! ### What outlasts everything -/

/-- The id of a record has been used, and what is kept under it, if anything, has its payload. -/
structure Knows (archive : Archive W C) (w : W) (r : JobRecord) : Prop where
  used : ¬ archive.IsFresh w r.id
  same : ∀ text, archive.text? w r.id = some text → text = r.payload

/-- A payload is kept under an id, or it has gone and there is a file where one is wanted. -/
structure Minds (archive : Archive W C) (wanted : String → Prop) (text : String) (w : W)
    (id : String) : Prop where
  used : ¬ archive.IsFresh w id
  there : archive.text? w id = some text ∨
    archive.text? w id = none ∧ (wanted text → archive.HasFile w id)

/-- The record of an id has gone for good, and there is a file. -/
structure Delivered (archive : Archive W C) (w : W) (id : String) : Prop where
  used : ¬ archive.IsFresh w id
  gone : archive.text? w id = none
  file : archive.HasFile w id

theorem Onward.used (onward : archive.Onward wanted w w') (used : ¬ archive.IsFresh w id) :
    ¬ archive.IsFresh w' id := fun fresh => used (onward.fresh id fresh)

theorem Onward.gone (onward : archive.Onward wanted w w') (used : ¬ archive.IsFresh w id)
    (gone : archive.text? w id = none) : archive.text? w' id = none := by
  rcases onward.kept id used with same | ⟨gone', _⟩
  · exact same.trans gone
  · exact gone'

theorem Sound.knows (sound : archive.Sound w) (kept : archive.text? w r.id = some r.payload) :
    archive.Knows w r :=
  ⟨sound.not_fresh kept, fun _ kept' => Option.some.inj (kept'.symm.trans kept)⟩

theorem Knows.onward (knows : archive.Knows w r) (onward : archive.Onward wanted w w') :
    archive.Knows w' r := by
  refine ⟨onward.used knows.used, fun text kept => ?_⟩
  rcases onward.kept r.id knows.used with same | ⟨gone, _⟩
  · exact knows.same text (same.symm.trans kept)
  · rw [gone] at kept
    cases kept

theorem Minds.onward (minds : archive.Minds wanted text w id)
    (onward : archive.Onward wanted w w') : archive.Minds wanted text w' id := by
  refine ⟨onward.used minds.used, ?_⟩
  rcases minds.there with kept | ⟨gone, filed⟩
  · rcases onward.kept id minds.used with same | ⟨gone, filed⟩
    · exact .inl (same.trans kept)
    · exact .inr ⟨gone, filed text kept⟩
  · exact .inr ⟨onward.gone minds.used gone, fun want => onward.files id (filed want)⟩

theorem Delivered.onward (delivered : archive.Delivered w id)
    (onward : archive.Onward wanted w w') : archive.Delivered w' id :=
  ⟨onward.used delivered.used, onward.gone delivered.used delivered.gone,
    onward.files id delivered.file⟩

/-! ### Stores of records -/

/-- A store that carries its payloads, uses nothing but ids beside them, and makes each record under
an id that was still to come. -/
structure Serves (archive : Archive W C) (records : RecordStore W) : Prop
    extends archive.toShelf.Carries archive.payload records where
  asideCreate : ∀ new w, archive.Sound w → archive.Aside w (records.create new w).2
  asideFind : ∀ id w, archive.Sound w → archive.Aside w (records.find id w).2
  asideSave : ∀ r w, archive.Sound w → archive.Aside w (records.save r w).2
  asideDelete : ∀ r w, archive.Sound w → archive.Aside w (records.delete r w).2
  asideAvailable : ∀ before limit offset w, archive.Sound w →
    archive.Aside w (records.available before limit offset w).2
  new : ∀ new w r, archive.Sound w → (records.create new w).1 = .ok r →
    archive.IsFresh w r.id ∧ ¬ archive.IsFresh (records.create new w).2 r.id

section

variable {records : RecordStore W} (serves : archive.Serves records)

include serves

theorem Serves.onward_find (sound : archive.Sound w) :
    archive.Onward wanted w (records.find id w).2 :=
  .of_spared sound ⟨serves.looking id w sound.good, serves.asideFind id w sound⟩

theorem Serves.onward_available {before : Instant} {limit offset : Nat} (sound : archive.Sound w) :
    archive.Onward wanted w (records.available before limit offset w).2 :=
  .of_spared sound ⟨serves.paging before limit offset w sound.good,
    serves.asideAvailable before limit offset w sound⟩

/-- A save leads onward if its record has the payload that is kept. -/
theorem Serves.onward_save (sound : archive.Sound w) (knows : archive.Knows w r) :
    archive.Onward wanted w (records.save r w).2 := by
  have outcome := serves.save r w sound.good
  have aside := serves.asideSave r w sound
  generalize records.save r w = result at outcome aside
  cases outcome with
  | failed same => exact .of_spared sound ⟨same, aside⟩
  | @done c w' there here elsewhere =>
      have kept : archive.text? w r.id = some (archive.payload c) :=
        congrArg (Option.map archive.payload) there
      have kept' : archive.text? w' r.id = some r.payload := by
        rw [text?, Shelf.payload?, here, Option.map_some, serves.written]
      have used' : ¬ archive.IsFresh w' r.id := fun fresh => knows.used (aside.fresh r.id fresh)
      refine .of_sameBut sound elsewhere aside used' fun _ => .inl ?_
      rw [kept', kept, knows.same _ kept]

/-- A delete leads onward if there is a file where one is wanted. -/
theorem Serves.onward_delete (sound : archive.Sound w) (knows : archive.Knows w r)
    (filed : wanted r.payload → archive.HasFile w r.id) :
    archive.Onward wanted w (records.delete r w).2 := by
  have outcome := serves.delete r w sound.good
  have aside := serves.asideDelete r w sound
  generalize records.delete r w = result at outcome aside
  cases outcome with
  | failed same => exact .of_spared sound ⟨same, aside⟩
  | @done c w' there here elsewhere =>
      have gone : archive.text? w' r.id = none := congrArg (Option.map archive.payload) here
      have used' : ¬ archive.IsFresh w' r.id := fun fresh => knows.used (aside.fresh r.id fresh)
      refine .of_sameBut sound elsewhere aside used' fun _ => .inr ⟨gone, fun text kept want => ?_⟩
      exact aside.files r.id (filed (knows.same text kept ▸ want))

/-- A new record is kept with its payload, under an id that was still to come. -/
theorem Serves.created {new : NewJobRecord} (sound : archive.Sound w) :
    archive.Onward wanted w (records.create new w).2 ∧
      ∀ r, (records.create new w).1 = .ok r →
        archive.Minds wanted new.payload (records.create new w).2 r.id := by
  have creation := serves.create new w sound.good
  have aside := serves.asideCreate new w sound
  have used := serves.new new w
  generalize records.create new w = result at creation aside used
  cases creation with
  | failed same => exact ⟨.of_spared sound ⟨same, aside⟩, nofun⟩
  | made _ here elsewhere =>
      obtain ⟨fresh, used'⟩ := used _ sound rfl
      refine ⟨.of_sameBut sound elsewhere aside used' fun used => absurd fresh used, ?_⟩
      rintro r' ⟨⟩
      exact ⟨used', .inl here⟩

/-- Nothing is kept under a used id that a look-up finds nothing under. -/
theorem Serves.missed_text (sound : archive.Sound w) (missed : (records.find id w).1 = .ok none) :
    archive.text? w id = none :=
  Shelf.payload?_eq_none_iff.mpr (serves.missed id w sound.good missed)

/-- A store that may fail serves as well. -/
theorem Serves.mayFail {records' : RecordStore W}
    (mayFail : RecordStore.MayFail archive.Spared records records') : archive.Serves records' where
  toCarries := serves.toCarries.mayFail (fun _ _ spared => spared.same) mayFail
  asideCreate := by
    intro new w sound
    rcases mayFail.create new w with ⟨w₀, spared, does⟩ | ⟨fault, w', spared, fails⟩
    · exact does ▸ spared.aside.trans (serves.asideCreate new w₀ (sound.spared spared))
    · exact fails ▸ spared.aside
  asideFind := by
    intro id w sound
    rcases mayFail.find id w with ⟨w₀, spared, does⟩ | ⟨fault, w', spared, fails⟩
    · exact does ▸ spared.aside.trans (serves.asideFind id w₀ (sound.spared spared))
    · exact fails ▸ spared.aside
  asideSave := by
    intro r w sound
    rcases mayFail.save r w with ⟨w₀, spared, does⟩ | ⟨fault, w', spared, fails⟩
    · exact does ▸ spared.aside.trans (serves.asideSave r w₀ (sound.spared spared))
    · exact fails ▸ spared.aside
  asideDelete := by
    intro r w sound
    rcases mayFail.delete r w with ⟨w₀, spared, does⟩ | ⟨fault, w', spared, fails⟩
    · exact does ▸ spared.aside.trans (serves.asideDelete r w₀ (sound.spared spared))
    · exact fails ▸ spared.aside
  asideAvailable := by
    intro before limit offset w sound
    rcases mayFail.available before limit offset w with
      ⟨w₀, spared, does⟩ | ⟨fault, w', spared, fails⟩
    · exact does ▸
        spared.aside.trans (serves.asideAvailable before limit offset w₀ (sound.spared spared))
    · exact fails ▸ spared.aside
  new := by
    intro new w r sound made
    rcases mayFail.create new w with ⟨w₀, spared, does⟩ | ⟨fault, w', spared, fails⟩
    · rw [does] at made ⊢
      obtain ⟨fresh, used⟩ := serves.new new w₀ r (sound.spared spared) made
      exact ⟨spared.aside.fresh r.id fresh, used⟩
    · simp [fails] at made

end

/-! ### Stores of files -/

/-- A store of files that leaves the records alone: a file that is made is there, and nothing is
found only where there is no file. -/
structure KeepsFiles (archive : Archive W C) (files : ExportStore W) : Prop where
  making : ∀ new w, archive.Sound w → archive.Spared w (files.create new w).2
  made : ∀ new w f, archive.Sound w → (files.create new w).1 = .ok f →
    archive.HasFile (files.create new w).2 new.jobId
  looking : ∀ id w, archive.Sound w → archive.Spared w (files.findByJob id w).2
  missed : ∀ id w, archive.Sound w → (files.findByJob id w).1 = .ok none → ¬ archive.HasFile w id

end Archive

end JobQueue
