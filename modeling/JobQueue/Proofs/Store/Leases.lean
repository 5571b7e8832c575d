/-
The stored leases.

`Shelf.lease` is the text of the lease that a store keeps under an id, if it keeps a record there. A
store shows its leases (`Shelf.Shows`) if a save sets the text to that of the record saved, a
look-up changes nothing, and a record found under an id has this id and the lease kept there. The
memory store does so where each record stands under its own id (`MemoryStore.shows`), a database
does so (`Database.shows`), and so does a store that does what another does or fails
(`Shelf.Shows.unreliable`).
-/

import JobQueue.Proofs.Database.Lines
import JobQueue.Proofs.Store.Memory

namespace JobQueue

variable {W C : Type}

namespace Shelf

variable {shelf : Shelf W C} {text : C → String} {records base : RecordStore W} {r : JobRecord}
  {w w' : W} {id : String}

/-- The lease that is kept under an id. -/
def lease (shelf : Shelf W C) (text : C → String) (w : W) (id : String) : Option String :=
  (shelf.cell w id).map text

/-- Saves and deletes keep to their ids, what is kept after a save has the lease of the record
saved, and a record that is found has the id and the lease of what is kept. -/
structure Shows (shelf : Shelf W C) (text : C → String) (records : RecordStore W) : Prop
    extends shelf.Keeps records where
  written : ∀ r c, text (shelf.written r c) = r.reservedAt
  looking : ∀ id w, shelf.Good w → shelf.Same w (records.find id w).2
  found : ∀ id w r, shelf.Good w → (records.find id w).1 = .ok (some r) →
    r.id = id ∧ shelf.lease text w id = some r.reservedAt

theorem Same.lease (same : shelf.Same w w') : shelf.lease text w' id = shelf.lease text w id := by
  rw [Shelf.lease, same.cell, Shelf.lease]

/-- A save that comes off finds a lease and sets it. -/
theorem Shows.saved (shows : shelf.Shows text records) (good : shelf.Good w)
    (saved : records.save r w = (.ok (), w')) :
    shelf.Good w' ∧ shelf.lease text w r.id ≠ none ∧
      shelf.lease text w' r.id = some r.reservedAt := by
  have outcome := shows.save r w good
  rw [saved] at outcome
  cases outcome with
  | done there here elsewhere =>
      refine ⟨elsewhere.good good, ?_, ?_⟩
      · simp [lease, there]
      · rw [lease, here, Option.map_some, shows.written]

/-- A save that fails changes nothing. -/
theorem Shows.unsaved {fault : Fault StoreError} (shows : shelf.Shows text records)
    (good : shelf.Good w) (failed : records.save r w = (.error fault, w')) : shelf.Same w w' := by
  have outcome := shows.save r w good
  rw [failed] at outcome
  cases outcome with
  | failed same => exact same

/-- A delete takes the lease away, or fails and changes nothing. -/
theorem Shows.deleted (shows : shelf.Shows text records) (good : shelf.Good w) :
    shelf.Good (records.delete r w).2 ∧ (shelf.lease text (records.delete r w).2 r.id = none ∨
      shelf.lease text (records.delete r w).2 r.id = shelf.lease text w r.id) := by
  have outcome := shows.delete r w good
  generalize records.delete r w = result at outcome ⊢
  cases outcome with
  | done there here elsewhere =>
      refine ⟨elsewhere.good good, .inl ?_⟩
      rw [lease, here, Option.map_none]
  | failed same => exact ⟨same.good good, .inr same.lease⟩

/-- A look-up that does what another does, or fails and changes nothing. -/
def MayFailToFind (shelf : Shelf W C) (base records : RecordStore W) : Prop :=
  ∀ id w, (∃ w₀, shelf.Same w w₀ ∧ records.find id w = base.find id w₀) ∨
    ∃ fault w', shelf.Same w w' ∧ records.find id w = (.error fault, w')

/-- A store whose calls may fail shows its leases as well. -/
theorem Shows.unreliable (shows : shelf.Shows text base) (mayFail : shelf.Unreliable base records)
    (finding : shelf.MayFailToFind base records) : shelf.Shows text records where
  toKeeps := shows.toKeeps.unreliable mayFail
  written := shows.written
  looking := by
    intro id w good
    rcases finding id w with ⟨w₀, same, does⟩ | ⟨fault, w', same, fails⟩
    · rw [does]
      exact same.trans (shows.looking id w₀ (same.good good))
    · rw [fails]
      exact same
  found := by
    intro id w r good shown
    rcases finding id w with ⟨w₀, same, does⟩ | ⟨fault, w', same, fails⟩
    · rw [does] at shown
      obtain ⟨own, lease⟩ := shows.found id w₀ r (same.good good) shown
      exact ⟨own, same.lease.symm.trans lease⟩
    · simp [fails] at shown

end Shelf

namespace MemoryStore

variable {m : MemoryStore} {r : JobRecord} {id : String}

/-- Each record stands under its own id. -/
def Keyed (m : MemoryStore) : Prop := ∀ entry ∈ m.records, entry.1 = entry.2.id

theorem Keyed.id_eq (keyed : m.Keyed) (stored : m.get? id = some r) : r.id = id :=
  (keyed _ (mem_of_get? stored)).symm

theorem mem_put {entry : String × JobRecord} {l : List (String × JobRecord)}
    (member : entry ∈ put id r l) : entry = (id, r) ∨ entry ∈ l := by
  induction l with
  | nil => exact .inl (List.mem_singleton.mp member)
  | cons first rest ih =>
      rw [put] at member
      split at member
      · rcases List.mem_cons.mp member with here | there
        · exact .inl here
        · exact .inr (List.mem_cons_of_mem _ there)
      · rcases List.mem_cons.mp member with here | there
        · exact .inr (here ▸ List.mem_cons_self)
        · exact (ih there).imp_right (List.mem_cons_of_mem _)

theorem Keyed.insert (keyed : m.Keyed) : (m.insert r).Keyed := by
  intro entry member
  rcases mem_put member with rfl | old
  · rfl
  · exact keyed entry old

theorem Keyed.erase (keyed : m.Keyed) : (m.erase id).Keyed :=
  fun entry member => keyed entry (List.mem_filter.mp member).1

theorem Keyed.save (keyed : m.Keyed) : (MemoryStore.save r m).2.Keyed := by
  unfold MemoryStore.save
  split
  · exact keyed.insert
  · exact keyed

theorem Keyed.delete (keyed : m.Keyed) : (MemoryStore.delete r m).2.Keyed := by
  unfold MemoryStore.delete
  split
  · exact keyed.erase
  · exact keyed

/-- The shelf of a memory store whose records stand under their own ids. -/
def keyedShelf (place : Part W MemoryStore) : Shelf W JobRecord :=
  { shelf place with Good := fun w => (place.get w).Keyed }

/-- A memory store whose records stand under their own ids shows its leases. -/
theorem shows {place : Part W MemoryStore} {nature : Part W Nature} (lawful : place.Lawful) :
    (keyedShelf place).Shows JobRecord.reservedAt (recordStore place nature) where
  save := by
    intro r w keyed
    refine ((reliable lawful).save r w trivial).withGood fun _ => ?_
    have after : place.get ((recordStore place nature).save r w).2 =
        (MemoryStore.save r (place.get w)).2 := lawful _ w
    exact after ▸ keyed.save
  delete := by
    intro r w keyed
    refine ((reliable lawful).delete r w trivial).withGood fun _ => ?_
    have after : place.get ((recordStore place nature).delete r w).2 =
        (MemoryStore.delete r (place.get w)).2 := lawful _ w
    exact after ▸ keyed.delete
  written := fun _ _ => rfl
  looking := fun _ _ _ => .refl
  found := by
    intro id w r keyed shown
    have stored : (place.get w).get? id = some r := by simpa [recordStore] using shown
    have cell : (keyedShelf place).cell w id = some r := stored
    rw [Shelf.lease, cell, Option.map_some]
    exact ⟨keyed.id_eq stored, rfl⟩

end MemoryStore

namespace Database

/-- The lease in a line. -/
def Line.lease (l : Line) : String :=
  match l.at 6 with
  | .text s => s
  | _ => ""

/-- A database shows its leases. -/
theorem shows {place : Part W Database} {nature : Part W Nature} (lawful : place.Lawful) :
    (shelf place).Shows Line.lease (recordStore place nature) where
  toKeeps := keeps lawful
  written := fun _ _ => rfl
  looking := by
    intro id w _
    have after : place.get ((recordStore place nature).find id w).2 = place.get w := lawful _ w
    exact ⟨fun good => by simpa only [shelf, after] using good, fun other => by
      simp only [shelf, after]⟩
  found := by
    intro id w r _ shown
    obtain ⟨l, there, holds, own⟩ := of_findRecord (Part.answer_eq_ok.mp shown)
    have cell : (shelf place).cell w id = some l := there
    refine ⟨own, ?_⟩
    rw [Shelf.lease, cell, Option.map_some, Line.lease, holds.reservedAt]

end Database

end JobQueue
