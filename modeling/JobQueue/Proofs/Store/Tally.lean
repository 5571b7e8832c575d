/-
The stored number of attempts.

`Shelf.tally` is the number of failed attempts that a store keeps under an id, if it keeps a record
there. A store that fails only where nothing is kept counts as it is told to (`Shelf.Counts`): a
save sets the number to that of the record saved, whatever it was before, and a look-up shows it.
The memory store does so (`MemoryStore.counts`), and so does an open database (`Database.counts`).
-/

import JobQueue.Proofs.Database.Lines
import JobQueue.Proofs.Store.Memory

namespace JobQueue

variable {W C : Type}

namespace Shelf

variable {shelf : Shelf W C} {count : C → Nat} {records : RecordStore W} {r : JobRecord} {w : W}
  {id : String}

/-- The number of attempts that is kept under an id. -/
def tally (shelf : Shelf W C) (count : C → Nat) (w : W) (id : String) : Option Nat :=
  (shelf.cell w id).map count

/-- Saves and deletes fail only where nothing is kept, what is kept after a save counts as many
attempts as the record saved, and what is found under an id counts as many as the record shown. -/
structure Counts (shelf : Shelf W C) (count : C → Nat) (records : RecordStore W) : Prop
    extends shelf.Reliable records where
  written : ∀ r c, count (shelf.written r c) = r.attempts.toNat
  found : ∀ r w, shelf.Good w → (records.find r.id w).1 = .ok (some r) →
    shelf.tally count w r.id = some r.attempts.toNat

theorem Same.tally {w' : W} (same : shelf.Same w w') :
    shelf.tally count w' id = shelf.tally count w id := by
  rw [Shelf.tally, same.cell, Shelf.tally]

namespace Counts

theorem save_eq_ok (counts : shelf.Counts count records) (good : shelf.Good w) :
    (records.save r w).1 = .ok () ↔ ∃ n, shelf.tally count w r.id = some n := by
  rw [counts.save_answer r w good, tally]
  cases shelf.cell w r.id <;> simp [answer]

/-- A save where nothing is kept says so, and changes nothing. -/
theorem save_refused (counts : shelf.Counts count records) (good : shelf.Good w)
    (gone : shelf.tally count w r.id = none) :
    (records.save r w).1 = .error (.error (.notFound r.id)) ∧
      shelf.Same w (records.save r w).2 := by
  have empty : shelf.cell w r.id = none := Option.map_eq_none_iff.mp gone
  constructor
  · rw [counts.save_answer r w good, empty, answer]
  · exact (counts.save r w good).same empty

/-- A save sets the number, if there is one. -/
theorem tally_save (counts : shelf.Counts count records) (good : shelf.Good w) :
    shelf.tally count (records.save r w).2 r.id =
      (shelf.tally count w r.id).map fun _ => r.attempts.toNat := by
  have kept := (counts.save r w good).cell_eq (counts.save_answer r w good)
  rw [tally, kept, tally]
  cases shelf.cell w r.id with
  | none => rfl
  | some c => simp [counts.written]

theorem tally_save_other (counts : shelf.Counts count records) (good : shelf.Good w)
    (differs : id ≠ r.id) :
    shelf.tally count (records.save r w).2 id = shelf.tally count w id := by
  rw [tally, (counts.save r w good).elsewhere.cell id differs, tally]

theorem tally_delete (counts : shelf.Counts count records) (good : shelf.Good w) :
    shelf.tally count (records.delete r w).2 r.id = none := by
  have kept := (counts.delete r w good).cell_eq (counts.delete_answer r w good)
  rw [tally, kept]
  cases shelf.cell w r.id <;> rfl

theorem tally_delete_other (counts : shelf.Counts count records) (good : shelf.Good w)
    (differs : id ≠ r.id) :
    shelf.tally count (records.delete r w).2 id = shelf.tally count w id := by
  rw [tally, (counts.delete r w good).elsewhere.cell id differs, tally]

end Counts

end Shelf

/-- A memory store counts as it is told to. -/
theorem MemoryStore.counts {place : Part W MemoryStore} {nature : Part W Nature}
    (lawful : place.Lawful) :
    (shelf place).Counts (·.attempts.toNat) (recordStore place nature) where
  toReliable := reliable lawful
  written := fun _ _ => rfl
  found := by
    intro r w _ shown
    have stored : (place.get w).get? r.id = some r := by
      simpa [recordStore] using shown
    have cell : (shelf place).cell w r.id = some r := stored
    rw [Shelf.tally, cell, Option.map_some]

namespace Database

/-- The number of attempts in a line. -/
def Line.attempts (l : Line) : Nat :=
  match l.at 5 with
  | .int n => n.toNat
  | _ => 0

theorem attempts_savedLine (r : JobRecord) (l : Line) :
    (savedLine r l).attempts = r.attempts.toNat := rfl

theorem Line.Holds.attempts_eq {l : Line} {r : JobRecord} (holds : l.Holds r) :
    l.attempts = r.attempts.toNat := by
  rw [Line.attempts, holds.attempts]
  exact Int.toNat_natCast _

/-- An open database counts as it is told to. -/
theorem counts {place : Part W Database} {nature : Part W Nature} (lawful : place.Lawful) :
    (openShelf place).Counts Line.attempts (recordStore place nature) where
  toReliable := reliable lawful
  written := attempts_savedLine
  found := by
    intro r w _ shown
    obtain ⟨l, there, holds, _⟩ := of_findRecord (Part.answer_eq_ok.mp shown)
    have cell : (openShelf place).cell w r.id = some l := there
    rw [Shelf.tally, cell, Option.map_some, holds.attempts_eq]

end Database

end JobQueue
