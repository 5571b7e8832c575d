/-
Stores seen id by id.

What saves and deletes do can be told without the store: they change what is kept under one id,
if anything is kept there, or fail and change nothing (`Shelf.Keeps`). Nothing is ever put where
nothing was. A store may fail at any call (`Shelf.Unreliable`), or only where nothing is kept
(`Shelf.Reliable`).
-/

import JobQueue.Job.Task
import JobQueue.Store.Basic

namespace JobQueue

/-- A part of a world lets things be put and found again. -/
def Part.Lawful {W A : Type} (p : Part W A) : Prop := ∀ a w, p.get (p.set a w) = a

/-- A call on a part succeeds when the step on the part does. -/
theorem Part.answer_eq_ok {W A α : Type} {p : Part W A} {step : A → Except StoreError α × A} {w : W}
    {a : α} : (p.answer step w).1 = .ok a ↔ (step (p.get w)).1 = .ok a := by
  have answered : (p.answer step w).1 = (step (p.get w)).1.mapError Fault.error := rfl
  rw [answered]
  cases (step (p.get w)).1 with
  | error e => exact iff_of_false nofun nofun
  | ok b =>
    change Except.ok b = Except.ok a ↔ _
    simp

/-- What a world keeps under each id, as far as saves and deletes go. -/
structure Shelf (W C : Type) where
  /-- Whether the store of the world is in order. -/
  Good : W → Prop
  /-- What is kept under an id. -/
  cell : W → String → Option C
  /-- What is kept once a record has been saved in place of something. -/
  written : JobRecord → C → C

namespace Shelf

variable {W C : Type}

/-- Nothing has changed but what is kept under one id. -/
structure SameBut (shelf : Shelf W C) (id : String) (w w' : W) : Prop where
  good : shelf.Good w → shelf.Good w'
  cell : ∀ other, other ≠ id → shelf.cell w' other = shelf.cell w other

/-- Nothing has changed. -/
structure Same (shelf : Shelf W C) (w w' : W) : Prop where
  good : shelf.Good w → shelf.Good w'
  cell : ∀ id, shelf.cell w' id = shelf.cell w id

/-- What comes of a call that is to change what is kept under an id. -/
inductive Outcome (shelf : Shelf W C) (id : String) (change : C → Option C) (w : W) :
    Except (Fault StoreError) Unit × W → Prop where
  | done {c : C} {w' : W} (there : shelf.cell w id = some c) (here : shelf.cell w' id = change c)
      (elsewhere : shelf.SameBut id w w') : Outcome shelf id change w (.ok (), w')
  | failed {fault : Fault StoreError} {w' : W} (same : shelf.Same w w') :
      Outcome shelf id change w (.error fault, w')

/-- Saves and deletes change what is kept under the id of their record, or fail and change
nothing. -/
structure Keeps (shelf : Shelf W C) (records : RecordStore W) : Prop where
  save : ∀ r w, shelf.Good w →
    shelf.Outcome r.id (fun c => some (shelf.written r c)) w (records.save r w)
  delete : ∀ r w, shelf.Good w → shelf.Outcome r.id (fun _ => none) w (records.delete r w)

/-- The answer to a save or a delete that fails only where nothing is kept. -/
def answer (id : String) : Option C → Except (Fault StoreError) Unit
  | some _ => .ok ()
  | none => .error (.error (.notFound id))

/-- Saves and deletes fail only where nothing is kept. -/
structure Reliable (shelf : Shelf W C) (records : RecordStore W) : Prop
    extends shelf.Keeps records where
  save_answer : ∀ r w, shelf.Good w → (records.save r w).1 = answer r.id (shelf.cell w r.id)
  delete_answer : ∀ r w, shelf.Good w → (records.delete r w).1 = answer r.id (shelf.cell w r.id)

variable {shelf : Shelf W C} {id : String} {change : C → Option C} {w w' w₀ : W}
  {result : Except (Fault StoreError) Unit × W}

theorem Same.refl : shelf.Same w w := ⟨fun good => good, fun _ => rfl⟩

theorem Same.trans (first : shelf.Same w w₀) (second : shelf.Same w₀ w') : shelf.Same w w' :=
  ⟨fun good => second.good (first.good good),
    fun id => (second.cell id).trans (first.cell id)⟩

theorem Same.but (same : shelf.Same w w') : shelf.SameBut id w w' :=
  ⟨same.good, fun other _ => same.cell other⟩

/-- Other ids keep what they have. -/
theorem Outcome.elsewhere (outcome : shelf.Outcome id change w result) :
    shelf.SameBut id w result.2 := by
  cases outcome with
  | done _ _ elsewhere => exact elsewhere
  | failed same => exact same.but

/-- What is kept under the id after a call that fails only where nothing is kept. -/
theorem Outcome.cell_eq (outcome : shelf.Outcome id change w result)
    (answered : result.1 = answer id (shelf.cell w id)) :
    shelf.cell result.2 id = (shelf.cell w id).bind change := by
  cases outcome with
  | done there here => rw [here, there, Option.bind_some]
  | failed same =>
      cases kept : shelf.cell w id with
      | some c => simp [kept, answer] at answered
      | none => rw [same.cell, kept, Option.bind_none]

/-- What a save comes to that fails only where nothing is kept. -/
theorem Reliable.saved {records : RecordStore W} {r : JobRecord} {before : Option C}
    (reliable : shelf.Reliable records) (good : shelf.Good w) (kept : shelf.cell w id = before)
    (own : r.id = id) :
    shelf.SameBut id w (records.save r w).2 ∧ (records.save r w).1 = answer id before ∧
      shelf.cell (records.save r w).2 id = before.map (shelf.written r) := by
  subst own kept
  have outcome := reliable.save r w good
  have answered := reliable.save_answer r w good
  refine ⟨outcome.elsewhere, answered, ?_⟩
  rw [outcome.cell_eq answered]
  cases shelf.cell w r.id <;> rfl

/-- What a delete comes to that fails only where nothing is kept. -/
theorem Reliable.deleted {records : RecordStore W} {r : JobRecord} {before : Option C}
    (reliable : shelf.Reliable records) (good : shelf.Good w) (kept : shelf.cell w id = before)
    (own : r.id = id) :
    shelf.SameBut id w (records.delete r w).2 ∧ (records.delete r w).1 = answer id before ∧
      shelf.cell (records.delete r w).2 id = none := by
  subst own kept
  have outcome := reliable.delete r w good
  have answered := reliable.delete_answer r w good
  refine ⟨outcome.elsewhere, answered, ?_⟩
  rw [outcome.cell_eq answered]
  cases shelf.cell w r.id <;> rfl

/-- A call that is to change what is not there fails. -/
theorem Outcome.refused (outcome : shelf.Outcome id change w result)
    (gone : shelf.cell w id = none) : result.1 ≠ .ok () := by
  cases outcome with
  | done there => simp [gone] at there
  | failed => simp

/-- A call that is to change what is not there changes nothing. -/
theorem Outcome.same (outcome : shelf.Outcome id change w result)
    (gone : shelf.cell w id = none) : shelf.Same w result.2 := by
  cases outcome with
  | done there => simp [gone] at there
  | failed same => exact same

/-- A call comes to the same where more is asked of a store in order, if the call keeps it. -/
theorem Outcome.withGood {good : W → Prop} (outcome : shelf.Outcome id change w result)
    (stays : good w → good result.2) : Outcome { shelf with Good := good } id change w result := by
  cases outcome with
  | done there here elsewhere => exact .done there here ⟨stays, elsewhere.cell⟩
  | failed same => exact .failed ⟨stays, same.cell⟩

/-- Where a call happens a little later, it comes to the same. -/
theorem Outcome.after (outcome : shelf.Outcome id change w₀ result) (same : shelf.Same w w₀) :
    shelf.Outcome id change w result := by
  cases outcome with
  | done there here elsewhere =>
      refine .done ((same.cell id).symm.trans there) here ⟨fun good => ?_, fun other differs => ?_⟩
      · exact elsewhere.good (same.good good)
      · exact (elsewhere.cell other differs).trans (same.cell other)
  | failed same' => exact .failed (same.trans same')

/-! ### Stores that may fail at any call -/

/-- A call that does what another does, or fails and changes nothing. -/
def MayFail (shelf : Shelf W C) (base call : StoreCall W Unit) : Prop :=
  ∀ w, (∃ w₀, shelf.Same w w₀ ∧ call w = base w₀) ∨
    ∃ fault w', shelf.Same w w' ∧ call w = (.error fault, w')

/-- A store whose saves and deletes do what those of another do, or fail and change nothing. -/
structure Unreliable (shelf : Shelf W C) (base records : RecordStore W) : Prop where
  save : ∀ r, shelf.MayFail (base.save r) (records.save r)
  delete : ∀ r, shelf.MayFail (base.delete r) (records.delete r)

theorem MayFail.outcome {base call : StoreCall W Unit} (mayFail : shelf.MayFail base call)
    (good : shelf.Good w) (works : ∀ w, shelf.Good w → shelf.Outcome id change w (base w)) :
    shelf.Outcome id change w (call w) := by
  rcases mayFail w with ⟨w₀, same, does⟩ | ⟨fault, w', same, fails⟩
  · rw [does]
    exact (works w₀ (same.good good)).after same
  · rw [fails]
    exact .failed same

/-- Calls that may fail keep the records as well. -/
theorem Keeps.unreliable {base records : RecordStore W} (keeps : shelf.Keeps base)
    (unreliable : shelf.Unreliable base records) : shelf.Keeps records where
  save := fun r _ good => (unreliable.save r).outcome good (keeps.save r)
  delete := fun r _ good => (unreliable.delete r).outcome good (keeps.delete r)

end Shelf

/-- Whether a task leaves all records alone. -/
def Task.Spares {W C α : Type} (shelf : Shelf W C) : Task W α → Prop
  | .done _ => True
  | .act update next => ∀ w, shelf.Good w → shelf.Same w (update w) ∧ (next w).Spares shelf
  | .wait _ _ next => ∀ came, (next came).Spares shelf

end JobQueue
