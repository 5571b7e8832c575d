/-
Worlds where no call is planned to break off.

A call of a calm world does its work or answers with an error, as planned, and the world stays calm
(`World.calm_planned`). So do scripts, whatever they do (`Script.keepsTo_calm`).
-/

import JobQueue.Proofs.Job.Guarantee
import JobQueue.Proofs.Simulation.Scripts

namespace JobQueue.Simulation

variable {α β : Type} {w w' : World}

namespace World

/-- Whether no call is planned to break off. -/
def Calm (w : World) : Prop := ∀ entry ∈ w.plans, Plan.crash ∉ entry.2

/-- The records of a world that is to be calm. -/
def calmShelf : Shelf World JobRecord := { shelf with Good := Calm }

theorem calm_of_plans (calm : Calm w) (same : w'.plans = w.plans) : Calm w' :=
  fun entry member => calm entry (same ▸ member)

theorem calm_nextPlan {m : Method} (calm : Calm w) :
    (nextPlan m w).1 ≠ .crash ∧ Calm (nextPlan m w).2 := by
  unfold nextPlan
  split
  next p rest found =>
    obtain ⟨earlier, later, same, _⟩ := List.lookup_eq_some_iff.mp found
    have planned : Plan.crash ∉ p :: rest :=
      calm (m, p :: rest) (same ▸ List.mem_append_right _ List.mem_cons_self)
    rw [List.mem_cons, not_or] at planned
    refine ⟨Ne.symm planned.1, ?_⟩
    rintro entry member
    obtain ⟨⟨k, ps⟩, there, rfl⟩ := List.mem_map.mp member
    dsimp only
    split
    · exact planned.2
    · exact calm _ there
  next => exact ⟨nofun, calm⟩

/-- A planned call of a calm world does not break off if its work does not. -/
theorem calm_planned {entry : Call} {act : StoreCall World α} (calm : Calm w)
    (kept : ∀ w, (act w).2.plans = w.plans) (answers : ∀ w c, (act w).1 ≠ .error (.crash c)) :
    Calm (planned entry act w).2 ∧ ∀ c, (planned entry act w).1 ≠ .error (.crash c) := by
  have entered : Calm { w with calls := entry :: w.calls } := calm
  have next := calm_nextPlan (m := entry.method) entered
  unfold planned
  generalize nextPlan entry.method { w with calls := entry :: w.calls } = chosen at next ⊢
  obtain ⟨plan, w₁⟩ := chosen
  cases plan with
  | work => exact ⟨calm_of_plans next.2 (kept w₁), answers w₁⟩
  | error e => exact ⟨next.2, nofun⟩
  | crash => exact absurd rfl next.1

theorem plainRecords_save {r : JobRecord} : (plainRecords.save r w).2.plans = w.plans ∧
    ∀ c, (plainRecords.save r w).1 ≠ .error (.crash c) := by
  constructor
  · rfl
  · intro c
    show (MemoryStore.save r w.store).1.mapError Fault.error ≠ _
    cases (MemoryStore.save r w.store).1 <;> nofun

theorem plainRecords_delete {r : JobRecord} : (plainRecords.delete r w).2.plans = w.plans ∧
    ∀ c, (plainRecords.delete r w).1 ≠ .error (.crash c) := by
  constructor
  · rfl
  · intro c
    show (MemoryStore.delete r w.store).1.mapError Fault.error ≠ _
    cases (MemoryStore.delete r w.store).1 <;> nofun

theorem calm_save {r : JobRecord} (calm : Calm w) :
    Calm (records.save r w).2 ∧ ∀ c, (records.save r w).1 ≠ .error (.crash c) :=
  calm_planned calm (fun _ => plainRecords_save.1) fun _ => plainRecords_save.2

theorem calm_delete {r : JobRecord} (calm : Calm w) :
    Calm (records.delete r w).2 ∧ ∀ c, (records.delete r w).1 ≠ .error (.crash c) :=
  calm_planned calm (fun _ => plainRecords_delete.1) fun _ => plainRecords_delete.2

/-- The records of a calm world are kept, whatever is planned. -/
theorem calm_keeps : calmShelf.Keeps records where
  save := fun r w calm => (((MemoryStore.reliable storePart_lawful).toKeeps.unreliable
    unreliable).save r w trivial).withGood fun _ => (calm_save calm).1
  delete := fun r w calm => (((MemoryStore.reliable storePart_lawful).toKeeps.unreliable
    unreliable).delete r w trivial).withGood fun _ => (calm_delete calm).1

end World

namespace Script

open World

/-- A step after which a world is calm if it was before. -/
def Calming (w w' : World) : Prop := Calm w → Calm w'

theorem keepsTo_bind {t : JobTask World α} {k : α → JobTask World β}
    (first : t.run.KeepsTo Calming) (later : ∀ a, (k a).run.KeepsTo Calming) :
    (t >>= k).run.KeepsTo Calming := by
  rw [JobTask.run_bind]
  refine Task.KeepsTo.bind first fun result => ?_
  cases result with
  | ok a => exact later a
  | error fault => trivial

theorem keepsTo_call {call : StoreCall World α} (calms : ∀ w, Calming w (call w).2) :
    (JobTask.call call).run.KeepsTo Calming := by
  rw [JobTask.run_call_eq]
  exact fun w => ⟨calms w, trivial⟩

theorem keepsTo_perform {step : World → α × World} (kept : ∀ w, (step w).2.plans = w.plans) :
    (JobTask.perform step).run.KeepsTo Calming :=
  fun w => ⟨fun calm => calm_of_plans calm (kept w), trivial⟩

theorem keepsTo_ofExcept {result : Except JobError α} :
    (JobTask.ofExcept result : JobTask World α).run.KeepsTo Calming := by
  cases result <;> trivial

theorem keepsTo_behaviour (number : Nat) (job : Job) (b : Behaviour) :
    (b.run number job).run.KeepsTo Calming := by
  cases b with
  | succeed | fail | failById | endWith | breakOff => trivial
  | flaky times =>
      refine keepsTo_bind (keepsTo_perform fun _ => rfl) fun n => ?_
      split <;> trivial
  | deleteSelf =>
      refine keepsTo_bind (keepsTo_call fun w calm => ?_) fun found => ?_
      · exact (calm_planned calm (fun _ => rfl) (by rintro _ _ ⟨⟩)).1
      · cases found with
        | none => trivial
        | some r => exact keepsTo_call fun w calm => (calm_delete calm).1
  | spawn payload =>
      refine keepsTo_bind (keepsTo_call fun w calm => ?_) fun _ => trivial
      exact (calm_planned calm (fun _ => rfl) (by rintro _ _ ⟨⟩)).1
  | decodeEmail =>
      exact keepsTo_bind keepsTo_ofExcept fun _ => keepsTo_ofExcept
  | obeyData =>
      rw [Behaviour.run]
      split <;> trivial

/-- A calm world stays calm whatever a script does. -/
theorem keepsTo_calm (s : Script) (context : JobContext) (job : Job) :
    (s.toHandler.run context job).run.KeepsTo Calming := by
  rw [run_eq]
  refine fun w => ⟨fun calm => calm, ?_⟩
  cases s.pause with
  | some millis => exact fun _ => keepsTo_behaviour _ _ _
  | none => exact keepsTo_behaviour _ _ _

end Script

end JobQueue.Simulation
