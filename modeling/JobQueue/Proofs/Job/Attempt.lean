/-
The phases of a run.

An attempt at a record goes through phases: its clock is read, its claim is saved, its handler
takes its steps, and then the record is removed, or released with the time of the failure, unless
its failures are too many to be counted. The phases are those of the code: the step of an attempt
from one phase to the next is the step of its task (`Attempt.step_task`). What an attempt does on
its way is told by its deeds, and a phase tells which they have been (`Told`).
-/

import JobQueue.Proofs.Job.Course

namespace JobQueue

variable {W : Type}

/-- A task after one step of it; `came` says whether what it waits for has come. -/
def Task.step {α : Type} (came : Bool) : Task W α → W → Option (Task W α × W)
  | .done _, _ => none
  | .act update next, w => some (next w, update w)
  | .wait _ _ next, w => some (next came, w)

/-- What an attempt does that matters to others, with how it came out. -/
inductive Deed where
  /-- It saves its claim. -/
  | claim (saved : Bool)
  /-- Its own handler ends. -/
  | handle (result : Except (Fault JobError) Unit)
  /-- It deletes the record. -/
  | remove (done : Bool)
  /-- It saves the record as failed. -/
  | release (saved : Bool)

/-- Whether a deed has changed the store. -/
def Deed.isChange : Deed → Bool
  | .claim done | .remove done | .release done => done
  | .handle _ => false

/-- A run of a record. -/
structure Attempt (W : Type) where
  executor : Executor W
  worker : Option Nat
  record : JobRecord

/-- Where an attempt stands. Times are those of its claim and of its failure. -/
inductive Phase (W : Type) where
  /-- It will read the clock. -/
  | fresh
  /-- It will save its claim. -/
  | claiming (now : Instant)
  /-- Its handler will take a step. -/
  | acting (now : Instant) (update : W → W) (next : W → Task W (Except (Fault JobError) Unit))
  /-- Its handler waits. -/
  | waiting (now : Instant) (ready : W → Bool) (limit : Option Nat)
      (next : Bool → Task W (Except (Fault JobError) Unit))
  /-- It will delete the record. -/
  | removing (now : Instant)
  /-- It will read the clock, since it has failed. -/
  | stamping (now : Instant) (cause : JobError)
  /-- It will save the record as failed. -/
  | releasing (now later : Instant) (cause : JobError)
  /-- It has ended. -/
  | finished (ended : Ended)

namespace Attempt

variable {a : Attempt W} {now : Instant}

/-- The record with the claim of the attempt. -/
def claimed (a : Attempt W) (now : Instant) : JobRecord := a.record.reserve now

/-- What follows once a handler has ended. -/
def afterHandler (now : Instant) (result : Except (Fault JobError) Unit) : Phase W :=
  match Executor.resultOfHandler result with
  | .ok () => .removing now
  | .error e => .stamping now e

/-- The phase in which a handler is that has these steps before it, and its deeds. -/
def handling (now : Instant) :
    Task W (Except (Fault JobError) Unit) → List Deed × Phase W
  | .done result => ([.handle result], afterHandler now result)
  | .act update next => ([], .acting now update next)
  | .wait ready limit next => ([], .waiting now ready limit next)

/-- The phase after a claim has been saved, and the deeds up to it. -/
def afterClaim (a : Attempt W) (now : Instant) : List Deed × Phase W :=
  match a.executor.handlerFor (a.claimed now) with
  | .error e => ([], .stamping now e)
  | .ok (handler, job) => handling now (handler.run (JobContext.ofJob job a.worker) job).run

/-- The first phase of an attempt. -/
def start (a : Attempt W) : Phase W :=
  match Executor.check a.record with
  | some e => .finished ⟨a.record, .error (.error e)⟩
  | none => .fresh

/-- The deeds, the phase and the world after one step of an attempt. -/
def step (a : Attempt W) (came : Bool) : Phase W → W → Option (List Deed × Phase W × W)
  | .fresh, w =>
      let (now, w') := a.executor.backend.clock w
      some ([], if a.record.isReserved a.executor.lease now
        then .finished ⟨a.record, .error (.error (.alreadyReserved a.record.id))⟩
        else .claiming now, w')
  | .claiming now, w =>
      match a.executor.backend.records.save (a.claimed now) w with
      | (.ok (), w') => some (.claim true :: (a.afterClaim now).1, (a.afterClaim now).2, w')
      | (.error (.error e), w') =>
          some ([.claim false],
            .finished ⟨a.record, .error (.error (.reservation a.record.id e))⟩, w')
      | (.error (.crash c), w') =>
          some ([.claim false], .finished ⟨a.claimed now, .error (.crash c)⟩, w')
  | .acting now update next, w =>
      some ((handling now (next w)).1, (handling now (next w)).2, update w)
  | .waiting now _ _ next, w =>
      some ((handling now (next came)).1, (handling now (next came)).2, w)
  | .removing now, w =>
      match a.executor.backend.records.delete (a.claimed now) w with
      | (.ok (), w') => some ([.remove true], .finished ⟨a.claimed now, .ok ()⟩, w')
      | (.error (.error e), w') => some ([.remove false],
          .finished ⟨a.claimed now, .error (.error (.completion (a.claimed now).id e))⟩, w')
      | (.error (.crash c), w') =>
          some ([.remove false], .finished ⟨a.claimed now, .error (.crash c)⟩, w')
  | .stamping now cause, w =>
      let (later, w') := a.executor.backend.clock w
      some ([], if a.executor.overflows (a.claimed now)
        then .finished ⟨a.claimed now, .error (.crash Executor.overflowCrash)⟩
        else .releasing now later cause, w')
  | .releasing now later cause, w =>
      match a.executor.backend.records.save ((a.claimed now).markFailed later) w with
      | (.ok (), w') => some ([.release true],
          .finished ⟨(a.claimed now).markFailed later, .error (.error cause)⟩, w')
      | (.error (.error _), w') => some ([.release false],
          .finished ⟨(a.claimed now).markFailed later, .error (.error cause)⟩, w')
      | (.error (.crash c), w') => some ([.release false],
          .finished ⟨(a.claimed now).markFailed later, .error (.crash c)⟩, w')
  | .finished _, _ => none

/-! ### The phases are those of the code -/

/-- What is left of a run whose handler has these steps before it. -/
def handlerTask (a : Attempt W) (now : Instant) (t : Task W (Except (Fault JobError) Unit)) :
    Task W Ended :=
  (t.bind fun result => .done (Executor.resultOfHandler result)).bind fun result =>
    match result with
    | .ok () => a.executor.complete (a.claimed now)
    | .error e => a.executor.release (a.claimed now) e

/-- What is left of a run that will save its claim. -/
def claimTask (a : Attempt W) (now : Instant) : Task W Ended :=
  .act (fun w => (a.executor.backend.records.save (a.claimed now) w).2) fun w =>
    match (a.executor.backend.records.save (a.claimed now) w).1 with
    | .ok () => a.executor.afterClaim a.worker (a.claimed now)
    | .error (.error e) => .done ⟨a.record, .error (.error (.reservation a.record.id e))⟩
    | .error (.crash c) => .done ⟨a.claimed now, .error (.crash c)⟩

/-- What is left of the run in a phase of an attempt. -/
def task (a : Attempt W) : Phase W → Task W Ended
  | .fresh => .act (fun w => (a.executor.backend.clock w).2) fun w =>
      if a.record.isReserved a.executor.lease (a.executor.backend.clock w).1 then
        .done ⟨a.record, .error (.error (.alreadyReserved a.record.id))⟩
      else a.claimTask (a.executor.backend.clock w).1
  | .claiming now => a.claimTask now
  | .acting now update next => a.handlerTask now (.act update next)
  | .waiting now ready limit next => a.handlerTask now (.wait ready limit next)
  | .removing now => a.executor.complete (a.claimed now)
  | .stamping now cause => a.executor.release (a.claimed now) cause
  | .releasing now later cause =>
      let failed := (a.claimed now).markFailed later
      .act (fun w => (a.executor.backend.records.save failed w).2) fun w =>
        match (a.executor.backend.records.save failed w).1 with
        | .ok () | .error (.error _) => .done ⟨failed, .error (.error cause)⟩
        | .error (.crash c) => .done ⟨failed, .error (.crash c)⟩
  | .finished ended => .done ended

theorem task_start : a.task a.start = a.executor.run a.worker a.record := by
  unfold start
  cases checked : Executor.check a.record with
  | some e => rw [Executor.run_of_refused checked, task]
  | none => rw [Executor.run_eq checked, task]; rfl

theorem task_afterHandler {result : Except (Fault JobError) Unit} :
    a.task (afterHandler now result) = a.handlerTask now (.done result) := by
  unfold afterHandler handlerTask
  simp only [Task.bind]
  cases Executor.resultOfHandler result <;> rfl

theorem task_handling {t : Task W (Except (Fault JobError) Unit)} :
    a.task (handling now t).2 = a.handlerTask now t := by
  cases t with
  | done result => exact task_afterHandler
  | act update next => rfl
  | wait ready limit next => rfl

theorem task_afterClaim :
    a.task (a.afterClaim now).2 = a.executor.afterClaim a.worker (a.claimed now) := by
  unfold afterClaim
  rw [Executor.afterClaim_eq, Executor.execute_eq]
  cases a.executor.handlerFor (a.claimed now) with
  | error e => rfl
  | ok entry => exact task_handling

/-- A step of an attempt is a step of its task. -/
theorem step_task {came : Bool} {phase : Phase W} {w : W} : (a.task phase).step came w =
    (a.step came phase w).map fun after => (a.task after.2.1, after.2.2) := by
  cases phase with
  | fresh =>
      rw [task, Task.step, step, Option.map_some]
      dsimp only
      split <;> rfl
  | claiming now =>
      rw [task, claimTask, ← task_afterClaim, Task.step, step]
      rcases a.executor.backend.records.save (a.claimed now) w with ⟨(_ | _) | _, w'⟩ <;> rfl
  | acting now update next =>
      rw [task, step, Option.map_some, task_handling]
      rfl
  | waiting now ready limit next =>
      rw [task, step, Option.map_some, task_handling]
      rfl
  | removing now =>
      rw [task, Executor.complete_eq, Task.step, step]
      rcases a.executor.backend.records.delete (a.claimed now) w with ⟨(_ | _) | _, w'⟩ <;> rfl
  | stamping now cause =>
      rw [task, Executor.release_eq, Task.step, step, Option.map_some]
      dsimp only
      split <;> rfl
  | releasing now later cause =>
      rw [task, Task.step, step]
      rcases a.executor.backend.records.save ((a.claimed now).markFailed later) w with
        ⟨(_ | _) | _, w'⟩ <;> rfl
  | finished ended => rfl

/-- An attempt whose run is done has ended. -/
theorem finished_of_task_done {phase : Phase W} {ended : Ended}
    (done : a.task phase = .done ended) :
    phase = .finished ended := by
  cases phase with
  | finished ended' =>
      cases done
      rfl
  | fresh | claiming | releasing => simp [task, claimTask] at done
  | acting | waiting => simp [task, handlerTask, Task.bind] at done
  | removing => simp [task, Executor.complete_eq] at done
  | stamping => simp [task, Executor.release_eq] at done

/-! ### What a phase tells -/

/-- Whether an attempt in a phase can have done this, and no more. -/
def Told : Phase W → List Deed → Prop
  | .fresh, deeds | .claiming _, deeds => deeds = []
  | .acting .., deeds | .waiting .., deeds => deeds = [.claim true]
  | .removing _, deeds => deeds = [.claim true, .handle (.ok ())]
  | .stamping .., deeds | .releasing .., deeds => ∀ done, .remove done ∉ deeds
  | .finished ended, deeds =>
      ended.result = .ok () ∧ deeds = [.claim true, .handle (.ok ()), .remove true] ∨
        ended.result ≠ .ok () ∧ .remove true ∉ deeds

theorem told_start : Told a.start [] := by
  unfold start
  split
  · exact Or.inr ⟨by simp, by simp⟩
  · rfl

theorem told_handling {t : Task W (Except (Fault JobError) Unit)} :
    Told (handling now t).2 (.claim true :: (handling now t).1) := by
  cases t with
  | act update next => rfl
  | wait ready limit next => rfl
  | done result =>
      unfold handling afterHandler
      cases result with
      | ok _ => rfl
      | error fault =>
          cases fault <;> simp [Executor.resultOfHandler, Told]

theorem told_afterClaim : Told (a.afterClaim now).2 (.claim true :: (a.afterClaim now).1) := by
  unfold afterClaim
  split
  · simp [Told]
  · exact told_handling

/-- A step adds its deeds to what the phase tells. -/
theorem Told.step {came : Bool} {phase phase' : Phase W} {w w' : W} {deeds new : List Deed}
    (told : Told phase deeds) (happens : a.step came phase w = some (new, phase', w')) :
    Told phase' (deeds ++ new) := by
  cases phase with
  | finished => simp [Attempt.step] at happens
  | fresh =>
      simp only [Attempt.step, Option.some.injEq, Prod.mk.injEq] at happens
      obtain ⟨rfl, rfl, _⟩ := happens
      subst told
      split
      · exact Or.inr ⟨by simp, by simp⟩
      · rfl
  | claiming now =>
      subst told
      simp only [Attempt.step] at happens
      split at happens <;> cases happens
      · exact told_afterClaim
      · exact Or.inr ⟨by simp, by simp⟩
      · exact Or.inr ⟨by simp, by simp⟩
  | acting now update next =>
      subst told
      cases happens
      exact told_handling
  | waiting now ready limit next =>
      subst told
      cases happens
      exact told_handling
  | removing now =>
      subst told
      simp only [Attempt.step] at happens
      split at happens <;> cases happens
      · exact Or.inl ⟨rfl, rfl⟩
      · exact Or.inr ⟨by simp, by simp⟩
      · exact Or.inr ⟨by simp, by simp⟩
  | stamping now cause =>
      simp only [Attempt.step, Option.some.injEq, Prod.mk.injEq] at happens
      obtain ⟨rfl, rfl, _⟩ := happens
      rw [List.append_nil]
      split
      · exact Or.inr ⟨nofun, told true⟩
      · exact told
  | releasing now later cause =>
      simp only [Told] at told
      simp only [Attempt.step] at happens
      split at happens <;> cases happens <;> exact Or.inr ⟨by simp, by simp [told]⟩

end Attempt

end JobQueue
