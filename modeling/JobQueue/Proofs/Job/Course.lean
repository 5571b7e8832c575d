/-
The course of a run, step by step.

A run reads the clock, saves its claim, takes the steps of its handler, and then either deletes the
record or reads the clock again and saves it as failed. The equations `run_eq`, `afterClaim_eq`,
`execute_eq`, `complete_eq` and `release_eq` show these steps, and `runAll_cons` those of one run
after another; all that is proved about runs goes through them.

Only the handlers of a run wait: what holds of all their waits holds of all waits of the run
(`waitsOnly_run`).
-/

import JobQueue.Job.Lifecycle
import JobQueue.Proofs.Record.Attempts

namespace JobQueue

namespace Task

variable {W α β : Type}

/-- Whether a task waits only where the limit of the wait is one that is allowed. -/
def WaitsOnly (allowed : Option Nat → Prop) : Task W α → Prop
  | .done _ => True
  | .act _ next => ∀ w, (next w).WaitsOnly allowed
  | .wait _ limit next => allowed limit ∧ ∀ came, (next came).WaitsOnly allowed

theorem WaitsOnly.bind {allowed : Option Nat → Prop} {t : Task W α} {k : α → Task W β}
    (waits : t.WaitsOnly allowed) (later : ∀ a, (k a).WaitsOnly allowed) :
    (t.bind k).WaitsOnly allowed := by
  induction t with
  | done a => exact later a
  | act update next ih => exact fun w => ih w (waits w)
  | wait ready limit next ih => exact ⟨waits.1, fun came => ih came (waits.2 came)⟩

end Task

/-- The fault of a task from that of its store. -/
def Fault.ofStore : Fault StoreError → Fault JobError
  | .error e => .error (.store e)
  | .crash c => .crash c

namespace JobTask

variable {W α β : Type}

theorem run_bind (t : JobTask W α) (k : α → JobTask W β) : (t >>= k).run =
    t.run.bind fun result =>
      match result with
      | .ok a => (k a).run
      | .error fault => .done (.error fault) := by
  show Task.bind _ _ = Task.bind _ _
  congr 1
  funext result
  cases result <;> rfl

theorem run_perform_bind {step : W → α × W} {k : α → JobTask W β} :
    (perform step >>= k).run = .act (fun w => (step w).2) fun w => (k (step w).1).run := rfl

theorem run_call {c : StoreCall W α} : (call c).run = .act (fun w => (c w).2) fun w =>
    match (c w).1 with
    | .ok a => .done (.ok a)
    | .error (.error e) => .done (.error (.error (.store e)))
    | .error (.crash c) => .done (.error (.crash c)) := rfl

theorem run_call_eq {call : StoreCall W α} : (JobTask.call call).run =
    .act (fun w => (call w).2) fun w => .done ((call w).1.mapError Fault.ofStore) := by
  show Task.bind (Task.perform call) _ = _
  rw [Task.perform, Task.bind]
  congr 1
  funext w
  rw [Task.bind]
  cases (call w).1 with
  | ok a => rfl
  | error fault => cases fault <;> rfl

end JobTask

theorem Job.of_ofRecord {r : JobRecord} {job : Job} (read : Job.ofRecord r = .ok job) :
    job.id = r.id ∧ Payload.parse r.payload = .ok job.payload ∧
      Payload.validate job.payload = .ok job.jobType := by
  rw [Job.ofRecord] at read
  cases parsed : Payload.parse r.payload with
  | error e => simp [parsed, bind, Except.bind] at read
  | ok fields =>
      cases valid : Payload.validate fields with
      | error e => simp [parsed, valid, bind, Except.bind] at read
      | ok jobType =>
          simp only [parsed, valid, bind, Except.bind] at read
          cases read
          exact ⟨rfl, rfl, valid⟩

namespace Executor

variable {W : Type} {x : Executor W} {worker : Option Nat} {r : JobRecord}

/-- A count that is not the greatest there is can go on. -/
theorem overflows_of_not_spent (unspent : r.isSpent = false) : x.overflows r = false := by
  unfold overflows
  split
  · rfl
  · exact unspent

/-- The result of a job from the way in which its handler ended. -/
def resultOfHandler : Except (Fault JobError) Unit → Except JobError Unit
  | .ok () => .ok ()
  | .error (.error e) => .error e
  | .error (.crash c) => .error (.crashed c.message)

/-- The handler that a claimed record is given to, with its job. -/
def handlerFor (x : Executor W) (r : JobRecord) : Except JobError (Handler W × Job) :=
  match Job.ofRecord r with
  | .error e => .error e
  | .ok job => (x.registry.get job.jobType).map fun handler => (handler, job)

theorem execute_eq : x.execute worker r =
    match x.handlerFor r with
    | .error e => .done (.error e)
    | .ok (handler, job) => (handler.run (JobContext.ofJob job worker) job).run.bind fun result =>
        .done (resultOfHandler result) := by
  unfold execute handlerFor
  cases Job.ofRecord r with
  | error e => rfl
  | ok job =>
      cases found : x.registry.get job.jobType with
      | error e => simp [found, Except.map]
      | ok handler =>
          simp only [found, Except.map]
          show Task.bind _ _ = Task.bind _ _
          congr 1
          funext result
          cases result with
          | ok _ => rfl
          | error fault => cases fault <;> rfl

theorem afterClaim_eq : x.afterClaim worker r = (x.execute worker r).bind fun result =>
    match result with
    | .ok () => x.complete r
    | .error e => x.release r e := rfl

theorem complete_eq : x.complete r = .act (fun w => (x.backend.records.delete r w).2) fun w =>
    match (x.backend.records.delete r w).1 with
    | .ok () => .done ⟨r, .ok ()⟩
    | .error (.error e) => .done ⟨r, .error (.error (.completion r.id e))⟩
    | .error (.crash c) => .done ⟨r, .error (.crash c)⟩ := rfl

theorem release_eq {cause : JobError} : x.release r cause =
    .act (fun w => (x.backend.clock w).2) fun w =>
      if x.overflows r then .done ⟨r, .error (.crash overflowCrash)⟩
      else
        let failed := r.markFailed (x.backend.clock w).1
        .act (fun w => (x.backend.records.save failed w).2) fun w =>
          match (x.backend.records.save failed w).1 with
          | .ok () | .error (.error _) => .done ⟨failed, .error (.error cause)⟩
          | .error (.crash c) => .done ⟨failed, .error (.crash c)⟩ := rfl

theorem run_of_refused {e : JobError} (refused : check r = some e) :
    x.run worker r = .done ⟨r, .error (.error e)⟩ := by
  rw [run, refused]

theorem run_eq (fine : check r = none) : x.run worker r =
    .act (fun w => (x.backend.clock w).2) fun w =>
      if r.isReserved x.lease (x.backend.clock w).1 then
        .done ⟨r, .error (.error (.alreadyReserved r.id))⟩
      else
        let claimed := r.reserve (x.backend.clock w).1
        .act (fun w => (x.backend.records.save claimed w).2) fun w =>
          match (x.backend.records.save claimed w).1 with
          | .ok () => x.afterClaim worker claimed
          | .error (.error e) => .done ⟨r, .error (.error (.reservation r.id e))⟩
          | .error (.crash c) => .done ⟨claimed, .error (.crash c)⟩ := by
  unfold run
  rw [fine]
  rfl

theorem runAll_cons {rest : List JobRecord} : x.runAll (r :: rest) =
    (x.run none r).bind fun ended =>
      match ended.result with
      | .error (.crash c) => .done (.error c)
      | .error (.error e) => (x.runAll rest).bind fun results => .done (results.map (.error e :: ·))
      | .ok () => (x.runAll rest).bind fun results => .done (results.map (.ok () :: ·)) := rfl

/-- Whether the handlers wait only where the limit of the wait is one that is allowed. -/
def WaitsOnly (allowed : Option Nat → Prop) (x : Executor W) : Prop :=
  ∀ jobType handler, x.registry.get jobType = .ok handler →
    ∀ context job, (handler.run context job).run.WaitsOnly allowed

/-- Whether no handler waits. -/
def Prompt (x : Executor W) : Prop := x.WaitsOnly fun _ => False

variable {allowed : Option Nat → Prop}

theorem of_handlerFor {handler : Handler W} {job : Job}
    (found : x.handlerFor r = .ok (handler, job)) :
    Job.ofRecord r = .ok job ∧ x.registry.get job.jobType = .ok handler := by
  unfold handlerFor at found
  cases read : Job.ofRecord r with
  | error e => simp [read] at found
  | ok job' =>
      rw [read] at found
      cases registered : x.registry.get job'.jobType with
      | error e => simp [registered, Except.map] at found
      | ok handler' =>
          simp only [registered, Except.map, Except.ok.injEq, Prod.mk.injEq] at found
          obtain ⟨rfl, rfl⟩ := found
          exact ⟨rfl, registered⟩

theorem waitsOnly_execute (handlers : x.WaitsOnly allowed) :
    (x.execute worker r).WaitsOnly allowed := by
  rw [execute_eq]
  cases found : x.handlerFor r with
  | error e => trivial
  | ok entry =>
      exact (handlers _ _ (of_handlerFor found).2 _ _).bind fun _ => trivial

theorem waitsOnly_afterClaim (handlers : x.WaitsOnly allowed) :
    (x.afterClaim worker r).WaitsOnly allowed := by
  rw [afterClaim_eq]
  apply (waitsOnly_execute handlers).bind
  intro result
  cases result with
  | ok _ =>
      simp only [complete_eq]
      intro w
      dsimp only
      split <;> trivial
  | error e =>
      simp only [release_eq]
      intro w
      split
      · trivial
      · intro w'
        dsimp only
        split <;> trivial

/-- A run waits only where its handler does. -/
theorem waitsOnly_run (handlers : x.WaitsOnly allowed) : (x.run worker r).WaitsOnly allowed := by
  cases checked : check r with
  | some e =>
      rw [run_of_refused checked]
      trivial
  | none =>
      rw [run_eq checked]
      intro w
      dsimp only
      split
      · trivial
      · intro w'
        dsimp only
        split
        · exact waitsOnly_afterClaim handlers
        · trivial
        · trivial

end Executor

end JobQueue
