/-
What becomes of runs whose handlers keep to their own records.

A task `Leads` from what is kept under its id to a value, and to what is kept there after it, if
it does so whatever others do in the meantime under other ids. Where the clock stands still, the
store is reliable and what handlers come to depends on the job and on what is kept under its id
(`Executor.Steady`), this holds of whole runs, and the value is the run's `fate` (`leads_run`).
-/

import JobQueue.Proofs.Job.Course
import JobQueue.Proofs.Store.Shelf

namespace JobQueue

variable {W C : Type} {shelf : Shelf W C} {id : String}

namespace Task

variable {α β : Type} {value : α} {before middle after : Option C} {t : Task W α}

/-- Whatever others do under other ids, the task ends with a value, and leaves `after` under its
own id if it finds this there. -/
def Leads (shelf : Shelf W C) (id : String) (value : α) (after : Option C) :
    Task W α → Option C → Prop
  | .done a, before => a = value ∧ before = after
  | .act update next, before => ∀ w, shelf.Good w → shelf.cell w id = before →
      shelf.SameBut id w (update w) ∧ Leads shelf id value after (next w) (shelf.cell (update w) id)
  | .wait _ _ next, before => ∀ came, Leads shelf id value after (next came) before

theorem Leads.bind {k : α → Task W β} {result : β} (first : t.Leads shelf id value middle before)
    (later : (k value).Leads shelf id result after middle) :
    (t.bind k).Leads shelf id result after before := by
  induction t generalizing before with
  | done a =>
      obtain ⟨rfl, rfl⟩ := first
      exact later
  | act update next ih =>
      intro w good kept
      obtain ⟨apart, leads⟩ := first w good kept
      exact ⟨apart, ih w leads⟩
  | wait ready limit next ih => exact fun came => ih came (first came)

/-- A task that nobody interrupts comes to where it leads. -/
theorem Leads.runAlone {w : W} (leads : t.Leads shelf id value after (shelf.cell w id))
    (good : shelf.Good w) : (t.runAlone w).1 = value ∧ shelf.Good (t.runAlone w).2 ∧
      shelf.cell (t.runAlone w).2 id = after ∧ shelf.SameBut id w (t.runAlone w).2 := by
  induction t generalizing w with
  | done a => exact ⟨leads.1, good, leads.2, Shelf.Same.refl.but⟩
  | act update next ih =>
      obtain ⟨apart, later⟩ := leads w good rfl
      obtain ⟨result, good', kept, apart'⟩ := ih w later (apart.good good)
      refine ⟨result, good', kept, fun _ => good', ?_⟩
      intro other differs
      exact (apart'.cell other differs).trans (apart.cell other differs)
  | wait ready limit next ih => exact ih (ready w) (leads (ready w)) good

theorem bind_assoc {γ : Type} {k : α → Task W β} {l : β → Task W γ} :
    (t.bind k).bind l = t.bind fun a => (k a).bind l := by
  induction t with
  | done a => rfl
  | act update next ih => exact congrArg _ (funext ih)
  | wait ready limit next ih => exact congrArg _ (funext ih)

theorem runAlone_bind {k : α → Task W β} {w : W} :
    (t.bind k).runAlone w = (k (t.runAlone w).1).runAlone (t.runAlone w).2 := by
  induction t generalizing w with
  | done a => rfl
  | act update next ih => exact ih w
  | wait ready limit next ih => exact ih (ready w)

end Task

namespace JobTask

variable {α β : Type} {w : W}

theorem runAlone_bind (t : JobTask W α) (k : α → JobTask W β) (w : W) :
    (t >>= k).run.runAlone w =
      match t.run.runAlone w with
      | (.ok a, w') => (k a).run.runAlone w'
      | (.error fault, w') => (.error fault, w') := by
  rw [run_bind, Task.runAlone_bind]
  rcases t.run.runAlone w with ⟨result, w'⟩
  cases result <;> rfl

theorem runAlone_ofExcept (result : Except JobError α) :
    (ofExcept result : JobTask W α).run.runAlone w = (result.mapError Fault.error, w) := by
  cases result <;> rfl

theorem runAlone_perform (step : W → α × W) :
    (perform step).run.runAlone w = (.ok (step w).1, (step w).2) := rfl

theorem runAlone_call (call : StoreCall W α) (w : W) :
    (JobTask.call call).run.runAlone w = ((call w).1.mapError Fault.ofStore, (call w).2) := by
  rw [run_call_eq]
  rfl

end JobTask

namespace Executor

variable {x : Executor W} {now : Instant} {r : JobRecord} {worker : Option Nat}
  {before after : Option C}

/-- What handlers come to, and what they leave under the id of their job. -/
abbrev Verdict (C : Type) := Job → Option C → Except (Fault JobError) Unit × Option C

/-- Each handler comes to what the verdict says, whoever runs it, and leaves the records of other
ids alone. -/
def Obeys (x : Executor W) (shelf : Shelf W C) (verdict : Verdict C) : Prop :=
  ∀ job handler, x.registry.get job.jobType = .ok handler → ∀ worker before,
    (handler.run (JobContext.ofJob job worker) job).run.Leads shelf job.id
      (verdict job before).1 (verdict job before).2 before

/-- The store fails only where nothing is kept, the clock stands still, and the handlers obey. -/
structure Steady (x : Executor W) (shelf : Shelf W C) (now : Instant) (verdict : Verdict C) :
    Prop where
  store : shelf.Reliable x.backend.records
  reading : ∀ w, shelf.Good w → (x.backend.clock w).1 = now
  ticking : ∀ w, shelf.Good w → shelf.Same w (x.backend.clock w).2
  handlers : x.Obeys shelf verdict

/-- The end of a run whose handler has succeeded. -/
def completed (r : JobRecord) : Option C → Ended × Option C
  | some _ => (⟨r, .ok ()⟩, none)
  | none => (⟨r, .error (.error (.completion r.id (.notFound r.id)))⟩, none)

/-- The end of a run whose handler has failed. -/
def released (x : Executor W) (shelf : Shelf W C) (now : Instant) (r : JobRecord)
    (cause : JobError) (before : Option C) : Ended × Option C :=
  if x.overflows r then (⟨r, .error (.crash overflowCrash)⟩, before)
  else (⟨r.markFailed now, .error (.error cause)⟩, before.map (shelf.written (r.markFailed now)))

/-- The end of a run whose claim has been saved. -/
def claimed (x : Executor W) (shelf : Shelf W C) (now : Instant) (verdict : Verdict C)
    (r : JobRecord) (before : Option C) : Ended × Option C :=
  match x.handlerFor r with
  | .error e => x.released shelf now r e before
  | .ok (_, job) =>
      match resultOfHandler (verdict job before).1 with
      | .ok () => completed r (verdict job before).2
      | .error e => x.released shelf now r e (verdict job before).2

/-- How a run ends, and what it leaves under the id of its record. -/
def fate (x : Executor W) (shelf : Shelf W C) (now : Instant) (verdict : Verdict C)
    (r : JobRecord) (before : Option C) : Ended × Option C :=
  match check r with
  | some e => (⟨r, .error (.error e)⟩, before)
  | none =>
      if r.isReserved x.lease now then
        (⟨r, .error (.error (.alreadyReserved r.id))⟩, before)
      else
        match before with
        | none => (⟨r, .error (.error (.reservation r.id (.notFound r.id)))⟩, none)
        | some old =>
            x.claimed shelf now verdict (r.reserve now) (some (shelf.written (r.reserve now) old))

variable {verdict : Verdict C}

theorem Steady.leads_complete (steady : x.Steady shelf now verdict) :
    (x.complete r).Leads shelf r.id (completed r before).1 (completed r before).2 before := by
  rw [complete_eq]
  intro w good kept
  obtain ⟨apart, answered, here⟩ := steady.store.deleted good kept rfl
  refine ⟨apart, ?_⟩
  dsimp only
  rw [answered, here]
  cases before <;> exact ⟨rfl, rfl⟩

theorem Steady.leads_release (steady : x.Steady shelf now verdict) {cause : JobError} :
    (x.release r cause).Leads shelf r.id (x.released shelf now r cause before).1
      (x.released shelf now r cause before).2 before := by
  rw [release_eq]
  intro w good kept
  refine ⟨(steady.ticking w good).but, ?_⟩
  dsimp only
  rw [steady.reading w good, (steady.ticking w good).cell, kept, released]
  split
  · exact ⟨rfl, rfl⟩
  · intro w' good' kept'
    obtain ⟨apart, answered, here⟩ := steady.store.saved (r := r.markFailed now) good' kept' rfl
    refine ⟨apart, ?_⟩
    dsimp only
    rw [answered, here]
    cases before <;> exact ⟨rfl, rfl⟩

theorem Steady.leads_afterClaim (steady : x.Steady shelf now verdict) :
    (x.afterClaim worker r).Leads shelf r.id (x.claimed shelf now verdict r before).1
      (x.claimed shelf now verdict r before).2 before := by
  rw [afterClaim_eq, execute_eq, claimed]
  cases found : x.handlerFor r with
  | error e => exact steady.leads_release
  | ok entry =>
      obtain ⟨handler, job⟩ := entry
      obtain ⟨read, registered⟩ := of_handlerFor found
      have leads := steady.handlers job handler registered worker before
      rw [(Job.of_ofRecord read).1] at leads
      have ended : ((handler.run (JobContext.ofJob job worker) job).run.bind fun result =>
          .done (resultOfHandler result)).Leads shelf r.id
            (resultOfHandler (verdict job before).1) (verdict job before).2 before :=
        leads.bind ⟨rfl, rfl⟩
      apply ended.bind
      dsimp only
      cases resultOfHandler (verdict job before).1 with
      | ok _ => exact steady.leads_complete
      | error e => exact steady.leads_release

/-- A run meets its fate, whoever runs it and whatever happens to other records meanwhile. -/
theorem Steady.leads_run (steady : x.Steady shelf now verdict) :
    (x.run worker r).Leads shelf r.id (x.fate shelf now verdict r before).1
      (x.fate shelf now verdict r before).2 before := by
  unfold fate
  cases checked : check r with
  | some e =>
      rw [run_of_refused checked]
      exact ⟨rfl, rfl⟩
  | none =>
      rw [run_eq checked]
      intro w good kept
      refine ⟨(steady.ticking w good).but, ?_⟩
      dsimp only
      rw [steady.reading w good, (steady.ticking w good).cell, kept]
      split
      · exact ⟨rfl, rfl⟩
      · intro w' good' kept'
        obtain ⟨apart, answered, here⟩ :=
          steady.store.saved (r := r.reserve now) good' kept' rfl
        refine ⟨apart, ?_⟩
        dsimp only
        rw [answered, here]
        cases before with
        | none => exact ⟨rfl, rfl⟩
        | some old => exact steady.leads_afterClaim (r := r.reserve now)

/-- No run breaks off whose failure can be counted. -/
theorem fate_result (counted : x.overflows r = false) : ∃ result,
    (x.fate shelf now verdict r before).1.result = Except.mapError Fault.error result := by
  have fromReleased : ∀ (cause : JobError) (cell : Option C), ∃ result,
      (x.released shelf now (r.reserve now) cause cell).1.result =
        Except.mapError Fault.error result := by
    intro cause cell
    have same : x.overflows (r.reserve now) = x.overflows r := rfl
    rw [released, same, counted]
    exact ⟨.error cause, rfl⟩
  have fromCompleted : ∀ (r : JobRecord) (cell : Option C),
      ∃ result, (completed r cell).1.result = Except.mapError Fault.error result := by
    intro r cell
    cases cell with
    | none => exact ⟨.error _, rfl⟩
    | some _ => exact ⟨.ok (), rfl⟩
  unfold fate
  split
  · exact ⟨.error _, rfl⟩
  · split
    · exact ⟨.error _, rfl⟩
    · split
      · exact ⟨.error _, rfl⟩
      · unfold claimed
        split
        · exact fromReleased _ _
        · split
          · exact fromCompleted _ _
          · exact fromReleased _ _

end Executor

end JobQueue
