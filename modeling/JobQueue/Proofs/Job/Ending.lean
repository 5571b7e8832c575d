/-
How runs end whose handlers leave the records alone.

A task `Brings` about an ending from what is kept under its id if it comes to a value, and leaves
something under its id, that the ending allows together, whatever others do in the meantime under
other ids. Where the store fails only where nothing is kept and handlers leave the records alone
(`Executor.Gentle`), a run ends in one of six ways (`Executor.Ends`, `Gentle.brings_run`), whatever
the clock shows. In one of them it breaks off, since the number of attempts is the greatest there
is.
-/

import JobQueue.Proofs.Job.Fate

namespace JobQueue

variable {W C : Type} {shelf : Shelf W C} {id : String}

namespace Task

variable {α β : Type} {ending : α → Option C → Prop} {before : Option C} {t : Task W α}

/-- Whatever others do under other ids, the task ends with a value and leaves something under its
own id as the ending allows, if it finds `before` there. -/
def Brings (shelf : Shelf W C) (id : String) (ending : α → Option C → Prop) :
    Task W α → Option C → Prop
  | .done a, before => ending a before
  | .act update next, before => ∀ w, shelf.Good w → shelf.cell w id = before →
      shelf.SameBut id w (update w) ∧ Brings shelf id ending (next w) (shelf.cell (update w) id)
  | .wait _ _ next, before => ∀ came, Brings shelf id ending (next came) before

theorem Brings.mono {ending' : α → Option C → Prop} (brings : t.Brings shelf id ending before)
    (weaker : ∀ a kept, ending a kept → ending' a kept) : t.Brings shelf id ending' before := by
  induction t generalizing before with
  | done a => exact weaker a before brings
  | act update next ih =>
      intro w good kept
      obtain ⟨apart, later⟩ := brings w good kept
      exact ⟨apart, ih w later⟩
  | wait ready limit next ih => exact fun came => ih came (brings came)

theorem Brings.bind {k : α → Task W β} {ending' : β → Option C → Prop}
    (first : t.Brings shelf id ending before)
    (later : ∀ a middle, ending a middle → (k a).Brings shelf id ending' middle) :
    (t.bind k).Brings shelf id ending' before := by
  induction t generalizing before with
  | done a => exact later a before first
  | act update next ih =>
      intro w good kept
      obtain ⟨apart, brings⟩ := first w good kept
      exact ⟨apart, ih w brings⟩
  | wait ready limit next ih => exact fun came => ih came (first came)

/-- A task that leads to a value brings about just that. -/
theorem leads_iff_brings {value : α} {after : Option C} : t.Leads shelf id value after before ↔
    t.Brings shelf id (fun a kept => a = value ∧ kept = after) before := by
  induction t generalizing before with
  | done a => exact Iff.rfl
  | act update next ih =>
      exact forall_congr' fun w => imp_congr_right fun _ => imp_congr_right fun _ =>
        and_congr_right fun _ => ih w
  | wait ready limit next ih => exact forall_congr' fun came => ih came

/-- A task that leaves the records alone leaves what it finds. -/
theorem Spares.brings (spares : t.Spares shelf) :
    t.Brings shelf id (fun _ kept => kept = before) before := by
  induction t with
  | done a => exact rfl
  | act update next ih =>
      intro w good kept
      obtain ⟨same, later⟩ := spares w good
      refine ⟨same.but, ?_⟩
      rw [same.cell, kept]
      exact ih w later
  | wait ready limit next ih => exact fun came => ih came (spares came)

end Task

namespace Executor

variable {x : Executor W} {reading : Instant → Prop} {r : JobRecord} {worker : Option Nat}
  {before : Option C}

/-- The store fails only where nothing is kept, the clock shows certain times and changes nothing,
and handlers leave all records alone. -/
structure Gentle (x : Executor W) (shelf : Shelf W C) (reading : Instant → Prop) : Prop where
  store : shelf.Reliable x.backend.records
  reading : ∀ w, shelf.Good w → reading (x.backend.clock w).1
  ticking : ∀ w, shelf.Good w → shelf.Same w (x.backend.clock w).2
  handlers : ∀ jobType handler, x.registry.get jobType = .ok handler →
    ∀ context job, (handler.run context job).run.Spares shelf

/-- The ways in which a run can end, by what is kept under its id before it and after it. -/
inductive Ends (x : Executor W) (shelf : Shelf W C) (reading : Instant → Prop) (r : JobRecord) :
    Option C → Ended → Option C → Prop where
  | refused {before : Option C} {e : JobError} (checked : check r = some e) :
      Ends x shelf reading r before ⟨r, .error (.error e)⟩ before
  | leased {before : Option C} {now : Instant} (checked : check r = none) (read : reading now)
      (held : r.isReserved x.lease now = true) :
      Ends x shelf reading r before ⟨r, .error (.error (.alreadyReserved r.id))⟩ before
  | missing (checked : check r = none) :
      Ends x shelf reading r none
        ⟨r, .error (.error (.reservation r.id (.notFound r.id)))⟩ none
  | completed {c : C} {began : Instant} (checked : check r = none) :
      Ends x shelf reading r (some c) ⟨r.reserve began, .ok ()⟩ none
  | failed {c : C} {began now : Instant} {e : JobError} (checked : check r = none) :
      Ends x shelf reading r (some c) ⟨(r.reserve began).markFailed now, .error (.error e)⟩
        (some (shelf.written ((r.reserve began).markFailed now)
          (shelf.written (r.reserve began) c)))
  | brokenOff {c : C} {began : Instant} (checked : check r = none)
      (uncounted : x.overflows r = true) :
      Ends x shelf reading r (some c) ⟨r.reserve began, .error (.crash overflowCrash)⟩
        (some (shelf.written (r.reserve began) c))

/-- No run breaks off whose failure can be counted. -/
theorem Ends.whole {ended : Ended} {after : Option C}
    (ends : Ends x shelf reading r before ended after) (counted : x.overflows r = false) :
    ∃ result, ended.result = Except.mapError Fault.error result := by
  cases ends with
  | completed => exact ⟨.ok (), rfl⟩
  | refused | leased | missing | failed => exact ⟨.error _, rfl⟩
  | brokenOff _ uncounted => cases counted.symm.trans uncounted

variable (gentle : x.Gentle shelf reading)

include gentle

/-- The end of a run that has kept its claim and whose handler has succeeded. -/
theorem Gentle.brings_complete {c : C} : (x.complete r).Brings shelf r.id
    (fun ended kept => ended = ⟨r, .ok ()⟩ ∧ kept = none) (some c) := by
  rw [complete_eq]
  intro w good kept
  obtain ⟨apart, answered, here⟩ := gentle.store.deleted good kept rfl
  refine ⟨apart, ?_⟩
  dsimp only
  rw [answered, here]
  exact ⟨rfl, rfl⟩

/-- The end of a run that has kept its claim and whose handler has failed. -/
theorem Gentle.brings_release {c : C} {cause : JobError} : (x.release r cause).Brings shelf r.id
    (fun ended kept =>
      (∃ now, ended = ⟨r.markFailed now, .error (.error cause)⟩ ∧
        kept = some (shelf.written (r.markFailed now) c)) ∨
      x.overflows r = true ∧ ended = ⟨r, .error (.crash overflowCrash)⟩ ∧ kept = some c)
    (some c) := by
  rw [release_eq]
  intro w good kept
  refine ⟨(gentle.ticking w good).but, ?_⟩
  dsimp only
  rw [(gentle.ticking w good).cell, kept]
  split
  next uncounted => exact .inr ⟨uncounted, rfl, rfl⟩
  next =>
    intro w' good' kept'
    obtain ⟨apart, answered, here⟩ :=
      gentle.store.saved (r := r.markFailed (x.backend.clock w).1) good' kept' rfl
    refine ⟨apart, ?_⟩
    dsimp only
    rw [answered, here]
    exact .inl ⟨_, rfl, rfl⟩

/-- A handler leaves the claim of its run where it is. -/
theorem Gentle.brings_execute {kept : Option C} : (x.execute worker r).Brings shelf r.id
    (fun _ after => after = kept) kept := by
  rw [execute_eq]
  cases found : x.handlerFor r with
  | error e => exact rfl
  | ok entry =>
      have spares := gentle.handlers _ _ (of_handlerFor found).2
        (JobContext.ofJob entry.2 worker) entry.2
      exact spares.brings.bind fun _ _ same => same

/-- A run ends in one of the six ways, whoever runs it and whatever happens to other records
meanwhile. -/
theorem Gentle.brings_run :
    (x.run worker r).Brings shelf r.id (x.Ends shelf reading r before) before := by
  cases checked : check r with
  | some e =>
      rw [run_of_refused checked]
      exact .refused checked
  | none =>
      rw [run_eq checked]
      intro w good kept
      refine ⟨(gentle.ticking w good).but, ?_⟩
      dsimp only
      rw [(gentle.ticking w good).cell, kept]
      split
      next held => exact .leased checked (gentle.reading w good) held
      next =>
        generalize (x.backend.clock w).1 = began
        intro w' good' kept'
        obtain ⟨apart, answered, here⟩ :=
          gentle.store.saved (r := r.reserve began) good' kept' rfl
        refine ⟨apart, ?_⟩
        dsimp only
        rw [answered, here]
        cases before with
        | none => exact .missing checked
        | some c =>
            dsimp only [Shelf.answer, Option.bind_some]
            rw [afterClaim_eq]
            refine (gentle.brings_execute (r := r.reserve began)).bind fun result kept same => ?_
            subst same
            cases result with
            | ok _ =>
                refine (gentle.brings_complete (r := r.reserve began)).mono ?_
                rintro ended after ⟨rfl, rfl⟩
                exact .completed checked
            | error e =>
                refine (gentle.brings_release (r := r.reserve began)).mono ?_
                rintro ended after (⟨now, rfl, rfl⟩ | ⟨uncounted, rfl, rfl⟩)
                · exact .failed checked
                · exact .brokenOff checked uncounted

end Executor

end JobQueue
