/-
The ways in which a run ends.

Where saves and deletes may fail, but change nothing when they do (`Executor.Fallible`), a run of a
record that does not have the greatest number of attempts ends in just one of five ways
(`Executor.Way`): it refuses its record, it cannot save its claim, it does the job and deletes the
record, it does the job and cannot delete the record, or the job fails. For each way
`Executor.Course` says what comes back, what the store keeps, and what the log of the run shows
(`Executor.course_run`): no handler begins but once, right after the claim has been saved.

What a handler does to the store of its own accord stays: where it removes its own record, no claim
is left for a delete that fails (`Simulation.completion_without_claim`).
-/

import JobQueue.Proofs.Job.Watch
import JobQueue.Proofs.Simulation.Calm
import Mathlib.Logic.ExistsUnique

namespace JobQueue

variable {W C : Type} {shelf : Shelf W C}

/-- A task that leaves the records alone leaves them alone when nobody else is at work. -/
theorem Task.Spares.same {α : Type} {t : Task W α} {w : W} (spares : t.Spares shelf)
    (good : shelf.Good w) : shelf.Same w (t.runAlone w).2 := by
  induction t generalizing w with
  | done a => exact .refl
  | act update next ih =>
      obtain ⟨same, later⟩ := spares w good
      exact same.trans (ih w later (same.good good))
  | wait ready limit next ih => exact ih (ready w) (spares (ready w)) good

/-! ### When handlers begin -/

/-- Whether an entry is the beginning of a handler. -/
def Entry.IsBeginning : Entry W → Prop
  | .began _ _ => True
  | _ => False

/-- Whether handlers begin only once, and right after the claim has been saved. -/
def BeginsClaimed (claim : JobRecord) (log : List (Entry W)) : Prop :=
  ∀ earlier entry later, log = earlier ++ entry :: later → entry.IsBeginning →
    earlier = [.saved claim (.ok ())] ∧ ∀ other ∈ later, ¬ other.IsBeginning

theorem beginsClaimed_of_forall {claim : JobRecord} {log : List (Entry W)}
    (none : ∀ entry ∈ log, ¬ entry.IsBeginning) : BeginsClaimed claim log := by
  rintro earlier entry later rfl begins
  exact absurd begins (none entry (by simp))

theorem beginsClaimed_cons {claim : JobRecord} {job : Job} {w : W} {rest : List (Entry W)}
    (none : ∀ entry ∈ rest, ¬ entry.IsBeginning) :
    BeginsClaimed claim (.saved claim (.ok ()) :: .began job w :: rest) := by
  intro earlier entry later same begins
  match earlier with
  | [] =>
      cases same
      cases begins
  | [first] =>
      cases same
      exact ⟨rfl, none⟩
  | first :: second :: earlier =>
      obtain ⟨_, same⟩ := List.cons.inj same
      obtain ⟨_, rfl⟩ := List.cons.inj same
      exact absurd begins (none entry (by simp))

namespace Executor

variable {x : Executor W} {r claim : JobRecord} {worker : Option Nat} {w w₁ w₂ w' : W}
  {cause : JobError} {entries : List (Entry W)}

/-! ### The ways -/

/-- Saves and deletes do their work, or answer with an error and change nothing; to read the clock
changes nothing, and handlers leave the store in order. -/
structure Fallible (x : Executor W) (shelf : Shelf W C) : Prop where
  store : shelf.Keeps x.backend.records
  save_answers : ∀ r w, shelf.Good w → ∀ c, (x.backend.records.save r w).1 ≠ .error (.crash c)
  delete_answers : ∀ r w, shelf.Good w → ∀ c, (x.backend.records.delete r w).1 ≠ .error (.crash c)
  ticking : ∀ w, shelf.Good w → shelf.Same w (x.backend.clock w).2
  handlers : ∀ job handler, x.registry.get job.jobType = .ok handler → ∀ worker w, shelf.Good w →
    shelf.Good ((handler.run (JobContext.ofJob job worker) job).run.runAlone w).2

/-- The ways in which a run can end. -/
inductive Way where
  /-- The run refuses its record. -/
  | refused
  /-- The claim cannot be saved. -/
  | unreserved
  /-- The handler succeeds, and the record is deleted. -/
  | completed
  /-- The handler succeeds, and the record cannot be deleted. -/
  | unremoved
  /-- The job fails. -/
  | failed
deriving DecidableEq, Repr

/-- How the job of a claimed record fails, with what is entered in the log of it, from one world to
another. -/
inductive Fails (x : Executor W) (worker : Option Nat) (claim : JobRecord) (w : W) :
    JobError → List (Entry W) → W → Prop where
  /-- The payload is not in order. -/
  | payload {e : JobError} (unread : Job.ofRecord claim = .error e) : Fails x worker claim w e [] w
  /-- There is no handler. -/
  | lookup {job : Job} {e : JobError} (read : Job.ofRecord claim = .ok job)
      (missing : x.registry.get job.jobType = .error e) : Fails x worker claim w e [] w
  /-- The handler ends with an error. -/
  | handler {job : Job} {e : JobError} {w' : W}
      (handles : x.Handles worker claim job w (.error (.error e)) w') :
      Fails x worker claim w e [.began job w, .ended (.error (.error e)) w'] w'
  /-- The handler breaks off. -/
  | panic {job : Job} {c : Crash} {w' : W}
      (handles : x.Handles worker claim job w (.error (.crash c)) w') :
      Fails x worker claim w (.crashed c.message)
        [.began job w, .ended (.error (.crash c)) w'] w'

/-- Whether a record may be claimed at some time. -/
structure Claimable (x : Executor W) (r : JobRecord) (now : Instant) : Prop where
  valid : check r = none
  free : r.isReserved x.lease now = false

/-- A claim has been saved between `w` and `w₁`, and nothing but its handler has been at work from
then to `w₂`. -/
structure Claimed (x : Executor W) (shelf : Shelf W C) (worker : Option Nat) (claim : JobRecord)
    (w w₁ w₂ : W) : Prop where
  saved : ∃ c, shelf.cell w claim.id = some c ∧
    shelf.cell w₁ claim.id = some (shelf.written claim c)
  spared : (∀ handler job, x.handlerFor claim = .ok (handler, job) →
    (handler.run (JobContext.ofJob job worker) job).run.Spares shelf) → shelf.Same w₁ w₂

/-- What each way comes to: how the run ends, in which world, and with what in its log. The claim
has the lease and the time of its beginning, a failure one attempt more and no lease. -/
inductive Course (x : Executor W) (shelf : Shelf W C) (worker : Option Nat) (r : JobRecord)
    (w : W) : Way → Ended → W → List (Entry W) → Prop where
  | invalid {text : String} (bad : r.id = "" ∨ r.collection ≠ queueCollection) :
      Course x shelf worker r w .refused ⟨r, .error (.error (.invalidRecord text))⟩ w []
  | leased {now : Instant} {w' : W} (reads : (x.backend.clock w).1 = now)
      (valid : check r = none) (held : r.isReserved x.lease now = true)
      (same : shelf.Same w w') :
      Course x shelf worker r w .refused ⟨r, .error (.error (.alreadyReserved r.id))⟩ w' []
  | unreserved {now : Instant} {e : StoreError} {w' : W} (reads : (x.backend.clock w).1 = now)
      (claimable : x.Claimable r now) (same : shelf.Same w w') :
      Course x shelf worker r w .unreserved ⟨r, .error (.error (.reservation r.id e))⟩ w'
        [.saved (r.reserve now) (.error (.error e))]
  | completed {now : Instant} {job : Job} {w₁ w₂ w' : W} (reads : (x.backend.clock w).1 = now)
      (claimable : x.Claimable r now) (claimed : x.Claimed shelf worker (r.reserve now) w w₁ w₂)
      (handles : x.Handles worker (r.reserve now) job w₁ (.ok ()) w₂)
      (gone : shelf.cell w' r.id = none) :
      Course x shelf worker r w .completed ⟨r.reserve now, .ok ()⟩ w'
        [.saved (r.reserve now) (.ok ()), .began job w₁, .ended (.ok ()) w₂,
          .deleted (r.reserve now) (.ok ())]
  | unremoved {now : Instant} {job : Job} {e : StoreError} {w₁ w₂ w' : W}
      (reads : (x.backend.clock w).1 = now) (claimable : x.Claimable r now)
      (claimed : x.Claimed shelf worker (r.reserve now) w w₁ w₂)
      (handles : x.Handles worker (r.reserve now) job w₁ (.ok ()) w₂)
      (same : shelf.Same w₂ w') :
      Course x shelf worker r w .unremoved
        ⟨r.reserve now, .error (.error (.completion r.id e))⟩ w'
        [.saved (r.reserve now) (.ok ()), .began job w₁, .ended (.ok ()) w₂,
          .deleted (r.reserve now) (.error (.error e))]
  | released {now later : Instant} {cause : JobError} {entries : List (Entry W)} {w₁ w₂ w' : W}
      {c : C} (reads : (x.backend.clock w).1 = now) (claimable : x.Claimable r now)
      (claimed : x.Claimed shelf worker (r.reserve now) w w₁ w₂)
      (fails : x.Fails worker (r.reserve now) w₁ cause entries w₂)
      (reads' : (x.backend.clock w₂).1 = later)
      (counted : ((r.reserve now).markFailed later).attempts.toNat = r.attempts.toNat + 1)
      (there : shelf.cell w₂ r.id = some c)
      (saved : shelf.cell w' r.id = some (shelf.written ((r.reserve now).markFailed later) c)) :
      Course x shelf worker r w .failed
        ⟨(r.reserve now).markFailed later, .error (.error cause)⟩ w'
        (.saved (r.reserve now) (.ok ()) ::
          (entries ++ [.saved ((r.reserve now).markFailed later) (.ok ())]))
  | unreleased {now later : Instant} {cause : JobError} {e : StoreError}
      {entries : List (Entry W)} {w₁ w₂ w' : W} (reads : (x.backend.clock w).1 = now)
      (claimable : x.Claimable r now) (claimed : x.Claimed shelf worker (r.reserve now) w w₁ w₂)
      (fails : x.Fails worker (r.reserve now) w₁ cause entries w₂)
      (reads' : (x.backend.clock w₂).1 = later)
      (counted : ((r.reserve now).markFailed later).attempts.toNat = r.attempts.toNat + 1)
      (same : shelf.Same w₂ w') :
      Course x shelf worker r w .failed
        ⟨(r.reserve now).markFailed later, .error (.error cause)⟩ w'
        (.saved (r.reserve now) (.ok ()) ::
          (entries ++ [.saved ((r.reserve now).markFailed later) (.error (.error e))]))

theorem of_check {e : JobError} (refused : check r = some e) :
    ∃ text, (r.id = "" ∨ r.collection ≠ queueCollection) ∧ e = .invalidRecord text := by
  rw [check] at refused
  split at refused
  next named =>
    cases refused
    exact ⟨_, .inl (String.isEmpty_iff.mp named), rfl⟩
  next =>
    split at refused
    next other =>
      cases refused
      exact ⟨_, .inr (bne_iff_ne.mp other), rfl⟩
    next => cases refused

/-! ### What the log tells -/

/-- The way that a log tells of: by its length if no handler can have begun, and by its last entry
otherwise. -/
def Way.ofLog (log : List (Entry W)) : Way :=
  match log.getLast? with
  | none => .refused
  | some (.deleted _ (.ok ())) => .completed
  | some (.deleted _ (.error _)) => .unremoved
  | some _ => if log.length = 1 then .unreserved else .failed

theorem Course.way_eq {way : Way} {ended : Ended}
    (course : x.Course shelf worker r w way ended w' entries) : way = .ofLog entries := by
  cases course with
  | invalid | leased | unreserved | completed | unremoved => rfl
  | released | unreleased =>
      rw [Way.ofLog, ← List.cons_append, List.getLast?_append]
      simp

theorem Course.beginsClaimed {way : Way} {ended : Ended}
    (course : x.Course shelf worker r w way ended w' entries) :
    BeginsClaimed (r.reserve (x.backend.clock w).1) entries := by
  cases course with
  | invalid | leased => exact beginsClaimed_of_forall (by simp)
  | unreserved => exact beginsClaimed_of_forall (by simp [Entry.IsBeginning])
  | completed reads | unremoved reads =>
      rw [reads]
      exact beginsClaimed_cons (by simp [Entry.IsBeginning])
  | released reads _ _ fails | unreleased reads _ _ fails =>
      rw [reads]
      cases fails with
      | payload | lookup => exact beginsClaimed_of_forall (by simp [Entry.IsBeginning])
      | handler | panic => exact beginsClaimed_cons (by simp [Entry.IsBeginning])

/-! ### The steps of a run under watch -/

theorem shown_completed (done : x.backend.records.delete r w = (.ok (), w')) :
    (x.complete r).Shown (x.watched.complete r) w ⟨r, .ok ()⟩ w' [.deleted r (.ok ())] := by
  show Task.Shown (Task.bind (Task.perform _) _) (Task.bind (Task.perform _) _) _ _ _ _
  exact (Task.shown_call done).bind Task.shown_done

theorem shown_unremoved {e : StoreError}
    (failed : x.backend.records.delete r w = (.error (.error e), w')) :
    (x.complete r).Shown (x.watched.complete r) w
      ⟨r, .error (.error (.completion r.id e))⟩ w' [.deleted r (.error (.error e))] := by
  show Task.Shown (Task.bind (Task.perform _) _) (Task.bind (Task.perform _) _) _ _ _ _
  exact (Task.shown_call failed).bind Task.shown_done

/-- What comes of the job of a claimed record that fails, whether or not it can be saved. -/
theorem shown_release {later : Instant} {answer : Except (Fault StoreError) Unit}
    (counted : x.overflows r = false) (reads : x.backend.clock w = (later, w₁))
    (saves : x.backend.records.save (r.markFailed later) w₁ = (answer, w'))
    (answers : ∀ c, answer ≠ .error (.crash c)) :
    (x.release r cause).Shown (x.watched.release r cause) w
      ⟨r.markFailed later, .error (.error cause)⟩ w' [.saved (r.markFailed later) answer] := by
  show Task.Shown (Task.bind (Task.perform _) _) (Task.bind (Task.perform _) _) _ _ _ _
  refine (Task.shown_step reads).bind ?_
  have counted' : x.watched.overflows r = false := counted
  rw [counted, counted', if_neg Bool.false_ne_true, if_neg Bool.false_ne_true]
  show Task.Shown (Task.bind (Task.perform _) _) (Task.bind (Task.perform _) _) _ _ _ _
  refine (Task.shown_call saves).bind ?_
  match answer with
  | .ok () => exact Task.shown_done
  | .error (.error e) => exact Task.shown_done
  | .error (.crash c) => exact absurd rfl (answers c)

theorem shown_refused {e : JobError} (refused : check r = some e) :
    (x.run worker r).Shown (x.watched.run worker r) w ⟨r, .error (.error e)⟩ w [] := by
  rw [run_of_refused refused, run_of_refused refused]
  exact Task.shown_done

section

variable {now : Instant} (reads : x.backend.clock w = (now, w₁)) (valid : check r = none)

include reads valid

theorem shown_leased (held : r.isReserved x.lease now = true) :
    (x.run worker r).Shown (x.watched.run worker r) w
      ⟨r, .error (.error (.alreadyReserved r.id))⟩ w₁ [] := by
  rw [run, run, valid]
  show Task.Shown (Task.bind (Task.perform _) _) (Task.bind (Task.perform _) _) _ _ _ _
  refine (Task.shown_step reads).bind ?_
  have held' : r.isReserved x.watched.lease now = true := held
  rw [if_pos held, if_pos held']
  exact Task.shown_done

variable (free : r.isReserved x.lease now = false)

include free

theorem shown_unreserved {e : StoreError}
    (failed : x.backend.records.save (r.reserve now) w₁ = (.error (.error e), w')) :
    (x.run worker r).Shown (x.watched.run worker r) w
      ⟨r, .error (.error (.reservation r.id e))⟩ w'
      [.saved (r.reserve now) (.error (.error e))] := by
  rw [run, run, valid]
  show Task.Shown (Task.bind (Task.perform _) _) (Task.bind (Task.perform _) _) _ _ _ _
  refine (Task.shown_step reads).bind ?_
  rw [if_neg (by simp [free]), if_neg (by simp [watched, free])]
  show Task.Shown (Task.bind (Task.perform _) _) (Task.bind (Task.perform _) _) _ _ _ _
  exact (Task.shown_call failed).bind Task.shown_done

theorem shown_claimed {ended : Ended}
    (saved : x.backend.records.save (r.reserve now) w₁ = (.ok (), w₂))
    (later : (x.afterClaim worker (r.reserve now)).Shown
      (x.watched.afterClaim worker (r.reserve now)) w₂ ended w' entries) :
    (x.run worker r).Shown (x.watched.run worker r) w ended w'
      (.saved (r.reserve now) (.ok ()) :: entries) := by
  rw [run, run, valid]
  show Task.Shown (Task.bind (Task.perform _) _) (Task.bind (Task.perform _) _) _ _ _ _
  refine (Task.shown_step reads).bind ?_
  rw [if_neg (by simp [free]), if_neg (by simp [watched, free])]
  show Task.Shown (Task.bind (Task.perform _) _) (Task.bind (Task.perform _) _) _ _ _ _
  exact (Task.shown_call saved).bind later

end

/-! ### What comes of a claim -/

theorem Fails.shown (fails : x.Fails worker claim w cause entries w') :
    (x.execute worker claim).Shown (x.watched.execute worker claim) w (.error cause) w'
      entries := by
  cases fails with
  | payload unread =>
      exact shown_execute_of_error (by rw [handlerFor, unread])
  | lookup read missing =>
      refine shown_execute_of_error ?_
      rw [handlerFor, read]
      dsimp only
      rw [missing]
      rfl
  | handler handles => exact shown_execute handles
  | panic handles => exact shown_execute handles

theorem Handles.same {job : Job} {result : Except (Fault JobError) Unit}
    (handles : x.Handles worker claim job w result w') (good : shelf.Good w)
    (spares : ∀ handler job, x.handlerFor claim = .ok (handler, job) →
      (handler.run (JobContext.ofJob job worker) job).run.Spares shelf) : shelf.Same w w' := by
  obtain ⟨handler, found, ran⟩ := handles
  have same := (spares handler job found).same good
  rwa [ran] at same

theorem Fails.same (fails : x.Fails worker claim w cause entries w') (good : shelf.Good w)
    (spares : ∀ handler job, x.handlerFor claim = .ok (handler, job) →
      (handler.run (JobContext.ofJob job worker) job).run.Spares shelf) : shelf.Same w w' := by
  cases fails with
  | payload | lookup => exact .refl
  | handler handles => exact handles.same good spares
  | panic handles => exact handles.same good spares

/-- A job that has been claimed succeeds or fails. -/
theorem exists_handled (x : Executor W) (worker : Option Nat) (claim : JobRecord) (w : W) :
    (∃ job w', x.Handles worker claim job w (.ok ()) w') ∨
      ∃ cause entries w', x.Fails worker claim w cause entries w' := by
  cases read : Job.ofRecord claim with
  | error e => exact .inr ⟨e, [], w, .payload read⟩
  | ok job =>
      cases found : x.registry.get job.jobType with
      | error e => exact .inr ⟨e, [], w, .lookup read found⟩
      | ok handler =>
          have chosen : x.handlerFor claim = .ok (handler, job) := by
            rw [handlerFor, read]
            dsimp only
            rw [found]
            rfl
          generalize ran : (handler.run (JobContext.ofJob job worker) job).run.runAlone w = ended
          obtain ⟨(e | c) | ⟨⟩, w'⟩ := ended
          · exact .inr ⟨e, _, w', .handler ⟨handler, chosen, ran⟩⟩
          · exact .inr ⟨_, _, w', .panic ⟨handler, chosen, ran⟩⟩
          · exact .inl ⟨job, w', handler, chosen, ran⟩

variable (fallible : x.Fallible shelf)

include fallible

theorem Fallible.good_of_handles {job : Job} {result : Except (Fault JobError) Unit}
    (good : shelf.Good w) (handles : x.Handles worker claim job w result w') : shelf.Good w' := by
  obtain ⟨handler, found, ran⟩ := handles
  have good' := fallible.handlers job handler (of_handlerFor found).2 worker w good
  rwa [ran] at good'

theorem Fallible.good_of_fails (good : shelf.Good w)
    (fails : x.Fails worker claim w cause entries w') : shelf.Good w' := by
  cases fails with
  | payload | lookup => exact good
  | handler handles => exact fallible.good_of_handles good handles
  | panic handles => exact fallible.good_of_handles good handles

/-- What comes of a job that fails. -/
theorem Fallible.course_failed {now : Instant} (reads : (x.backend.clock w).1 = now)
    (claimable : x.Claimable r now) (claimed : x.Claimed shelf worker (r.reserve now) w w₁ w₂)
    (fails : x.Fails worker (r.reserve now) w₁ cause entries w₂) (good : shelf.Good w₂)
    (unspent : r.isSpent = false) :
    ∃ ended w' log,
      x.Course shelf worker r w .failed ended w' (.saved (r.reserve now) (.ok ()) :: log) ∧
      (x.afterClaim worker (r.reserve now)).Shown (x.watched.afterClaim worker (r.reserve now)) w₁
        ended w' log := by
  have ticking := fallible.ticking w₂ good
  generalize read : x.backend.clock w₂ = ticked at ticking
  obtain ⟨later, w₃⟩ := ticked
  have outcome := (fallible.store.save ((r.reserve now).markFailed later) w₃
    (ticking.good good)).after ticking
  have answers := fallible.save_answers ((r.reserve now).markFailed later) w₃ (ticking.good good)
  generalize saves : x.backend.records.save ((r.reserve now).markFailed later) w₃ = result
    at outcome answers
  have reads' : (x.backend.clock w₂).1 = later := congrArg Prod.fst read
  have shown {answer : Except (Fault StoreError) Unit} {w' : W} (same : result = (answer, w')) :
      (x.afterClaim worker (r.reserve now)).Shown (x.watched.afterClaim worker (r.reserve now)) w₁
        ⟨(r.reserve now).markFailed later, .error (.error cause)⟩ w'
        (entries ++ [.saved ((r.reserve now).markFailed later) answer]) := by
    subst same
    rw [afterClaim_eq, afterClaim_eq]
    exact fails.shown.bind (shown_release (overflows_of_not_spent unspent) read saves answers)
  have counted : ((r.reserve now).markFailed later).attempts.toNat = r.attempts.toNat + 1 :=
    JobRecord.toNat_attempts_markFailed (r := r.reserve now) unspent
  cases outcome with
  | done there here elsewhere =>
      exact ⟨_, _, _, .released reads claimable claimed fails reads' counted there here, shown rfl⟩
  | @failed fault w' same =>
      cases fault with
      | crash c => exact absurd rfl (answers c)
      | error e =>
          exact ⟨_, _, _, .unreleased reads claimable claimed fails reads' counted same, shown rfl⟩

/-- What comes of a job that succeeds. -/
theorem Fallible.course_succeeded {now : Instant} {job : Job}
    (reads : (x.backend.clock w).1 = now) (claimable : x.Claimable r now)
    (claimed : x.Claimed shelf worker (r.reserve now) w w₁ w₂)
    (handles : x.Handles worker (r.reserve now) job w₁ (.ok ()) w₂) (good : shelf.Good w₂) :
    ∃ way ended w' log,
      x.Course shelf worker r w way ended w' (.saved (r.reserve now) (.ok ()) :: log) ∧
      (x.afterClaim worker (r.reserve now)).Shown (x.watched.afterClaim worker (r.reserve now)) w₁
        ended w' log := by
  have outcome := fallible.store.delete (r.reserve now) w₂ good
  have answers := fallible.delete_answers (r.reserve now) w₂ good
  generalize deletes : x.backend.records.delete (r.reserve now) w₂ = result at outcome answers
  rw [afterClaim_eq, afterClaim_eq]
  cases outcome with
  | done _ gone _ =>
      exact ⟨_, _, _, _, .completed reads claimable claimed handles gone,
        (shown_execute handles).bind (shown_completed deletes)⟩
  | @failed fault w' same =>
      cases fault with
      | crash c => exact absurd rfl (answers c)
      | error e =>
          exact ⟨_, _, _, _, .unremoved reads claimable claimed handles same,
            (shown_execute handles).bind (shown_unremoved deletes)⟩

theorem Fallible.exists_course (good : shelf.Good w) (unspent : r.isSpent = false)
    (worker : Option Nat) :
    ∃ way ended w' log, x.Course shelf worker r w way ended w' log ∧
      (x.run worker r).Shown (x.watched.run worker r) w ended w' log := by
  cases valid : check r with
  | some e =>
      obtain ⟨text, bad, rfl⟩ := of_check valid
      exact ⟨_, _, _, _, .invalid bad, shown_refused valid⟩
  | none =>
      have ticking := fallible.ticking w good
      generalize read : x.backend.clock w = ticked at ticking
      obtain ⟨now, w₀⟩ := ticked
      have reads : (x.backend.clock w).1 = now := congrArg Prod.fst read
      cases held : r.isReserved x.lease now with
      | true =>
          exact ⟨_, _, _, _, .leased reads valid held ticking, shown_leased read valid held⟩
      | false =>
          have claimable : x.Claimable r now := ⟨valid, held⟩
          have outcome := (fallible.store.save (r.reserve now) w₀ (ticking.good good)).after ticking
          have answers := fallible.save_answers (r.reserve now) w₀ (ticking.good good)
          generalize saves : x.backend.records.save (r.reserve now) w₀ = result at outcome answers
          cases outcome with
          | @failed fault w' same =>
              cases fault with
              | crash c => exact absurd rfl (answers c)
              | error e =>
                  exact ⟨_, _, _, _, .unreserved reads claimable same,
                    shown_unreserved read valid held saves⟩
          | @done c w₁ there here elsewhere =>
              have good₁ := elsewhere.good good
              rcases exists_handled x worker (r.reserve now) w₁ with
                ⟨job, w₂, handles⟩ | ⟨cause, entries, w₂, fails⟩
              · have claimed : x.Claimed shelf worker (r.reserve now) w w₁ w₂ :=
                  ⟨⟨c, there, here⟩, handles.same good₁⟩
                obtain ⟨way, ended, w', log, course, shown⟩ := fallible.course_succeeded reads
                  claimable claimed handles (fallible.good_of_handles good₁ handles)
                exact ⟨_, _, _, _, course, shown_claimed read valid held saves shown⟩
              · have claimed : x.Claimed shelf worker (r.reserve now) w w₁ w₂ :=
                  ⟨⟨c, there, here⟩, fails.same good₁⟩
                obtain ⟨ended, w', log, course, shown⟩ := fallible.course_failed reads
                  claimable claimed fails (fallible.good_of_fails good₁ fails) unspent
                exact ⟨_, _, _, _, course, shown_claimed read valid held saves shown⟩

/-- A run of a record that does not have the greatest number of attempts ends in just one of the
five ways, and its handler begins but once, right after the claim has been saved. -/
theorem course_run (good : shelf.Good w) (r : JobRecord) (unspent : r.isSpent = false)
    (worker : Option Nat) :
    ∃ ended w' log, (x.run worker r).Shown (x.watched.run worker r) w ended w' log ∧
      (∃! way, x.Course shelf worker r w way ended w' log) ∧
      BeginsClaimed (r.reserve (x.backend.clock w).1) log := by
  obtain ⟨way, ended, w', log, course, shown⟩ := fallible.exists_course good unspent worker
  refine ⟨ended, w', log, shown, ⟨way, course, fun other course' => ?_⟩, course.beginsClaimed⟩
  rw [course.way_eq, course'.way_eq]

end Executor

namespace Simulation

open World

/-- Scripts on a calm world are runs of a store that may fail. -/
theorem fallible_executor (scripts : List Script) (lease : Span) :
    (Script.executor scripts lease).Fallible calmShelf where
  store := calm_keeps
  save_answers := fun _ _ calm => (calm_save calm).2
  delete_answers := fun _ _ calm => (calm_delete calm).2
  ticking := fun _ _ => ⟨fun calm => calm, fun _ => rfl⟩
  handlers := by
    intro job handler found worker w calm
    obtain ⟨s, _, rfl, _⟩ := Script.script_of_get found
    have steps := Script.keepsTo_calm s (JobContext.ofJob job worker) job
    exact steps.runAlone (fun _ calm => calm) (fun first second calm => second (first calm)) calm

/-- A world with one record where the second save is to fail. -/
def unsavedWorld : World :=
  { World.still [easyJob "a"] with plans := [(.save, [.work, .error (.database "disk full")])] }

theorem unsavedWorld_calm : unsavedWorld.Calm := by
  intro entry member
  rw [List.mem_singleton.mp member]
  simp

/-- A job fails and cannot be saved as failed: the caller's copy has an attempt more, the store
keeps the claim. -/
theorem course_run_unsaved :
    ∃ ended w' log, (failingExecutor.run none (easyJob "a")).Shown
        (failingExecutor.watched.run none (easyJob "a")) unsavedWorld ended w' log ∧
      (∃! way, failingExecutor.Course calmShelf none (easyJob "a") unsavedWorld way ended w' log) ∧
      BeginsClaimed ((easyJob "a").reserve ⟨0, 0⟩) log :=
  Executor.course_run (fallible_executor _ _) unsavedWorld_calm (easyJob "a") (by decide) none

/-- An executor whose handler removes the record of its own job. -/
def removingExecutor : Executor World :=
  Script.executor [⟨0, "A", none, .deleteSelf⟩] ⟨300000000000⟩

/-- A run ends because its record cannot be deleted, but its claim is not left in the store: the
handler has removed it. -/
theorem completion_without_claim : removingExecutor.Fallible calmShelf ∧
    (World.still [easyJob "a"]).Calm ∧
    ∃ ended w', (removingExecutor.run none (easyJob "a")).runAlone (World.still [easyJob "a"]) =
        (ended, w') ∧
      ended = ⟨(easyJob "a").reserve ⟨0, 0⟩, .error (.error (.completion "a" (.notFound "a")))⟩ ∧
      calmShelf.cell w' "a" = none := by
  refine ⟨fallible_executor _ _, ?_, _, _, rfl, rfl, rfl⟩
  intro entry member
  cases member

end Simulation

end JobQueue
