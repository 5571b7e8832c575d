/-
What tasks return, whatever they are given.

A task that shares its world with others is given one input after another: the world at each of its
acts, and at each wait whether what it waits for has come (`Task.follow`). Of a run this tells
what its result says. A run returns an error that the pool has for itself only if its handler
does (`returns_run`), it ends without an error only when its record is gone (`clears_run`), and
then its handler has returned without one (`succeeds_of_follow`). No run brings back what is
gone (`keepsGone_run`).
-/

import JobQueue.Pool.Basic
import JobQueue.Proofs.Job.Course
import JobQueue.Proofs.Store.Shelf

namespace JobQueue

variable {W C : Type}

namespace Task

variable {α β : Type}

/-! ### What a task is given at its steps -/

/-- What a task is given at one step: the world it acts on, or whether what it waits for has
come. -/
inductive Input (W : Type) where
  | world (w : W)
  | came (came : Bool)

/-- What is left of a task after a step with an input. -/
def given : Task W α → Input W → Option (Task W α)
  | .act _ next, .world w => some (next w)
  | .wait _ _ next, .came came => some (next came)
  | _, _ => none

/-- What is left of a task after steps with some inputs. -/
def follow : Task W α → List (Input W) → Option (Task W α)
  | t, [] => some t
  | t, input :: rest => (t.given input).bind fun t => follow t rest

variable {t t' t'' : Task W α} {inputs : List (Input W)} {input : Input W} {a : α} {b : β}

theorem follow_append (first second : List (Input W)) :
    t.follow (first ++ second) = (t.follow first).bind fun t => t.follow second := by
  induction first generalizing t with
  | nil => rfl
  | cons input rest ih =>
      rw [List.cons_append, follow, follow]
      cases t.given input with
      | none => rfl
      | some t' => exact ih

theorem follow_snoc (before : t.follow inputs = some t') (step : t'.given input = some t'') :
    t.follow (inputs ++ [input]) = some t'' := by
  simp [follow_append, before, follow, step]

/-- A task that has ended has not been given anything more. -/
theorem of_follow_done {c : α} (ends : (Task.done (W := W) c).follow inputs = some (.done a)) :
    inputs = [] ∧ c = a := by
  cases inputs with
  | nil =>
      cases ends
      exact ⟨rfl, rfl⟩
  | cons input rest => cases ends

/-- A task that begins with an act has been given the world for it. -/
theorem of_follow_act {update : W → W} {next : W → Task W α}
    (ends : (Task.act update next).follow inputs = some (.done a)) :
    ∃ w rest, inputs = .world w :: rest ∧ (next w).follow rest = some (.done a) := by
  cases inputs with
  | nil => cases ends
  | cons input rest =>
      cases input with
      | world w => exact ⟨w, rest, rfl, ends⟩
      | came came => cases ends

/-- What two tasks one after the other have been given is what the first and what the second has
been given. -/
theorem of_follow_bind {k : α → Task W β} (ends : (t.bind k).follow inputs = some (.done b)) :
    ∃ first second a, inputs = first ++ second ∧ t.follow first = some (.done a) ∧
      (k a).follow second = some (.done b) := by
  induction t generalizing inputs with
  | done a => exact ⟨[], inputs, a, rfl, rfl, ends⟩
  | act update next ih =>
      obtain ⟨w, rest, rfl, later⟩ := of_follow_act ends
      obtain ⟨first, second, a, rfl, before, after⟩ := ih w later
      exact ⟨.world w :: first, second, a, rfl, before, after⟩
  | wait ready limit next ih =>
      cases inputs with
      | nil => cases ends
      | cons input rest =>
          cases input with
          | world w => cases ends
          | came came =>
              obtain ⟨first, second, a, rfl, before, after⟩ := ih came ends
              exact ⟨.came came :: first, second, a, rfl, before, after⟩

/-! ### What a task returns -/

/-- Whether a task returns only values that are allowed, whatever it is given. -/
def Returns (allowed : α → Prop) : Task W α → Prop
  | .done a => allowed a
  | .act _ next => ∀ w, (next w).Returns allowed
  | .wait _ _ next => ∀ came, (next came).Returns allowed

theorem Returns.bind {allowed : α → Prop} {allowed' : β → Prop} {k : α → Task W β}
    (returns : t.Returns allowed) (later : ∀ a, allowed a → (k a).Returns allowed') :
    (t.bind k).Returns allowed' := by
  induction t with
  | done a => exact later a returns
  | act update next ih => exact fun w => ih w (returns w)
  | wait ready limit next ih => exact fun came => ih came (returns came)

theorem Returns.given {allowed : α → Prop} (returns : t.Returns allowed)
    (step : t.given input = some t') : t'.Returns allowed := by
  cases t with
  | done a => cases step
  | act update next =>
      cases input with
      | world w =>
          cases step
          exact returns w
      | came came => cases step
  | wait ready limit next =>
      cases input with
      | world w => cases step
      | came came =>
          cases step
          exact returns came

theorem Returns.follow {allowed : α → Prop} (returns : t.Returns allowed)
    (ends : t.follow inputs = some (.done a)) : allowed a := by
  induction inputs generalizing t with
  | nil =>
      cases ends
      exact returns
  | cons input rest ih =>
      rw [Task.follow, Option.bind_eq_some_iff] at ends
      obtain ⟨t', step, later⟩ := ends
      exact ih (returns.given step) later

/-! ### What is gone and stays gone -/

/-- Whether a task puts nothing under any of some ids where nothing is kept. -/
def KeepsGone (shelf : Shelf W C) (ids : List String) : Task W α → Prop
  | .done _ => True
  | .act update next => ∀ w, shelf.Good w → shelf.Good (update w) ∧
      (∀ id ∈ ids, shelf.cell w id = none → shelf.cell (update w) id = none) ∧
      (next w).KeepsGone shelf ids
  | .wait _ _ next => ∀ came, (next came).KeepsGone shelf ids

variable {shelf : Shelf W C} {ids : List String} {id : String}

theorem KeepsGone.bind {k : α → Task W β} (keeps : t.KeepsGone shelf ids)
    (later : ∀ a, (k a).KeepsGone shelf ids) : (t.bind k).KeepsGone shelf ids := by
  induction t with
  | done a => exact later a
  | act update next ih =>
      intro w good
      obtain ⟨good', gone, rest⟩ := keeps w good
      exact ⟨good', gone, ih w rest⟩
  | wait ready limit next ih => exact fun came => ih came (keeps came)

/-- A task that leaves all records alone brings none back. -/
theorem Spares.keepsGone (spares : t.Spares shelf) : t.KeepsGone shelf ids := by
  induction t with
  | done a => trivial
  | act update next ih =>
      intro w good
      obtain ⟨same, later⟩ := spares w good
      exact ⟨same.good good, fun id _ gone => (same.cell id).trans gone, ih w later⟩
  | wait ready limit next ih => exact fun came => ih came (spares came)

/-- Whether a task ends without an error only when nothing is kept under an id; `gone` says whether
nothing is kept there before it. -/
def Clears (shelf : Shelf W C) (id : String) : Task W Ended → Prop → Prop
  | .done ended, gone => ended.result = .ok () → gone
  | .act update next, _ => ∀ w, shelf.Good w →
      (next w).Clears shelf id (shelf.cell (update w) id = none)
  | .wait _ _ next, gone => ∀ came, (next came).Clears shelf id gone

theorem Clears.mono {t : Task W Ended} {gone gone' : Prop} (clears : t.Clears shelf id gone)
    (stays : gone → gone') : t.Clears shelf id gone' := by
  induction t with
  | done ended => exact fun fine => stays (clears fine)
  | act update next ih => exact clears
  | wait ready limit next ih => exact fun came => ih came (clears came)

/-- A task that never ends without an error clears any id. -/
theorem Returns.clears {t : Task W Ended} {gone : Prop}
    (fails : t.Returns fun ended => ended.result ≠ .ok ()) : t.Clears shelf id gone := by
  induction t generalizing gone with
  | done ended => exact fun fine => absurd fine fails
  | act update next ih => exact fun w _ => ih w (fails w)
  | wait ready limit next ih => exact fun came => ih came (fails came)

/-- Where the second of two tasks clears an id, both of them do. -/
theorem clears_bind {k : α → Task W Ended} {gone : Prop}
    (later : ∀ a gone, (k a).Clears shelf id gone) : (t.bind k).Clears shelf id gone := by
  induction t generalizing gone with
  | done a => exact later a gone
  | act update next ih => exact fun w _ => ih w
  | wait ready limit next ih => exact fun came => ih came

end Task

/-! ### Payloads that cannot be read -/

namespace Payload

variable {e : JobError} {fields : Fields} {key text : String}

theorem of_checkObject_error (failed : checkObject fields key = .error e) :
    ∃ text, e = .invalidPayload text := by
  unfold checkObject at failed
  split at failed
  next v _ =>
    split at failed
    next => cases failed
    next =>
      cases failed
      exact ⟨_, rfl⟩
  next => cases failed

theorem of_validate_error (failed : validate fields = .error e) :
    ∃ text, e = .invalidPayload text := by
  have checks : ∀ jobType, (do
      checkObject fields "data"
      checkObject fields "options"
      return jobType : Except JobError String) = .error e → ∃ text, e = .invalidPayload text := by
    intro jobType failed
    cases data : checkObject fields "data" with
    | error e' =>
        rw [data] at failed
        cases failed
        exact of_checkObject_error data
    | ok _ =>
        cases options : checkObject fields "options" with
        | error e' =>
            rw [data, options] at failed
            cases failed
            exact of_checkObject_error options
        | ok _ =>
            rw [data, options] at failed
            cases failed
  unfold validate at failed
  split at failed
  next =>
    cases failed
    exact ⟨_, rfl⟩
  next t _ =>
    cases empty : t.isEmpty with
    | true =>
        rw [empty] at failed
        cases failed
        exact ⟨_, rfl⟩
    | false =>
        rw [empty] at failed
        exact checks t failed
  next =>
    cases failed
    exact ⟨_, rfl⟩

theorem of_parse_error (failed : parse text = .error e) : ∃ text, e = .invalidPayload text := by
  unfold parse at failed
  split at failed
  next v _ =>
    unfold fieldsOf at failed
    split at failed <;> cases failed
    exact ⟨_, rfl⟩
  next =>
    cases failed
    exact ⟨_, rfl⟩

end Payload

theorem Job.of_ofRecord_error {e : JobError} {r : JobRecord} (failed : Job.ofRecord r = .error e) :
    ∃ text, e = .invalidPayload text := by
  unfold Job.ofRecord at failed
  cases parsed : Payload.parse r.payload with
  | error e' =>
      rw [parsed] at failed
      cases failed
      exact Payload.of_parse_error parsed
  | ok payload =>
      cases valid : Payload.validate payload with
      | error e' =>
          simp only [parsed, valid, bind, Except.bind] at failed
          cases failed
          exact Payload.of_validate_error valid
      | ok jobType =>
          simp only [parsed, valid, bind, Except.bind] at failed
          cases failed

namespace Executor

variable {x : Executor W} {shelf : Shelf W C} {ids : List String} {worker : Option Nat}
  {r : JobRecord} {e : JobError} {gone : Prop}

/-! ### Whose errors a run returns -/

/-- A result is none of the errors that the pool has for itself. -/
def IsOwn (result : JobResult) : Prop := ∀ e, result = .error e → e.isPoolCapacity = false

/-- No handler returns an error that the pool has for itself. -/
def Candid (x : Executor W) : Prop :=
  ∀ jobType handler, x.registry.get jobType = .ok handler → ∀ context job,
    (handler.run context job).run.Returns fun outcome => IsOwn (resultOfHandler outcome)

theorem isOwn_error (own : e.isPoolCapacity = false) : IsOwn (.error e) := by
  rintro _ ⟨⟩
  exact own

theorem isOwn_check (refused : check r = some e) : IsOwn (.error e) := by
  unfold check at refused
  split at refused
  · cases refused
    exact isOwn_error rfl
  · split at refused <;> cases refused
    exact isOwn_error rfl

theorem isOwn_handlerFor (failed : x.handlerFor r = .error e) : IsOwn (.error e) := by
  unfold handlerFor at failed
  cases read : Job.ofRecord r with
  | error e' =>
      rw [read] at failed
      cases failed
      obtain ⟨text, rfl⟩ := Job.of_ofRecord_error read
      exact isOwn_error rfl
  | ok job =>
      cases found : x.registry.get job.jobType with
      | ok handler =>
          simp only [read, found, Except.map] at failed
          cases failed
      | error e' =>
          simp only [read, found, Except.map] at failed
          cases failed
          unfold Registry.get at found
          split at found <;> cases found
          exact isOwn_error rfl

theorem returns_execute (candid : x.Candid) : (x.execute worker r).Returns IsOwn := by
  rw [execute_eq]
  cases found : x.handlerFor r with
  | error e => exact isOwn_handlerFor found
  | ok entry => exact (candid _ _ (of_handlerFor found).2 _ _).bind fun _ own => own

theorem returns_afterClaim (candid : x.Candid) :
    (x.afterClaim worker r).Returns fun ended => IsOwn (Pool.resultOf ended) := by
  rw [afterClaim_eq]
  refine (returns_execute candid).bind fun result own => ?_
  cases result with
  | ok _ =>
      simp only [complete_eq]
      intro w
      dsimp only
      split
      · exact nofun
      · exact isOwn_error rfl
      · exact isOwn_error rfl
  | error e =>
      simp only [release_eq]
      intro w
      split
      · exact isOwn_error rfl
      · intro w'
        dsimp only
        split
        · exact own
        · exact own
        · exact isOwn_error rfl

/-- A run returns an error that the pool has for itself only if its handler does. -/
theorem returns_run (candid : x.Candid) :
    (x.run worker r).Returns fun ended => IsOwn (Pool.resultOf ended) := by
  cases checked : check r with
  | some e =>
      rw [run_of_refused checked]
      exact isOwn_check checked
  | none =>
      rw [run_eq checked]
      intro w
      dsimp only
      split
      · exact isOwn_error rfl
      · intro w'
        dsimp only
        split
        · exact returns_afterClaim candid
        · exact isOwn_error rfl
        · exact isOwn_error rfl

/-! ### What a run does to its record -/

/-- Saves and deletes change what is kept, the clock changes nothing, and no handler puts anything
under some ids where nothing is kept. -/
structure Buries (x : Executor W) (shelf : Shelf W C) (ids : List String) : Prop where
  store : shelf.Keeps x.backend.records
  ticking : ∀ w, shelf.Good w → shelf.Same w (x.backend.clock w).2
  handlers : ∀ jobType handler, x.registry.get jobType = .ok handler →
    ∀ context job, (handler.run context job).run.KeepsGone shelf ids

theorem Buries.save (buries : x.Buries shelf ids) {w : W} (good : shelf.Good w) :
    shelf.Good (x.backend.records.save r w).2 ∧ ∀ id ∈ ids, shelf.cell w id = none →
      shelf.cell (x.backend.records.save r w).2 id = none := by
  have outcome := buries.store.save r w good
  refine ⟨outcome.elsewhere.good good, fun id _ gone => ?_⟩
  by_cases own : id = r.id
  · subst own
    exact ((outcome.same gone).cell r.id).trans gone
  · exact (outcome.elsewhere.cell id own).trans gone

theorem Buries.keepsGone_complete (buries : x.Buries shelf ids) :
    (x.complete r).KeepsGone shelf ids := by
  rw [complete_eq]
  intro w good
  have outcome := buries.store.delete r w good
  refine ⟨outcome.elsewhere.good good, fun id _ gone => ?_, ?_⟩
  · by_cases own : id = r.id
    · subst own
      exact ((outcome.same gone).cell r.id).trans gone
    · exact (outcome.elsewhere.cell id own).trans gone
  · dsimp only
    split <;> trivial

theorem Buries.keepsGone_release (buries : x.Buries shelf ids) :
    (x.release r e).KeepsGone shelf ids := by
  rw [release_eq]
  intro w good
  have same := buries.ticking w good
  refine ⟨same.good good, fun id _ gone => (same.cell id).trans gone, ?_⟩
  dsimp only
  split
  · trivial
  · intro w' good'
    obtain ⟨good'', gone⟩ := buries.save (r := r.markFailed (x.backend.clock w).1) good'
    refine ⟨good'', gone, ?_⟩
    dsimp only
    split <;> trivial

theorem Buries.keepsGone_afterClaim (buries : x.Buries shelf ids) :
    (x.afterClaim worker r).KeepsGone shelf ids := by
  rw [afterClaim_eq, execute_eq]
  refine Task.KeepsGone.bind ?_ fun result => ?_
  · cases found : x.handlerFor r with
    | error e => trivial
    | ok entry => exact (buries.handlers _ _ (of_handlerFor found).2 _ _).bind fun _ => trivial
  · cases result with
    | ok _ => exact buries.keepsGone_complete
    | error e => exact buries.keepsGone_release

/-- No run brings back what is gone. -/
theorem Buries.keepsGone_run (buries : x.Buries shelf ids) :
    (x.run worker r).KeepsGone shelf ids := by
  cases checked : check r with
  | some e =>
      rw [run_of_refused checked]
      trivial
  | none =>
      rw [run_eq checked]
      intro w good
      have same := buries.ticking w good
      refine ⟨same.good good, fun id _ gone => (same.cell id).trans gone, ?_⟩
      dsimp only
      split
      · trivial
      · intro w' good'
        obtain ⟨good'', gone⟩ := buries.save (r := r.reserve (x.backend.clock w).1) good'
        refine ⟨good'', gone, ?_⟩
        dsimp only
        split
        · exact buries.keepsGone_afterClaim
        · trivial
        · trivial

/-- A run whose handler has failed ends with an error. -/
theorem fails_release : (x.release r e).Returns fun ended => ended.result ≠ .ok () := by
  rw [release_eq]
  intro w
  dsimp only
  split
  · exact nofun
  · intro w'
    dsimp only
    split <;> exact nofun

theorem clears_complete (keeps : shelf.Keeps x.backend.records) :
    (x.complete r).Clears shelf r.id gone := by
  rw [complete_eq]
  intro w good
  have outcome := keeps.delete r w good
  dsimp only
  generalize x.backend.records.delete r w = answered at outcome
  cases outcome with
  | done there here elsewhere => exact fun _ => here
  | @failed fault w' same =>
      cases fault with
      | error e => exact nofun
      | crash c => exact nofun

/-- A run ends without an error only when its record is gone. -/
theorem clears_run (keeps : shelf.Keeps x.backend.records) :
    (x.run worker r).Clears shelf r.id gone := by
  cases checked : check r with
  | some e =>
      rw [run_of_refused checked]
      exact nofun
  | none =>
      rw [run_eq checked]
      intro w _
      dsimp only
      split
      · exact nofun
      · intro w' _
        dsimp only
        split
        · rw [afterClaim_eq]
          refine Task.clears_bind fun result gone => ?_
          cases result with
          | ok _ => exact clears_complete (r := r.reserve (x.backend.clock w).1) keeps
          | error e => exact fails_release.clears
        · exact nofun
        · exact nofun

/-! ### Runs that come to a good end -/

/-- What a run is given that comes to a good end: its claim is saved, its handler returns without an
error, and its record is deleted. -/
inductive Succeeds (x : Executor W) (worker : Option Nat) (r : JobRecord) :
    List (Task.Input W) → Prop where
  | intro {w w' w'' : W} {now : Instant} {given : List (Task.Input W)} {handler : Handler W}
      {job : Job} (reading : now = (x.backend.clock w).1)
      (saved : (x.backend.records.save (r.reserve now) w').1 = .ok ())
      (found : x.handlerFor (r.reserve now) = .ok (handler, job))
      (returned : (handler.run (JobContext.ofJob job worker) job).run.follow given =
        some (.done (.ok ())))
      (deleted : (x.backend.records.delete (r.reserve now) w'').1 = .ok ()) :
      Succeeds x worker r (.world w :: .world w' :: (given ++ [.world w'']))

theorem of_follow_execute {inputs : List (Task.Input W)}
    (ends : (x.execute worker r).follow inputs = some (.done (.ok ()))) :
    ∃ handler job, x.handlerFor r = .ok (handler, job) ∧
      (handler.run (JobContext.ofJob job worker) job).run.follow inputs =
        some (.done (.ok ())) := by
  rw [execute_eq] at ends
  cases found : x.handlerFor r with
  | error e =>
      rw [found] at ends
      cases (Task.of_follow_done ends).2
  | ok entry =>
      obtain ⟨handler, job⟩ := entry
      rw [found] at ends
      obtain ⟨given, none, outcome, rfl, returned, last⟩ := Task.of_follow_bind ends
      obtain ⟨rfl, fine⟩ := Task.of_follow_done last
      refine ⟨handler, job, rfl, ?_⟩
      rw [List.append_nil, returned]
      cases outcome with
      | ok _ => rfl
      | error fault => cases fault <;> cases fine

theorem of_follow_complete {inputs : List (Task.Input W)} {ended : Ended}
    (ends : (x.complete r).follow inputs = some (.done ended)) (fine : ended.result = .ok ()) :
    ∃ w, inputs = [.world w] ∧ (x.backend.records.delete r w).1 = .ok () := by
  rw [complete_eq] at ends
  obtain ⟨w, rest, rfl, last⟩ := Task.of_follow_act ends
  cases deleted : (x.backend.records.delete r w).1 with
  | ok _ =>
      rw [deleted] at last
      exact ⟨w, by rw [(Task.of_follow_done last).1], deleted⟩
  | error fault =>
      rw [deleted] at last
      cases fault with
      | error e | crash c =>
          rw [← (Task.of_follow_done last).2] at fine
          cases fine

/-- A run ends without an error only if its handler has returned without one. -/
theorem succeeds_of_follow {inputs : List (Task.Input W)} {ended : Ended}
    (ends : (x.run worker r).follow inputs = some (.done ended)) (fine : ended.result = .ok ()) :
    x.Succeeds worker r inputs := by
  have unfinished : ∀ {record : JobRecord} {fault : Fault JobError} {rest : List (Task.Input W)},
      (Task.done ⟨record, .error fault⟩).follow rest ≠ some (.done ended) := by
    intro record fault rest ends
    rw [← (Task.of_follow_done ends).2] at fine
    cases fine
  cases checked : check r with
  | some e =>
      rw [run_of_refused checked] at ends
      exact absurd ends unfinished
  | none =>
      rw [run_eq checked] at ends
      obtain ⟨w, rest, rfl, claims⟩ := Task.of_follow_act ends
      dsimp only at claims
      split at claims
      · exact absurd claims unfinished
      · obtain ⟨w', rest, rfl, goesOn⟩ := Task.of_follow_act claims
        split at goesOn
        next saved =>
          rw [afterClaim_eq] at goesOn
          obtain ⟨given, last, result, rfl, executed, finishes⟩ := Task.of_follow_bind goesOn
          cases result with
          | error e => exact absurd fine (fails_release.follow finishes)
          | ok _ =>
              obtain ⟨handler, job, found, returned⟩ := of_follow_execute executed
              obtain ⟨w'', rfl, deleted⟩ := of_follow_complete finishes fine
              exact .intro rfl saved found returned deleted
        next => exact absurd goesOn unfinished
        next => exact absurd goesOn unfinished

end Executor

end JobQueue
