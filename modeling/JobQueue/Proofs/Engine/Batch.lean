/-
A batch of a single caller.

In an engine where nothing is going on only time passes (`Engine.AtRest`). A batch that a single
caller processes there without an id twice is served, whether the records are run in the caller's
own task (`Executor.secures_runAll`) or by the workers of the pool (`Engine.secures_processBatch`):
every run ends in one of the ways that are foreseen, and no other record is touched.
-/

import JobQueue.Proofs.Engine.Alone
import JobQueue.Proofs.Pool.Fulfilment

namespace JobQueue

open Pool
open Relation (ReflTransGen)

variable {W C : Type} {shelf : Shelf W C} {fates : Fates C} {able : Prop}

/-! ### One record after another -/

namespace Pool

variable {r : JobRecord} {rest : List JobRecord} {ended : Ended} {results : List JobResult}
  {cells cells' cells'' : String → Option C}

/-- Records are served if the first of them is and then the others are. -/
theorem Served.cons (ends : fates r (cells r.id) ended (cells' r.id))
    (apart : ∀ id, id ≠ r.id → cells' id = cells id) (fresh : r.id ∉ rest.map JobRecord.id)
    (served : Served fates rest cells' results cells'') :
    Served fates (r :: rest) cells (resultOf ended :: results) cells'' where
  each := by
    refine .cons ⟨ended, rfl, (served.others r.id fresh).symm ▸ ends⟩ ?_
    obtain ⟨length, each⟩ := List.forall₂_iff_zip.mp served.each
    refine List.forall₂_iff_zip.mpr ⟨length, fun {other result} member => ?_⟩
    have differs : other.id ≠ r.id := fun same =>
      fresh (same ▸ List.mem_map_of_mem (List.of_mem_zip member).1)
    exact apart other.id differs ▸ each member
  others := by
    intro id unnamed
    rw [List.map_cons, List.mem_cons, not_or] at unnamed
    rw [served.others id unnamed.2, apart id unnamed.1]

end Pool

namespace Executor

variable {x : Executor W} {records : List JobRecord} {w : W}

/-- Records without an id twice that are run one after another, with nobody else at work, are
served. -/
theorem secures_runAll
    (brings : ∀ r before, (x.run none r).Brings shelf r.id (fates r before) before)
    (whole : ∀ r ∈ records, ∀ before ended after, fates r before ended after →
      ∃ result, ended.result = Except.mapError Fault.error result)
    (nodup : (records.map JobRecord.id).Nodup) (good : shelf.Good w)
    (limited : able → x.WaitsOnly fun limit => limit.isSome) :
    (x.runAll records).SecuresAlone able (fun outcome w' => ∃ results, outcome = .ok results ∧
      shelf.Good w' ∧ Served fates records (shelf.cell w) results (shelf.cell w')) w := by
  induction records generalizing w with
  | nil =>
      intro w' later
      cases Task.eq_of_nobody later
      exact ⟨[], rfl, good, .nil, fun _ _ => rfl⟩
  | cons r rest ih =>
      rw [List.map_cons, List.nodup_cons] at nodup
      rw [runAll_cons]
      refine ((brings r _).alone good fun yes => waitsOnly_run (limited yes)).bind ?_
      intro ended w' reached
      obtain ⟨ends, good', apart⟩ := reached w' .refl
      have later :=
        ih (fun r member => whole r (List.mem_cons_of_mem _ member)) nodup.2 good'
      obtain ⟨result, whole⟩ : ∃ result, ended.result = Except.mapError Fault.error result :=
        whole r List.mem_cons_self _ _ _ ends
      -- However the first run has ended, its result comes before those of the others.
      have more : Task.SecuresAlone able (fun outcome w'' => ∃ results, outcome = .ok results ∧
          shelf.Good w'' ∧ Served fates (r :: rest) (shelf.cell w) results (shelf.cell w''))
          ((x.runAll rest).bind fun results => .done (results.map (result :: ·))) w' := by
        refine later.bind ?_
        intro outcome w'' reached w₃ later
        obtain ⟨results, rfl, good'', served⟩ := reached w₃ later
        refine ⟨result :: results, rfl, good'', ?_⟩
        have given : resultOf ended = result := by
          rw [resultOf, whole]
          cases result <;> rfl
        exact given ▸ served.cons ends apart.cell nodup.1
      rw [whole]
      cases result <;> exact more

end Executor

/-! ### Pools in which nothing is going on -/

namespace Pool

variable {x : Executor W} {p q : Pool W} {event : Event}

/-- Nothing is going on in a pool, with or without workers, and no batch waits. -/
structure Resting (p : Pool W) : Prop where
  early : p.isShutdown = false
  staying : p.isQuitting = false
  idle : ∀ w ∈ p.workers, w.state = .idle
  jobs : p.jobs = []
  free : p.active = none
  alone : p.waiting = []

theorem Quiet.resting (quiet : p.Quiet) : p.Resting :=
  ⟨quiet.early, quiet.staying, quiet.idle, quiet.jobs, quiet.free, quiet.alone⟩

theorem Quiet.later {now : Nat} {w : W} (quiet : p.Quiet) :
    { p with now := now, world := w }.Quiet :=
  { quiet with ticketed := { quiet.ticketed with } }

theorem Resting.later {now : Nat} {w : W} (resting : p.Resting) :
    { p with now := now, world := w }.Resting := { resting with }

/-- Only time passes where nothing is going on. -/
theorem Resting.step (resting : p.Resting) (rule : Step x p event q) (calm : event.isCalm = true) :
    ∃ millis, q = { p with now := p.now + millis } := by
  have notBusy : ∀ {i : Nat} {state : WorkerState W} {timer : Option Timer},
      p.workers[i]? = some ⟨state, timer⟩ → state = .idle :=
    fun here => resting.idle _ (List.mem_of_getElem? here)
  cases rule with
  | submitEmpty | submitLate | submit | shutdown | deadline => cases calm
  | reject _ next | turn _ next => simp [resting.alone] at next
  | send active | sendTimeout active | sendClosed active | collect active
  | collectTimeout active | collectClosed active => simp [resting.free] at active
  | take _ next => simp [resting.jobs] at next
  | act busy | finish busy | ready busy | expire busy => cases notBusy busy
  | deliver reporting | giveUp reporting => cases notBusy reporting
  | stop _ _ closed => simp [jobsClosed, resting.early] at closed
  | quit _ told => simp [resting.staying] at told
  | elapse => exact ⟨_, rfl⟩

end Pool

namespace Engine

variable {α : Type} {x : Executor W} {p : Processor W} {e e' : Engine W} {w : W}
  {records : List JobRecord} {goal : α → W → Prop} {t : Task W α}

/-- Nothing is going on in the engine of a processor; if it has a pool, the pool has workers. -/
structure AtRest (p : Processor W) (e : Engine W) : Prop where
  resting : e.pool.Resting
  quiet : p.isPooled = true → e.pool.Quiet

/-- Only time passes in an engine in which nothing is going on. -/
theorem exists_now (resting : e.pool.Resting) (later : ReflTransGen (Stirs x) e e') :
    ∃ now, e' = e.setPool { e.pool with now := now } := by
  induction later with
  | refl => exact ⟨e.pool.now, rfl⟩
  | tail _ last ih =>
      obtain ⟨now, rfl⟩ := ih
      obtain ⟨event, q, calm, rule, rfl⟩ := last
      obtain ⟨millis, rfl⟩ := resting.later.step rule calm
      exact ⟨now + millis, rfl⟩

theorem AtRest.later {now : Nat} (rest : e.AtRest p) :
    (e.setPool { e.pool with now := now, world := w }).AtRest p :=
  ⟨rest.resting.later, fun pooled => (rest.quiet pooled).later⟩

/-- A processor at its start is at rest. -/
theorem atRest_start {world : W} : (start p world).AtRest p where
  resting := {
    early := rfl
    staying := rfl
    idle := fun w member => (List.eq_of_mem_replicate member) ▸ rfl
    jobs := rfl
    free := rfl
    alone := rfl }
  quiet := by
    intro pooled
    refine quiet_start ?_
    rw [Processor.workers, if_pos pooled, sizeFor]
    split
    · decide
    · omega

/-- A task on the world of an engine in which nothing is going on comes to what it comes to alone,
and changes nothing but the world. -/
theorem secures_onWorld (secures : t.SecuresAlone able goal e.world)
    (resting : e.pool.Resting) :
    (onWorld t).Secures (Stirs x) able (fun a e' => ∃ now w,
      e' = e.setPool { e.pool with now := now, world := w } ∧ goal a w) e := by
  have only : (onWorld t).Secures (Stirs x) able (fun a e' =>
      (∃ now w, e' = e.setPool { e.pool with now := now, world := w }) ∧ goal a e'.world) e := by
    refine secures.lift rfl ⟨e.pool.now, e.pool.world, rfl⟩ ?_ ?_
    · rintro _ e' ⟨now, w, rfl⟩ stirs
      obtain ⟨now', rfl⟩ := exists_now
        (e := e.setPool { e.pool with now := now, world := w }) resting.later (.single stirs)
      exact ⟨⟨now', w, rfl⟩, rfl⟩
    · rintro w' _ ⟨now, w, rfl⟩
      exact ⟨⟨now, w', rfl⟩, rfl⟩
  refine only.mono ?_
  rintro a e' ⟨⟨now, w, rfl⟩, reached⟩
  exact ⟨now, w, rfl, reached⟩

/-! ### Batches in the pool -/

/-- A batch that is under way or has its answer. -/
def Serves (x : Executor W) (shelf : Shelf W C) (fates : Fates C) (s : Submission) (p₀ : Pool W)
    (e : Engine W) : Prop :=
  ∃ events past, Course x s p₀ events e.pool ∧
    e.pool.Fulfils shelf fates (shelf.cell p₀.world) past (p₀.finished x events)

variable {s : Submission} {p₀ : Pool W}

theorem Serves.after (serves : e.Serves x shelf fates s p₀)
    (brings : ∀ worker r before, (x.run worker r).Brings shelf r.id (fates r before) before)
    (separate : Separate p₀.size s.records) (later : ReflTransGen (Stirs x) e e') :
    e'.Serves x shelf fates s p₀ := by
  induction later with
  | refl => exact serves
  | tail _ last ih =>
      obtain ⟨event, q, calm, rule, rfl⟩ := last
      obtain ⟨events, past, course, fulfils⟩ := ih
      obtain ⟨past', fulfils'⟩ := course.fulfils_step fulfils brings separate rule calm
      exact ⟨_, past', course.step separate rule calm, fulfils'⟩

/-- Events that give nothing up stir the engine. -/
theorem stirs_of_replay {events : List Event} {q : Pool W}
    (run : e.pool.replay x events = some q) (calm : ∀ event ∈ events, event.isCalm = true) :
    ReflTransGen (Stirs x) e (e.setPool q) := by
  induction events generalizing e with
  | nil =>
      cases run
      exact .refl
  | cons event rest ih =>
      rw [replay, Option.bind_eq_some_iff] at run
      obtain ⟨middle, happens, later⟩ := run
      have first : e.Stirs x (e.setPool middle) :=
        ⟨event, middle, calm event List.mem_cons_self, step_eq_some_iff.mp happens, rfl⟩
      exact .head first (ih (e := e.setPool middle) later
        fun other member => calm other (List.mem_cons_of_mem _ member))

theorem answered_after {ticket : Nat} {results : List JobResult}
    (answered : e.pool.answerOf? ticket = some results) (later : ReflTransGen (Stirs x) e e') :
    e'.pool.answerOf? ticket = some results := by
  induction later with
  | refl => exact answered
  | tail _ last ih =>
      obtain ⟨event, q, _, rule, rfl⟩ := last
      exact rule.answerOf?_eq_some ih

/-- A batch without an id twice that is handed to a pool at rest is served. It gets its answer if
it fits into channels and workers and no handler waits without a limit. -/
theorem secures_processBatch (quiet : e.pool.Quiet) (good : shelf.Good e.world)
    (brings : ∀ worker r before, (x.run worker r).Brings shelf r.id (fates r before) before)
    (nodup : (records.map JobRecord.id).Nodup)
    (fits : able → (x.WaitsOnly fun limit => limit.isSome) ∧ 0 < e.pool.capacity ∧
      records.length ≤ e.pool.room) :
    (processBatch records).Secures (Stirs x) able (fun results e' => shelf.Good e'.world ∧
      Served fates records (shelf.cell e.world) results (shelf.cell e'.world)) e := by
  have call : (processBatch records : Task (Engine W) (List JobResult)) =
      .act (fun e => e.setPool (e.pool.submit records).2) fun e =>
        .wait (fun e' => (e'.pool.answerOf? (e.pool.submit records).1).isSome) none fun _ =>
          .act id fun e' => .done ((e'.pool.answerOf? (e.pool.submit records).1).getD []) := rfl
  rw [call]
  intro e₁ begun
  obtain ⟨now, rfl⟩ := exists_now quiet.resting begun
  have quiet' : { e.pool with now := now }.Quiet := quiet.later (w := e.pool.world)
  generalize own : { e.pool with now := now } = pool at quiet' ⊢
  have same : pool.world = e.world ∧ pool.capacity = e.pool.capacity ∧
      pool.room = e.pool.room := by
    subst own
    exact ⟨rfl, rfl, rfl⟩
  obtain ⟨_, capacity, workers, world, _⟩ := submit_frame pool records
  rw [same.1] at world
  rw [same.2.1] at capacity
  have idle : ∀ w ∈ (pool.submit records).2.workers, w.state = .idle := workers ▸ quiet'.idle
  have separate : Separate (pool.submit records).2.size records := .inr nodup
  have serves : (e.setPool (pool.submit records).2).Serves x shelf fates
      ⟨pool.nextTicket, records⟩ (pool.submit records).2 :=
    ⟨[], _, quiet'.course, fulfils_start (world ▸ good) idle⟩
  intro e₃ waited
  have serves₃ := serves.after brings separate waited
  dsimp only [setPool]
  rw [submit_fst]
  refine ⟨fun yes => .inr ?_, fun came ends e₄ read e₅ gone => ?_⟩
  · obtain ⟨handlers, space, few⟩ := fits yes
    obtain ⟨events, past, course, _⟩ := serves₃
    have room : (pool.submit records).2.room = e.pool.room := by
      rw [← same.2.2, Pool.room, Pool.room, capacity, same.2.1, Pool.size, Pool.size, workers]
    obtain ⟨more, q, run, calm, results, answered⟩ :=
      course.exists_answer separate handlers (capacity ▸ space) (room ▸ few)
    refine ⟨e₃.setPool q, stirs_of_replay run calm, ?_⟩
    exact Option.isSome_iff_exists.mpr ⟨results, answered⟩
  · cases came with
    | false => cases ends
    | true =>
        obtain ⟨results, answered⟩ := Option.isSome_iff_exists.mp ends
        have answered₄ := answered_after answered read
        have answered₅ := answered_after answered₄ gone
        obtain ⟨events, past, course, fulfils⟩ :=
          serves₃.after brings separate (read.trans gone)
        rw [answered₄, Option.getD_some, ← world]
        exact ⟨fulfils.good, course.served fulfils nodup answered₅⟩

/-- A batch without an id twice that a single caller hands to a processor at rest is served, with or
without a pool. -/
theorem secures_processConcurrently (rest : e.AtRest p) (good : shelf.Good e.world)
    (brings : ∀ worker r before,
      (p.executor.run worker r).Brings shelf r.id (fates r before) before)
    (whole : ∀ r ∈ records, ∀ before ended after, fates r before ended after →
      ∃ result, ended.result = Except.mapError Fault.error result)
    (nodup : (records.map JobRecord.id).Nodup)
    (fits : able → (p.executor.WaitsOnly fun limit => limit.isSome) ∧
      (p.isPooled = true → 0 < e.pool.capacity ∧ records.length ≤ e.pool.room)) :
    (processConcurrently p records).Secures (Stirs p.executor) able (fun outcome e' =>
      ∃ results, outcome = .ok results ∧ shelf.Good e'.world ∧
        Served fates records (shelf.cell e.world) results (shelf.cell e'.world)) e := by
  rw [processConcurrently]
  split
  next empty =>
    rw [List.isEmpty_iff] at empty
    subst empty
    intro e' later
    obtain ⟨now, rfl⟩ := exists_now rest.resting later
    exact ⟨[], rfl, good, .nil, fun _ _ => rfl⟩
  next =>
    split
    next pooled =>
      refine (secures_processBatch (rest.quiet pooled) good brings nodup fun yes =>
        ⟨(fits yes).1, (fits yes).2 pooled⟩).bind ?_
      exact fun results e' reached e'' later => ⟨results, rfl, reached e'' later⟩
    next =>
      refine (secures_onWorld (Executor.secures_runAll (brings none) whole nodup good
        fun yes => (fits yes).1) rest.resting).mono ?_
      rintro outcome e' ⟨now, w, rfl, reached⟩
      exact reached

end Engine

end JobQueue
