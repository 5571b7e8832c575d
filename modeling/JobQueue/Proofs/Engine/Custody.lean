/-
Records in the custody of an engine.

A pool is trusty if its archive knows every record that is on its way to a worker and whatever a
worker is at leads onward. Then it stays so and leads onward in everything that it does by itself
(`Pool.Trusty.step`), with new batches of known records and with changes of the world by others. So
the calls that work through an engine lead onward too: batches, single records and scans
(`Engine.assures_processConcurrently`, `Engine.assures_scanOnce`).
-/

import JobQueue.Proofs.Pool.Log
import JobQueue.Proofs.Pool.Service
import JobQueue.Proofs.Service.Calls

namespace JobQueue

variable {W C : Type} {archive : Archive W C} {wanted : String → Prop} {r : JobRecord}

namespace Pool

variable {x : Executor W} {p q : Pool W} {event : Event} {records : List JobRecord} {world : W}

/-! ### Records on their way -/

/-- Whether a record is on its way to a worker. -/
inductive Bears (p : Pool W) (r : JobRecord) : Prop where
  | sent {e : Envelope} (there : e ∈ p.jobs) (own : e.record = r)
  | waiting {s : Submission} (there : s ∈ p.waiting) (own : r ∈ s.records)
  | unsent {b : Batch} {entry : Nat × JobRecord} (active : p.active = some b)
      (there : entry ∈ b.unsent) (own : entry.2 = r)

theorem Step.waiting_subset (rule : Step x p event q) (inner : event.isInner = true) :
    q.waiting ⊆ p.waiting := by
  cases rule with
  | submitEmpty | submitLate | submit => cases inner
  | reject _ next =>
      rw [next]
      exact List.subset_cons_self _ _
  | turn _ next =>
      rw [proceed_waiting, next]
      exact List.subset_cons_self _ _
  | send | sendTimeout | sendClosed | collect | collectTimeout =>
      rw [proceed_waiting]
      exact List.Subset.refl _
  | take | act | ready | expire =>
      rw [setTask_eq]
      exact List.Subset.refl _
  | _ => exact List.Subset.refl _

/-- What is in the job channel was there, or is the record that has been sent. -/
theorem Step.jobs_cases {e : Envelope} (rule : Step x p event q) (there : e ∈ q.jobs) :
    e ∈ p.jobs ∨ ∃ b entry, p.active = some b ∧ entry ∈ b.unsent ∧ entry.2 = e.record := by
  cases rule with
  | send active next =>
      rw [proceed_jobs] at there
      rcases List.mem_append.mp there with old | new
      · exact .inl old
      · cases List.mem_singleton.mp new
        exact .inr ⟨_, _, active, next ▸ List.mem_cons_self, rfl⟩
  | turn | sendTimeout | sendClosed | collect | collectTimeout =>
      rw [proceed_jobs] at there
      exact .inl there
  | take _ next =>
      rw [setTask_eq] at there
      exact .inl (next ▸ List.mem_cons_of_mem _ there)
  | act | ready | expire =>
      rw [setTask_eq] at there
      exact .inl there
  | _ => exact .inl there

/-- No record comes into a pool by itself. -/
theorem Step.bears (rule : Step x p event q) (inner : event.isInner = true) (bears : q.Bears r) :
    p.Bears r := by
  cases bears with
  | sent there own =>
      rcases rule.jobs_cases there with old | ⟨b, entry, active, unsent, same⟩
      · exact .sent old own
      · exact .unsent active unsent (same.trans own)
  | waiting there own => exact .waiting (rule.waiting_subset inner there) own
  | unsent active there own =>
      rcases rule.active_eq_some active with
        ⟨b, before, _, _, fewer, _⟩ | ⟨s, rest, _, next, _, _, unsent, _⟩
      · exact .unsent before (fewer there) own
      · rw [unsent] at there
        exact .waiting (next ▸ List.mem_cons_self) (own ▸ mem_of_mem_indexed there)

theorem bears_submit (bears : (p.submit records).2.Bears r) : p.Bears r ∨ r ∈ records := by
  obtain ⟨_, _, _, _, same⟩ := submit_frame p records
  cases bears with
  | unsent active there own => exact .inl (.unsent (same ▸ active) there own)
  | sent there own =>
      refine .inl (.sent ?_ own)
      unfold Pool.submit at there
      dsimp only at there
      split at there
      · exact there
      · split at there <;> exact there
  | waiting there own =>
      unfold Pool.submit at there
      dsimp only at there
      split at there
      · exact .inl (.waiting there own)
      · split at there
        · exact .inl (.waiting there own)
        · rcases List.mem_append.mp there with old | new
          · exact .inl (.waiting old own)
          · cases List.mem_singleton.mp new
            exact .inr own

/-! ### Trusty pools -/

/-- Records on their way are known, and what the workers are at leads onward. -/
structure Trusty (archive : Archive W C) (wanted : String → Prop) (p : Pool W) : Prop where
  sound : archive.Sound p.world
  known : ∀ r, p.Bears r → archive.Knows p.world r
  working : ∀ w ∈ p.workers, ∀ e task, w.state = .busy e task →
    task.Assures (archive.Onward wanted) (fun _ _ => True) p.world

theorem trusty_start {limits : PoolLimits} {size : Nat} (sound : archive.Sound world) :
    (start limits size world).Trusty archive wanted where
  sound := sound
  known := by
    intro r bears
    cases bears with
    | sent there => cases there
    | waiting there => cases there
    | unsent active => cases active
  working := by
    intro w there e task busy
    cases List.eq_of_mem_replicate there
    cases busy

theorem Trusty.refl (trusty : p.Trusty archive wanted) : archive.Onward wanted p.world p.world :=
  .refl trusty.sound

/-- A pool stays trusty when others lead its world onward. -/
theorem Trusty.onward (trusty : p.Trusty archive wanted)
    (onward : archive.Onward wanted p.world world) :
    ({ p with world := world } : Pool W).Trusty archive wanted where
  sound := onward.sound
  known := by
    intro r bears
    refine (trusty.known r ?_).onward onward
    cases bears with
    | sent there own => exact .sent there own
    | waiting there own => exact .waiting there own
    | unsent active there own => exact .unsent active there own
  working := fun w member e task busy =>
    (trusty.working w member e task busy).later Archive.Onward.trans (fun done _ => done) onward

/-- A trusty pool may be handed records that are known. -/
theorem Trusty.submit (trusty : p.Trusty archive wanted)
    (known : ∀ r ∈ records, archive.Knows p.world r) :
    (p.submit records).2.Trusty archive wanted := by
  obtain ⟨_, _, workers, world, _⟩ := submit_frame p records
  refine ⟨world ▸ trusty.sound, fun r bears => ?_, workers ▸ world ▸ trusty.working⟩
  rw [world]
  rcases bears_submit bears with old | new
  · exact trusty.known r old
  · exact known r new

variable {ws : List (Worker W)} {i : Nat} {w : Worker W}

theorem forall_busy_set {holds : Task W Ended → Prop}
    (old : ∀ w ∈ ws, ∀ e task, w.state = .busy e task → holds task)
    (new : ∀ e task, w.state = .busy e task → holds task) :
    ∀ w' ∈ ws.set i w, ∀ e task, w'.state = .busy e task → holds task := by
  intro w' member
  rcases List.mem_or_eq_of_mem_set member with before | rfl
  · exact old w' before
  · exact new

/-- Whatever a trusty pool does by itself leads onward. -/
theorem Trusty.onward_step (trusty : p.Trusty archive wanted) (rule : Step x p event q) :
    archive.Onward wanted p.world q.world := by
  cases rule with
  | turn | send | sendTimeout | sendClosed | collect | collectTimeout =>
      rw [proceed_world]
      exact trusty.refl
  | act busy =>
      rw [setTask_eq]
      exact (trusty.working _ (List.mem_of_getElem? busy) _ _ rfl p.world trusty.refl).1
  | take | ready | expire =>
      rw [setTask_eq]
      exact trusty.refl
  | _ => exact trusty.refl

/-- A pool whose executor attends to its archive stays trusty in whatever it does by itself. -/
theorem Trusty.step (trusty : p.Trusty archive wanted) (attends : x.Attends archive wanted)
    (rule : Step x p event q) (inner : event.isInner = true) : q.Trusty archive wanted := by
  have onward := trusty.onward_step rule
  refine ⟨onward.sound, fun r bears => (trusty.known r (rule.bears inner bears)).onward onward, ?_⟩
  have old : ∀ w ∈ p.workers, ∀ e task, w.state = .busy e task →
      task.Assures (archive.Onward wanted) (fun _ _ => True) q.world :=
    fun w member e task busy =>
      (trusty.working w member e task busy).later Archive.Onward.trans (fun done _ => done) onward
  cases rule with
  | submitEmpty | submitLate | submit | shutdown | deadline => cases inner
  | turn | send | sendTimeout | sendClosed | collect | collectTimeout =>
      rw [proceed_workers]
      exact old
  | take _ next =>
      have knows := trusty.known _ (.sent (next ▸ List.mem_cons_self) rfl)
      rw [setTask_eq] at old ⊢
      refine forall_busy_set old ?_
      rintro _ _ ⟨⟩
      exact attends.assures_run knows
  | act busy =>
      have task := trusty.working _ (List.mem_of_getElem? busy) _ _ rfl p.world trusty.refl
      rw [setTask_eq] at old ⊢
      refine forall_busy_set old ?_
      rintro _ _ ⟨⟩
      exact task.2
  | ready busy came =>
      have task := trusty.working _ (List.mem_of_getElem? busy) _ _ rfl true p.world trusty.refl
      rw [setTask_eq] at old ⊢
      refine forall_busy_set old ?_
      rintro _ _ ⟨⟩
      exact task fun _ => came
  | expire busy =>
      have task := trusty.working _ (List.mem_of_getElem? busy) _ _ rfl false p.world trusty.refl
      rw [setTask_eq] at old ⊢
      refine forall_busy_set old ?_
      rintro _ _ ⟨⟩
      exact task nofun
  | finish | deliver | giveUp | stop | quit => exact forall_busy_set old nofun
  | reject | collectClosed | elapse => exact old

end Pool

/-! ### Calls that work through an engine -/

namespace Engine

variable {α : Type} {e e₀ e' : Engine W} {p : Processor W} {records : List JobRecord}

/-- From one state of an engine to a later one: its world has gone onward, and its pool is
trusty. -/
structure Onward (archive : Archive W C) (wanted : String → Prop) (e e' : Engine W) : Prop where
  trusty : e'.pool.Trusty archive wanted
  world : archive.Onward wanted e.world e'.world

theorem Onward.refl (trusty : e.pool.Trusty archive wanted) : Onward archive wanted e e :=
  ⟨trusty, .refl trusty.sound⟩

theorem Onward.trans (first : Onward archive wanted e e₀) (second : Onward archive wanted e₀ e') :
    Onward archive wanted e e' := ⟨second.trusty, first.world.trans second.world⟩

/-- What a task assures of the world, it assures on an engine. -/
theorem assures_onWorld {t : Task W α} {goal : α → W → Prop}
    (assures : t.Assures (archive.Onward wanted) goal e.world) :
    (onWorld t).Assures (Onward archive wanted) (fun a e => goal a e.world) e :=
  assures.lift (fun _ _ since => since.world)
    (fun _ _ since onward => ⟨⟨since.trusty.onward onward, onward⟩, rfl⟩)
    (fun _ _ since => .refl since.trusty)

theorem assures_processBatch (known : ∀ r ∈ records, archive.Knows e.world r) :
    (processBatch records).Assures (Onward archive wanted) (fun _ _ => True) e := by
  intro e₁ since
  have known' : ∀ r ∈ records, archive.Knows e₁.world r :=
    fun r member => (known r member).onward since.world
  have trusty := since.trusty.submit known'
  obtain ⟨_, _, _, world, _⟩ := Pool.submit_frame e₁.pool records
  refine ⟨⟨trusty, ?_⟩, fun _ e₂ _ _ e₃ since₃ => ⟨.refl since₃.trusty, trivial⟩⟩
  show archive.Onward wanted e₁.pool.world (e₁.pool.submit records).2.world
  rw [world]
  exact .refl since.trusty.sound

variable (attends : p.Attends archive wanted)

include attends

theorem assures_processAll (sound : archive.Sound e.world)
    (known : ∀ r ∈ records, archive.Knows e.world r) :
    (processAll p records).Assures (Onward archive wanted) (fun _ _ => True) e :=
  assures_onWorld (attends.executor.assures_runAll sound known)

theorem assures_processConcurrently (sound : archive.Sound e.world)
    (known : ∀ r ∈ records, archive.Knows e.world r) :
    (processConcurrently p records).Assures (Onward archive wanted) (fun _ _ => True) e := by
  rw [processConcurrently]
  split
  · trivial
  · split
    · exact (assures_processBatch known).bind fun _ _ _ => trivial
    · exact assures_processAll attends sound known

theorem assures_scanOnce (sound : archive.Sound e.world) :
    (Scanner.scanOnce p).Assures (Onward archive wanted) (fun _ _ => True) e := by
  rw [Scanner.scanOnce]
  refine JobTask.assures_bind
    (fun page e => archive.Sound e.world ∧ ∀ r ∈ page, archive.Knows e.world r) ?fetch ?_
  case fetch =>
    have fetched : (Scanner.fetch p).run.Assures (archive.Onward wanted) _ e.world :=
      attends.assures_fetch.steps.since Archive.Onward.trans (.refl sound)
    refine ⟨(assures_onWorld fetched).mono ?_⟩
    rintro (fault | page) e ⟨since, known⟩
    · trivial
    · exact ⟨since.sound, known page rfl⟩
  rintro page e ⟨sound, known⟩
  split
  · exact JobTask.assures_ok trivial
  · refine JobTask.assures_bind (fun _ _ => True) ?process fun outcome e _ => ?_
    case process =>
      exact JobTask.assures_lift (assures_processConcurrently attends sound known)
    cases outcome with
    | ok results => exact JobTask.assures_ok trivial
    | error c => exact ⟨trivial⟩

end Engine

end JobQueue
