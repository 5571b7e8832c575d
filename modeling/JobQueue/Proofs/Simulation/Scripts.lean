/-
Scripts that come to the same at every run.

The records of a simulated world are kept in memory, and each call of their store fails where it
is planned to (`World.unreliable`); without plans and with a clock that stands still the store is
reliable (`World.reliable`). A script whose behaviour is settled by the job alone
(`Behaviour.verdict?`) leaves the records alone and comes to its verdict at every run
(`Script.leads`), so an executor of such scripts is steady (`steady_of_settled`).
-/

import JobQueue.Processor
import JobQueue.Proofs.Job.Fate
import JobQueue.Proofs.Store.Memory
import JobQueue.Simulation.Script

namespace JobQueue.Simulation

variable {α : Type} {w : World} {now : Instant} {id : String}

/-! ### The records of a world -/

namespace World

/-- The records of a world under their ids. -/
def shelf : Shelf World JobRecord := MemoryStore.shelf storePart

/-- The records of a world without plans whose clock always shows one time. -/
def stillShelf (now : Instant) : Shelf World JobRecord :=
  { shelf with Good := fun w => w.plans = [] ∧ ∀ n, w.nature.readings n = now }

theorem storePart_lawful : storePart.Lawful := fun _ _ => rfl

/-- A planned call does its work, or fails and leaves the records as they are. -/
theorem planned_cases {entry : Call} {act : StoreCall World α} :
    (∃ w₀, w₀.store = w.store ∧ planned entry act w = act w₀) ∨
      ∃ fault w', w'.store = w.store ∧ planned entry act w = (.error fault, w') := by
  have kept : (nextPlan entry.method { w with calls := entry :: w.calls }).2.store = w.store := by
    unfold nextPlan
    split <;> rfl
  unfold planned
  dsimp only
  generalize nextPlan entry.method { w with calls := entry :: w.calls } = outcome at kept ⊢
  obtain ⟨plan, w'⟩ := outcome
  cases plan with
  | work => exact .inl ⟨w', kept, rfl⟩
  | error e => exact .inr ⟨_, w', kept, rfl⟩
  | crash => exact .inr ⟨_, w', kept, rfl⟩

theorem mayFail_planned {C : Type} {shelf : Shelf World C} {entry : Call}
    {act : StoreCall World Unit} (same : ∀ w w' : World, w'.store = w.store → shelf.Same w w') :
    shelf.MayFail act (planned entry act) := by
  intro w
  rcases planned_cases with ⟨w₀, kept, does⟩ | ⟨fault, w', kept, fails⟩
  · exact .inl ⟨w₀, same w w₀ kept, does⟩
  · exact .inr ⟨fault, w', same w w' kept, fails⟩

theorem same_of_store {w w' : World} (kept : w'.store = w.store) : shelf.Same w w' :=
  ⟨fun good => good, fun id => congrArg (·.get? id) kept⟩

/-- The store of a world is a memory store whose calls may fail. -/
theorem unreliable : shelf.Unreliable plainRecords records :=
  ⟨fun _ => mayFail_planned fun _ _ => same_of_store,
    fun _ => mayFail_planned fun _ _ => same_of_store⟩

theorem planned_of_unplanned {entry : Call} {act : StoreCall World α} (unplanned : w.plans = []) :
    planned entry act w = act { w with calls := entry :: w.calls } := by
  simp [planned, nextPlan, unplanned]

/-- What holds of a call without plans holds where the clock stands still. -/
theorem outcome_still {change : JobRecord → Option JobRecord} {call : StoreCall World Unit}
    {entry : Call} (still : (stillShelf now).Good w)
    (outcome : shelf.Outcome id change { w with calls := entry :: w.calls }
      (call { w with calls := entry :: w.calls }))
    (plans : ∀ w, (call w).2.plans = w.plans) (nature : ∀ w, (call w).2.nature = w.nature) :
    (stillShelf now).Outcome id change w (planned entry call w) := by
  rw [planned_of_unplanned still.1]
  have good : (stillShelf now).Good (call { w with calls := entry :: w.calls }).2 := by
    constructor
    · rw [plans]
      exact still.1
    · intro n
      rw [nature]
      exact still.2 n
  have counted : (stillShelf now).Same w { w with calls := entry :: w.calls } :=
    ⟨fun still => still, fun _ => rfl⟩
  exact Shelf.Outcome.after (outcome.withGood fun _ => good) counted

/-- Without plans the store of a world fails only where no record stands. -/
theorem reliable : (stillShelf now).Reliable records where
  save := fun r _ still => outcome_still still
    ((MemoryStore.reliable storePart_lawful).save r _ trivial) (fun _ => rfl) fun _ => rfl
  delete := fun r _ still => outcome_still still
    ((MemoryStore.reliable storePart_lawful).delete r _ trivial) (fun _ => rfl) fun _ => rfl
  save_answer := fun r _ still =>
    (congrArg Prod.fst (planned_of_unplanned still.1)).trans
      ((MemoryStore.reliable storePart_lawful).save_answer r _ trivial)
  delete_answer := fun r _ still =>
    (congrArg Prod.fst (planned_of_unplanned still.1)).trans
      ((MemoryStore.reliable storePart_lawful).delete_answer r _ trivial)

end World

/-! ### Settled behaviours -/

/-- What a behaviour comes to, if the job alone settles it. -/
def Behaviour.verdict? (job : Job) : Behaviour → Option (Except (Fault JobError) Unit)
  | .succeed => some (.ok ())
  | .fail text => some (.error (.error (.handlerFailed text)))
  | .failById => some (.error (.error (.handlerFailed s!"{job.id} refused")))
  | .endWith e => some (.error (.error e))
  | .breakOff c => some (.error (.crash c))
  | .obeyData =>
      if asksToFail job.data? then some (.error (.error (.handlerFailed "data asked to fail")))
      else some (.ok ())
  | .flaky _ | .deleteSelf | .spawn _ | .decodeEmail => none

theorem Behaviour.run_of_verdict {number : Nat} {job : Job} {b : Behaviour}
    {verdict : Except (Fault JobError) Unit} (settled : b.verdict? job = some verdict) :
    (b.run number job).run = .done verdict := by
  cases b with
  | succeed | fail | failById | endWith | breakOff =>
      cases settled
      rfl
  | obeyData =>
      rw [verdict?] at settled
      rw [run]
      split at settled
      next asks =>
        cases settled
        rw [if_pos asks]
        rfl
      next asks =>
        cases settled
        rw [if_neg asks]
        rfl
  | flaky | deleteSelf | spawn | decodeEmail => cases settled

namespace Script

variable {s : Script} {context : JobContext} {job : Job}
  {verdict : Except (Fault JobError) Unit}

/-- The task of a script: it enters its run into the account, pauses, and does what it is to do. -/
theorem run_eq : (s.toHandler.run context job).run =
    .act (fun w => { w with runs := ⟨s.jobType, job, context⟩ :: w.runs }) fun _ =>
      match s.pause with
      | some millis =>
          .wait (fun _ => false) (some millis) fun _ => (s.behaviour.run s.number job).run
      | none => (s.behaviour.run s.number job).run := by
  unfold toHandler
  cases s.pause <;> rfl

/-- A script comes to its verdict at every run, and leaves the records as they are. -/
theorem leads (settled : s.behaviour.verdict? job = some verdict) {before : Option JobRecord} :
    (s.toHandler.run context job).run.Leads (World.stillShelf now) id verdict before before := by
  rw [run_eq, Behaviour.run_of_verdict settled]
  intro w good kept
  refine ⟨⟨fun good => good, fun _ _ => rfl⟩, ?_⟩
  cases s.pause with
  | some millis => exact fun _ => ⟨rfl, kept⟩
  | none => exact ⟨rfl, kept⟩

theorem spares {C : Type} {shelf : Shelf World C}
    (same : ∀ (w : World) runs, shelf.Same w { w with runs := runs })
    (settled : s.behaviour.verdict? job = some verdict) :
    (s.toHandler.run context job).run.Spares shelf := by
  rw [run_eq, Behaviour.run_of_verdict settled]
  intro w good
  refine ⟨same _ _, ?_⟩
  cases s.pause with
  | some millis => exact fun _ => trivial
  | none => trivial

/-- A script waits only in its pause. -/
theorem waitsOnly {allowed : Option Nat → Prop} (settled : s.behaviour.verdict? job = some verdict)
    (pause : ∀ millis, s.pause = some millis → allowed (some millis)) :
    (s.toHandler.run context job).run.WaitsOnly allowed := by
  rw [run_eq, Behaviour.run_of_verdict settled]
  intro _
  cases paused : s.pause with
  | some millis => exact ⟨pause millis paused, fun _ => trivial⟩
  | none => trivial

/-- An executor on the world whose handlers follow some scripts. -/
def executor (scripts : List Script) (lease : Span) : Executor World where
  backend := World.backend
  registry := ⟨scripts.map fun s => (s.jobType, s.toHandler)⟩
  lease := lease

/-- The verdicts of some scripts. -/
def verdicts (scripts : List Script) : Executor.Verdict JobRecord := fun job kept =>
  (((scripts.find? fun s => s.jobType == job.jobType).bind
    fun s => s.behaviour.verdict? job).getD (.ok ()), kept)

/-- Whether jobs alone settle what some scripts come to. -/
def Settled (scripts : List Script) : Prop :=
  ∀ s ∈ scripts, ∀ job, (s.behaviour.verdict? job).isSome = true

variable {scripts : List Script} {lease : Span} {jobType : String} {handler : Handler World}

/-- The handler of a type is that of the first script for it. -/
theorem script_of_get (found : (executor scripts lease).registry.get jobType = .ok handler) :
    ∃ s ∈ scripts, handler = s.toHandler ∧
      scripts.find? (fun s => s.jobType == jobType) = some s := by
  unfold executor Registry.get at found
  dsimp only at found
  induction scripts with
  | nil => simp at found
  | cons s rest ih =>
      rw [List.map_cons, List.lookup_cons] at found
      by_cases here : s.jobType = jobType
      · subst here
        simp only [beq_self_eq_true] at found
        cases found
        exact ⟨s, List.mem_cons_self, rfl, by simp⟩
      · have first : (jobType == s.jobType) = false :=
          beq_false_of_ne fun same => here same.symm
        simp only [first] at found
        obtain ⟨s', member, same, chosen⟩ := ih found
        refine ⟨s', List.mem_cons_of_mem _ member, same, ?_⟩
        rw [List.find?_cons_of_neg (by simpa using here), chosen]

/-- Where the clock stands still, settled scripts make a steady executor. -/
theorem steady_of_settled (settled : Settled scripts) :
    (executor scripts lease).Steady (World.stillShelf now) now (verdicts scripts) where
  store := World.reliable
  reading := fun w still => still.2 _
  ticking := fun w _ => ⟨fun still => still, fun _ => rfl⟩
  handlers := by
    intro job handler found worker before
    obtain ⟨s, member, rfl, chosen⟩ := script_of_get found
    obtain ⟨verdict, same⟩ := Option.isSome_iff_exists.mp (settled s member job)
    have own : verdicts scripts job before = (verdict, before) := by
      simp [verdicts, chosen, same]
    rw [own]
    exact leads same

theorem waitsOnly_of_settled {allowed : Option Nat → Prop} (settled : Settled scripts)
    (pauses : ∀ s ∈ scripts, ∀ millis, s.pause = some millis → allowed (some millis)) :
    (executor scripts lease).WaitsOnly allowed := by
  intro jobType handler found context job
  obtain ⟨s, member, rfl, _⟩ := script_of_get found
  obtain ⟨verdict, same⟩ := Option.isSome_iff_exists.mp (settled s member job)
  exact waitsOnly same (pauses s member)

theorem spares_of_settled {C : Type} {shelf : Shelf World C}
    (same : ∀ (w : World) runs, shelf.Same w { w with runs := runs }) (settled : Settled scripts)
    (found : (executor scripts lease).registry.get jobType = .ok handler) :
    (handler.run context job).run.Spares shelf := by
  obtain ⟨s, member, rfl, _⟩ := script_of_get found
  obtain ⟨verdict, comes⟩ := Option.isSome_iff_exists.mp (settled s member job)
  exact spares same comes

end Script

/-! ### An easy world -/

/-- A world of some records in which nothing has happened and the clock stands still. -/
def World.still (records : List JobRecord) : World :=
  { World.start ⟨fun _ => ⟨0, 0⟩, fun _ => "", 0, 0⟩ with
    store := ⟨records.map fun r => (r.id, r)⟩ }

/-- A job of the type "A", which nobody has claimed yet. -/
def easyJob (id : String) : JobRecord :=
  ⟨id, queueCollection, "job", "", "\x7b\"type\":\"A\"\x7d", 0, "", ⟨0, 0⟩, ⟨0, 0⟩⟩

def easyJobs (ids : List String) : List JobRecord := ids.map easyJob

/-- One script, which does jobs of the type "A" at once. -/
def easyScripts : List Script := [⟨0, "A", none, .succeed⟩]

/-- An executor for easy jobs, with a lease of five minutes. -/
def easyExecutor : Executor World := Script.executor easyScripts ⟨300000000000⟩

/-- A processor of easy jobs that keeps its records in memory, with a lease of five minutes. -/
def easyProcessor (isPooled : Bool) : Processor World :=
  ⟨.default, ⟨World.plainRecords, World.naturePart.use Nature.now, .breaksOff⟩, none,
    easyExecutor.registry, isPooled⟩

theorem easyScripts_settled : Script.Settled easyScripts := by
  intro s member job
  cases List.mem_singleton.mp member
  rfl

theorem easyExecutor_spares (jobType : String) (handler : Handler World)
    (found : easyExecutor.registry.get jobType = .ok handler) (context : JobContext) (job : Job) :
    (handler.run context job).run.Spares World.shelf :=
  Script.spares_of_settled (fun _ _ => World.same_of_store rfl) easyScripts_settled found

theorem easyExecutor_steady :
    easyExecutor.Steady (World.stillShelf ⟨0, 0⟩) ⟨0, 0⟩ (Script.verdicts easyScripts) :=
  Script.steady_of_settled easyScripts_settled

theorem easyExecutor_prompt : easyExecutor.Prompt :=
  Script.waitsOnly_of_settled easyScripts_settled fun s member _ paused => by
    cases List.mem_singleton.mp member
    cases paused

/-- One script, whose jobs of the type "A" fail at once. -/
def failingScripts : List Script := [⟨0, "A", none, .fail "refused"⟩]

/-- An executor of failing jobs, with a lease of five minutes. -/
def failingExecutor : Executor World := Script.executor failingScripts ⟨300000000000⟩

theorem failingScripts_settled : Script.Settled failingScripts := by
  intro s member job
  cases List.mem_singleton.mp member
  rfl

end JobQueue.Simulation
