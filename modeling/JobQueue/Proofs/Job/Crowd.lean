/-
Attempts at records in one store.

Any number of attempts take their steps in any order, each a single call of the store, of the clock
or of a handler, and any call may fail. Together they keep a history: a record leaves the store
only when an attempt deletes it whose claim has been saved and whose own handler has succeeded.
That attempt alone ends with success, and no later save or delete of the record comes off
(`completed_once`), in the memory store as in a database (`Backing`).
-/

import JobQueue.Proofs.Database.Records
import JobQueue.Proofs.Job.Attempt
import JobQueue.Proofs.Simulation.Scripts
import Mathlib.Data.List.Basic

namespace JobQueue

variable {W C : Type} {shelf : Shelf W C}

/-- A record store that keeps its records in memory or in a database, and whose saves and deletes
may fail. -/
inductive Backing : {C : Type} → Shelf W C → RecordStore W → Prop where
  | memory {place : Part W MemoryStore} {nature : Part W Nature} {records : RecordStore W}
      (lawful : place.Lawful) (mayFail : (MemoryStore.shelf place).Unreliable
        (MemoryStore.recordStore place nature) records) :
      Backing (MemoryStore.shelf place) records
  | database {place : Part W Database} {nature : Part W Nature} {records : RecordStore W}
      (lawful : place.Lawful) (mayFail : (Database.shelf place).Unreliable
        (Database.recordStore place nature) records) :
      Backing (Database.shelf place) records

theorem Backing.keeps {records : RecordStore W} (backing : Backing shelf records) :
    shelf.Keeps records := by
  cases backing with
  | memory lawful mayFail => exact (MemoryStore.reliable lawful).toKeeps.unreliable mayFail
  | database lawful mayFail => exact (Database.keeps lawful).unreliable mayFail

/-! ### Orders of steps -/

/-- Tasks and world after some steps: whose, and whether what it waits for has come. -/
def Task.interleave {α : Type} :
    List (Nat × Bool) → List (Task W α) → W → Option (List (Task W α) × W)
  | [], tasks, w => some (tasks, w)
  | (i, came) :: rest, tasks, w =>
      match tasks[i]? with
      | none => none
      | some t => (t.step came w).bind fun after => interleave rest (tasks.set i after.1) after.2

namespace Attempt

variable {attempts : List (Attempt W)} {a : Attempt W} {phases phases' : List (Phase W)}
  {phase phase' : Phase W} {order : List (Nat × Bool)} {log log' : List (Nat × Deed)}
  {deeds : List Deed} {id : String} {i : Nat} {came : Bool} {w w' : W}

/-- Deeds, phases and world after some steps of some attempts. -/
def replay (attempts : List (Attempt W)) : List (Nat × Bool) → List (Phase W) → W →
    Option (List (Nat × Deed) × List (Phase W) × W)
  | [], phases, w => some ([], phases, w)
  | (i, came) :: rest, phases, w =>
      match attempts[i]?, phases[i]? with
      | some a, some phase => (a.step came phase w).bind fun after =>
          (replay attempts rest (phases.set i after.2.1) after.2.2).map fun later =>
            (after.1.map (i, ·) ++ later.1, later.2)
      | _, _ => none

/-- What is left of the runs of some attempts. -/
def tasks (attempts : List (Attempt W)) (phases : List (Phase W)) : List (Task W Ended) :=
  List.zipWith task attempts phases

theorem getElem?_tasks : (tasks attempts phases)[i]? =
    match attempts[i]?, phases[i]? with
    | some a, some phase => some (a.task phase)
    | _, _ => none := by
  rw [tasks, List.getElem?_zipWith]
  cases attempts[i]? <;> cases phases[i]? <;> rfl

theorem tasks_set (here : attempts[i]? = some a) :
    tasks attempts (phases.set i phase) = (tasks attempts phases).set i (a.task phase) := by
  apply List.ext_getElem?
  intro j
  rw [getElem?_tasks, List.getElem?_set, List.getElem?_set, getElem?_tasks]
  by_cases same : i = j
  · subst same
    have inside : i < attempts.length := (List.getElem?_eq_some_iff.mp here).1
    rw [if_pos rfl, if_pos rfl, here, tasks, List.length_zipWith]
    by_cases there : i < phases.length
    · rw [if_pos there, if_pos (Nat.lt_min.mpr ⟨inside, there⟩)]
    · rw [if_neg there, if_neg fun both => there (Nat.lt_min.mp both).2]
  · rw [if_neg same, if_neg same]

/-- The steps of attempts are those of their tasks, in any order. -/
theorem interleave_tasks : Task.interleave order (tasks attempts phases) w =
    (replay attempts order phases w).map fun after => (tasks attempts after.2.1, after.2.2) := by
  induction order generalizing phases w with
  | nil => rfl
  | cons turn rest ih =>
      obtain ⟨i, came⟩ := turn
      rw [Task.interleave, replay, getElem?_tasks]
      cases here : attempts[i]? with
      | none => rfl
      | some a =>
          cases there : phases[i]? with
          | none => rfl
          | some phase =>
              dsimp only
              rw [step_task]
              cases a.step came phase w with
              | none => rfl
              | some after =>
                  simp only [Option.map_some, Option.bind_some]
                  rw [← tasks_set here, ih, Option.map_map]
                  rfl

/-! ### What a step does to the store -/

/-- The handlers of an attempt leave all records alone, and so does its clock; its store keeps
them. -/
structure Mild (shelf : Shelf W C) (a : Attempt W) : Prop where
  store : shelf.Keeps a.executor.backend.records
  ticking : ∀ w, shelf.Good w → shelf.Same w (a.executor.backend.clock w).2
  handlers : ∀ jobType handler, a.executor.registry.get jobType = .ok handler →
    ∀ context job, (handler.run context job).run.Spares shelf

/-- Whether the handler of an attempt leaves all records alone from this phase on. -/
def Spares (shelf : Shelf W C) : Phase W → Prop
  | .acting _ update next => (Task.act update next).Spares shelf
  | .waiting _ ready limit next => (Task.wait ready limit next).Spares shelf
  | _ => True

/-- What deeds have done to the store. -/
structure Effect (shelf : Shelf W C) (id : String) (deeds : List Deed) (w w' : W) : Prop where
  good : shelf.Good w'
  elsewhere : ∀ other, other ≠ id → shelf.cell w' other = shelf.cell w other
  here : (shelf.cell w' id).isSome = true ↔
    (shelf.cell w id).isSome = true ∧ .remove true ∉ deeds
  /-- Only a stored record can be changed. -/
  stored : ∀ deed ∈ deeds, deed.isChange = true → (shelf.cell w id).isSome = true
  removal : .remove true ∈ deeds → deeds = [.remove true]

theorem spares_handling {now : Instant} {t : Task W (Except (Fault JobError) Unit)}
    (spares : t.Spares shelf) : Spares shelf (handling now t).2 := by
  cases t with
  | act update next => exact spares
  | wait ready limit next => exact spares
  | done result =>
      rw [handling, afterHandler]
      split <;> trivial

theorem handling_deeds {now : Instant} {t : Task W (Except (Fault JobError) Unit)} :
    ∀ deed ∈ (handling now t).1, deed.isChange = false ∧ deed ≠ .remove true := by
  cases t <;> simp [handling, Deed.isChange]

/-- Where nothing has changed, no deed has changed anything. -/
theorem Effect.of_same (good : shelf.Good w) (same : shelf.Same w w')
    (unchanging : ∀ deed ∈ deeds, deed.isChange = false ∧ deed ≠ .remove true) :
    Effect shelf id deeds w w' where
  good := same.good good
  elsewhere := fun other _ => same.cell other
  here := by
    rw [same.cell]
    exact (and_iff_left fun removed => (unchanging _ removed).2 rfl).symm
  stored := fun deed done change => by simp [(unchanging deed done).1] at change
  removal := fun removed => absurd rfl (unchanging _ removed).2

/-- A save that comes off finds a record and leaves one. -/
theorem Effect.of_saved {written : C → C} (good : shelf.Good w)
    (outcome : shelf.Outcome id (fun c => some (written c)) w (.ok (), w'))
    (kept : .remove true ∉ deeds) : Effect shelf id deeds w w' := by
  cases outcome with
  | done there here elsewhere =>
      exact {
        good := elsewhere.good good
        elsewhere := elsewhere.cell
        here := by simp [there, here, kept]
        stored := fun _ _ _ => by simp [there]
        removal := fun removed => absurd removed kept }

theorem Effect.of_removed (good : shelf.Good w)
    (outcome : shelf.Outcome id (fun _ => none) w (.ok (), w')) :
    Effect shelf id [.remove true] w w' := by
  cases outcome with
  | done there here elsewhere =>
      exact {
        good := elsewhere.good good
        elsewhere := elsewhere.cell
        here := by simp [here]
        stored := fun _ _ _ => by simp [there]
        removal := fun _ => rfl }

/-- A call that fails has done nothing. -/
theorem Effect.of_failed {change : C → Option C} {fault : Fault StoreError} {deed : Deed}
    (good : shelf.Good w) (outcome : shelf.Outcome id change w (.error fault, w'))
    (unchanging : deed.isChange = false) (other : deed ≠ .remove true) :
    Effect shelf id [deed] w w' := by
  cases outcome with
  | failed same => exact .of_same good same (by simp [unchanging, other])

/-- A step of an attempt does to the store what its deeds tell. -/
theorem step_store (mild : a.Mild shelf) (spares : Spares shelf phase) (good : shelf.Good w)
    (happens : a.step came phase w = some (deeds, phase', w')) :
    Spares shelf phase' ∧ Effect shelf a.record.id deeds w w' := by
  cases phase with
  | finished => simp [step] at happens
  | fresh =>
      simp only [step, Option.some.injEq, Prod.mk.injEq] at happens
      obtain ⟨rfl, rfl, rfl⟩ := happens
      refine ⟨by split <;> trivial, .of_same good (mild.ticking w good) (by simp)⟩
  | claiming now =>
      have outcome := mild.store.save (a.claimed now) w good
      simp only [step] at happens
      split at happens
      next w₁ saved =>
        cases happens
        rw [saved] at outcome
        refine ⟨?_, .of_saved good outcome ?_⟩
        · unfold afterClaim
          split
          · trivial
          next handler job found =>
            exact spares_handling (mild.handlers _ _ (Executor.of_handlerFor found).2 _ _)
        · unfold afterClaim
          split
          · simp
          · simpa using fun removed => (handling_deeds _ removed).2 rfl
      next e w₁ saved =>
        cases happens
        rw [saved] at outcome
        exact ⟨trivial, .of_failed good outcome rfl (by simp)⟩
      next c w₁ saved =>
        cases happens
        rw [saved] at outcome
        exact ⟨trivial, .of_failed good outcome rfl (by simp)⟩
  | acting now update next =>
      cases happens
      obtain ⟨same, later⟩ := spares w good
      exact ⟨spares_handling later, .of_same good same handling_deeds⟩
  | waiting now ready limit next =>
      cases happens
      exact ⟨spares_handling (spares came), .of_same good .refl handling_deeds⟩
  | removing now =>
      have outcome := mild.store.delete (a.claimed now) w good
      simp only [step] at happens
      split at happens
      next w₁ removed =>
        cases happens
        rw [removed] at outcome
        exact ⟨trivial, .of_removed good outcome⟩
      next e w₁ removed =>
        cases happens
        rw [removed] at outcome
        exact ⟨trivial, .of_failed good outcome rfl (by simp)⟩
      next c w₁ removed =>
        cases happens
        rw [removed] at outcome
        exact ⟨trivial, .of_failed good outcome rfl (by simp)⟩
  | stamping now cause =>
      simp only [step, Option.some.injEq, Prod.mk.injEq] at happens
      obtain ⟨rfl, rfl, rfl⟩ := happens
      refine ⟨?_, .of_same good (mild.ticking w good) (by simp)⟩
      split <;> trivial
  | releasing now later cause =>
      have outcome := mild.store.save ((a.claimed now).markFailed later) w good
      simp only [step] at happens
      split at happens
      next w₁ saved =>
        cases happens
        rw [saved] at outcome
        exact ⟨trivial, .of_saved good outcome (by simp)⟩
      next e w₁ saved =>
        cases happens
        rw [saved] at outcome
        exact ⟨trivial, .of_failed good outcome rfl (by simp)⟩
      next c w₁ saved =>
        cases happens
        rw [saved] at outcome
        exact ⟨trivial, .of_failed good outcome rfl (by simp)⟩

/-! ### The history of a record -/

/-- The deeds of one attempt. -/
def deedsOf (i : Nat) (log : List (Nat × Deed)) : List Deed :=
  log.filterMap fun entry => if entry.1 = i then some entry.2 else none

/-- Whether the attempt with a number is one at the record of an id. -/
def IsAt (attempts : List (Attempt W)) (id : String) (i : Nat) : Prop :=
  ∃ a, attempts[i]? = some a ∧ a.record.id = id

/-- What has become of a record that was stored. -/
inductive Fortune (attempts : List (Attempt W)) (id : String) (log : List (Nat × Deed))
    (stored : Prop) : Prop where
  /-- It is still stored, and nobody has deleted it. -/
  | kept (here : stored) (none : ∀ i, IsAt attempts id i → (i, .remove true) ∉ log)
  /-- An attempt has deleted it, the first to do so, and nobody has changed it since. -/
  | removed (gone : ¬ stored) {i : Nat} {before after : List (Nat × Deed)}
      (split : log = before ++ (i, .remove true) :: after) (own : IsAt attempts id i)
      (first : ∀ j, IsAt attempts id j → (j, .remove true) ∉ before)
      (still : ∀ j deed, (j, deed) ∈ after → IsAt attempts id j → deed.isChange = false)

/-- What some deeds tell about attempts and store. -/
structure History (attempts : List (Attempt W)) (shelf : Shelf W C) (id : String)
    (log : List (Nat × Deed)) (phases : List (Phase W)) (w : W) : Prop where
  length : phases.length = attempts.length
  good : shelf.Good w
  spares : ∀ phase ∈ phases, Spares shelf phase
  told : ∀ i phase, phases[i]? = some phase → Told phase (deedsOf i log)
  fortune : Fortune attempts id log ((shelf.cell w id).isSome = true)

theorem deedsOf_append : deedsOf i (log ++ log') = deedsOf i log ++ deedsOf i log' :=
  List.filterMap_append

theorem deedsOf_own : deedsOf i (deeds.map (i, ·)) = deeds := by
  simp [deedsOf, List.filterMap_map]

theorem deedsOf_other {j : Nat} (differs : j ≠ i) : deedsOf i (deeds.map (j, ·)) = [] := by
  simp [deedsOf, List.filterMap_map, differs]

theorem mem_deedsOf {deed : Deed} : deed ∈ deedsOf i log ↔ (i, deed) ∈ log := by
  rw [deedsOf, List.mem_filterMap]
  constructor
  · rintro ⟨⟨j, deed'⟩, member, own⟩
    split at own
    next same =>
      cases own
      exact same ▸ member
    next => cases own
  · exact fun member => ⟨_, member, by simp⟩

/-- A step decides about the record of its attempt, and about no other. -/
theorem Fortune.step (fortune : Fortune attempts id log ((shelf.cell w id).isSome = true))
    (here : attempts[i]? = some a) (effect : Effect shelf a.record.id deeds w w') :
    Fortune attempts id (log ++ deeds.map (i, ·)) ((shelf.cell w' id).isSome = true) := by
  by_cases own : a.record.id = id
  · subst own
    have mine : IsAt attempts a.record.id i := ⟨a, here, rfl⟩
    cases fortune with
    | kept stored none =>
        by_cases removes : .remove true ∈ deeds
        · have split : log ++ deeds.map (i, ·) = log ++ (i, .remove true) :: [] := by
            rw [effect.removal removes]
            rfl
          exact .removed (fun still => (effect.here.mp still).2 removes) split mine none (by simp)
        · refine .kept (effect.here.mpr ⟨stored, removes⟩) fun j own member => ?_
          rcases List.mem_append.mp member with old | new
          · exact none j own old
          · obtain ⟨deed, there, same⟩ := List.mem_map.mp new
            cases same
            exact removes there
    | removed gone split own first still =>
        refine .removed (fun stored => gone (effect.here.mp stored).1)
          (split ▸ List.append_assoc _ _ _) own first fun j deed member own => ?_
        rcases List.mem_append.mp member with old | new
        · exact still j deed old own
        · obtain ⟨deed', there, same⟩ := List.mem_map.mp new
          cases same
          cases change : deed.isChange with
          | false => rfl
          | true => exact absurd (effect.stored deed there change) gone
  · have notMine : ¬ IsAt attempts id i := by
      rintro ⟨a', here', own'⟩
      rw [here, Option.some.injEq] at here'
      exact own (here' ▸ own')
    have others : ∀ j deed, (j, deed) ∈ deeds.map (i, ·) → ¬ IsAt attempts id j := by
      intro j deed member
      obtain ⟨_, _, same⟩ := List.mem_map.mp member
      cases same
      exact notMine
    rw [effect.elsewhere id fun same => own same.symm]
    cases fortune with
    | kept stored none =>
        refine .kept stored fun j own member => ?_
        rcases List.mem_append.mp member with old | new
        · exact none j own old
        · exact others j _ new own
    | removed gone split own first still =>
        refine .removed gone (split ▸ List.append_assoc _ _ _) own first
          fun j deed member own => ?_
        rcases List.mem_append.mp member with old | new
        · exact still j deed old own
        · exact absurd own (others j deed new)

/-- A step adds its deeds to the history. -/
theorem History.step (history : History attempts shelf id log phases w) (mild : a.Mild shelf)
    (here : attempts[i]? = some a) (there : phases[i]? = some phase)
    (happens : a.step came phase w = some (deeds, phase', w')) :
    History attempts shelf id (log ++ deeds.map (i, ·)) (phases.set i phase') w' := by
  obtain ⟨later, effect⟩ := step_store mild (history.spares _ (List.mem_of_getElem? there))
    history.good happens
  refine ⟨(List.length_set).trans history.length, effect.good, fun other member => ?_,
    fun j other at? => ?_, history.fortune.step here effect⟩
  · rcases List.mem_or_eq_of_mem_set member with old | rfl
    · exact history.spares other old
    · exact later
  · rw [List.getElem?_set] at at?
    rw [deedsOf_append]
    split at at?
    next same =>
      subst same
      split at at?
      · cases at?
        rw [deedsOf_own]
        exact (history.told i phase there).step happens
      · cases at?
    next differs =>
      rw [deedsOf_other differs, List.append_nil]
      exact history.told j other at?

/-- Steps in any order add their deeds to the history. -/
theorem History.replay {more : List (Nat × Deed)}
    (history : History attempts shelf id log phases w) (mild : ∀ a ∈ attempts, a.Mild shelf)
    (run : Attempt.replay attempts order phases w = some (more, phases', w')) :
    History attempts shelf id (log ++ more) phases' w' := by
  induction order generalizing log phases w more with
  | nil =>
      cases run
      rwa [List.append_nil]
  | cons turn rest ih =>
      obtain ⟨i, came⟩ := turn
      rw [Attempt.replay] at run
      split at run
      next a phase here there =>
        obtain ⟨⟨deeds, phase₁, w₁⟩, happens, run⟩ := Option.bind_eq_some_iff.mp run
        obtain ⟨⟨later, phases₂, w₂⟩, rest, same⟩ := Option.map_eq_some_iff.mp run
        cases same
        rw [← List.append_assoc]
        exact ih (history.step (mild a (List.mem_of_getElem? here)) here there happens) rest
      next => cases run

theorem tasks_start : tasks attempts (attempts.map start) =
    attempts.map fun a => a.executor.run a.worker a.record := by
  rw [tasks, List.zipWith_map_right, List.zipWith_self]
  exact List.map_congr_left fun a _ => task_start

/-- At the beginning nothing has been done. -/
theorem history_start (good : shelf.Good w) (stored : (shelf.cell w id).isSome = true) :
    History attempts shelf id [] (attempts.map start) w where
  length := List.length_map _
  good := good
  spares := by
    intro phase member
    obtain ⟨a, _, rfl⟩ := List.mem_map.mp member
    rw [start]
    split <;> trivial
  told := by
    intro i phase here
    rw [List.getElem?_map] at here
    obtain ⟨a, _, rfl⟩ := Option.map_eq_some_iff.mp here
    exact told_start
  fortune := .kept stored fun _ _ => by simp

/-- What has become of a record that was stored, and how the runs at it have ended. -/
inductive Settled (attempts : List (Attempt W)) (id : String) (log : List (Nat × Deed))
    (tasks : List (Task W Ended)) (stored : Prop) : Prop where
  /-- It is still stored, nobody has deleted it, and no run has ended with success. -/
  | kept (here : stored) (unremoved : ∀ i, IsAt attempts id i → (i, .remove true) ∉ log)
      (unended : ∀ i ended, IsAt attempts id i → tasks[i]? = some (.done ended) →
        ended.result ≠ .ok ())
  /-- One run has deleted it, once its claim had been saved and its own handler had succeeded.
  This run alone has ended with success, and no save or delete of the record has come off since. -/
  | completed (gone : ¬ stored) {i : Nat} {before after : List (Nat × Deed)} {ended : Ended}
      (split : log = before ++ (i, .remove true) :: after) (own : IsAt attempts id i)
      (course : deedsOf i before = [.claim true, .handle (.ok ())])
      (done : tasks[i]? = some (.done ended)) (success : ended.result = .ok ())
      (only : ∀ j ended, IsAt attempts id j → tasks[j]? = some (.done ended) →
        ended.result = .ok () → j = i)
      (still : ∀ j deed, (j, deed) ∈ after → IsAt attempts id j → deed.isChange = false)

/-- A history settles what has become of the record. -/
theorem History.settled (history : History attempts shelf id log phases w) :
    Settled attempts id log (tasks attempts phases) ((shelf.cell w id).isSome = true) := by
  have phaseOf : ∀ {j : Nat} {ended : Ended}, (tasks attempts phases)[j]? = some (.done ended) →
      phases[j]? = some (.finished ended) := by
    intro j ended done
    rw [getElem?_tasks] at done
    split at done
    next b phase _ there => rw [there, finished_of_task_done (Option.some.inj done)]
    next => cases done
  -- Who has ended with success has deleted the record.
  have removes : ∀ {j : Nat} {ended : Ended}, (tasks attempts phases)[j]? = some (.done ended) →
      ended.result = .ok () → (j, .remove true) ∈ log := by
    intro j ended done success
    rcases history.told j _ (phaseOf done) with ⟨_, deeds⟩ | ⟨failed, _⟩
    · exact mem_deedsOf.mp (deeds ▸ by simp)
    · exact absurd success failed
  cases history.fortune with
  | kept stored none =>
      exact .kept stored none fun j ended own done success => none j own (removes done success)
  | @removed gone i before after split own first still =>
      obtain ⟨a, here, same⟩ := own
      have inside : i < phases.length := history.length ▸ (List.getElem?_eq_some_iff.mp here).1
      have there := List.getElem?_eq_getElem inside
      have deeds : deedsOf i log = deedsOf i before ++ .remove true :: deedsOf i after := by
        rw [split, deedsOf_append]
        simp [deedsOf]
      have removed : .remove true ∈ deedsOf i log := by simp [deeds]
      have told := history.told i _ there
      obtain ⟨ended, finished, success, all⟩ : ∃ ended, phases[i] = .finished ended ∧
          ended.result = .ok () ∧
          deedsOf i log = [.claim true, .handle (.ok ()), .remove true] := by
        cases phase : phases[i] with
        | finished ended =>
            rw [phase] at told
            rcases told with ⟨success, all⟩ | ⟨_, none⟩
            · exact ⟨ended, rfl, success, all⟩
            · exact absurd removed none
        | fresh | claiming | acting | waiting | removing =>
            rw [phase, Told] at told
            simp [told] at removed
        | stamping | releasing =>
            rw [phase, Told] at told
            exact absurd removed (told true)
      refine .completed gone split ⟨a, here, same⟩ ?_ ?_ success
        (fun j ended own done success => ?_) still
      · have whole : deedsOf i before ++ .remove true :: deedsOf i after =
            [.claim true, .handle (.ok ())] ++ .remove true :: [] := deeds.symm.trans all
        have notBefore : .remove true ∉ deedsOf i before := fun member =>
          first i ⟨a, here, same⟩ (mem_deedsOf.mp member)
        have notAfter : .remove true ∉ deedsOf i after := fun member => by
          simpa [Deed.isChange] using still i _ (mem_deedsOf.mp member) ⟨a, here, same⟩
        exact ((List.append_cons_inj_of_notMem notBefore notAfter).mp whole).1
      · rw [getElem?_tasks, here, there, finished]
        rfl
      · by_cases other : j = i
        · exact other
        · have member := removes done success
          rw [split, List.mem_append, List.mem_cons] at member
          rcases member with old | mine | new
          · exact absurd old (first j own)
          · exact absurd (congrArg Prod.fst mine) other
          · exact absurd (still j _ new own) (by simp [Deed.isChange])

/-- Of a record that is stored nothing is lost, and it is completed once at most. Let any number of
runs at any copies of records take their steps in any order, on stores in memory or in a database
any call of which may fail, with handlers that leave the records alone. Then the deeds of the runs
settle what has become of the record (`Settled`): it is still there, or one run has deleted it
whose claim had been saved and whose handler had succeeded, that run alone has ended with success,
and nothing has been saved or deleted under its id since, nor can it be. -/
theorem completed_once {after : List (Task W Ended)}
    (stores : ∀ a ∈ attempts, Backing shelf a.executor.backend.records)
    (clocks : ∀ a ∈ attempts, ∀ w, shelf.Good w → shelf.Same w (a.executor.backend.clock w).2)
    (handlers : ∀ a ∈ attempts, ∀ jobType handler,
      a.executor.registry.get jobType = .ok handler →
        ∀ context job, (handler.run context job).run.Spares shelf)
    (good : shelf.Good w) (created : (shelf.cell w id).isSome = true)
    (interleaved : Task.interleave order
      (attempts.map fun a => a.executor.run a.worker a.record) w = some (after, w')) :
    (∃ log phases, replay attempts order (attempts.map start) w = some (log, phases, w') ∧
      after = tasks attempts phases ∧
      Settled attempts id log after ((shelf.cell w' id).isSome = true)) ∧
    (shelf.cell w' id = none → ∀ records r, Backing shelf records → r.id = id →
      (records.save r w').1 ≠ .ok () ∧ (records.delete r w').1 ≠ .ok ()) := by
  rw [← tasks_start, interleave_tasks] at interleaved
  obtain ⟨⟨log, phases, w₁⟩, run, same⟩ := Option.map_eq_some_iff.mp interleaved
  cases same
  have mild : ∀ a ∈ attempts, a.Mild shelf := fun a member =>
    ⟨(stores a member).keeps, clocks a member, handlers a member⟩
  have history := (history_start good created).replay mild run
  rw [List.nil_append] at history
  refine ⟨⟨log, phases, run, rfl, history.settled⟩, ?_⟩
  intro gone records r backing same
  subst same
  have keeps := backing.keeps
  exact ⟨(keeps.save r w₁ history.good).refused gone,
    (keeps.delete r w₁ history.good).refused gone⟩

open Simulation in
/-- A worker and a caller at one easy job. -/
def racers : List (Attempt World) :=
  [⟨easyExecutor, some 0, easyJob "a"⟩, ⟨easyExecutor, none, easyJob "a"⟩]

/-- An order of steps in which the two take turns. -/
def turns : List (Nat × Bool) := (List.replicate 4 [(0, false), (1, false)]).flatten

open Simulation in
/-- When two runs at one job take their steps in turns, both save their claims and do the job, and
the first that deletes the record is the one that has completed it. -/
theorem completed_once_race : ∃ (first second : Ended) (w : World) (log : List (Nat × Deed)),
    Task.interleave turns (racers.map fun a => a.executor.run a.worker a.record)
      (World.still [easyJob "a"]) = some ([.done first, .done second], w) ∧
    first.result = .ok () ∧ second.result = .error (.error (.completion "a" (.notFound "a"))) ∧
    Settled racers "a" log [.done first, .done second] ((World.shelf.cell w "a").isSome = true) ∧
    ∀ r, r.id = "a" →
      (World.records.save r w).1 ≠ .ok () ∧ (World.records.delete r w).1 ≠ .ok () := by
  have own : ∀ a ∈ racers, a.executor = easyExecutor := by
    intro a member
    rcases List.mem_cons.mp member with rfl | member
    · rfl
    · cases List.mem_singleton.mp member
      rfl
  have backing : Backing World.shelf World.records :=
    .memory World.storePart_lawful World.unreliable
  obtain ⟨first, second, w, race, success, failure, gone⟩ : ∃ (first second : Ended) (w : World),
      Task.interleave turns (racers.map fun a => a.executor.run a.worker a.record)
        (World.still [easyJob "a"]) = some ([.done first, .done second], w) ∧
      first.result = .ok () ∧ second.result = .error (.error (.completion "a" (.notFound "a"))) ∧
      World.shelf.cell w "a" = none := ⟨_, _, _, rfl, rfl, rfl, rfl⟩
  have stored : (World.shelf.cell (World.still [easyJob "a"]) "a").isSome = true := rfl
  obtain ⟨⟨log, _, _, _, settled⟩, last⟩ := completed_once
    (fun a member => own a member ▸ backing)
    (fun a member w _ => own a member ▸ ⟨fun good => good, fun _ => rfl⟩)
    (fun a member => own a member ▸ easyExecutor_spares) trivial stored race
  exact ⟨first, second, w, log, race, success, failure, settled,
    fun r => last gone World.records r backing⟩

end Attempt

end JobQueue
