/-
Leases among many attempts.

Any number of contenders make one attempt each at the record of one id. A claim is a single turn:
the record is read afresh, and if no lease holds it at the time that the clock shows, it is saved
with a lease (`Contest.turn`). Every later step of an attempt is a turn of its own, so it ends with
its delete, or with the save of its copy as failed, at any time.

A lease that lives keeps all others from claiming the record, as long as nobody writes its own copy
over it (`lease_exclusion`). Those who have outlived their leases may do so: a release empties
whatever lease is stored (`lease_emptied`).
-/

import JobQueue.Proofs.Job.Crowd
import JobQueue.Proofs.Simulation.Scripts
import JobQueue.Proofs.Store.Leases
import JobQueue.Proofs.Time.Lease

namespace JobQueue

variable {W C : Type} {shelf : Shelf W C} {text : C → String} {id : String} {window : Span}
  {w w' : W} {now since : Instant}

/-- The time of its claim, while an attempt in a phase holds its record. -/
def Phase.since? : Phase W → Option Instant
  | .acting now _ _ | .waiting now _ _ _ | .removing now | .stamping now _ | .releasing now _ _ =>
      some now
  | .fresh | .claiming _ | .finished _ => none

namespace Attempt

variable {a : Attempt W} {phase phase' : Phase W} {deeds : List Deed} {came : Bool}

/-- Up to some number of steps of an attempt, with nobody else at work. -/
def advance (a : Attempt W) : Nat → Phase W → W → List Deed × Phase W × W
  | 0, phase, w => ([], phase, w)
  | steps + 1, phase, w =>
      match a.step false phase w with
      | none => ([], phase, w)
      | some (deeds, phase, w) =>
          let (more, phase, w) := a.advance steps phase w
          (deeds ++ more, phase, w)

theorem advance_two {phase₁ phase₂ : Phase W} {deeds₁ deeds₂ : List Deed} {w₁ w₂ : W}
    (first : a.step false phase w = some (deeds₁, phase₁, w₁))
    (second : a.step false phase₁ w₁ = some (deeds₂, phase₂, w₂)) :
    a.advance 2 phase w = (deeds₁ ++ deeds₂, phase₂, w₂) := by
  simp only [advance, first, second, List.append_nil]

theorem advance_finished {ended : Ended} {w₁ : W}
    (first : a.step false phase w = some (deeds, .finished ended, w₁)) :
    a.advance 2 phase w = (deeds, .finished ended, w₁) := by
  have stopped : a.step false (.finished ended) w₁ = none := rfl
  simp only [advance, first, stopped, List.append_nil]

/-- The time that an attempt reads first, if it reads any. -/
def readings (a : Attempt W) (w : W) : List Instant :=
  match Executor.check a.record with
  | some _ => []
  | none => [(a.executor.backend.clock w).1]

/-! ### What an attempt does to the lease -/

/-- The store of an attempt shows its leases, its clock and its handlers leave all records alone,
and its window is the one given. -/
structure Fair (shelf : Shelf W C) (text : C → String) (window : Span) (x : Executor W) : Prop where
  store : shelf.Shows text x.backend.records
  ticking : ∀ w, shelf.Good w → shelf.Same w (x.backend.clock w).2
  handlers : ∀ jobType handler, x.registry.get jobType = .ok handler →
    ∀ context job, (handler.run context job).run.Spares shelf
  window : x.lease = window

theorem Fair.mild (fair : Fair shelf text window a.executor) : a.Mild shelf :=
  ⟨fair.store.toKeeps, fair.ticking, fair.handlers⟩

theorem since?_handling {t : Task W (Except (Fault JobError) Unit)} :
    (handling now t).2.since? = some now := by
  cases t with
  | act update next => rfl
  | wait ready limit next => rfl
  | done result =>
      rw [handling, afterHandler]
      split <;> rfl

theorem since?_afterClaim : (a.afterClaim now).2.since? = some now := by
  unfold afterClaim
  split
  · rfl
  · exact since?_handling

theorem claim_notMem_handling {t : Task W (Except (Fault JobError) Unit)} :
    .claim true ∉ (handling now t).1 := by
  intro claimed
  exact absurd (handling_deeds _ claimed).1 (by simp [Deed.isChange])

theorem claim_notMem_afterClaim : .claim true ∉ (a.afterClaim now).1 := by
  unfold afterClaim
  split
  · simp
  · exact claim_notMem_handling

/-- What a step of an attempt that holds its record does to the lease that is stored. -/
inductive Touches (shelf : Shelf W C) (text : C → String) (id : String) (since : Instant)
    (w w' : W) : List Deed → Phase W → Prop where
  /-- It leaves the lease as it is. -/
  | spared {deeds : List Deed} {phase : Phase W}
      (same : shelf.lease text w' id = shelf.lease text w id) (unclaimed : .claim true ∉ deeds)
      (onward : phase.since? = some since ∨ ∃ ended, phase = .finished ended) :
      Touches shelf text id since w w' deeds phase
  /-- It deletes the record. -/
  | removed {deeds : List Deed} {ended : Ended} (gone : shelf.lease text w' id = none)
      (unclaimed : .claim true ∉ deeds) : Touches shelf text id since w w' deeds (.finished ended)
  /-- It releases the record. -/
  | released {ended : Ended} (there : shelf.lease text w id ≠ none) :
      Touches shelf text id since w w' [.release true] (.finished ended)

theorem Fair.step (fair : Fair shelf text window a.executor) (spares : Spares shelf phase)
    (good : shelf.Good w) (own : a.record.id = id) (holding : phase.since? = some since)
    (happens : a.step came phase w = some (deeds, phase', w')) :
    Spares shelf phase' ∧ shelf.Good w' ∧ Touches shelf text id since w w' deeds phase' := by
  obtain ⟨spares', effect⟩ := step_store fair.mild spares good happens
  refine ⟨spares', effect.good, ?_⟩
  cases phase with
  | fresh | claiming | finished => cases holding
  | acting now update next =>
      cases holding
      cases happens
      exact .spared (spares w good).1.lease claim_notMem_handling (.inl since?_handling)
  | waiting now ready limit next =>
      cases holding
      cases happens
      exact .spared rfl claim_notMem_handling (.inl since?_handling)
  | stamping now cause =>
      cases holding
      simp only [Attempt.step, Option.some.injEq, Prod.mk.injEq] at happens
      obtain ⟨rfl, rfl, rfl⟩ := happens
      refine .spared (fair.ticking w good).lease (by simp) ?_
      split
      · exact .inr ⟨_, rfl⟩
      · exact .inl rfl
  | removing now =>
      have deleted := (fair.store.deleted (r := a.claimed now) good).2
      have same : (a.claimed now).id = id := own
      rw [same] at deleted
      simp only [Attempt.step] at happens
      split at happens <;> cases happens
      all_goals
        next answered =>
          rw [answered] at deleted
          rcases deleted with gone | kept
          · exact .removed gone (by simp)
          · exact .spared kept (by simp) (.inr ⟨_, rfl⟩)
  | releasing now later cause =>
      have same : ((a.claimed now).markFailed later).id = id := own
      simp only [Attempt.step] at happens
      split at happens <;> cases happens
      next saved =>
        obtain ⟨_, there, _⟩ := fair.store.saved good saved
        exact .released (same ▸ there)
      next failed =>
        exact .spared (fair.store.unsaved good failed).lease (by simp) (.inr ⟨_, rfl⟩)
      next failed =>
        exact .spared (fair.store.unsaved good failed).lease (by simp) (.inr ⟨_, rfl⟩)

/-- What comes of the first steps of an attempt: its record is left as it is, or it was free at the
time read, and has been claimed at that time. -/
inductive Claims (shelf : Shelf W C) (text : C → String) (id : String) (window : Span)
    (a : Attempt W) (w w' : W) : List Deed → Phase W → Prop where
  | left {deeds : List Deed} {ended : Ended}
      (same : shelf.lease text w' id = shelf.lease text w id) (unclaimed : .claim true ∉ deeds) :
      Claims shelf text id window a w w' deeds (.finished ended)
  | claimed {now : Instant} {deeds : List Deed} {phase : Phase W} (reading : a.readings w = [now])
      (free : a.record.isReserved window now = false) (there : shelf.lease text w id ≠ none)
      (written : shelf.lease text w' id = some now.leaseText)
      (unclaimed : .claim true ∉ deeds) (holding : phase.since? = some now) :
      Claims shelf text id window a w w' (.claim true :: deeds) phase

theorem spares_afterClaim (mild : a.Mild shelf) : Spares shelf (a.afterClaim now).2 := by
  unfold afterClaim
  split
  · trivial
  next handler job found =>
    exact spares_handling (mild.handlers _ _ (Executor.of_handlerFor found).2 _ _)

theorem Fair.claim (fair : Fair shelf text window a.executor) (good : shelf.Good w)
    (own : a.record.id = id) : ∃ deeds phase w', a.advance 2 a.start w = (deeds, phase, w') ∧
      Spares shelf phase ∧ shelf.Good w' ∧ Claims shelf text id window a w w' deeds phase := by
  cases checked : Executor.check a.record with
  | some e =>
      have begun : a.start = .finished ⟨a.record, .error (.error e)⟩ := by rw [start, checked]
      rw [begun]
      exact ⟨[], _, w, rfl, trivial, good, .left rfl (by simp)⟩
  | none =>
      have begun : a.start = .fresh := by rw [start, checked]
      have same := fair.ticking w good
      rw [begun]
      rcases reading : a.executor.backend.clock w with ⟨now, w₁⟩
      rw [reading] at same
      have good₁ := same.good good
      have read : a.readings w = [now] := by rw [readings, checked, reading]
      cases free : a.record.isReserved a.executor.lease now with
      | true =>
          have refused : a.step false .fresh w = some ([], .finished
              ⟨a.record, .error (.error (.alreadyReserved a.record.id))⟩, w₁) := by
            simp only [Attempt.step, reading, free, if_true]
          exact ⟨_, _, _, advance_finished refused, trivial, good₁, .left same.lease (by simp)⟩
      | false =>
          have first : a.step false .fresh w = some ([], .claiming now, w₁) := by
            simp only [Attempt.step, reading, free, Bool.false_eq_true, if_false]
          rcases saved : a.executor.backend.records.save (a.claimed now) w₁ with ⟨fault | _, w₂⟩
          · have kept := fair.store.unsaved good₁ saved
            obtain ⟨ended, failed⟩ : ∃ ended, a.step false (.claiming now) w₁ =
                some ([.claim false], .finished ended, w₂) := by
              cases fault <;> exact ⟨_, by rw [Attempt.step, saved]⟩
            exact ⟨_, _, _, advance_two first failed, trivial, kept.good good₁,
              .left (kept.lease.trans same.lease) (by simp)⟩
          · obtain ⟨good₂, there, written⟩ := fair.store.saved good₁ saved
            have own' : (a.claimed now).id = id := own
            rw [own', same.lease] at there
            rw [own'] at written
            have second : a.step false (.claiming now) w₁ =
                some (.claim true :: (a.afterClaim now).1, (a.afterClaim now).2, w₂) := by
              simp only [Attempt.step, saved]
            exact ⟨_, _, _, advance_two first second, spares_afterClaim fair.mild, good₂,
              .claimed read (fair.window ▸ free) there written claim_notMem_afterClaim
                since?_afterClaim⟩

end Attempt

/-! ### Turns -/

/-- Somebody who makes attempts: what runs need, and the worker that makes them. -/
structure Contender (W : Type) where
  executor : Executor W
  worker : Option Nat

/-- Contenders at one record. -/
structure Contest (W : Type) where
  world : W
  /-- The attempt of each contender and its phase, once it has begun. -/
  places : List (Option (Attempt W × Phase W))
  /-- What the attempts have done. -/
  log : List (Nat × Deed)
  /-- The times at which they have tried to claim. -/
  readings : List Instant

namespace Contest

/-- What happens next. -/
inductive Turn where
  /-- A contender reads the record, and claims it if it is free. -/
  | claim (i : Nat)
  /-- An attempt that has begun takes a step; `came` says whether what it waits for has come. -/
  | go (i : Nat) (came : Bool)

variable {contenders : List (Contender W)} {s s' : Contest W} {i j k : Nat} {a b : Attempt W}

/-- Nobody has begun. -/
def start (contenders : List (Contender W)) (w : W) : Contest W :=
  ⟨w, contenders.map fun _ => none, [], []⟩

/-- The contest after an attempt has done something and has come to a phase. -/
def after (s : Contest W) (i : Nat) (a : Attempt W) (deeds : List Deed) (phase : Phase W) (w : W)
    (readings : List Instant) : Contest W where
  world := w
  places := s.places.set i (some (a, phase))
  log := s.log ++ deeds.map (i, ·)
  readings := s.readings ++ readings

/-- The contest after a turn. A look-up that finds no record, or fails, leaves a contender where it
was. -/
def turn (contenders : List (Contender W)) (id : String) : Turn → Contest W → Option (Contest W)
  | .claim i, s =>
      match contenders[i]?, s.places[i]? with
      | some c, some none =>
          match c.executor.backend.records.find id s.world with
          | (.ok (some r), w) =>
              let a : Attempt W := ⟨c.executor, c.worker, r⟩
              let (deeds, phase, w') := a.advance 2 a.start w
              some (s.after i a deeds phase w' (a.readings w))
          | (_, w) => some { s with world := w }
      | _, _ => none
  | .go i came, s =>
      match s.places[i]? with
      | some (some (a, phase)) =>
          (a.step came phase s.world).map fun (deeds, phase, w) => s.after i a deeds phase w []
      | _ => none

/-- The contest after some turns. -/
def play (contenders : List (Contender W)) (id : String) :
    List Turn → Contest W → Option (Contest W)
  | [], s => some s
  | t :: rest, s => (turn contenders id t s).bind (play contenders id rest)

/-- A contender's attempt holds the record by a claim of some time: it has claimed it and has not
ended. -/
def Holds (s : Contest W) (i : Nat) (a : Attempt W) (since : Instant) : Prop :=
  ∃ phase, s.places[i]? = some (some (a, phase)) ∧ phase.since? = some since

/-- Since a contender's claim, another that had claimed before it has saved its copy as failed. -/
def Overwritten (log : List (Nat × Deed)) (i : Nat) : Prop :=
  ∃ before after k, log = before ++ (i, .claim true) :: after ∧ k ≠ i ∧
    (k, .claim true) ∈ before ∧ (k, .release true) ∈ after

/-- How the lease of a claim stands. -/
inductive Standing (window : Span) (log : List (Nat × Deed)) (readings : List Instant)
    (stored : Option String) (i : Nat) (since : Instant) : Prop where
  /-- Somebody has emptied it. -/
  | overwritten (saved : Overwritten log i)
  /-- It no longer lived at a time that has been read. -/
  | lapsed {now : Instant} (read : now ∈ readings)
      (dead : leaseLives since.leaseText window now = false)
  /-- The record has been deleted. -/
  | gone (empty : stored = none)
  /-- It is stored, and nobody has claimed the record since. -/
  | held (same : stored = some since.leaseText) {before after : List (Nat × Deed)}
      (split : log = before ++ (i, .claim true) :: after)
      (last : ∀ k, (k, .claim true) ∉ after)

/-- What turns keep. -/
structure Sound (shelf : Shelf W C) (text : C → String) (window : Span) (id : String)
    (s : Contest W) : Prop where
  good : shelf.Good s.world
  own : ∀ (i : Nat) (a : Attempt W) (phase : Phase W), s.places[i]? = some (some (a, phase)) →
    a.record.id = id ∧ Attempt.Fair shelf text window a.executor ∧ Attempt.Spares shelf phase ∧
      ((∃ since, phase.since? = some since) ∨ ∃ ended, phase = .finished ended)
  told : ∀ (i : Nat) (a : Attempt W) (since : Instant), s.Holds i a since →
    (i, .claim true) ∈ s.log ∧ since ∈ s.readings
  standing : ∀ (i : Nat) (a : Attempt W) (since : Instant), s.Holds i a since →
    Standing window s.log s.readings (shelf.lease text s.world id) i since

theorem Overwritten.more {log : List (Nat × Deed)} (overwritten : Overwritten log i)
    (new : List (Nat × Deed)) : Overwritten (log ++ new) i := by
  obtain ⟨before, after, k, split, other, claimed, released⟩ := overwritten
  refine ⟨before, after ++ new, k, ?_, other, claimed, List.mem_append_left _ released⟩
  rw [split, List.append_assoc, List.cons_append]

theorem holds_after {deeds : List Deed} {phase : Phase W} {readings : List Instant} :
    (s.after j b deeds phase w' readings).Holds i a since →
      i = j ∧ a = b ∧ phase.since? = some since ∨ i ≠ j ∧ s.Holds i a since := by
  rintro ⟨phase', here, holding⟩
  rw [after, List.getElem?_set] at here
  split at here
  next same =>
    split at here
    · cases here
      exact .inl ⟨same.symm, rfl, holding⟩
    · cases here
  next differs => exact .inr ⟨fun same => differs same.symm, phase', here, holding⟩

theorem place_after {deeds : List Deed} {phase phase' : Phase W} {readings : List Instant}
    (here : (s.after j b deeds phase w' readings).places[i]? = some (some (a, phase'))) :
    a = b ∧ phase' = phase ∨ s.places[i]? = some (some (a, phase')) := by
  rw [after, List.getElem?_set] at here
  split at here
  · split at here
    · cases here
      exact .inl ⟨rfl, rfl⟩
    · cases here
  · exact .inr here

section Standing

variable {log new : List (Nat × Deed)} {readings : List Instant} {stored : Option String}

/-- Where the lease is left as it is and nobody claims the record, a lease stands as it did. -/
theorem Standing.more (standing : Standing window log readings stored i since)
    (unclaimed : ∀ k, (k, .claim true) ∉ new) (later : List Instant) :
    Standing window (log ++ new) (readings ++ later) stored i since := by
  cases standing with
  | overwritten saved => exact .overwritten (saved.more new)
  | lapsed read dead => exact .lapsed (List.mem_append_left _ read) dead
  | gone empty => exact .gone empty
  | @held same before after split last =>
      have longer : log ++ new = before ++ (i, .claim true) :: (after ++ new) := by
        rw [split, List.append_assoc, List.cons_append]
      refine .held same longer ?_
      · intro k member
        rcases List.mem_append.mp member with old | late
        · exact last k old
        · exact unclaimed k late

/-- A release by another attempt is one of an attempt that had claimed the record before. -/
theorem Standing.released (standing : Standing window log readings stored i since)
    (there : stored ≠ none) (other : j ≠ i) (claimed : (j, .claim true) ∈ log)
    {stored' : Option String} :
    Standing window (log ++ [(j, .release true)]) readings stored' i since := by
  cases standing with
  | overwritten saved => exact .overwritten (saved.more _)
  | lapsed read dead => exact .lapsed read dead
  | gone empty => exact absurd empty there
  | @held same before after split last =>
      refine .overwritten ⟨before, after ++ [(j, .release true)], j, ?_, other, ?_, by simp⟩
      · rw [split, List.append_assoc, List.cons_append]
      · rw [split, List.mem_append, List.mem_cons] at claimed
        rcases claimed with earlier | mine | later
        · exact earlier
        · exact absurd (congrArg Prod.fst mine) other
        · exact absurd later (last j)

/-- A claim by another attempt that found the lease stored as free comes after its end. -/
theorem Standing.claimed (standing : Standing window log readings stored i since) {t : String}
    (found : stored = some t) (free : leaseLives t window now = false) {stored' : Option String} :
    Standing window (log ++ new) (readings ++ [now]) stored' i since := by
  cases standing with
  | overwritten saved => exact .overwritten (saved.more new)
  | lapsed read dead => exact .lapsed (List.mem_append_left _ read) dead
  | gone empty => exact absurd (empty.symm.trans found) (by simp)
  | held same =>
      cases same.symm.trans found
      exact .lapsed (by simp) free

end Standing

theorem claim_notMem_map {deeds : List Deed} (unclaimed : .claim true ∉ deeds) (k : Nat) :
    (k, .claim true) ∉ deeds.map (j, ·) := by
  intro member
  obtain ⟨deed, claimed, same⟩ := List.mem_map.mp member
  cases same
  exact unclaimed claimed

/-- Who holds the record after a step of an attempt that held it has held it before. -/
theorem holds_of_touches {deeds : List Deed} {phase phase' : Phase W} {began : Instant}
    (here : s.places[j]? = some (some (b, phase))) (holding : phase.since? = some began)
    (touches : Attempt.Touches shelf text id began w w' deeds phase')
    (holds : (s.after j b deeds phase' w' []).Holds i a since) : s.Holds i a since := by
  rcases holds_after holds with ⟨rfl, rfl, onward⟩ | ⟨_, held⟩
  · cases touches with
    | spared _ _ onward' =>
        rcases onward' with same | ⟨ended, rfl⟩
        · rw [← Option.some.inj (same.symm.trans onward)]
          exact ⟨phase, here, holding⟩
        · cases onward
    | removed | released => cases onward
  · exact held

/-- A step of an attempt that has begun keeps the contest sound. -/
theorem Sound.go (sound : Sound shelf text window id s) {came : Bool} {phase phase' : Phase W}
    {deeds : List Deed} (here : s.places[j]? = some (some (b, phase)))
    (happens : b.step came phase s.world = some (deeds, phase', w')) :
    Sound shelf text window id (s.after j b deeds phase' w' []) := by
  obtain ⟨own, fair, spares, ⟨began, holding⟩ | ⟨ended, rfl⟩⟩ := sound.own j b phase here
  · obtain ⟨spares', good', touches⟩ := fair.step spares sound.good own holding happens
    refine ⟨good', ?_, ?_, ?_⟩
    · intro i a phase₁ there
      rcases place_after there with ⟨rfl, rfl⟩ | old
      · refine ⟨own, fair, spares', ?_⟩
        cases touches with
        | spared _ _ onward => exact onward.imp_left fun onward => ⟨_, onward⟩
        | removed | released => exact .inr ⟨_, rfl⟩
      · exact sound.own i a phase₁ old
    · intro i a since holds
      obtain ⟨claimed, read⟩ := sound.told i a since (holds_of_touches here holding touches holds)
      exact ⟨List.mem_append_left _ claimed, List.mem_append_left _ read⟩
    · intro i a since holds
      have stands := sound.standing i a since (holds_of_touches here holding touches holds)
      cases touches with
      | spared same unclaimed =>
          rw [← same] at stands
          exact stands.more (claim_notMem_map unclaimed) []
      | removed gone => exact .gone gone
      | released there =>
          -- Whoever releases has claimed the record, and all others that hold it lose the lease.
          rcases holds_after holds with ⟨_, _, onward⟩ | ⟨differs, _⟩
          · cases onward
          · have claimed := (sound.told j b began ⟨phase, here, holding⟩).1
            rw [after, List.append_nil]
            exact stands.released there differs.symm claimed
  · cases happens

/-- What comes of a contender's claiming turn: it looks the record up in vain, or it begins an
attempt at what is stored. -/
inductive Looks (shelf : Shelf W C) (text : C → String) (window : Span) (id : String)
    (s : Contest W) (j : Nat) : Contest W → Prop where
  | vainly {w : W} (same : shelf.Same s.world w) :
      Looks shelf text window id s j { s with world := w }
  | begins {b : Attempt W} {w w' : W} {deeds : List Deed} {phase : Phase W} (own : b.record.id = id)
      (fair : Attempt.Fair shelf text window b.executor) (same : shelf.Same s.world w)
      (fresh : shelf.lease text s.world id = some b.record.reservedAt)
      (first : b.advance 2 b.start w = (deeds, phase, w')) :
      Looks shelf text window id s j (s.after j b deeds phase w' (b.readings w))

theorem Sound.looks (fair : ∀ c ∈ contenders, Attempt.Fair shelf text window c.executor)
    (sound : Sound shelf text window id s) (happens : turn contenders id (.claim j) s = some s') :
    s.places[j]? = some none ∧ Looks shelf text window id s j s' := by
  simp only [turn] at happens
  split at happens
  next c present vacant =>
    have fair' := fair c (List.mem_of_getElem? present)
    have same := fair'.store.looking id s.world sound.good
    refine ⟨vacant, ?_⟩
    split at happens
    next r w looked =>
      obtain ⟨own, fresh⟩ := fair'.store.found id s.world r sound.good (by rw [looked])
      rw [looked] at same
      cases happens
      exact .begins own fair' same fresh rfl
    next w _ looked =>
      rw [looked] at same
      cases happens
      exact .vainly same
  next => cases happens

/-- A contender whose look-up found the record begins with its first two steps. -/
theorem Sound.claim (sound : Sound shelf text window id s) {deeds : List Deed} {phase : Phase W}
    (fair : Attempt.Fair shelf text window b.executor) (own : b.record.id = id) {w : W}
    (same : shelf.Same s.world w) (fresh : shelf.lease text s.world id = some b.record.reservedAt)
    (happens : b.advance 2 b.start w = (deeds, phase, w')) :
    Sound shelf text window id (s.after j b deeds phase w' (b.readings w)) := by
  obtain ⟨_, _, _, happens', spares, good', claims⟩ := fair.claim (same.good sound.good) own
  cases happens.symm.trans happens'
  refine ⟨good', ?_, ?_, ?_⟩
  · intro i a phase₁ there
    rcases place_after there with ⟨rfl, rfl⟩ | old
    · refine ⟨own, fair, spares, ?_⟩
      cases claims with
      | left => exact .inr ⟨_, rfl⟩
      | claimed _ _ _ _ _ holding => exact .inl ⟨_, holding⟩
    · exact sound.own i a phase₁ old
  · intro i a since holds
    rcases holds_after holds with ⟨rfl, rfl, holding⟩ | ⟨_, held⟩
    · cases claims with
      | left => cases holding
      | claimed reading _ _ _ _ holding' =>
          cases holding'.symm.trans holding
          exact ⟨by simp [after], by simp [after, reading]⟩
    · obtain ⟨claimed, read⟩ := sound.told i a since held
      exact ⟨List.mem_append_left _ claimed, List.mem_append_left _ read⟩
  · intro i a since holds
    rcases holds_after holds with ⟨rfl, rfl, holding⟩ | ⟨_, held⟩
    · cases claims with
      | left => cases holding
      | claimed _ _ _ written unclaimed holding' =>
          cases holding'.symm.trans holding
          exact .held written rfl (claim_notMem_map unclaimed)
    · have stands := sound.standing i a since held
      cases claims with
      | left same' unclaimed =>
          rw [← same.lease, ← same'] at stands
          exact stands.more (claim_notMem_map unclaimed) _
      | claimed reading free _ _ _ _ =>
          rw [JobRecord.isReserved_eq] at free
          rw [after, reading]
          exact stands.claimed fresh free

theorem Sound.missed (sound : Sound shelf text window id s) {w : W} (same : shelf.Same s.world w) :
    Sound shelf text window id { s with world := w } where
  good := same.good sound.good
  own := sound.own
  told := sound.told
  standing := fun i a since holds => same.lease ▸ sound.standing i a since holds

theorem Sound.turn (fair : ∀ c ∈ contenders, Attempt.Fair shelf text window c.executor)
    (sound : Sound shelf text window id s) {t : Turn}
    (happens : turn contenders id t s = some s') : Sound shelf text window id s' := by
  cases t with
  | claim j =>
      obtain ⟨_, looks⟩ := sound.looks fair happens
      cases looks with
      | vainly same => exact sound.missed same
      | begins own fair' same fresh first => exact sound.claim fair' own same fresh first
  | go j came =>
      simp only [Contest.turn] at happens
      split at happens
      next b phase here =>
        obtain ⟨⟨deeds, phase', w'⟩, stepped, rfl⟩ := Option.map_eq_some_iff.mp happens
        exact sound.go here stepped
      next => cases happens

theorem Sound.play (fair : ∀ c ∈ contenders, Attempt.Fair shelf text window c.executor)
    (sound : Sound shelf text window id s) {turns : List Turn}
    (happens : play contenders id turns s = some s') : Sound shelf text window id s' := by
  induction turns generalizing s with
  | nil =>
      cases happens
      exact sound
  | cons t rest ih =>
      obtain ⟨s₁, first, rest⟩ := Option.bind_eq_some_iff.mp happens
      exact ih (sound.turn fair first) rest

theorem sound_start (good : shelf.Good w) :
    Sound shelf text window id (start contenders w) := by
  have vacant : ∀ (i : Nat) (a : Attempt W) (phase : Phase W),
      (start contenders w).places[i]? ≠ some (some (a, phase)) := by
    intro i a phase
    rw [start, List.getElem?_map]
    cases contenders[i]? <;> simp
  exact {
    good := good
    own := fun i a phase here => absurd here (vacant i a phase)
    told := fun i a since ⟨phase, here, _⟩ => absurd here (vacant i a phase)
    standing := fun i a since ⟨phase, here, _⟩ => absurd here (vacant i a phase) }

/-- A contender who holds the record after its claiming turn has found a lease that did not live. -/
theorem Sound.free (fair : ∀ c ∈ contenders, Attempt.Fair shelf text window c.executor)
    (sound : Sound shelf text window id s)
    (happens : Contest.turn contenders id (.claim j) s = some s') (claimed : s'.Holds j b now) :
    s'.readings = s.readings ++ [now] ∧
      ∃ lease, shelf.lease text s.world id = some lease ∧ leaseLives lease window now = false := by
  obtain ⟨vacant, looks⟩ := sound.looks fair happens
  cases looks with
  | vainly =>
      obtain ⟨phase, here, _⟩ := claimed
      exact absurd (vacant.symm.trans here) (by simp)
  | begins own fair' same fresh first =>
      obtain ⟨_, _, _, first', _, _, claims⟩ := fair'.claim (same.good sound.good) own
      cases first.symm.trans first'
      rcases holds_after claimed with ⟨_, _, holding⟩ | ⟨differs, _⟩
      · cases claims with
        | left => cases holding
        | claimed reading free _ _ _ holding' =>
            cases holding'.symm.trans holding
            exact ⟨by rw [after, reading], _, fresh, free⟩
      · exact absurd rfl differs

/-- While an attempt holds its record and its lease lives, the claim of another attempt comes off
only if a third, which had claimed the record before, has saved its own copy as failed since. -/
theorem lease_exclusion {turns : List Turn}
    (fair : ∀ c ∈ contenders, Attempt.Fair shelf text window c.executor) (good : shelf.Good w)
    (played : play contenders id turns (start contenders w) = some s)
    (happens : turn contenders id (.claim j) s = some s')
    (ordered : s'.readings.Pairwise (· ≤ ·)) (plain : ∀ t ∈ s'.readings, t.Plain)
    (holds : s.Holds i a since) (claimed : s'.Holds j b now)
    (lives : (a.claimed since).isReserved window now = true) : Overwritten s.log i := by
  have sound := (sound_start good).play fair played
  obtain ⟨read, lease, stored, free⟩ := sound.free fair happens claimed
  rw [read] at ordered plain
  have lives : leaseLives since.leaseText window now = true := lives
  cases sound.standing i a since holds with
  | overwritten saved => exact saved
  | @lapsed t earlier dead =>
      have le : t ≤ now := (List.pairwise_append.mp ordered).2.2 t earlier now (by simp)
      have lived := leaseLives_of_le
        (plain since (List.mem_append_left _ (sound.told i a since holds).2))
        (plain t (List.mem_append_left _ earlier)) (plain now (by simp)) le lives
      exact absurd (lived.symm.trans dead) (by simp)
  | gone empty => exact absurd (empty.symm.trans stored) (by simp)
  | held same =>
      cases same.symm.trans stored
      exact absurd (lives.symm.trans free) (by simp)

end Contest

/-! ### Three contenders -/

namespace Simulation

open Contest

/-- The records of a world, each under its own id. -/
def World.keyedShelf : Shelf World JobRecord := MemoryStore.keyedShelf storePart

theorem World.keyed_of_store {w w' : World} (kept : w'.store = w.store) : keyedShelf.Same w w' where
  good := by
    intro keyed
    have keyed' : w'.store.Keyed := kept ▸ keyed
    exact keyed'
  cell := fun id => congrArg (·.get? id) kept

/-- The store of a world shows its leases. -/
theorem World.store_shows : keyedShelf.Shows JobRecord.reservedAt records := by
  have mayFail : keyedShelf.Unreliable plainRecords records :=
    ⟨fun _ => mayFail_planned fun _ _ => keyed_of_store,
      fun _ => mayFail_planned fun _ _ => keyed_of_store⟩
  refine (MemoryStore.shows storePart_lawful).unreliable mayFail fun id w => ?_
  rcases planned_cases (w := w) with ⟨w₀, kept, does⟩ | ⟨fault, w', kept, fails⟩
  · exact .inl ⟨w₀, keyed_of_store kept, does⟩
  · exact .inr ⟨fault, w', keyed_of_store kept, fails⟩

theorem failingExecutor_fair :
    Attempt.Fair World.keyedShelf JobRecord.reservedAt ⟨300000000000⟩ failingExecutor where
  store := World.store_shows
  ticking := fun _ _ => World.keyed_of_store rfl
  handlers := fun _ _ found _ _ =>
    Script.spares_of_settled (fun _ _ => World.keyed_of_store rfl) failingScripts_settled found
  window := rfl

/-- A world with one easy job, whose clock shows the times at which the job is claimed, claimed
again, marked as failed, and claimed once more. -/
def handOver : World :=
  { World.still [easyJob "a"] with
    nature := ⟨fun n => ⟨[0, 400, 405, 410].getD n 410, 0⟩, fun _ => "", 0, 0⟩ }

/-- Three contenders whose jobs fail. -/
def rivals : List (Contender World) := List.replicate 3 ⟨failingExecutor, none⟩

/-- The first claims, the second claims, and the first fails. -/
def overtaking : List Turn := [.claim 0, .claim 1, .go 0 false, .go 0 false, .go 0 false]

/-- The window of the rivals. -/
def fiveMinutes : Span := ⟨300000000000⟩

/-- The third contender claims the job at 410 s, although the second has held it since 400 s. -/
theorem overtaken : ∃ (s s' : Contest World) (a b : Attempt World),
    play rivals "a" overtaking (start rivals handOver) = some s ∧
    turn rivals "a" (.claim 2) s = some s' ∧ s.Holds 1 a ⟨400, 0⟩ ∧ s'.Holds 2 b ⟨410, 0⟩ ∧
    s'.readings = [⟨0, 0⟩, ⟨400, 0⟩, ⟨410, 0⟩] := by
  refine ⟨_, _, _, _, rfl, rfl, ⟨_, rfl, rfl⟩, ⟨_, rfl, rfl⟩, ?_⟩
  decide +kernel

theorem overtaken_lives (a : Attempt World) :
    (a.claimed ⟨400, 0⟩).isReserved fiveMinutes ⟨410, 0⟩ = true := by
  have lives : leaseLives (Instant.mk 400 0).leaseText fiveMinutes ⟨410, 0⟩ = true := by
    decide +kernel
  exact (a.claimed _).isReserved_eq.trans lives

/-- When three contenders claim a job within one lease of each other's, the first, whose lease has
lapsed, has saved its own copy as failed over the lease of the second. -/
theorem lease_exclusion_overtaken : ∃ s : Contest World,
    play rivals "a" overtaking (start rivals handOver) = some s ∧ Overwritten s.log 1 := by
  obtain ⟨s, s', a, b, played, happens, holds, claimed, read⟩ := overtaken
  have fair : ∀ c ∈ rivals,
      Attempt.Fair World.keyedShelf JobRecord.reservedAt fiveMinutes c.executor := by
    intro c member
    rw [List.eq_of_mem_replicate member]
    exact failingExecutor_fair
  have keyed : World.keyedShelf.Good handOver := by
    intro entry member
    cases List.mem_singleton.mp member
    rfl
  have ordered : s'.readings.Pairwise (· ≤ ·) := by
    rw [read]
    decide
  have plain : ∀ t ∈ s'.readings, t.Plain := by
    rw [read]
    decide
  exact ⟨s, played, lease_exclusion fair keyed played happens ordered plain holds claimed
    (overtaken_lives a)⟩

/-- A lease that lives is no bar to others once somebody who has outlived its own has marked its
copy as failed: the clock does not go back, and the second contender's lease lives, but the claim of
the third comes off. -/
theorem lease_emptied : ∃ (s s' : Contest World) (a b : Attempt World),
    play rivals "a" overtaking (start rivals handOver) = some s ∧
    turn rivals "a" (.claim 2) s = some s' ∧ s'.readings.Pairwise (· ≤ ·) ∧
    s.Holds 1 a ⟨400, 0⟩ ∧ (a.claimed ⟨400, 0⟩).isReserved fiveMinutes ⟨410, 0⟩ = true ∧
    s'.Holds 2 b ⟨410, 0⟩ := by
  obtain ⟨s, s', a, b, played, happens, holds, claimed, read⟩ := overtaken
  have ordered : s'.readings.Pairwise (· ≤ ·) := by
    rw [read]
    decide
  exact ⟨s, s', a, b, played, happens, ordered, holds, overtaken_lives a, claimed⟩

end Simulation

end JobQueue
