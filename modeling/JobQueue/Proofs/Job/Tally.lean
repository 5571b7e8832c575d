/-
The number of failed attempts after a batch.

Claims and releases write the whole of the copy that a run was given, its number of attempts
included. A run at a stored record therefore leaves the number of its own copy, with one more if it
has failed, whatever was stored before (`Counting.run`). Let the records of a batch be
copies of what is stored. Then the stored number after the batch is the number before it, and one
more if any of the runs that claimed the record failed; it counts them all just if there is one
at most. On its way the number falls just where a run claims the record after another has failed
with it (`attempts_after_batch`).
-/

import JobQueue.Proofs.Job.Fate
import JobQueue.Proofs.Simulation.Scripts
import JobQueue.Proofs.Store.Tally

namespace JobQueue

variable {W C : Type} {shelf : Shelf W C} {count : C → Nat} {id : String} {w : W}

namespace Task

variable {α β : Type} {t : Task W α} {related : W → W → Prop}

/-- Every step of a task that nobody interrupts takes the world to a related one. -/
def Steps (related : W → W → Prop) : Task W α → W → Prop
  | .done _, _ => True
  | .act update next, w => related w (update w) ∧ Steps related (next w) (update w)
  | .wait ready _ next, w => Steps related (next (ready w)) w

theorem steps_bind {k : α → Task W β} : (t.bind k).Steps related w ↔
    t.Steps related w ∧ (k (t.runAlone w).1).Steps related (t.runAlone w).2 := by
  induction t generalizing w with
  | done a => exact (iff_of_eq (true_and _)).symm
  | act update next ih =>
      show related w (update w) ∧ ((next w).bind k).Steps related (update w) ↔ _
      rw [ih]
      exact and_assoc.symm
  | wait ready limit next ih => exact ih (ready w)

/-- What every step keeps holds all the way. -/
theorem Steps.always {holds : W → Prop} (begins : holds w)
    (kept : t.Steps (fun a b => holds a → holds b) w) : t.Steps (fun _ b => holds b) w := by
  induction t generalizing w with
  | done a => trivial
  | act update next ih =>
      obtain ⟨first, later⟩ := kept
      exact ⟨first begins, ih w (first begins) later⟩
  | wait ready limit next ih => exact ih (ready w) begins kept

/-- The acts of a task leave the number of attempts under an id as it is, or remove what is kept
there. -/
def Tame (shelf : Shelf W C) (count : C → Nat) (id : String) : Task W α → Prop
  | .done _ => True
  | .act update next => ∀ w, shelf.Good w → shelf.Good (update w) ∧
      (shelf.tally count (update w) id = shelf.tally count w id ∨
        shelf.tally count (update w) id = none) ∧ (next w).Tame shelf count id
  | .wait _ _ next => ∀ came, (next came).Tame shelf count id

theorem Spares.tame (spares : t.Spares shelf) : t.Tame shelf count id := by
  induction t with
  | done a => trivial
  | act update next ih =>
      intro w good
      obtain ⟨same, later⟩ := spares w good
      exact ⟨same.good good, .inl same.tally, ih w later⟩
  | wait ready limit next ih => exact fun came => ih came (spares came)

end Task

/-- A relation of numbers of attempts that allows them to stay as they are, a record to go, and one
attempt more to be counted where there have been `n`. -/
structure Lenient (n : Nat) (related : Option Nat → Option Nat → Prop) : Prop where
  stay : ∀ number, related number number
  gone : ∀ number, related number none
  more : related (some n) (some (n + 1))

/-- The number of attempts does not fall. -/
def Rises (before after : Option Nat) : Prop := ∀ m n, before = some m → after = some n → m ≤ n

theorem lenient_rises {n : Nat} : Lenient n Rises where
  stay := by
    rintro _ m n rfl same
    exact Nat.le_of_eq (Option.some.inj same)
  gone := fun _ _ _ _ gone => nomatch gone
  more := by
    rintro _ _ ⟨⟩ ⟨⟩
    exact Nat.le_succ n

/-- The number of attempts is `n` or one more, if there is one. -/
def Within (n : Nat) (number : Option Nat) : Prop := ∀ m, number = some m → m = n ∨ m = n + 1

theorem lenient_within {n : Nat} : Lenient n fun before after =>
    Within n before → Within n after where
  stay := fun _ within => within
  gone := fun _ _ _ gone => nomatch gone
  more := by
    rintro _ _ ⟨⟩
    exact .inr rfl

/-- Steps of a task with related numbers of attempts under an id. -/
abbrev Task.TallySteps {α : Type} (shelf : Shelf W C) (count : C → Nat) (id : String)
    (related : Option Nat → Option Nat → Prop) : Task W α → W → Prop :=
  Task.Steps fun a b => related (shelf.tally count a id) (shelf.tally count b id)

section Tame

variable {α : Type} {t : Task W α} {related : Option Nat → Option Nat → Prop} {n : Nat}

theorem Task.Tame.good (tame : t.Tame shelf count id) (good : shelf.Good w) :
    shelf.Good (t.runAlone w).2 := by
  induction t generalizing w with
  | done a => exact good
  | act update next ih =>
      obtain ⟨good', _, later⟩ := tame w good
      exact ih w later good'
  | wait ready limit next ih => exact ih _ (tame _) good

theorem Task.Tame.tally (tame : t.Tame shelf count id) (good : shelf.Good w) :
    shelf.tally count (t.runAlone w).2 id = shelf.tally count w id ∨
      shelf.tally count (t.runAlone w).2 id = none := by
  induction t generalizing w with
  | done a => exact .inl rfl
  | act update next ih =>
      obtain ⟨good', now, later⟩ := tame w good
      rcases ih w later good' with same | gone
      · rcases now with same' | gone'
        · exact .inl (same.trans same')
        · exact .inr (same.trans gone')
      · exact .inr gone
  | wait ready limit next ih => exact ih _ (tame _) good

theorem Task.Tame.steps (tame : t.Tame shelf count id) (lenient : Lenient n related)
    (good : shelf.Good w) : t.TallySteps shelf count id related w := by
  induction t generalizing w with
  | done a => trivial
  | act update next ih =>
      obtain ⟨good', now, later⟩ := tame w good
      refine ⟨?_, ih w later good'⟩
      rcases now with same | gone
      · rw [same]
        exact lenient.stay _
      · rw [gone]
        exact lenient.gone _
  | wait ready limit next ih => exact ih _ (tame _) good

end Tame

/-- What comes of a run that nobody interrupts: the number of attempts after it, and how it changes
on the way. -/
structure Task.Settles (shelf : Shelf W C) (count : C → Nat) (id : String)
    (related : Option Nat → Option Nat → Prop) (t : Task W Ended) (w : W)
    (after : Option Nat → Prop) : Prop where
  good : shelf.Good (t.runAlone w).2
  tally : after (shelf.tally count (t.runAlone w).2 id)
  steps : t.TallySteps shelf count id related w
  whole : ∀ c, (t.runAlone w).1.result ≠ .error (.crash c)

namespace Task.Settles

variable {related : Option Nat → Option Nat → Prop} {after after' : Option Nat → Prop}
  {ended : Ended} {t : Task W Ended}

theorem done (good : shelf.Good w) (tally : after (shelf.tally count w id))
    (whole : ∀ c, ended.result ≠ .error (.crash c)) :
    Settles shelf count id related (.done ended) w after := ⟨good, tally, trivial, whole⟩

theorem act {update : W → W} {next : W → Task W Ended}
    (step : related (shelf.tally count w id) (shelf.tally count (update w) id))
    (later : Settles shelf count id related (next w) (update w) after) :
    Settles shelf count id related (.act update next) w after :=
  ⟨later.good, later.tally, ⟨step, later.steps⟩, later.whole⟩

theorem bind {α : Type} {first : Task W α} {k : α → Task W Ended}
    (steps : first.TallySteps shelf count id related w)
    (later : Settles shelf count id related (k (first.runAlone w).1) (first.runAlone w).2 after) :
    Settles shelf count id related (first.bind k) w after where
  good := runAlone_bind (k := k) ▸ later.good
  tally := runAlone_bind (k := k) ▸ later.tally
  steps := steps_bind.mpr ⟨steps, later.steps⟩
  whole := runAlone_bind (k := k) ▸ later.whole

theorem mono (settles : Settles shelf count id related t w after)
    (wider : ∀ number, after number → after' number) :
    Settles shelf count id related t w after' :=
  { settles with tally := wider _ settles.tally }

end Task.Settles

namespace Executor

variable {x : Executor W} {r claimed : JobRecord} {related : Option Nat → Option Nat → Prop}
  {n : Nat} {w' : W}

/-- The store counts attempts, the clock changes nothing, and handlers leave the number of attempts
under an id as it is unless they remove the record. -/
structure Counting (x : Executor W) (shelf : Shelf W C) (count : C → Nat) (id : String) : Prop where
  store : shelf.Counts count x.backend.records
  ticking : ∀ w, shelf.Good w → shelf.Same w (x.backend.clock w).2
  handlers : ∀ jobType handler, x.registry.get jobType = .ok handler →
    ∀ context job, (handler.run context job).run.Tame shelf count id

/-- What a run of a record claims and the world once it has saved its claim, if that comes off. -/
def claim? (x : Executor W) (r : JobRecord) (w : W) : Option (JobRecord × W) :=
  match check r with
  | some _ => none
  | none =>
      let (now, w) := x.backend.clock w
      if r.isReserved x.lease now then none
      else
        match x.backend.records.save (r.reserve now) w with
        | (.ok (), w) => some (r.reserve now, w)
        | (.error _, _) => none

/-- Whether a run claims its record. -/
def claims (x : Executor W) (r : JobRecord) (w : W) : Bool := (x.claim? r w).isSome

/-- Whether a run claims its record and then fails with it. -/
def fails (x : Executor W) (r : JobRecord) (w : W) : Bool :=
  match x.claim? r w with
  | none => false
  | some (claimed, w) =>
      match ((x.execute none claimed).runAlone w).1 with
      | .ok () => false
      | .error _ => true

/-! ### The steps of a run -/

/-- A run whose handler has succeeded removes the record. -/
theorem Counting.complete (counting : x.Counting shelf count id) (lenient : Lenient n related)
    (good : shelf.Good w) : (x.complete r).Settles shelf count id related w fun after =>
      if r.id = id then after = none else after = shelf.tally count w id := by
  have good' : shelf.Good (x.backend.records.delete r w).2 :=
    (counting.store.delete r w good).elsewhere.good good
  have tally : if r.id = id then shelf.tally count (x.backend.records.delete r w).2 id = none
      else shelf.tally count (x.backend.records.delete r w).2 id = shelf.tally count w id := by
    split
    next same => exact same ▸ counting.store.tally_delete good
    next differs => exact counting.store.tally_delete_other good fun same => differs same.symm
  rw [complete_eq]
  apply Task.Settles.act
  · split at tally
    · rw [tally]
      exact lenient.gone _
    · rw [tally]
      exact lenient.stay _
  · rw [counting.store.delete_answer r w good]
    cases shelf.cell w r.id <;> exact .done good' tally (by simp)

/-- A run whose handler has failed counts one attempt more, if the record is still there. -/
theorem Counting.release (counting : x.Counting shelf count id) (lenient : Lenient n related)
    (good : shelf.Good w) {cause : JobError} (unspent : r.isSpent = false)
    (copies : r.id = id → r.attempts.toNat = n)
    (kept : r.id = id → shelf.tally count w id = some n ∨ shelf.tally count w id = none) :
    (x.release r cause).Settles shelf count id related w fun after =>
      if r.id = id then after = (shelf.tally count w id).map fun _ => n + 1
      else after = shelf.tally count w id := by
  have same := counting.ticking w good
  rw [release_eq]
  apply Task.Settles.act
  · rw [same.tally]
    exact lenient.stay _
  · dsimp only
    rw [overflows_of_not_spent unspent, if_neg Bool.false_ne_true]
    generalize (x.backend.clock w).1 = later
    rw [← same.tally] at kept ⊢
    have good' := same.good good
    generalize (x.backend.clock w).2 = w' at good' kept ⊢
    have tally : if r.id = id then
        shelf.tally count (x.backend.records.save (r.markFailed later) w').2 id =
          (shelf.tally count w' id).map fun _ => n + 1
        else shelf.tally count (x.backend.records.save (r.markFailed later) w').2 id =
          shelf.tally count w' id := by
      split
      next here =>
        have number : (r.markFailed later).attempts.toNat = n + 1 := by
          rw [JobRecord.toNat_attempts_markFailed unspent, copies here]
        have saved := counting.store.tally_save (r := r.markFailed later) good'
        rw [number] at saved
        exact here ▸ saved
      next differs =>
        exact counting.store.tally_save_other (r := r.markFailed later) good'
          fun same => differs same.symm
    apply Task.Settles.act
    · split at tally
      next here =>
        rw [tally]
        rcases kept here with number | gone
        · rw [number]
          exact lenient.more
        · rw [gone]
          exact lenient.stay _
      next =>
        rw [tally]
        exact lenient.stay _
    · have saved : shelf.Good (x.backend.records.save (r.markFailed later) w').2 :=
        (counting.store.save _ w' good').elsewhere.good good'
      rw [counting.store.save_answer _ w' good']
      cases shelf.cell w' (r.markFailed later).id <;> exact .done saved tally (by simp)

theorem Counting.execute_tame (counting : x.Counting shelf count id) :
    (x.execute none r).Tame shelf count id := by
  have bind : ∀ {t : Task W (Except (Fault JobError) Unit)}, t.Tame shelf count id →
      (t.bind fun result => .done (resultOfHandler result)).Tame shelf count id := by
    intro t tame
    induction t with
    | done a => trivial
    | act update next ih =>
        intro w good
        obtain ⟨good', now, later⟩ := tame w good
        exact ⟨good', now, ih w later⟩
    | wait ready limit next ih => exact fun came => ih came (tame came)
  rw [execute_eq]
  cases found : x.handlerFor r with
  | error e => trivial
  | ok entry => exact bind (counting.handlers _ _ (of_handlerFor found).2 _ _)

/-- What a run makes of the number of attempts once its claim has been saved. -/
theorem Counting.afterClaim (counting : x.Counting shelf count id) (lenient : Lenient n related)
    (good : shelf.Good w) (unspent : r.isSpent = false) (copies : r.id = id → r.attempts.toNat = n)
    (kept : r.id = id → shelf.tally count w id = some n) :
    (x.afterClaim none r).Settles shelf count id related w fun after =>
      after = none ∨ if r.id = id
        then after = some (n + 1) ∧ ∃ e, ((x.execute none r).runAlone w).1 = .error e
        else after = shelf.tally count w id := by
  have tame : (x.execute none r).Tame shelf count id := counting.execute_tame
  have good' := tame.good good
  have now := tame.tally good
  rw [afterClaim_eq]
  apply Task.Settles.bind (tame.steps lenient good)
  generalize (x.execute none r).runAlone w = executed at good' now ⊢
  obtain ⟨result, w'⟩ := executed
  cases result with
  | ok _ =>
      refine (counting.complete lenient good').mono ?_
      intro number tally
      split at tally
      · exact .inl tally
      next differs =>
        rw [if_neg differs]
        rcases now with same | gone
        · exact .inr (tally.trans same)
        · exact .inl (tally.trans gone)
  | error e =>
      refine (counting.release lenient good' unspent copies ?_).mono ?_
      · intro here
        rcases now with same | gone
        · exact .inl (same.trans (kept here))
        · exact .inr gone
      · intro number tally
        split at tally
        next here =>
          rw [if_pos here]
          rcases now with same | gone
          · rw [same, kept here] at tally
            exact .inr ⟨tally, e, rfl⟩
          · rw [gone] at tally
            exact .inl tally
        next differs =>
          rw [if_neg differs]
          rcases now with same | gone
          · exact .inr (tally.trans same)
          · exact .inl (tally.trans gone)

/-- A run claims its record when it finds it free at the time it reads, and the save comes off. -/
theorem claim?_eq_some : x.claim? r w = some (claimed, w') ↔ check r = none ∧ ∃ now w₁,
    x.backend.clock w = (now, w₁) ∧ r.isReserved x.lease now = false ∧ claimed = r.reserve now ∧
      x.backend.records.save claimed w₁ = (.ok (), w') := by
  constructor
  · intro claim
    unfold claim? at claim
    split at claim
    · cases claim
    next checked =>
      refine ⟨checked, _, _, rfl, ?_⟩
      dsimp only at claim
      split at claim
      · cases claim
      next free =>
        split at claim <;> cases claim
        next saved => exact ⟨Bool.eq_false_iff.mpr free, rfl, saved⟩
  · rintro ⟨checked, now, w₁, reading, free, rfl, saved⟩
    simp only [claim?, checked, reading, free, saved, Bool.false_eq_true, if_false]

/-- A run that claims its record reads the clock, saves the claim and goes on from there. -/
theorem run_of_claim {now : Instant} {w₁ : W} (checked : check r = none)
    (reading : x.backend.clock w = (now, w₁)) (free : r.isReserved x.lease now = false)
    (saved : x.backend.records.save (r.reserve now) w₁ = (.ok (), w')) :
    (x.run none r).runAlone w = (x.afterClaim none (r.reserve now)).runAlone w' ∧
    ∀ step : W → W → Prop, (x.run none r).Steps step w ↔
      step w w₁ ∧ step w₁ w' ∧ (x.afterClaim none (r.reserve now)).Steps step w' := by
  rw [run_eq checked]
  constructor
  · simp only [Task.runAlone, reading, free, saved, Bool.false_eq_true, if_false]
  · intro step
    simp only [Task.Steps, reading, free, saved, Bool.false_eq_true, if_false]

/-- A save of a claim leaves the number of the copy, if there is something to save it to. -/
theorem Counting.tally_claim (counting : x.Counting shelf count id) (good : shelf.Good w)
    (now : Instant) (copies : r.id = id → r.attempts.toNat = n) :
    shelf.tally count (x.backend.records.save (r.reserve now) w).2 id =
      if r.id = id then (shelf.tally count w id).map fun _ => n else shelf.tally count w id := by
  split
  next here =>
    have saved := counting.store.tally_save (r := r.reserve now) good
    have number : (r.reserve now).attempts.toNat = n := copies here
    rw [number] at saved
    exact here ▸ saved
  next differs =>
    exact counting.store.tally_save_other (r := r.reserve now) good fun same => differs same.symm

/-- A run that claims nothing leaves the number of attempts as it is. -/
theorem Counting.unclaimed (counting : x.Counting shelf count id) (lenient : Lenient n related)
    (good : shelf.Good w) (nothing : x.claim? r w = none) :
    (x.run none r).Settles shelf count id related w fun after =>
      after = shelf.tally count w id := by
  cases checked : check r with
  | some e =>
      rw [run_of_refused checked]
      exact .done good rfl (by simp)
  | none =>
      have same := counting.ticking w good
      have good₁ := same.good good
      rw [run_eq checked]
      apply Task.Settles.act
      · rw [same.tally]
        exact lenient.stay _
      · split
        · exact .done good₁ same.tally (by simp)
        next free =>
          cases there : shelf.tally count (x.backend.clock w).2 r.id with
          | none =>
              obtain ⟨refused, unchanged⟩ := counting.store.save_refused
                (r := r.reserve (x.backend.clock w).1) good₁ there
              apply Task.Settles.act
              · rw [unchanged.tally]
                exact lenient.stay _
              · rw [refused]
                exact .done (unchanged.good good₁) (unchanged.tally.trans same.tally) (by simp)
          | some m =>
              have saved := (counting.store.save_eq_ok (r := r.reserve (x.backend.clock w).1)
                good₁).mpr ⟨m, there⟩
              have claim : x.claim? r w ≠ none := by
                rw [claim?_eq_some.mpr ⟨checked, _, _, rfl, Bool.eq_false_iff.mpr free, rfl,
                  Prod.ext saved rfl⟩]
                simp
              exact absurd nothing claim

/-- A run that claims its record leaves the number of its own copy, and counts one attempt more if
it fails. -/
theorem Counting.claiming (counting : x.Counting shelf count id) (lenient : Lenient n related)
    (good : shelf.Good w) (unspent : r.isSpent = false) (copies : r.id = id → r.attempts.toNat = n)
    (claim : x.claim? r w = some (claimed, w'))
    (back : r.id = id → related (shelf.tally count w id) (some n)) :
    (x.run none r).Settles shelf count id related w fun after =>
      after = none ∨ if r.id = id then after = some (n + 1) ∧ x.fails r w = true
        else after = shelf.tally count w id := by
  obtain ⟨checked, now, w₁, reading, free, rfl, saved⟩ := claim?_eq_some.mp claim
  have same := counting.ticking w good
  rw [reading] at same
  have good₁ := same.good good
  have good' : shelf.Good w' := by
    have after := (counting.store.save (r.reserve now) w₁ good₁).elsewhere.good good₁
    rwa [saved] at after
  have there : r.id = id → ∃ m, shelf.tally count w₁ id = some m := by
    rintro rfl
    exact (counting.store.save_eq_ok (r := r.reserve now) good₁).mp (congrArg Prod.fst saved)
  have number := counting.tally_claim good₁ now copies
  rw [saved] at number
  dsimp only at number
  have kept : r.id = id → shelf.tally count w' id = some n := by
    intro here
    obtain ⟨m, some⟩ := there here
    rw [number, if_pos here, some, Option.map_some]
  obtain ⟨ends, path⟩ := run_of_claim checked reading free saved
  have later := counting.afterClaim (r := r.reserve now) lenient good' unspent copies kept
  refine ⟨ends ▸ later.good, ?_, (path _).mpr ⟨?_, ?_, later.steps⟩, ends ▸ later.whole⟩
  · rw [ends]
    rcases later.tally with gone | tally
    · exact .inl gone
    · right
      by_cases here : (r.reserve now).id = id
      · rw [if_pos here] at tally
        obtain ⟨tally, e, failed⟩ := tally
        refine (if_pos here).mpr ⟨tally, ?_⟩
        rw [fails, claim]
        simp only [failed]
      · rw [if_neg here] at tally
        refine (if_neg here).mpr ?_
        rw [tally, number.trans (if_neg here), same.tally]
  · rw [same.tally]
    exact lenient.stay _
  · rw [same.tally]
    by_cases here : r.id = id
    · rw [kept here]
      exact back here
    · rw [number, if_neg here, same.tally]
      exact lenient.stay _

/-- What a run makes of the number of attempts. -/
theorem Counting.run (counting : x.Counting shelf count id) (lenient : Lenient n related)
    (good : shelf.Good w) (unspent : r.isSpent = false) (copies : r.id = id → r.attempts.toNat = n)
    (back : r.id = id → x.claims r w = true → related (shelf.tally count w id) (some n)) :
    (x.run none r).Settles shelf count id related w fun after =>
      after = none ∨ if r.id = id ∧ x.claims r w = true
        then after = some (n + 1) ∧ x.fails r w = true else after = shelf.tally count w id := by
  cases claim : x.claim? r w with
  | none =>
      refine (counting.unclaimed lenient good claim).mono ?_
      intro after tally
      right
      rw [if_neg (by simp [claims, claim])]
      exact tally
  | some entry =>
      have claims : x.claims r w = true := by rw [Executor.claims, claim, Option.isSome_some]
      refine (counting.claiming lenient good unspent copies claim fun here =>
        back here claims).mono ?_
      simp only [claims, and_true]
      exact fun _ tally => tally

/-- A run that claims a record with a copy of another number changes the number. -/
theorem Counting.steps_claim (counting : x.Counting shelf count id) (good : shelf.Good w)
    (own : r.id = id) (copies : r.attempts.toNat = n) (claims : x.claims r w = true)
    (steps : (x.run none r).TallySteps shelf count id related w) :
    ∃ m, shelf.tally count w id = some m ∧ related (some m) (some n) := by
  obtain ⟨⟨claimed, w'⟩, claim⟩ := Option.isSome_iff_exists.mp claims
  obtain ⟨checked, now, w₁, reading, free, rfl, saved⟩ := claim?_eq_some.mp claim
  have same := counting.ticking w good
  rw [reading] at same
  subst own
  obtain ⟨m, there⟩ := (counting.store.save_eq_ok (r := r.reserve now) (same.good good)).mp
    (congrArg Prod.fst saved)
  have before : shelf.tally count (now, w₁).2 r.id = some m := there
  have number := counting.tally_claim (same.good good) now fun _ => copies
  rw [saved, if_pos rfl, before, Option.map_some] at number
  obtain ⟨_, claiming, _⟩ := ((run_of_claim checked reading free saved).2 _).mp steps
  refine ⟨m, same.tally.symm.trans before, ?_⟩
  rwa [number, show shelf.tally count w₁ r.id = some m from there] at claiming

/-! ### Batches -/

/-- The runs of a batch: their records, and the worlds that they start in. -/
def slots (x : Executor W) : List JobRecord → W → List (JobRecord × W)
  | [], _ => []
  | r :: rest, w => (r, w) :: slots x rest ((x.run none r).runAlone w).2

/-- Runs none of which breaks off go on one after another. -/
theorem runAll_of_whole (rest : List JobRecord)
    (whole : ∀ c, ((x.run none r).runAlone w).1.result ≠ .error (.crash c)) :
    (∀ results, ((x.runAll rest).runAlone ((x.run none r).runAlone w).2).1 = .ok results →
      ∃ result, ((x.runAll (r :: rest)).runAlone w).1 = .ok (result :: results)) ∧
    ((x.runAll (r :: rest)).runAlone w).2 =
      ((x.runAll rest).runAlone ((x.run none r).runAlone w).2).2 ∧
    ∀ step : W → W → Prop, (x.runAll (r :: rest)).Steps step w ↔
      (x.run none r).Steps step w ∧ (x.runAll rest).Steps step ((x.run none r).runAlone w).2 := by
  rw [runAll_cons]
  simp only [Task.runAlone_bind, Task.steps_bind]
  generalize (x.run none r).runAlone w = ran at whole ⊢
  obtain ⟨⟨record, result⟩, w'⟩ := ran
  have resumed : ∀ own : Except JobError Unit,
      let onward : Task W (Except Crash (List (Except JobError Unit))) :=
        (x.runAll rest).bind fun results => .done (results.map (own :: ·))
      (∀ results, ((x.runAll rest).runAlone w').1 = .ok results →
        ∃ result, (onward.runAlone w').1 = .ok (result :: results)) ∧
      (onward.runAlone w').2 = ((x.runAll rest).runAlone w').2 ∧
      ∀ step : W → W → Prop, (x.run none r).Steps step w ∧ onward.Steps step w' ↔
        (x.run none r).Steps step w ∧ (x.runAll rest).Steps step w' := by
    intro own onward
    simp only [onward, Task.runAlone_bind, Task.steps_bind, Task.Steps, and_true]
    refine ⟨?_, rfl, fun _ => trivial⟩
    intro results given
    refine ⟨own, ?_⟩
    rw [given]
    rfl
  match result, whole with
  | .ok (), _ => exact resumed (.ok ())
  | .error (.error e), _ => exact resumed (.error e)
  | .error (.crash c), whole => exact absurd rfl (whole c)

/-- How many runs of a batch claim the record of an id and fail with it. -/
def failures (x : Executor W) (id : String) (slots : List (JobRecord × W)) : Nat :=
  slots.countP fun s => s.1.id = id && x.fails s.1 s.2

/-- No run of a batch claims the record of an id after another has failed with it. -/
def Orderly (x : Executor W) (id : String) (slots : List (JobRecord × W)) : Prop :=
  slots.Pairwise fun s t =>
    s.1.id = id → t.1.id = id → x.fails s.1 s.2 = true → x.claims t.1 t.2 = false

theorem claims_of_fails (fails : x.fails r w = true) : x.claims r w = true := by
  unfold Executor.fails at fails
  split at fails
  · cases fails
  next claim => rw [claims, claim, Option.isSome_some]

/-- A run in a batch, where `failed` runs have failed with the record before. -/
theorem Counting.next (counting : x.Counting shelf count id) (good : shelf.Good w) {failed : Nat}
    (unspent : r.isSpent = false) (copies : r.id = id → r.attempts.toNat = n)
    (kept : shelf.tally count w id = none ∨ shelf.tally count w id = some (n + min 1 failed)) :
    (x.run none r).Settles shelf count id (fun before after => Within n before → Within n after) w
      fun after => after = none ∨ after = some (n + min 1 (failed + x.failures id [(r, w)])) := by
  refine (counting.run lenient_within good unspent copies fun _ _ _ => ?_).mono ?_
  · rintro _ ⟨⟩
    exact .inl rfl
  · rintro after (gone | tally)
    · exact .inl gone
    · rw [failures, List.countP_singleton]
      split at tally
      next own =>
        obtain ⟨tally, fails⟩ := tally
        right
        rw [tally]
        simp [own.1, fails]
      next idle =>
        have notFailed : ¬ (r.id = id ∧ x.fails r w = true) := fun both =>
          idle ⟨both.1, claims_of_fails both.2⟩
        rw [tally]
        simpa [notFailed] using kept

/-- The number falls just where a run claims the record after another has failed with it. -/
theorem Counting.rises_iff (counting : x.Counting shelf count id) (good : shelf.Good w)
    {failed : Nat} (unspent : r.isSpent = false) (copies : r.id = id → r.attempts.toNat = n)
    (kept : shelf.tally count w id = none ∨ shelf.tally count w id = some (n + min 1 failed)) :
    (x.run none r).TallySteps shelf count id Rises w ↔
      (0 < failed → r.id = id → x.claims r w = false) := by
  constructor
  · intro steps some own
    cases claims : x.claims r w with
    | false => rfl
    | true =>
        obtain ⟨m, there, rises⟩ := counting.steps_claim good own (copies own) claims steps
        have notMore : m ≤ n := rises m n rfl rfl
        rcases kept with gone | number
        · simp [gone] at there
        · rw [there, Option.some.injEq] at number
          omega
  · intro unclaimed
    refine (counting.run lenient_rises good unspent copies ?_).steps
    intro own claims m n' before same
    obtain rfl := Option.some.inj same
    rcases kept with gone | number
    · simp [gone] at before
    · rw [before, Option.some.injEq] at number
      have none : failed = 0 := by
        refine Nat.eq_zero_of_not_pos fun some => ?_
        simp [unclaimed some own] at claims
      omega

/-- A batch, where `failed` runs have failed with the record before. -/
theorem Counting.batch (counting : x.Counting shelf count id) (good : shelf.Good w)
    {records : List JobRecord} {failed : Nat} (unspent : ∀ r ∈ records, r.isSpent = false)
    (copies : ∀ r ∈ records, r.id = id → r.attempts.toNat = n)
    (kept : shelf.tally count w id = none ∨ shelf.tally count w id = some (n + min 1 failed)) :
    (∃ results, ((x.runAll records).runAlone w).1 = .ok results) ∧
    (shelf.tally count ((x.runAll records).runAlone w).2 id = none ∨
      shelf.tally count ((x.runAll records).runAlone w).2 id =
        some (n + min 1 (failed + x.failures id (x.slots records w)))) ∧
    (x.runAll records).TallySteps shelf count id
      (fun before after => Within n before → Within n after) w ∧
    ((x.runAll records).TallySteps shelf count id Rises w ↔
      (0 < failed → ∀ s ∈ x.slots records w, s.1.id = id → x.claims s.1 s.2 = false) ∧
        x.Orderly id (x.slots records w)) := by
  induction records generalizing w failed with
  | nil =>
      refine ⟨⟨[], rfl⟩, kept, trivial, iff_of_true trivial ⟨by simp [slots], .nil⟩⟩
  | cons r rest ih =>
      have own := copies r List.mem_cons_self
      have countable := unspent r List.mem_cons_self
      have settles := counting.next good countable own kept
      obtain ⟨⟨results, given⟩, ends, within, rises⟩ := ih settles.good
        (fun r member => unspent r (List.mem_cons_of_mem _ member))
        (fun r member => copies r (List.mem_cons_of_mem _ member)) settles.tally
      obtain ⟨whole, after, path⟩ := runAll_of_whole rest settles.whole
      obtain ⟨result, all⟩ := whole results given
      have counted : x.failures id (x.slots (r :: rest) w) =
          x.failures id [(r, w)] + x.failures id (x.slots rest ((x.run none r).runAlone w).2) := by
        rw [slots, failures, List.countP_cons, Nat.add_comm, failures, failures,
          List.countP_singleton]
      refine ⟨⟨_, all⟩, ?_, (path _).mpr ⟨settles.steps, within⟩, ?_⟩
      · rw [after, counted, ← Nat.add_assoc]
        exact ends
      · -- A later run comes after a failure if one has failed before the batch, or the first does.
        have some : 0 < failed + x.failures id [(r, w)] ↔
            0 < failed ∨ r.id = id ∧ x.fails r w = true := by
          rw [failures, List.countP_singleton, Nat.add_pos_iff_pos_or_pos]
          by_cases both : r.id = id ∧ x.fails r w = true <;> simp [both]
        have first := counting.rises_iff good countable own kept
        refine (path _).trans ((and_congr first rises).trans ?_)
        rw [some, Orderly, Orderly, slots, List.pairwise_cons, List.forall_mem_cons]
        constructor
        · rintro ⟨first, later, orderly⟩
          refine ⟨fun some => ⟨first some, later (.inl some)⟩, ?_, orderly⟩
          intro s member own same fails
          exact later (.inr ⟨own, fails⟩) s member same
        · rintro ⟨unclaimed, next, orderly⟩
          refine ⟨fun some => (unclaimed some).1, ?_, orderly⟩
          rintro (some | ⟨own, fails⟩) s member same
          · exact (unclaimed some).2 s member same
          · exact next s member own same fails

/-- The number of attempts that a store keeps for a record after a batch, where the records of the
batch have been read from the store before it and none has the greatest number there is. No run
breaks off, and if the record is still there, its number is the number before and one more if any
run claimed it and failed: it counts every such run just if there is one at most. On the way the
number is one of these two. It never falls just if no run claims the record after another has
failed with it. -/
theorem attempts_after_batch (counting : x.Counting shelf count id) (good : shelf.Good w)
    {records : List JobRecord}
    (snapshots : ∀ r ∈ records, (x.backend.records.find r.id w).1 = .ok (some r))
    (unspent : ∀ r ∈ records, r.isSpent = false) (kept : shelf.tally count w id = some n) :
    let slots := x.slots records w
    let after := (x.runAll records).runAlone w
    (∃ results, after.1 = .ok results) ∧
    (∀ m, shelf.tally count after.2 id = some m → m = n + min 1 (x.failures id slots)) ∧
    (x.runAll records).Steps (fun _ w => ∀ m, shelf.tally count w id = some m → m = n ∨ m = n + 1)
      w ∧
    ((x.runAll records).Steps (fun w w' => ∀ m m', shelf.tally count w id = some m →
      shelf.tally count w' id = some m' → m ≤ m') w ↔ x.Orderly id slots) := by
  intro slots after
  have copies : ∀ r ∈ records, r.id = id → r.attempts.toNat = n := by
    rintro r member rfl
    have shown := counting.store.found r w good (snapshots r member)
    exact Option.some.inj (shown.symm.trans kept)
  have before : shelf.tally count w id = none ∨
      shelf.tally count w id = some (n + min 1 0) := .inr kept
  obtain ⟨results, ends, within, rises⟩ := counting.batch good unspent copies before
  refine ⟨results, ?_, ?_, ?_⟩
  · intro m left
    rw [Nat.zero_add] at ends
    rcases ends with gone | number
    · simp [after, gone] at left
    · exact Option.some.inj (left.symm.trans number)
  · have begins : Within n (shelf.tally count w id) := by
      intro m same
      exact .inl (Option.some.inj (same.symm.trans kept))
    exact within.always begins
  · refine rises.trans (and_iff_right ?_)
    exact fun some => absurd some (Nat.lt_irrefl 0)

end Executor

/-! ### Jobs that always fail -/

namespace Simulation

open Executor

variable {scripts : List Script} {lease : Span} {now : Instant}

/-- Without plans the store of a simulated world counts as it is told to. -/
theorem World.store_counts : (World.stillShelf now).Counts (·.attempts.toNat) World.records where
  toReliable := World.reliable
  written := fun _ _ => rfl
  found := by
    rintro r w ⟨unplanned, _⟩ shown
    have stored : w.store.get? r.id = some r := by
      have given : (World.records.find r.id w).1 = .ok (w.store.get? r.id) :=
        congrArg Prod.fst (World.planned_of_unplanned unplanned)
      exact Except.ok.inj (given.symm.trans shown)
    have cell : (World.stillShelf now).cell w r.id = some r := stored
    rw [Shelf.tally, cell, Option.map_some]

/-- Settled scripts leave the numbers of attempts alone. -/
theorem Script.counting (settled : Script.Settled scripts) :
    (Script.executor scripts lease).Counting (World.stillShelf now) (·.attempts.toNat) id where
  store := World.store_counts
  ticking := fun _ _ => ⟨fun still => still, fun _ => rfl⟩
  handlers := by
    intro jobType handler found context job
    obtain ⟨s, member, rfl, _⟩ := Script.script_of_get found
    obtain ⟨verdict, same⟩ := Option.isSome_iff_exists.mp (settled s member job)
    rw [Script.run_eq, Behaviour.run_of_verdict same]
    intro w good
    refine ⟨good, .inl rfl, ?_⟩
    cases s.pause with
    | some millis => exact fun _ => trivial
    | none => trivial

theorem failingExecutor_counting :
    failingExecutor.Counting (World.stillShelf ⟨0, 0⟩) (·.attempts.toNat) id :=
  Script.counting failingScripts_settled

/-- Two jobs that fail once each: the failure of the first is counted, and its number does not fall
on the way. -/
theorem attempts_after_batch_pair : let w := World.still (easyJobs ["a", "b"])
    let slots := failingExecutor.slots (easyJobs ["a", "b"]) w
    let after := (failingExecutor.runAll (easyJobs ["a", "b"])).runAlone w
    failingExecutor.failures "a" slots = 1 ∧
    (∀ m, (World.stillShelf ⟨0, 0⟩).tally (·.attempts.toNat) after.2 "a" = some m → m = 0 + 1) ∧
    (World.stillShelf ⟨0, 0⟩).tally (·.attempts.toNat) after.2 "a" = some 1 ∧
    (failingExecutor.runAll (easyJobs ["a", "b"])).Steps (fun w w' => ∀ m m',
      (World.stillShelf ⟨0, 0⟩).tally (·.attempts.toNat) w "a" = some m →
        (World.stillShelf ⟨0, 0⟩).tally (·.attempts.toNat) w' "a" = some m' → m ≤ m') w := by
  intro w slots after
  have snapshots : ∀ r ∈ easyJobs ["a", "b"],
      (failingExecutor.backend.records.find r.id w).1 = .ok (some r) := by
    intro r member
    rcases List.mem_cons.mp member with rfl | member
    · rfl
    · cases List.mem_singleton.mp member
      rfl
  have good : (World.stillShelf ⟨0, 0⟩).Good w := ⟨rfl, fun _ => rfl⟩
  have kept : (World.stillShelf ⟨0, 0⟩).tally (·.attempts.toNat) w "a" = some 0 := rfl
  have failures : failingExecutor.failures "a" slots = 1 := by decide +kernel
  have orderly : failingExecutor.Orderly "a" slots := by
    refine List.pairwise_pair.mpr fun _ other => ?_
    exact absurd other (by decide)
  have unspent : ∀ r ∈ easyJobs ["a", "b"], r.isSpent = false := by decide
  obtain ⟨_, counted, _, rises⟩ :=
    attempts_after_batch failingExecutor_counting good snapshots unspent kept
  refine ⟨failures, ?_, by decide +kernel, rises.mpr orderly⟩
  intro m left
  have counted' := counted m left
  rwa [show failingExecutor.failures "a" _ = 1 from failures] at counted'

/-- A job twice in one batch: it fails twice, and one attempt is counted. The second run saves its
claim with the number that it was given, which is less than the number stored. -/
theorem attempts_lost : let w := World.still (easyJobs ["a"])
    let slots := failingExecutor.slots (easyJobs ["a", "a"]) w
    let after := (failingExecutor.runAll (easyJobs ["a", "a"])).runAlone w
    (∀ r ∈ easyJobs ["a", "a"], (failingExecutor.backend.records.find r.id w).1 = .ok (some r)) ∧
    (World.stillShelf ⟨0, 0⟩).tally (·.attempts.toNat) w "a" = some 0 ∧
    failingExecutor.failures "a" slots = 2 ∧
    (World.stillShelf ⟨0, 0⟩).tally (·.attempts.toNat) after.2 "a" = some 1 ∧
    ¬ (failingExecutor.runAll (easyJobs ["a", "a"])).TallySteps (World.stillShelf ⟨0, 0⟩)
      (·.attempts.toNat) "a" Rises w := by
  intro w slots after
  have good : (World.stillShelf ⟨0, 0⟩).Good w := ⟨rfl, fun _ => rfl⟩
  have before : (World.stillShelf ⟨0, 0⟩).tally (·.attempts.toNat) w "a" = none ∨
      (World.stillShelf ⟨0, 0⟩).tally (·.attempts.toNat) w "a" = some (0 + min 1 0) := .inr rfl
  have same : ∀ r ∈ easyJobs ["a", "a"], r = easyJob "a" := by
    intro r member
    rcases List.mem_cons.mp member with first | second
    · exact first
    · exact List.mem_singleton.mp second
  refine ⟨?_, rfl, by decide +kernel, by decide +kernel, ?_⟩
  · intro r member
    rw [same r member]
    rfl
  · intro rises
    have copies : ∀ r ∈ easyJobs ["a", "a"], r.id = "a" → r.attempts.toNat = 0 := by
      intro r member _
      rw [same r member]
      rfl
    have unspent : ∀ r ∈ easyJobs ["a", "a"], r.isSpent = false := by decide
    obtain ⟨_, _, _, exact⟩ := failingExecutor_counting.batch good unspent copies before
    have orderly := (exact.mp rises).2
    have failed : failingExecutor.fails (easyJob "a") w = true := by decide +kernel
    have unclaimed := List.pairwise_pair.mp orderly rfl rfl failed
    exact absurd unclaimed (by decide +kernel)

end Simulation

end JobQueue
