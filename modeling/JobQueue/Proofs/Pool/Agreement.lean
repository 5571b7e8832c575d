/-
Workers and a single caller agree.

Where runs meet their fates whatever happens to other records (`Executor.Steady`), the records of
a batch give the results that they give one after another, and leave the same behind, in whatever
order the workers take and finish them. Under each id the runs come in the order of the batch and
meet the fates of that order (`Agrees`); and a list of results that has the fates of each id in
their order is the list of all fates in their order (`eq_inOrder`). A failure that cannot be counted
tells the two apart (`spentJob_apart`).
-/

import JobQueue.Proofs.Pool.Fulfilment
import JobQueue.Proofs.Simulation.Scripts

namespace JobQueue

variable {W C : Type} {shelf : Shelf W C} {id : String}

namespace Pool

/-! ### One after another -/

/-- Fates of records that all have one id, one after another, from what is kept under it. -/
def chain (fate : JobRecord → Option C → Ended × Option C) :
    List JobRecord → Option C → List JobResult × Option C
  | [], cell => ([], cell)
  | r :: rest, cell =>
      let later := chain fate rest (fate r cell).2
      (resultOf (fate r cell).1 :: later.1, later.2)

/-- Fates of records, one after another, from what is kept under all ids. -/
def inOrder (fate : JobRecord → Option C → Ended × Option C) :
    List JobRecord → (String → Option C) → List JobResult × (String → Option C)
  | [], cells => ([], cells)
  | r :: rest, cells =>
      let ended := fate r (cells r.id)
      let later := inOrder fate rest (Function.update cells r.id ended.2)
      (resultOf ended.1 :: later.1, later.2)

section InOrder

variable {fate : JobRecord → Option C → Ended × Option C} {rs : List JobRecord}
  {cells : String → Option C} {results : List JobResult}

/-- What is kept under an id in the end is what the records of that id have left there. -/
theorem inOrder_cell : (inOrder fate rs cells).2 id =
    (chain fate (rs.filter fun r => r.id == id) (cells id)).2 := by
  induction rs generalizing cells with
  | nil => rfl
  | cons r rest ih =>
      rw [inOrder]
      dsimp only
      rw [ih]
      by_cases same : r.id = id
      · rw [List.filter_cons_of_pos (by simpa using same), chain, ← same, Function.update_self]
      · rw [List.filter_cons_of_neg (by simpa using same),
          Function.update_of_ne fun other => same other.symm]

/-- A list of results that has the fates of each id in their order is the list of all fates in
their order. -/
theorem eq_inOrder (length : results.length = rs.length)
    (fates : ∀ id, Ledger.filledOf id (rs.map JobRecord.id) (results.map some) =
      (chain fate (rs.filter fun r => r.id == id) (cells id)).1) :
    results = (inOrder fate rs cells).1 := by
  induction rs generalizing cells results with
  | nil => exact List.eq_nil_of_length_eq_zero length
  | cons r rest ih =>
      cases results with
      | nil => cases length
      | cons result results =>
          have own := fates r.id
          rw [List.filter_cons_of_pos (by simp), chain, List.map_cons, List.map_cons,
            Ledger.filledOf_cons, if_pos rfl, Option.toList_some, List.singleton_append,
            List.cons.injEq] at own
          obtain ⟨here, later⟩ := own
          rw [inOrder, here]
          refine congrArg _ (ih (by simpa using length) fun id => ?_)
          by_cases same : id = r.id
          · rw [same, Function.update_self]
            exact later
          · have others := fates id
            have differs : r.id ≠ id := fun same' => same same'.symm
            rw [List.filter_cons_of_neg (by simpa using differs), List.map_cons, List.map_cons,
              Ledger.filledOf_cons, if_neg differs, Option.toList_none, List.nil_append] at others
            rw [Function.update_of_ne same, ← others]

end InOrder

end Pool

namespace Executor

open Pool

variable {x : Executor W} {now : Instant} {verdict : Verdict C} {r : JobRecord}

/-- Records run one after another, with nobody else at work, meet their fates in their order, if
their failures can be counted. -/
theorem Steady.runAll_eq (steady : x.Steady shelf now verdict) {records : List JobRecord} {w : W}
    (counted : ∀ r ∈ records, x.overflows r = false) (good : shelf.Good w) : ∃ w',
      (x.runAll records).runAlone w =
        (.ok (inOrder (x.fate shelf now verdict) records (shelf.cell w)).1, w') ∧
      shelf.cell w' = (inOrder (x.fate shelf now verdict) records (shelf.cell w)).2 := by
  induction records generalizing w with
  | nil => exact ⟨w, rfl, rfl⟩
  | cons r rest ih =>
      have leads : (x.run none r).Leads shelf r.id
          (x.fate shelf now verdict r (shelf.cell w r.id)).1
          (x.fate shelf now verdict r (shelf.cell w r.id)).2 (shelf.cell w r.id) :=
        steady.leads_run
      obtain ⟨ended, good', kept, apart⟩ := leads.runAlone good
      have cells : shelf.cell ((x.run none r).runAlone w).2 = Function.update (shelf.cell w) r.id
          (x.fate shelf now verdict r (shelf.cell w r.id)).2 := by
        funext id
        by_cases same : id = r.id
        · rw [same, Function.update_self, kept]
        · rw [Function.update_of_ne same, apart.cell id same]
      obtain ⟨w', later, kept'⟩ :=
        ih (fun r member => counted r (List.mem_cons_of_mem _ member)) good'
      rw [cells] at later kept'
      obtain ⟨result, whole⟩ : ∃ result, (x.fate shelf now verdict r (shelf.cell w r.id)).1.result =
          Except.mapError Fault.error result :=
        fate_result (counted r List.mem_cons_self)
      have given : resultOf (x.fate shelf now verdict r (shelf.cell w r.id)).1 = result := by
        rw [resultOf, whole]
        cases result <;> rfl
      refine ⟨w', ?_, ?_⟩
      · rw [runAll_cons, Task.runAlone_bind, ended, inOrder]
        dsimp only
        rw [given]
        cases result with
        | ok u =>
            have clear : (x.fate shelf now verdict r (shelf.cell w r.id)).1.result = .ok u := whole
            simp [clear, Task.runAlone_bind, later, Task.runAlone, Except.map]
        | error e =>
            have failed : (x.fate shelf now verdict r (shelf.cell w r.id)).1.result =
              .error (.error e) := whole
            simp [failed, Task.runAlone_bind, later, Task.runAlone, Except.map]
      · rw [kept', inOrder]

end Executor

namespace Pool

variable {x : Executor W} {p q : Pool W} {event : Event} {events : List Event} {s : Submission}
  {number : Nat} {unsent unsent' : List (Nat × JobRecord)} {ledger ledger' : Ledger}
  {records : List JobRecord} {fin : List (Envelope × JobResult)} {e : Envelope}
  {result : JobResult} {fate : JobRecord → Option C → Ended × Option C}
  {cells : String → Option C}

/-! ### Runs that meet their fates -/

/-- What the ended runs of an id have left under it, and the results they have given. -/
def pastOf (fate : JobRecord → Option C → Ended × Option C) (cells : String → Option C)
    (fin : List (Envelope × JobResult)) (id : String) : List JobResult × Option C :=
  chain fate (ranOf id fin) (cells id)

/-- Runs that have ended have met their fates, and those that go on are on their way to them. -/
structure Agrees (shelf : Shelf W C) (fate : JobRecord → Option C → Ended × Option C)
    (cells : String → Option C) (fin : List (Envelope × JobResult)) (p : Pool W) : Prop where
  good : shelf.Good p.world
  gave : ∀ id, gaveOf id fin = (pastOf fate cells fin id).1
  busy : ∀ w ∈ p.workers, ∀ e task, w.state = .busy e task →
    task.Leads shelf e.record.id (fate e.record (pastOf fate cells fin e.record.id).2).1
      (fate e.record (pastOf fate cells fin e.record.id).2).2 (shelf.cell p.world e.record.id)
  free : ∀ id, (∀ e ∈ p.atWork, e.record.id ≠ id) →
    shelf.cell p.world id = (pastOf fate cells fin id).2

/-- Runs that meet their fates. -/
def fatesOf (fate : JobRecord → Option C → Ended × Option C) : Fates C :=
  fun r before ended after => ended = (fate r before).1 ∧ after = (fate r before).2

/-- Runs of one id that meet their fates one after another give the results of the fates, and leave
what they leave. -/
theorem chained_fatesOf_iff {runs : List (JobRecord × JobResult)} {before after : Option C} :
    Chained (fatesOf fate) runs before after ↔
      runs.map Prod.snd = (chain fate (runs.map Prod.fst) before).1 ∧
        after = (chain fate (runs.map Prod.fst) before).2 := by
  induction runs generalizing before with
  | nil => simp [Chained, chain, eq_comm]
  | cons run rest ih =>
      obtain ⟨r, result⟩ := run
      simp only [Chained, fatesOf, List.map_cons, chain, List.cons.injEq]
      constructor
      · rintro ⟨_, _, ⟨rfl, rfl⟩, rfl, later⟩
        obtain ⟨gave, left⟩ := ih.mp later
        exact ⟨⟨rfl, gave⟩, left⟩
      · rintro ⟨⟨rfl, gave⟩, left⟩
        exact ⟨_, _, ⟨rfl, rfl⟩, rfl, ih.mpr ⟨gave, left⟩⟩

/-- Runs agree with their fates just if they end in the one way that is foreseen. -/
theorem agrees_iff_fulfils : p.Agrees shelf fate cells fin ↔
    ∃ past, p.Fulfils shelf (fatesOf fate) cells past fin := by
  constructor
  · intro agrees
    refine ⟨fun id => (pastOf fate cells fin id).2, agrees.good, fun id => ?_,
      fun w member e task state => ?_, agrees.free⟩
    · rw [chained_fatesOf_iff, map_snd_runsOf, map_fst_runsOf]
      exact ⟨agrees.gave id, rfl⟩
    · exact Task.leads_iff_brings.mp (agrees.busy w member e task state)
  · rintro ⟨past, fulfils⟩
    have runs : ∀ id, gaveOf id fin = (pastOf fate cells fin id).1 ∧
        past id = (pastOf fate cells fin id).2 := by
      intro id
      have chained := chained_fatesOf_iff.mp (fulfils.ran id)
      rwa [map_snd_runsOf, map_fst_runsOf] at chained
    refine ⟨fulfils.good, fun id => (runs id).1, fun w member e task state => ?_,
      fun id differs => ?_⟩
    · rw [← (runs e.record.id).2]
      exact Task.leads_iff_brings.mpr (fulfils.busy w member e task state)
    · rw [← (runs id).2]
      exact fulfils.free id differs

/-! ### Courses in which nothing is given up -/

variable {p₀ : Pool W}

/-- A pool that has gone on with a batch for some events without giving anything up, and whose runs
have met their fates. -/
structure Smooth (x : Executor W) (shelf : Shelf W C)
    (fate : JobRecord → Option C → Ended × Option C) (s : Submission) (p₀ : Pool W)
    (events : List Event) (p : Pool W) : Prop extends Course x s p₀ events p where
  agrees : p.Agrees shelf fate (shelf.cell p₀.world) (p₀.finished x events)

/-- In a pool where nobody works, everything agrees. -/
theorem agrees_start (good : shelf.Good p.world) (idle : ∀ w ∈ p.workers, w.state = .idle) :
    p.Agrees shelf fate (shelf.cell p.world) [] :=
  agrees_iff_fulfils.mpr ⟨_, fulfils_start good idle⟩

theorem Smooth.step (smooth : Smooth x shelf fate s p₀ events p)
    (leads : ∀ worker r before, (x.run worker r).Leads shelf r.id (fate r before).1
      (fate r before).2 before)
    (separate : Separate p₀.size s.records) (rule : Step x p event q)
    (calm : event.isCalm = true) : Smooth x shelf fate s p₀ (events ++ [event]) q := by
  refine ⟨smooth.toCourse.step separate rule calm, agrees_iff_fulfils.mpr ?_⟩
  obtain ⟨past, fulfils⟩ := agrees_iff_fulfils.mp smooth.agrees
  exact smooth.toCourse.fulfils_step fulfils
    (fun worker r before => Task.leads_iff_brings.mp (leads worker r before)) separate rule calm

/-- A batch that is answered after a smooth course has the fates of its records in their order,
and so has the store. -/
theorem Smooth.agreed {results : List JobResult} (smooth : Smooth x shelf fate s p₀ events p)
    (answered : p.answerOf? s.ticket = some results) :
    results = (inOrder fate s.records (shelf.cell p₀.world)).1 ∧
      ∀ id, shelf.cell p.world id = (inOrder fate s.records (shelf.cell p₀.world)).2 id := by
  obtain ⟨ledger, slots, length, noWork, ran, gave⟩ := smooth.toCourse.answered answered
  refine ⟨eq_inOrder length fun id => ?_, fun id => ?_⟩
  · rw [← slots, ← gave, smooth.agrees.gave, pastOf, ran]
  · have free : ∀ e ∈ p.atWork, e.record.id ≠ id := by simp [noWork]
    rw [smooth.agrees.free id free, pastOf, ran, inOrder_cell]

/-- A course in which the second of two workers takes the second of two jobs, and finishes it
first. -/
def crossing : List Event :=
  [.turn, .send, .send, .take 0, .take 1, .run 1, .run 1, .run 1, .run 1, .run 1, .deliver 1,
    .run 0, .run 0, .run 0, .run 0, .run 0, .deliver 0, .collect, .collect]

open Simulation in
/-- A job with the greatest number of attempts. -/
def spentJob : JobRecord := { easyJob "a" with attempts := 4294967295 }

/-- A course in which a worker takes a job that fails, and its run breaks off. -/
def breaking : List Event :=
  [.turn, .send, .take 0, .run 0, .run 0, .run 0, .run 0, .run 0, .deliver 0, .collect]

end Pool

end JobQueue
