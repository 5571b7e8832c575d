/-
Runs among workers, whatever they come to.

Runs may end in various ways, and what each of them leaves under the id of its record is what the
next run of that id finds (`Chained`). Where every run ends in one of the ways that are foreseen,
whatever others do under other ids, all runs of a batch do (`Fulfils`, `Fulfils.step`), in whatever
order the workers take and finish the records. Of a batch without an id twice, the answer then says
how each record's run ended, and no other record is touched (`Course.served`).

While a batch fits into channels and workers, its course never gets stuck
(`Course.exists_answer`).
-/

import JobQueue.Proofs.Job.Ending
import JobQueue.Proofs.Pool.Delivery
import Mathlib.Logic.Function.Basic

namespace JobQueue.Pool

variable {W C : Type} {shelf : Shelf W C} {id : String}

/-! ### Runs one after another -/

/-- How runs may end: what is kept under the id of a record before its run, how the run ended, and
what is kept after it. -/
abbrev Fates (C : Type) := JobRecord → Option C → Ended → Option C → Prop

/-- Runs of records that all have one id, one after another, with these results, from what is kept
under the id before them to what is kept after them. -/
def Chained (fates : Fates C) : List (JobRecord × JobResult) → Option C → Option C → Prop
  | [], before, after => before = after
  | (r, result) :: rest, before, after => ∃ ended middle,
      fates r before ended middle ∧ resultOf ended = result ∧ Chained fates rest middle after

/-- The ended runs of one id, with their results. -/
def runsOf (id : String) (l : List (Envelope × JobResult)) : List (JobRecord × JobResult) :=
  underId (fun entry => entry.1.record.id) (fun entry => (entry.1.record, entry.2)) id l

theorem map_fst_runsOf (l : List (Envelope × JobResult)) :
    (runsOf id l).map Prod.fst = ranOf id l := by
  rw [runsOf, ranOf, underId, underId, List.map_map]
  rfl

theorem map_snd_runsOf (l : List (Envelope × JobResult)) :
    (runsOf id l).map Prod.snd = gaveOf id l := by
  rw [runsOf, gaveOf, underId, underId, List.map_map]
  rfl

section Chained

variable {fates : Fates C} {runs : List (JobRecord × JobResult)} {before middle after : Option C}
  {r : JobRecord} {ended : Ended}

/-- One run more. -/
theorem Chained.snoc (chained : Chained fates runs before middle)
    (last : fates r middle ended after) :
    Chained fates (runs ++ [(r, resultOf ended)]) before after := by
  induction runs generalizing before with
  | nil =>
      subst chained
      exact ⟨ended, after, last, rfl, rfl⟩
  | cons run rest ih =>
      obtain ⟨ended', next, first, given, later⟩ := chained
      exact ⟨ended', next, first, given, ih later⟩

end Chained

variable {x : Executor W} {p q p₀ : Pool W} {event : Event} {events : List Event} {s : Submission}
  {number : Nat} {unsent unsent' : List (Nat × JobRecord)} {ledger ledger' : Ledger}
  {records : List JobRecord} {fin : List (Envelope × JobResult)} {e : Envelope}
  {result : JobResult} {fates : Fates C} {cells past : String → Option C}

/-! ### Runs among workers -/

theorem mem_atWork_iff : e ∈ p.atWork ↔ ∃ w ∈ p.workers, w.envelope? = some e := by
  rw [atWork, List.mem_filterMap]

theorem envelope?_eq_some {w : Worker W} :
    w.envelope? = some e ↔ ∃ task, w.state = .busy e task := by
  obtain ⟨state, timer⟩ := w
  cases state <;> simp [Worker.envelope?]

/-- What a worker works on beside the one that changes goes on. -/
theorem mem_atWork_of_set {i : Nat} {w w' : Worker W} (here : p.workers[i]? = some w)
    (workers : q.workers = p.workers.set i w') (there : e ∈ p.atWork) :
    w.envelope? = some e ∨ e ∈ q.atWork := by
  obtain ⟨others, old, new⟩ := perm_filterMap_set Worker.envelope? here
  rcases List.mem_append.mp (old.subset there) with own | other
  · exact Or.inl (Option.mem_toList.mp own)
  · apply Or.inr
    rw [atWork, workers]
    exact (new w').symm.subset (List.mem_append_right _ other)

/-- The workers beside one that is busy have other ids. -/
theorem Lossless.others {i : Nat} {w w' v : Worker W}
    (lossless : p.Lossless records number fin unsent ledger) (here : p.workers[i]? = some w)
    (held : w.envelope? = some e) (member : v ∈ p.workers.set i w') :
    v = w' ∨ v ∈ p.workers ∧ ∀ e', v.envelope? = some e' → e'.record.id ≠ e.record.id := by
  obtain ⟨before, after, split, set⟩ := exists_others here
  rw [set, List.mem_append, List.mem_cons] at member
  by_cases changed : v = w'
  · exact Or.inl changed
  · have other : v ∈ before ++ after := by simpa [changed] using member
    refine Or.inr ⟨?_, fun e' held' same => ?_⟩
    · rw [split, List.mem_append, List.mem_cons]
      rcases List.mem_append.mp other with left | right
      · exact Or.inl left
      · exact Or.inr (Or.inr right)
    · have alone := lossless.alone e.record.id
      have middle : p.atWork = before.filterMap Worker.envelope? ++
          e :: after.filterMap Worker.envelope? := by
        rw [atWork, split]
        simp [held]
      rw [middle, recordsOf, underId_append, underId_cons, if_pos rfl] at alone
      have one : 0 < (recordsOf e.record.id
          ((before ++ after).filterMap Worker.envelope?)).length :=
        List.length_pos_of_mem
          (mem_underId.mpr ⟨e', List.mem_filterMap.mpr ⟨v, other, held'⟩, same, rfl⟩)
      rw [recordsOf, List.filterMap_append, underId_append] at one
      simp only [List.length_append, List.length_singleton] at alone one
      omega

/-- Runs that have ended have ended as foreseen, and those that go on are on their way to such an
end. What is kept under an id is `past` when no run of it goes on. -/
structure Fulfils (shelf : Shelf W C) (fates : Fates C) (cells past : String → Option C)
    (fin : List (Envelope × JobResult)) (p : Pool W) : Prop where
  good : shelf.Good p.world
  ran : ∀ id, Chained fates (runsOf id fin) (cells id) (past id)
  busy : ∀ w ∈ p.workers, ∀ e task, w.state = .busy e task →
    task.Brings shelf e.record.id (fates e.record (past e.record.id))
      (shelf.cell p.world e.record.id)
  free : ∀ id, (∀ e ∈ p.atWork, e.record.id ≠ id) → shelf.cell p.world id = past id

/-- Where nobody works, all is as foreseen. -/
theorem fulfils_start (good : shelf.Good p.world) (idle : ∀ w ∈ p.workers, w.state = .idle) :
    p.Fulfils shelf fates (shelf.cell p.world) (shelf.cell p.world) [] where
  good := good
  ran := fun _ => rfl
  busy := fun w member _ _ busy => by cases (idle w member).symm.trans busy
  free := fun _ _ => rfl

/-- Where nobody's run goes on or ends, nothing changes. -/
theorem Fulfils.same (fulfils : p.Fulfils shelf fates cells past fin) (world : q.world = p.world)
    (busy : ∀ w ∈ q.workers, ∀ e task, w.state = .busy e task → w ∈ p.workers)
    (atWork : ∀ e ∈ p.atWork, e ∈ q.atWork) : q.Fulfils shelf fates cells past fin where
  good := world ▸ fulfils.good
  ran := fulfils.ran
  busy := fun w member e task state =>
    world ▸ fulfils.busy w (busy w member e task state) e task state
  free := fun id differs => world ▸ fulfils.free id fun e there => differs e (atWork e there)

/-- A worker takes a step of its run, or wakes up. -/
theorem Fulfils.go {i : Nat} {timer timer' : Option Timer} {task task' : Task W Ended}
    (fulfils : p.Fulfils shelf fates cells past fin)
    (lossless : p.Lossless records number fin unsent ledger)
    (busy : p.workers[i]? = some ⟨.busy e task, timer⟩)
    (workers : q.workers = p.workers.set i ⟨.busy e task', timer'⟩)
    (apart : shelf.SameBut e.record.id p.world q.world)
    (brings : task'.Brings shelf e.record.id (fates e.record (past e.record.id))
      (shelf.cell q.world e.record.id)) : q.Fulfils shelf fates cells past fin := by
  refine ⟨apart.good fulfils.good, fulfils.ran, fun w member e' task' state => ?_,
    fun id differs => ?_⟩
  · rw [workers] at member
    rcases lossless.others busy Worker.envelope?_busy member with rfl | ⟨old, others⟩
    · cases state
      exact brings
    · rw [apart.cell _ (others e' (envelope?_eq_some.mpr ⟨task', state⟩))]
      exact fulfils.busy w old e' task' state
  · have mine : e ∈ q.atWork := by
      refine mem_atWork_iff.mpr ⟨⟨.busy e task', timer'⟩, ?_, Worker.envelope?_busy⟩
      rw [workers]
      exact List.mem_set (List.getElem?_eq_some_iff.mp busy).1 _
    rw [apart.cell id fun same => differs e mine same.symm]
    apply fulfils.free id
    intro e' there
    rcases mem_atWork_of_set busy workers there with own | other
    · cases own
      exact differs e mine
    · exact differs e' other

/-- The run of a worker ends. -/
theorem Fulfils.finish {i : Nat} {timer timer' : Option Timer} {ended : Ended} {report : Report}
    (fulfils : p.Fulfils shelf fates cells past fin)
    (lossless : p.Lossless records number fin unsent ledger)
    (busy : p.workers[i]? = some ⟨.busy e (.done ended), timer⟩)
    (workers : q.workers = p.workers.set i ⟨.reporting report, timer'⟩)
    (world : q.world = p.world) :
    q.Fulfils shelf fates cells
      (Function.update past e.record.id (shelf.cell p.world e.record.id))
      (fin ++ [(e, resultOf ended)]) := by
  have met : fates e.record (past e.record.id) ended (shelf.cell p.world e.record.id) :=
    fulfils.busy _ (List.mem_of_getElem? busy) e _ rfl
  refine ⟨world ▸ fulfils.good, fun id => ?_, fun w member e' task state => ?_,
    fun id differs => ?_⟩
  · rw [runsOf, underId_append, underId_cons, underId_nil, List.append_nil]
    by_cases same : e.record.id = id
    · subst same
      rw [Function.update_self, if_pos rfl]
      exact (fulfils.ran e.record.id).snoc met
    · rw [Function.update_of_ne fun same' => same same'.symm, if_neg same, List.append_nil]
      exact fulfils.ran id
  · rw [workers] at member
    rcases lossless.others busy Worker.envelope?_busy member with rfl | ⟨old, others⟩
    · cases state
    · rw [world, Function.update_of_ne (others e' (envelope?_eq_some.mpr ⟨task, state⟩))]
      exact fulfils.busy w old e' task state
  · rw [world]
    by_cases same : e.record.id = id
    · subst same
      rw [Function.update_self]
    · rw [Function.update_of_ne fun same' => same same'.symm]
      apply fulfils.free id
      intro e' there
      rcases mem_atWork_of_set busy workers there with own | other
      · cases own
        exact same
      · exact differs e' other

/-- A worker takes a record that nobody else holds. -/
theorem Fulfils.take {i : Nat} {timer timer' : Option Timer} {task : Task W Ended}
    (fulfils : p.Fulfils shelf fates cells past fin)
    (idle : p.workers[i]? = some ⟨.idle, timer⟩)
    (workers : q.workers = p.workers.set i ⟨.busy e task, timer'⟩) (world : q.world = p.world)
    (nobody : recordsOf e.record.id p.atWork = [])
    (brings : ∀ before, task.Brings shelf e.record.id (fates e.record before) before) :
    q.Fulfils shelf fates cells past fin := by
  have kept : shelf.cell p.world e.record.id = past e.record.id := by
    apply fulfils.free _
    intro e' there same
    have held : e'.record ∈ recordsOf e.record.id p.atWork :=
      mem_underId.mpr ⟨e', there, same, rfl⟩
    rw [nobody] at held
    cases held
  refine ⟨world ▸ fulfils.good, fulfils.ran, fun w member e' task' state => ?_,
    fun id differs => ?_⟩
  · rw [workers] at member
    rcases List.mem_or_eq_of_mem_set member with old | rfl
    · rw [world]
      exact fulfils.busy w old e' task' state
    · cases state
      rw [world, kept]
      exact brings _
  · rw [world]
    apply fulfils.free id
    intro e' there
    rcases mem_atWork_of_set idle workers there with own | other
    · cases own
    · exact differs e' other

/-- Whatever happens while nothing is given up, runs end as foreseen. -/
theorem Fulfils.step (fulfils : p.Fulfils shelf fates cells past fin)
    (lossless : p.Lossless s.records number fin unsent ledger)
    (separate : Separate p.size s.records)
    (brings : ∀ worker r before, (x.run worker r).Brings shelf r.id (fates r before) before)
    (advance : Advance x number unsent ledger p event unsent' ledger' q)
    (calm : event.isCalm = true) :
    ∃ past', q.Fulfils shelf fates cells past' (fin ++ (p.finish? event).toList) := by
  have unmoved : q.workers = p.workers → q.world = p.world →
      q.Fulfils shelf fates cells past fin := fun workers world =>
    fulfils.same world (fun w member _ _ _ => workers ▸ member)
      fun e there => by rwa [atWork, workers]
  cases advance with
  | sendTimeout | collectTimeout | giveUp => cases calm
  | send _ _ _ _ workers world | collect _ _ _ _ workers world | elapse _ _ workers world =>
      exact ⟨past, by simpa [finish?] using unmoved workers world⟩
  | take idle next _ _ workers world =>
      have nobody := (lossless.nobody_holds separate idle (next ▸ List.mem_cons_self)).1
      have took := fulfils.take idle workers world nobody (brings _ _)
      exact ⟨past, by simpa [finish?] using took⟩
  | act busy _ _ workers world =>
      obtain ⟨apart, later⟩ := fulfils.busy _ (List.mem_of_getElem? busy) _ _ rfl p.world
        fulfils.good rfl
      have went := fulfils.go lossless busy workers (world ▸ apart) (world ▸ later)
      exact ⟨past, by simpa [finish?, workerState?, busy] using went⟩
  | finish busy _ _ workers world =>
      have finished := fulfils.finish lossless busy workers world
      exact ⟨_, by simpa [finish?, workerState?, busy] using finished⟩
  | wake busy woken _ _ workers world =>
      have unfinished : p.finish? event = none := by
        rcases woken with rfl | rfl <;> rfl
      have later := fulfils.busy _ (List.mem_of_getElem? busy) _ _ rfl
      have went := fulfils.go lossless busy workers (world ▸ Shelf.Same.refl.but)
        (world ▸ later _)
      exact ⟨past, by simpa [unfinished] using went⟩
  | deliver reporting _ _ _ workers world =>
      have still := fulfils.same world (fun w member e task state => ?_) fun e there => ?_
      · exact ⟨past, by simpa [finish?] using still⟩
      · rw [workers] at member
        rcases List.mem_or_eq_of_mem_set member with old | rfl
        · exact old
        · cases state
      · rcases mem_atWork_of_set reporting workers there with own | other
        · cases own
        · exact other

/-! ### Courses in which nothing is given up -/

/-- A worker that waits within its run for no longer than some time has a timer set. -/
def Timed (p : Pool W) : Prop := ∀ w ∈ p.workers, ∀ e ready millis next,
  w.state = .busy e (.wait ready (some millis) next) → ∃ timer, w.timer = some timer

theorem timed_set {i : Nat} {w : Worker W} (timed : p.Timed)
    (workers : q.workers = p.workers.set i w) (new : ∀ e ready millis next,
      w.state = .busy e (.wait ready (some millis) next) → ∃ timer, w.timer = some timer) :
    q.Timed := by
  intro w' member
  rw [workers] at member
  rcases List.mem_or_eq_of_mem_set member with old | rfl
  · exact timed w' old
  · exact new

theorem Timed.step (timed : p.Timed) (rule : Step x p event q) : q.Timed := by
  have unmoved : q.workers = p.workers → q.Timed := fun workers w member =>
    timed w (workers ▸ member)
  have goesOn : ∀ {i : Nat} {e : Envelope} {task : Task W Ended},
      q.workers = p.workers.set i ⟨.busy e task, p.timerFor task⟩ → q.Timed := by
    refine fun workers => timed_set timed workers fun e ready millis next waits => ?_
    cases waits
    exact ⟨_, rfl⟩
  have rests : ∀ {i : Nat} {state : WorkerState W} {timer : Option Timer},
      q.workers = p.workers.set i ⟨state, timer⟩ → (∀ e task, state ≠ .busy e task) → q.Timed :=
    fun workers notBusy => timed_set timed workers fun e _ _ _ waits => absurd waits (notBusy e _)
  cases rule with
  | submitEmpty | submitLate | submit | reject | collectClosed | shutdown | deadline | elapse =>
      exact unmoved rfl
  | turn | send | sendTimeout | sendClosed | collect | collectTimeout => exact unmoved (by simp)
  | take | act | ready | expire =>
      rw [setTask_eq] at goesOn ⊢
      exact goesOn rfl
  | finish | deliver | giveUp | stop | quit => exact rests rfl fun _ _ same => by cases same

/-- A pool that has gone on with a batch for some events without giving anything up. -/
structure Course (x : Executor W) (s : Submission) (p₀ : Pool W) (events : List Event)
    (p : Pool W) : Prop where
  run : p₀.replay x events = some p
  capacity : p.capacity = p₀.capacity
  size : p.size = p₀.size
  timed : p.Timed
  waits : ∀ allowed, x.WaitsOnly allowed → p.WaitsOnly allowed
  whole : Whole x s p₀ events p

/-- A batch that is handed in while nothing is going on begins its course. -/
theorem Quiet.course (quiet : p.Quiet) : Course x ⟨p.nextTicket, records⟩ (p.submit records).2 []
    (p.submit records).2 := by
  have idle : ∀ w ∈ (p.submit records).2.workers, w.state = .idle :=
    (submit_frame p records).2.2.1 ▸ quiet.idle
  exact {
    run := rfl
    capacity := rfl
    size := rfl
    timed := fun w member _ _ _ _ busy => by cases (idle w member).symm.trans busy
    waits := fun _ _ => waitsOnly_of_idle idle
    whole := quiet.whole }

theorem Course.step (course : Course x s p₀ events p) (separate : Separate p₀.size s.records)
    (rule : Step x p event q) (calm : event.isCalm = true) :
    Course x s p₀ (events ++ [event]) q where
  run := replay_snoc course.run rule
  capacity := rule.capacity_eq.trans course.capacity
  size := (course.whole.size_eq rule (Event.isInner_of_isCalm calm)).trans course.size
  timed := course.timed.step rule
  waits := fun allowed handlers => course.whole.waitsOnly (course.waits allowed handlers) handlers
    rule (Event.isInner_of_isCalm calm)
  whole := course.whole.step course.run rule calm (course.size ▸ separate)

/-- In the course of a batch runs end as foreseen. -/
theorem Course.fulfils_step (course : Course x s p₀ events p)
    (fulfils : p.Fulfils shelf fates cells past (p₀.finished x events))
    (brings : ∀ worker r before, (x.run worker r).Brings shelf r.id (fates r before) before)
    (separate : Separate p₀.size s.records) (rule : Step x p event q)
    (calm : event.isCalm = true) :
    ∃ past', q.Fulfils shelf fates cells past' (p₀.finished x (events ++ [event])) := by
  have inner := Event.isInner_of_isCalm calm
  rw [finished_snoc course.run]
  cases course.whole with
  | awaiting awaiting =>
      obtain ⟨world, workers, _, _, unfinished, _⟩ := awaiting.step rule inner
      have same : q.Fulfils shelf fates cells past (p₀.finished x events) :=
        fulfils.same world (fun w member _ _ _ => workers ▸ member) fun e there => by
          rwa [atWork, workers]
      exact ⟨past, by simpa [unfinished] using same⟩
  | serving serving lossless =>
      obtain ⟨_, _, _, advance⟩ := serving.step rule inner
      exact fulfils.step lossless (course.size ▸ separate) brings advance calm

/-- The slots of a batch that is answered after its course hold the results of the answer, and
nothing of it is on its way any more. -/
theorem Course.answered {results : List JobResult} (course : Course x s p₀ events p)
    (answered : p.answerOf? s.ticket = some results) : ∃ ledger : Ledger,
      ledger.slots = results.map some ∧ results.length = s.records.length ∧ p.atWork = [] ∧
      (∀ id, ranOf id (p₀.finished x events) = s.records.filter fun r => r.id == id) ∧
      ∀ id, gaveOf id (p₀.finished x events) =
        Ledger.filledOf id (s.records.map JobRecord.id) ledger.slots := by
  cases course.whole with
  | awaiting awaiting => simp [answerOf?_eq_none awaiting.fresh] at answered
  | @serving unsent ledger serving lossless =>
      obtain ⟨_, sentAll, settled, same⟩ := serving.of_answered answered
      subst sentAll
      have sound := serving.sound
      rw [List.length_nil, Nat.sub_zero, ← List.length_map JobRecord.id] at sound
      refine ⟨ledger, ?_, ?_, (lossless.settled settled).2.1,
        fun _ => lossless.ranOf_eq settled, fun _ => lossless.gaveOf_eq settled⟩
      · apply List.ext_getElem?
        intro i
        rw [same .poolShutdown]
        by_cases inside : i < (s.records.map JobRecord.id).length
        · obtain ⟨result, there⟩ := sound.filled_of_settled settled inside
          rw [there, List.getElem?_map, Ledger.getElem?_finish there, Option.map_some]
        · rw [List.getElem?_eq_none, List.getElem?_eq_none]
          · rw [List.length_map, Ledger.length_finish, sound.size]
            omega
          · rw [sound.size]
            omega
      · rw [same .poolShutdown, Ledger.length_finish, sound.size, List.length_map]

/-- While a batch fits and has no answer, something that gives nothing up leaves less to do. -/
theorem Course.advance (course : Course x s p₀ events p)
    (separate : Separate p₀.size s.records) (limited : x.WaitsOnly fun limit => limit.isSome)
    (space : 0 < p₀.capacity) (few : s.records.length ≤ p₀.room)
    (unanswered : p.answerOf? s.ticket = none) : ∃ more q, p.replay x more = some q ∧
      (∀ event ∈ more, event.isCalm = true) ∧
      Course x s p₀ (events ++ more) q ∧ Lower q p := by
  have once : ∀ {event q}, Step x p event q → event.isCalm = true → Lower q p →
      ∃ more q, p.replay x more = some q ∧ (∀ event ∈ more, event.isCalm = true) ∧
        Course x s p₀ (events ++ more) q ∧ Lower q p := by
    intro event q rule calm lower
    refine ⟨[event], q, ?_, ?_, course.step separate rule calm, lower⟩
    · simp [replay, step_of_rule rule]
    · simpa using calm
  cases course.whole with
  | awaiting awaiting =>
      have turn : Step x p .turn _ := Step.turn awaiting.free awaiting.next awaiting.early
      obtain ⟨_, workers, jobs, reports, _, ⟨⟨_, timed⟩, _⟩ | ⟨_, serving⟩⟩ :=
        awaiting.step turn rfl
      · cases timed
      · exact once turn rfl (awaiting.lower serving workers jobs reports)
  | serving serving lossless fits =>
      by_cases stuck : Stuck x p
      · obtain ⟨w, member, e, ready, limit, next, waits⟩ : ∃ w ∈ p.workers, ∃ e ready limit next,
            w.state = .busy e (.wait ready limit next) := by
          by_contra nobody
          have many := stuck.room_lt serving lossless fits
            (fun w member e ready limit next waits =>
              nobody ⟨w, member, e, ready, limit, next, waits⟩)
            (course.capacity ▸ space) unanswered
          rw [room, course.capacity, course.size] at many
          exact absurd few (Nat.not_le_of_lt many)
        obtain ⟨i, here⟩ := List.mem_iff_getElem?.mp member
        obtain ⟨bounded, _⟩ := course.waits _ limited w member e _ waits
        obtain ⟨millis, rfl⟩ := Option.isSome_iff_exists.mp bounded
        obtain ⟨timer, set⟩ := course.timed w member e ready millis next waits
        have busy :
            p.workers[i]? = some ⟨.busy e (.wait ready (some millis) next), some timer⟩ := by
          rw [here, ← waits, ← set]
        -- Time passes until the wait runs out.
        have pass : Step x p (.elapse (timer.due - p.now)) _ := Step.elapse
        obtain ⟨_, _, later, passed⟩ := serving.step pass rfl
        cases passed with
        | wake _ woken => rcases woken with same | same <;> cases same
        | elapse =>
            have wake : Step x { p with now := p.now + (timer.due - p.now) } (.expire i) _ :=
              Step.expire busy (show timer.due ≤ p.now + (timer.due - p.now) by omega)
            have course' := (course.step separate pass rfl).step separate wake rfl
            obtain ⟨_, _, awake, woken⟩ := later.step wake rfl
            rw [setTask_eq] at wake awake woken course'
            refine ⟨[.elapse (timer.due - p.now), .expire i], _, ?_, ?_,
              by simpa using course', ?_⟩
            · simp [replay, step_of_rule pass, step_of_rule wake]
            · simp [Event.isCalm, Event.isInner]
            · cases woken with
              | wake => exact serving.lower_of_next awake busy rfl rfl rfl (.wait false)
      · obtain ⟨event, q, timeless, rule⟩ := exists_rule_of_not_stuck stuck
        have calm := isCalm_of_isMove timeless
        obtain ⟨unsent', ledger', serving', advance⟩ :=
          serving.step rule (Event.isInner_of_isCalm calm)
        exact once rule calm (advance.lower serving serving' fun millis same => by
          subst same
          cases timeless)

/-- The course of a batch that fits can go on until the batch is answered. -/
theorem Course.exists_answer (course : Course x s p₀ events p)
    (separate : Separate p₀.size s.records) (limited : x.WaitsOnly fun limit => limit.isSome)
    (space : 0 < p₀.capacity) (few : s.records.length ≤ p₀.room) : ∃ more q,
      p.replay x more = some q ∧ (∀ event ∈ more, event.isCalm = true) ∧
        ∃ results, q.answerOf? s.ticket = some results := by
  induction p using wellFounded_lower.induction generalizing events with
  | _ p ih =>
      cases answered : p.answerOf? s.ticket with
      | some results => exact ⟨[], p, rfl, by simp, results, answered⟩
      | none =>
          obtain ⟨more, q, run, calm, course', lower⟩ :=
            course.advance separate limited space few answered
          obtain ⟨rest, q', run', calm', results, done⟩ := ih q lower course'
          refine ⟨more ++ rest, q', ?_, ?_, results, done⟩
          · rw [replay_append, run, Option.bind_some, run']
          · intro event member
            rcases List.mem_append.mp member with first | second
            · exact calm event first
            · exact calm' event second

/-! ### What becomes of a batch -/

/-- What has become of records that were run: the results say how each run ended, from what was kept
under its id before and left there after it, and no other id is touched. -/
structure Served (fates : Fates C) (records : List JobRecord) (cells : String → Option C)
    (results : List JobResult) (cells' : String → Option C) : Prop where
  each : List.Forall₂ (fun r result => ∃ ended, resultOf ended = result ∧
    fates r (cells r.id) ended (cells' r.id)) records results
  others : ∀ id, id ∉ records.map JobRecord.id → cells' id = cells id

/-- Where no id is named twice, a list of results that has the results of the runs of each id says
how each run ended. -/
theorem forall₂_of_chained {results : List JobResult} {cells' : String → Option C}
    (length : results.length = records.length) (nodup : (records.map JobRecord.id).Nodup)
    (chained : ∀ id ∈ records.map JobRecord.id, ∃ runs,
      runs.map Prod.fst = (records.filter fun r => r.id == id) ∧
      runs.map Prod.snd = Ledger.filledOf id (records.map JobRecord.id) (results.map some) ∧
      Chained fates runs (cells id) (cells' id)) :
    List.Forall₂ (fun r result => ∃ ended, resultOf ended = result ∧
      fates r (cells r.id) ended (cells' r.id)) records results := by
  induction records generalizing results with
  | nil =>
      rw [List.eq_nil_of_length_eq_zero length]
      exact .nil
  | cons r rest ih =>
      cases results with
      | nil => cases length
      | cons result results =>
          rw [List.map_cons, List.nodup_cons] at nodup
          refine .cons ?_ (ih (by simpa using length) nodup.2 fun id named => ?_)
          · obtain ⟨runs, ran, gave, chained⟩ := chained r.id List.mem_cons_self
            have alone : (rest.filter fun other => other.id == r.id) = [] := by
              rw [List.filter_eq_nil_iff]
              intro other member same
              exact nodup.1 (List.mem_map.mpr ⟨other, member, by simpa using same⟩)
            rw [List.filter_cons_of_pos (by simp), alone] at ran
            rw [List.map_cons, List.map_cons, Ledger.filledOf_cons, if_pos rfl] at gave
            obtain ⟨⟨r', result'⟩, rfl⟩ : ∃ run, runs = [run] := by
              refine List.length_eq_one_iff.mp ?_
              rw [← List.length_map Prod.fst, ran, List.length_singleton]
            obtain ⟨ended, middle, ends, given, rfl⟩ := chained
            simp only [List.map_cons, List.map_nil, List.cons.injEq, and_true] at ran
            simp only [List.map_cons, Option.toList_some, List.singleton_append,
              List.cons.injEq] at gave
            subst ran
            exact ⟨ended, given.trans gave.1, ends⟩
          · obtain ⟨runs, ran, gave, chained⟩ := chained id (List.mem_cons_of_mem _ named)
            have differs : r.id ≠ id := fun same => nodup.1 (same ▸ named)
            rw [List.filter_cons_of_neg (by simpa using differs)] at ran
            rw [List.map_cons, List.map_cons, Ledger.filledOf_cons, if_neg differs,
              Option.toList_none, List.nil_append] at gave
            exact ⟨runs, ran, gave, chained⟩

/-- A batch without an id twice that is answered after its course has been served. -/
theorem Course.served {results : List JobResult} (course : Course x s p₀ events p)
    (fulfils : p.Fulfils shelf fates cells past (p₀.finished x events))
    (nodup : (s.records.map JobRecord.id).Nodup)
    (answered : p.answerOf? s.ticket = some results) :
    Served fates s.records cells results (shelf.cell p.world) := by
  obtain ⟨ledger, slots, length, noWork, ran, gave⟩ := course.answered answered
  have left : ∀ id, shelf.cell p.world id = past id := fun id =>
    fulfils.free id (by simp [noWork])
  constructor
  · refine forall₂_of_chained length nodup fun id _ =>
      ⟨runsOf id (p₀.finished x events), ?_, ?_, ?_⟩
    · rw [map_fst_runsOf, ran]
    · rw [map_snd_runsOf, gave, slots]
    · rw [left]
      exact fulfils.ran id
  · intro id unnamed
    have none : (s.records.filter fun r => r.id == id) = [] := by
      rw [List.filter_eq_nil_iff]
      intro r member same
      exact unnamed (List.mem_map.mpr ⟨r, member, by simpa using same⟩)
    have empty : runsOf id (p₀.finished x events) = [] := by
      rw [← List.map_eq_nil_iff (f := Prod.fst), map_fst_runsOf, ran, none]
    have chained := fulfils.ran id
    rw [empty] at chained
    rw [left]
    exact chained.symm

end JobQueue.Pool
