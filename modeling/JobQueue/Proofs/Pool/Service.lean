/-
A pool that serves one batch.

No other batch waits, nobody has asked for a shutdown and no worker has stopped. Then the batch
can only be sent on, be given reports, wait too long, or be answered, while the workers do their
work (`Advance`), and the pool keeps serving it until it is answered (`Serving.step`). It does not
matter here whether something of the batch is lost.
-/

import JobQueue.Proofs.Pool.Lossless
import JobQueue.Proofs.Pool.Turn

namespace JobQueue.Pool

variable {W : Type} {x : Executor W} {p q : Pool W} {event : Event}

/-- Whether an event is a matter of the pool and not of those who use it. -/
def Event.isInner : Event → Bool
  | .submit _ | .shutdown | .deadline => false
  | _ => true

/-- Where the batch stands: its turn goes on, or it has its answer. -/
inductive Place (s : Submission) (number : Nat) (unsent : List (Nat × JobRecord))
    (ledger : Ledger) (p : Pool W) : Prop where
  | active {timer : Timer} (active : p.active = some ⟨s.ticket, number, unsent, ledger, timer⟩)
      (busy : ¬ (unsent = [] ∧ ledger.outstanding = 0))
  | answered (free : p.active = none) (sentAll : unsent = []) (settled : ledger.outstanding = 0)
      (answer : ∀ e, p.answerOf? s.ticket = some (ledger.finish e))

/-- A pool that serves one batch only, with these records unsent and these accounts. -/
structure Serving (s : Submission) (number : Nat) (unsent : List (Nat × JobRecord))
    (ledger : Ledger) (p : Pool W) : Prop where
  early : p.isShutdown = false
  staying : p.isQuitting = false
  /-- No worker has stopped. -/
  standing : ∀ w ∈ p.workers, w.isStopped = false
  manned : 0 < p.size
  alone : p.waiting = []
  ticketed : p.Ticketed
  sound : ledger.Sound (s.records.map JobRecord.id) (s.records.length - unsent.length)
  left : unsent = (indexed s.records).drop (s.records.length - unsent.length)
  place : p.Place s number unsent ledger

/-- What an inner event does to a pool that serves a batch: the records that are unsent and the
accounts after it, and what it does to channels, workers and world. -/
inductive Advance (x : Executor W) (number : Nat) (unsent : List (Nat × JobRecord))
    (ledger : Ledger) (p : Pool W) :
    Event → List (Nat × JobRecord) → Ledger → Pool W → Prop where
  | send {q : Pool W} {index : Nat} {r : JobRecord} {rest : List (Nat × JobRecord)}
      (next : unsent = (index, r) :: rest) (room : p.jobs.length < p.capacity)
      (jobs : q.jobs = p.jobs ++ [⟨number, r⟩]) (reports : q.reports = p.reports)
      (workers : q.workers = p.workers) (world : q.world = p.world) :
      Advance x number unsent ledger p .send rest (ledger.sent r.id index) q
  | sendTimeout {q : Pool W} {index : Nat} {r : JobRecord} {rest : List (Nat × JobRecord)}
      (next : unsent = (index, r) :: rest) (jobs : q.jobs = p.jobs)
      (reports : q.reports = p.reports) (workers : q.workers = p.workers)
      (world : q.world = p.world) :
      Advance x number unsent ledger p .sendTimeout rest
        (ledger.refused index (.enqueueTimeout r.id p.limits.send)) q
  | collect {q : Pool W} {report : Report} {rest : List Report} (sentAll : unsent = [])
      (next : p.reports = report :: rest) (jobs : q.jobs = p.jobs) (reports : q.reports = rest)
      (workers : q.workers = p.workers) (world : q.world = p.world) :
      Advance x number unsent ledger p .collect []
        (if report.batch = number then ledger.receive report.jobId report.result else ledger) q
  | collectTimeout {q : Pool W} (sentAll : unsent = []) (outstanding : 0 < ledger.outstanding)
      (jobs : q.jobs = p.jobs) (reports : q.reports = p.reports) (workers : q.workers = p.workers)
      (world : q.world = p.world) :
      Advance x number unsent ledger p .collectTimeout [] (ledger.expire p.missing) q
  | take {q : Pool W} {i : Nat} {timer timer' : Option Timer} {e : Envelope}
      {rest : List Envelope} (idle : p.workers[i]? = some ⟨.idle, timer⟩)
      (next : p.jobs = e :: rest) (jobs : q.jobs = rest) (reports : q.reports = p.reports)
      (workers : q.workers = p.workers.set i ⟨.busy e (x.run (some i) e.record), timer'⟩)
      (world : q.world = p.world) :
      Advance x number unsent ledger p (.take i) unsent ledger q
  | act {q : Pool W} {i : Nat} {timer timer' : Option Timer} {e : Envelope} {update : W → W}
      {next : W → Task W Ended}
      (busy : p.workers[i]? = some ⟨.busy e (.act update next), timer⟩) (jobs : q.jobs = p.jobs)
      (reports : q.reports = p.reports)
      (workers : q.workers = p.workers.set i ⟨.busy e (next p.world), timer'⟩)
      (world : q.world = update p.world) :
      Advance x number unsent ledger p (.run i) unsent ledger q
  | finish {q : Pool W} {i : Nat} {timer timer' : Option Timer} {e : Envelope} {ended : Ended}
      (busy : p.workers[i]? = some ⟨.busy e (.done ended), timer⟩) (jobs : q.jobs = p.jobs)
      (reports : q.reports = p.reports)
      (workers : q.workers =
        p.workers.set i ⟨.reporting ⟨e.batch, e.record.id, resultOf ended⟩, timer'⟩)
      (world : q.world = p.world) :
      Advance x number unsent ledger p (.run i) unsent ledger q
  | wake {q : Pool W} {event : Event} {i : Nat} {timer timer' : Option Timer} {e : Envelope}
      {ready : W → Bool} {limit : Option Nat} {next : Bool → Task W Ended} {came : Bool}
      (busy : p.workers[i]? = some ⟨.busy e (.wait ready limit next), timer⟩)
      (woken : event = .ready i ∨ event = .expire i) (jobs : q.jobs = p.jobs)
      (reports : q.reports = p.reports)
      (workers : q.workers = p.workers.set i ⟨.busy e (next came), timer'⟩)
      (world : q.world = p.world) :
      Advance x number unsent ledger p event unsent ledger q
  | deliver {q : Pool W} {i : Nat} {timer : Option Timer} {report : Report}
      (reporting : p.workers[i]? = some ⟨.reporting report, timer⟩)
      (room : p.reports.length < p.capacity) (jobs : q.jobs = p.jobs)
      (reports : q.reports = p.reports ++ [report])
      (workers : q.workers = p.workers.set i ⟨.idle, none⟩) (world : q.world = p.world) :
      Advance x number unsent ledger p (.deliver i) unsent ledger q
  | giveUp {q : Pool W} {i : Nat} {timer : Option Timer} {report : Report}
      (reporting : p.workers[i]? = some ⟨.reporting report, timer⟩) (jobs : q.jobs = p.jobs)
      (reports : q.reports = p.reports) (workers : q.workers = p.workers.set i ⟨.idle, none⟩)
      (world : q.world = p.world) :
      Advance x number unsent ledger p (.giveUp i) unsent ledger q
  | elapse {q : Pool W} {millis : Nat} (jobs : q.jobs = p.jobs) (reports : q.reports = p.reports)
      (workers : q.workers = p.workers) (world : q.world = p.world) :
      Advance x number unsent ledger p (.elapse millis) unsent ledger q

variable {s : Submission} {number : Nat} {unsent unsent' rest : List (Nat × JobRecord)}
  {ledger ledger' : Ledger} {timer : Timer} {u : JobError}

/-- A batch is answered once nothing of it is left to do, and not before. -/
theorem Serving.of_answered {results : List JobResult} (serving : p.Serving s number unsent ledger)
    (answered : p.answerOf? s.ticket = some results) :
    p.active = none ∧ unsent = [] ∧ ledger.outstanding = 0 ∧ ∀ e, results = ledger.finish e := by
  cases serving.place with
  | active active =>
      simp [answerOf?_eq_none (serving.ticketed.unanswered active)] at answered
  | answered free sentAll settled answer =>
      exact ⟨free, sentAll, settled, fun e => Option.some.inj (answered.symm.trans (answer e))⟩

/-- Not all workers have stopped. -/
theorem Serving.not_allStopped (serving : p.Serving s number unsent ledger) :
    p.allStopped = false := by
  have manned := serving.manned
  rw [size] at manned
  cases workers : p.workers with
  | nil => simp [workers] at manned
  | cons w more =>
      have standing := serving.standing w (by simp [workers])
      simp [allStopped, workers, standing]

/-- The batch goes on with other accounts. -/
theorem Place.proceed (fresh : s.ticket ∉ p.answers.map Prod.fst)
    (sound : ledger.Sound (s.records.map JobRecord.id) (s.records.length - unsent.length)) :
    (p.proceed ⟨s.ticket, number, unsent, ledger, timer⟩ u).Place s number unsent ledger := by
  by_cases done : isDone (Batch.mk s.ticket number unsent ledger timer)
  · rw [proceed_of_done done]
    obtain ⟨sentAll, settled⟩ : unsent = [] ∧ ledger.outstanding = 0 := done
    apply Place.answered rfl sentAll settled
    intro e
    rw [sentAll, List.length_nil, Nat.sub_zero, ← List.length_map JobRecord.id] at sound
    rw [sound.finish_eq settled e u]
    exact answerOf?_answer (p := { p with active := none }) fresh
  · rw [proceed_of_not_done done]
    exact Place.active rfl done

/-- Changing one worker keeps the workers standing that stood. -/
theorem standing_set {ws : List (Worker W)} {i : Nat} {w : Worker W}
    (standing : ∀ w ∈ ws, w.isStopped = false) (new : w.isStopped = false) :
    ∀ w' ∈ ws.set i w, w'.isStopped = false := by
  intro w' member
  rcases List.mem_or_eq_of_mem_set member with old | rfl
  · exact standing w' old
  · exact new

/-- A pool goes on serving while its workers work. -/
theorem Serving.of_worker {i : Nat} {w : Worker W} (serving : p.Serving s number unsent ledger)
    (ticketed : q.Ticketed) (workers : q.workers = p.workers.set i w) (new : w.isStopped = false)
    (early : q.isShutdown = p.isShutdown) (staying : q.isQuitting = p.isQuitting)
    (waiting : q.waiting = p.waiting) (active : q.active = p.active)
    (answers : q.answers = p.answers) : q.Serving s number unsent ledger where
  early := early.trans serving.early
  staying := staying.trans serving.staying
  standing := workers ▸ standing_set serving.standing new
  manned := by
    rw [size, workers, List.length_set]
    exact serving.manned
  alone := waiting.trans serving.alone
  ticketed := ticketed
  sound := serving.sound
  left := serving.left
  place := by
    cases serving.place with
    | active before busy => exact Place.active (active.trans before) busy
    | answered free sentAll settled answer =>
        apply Place.answered (active.trans free) sentAll settled
        intro e
        rw [answerOf?, answers]
        exact answer e

/-- A pool goes on serving with the accounts that its batch goes on with. -/
theorem Serving.of_proceed (serving : p.Serving s number unsent ledger)
    (active : p.active = some ⟨s.ticket, number, unsent, ledger, timer⟩) {p' : Pool W}
    {timer' : Timer}
    (ticketed : (p'.proceed ⟨s.ticket, number, unsent', ledger', timer'⟩ u).Ticketed)
    (workers : p'.workers = p.workers) (early : p'.isShutdown = p.isShutdown)
    (staying : p'.isQuitting = p.isQuitting) (waiting : p'.waiting = p.waiting)
    (answers : p'.answers = p.answers)
    (sound : ledger'.Sound (s.records.map JobRecord.id) (s.records.length - unsent'.length))
    (left : unsent' = (indexed s.records).drop (s.records.length - unsent'.length)) :
    (p'.proceed ⟨s.ticket, number, unsent', ledger', timer'⟩ u).Serving s number unsent' ledger'
    where
  early := by rw [proceed_isShutdown, early, serving.early]
  staying := by rw [proceed_isQuitting, staying, serving.staying]
  standing := by
    rw [proceed_workers, workers]
    exact serving.standing
  manned := by
    rw [size, proceed_workers, workers]
    exact serving.manned
  alone := by rw [proceed_waiting, waiting, serving.alone]
  ticketed := ticketed
  sound := sound
  left := left
  place := by
    refine Place.proceed ?_ sound
    rw [answers]
    exact serving.ticketed.unanswered active

/-- The record that is tried next, and what it does to those that are left. -/
theorem Serving.next {index : Nat} {r : JobRecord} (serving : p.Serving s number unsent ledger)
    (next : unsent = (index, r) :: rest) :
    index = s.records.length - unsent.length ∧ s.records[index]? = some r ∧
      s.records.length - rest.length = index + 1 ∧
      rest = (indexed s.records).drop (s.records.length - rest.length) := by
  obtain ⟨place, record, later⟩ := Accounts.of_cons_eq_drop (next.symm.trans serving.left)
  have size := congrArg List.length later
  rw [List.length_drop, Accounts.length_indexed] at size
  have inside := (List.getElem?_eq_some_iff.mp record).1
  have tried : s.records.length - rest.length = index + 1 := by omega
  exact ⟨place, place ▸ record, tried, by rw [tried, place]; exact later⟩

/-- A pool that serves a batch goes on serving it, whatever happens inside. -/
theorem Serving.step (serving : p.Serving s number unsent ledger) (rule : Step x p event q)
    (inner : event.isInner = true) : ∃ unsent' ledger', q.Serving s number unsent' ledger' ∧
      Advance x number unsent ledger p event unsent' ledger' q := by
  have ticketed := serving.ticketed.step rule
  have current : ∀ {b}, p.active = some b → ∃ timer, b = ⟨s.ticket, number, unsent, ledger, timer⟩ ∧
      ¬ (unsent = [] ∧ ledger.outstanding = 0) := by
    intro b active
    cases serving.place with
    | active active' busy => exact ⟨_, Option.some.inj (active.symm.trans active'), busy⟩
    | answered free => simp [free] at active
  cases rule with
  | submitEmpty | submitLate | submit | shutdown | deadline => cases inner
  | reject _ next | turn _ next => simp [serving.alone] at next
  | sendClosed _ _ dead | collectClosed _ _ _ dead => simp [serving.not_allStopped] at dead
  | stop _ _ closed => simp [jobsClosed, serving.early] at closed
  | quit _ told => simp [serving.staying] at told
  | @send _ index r rest active next room =>
      obtain ⟨timer, rfl, busy⟩ := current active
      obtain ⟨place, record, tried, left⟩ := serving.next next
      have sound := serving.sound
      rw [← place] at sound
      refine ⟨rest, ledger.sent r.id index, ?_, ?_⟩
      · refine serving.of_proceed active ticketed rfl rfl rfl rfl rfl ?_ left
        rw [tried]
        exact sound.sent (by simp [record])
      · exact Advance.send next room (by simp) (by simp) (by simp) (by simp)
  | @sendTimeout _ index r rest active next =>
      obtain ⟨timer, rfl, busy⟩ := current active
      obtain ⟨place, record, tried, left⟩ := serving.next next
      have sound := serving.sound
      rw [← place] at sound
      refine ⟨rest, _, ?_, Advance.sendTimeout next (by simp) (by simp) (by simp) (by simp)⟩
      refine serving.of_proceed active ticketed rfl rfl rfl rfl rfl ?_ left
      rw [tried]
      exact sound.refused (by simpa using (List.getElem?_eq_some_iff.mp record).1)
  | @collect _ report rest active sentAll next =>
      obtain ⟨timer, rfl, busy⟩ := current active
      have sentAll : unsent = [] := sentAll
      subst sentAll
      refine ⟨[], _, ?_, Advance.collect rfl next (by simp) (by simp) (by simp) (by simp)⟩
      have ledger' : (Batch.mk s.ticket number [] ledger timer).collect report =
          ⟨s.ticket, number, [],
          if report.batch = number then ledger.receive report.jobId report.result else ledger,
          timer⟩ := by
        unfold Batch.collect
        dsimp only
        split <;> rfl
      rw [ledger'] at ticketed ⊢
      refine serving.of_proceed active ticketed rfl rfl rfl rfl rfl ?_ serving.left
      split
      · exact serving.sound.receive
      · exact serving.sound
  | collectTimeout active sentAll =>
      obtain ⟨timer, rfl, busy⟩ := current active
      have sentAll : unsent = [] := sentAll
      subst sentAll
      have outstanding : 0 < ledger.outstanding := by
        rcases Nat.eq_zero_or_pos ledger.outstanding with zero | positive
        · exact absurd ⟨rfl, zero⟩ busy
        · exact positive
      refine ⟨[], _, ?_,
        Advance.collectTimeout rfl outstanding (by simp) (by simp) (by simp) (by simp)⟩
      exact serving.of_proceed active ticketed rfl rfl rfl rfl rfl serving.sound.expire serving.left
  | take idle next =>
      rw [setTask_eq] at ticketed ⊢
      exact ⟨unsent, ledger, serving.of_worker ticketed rfl rfl rfl rfl rfl rfl rfl,
        Advance.take idle next rfl rfl rfl rfl⟩
  | act busy =>
      rw [setTask_eq] at ticketed ⊢
      exact ⟨unsent, ledger, serving.of_worker ticketed rfl rfl rfl rfl rfl rfl rfl,
        Advance.act busy rfl rfl rfl rfl⟩
  | finish busy =>
      exact ⟨unsent, ledger, serving.of_worker ticketed rfl rfl rfl rfl rfl rfl rfl,
        Advance.finish busy rfl rfl rfl rfl⟩
  | ready busy =>
      rw [setTask_eq] at ticketed ⊢
      exact ⟨unsent, ledger, serving.of_worker ticketed rfl rfl rfl rfl rfl rfl rfl,
        Advance.wake busy (Or.inl rfl) rfl rfl rfl rfl⟩
  | expire busy =>
      rw [setTask_eq] at ticketed ⊢
      exact ⟨unsent, ledger, serving.of_worker ticketed rfl rfl rfl rfl rfl rfl rfl,
        Advance.wake busy (Or.inr rfl) rfl rfl rfl rfl⟩
  | deliver reporting room =>
      exact ⟨unsent, ledger, serving.of_worker ticketed rfl rfl rfl rfl rfl rfl rfl,
        Advance.deliver reporting room rfl rfl rfl rfl⟩
  | giveUp reporting =>
      exact ⟨unsent, ledger, serving.of_worker ticketed rfl rfl rfl rfl rfl rfl rfl,
        Advance.giveUp reporting rfl rfl rfl rfl⟩
  | elapse =>
      refine ⟨unsent, ledger, ?_, Advance.elapse rfl rfl rfl rfl⟩
      exact { serving with
        ticketed := ticketed
        place := by
          cases serving.place with
          | active before busy => exact Place.active before busy
          | answered free sentAll settled answer =>
              exact Place.answered free sentAll settled answer }

/-! ### Nothing is lost while no wait of the pool runs out -/

/-- Whether an event is an inner one that gives nothing up. -/
def Event.isCalm : Event → Bool
  | .sendTimeout | .collectTimeout | .giveUp _ => false
  | event => event.isInner

theorem Event.isInner_of_isCalm (calm : event.isCalm = true) : event.isInner = true := by
  cases event <;> first | rfl | cases calm

theorem Advance.size_eq (advance : Advance x number unsent ledger p event unsent' ledger' q) :
    q.size = p.size := by
  rw [size, size]
  cases advance with
  | take _ _ _ _ workers | act _ _ _ workers | finish _ _ _ workers | wake _ _ _ _ workers
  | deliver _ _ _ _ workers | giveUp _ _ _ workers => rw [workers, List.length_set]
  | send _ _ _ _ workers | sendTimeout _ _ _ workers | collect _ _ _ _ workers
  | collectTimeout _ _ _ _ workers | elapse _ _ workers => rw [workers]

/-- Where channels and workers are the same, the accounts are. -/
theorem Lossless.same {records : List JobRecord} {fin : List (Envelope × JobResult)}
    (lossless : p.Lossless records number fin unsent ledger) (jobs : q.jobs = p.jobs)
    (reports : q.reports = p.reports) (workers : q.workers = p.workers) :
    q.Lossless records number fin unsent ledger := by
  obtain ⟨even, stamped, awaited, ordered, runs, results, alone⟩ := lossless
  constructor
  all_goals
    simp only [envelopes, outcomes, atWork, inHand, jobs, reports, workers] at *
    assumption

/-- An event that gives nothing up loses nothing. -/
theorem Lossless.step {fin : List (Envelope × JobResult)}
    (lossless : p.Lossless s.records number fin unsent ledger)
    (serving : p.Serving s number unsent ledger) (separate : Separate p.size s.records)
    (advance : Advance x number unsent ledger p event unsent' ledger' q)
    (calm : event.isCalm = true) :
    q.Lossless s.records number (fin ++ (p.finish? event).toList) unsent' ledger' := by
  cases advance with
  | sendTimeout | collectTimeout | giveUp => cases calm
  | send next _ jobs reports workers =>
      rw [next] at lossless
      have place := (serving.next next).1
      simpa [finish?] using lossless.send (place ▸ serving.sound) jobs reports workers
  | collect sentAll next jobs reports workers =>
      have own := lossless.stamped.2 _ (List.mem_append_left _ (next ▸ List.mem_cons_self))
      rw [if_pos own]
      simpa [finish?, sentAll] using (lossless.collect serving.sound next jobs reports workers).1
  | take idle next jobs reports workers =>
      simpa [finish?] using lossless.take separate idle next jobs reports workers
  | act busy jobs reports workers =>
      simpa [finish?, workerState?, busy] using lossless.keep busy jobs reports workers rfl rfl
  | finish busy jobs reports workers =>
      simpa [finish?, workerState?, busy] using lossless.finish busy jobs reports workers
  | wake busy woken jobs reports workers =>
      have unfinished : p.finish? event = none := by
        rcases woken with rfl | rfl <;> rfl
      simpa [unfinished] using lossless.keep busy jobs reports workers rfl rfl
  | deliver reporting _ jobs reports workers =>
      simpa [finish?] using lossless.deliver reporting jobs reports workers
  | elapse jobs reports workers =>
      simpa [finish?] using lossless.same jobs reports workers

/-! ### Before the turn of the batch -/

/-- A pool in which nothing is going on. -/
structure Idle (p : Pool W) : Prop where
  early : p.isShutdown = false
  staying : p.isQuitting = false
  idle : ∀ w ∈ p.workers, w.state = .idle
  manned : 0 < p.size
  jobs : p.jobs = []
  reports : p.reports = []
  free : p.active = none
  ticketed : p.Ticketed

/-- A pool in which nothing is going on and no batch waits. -/
structure Quiet (p : Pool W) : Prop extends Idle p where
  alone : p.waiting = []

/-- A pool in which nothing is going on but that one batch waits. -/
structure Awaiting (s : Submission) (p : Pool W) : Prop extends Idle p where
  next : p.waiting = [s]

theorem quiet_start {limits : PoolLimits} {size : Nat} {world : W} (manned : 0 < size) :
    (start limits size world).Quiet where
  early := rfl
  staying := rfl
  idle := fun w member => (List.eq_of_mem_replicate member) ▸ rfl
  manned := by simpa [Pool.size, start] using manned
  jobs := rfl
  reports := rfl
  free := rfl
  ticketed := ticketed_start
  alone := rfl

/-- A batch that is handed in waits. -/
theorem Quiet.submit {records : List JobRecord} (quiet : p.Quiet) (nonempty : records ≠ []) :
    (p.submit records).2.Awaiting ⟨p.nextTicket, records⟩ := by
  have after : (p.submit records).2 = { p with
      nextTicket := p.nextTicket + 1
      waiting := [⟨p.nextTicket, records⟩] } := by
    simp [Pool.submit, nonempty, quiet.early, quiet.alone]
  rw [after]
  have fresh : p.nextTicket ∉ p.tickets := fun there =>
    Nat.lt_irrefl _ (quiet.ticketed.dated _ there)
  have tickets : p.tickets = p.answers.map Prod.fst := by
    simp [Pool.tickets, quiet.free, quiet.alone]
  exact {
    early := quiet.early
    staying := quiet.staying
    idle := quiet.idle
    manned := quiet.manned
    jobs := quiet.jobs
    reports := quiet.reports
    free := quiet.free
    ticketed := by
      have once := quiet.ticketed.once
      have dated := quiet.ticketed.dated
      rw [tickets] at once dated fresh
      constructor
      · simp only [Pool.tickets, quiet.free, Option.map_none, Option.toList_none, List.nil_append,
          List.map_cons, List.map_nil]
        exact once.append (List.nodup_singleton _) (by simpa using fresh)
      · intro ticket there
        simp only [Pool.tickets, quiet.free, Option.map_none, Option.toList_none, List.nil_append,
          List.map_cons, List.map_nil, List.mem_append, List.mem_singleton] at there
        rcases there with old | rfl
        · exact Nat.lt_succ_of_lt (dated ticket old)
        · exact Nat.lt_succ_self _
    next := rfl }

/-- Nobody holds anything where all workers are idle. -/
theorem holds_nothing (idle : ∀ w ∈ p.workers, w.state = .idle) :
    p.atWork = [] ∧ p.inHand = [] := by
  constructor
  · rw [atWork, List.filterMap_eq_nil_iff]
    intro w member
    simp [Worker.envelope?, idle w member]
  · rw [inHand, List.filterMap_eq_nil_iff]
    intro w member
    simp [Worker.report?, idle w member]

/-- At the beginning of the turn nothing has been lost. -/
theorem lossless_start {records : List JobRecord} (idle : ∀ w ∈ p.workers, w.state = .idle)
    (jobs : p.jobs = []) (reports : p.reports = []) :
    p.Lossless records number [] (indexed records) (Ledger.start records.length) := by
  obtain ⟨atWork, inHand⟩ := holds_nothing idle
  have envelopes : p.envelopes = [] := by rw [envelopes, jobs, atWork, List.append_nil]
  have outcomes : p.outcomes = [] := by rw [outcomes, reports, inHand, List.append_nil]
  exact {
    even := by simp [envelopes, outcomes, Ledger.start]
    stamped := by simp [envelopes, outcomes]
    awaited := by simp [envelopes, outcomes, Ledger.start, recordsOf, resultsOf]
    ordered := Ledger.ordered_start
    runs := by
      intro id
      have unindexed : ∀ (l : List JobRecord) (n : Nat),
          unsentOf id ((l.zipIdx n).map fun entry => (entry.2, entry.1)) =
            l.filter (fun r => r.id == id) := by
        intro l
        induction l with
        | nil => exact fun _ => rfl
        | cons r rest ih =>
            intro n
            have later := ih (n + 1)
            rw [unsentOf] at later ⊢
            rw [List.zipIdx_cons, List.map_cons, underId_cons, later]
            by_cases same : r.id = id <;> simp [same]
      simp [ranOf, recordsOf, atWork, jobs, indexed, unindexed]
    results := by
      intro id
      have empty : Ledger.filledOf id (records.map JobRecord.id)
          (Ledger.start records.length).slots = [] := by
        apply Ledger.filledOf_eq_nil
        intro j result _ there
        simp [Ledger.start, List.getElem?_replicate] at there
      simp [gaveOf, empty, resultsOf, reports, inHand]
    alone := by simp [atWork, inHand, recordsOf, resultsOf] }

/-- A batch that waits has no answer. -/
theorem Awaiting.fresh (awaiting : p.Awaiting s) : s.ticket ∉ p.answers.map Prod.fst := by
  have once := awaiting.ticketed.once
  rw [Pool.tickets, List.nodup_append] at once
  exact fun there => once.2.2 _ there s.ticket (by simp [awaiting.next]) rfl

/-- A pool in which a batch waits goes on waiting, or gives the batch its turn. -/
theorem Awaiting.step (awaiting : p.Awaiting s) (rule : Step x p event q)
    (inner : event.isInner = true) : q.world = p.world ∧ q.workers = p.workers ∧
      q.jobs = [] ∧ q.reports = [] ∧ p.finish? event = none ∧
      (((∃ millis, event = .elapse millis) ∧ q.Awaiting s ∧ q.nextBatch = p.nextBatch) ∨
        event = .turn ∧ q.Serving s p.nextBatch (indexed s.records)
          (Ledger.start s.records.length)) := by
  have ticketed := awaiting.ticketed.step rule
  have notBusy : ∀ {i : Nat} {state : WorkerState W} {timer : Option Timer},
      p.workers[i]? = some ⟨state, timer⟩ → state = .idle :=
    fun here => awaiting.idle _ (List.mem_of_getElem? here)
  cases rule with
  | submitEmpty | submitLate | submit | shutdown | deadline => cases inner
  | reject _ _ late => simp [awaiting.early] at late
  | send active | sendTimeout active | sendClosed active | collect active
  | collectTimeout active | collectClosed active => simp [awaiting.free] at active
  | take _ next => simp [awaiting.jobs] at next
  | act busy | finish busy | ready busy | expire busy => cases notBusy busy
  | deliver reporting | giveUp reporting => cases notBusy reporting
  | stop _ _ closed => simp [jobsClosed, awaiting.early] at closed
  | quit _ told => simp [awaiting.staying] at told
  | elapse =>
      refine ⟨rfl, rfl, awaiting.jobs, awaiting.reports, rfl, Or.inl ⟨⟨_, rfl⟩, ?_, rfl⟩⟩
      exact { awaiting with ticketed := ticketed }
  | turn _ next =>
      rw [awaiting.next, List.cons.injEq] at next
      obtain ⟨rfl, rfl⟩ := next
      refine ⟨by simp, by simp, by simp [awaiting.jobs], by simp [awaiting.reports], rfl,
        Or.inr ⟨rfl, ?_⟩⟩
      have untried : s.records.length - (indexed s.records).length = 0 := by
        rw [Accounts.length_indexed, Nat.sub_self]
      have sound : (Ledger.start s.records.length).Sound (s.records.map JobRecord.id)
          (s.records.length - (indexed s.records).length) := by
        rw [untried, ← List.length_map JobRecord.id]
        exact Ledger.sound_start
      have fresh := awaiting.fresh
      exact {
        early := by simp [awaiting.early]
        staying := by simp [awaiting.staying]
        standing := fun w member => by
          rw [proceed_workers] at member
          simp [Worker.isStopped, awaiting.idle w member]
        manned := by
          rw [size, proceed_workers]
          exact awaiting.manned
        alone := by simp
        ticketed := ticketed
        sound := sound
        left := by rw [untried, List.drop_zero]
        place := Place.proceed fresh sound }

end JobQueue.Pool
