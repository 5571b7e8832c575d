/-
The events of a pool, one rule for each.

`Step` writes out what `Pool.step` does: the state that an event needs and the state after it.
The two say the same (`step_eq_some_iff`), so a fact about pools is proved rule by rule. What a
rule leaves alone is said by one lemma for each field of `proceed`, `setTask` and `setWorker`.

A run is read from its beginning: `replay_induction` is the induction on runs, and `readings`
collects what an observer notes down at each event.
-/

import JobQueue.Pool.Basic
import Mathlib.Data.List.Induction

namespace JobQueue

/-- Records with their places. -/
def indexed (records : List JobRecord) : List (Nat × JobRecord) :=
  records.zipIdx.map fun (r, i) => (i, r)

/-- A batch at the beginning of its turn. -/
def Batch.opening (s : Submission) (number : Nat) (timer : Timer) : Batch where
  ticket := s.ticket
  number := number
  unsent := indexed s.records
  ledger := Ledger.start s.records.length
  timer := timer

/-- The batch after a report: one of another batch changes nothing. -/
def Batch.collect (b : Batch) (report : Report) : Batch :=
  if report.batch = b.number then
    { b with ledger := b.ledger.receive report.jobId report.result }
  else b

namespace Pool

variable {W : Type} {x : Executor W} {p q : Pool W} {b : Batch} {u : JobError} {i : Nat}
  {e : Envelope} {task : Task W Ended} {state : WorkerState W} {timer : Option Timer}

/-! ### What `proceed`, `setTask` and `setWorker` change -/

/-- Whether a batch has nothing left to do. -/
def isDone (b : Batch) : Prop := b.unsent = [] ∧ b.ledger.outstanding = 0

theorem proceed_of_done (done : isDone b) : p.proceed b u =
    { p with active := none, answers := p.answers ++ [(b.ticket, b.ledger.finish u)] } := by
  simp [proceed, done.1, done.2, answer]

/-- The time that a batch has for its next wait, in seconds. -/
def patience (p : Pool W) (b : Batch) : Nat :=
  if b.unsent.isEmpty then p.limits.result else p.limits.send

theorem proceed_of_not_done (more : ¬ isDone b) : p.proceed b u =
    { p with
      active := some { b with timer := ⟨p.now + p.patience b * 1000, p.order⟩ }
      order := p.order + 1 } := by
  unfold proceed patience
  cases unsent : b.unsent with
  | nil =>
      have positive : b.ledger.outstanding ≠ 0 := fun zero => more ⟨unsent, zero⟩
      simp [positive, arm]
  | cons _ _ => simp [arm]

/-- Going on with a batch changes the batch, the answers and the count of timers only. -/
theorem proceed_frame {α : Type} (field : Pool W → α)
    (same : ∀ active order answers, field { p with active, order, answers } = field p) :
    field (p.proceed b u) = field p := by
  by_cases done : isDone b
  · rw [proceed_of_done done]
    exact same none p.order _
  · rw [proceed_of_not_done done]
    exact same _ _ p.answers

section Frame

@[simp] theorem proceed_limits : (p.proceed b u).limits = p.limits :=
  proceed_frame limits fun _ _ _ => rfl

@[simp] theorem proceed_capacity : (p.proceed b u).capacity = p.capacity :=
  proceed_frame capacity fun _ _ _ => rfl

@[simp] theorem proceed_world : (p.proceed b u).world = p.world :=
  proceed_frame world fun _ _ _ => rfl

@[simp] theorem proceed_now : (p.proceed b u).now = p.now :=
  proceed_frame now fun _ _ _ => rfl

@[simp] theorem proceed_isShutdown : (p.proceed b u).isShutdown = p.isShutdown :=
  proceed_frame isShutdown fun _ _ _ => rfl

@[simp] theorem proceed_isQuitting : (p.proceed b u).isQuitting = p.isQuitting :=
  proceed_frame isQuitting fun _ _ _ => rfl

@[simp] theorem proceed_jobs : (p.proceed b u).jobs = p.jobs :=
  proceed_frame jobs fun _ _ _ => rfl

@[simp] theorem proceed_reports : (p.proceed b u).reports = p.reports :=
  proceed_frame reports fun _ _ _ => rfl

@[simp] theorem proceed_workers : (p.proceed b u).workers = p.workers :=
  proceed_frame workers fun _ _ _ => rfl

@[simp] theorem proceed_waiting : (p.proceed b u).waiting = p.waiting :=
  proceed_frame waiting fun _ _ _ => rfl

@[simp] theorem proceed_nextBatch : (p.proceed b u).nextBatch = p.nextBatch :=
  proceed_frame nextBatch fun _ _ _ => rfl

@[simp] theorem proceed_nextTicket : (p.proceed b u).nextTicket = p.nextTicket :=
  proceed_frame nextTicket fun _ _ _ => rfl

end Frame

/-- A batch that goes on is the one given, with a new timer. -/
theorem of_proceed_active {b' : Batch} (goes : (p.proceed b u).active = some b') :
    ¬ isDone b ∧ b'.ticket = b.ticket ∧ b'.number = b.number ∧ b'.unsent = b.unsent ∧
      b'.ledger = b.ledger := by
  by_cases done : isDone b
  · simp [proceed_of_done done] at goes
  · rw [proceed_of_not_done done, Option.some.injEq] at goes
    subst goes
    exact ⟨done, rfl, rfl, rfl, rfl⟩

/-- The timer of a worker that goes on with a task. -/
def timerFor (p : Pool W) : Task W Ended → Option Timer
  | .wait _ (some millis) _ => some ⟨p.now + millis, p.order⟩
  | _ => none

/-- How many timers have been set once a worker goes on with a task. -/
def orderFor (p : Pool W) : Task W Ended → Nat
  | .wait _ (some _) _ => p.order + 1
  | _ => p.order

theorem setTask_eq : p.setTask i e task = { p with
    order := p.orderFor task
    workers := p.workers.set i ⟨.busy e task, p.timerFor task⟩ } := by
  cases task with
  | done _ => rfl
  | act _ _ => rfl
  | wait _ limit _ => cases limit <;> rfl

/-! ### The rules -/

/-- What an event needs and what it does. -/
inductive Step (x : Executor W) (p : Pool W) : Event → Pool W → Prop where
  | submitEmpty :
      Step x p (.submit []) ({ p with nextTicket := p.nextTicket + 1 }.answer p.nextTicket [])
  | submitLate {records : List JobRecord} (nonempty : records ≠ []) (late : p.isShutdown = true) :
      Step x p (.submit records)
        ({ p with nextTicket := p.nextTicket + 1 }.answer p.nextTicket (rejection records))
  | submit {records : List JobRecord} (nonempty : records ≠ []) (early : p.isShutdown = false) :
      Step x p (.submit records) { p with
        nextTicket := p.nextTicket + 1
        waiting := p.waiting ++ [Submission.mk p.nextTicket records] }
  | reject {s : Submission} {rest : List Submission} (free : p.active = none)
      (next : p.waiting = s :: rest) (late : p.isShutdown = true) :
      Step x p .turn ({ p with waiting := rest }.answer s.ticket (rejection s.records))
  | turn {s : Submission} {rest : List Submission} (free : p.active = none)
      (next : p.waiting = s :: rest) (early : p.isShutdown = false) :
      Step x p .turn ({ p with waiting := rest, nextBatch := p.nextBatch + 1 }.proceed
        (Batch.opening s p.nextBatch ⟨p.now, p.order⟩) .poolShutdown)
  | send {b : Batch} {index : Nat} {r : JobRecord} {rest : List (Nat × JobRecord)}
      (active : p.active = some b) (next : b.unsent = (index, r) :: rest)
      (room : p.jobs.length < p.capacity) (alive : p.allStopped = false) :
      Step x p .send ({ p with jobs := p.jobs ++ [Envelope.mk b.number r] }.proceed
        { b with unsent := rest, ledger := b.ledger.sent r.id index } .poolShutdown)
  | sendTimeout {b : Batch} {index : Nat} {r : JobRecord} {rest : List (Nat × JobRecord)}
      (active : p.active = some b) (next : b.unsent = (index, r) :: rest)
      (due : b.timer.due ≤ p.now) :
      Step x p .sendTimeout (p.proceed { b with
        unsent := rest
        ledger := b.ledger.refused index (.enqueueTimeout r.id p.limits.send) } .poolShutdown)
  | sendClosed {b : Batch} {index : Nat} {r : JobRecord} {rest : List (Nat × JobRecord)}
      (active : p.active = some b) (next : b.unsent = (index, r) :: rest)
      (dead : p.allStopped = true) :
      Step x p .sendClosed (p.proceed { b with
        unsent := rest, ledger := b.ledger.refused index .poolShutdown } .poolShutdown)
  | collect {b : Batch} {report : Report} {rest : List Report} (active : p.active = some b)
      (sentAll : b.unsent = []) (next : p.reports = report :: rest) :
      Step x p .collect ({ p with reports := rest }.proceed (b.collect report) p.missing)
  | collectTimeout {b : Batch} (active : p.active = some b) (sentAll : b.unsent = [])
      (due : b.timer.due ≤ p.now) :
      Step x p .collectTimeout
        (p.proceed { b with ledger := b.ledger.expire p.missing } p.missing)
  | collectClosed {b : Batch} (active : p.active = some b) (sentAll : b.unsent = [])
      (none : p.reports = []) (dead : p.allStopped = true) :
      Step x p .collectClosed
        ({ p with active := .none }.answer b.ticket (b.ledger.finish p.missing))
  | take {i : Nat} {timer : Option Timer} {e : Envelope} {rest : List Envelope}
      (idle : p.workers[i]? = some ⟨.idle, timer⟩) (next : p.jobs = e :: rest) :
      Step x p (.take i) ({ p with jobs := rest }.setTask i e (x.run (some i) e.record))
  | act {i : Nat} {timer : Option Timer} {e : Envelope} {update : W → W}
      {next : W → Task W Ended}
      (busy : p.workers[i]? = some ⟨.busy e (.act update next), timer⟩) :
      Step x p (.run i) ({ p with world := update p.world }.setTask i e (next p.world))
  | finish {i : Nat} {timer : Option Timer} {e : Envelope} {ended : Ended}
      (busy : p.workers[i]? = some ⟨.busy e (.done ended), timer⟩) :
      Step x p (.run i) ({ p with order := p.order + 1 }.setWorker i
        (.reporting ⟨e.batch, e.record.id, resultOf ended⟩)
        (some ⟨p.now + p.limits.resultSend * 1000, p.order⟩))
  | ready {i : Nat} {timer : Option Timer} {e : Envelope} {ready : W → Bool}
      {limit : Option Nat} {next : Bool → Task W Ended}
      (busy : p.workers[i]? = some ⟨.busy e (.wait ready limit next), timer⟩)
      (came : ready p.world = true) :
      Step x p (.ready i) (p.setTask i e (next true))
  | expire {i : Nat} {timer : Timer} {e : Envelope} {ready : W → Bool}
      {limit : Option Nat} {next : Bool → Task W Ended}
      (busy : p.workers[i]? = some ⟨.busy e (.wait ready limit next), some timer⟩)
      (due : timer.due ≤ p.now) :
      Step x p (.expire i) (p.setTask i e (next false))
  | deliver {i : Nat} {timer : Option Timer} {report : Report}
      (reporting : p.workers[i]? = some ⟨.reporting report, timer⟩)
      (room : p.reports.length < p.capacity) :
      Step x p (.deliver i) ({ p with reports := p.reports ++ [report] }.setWorker i .idle none)
  | giveUp {i : Nat} {timer : Timer} {report : Report}
      (reporting : p.workers[i]? = some ⟨.reporting report, some timer⟩)
      (due : timer.due ≤ p.now) :
      Step x p (.giveUp i) (p.setWorker i .idle none)
  | stop {i : Nat} {timer : Option Timer} (idle : p.workers[i]? = some ⟨.idle, timer⟩)
      (empty : p.jobs = []) (closed : p.jobsClosed = true) :
      Step x p (.stop i) (p.setWorker i .stopped none)
  | quit {i : Nat} {timer : Option Timer} (idle : p.workers[i]? = some ⟨.idle, timer⟩)
      (told : p.isQuitting = true) :
      Step x p (.quit i) (p.setWorker i .stopped none)
  | shutdown : Step x p .shutdown { p with isShutdown := true }
  | deadline : Step x p .deadline { p with isQuitting := true }
  | elapse {millis : Nat} : Step x p (.elapse millis) { p with now := p.now + millis }

theorem workerState?_eq_some_iff :
    p.workerState? i = some state ↔ ∃ timer, p.workers[i]? = some ⟨state, timer⟩ := by
  rw [workerState?, Option.map_eq_some_iff]
  constructor
  · rintro ⟨worker, here, rfl⟩
    exact ⟨worker.timer, here⟩
  · rintro ⟨timer, here⟩
    exact ⟨_, here, rfl⟩

/-- A pool does what the rules say. -/
theorem step_of_rule {event : Event} (rule : Step x p event q) : p.step x event = some q := by
  cases rule with
  | submitEmpty => rfl
  | submitLate nonempty late => simp [step, Pool.submit, nonempty, late]
  | submit nonempty early => simp [step, Pool.submit, nonempty, early]
  | reject free next late => simp [step, giveTurn?, free, next, late]
  | turn free next early => simp [step, giveTurn?, free, next, early, Batch.opening, indexed]
  | send active next room alive => simp [step, send?, active, next, room, alive]
  | sendTimeout active next due => simp [step, sendTimeout?, skip?, active, next, due]
  | sendClosed active next dead => simp [step, sendClosed?, skip?, active, next, dead]
  | collect active sentAll next =>
      simp only [step, collect?, active, next, sentAll, List.isEmpty_nil, if_true, Batch.collect]
      split <;> rfl
  | collectTimeout active sentAll due => simp [step, collectTimeout?, active, sentAll, due]
  | collectClosed active sentAll none dead =>
      simp [step, collectClosed?, active, sentAll, none, dead]
  | take idle next => simp [step, take?, workerState?, idle, next]
  | act busy => simp [step, run?, workerState?, busy]
  | finish busy => simp [step, run?, workerState?, busy, arm]
  | ready busy came => simp [step, ready?, workerState?, busy, came]
  | expire busy due => simp [step, expire?, workerState?, isDue, busy, due]
  | deliver reporting room => simp [step, deliver?, workerState?, reporting, room]
  | giveUp reporting due => simp [step, giveUp?, workerState?, isDue, reporting, due]
  | stop idle empty closed => simp [step, stop?, workerState?, idle, empty, closed]
  | quit idle told => simp [step, quit?, workerState?, idle, told]
  | shutdown => rfl
  | deadline => rfl
  | elapse => rfl

private theorem rule_of_turn (happens : p.giveTurn? = some q) : Step x p .turn q := by
  unfold giveTurn? at happens
  split at happens
  next s rest free next =>
    dsimp only at happens
    split at happens
    next late =>
      cases happens
      exact Step.reject free next late
    next early =>
      cases happens
      exact Step.turn free next (by simpa using early)
  next => cases happens

private theorem rule_of_send (happens : p.send? = some q) : Step x p .send q := by
  unfold send? at happens
  cases active : p.active with
  | none => simp [active] at happens
  | some b =>
      cases next : b.unsent with
      | nil => simp [active, next] at happens
      | cons first rest =>
          simp only [active, next] at happens
          split at happens
          next able =>
            cases happens
            exact active ▸ Step.send active next able.1 able.2
          next => cases happens

/-- A record of the active batch is skipped in its turn. -/
private theorem skip_eq_some {reason : JobRecord → JobError} (happens : p.skip? reason = some q) :
    ∃ b index r rest, p.active = some b ∧ b.unsent = (index, r) :: rest ∧
      q = p.proceed { b with unsent := rest, ledger := b.ledger.refused index (reason r) }
        .poolShutdown := by
  unfold skip? at happens
  cases active : p.active with
  | none => simp [active] at happens
  | some b =>
      cases next : b.unsent with
      | nil => simp [active, next] at happens
      | cons first rest =>
          simp only [active, next, Option.some.injEq] at happens
          exact ⟨b, first.1, first.2, rest, rfl, next, happens.symm⟩

private theorem rule_of_sendTimeout (happens : p.sendTimeout? = some q) :
    Step x p .sendTimeout q := by
  unfold sendTimeout? at happens
  split at happens
  next b active =>
    split at happens
    next due =>
      obtain ⟨b', index, r, rest, same, next, rfl⟩ := skip_eq_some happens
      cases active.symm.trans same
      exact Step.sendTimeout active next due
    next => cases happens
  next => cases happens

private theorem rule_of_sendClosed (happens : p.sendClosed? = some q) :
    Step x p .sendClosed q := by
  unfold sendClosed? at happens
  split at happens
  next dead =>
    obtain ⟨b, index, r, rest, active, next, rfl⟩ := skip_eq_some happens
    exact Step.sendClosed active next dead
  next => cases happens

private theorem rule_of_collect (happens : p.collect? = some q) : Step x p .collect q := by
  unfold collect? at happens
  split at happens
  next b report rest active next =>
    split at happens
    next sentAll =>
      have rule := Step.collect (x := x) active (List.isEmpty_iff.mp sentAll) next
      unfold Batch.collect at rule
      dsimp only at happens
      split at happens
      next own =>
        cases happens
        rw [if_pos own] at rule
        exact active ▸ rule
      next other =>
        cases happens
        rw [if_neg other] at rule
        exact active ▸ rule
    next => cases happens
  next => cases happens

private theorem rule_of_collectTimeout (happens : p.collectTimeout? = some q) :
    Step x p .collectTimeout q := by
  unfold collectTimeout? at happens
  split at happens
  next b active =>
    split at happens
    next able =>
      cases happens
      simp only [Bool.and_eq_true, List.isEmpty_iff, decide_eq_true_eq] at able
      exact Step.collectTimeout active able.1 able.2
    next => cases happens
  next => cases happens

private theorem rule_of_collectClosed (happens : p.collectClosed? = some q) :
    Step x p .collectClosed q := by
  unfold collectClosed? at happens
  split at happens
  next b active =>
    split at happens
    next able =>
      cases happens
      simp only [Bool.and_eq_true, List.isEmpty_iff] at able
      exact Step.collectClosed active able.1.1 able.1.2 able.2
    next => cases happens
  next => cases happens

private theorem rule_of_take (happens : p.take? x i = some q) : Step x p (.take i) q := by
  unfold take? at happens
  split at happens
  next e rest idle next =>
    cases happens
    obtain ⟨timer, here⟩ := workerState?_eq_some_iff.mp idle
    exact Step.take here next
  next => cases happens

private theorem rule_of_run (happens : p.run? i = some q) : Step x p (.run i) q := by
  unfold run? at happens
  split at happens
  next e update next busy =>
    cases happens
    obtain ⟨timer, here⟩ := workerState?_eq_some_iff.mp busy
    exact Step.act here
  next e ended busy =>
    cases happens
    obtain ⟨timer, here⟩ := workerState?_eq_some_iff.mp busy
    exact Step.finish here
  next => cases happens

private theorem rule_of_ready (happens : p.ready? i = some q) : Step x p (.ready i) q := by
  unfold ready? at happens
  split at happens
  next e ready limit next busy =>
    split at happens
    next came =>
      cases happens
      obtain ⟨timer, here⟩ := workerState?_eq_some_iff.mp busy
      exact Step.ready here came
    next => cases happens
  next => cases happens

/-- A worker whose timer has run out has a timer. -/
private theorem timer_of_isDue {timer : Option Timer} (here : p.workers[i]? = some ⟨state, timer⟩)
    (due : p.isDue i = true) : ∃ t, timer = some t ∧ t.due ≤ p.now := by
  unfold isDue at due
  rw [here] at due
  cases timer with
  | none => cases due
  | some t => exact ⟨t, rfl, by simpa using due⟩

private theorem rule_of_expire (happens : p.expire? i = some q) : Step x p (.expire i) q := by
  unfold expire? at happens
  split at happens
  next e ready limit next busy =>
    split at happens
    next due =>
      cases happens
      obtain ⟨timer, here⟩ := workerState?_eq_some_iff.mp busy
      obtain ⟨t, rfl, past⟩ := timer_of_isDue here due
      exact Step.expire here past
    next => cases happens
  next => cases happens

private theorem rule_of_deliver (happens : p.deliver? i = some q) : Step x p (.deliver i) q := by
  unfold deliver? at happens
  split at happens
  next report reporting =>
    split at happens
    next room =>
      cases happens
      obtain ⟨timer, here⟩ := workerState?_eq_some_iff.mp reporting
      exact Step.deliver here room
    next => cases happens
  next => cases happens

private theorem rule_of_giveUp (happens : p.giveUp? i = some q) : Step x p (.giveUp i) q := by
  unfold giveUp? at happens
  split at happens
  next report reporting =>
    split at happens
    next due =>
      cases happens
      obtain ⟨timer, here⟩ := workerState?_eq_some_iff.mp reporting
      obtain ⟨t, rfl, past⟩ := timer_of_isDue here due
      exact Step.giveUp here past
    next => cases happens
  next => cases happens

private theorem rule_of_stop (happens : p.stop? i = some q) : Step x p (.stop i) q := by
  unfold stop? at happens
  split at happens
  next idle =>
    split at happens
    next able =>
      cases happens
      obtain ⟨timer, here⟩ := workerState?_eq_some_iff.mp idle
      simp only [Bool.and_eq_true, List.isEmpty_iff] at able
      exact Step.stop here able.1 able.2
    next => cases happens
  next => cases happens

private theorem rule_of_quit (happens : p.quit? i = some q) : Step x p (.quit i) q := by
  unfold quit? at happens
  split at happens
  next idle =>
    split at happens
    next told =>
      cases happens
      obtain ⟨timer, here⟩ := workerState?_eq_some_iff.mp idle
      exact Step.quit here told
    next => cases happens
  next => cases happens

private theorem rule_of_submit {records : List JobRecord} :
    Step x p (.submit records) (p.submit records).2 := by
  unfold Pool.submit
  cases records with
  | nil => exact Step.submitEmpty
  | cons r rest =>
      dsimp only [List.isEmpty_cons]
      rw [if_neg (by simp)]
      split
      next late => exact Step.submitLate (List.cons_ne_nil _ _) late
      next early => exact Step.submit (List.cons_ne_nil _ _) (by simpa using early)

/-- What a pool is not asked to change when a batch is handed in. -/
theorem submit_frame (p : Pool W) (records : List JobRecord) :
    (p.submit records).2.limits = p.limits ∧ (p.submit records).2.capacity = p.capacity ∧
      (p.submit records).2.workers = p.workers ∧ (p.submit records).2.world = p.world ∧
      (p.submit records).2.active = p.active := by
  unfold Pool.submit
  dsimp only
  split
  · exact ⟨rfl, rfl, rfl, rfl, rfl⟩
  · split <;> exact ⟨rfl, rfl, rfl, rfl, rfl⟩

/-- The ticket of a batch that is handed in is the next one. -/
theorem submit_fst (p : Pool W) (records : List JobRecord) :
    (p.submit records).1 = p.nextTicket := by
  unfold Pool.submit
  dsimp only
  split
  · rfl
  · split <;> rfl

/-- Handing in a batch changes neither flag. -/
theorem submit_flags (p : Pool W) (records : List JobRecord) :
    (p.submit records).2.isShutdown = p.isShutdown ∧
      (p.submit records).2.isQuitting = p.isQuitting := by
  unfold Pool.submit
  dsimp only
  split
  · exact ⟨rfl, rfl⟩
  · split <;> exact ⟨rfl, rfl⟩

/-- What a pool does is what the rules say. -/
theorem step_eq_some_iff {event : Event} : p.step x event = some q ↔ Step x p event q := by
  refine ⟨?_, step_of_rule⟩
  intro happens
  cases event with
  | submit records =>
      cases happens
      exact rule_of_submit
  | turn => exact rule_of_turn happens
  | send => exact rule_of_send happens
  | sendTimeout => exact rule_of_sendTimeout happens
  | sendClosed => exact rule_of_sendClosed happens
  | collect => exact rule_of_collect happens
  | collectTimeout => exact rule_of_collectTimeout happens
  | collectClosed => exact rule_of_collectClosed happens
  | take i => exact rule_of_take happens
  | run i => exact rule_of_run happens
  | ready i => exact rule_of_ready happens
  | expire i => exact rule_of_expire happens
  | deliver i => exact rule_of_deliver happens
  | giveUp i => exact rule_of_giveUp happens
  | stop i => exact rule_of_stop happens
  | quit i => exact rule_of_quit happens
  | shutdown =>
      cases happens
      exact Step.shutdown
  | deadline =>
      cases happens
      exact Step.deadline
  | elapse millis =>
      cases happens
      exact Step.elapse

/-! ### Events that are about no batch -/

/-- Whether an event is one of the batch whose turn it is, or gives a batch its turn. -/
def Event.isOfBatch : Event → Bool
  | .turn | .send | .sendTimeout | .sendClosed | .collect | .collectTimeout | .collectClosed => true
  | _ => false

/-- An event that is about no batch leaves the batch as it is. -/
theorem Step.aside {event : Event} (rule : Step x p event q) (other : event.isOfBatch = false) :
    q.active = p.active ∧ q.nextBatch = p.nextBatch := by
  cases rule with
  | take | act | ready | expire =>
      rw [setTask_eq]
      exact ⟨rfl, rfl⟩
  | reject | turn | send | sendTimeout | sendClosed | collect | collectTimeout | collectClosed =>
      cases other
  | _ => exact ⟨rfl, rfl⟩

/-- The limits of a pool stay. -/
theorem Step.limits_eq {event : Event} (rule : Step x p event q) : q.limits = p.limits := by
  cases rule with
  | take | act | ready | expire => rw [setTask_eq]
  | turn | send | sendTimeout | sendClosed | collect | collectTimeout => exact proceed_limits
  | _ => rfl

/-- The room of the channels stays. -/
theorem Step.capacity_eq {event : Event} (rule : Step x p event q) : q.capacity = p.capacity := by
  cases rule with
  | take | act | ready | expire => rw [setTask_eq]
  | turn | send | sendTimeout | sendClosed | collect | collectTimeout => exact proceed_capacity
  | _ => rfl

/-- Answers that are given stay. -/
theorem Step.answers_eq {event : Event} (rule : Step x p event q) :
    ∃ more, q.answers = p.answers ++ more := by
  have proceeds : ∀ {p : Pool W} {b u}, ∃ more, (p.proceed b u).answers = p.answers ++ more := by
    intro p b u
    by_cases done : isDone b
    · exact ⟨_, congrArg answers (proceed_of_done done)⟩
    · exact ⟨[], by simp [proceed_of_not_done done]⟩
  cases rule with
  | submitEmpty | submitLate | reject | collectClosed => exact ⟨_, rfl⟩
  | turn | send | sendTimeout | sendClosed | collect | collectTimeout => exact proceeds
  | take | act | ready | expire => exact ⟨[], by simp [setTask_eq]⟩
  | _ => exact ⟨[], (List.append_nil _).symm⟩

/-! ### Runs -/

variable {events : List Event} {event : Event}

theorem replay_append (first second : List Event) :
    p.replay x (first ++ second) = (p.replay x first).bind fun q => q.replay x second := by
  induction first generalizing p with
  | nil => rfl
  | cons event rest ih =>
      simp only [List.cons_append, replay]
      cases p.step x event with
      | none => rfl
      | some q => exact ih

/-- A run that takes one event more. -/
theorem replay_snoc {r : Pool W} (run : p.replay x events = some q) (rule : Step x q event r) :
    p.replay x (events ++ [event]) = some r := by
  simp [replay_append, run, replay, step_of_rule rule]

/-- The induction on runs: from the beginning, event by event. -/
theorem replay_induction {motive : List Event → Pool W → Prop} (start : motive [] p)
    (more : ∀ events q event r, p.replay x events = some q → motive events q →
      Step x q event r → motive (events ++ [event]) r)
    (run : p.replay x events = some q) : motive events q := by
  induction events using List.reverseRecOn generalizing q with
  | nil =>
      cases run
      exact start
  | append_singleton earlier event ih =>
      rw [replay_append, Option.bind_eq_some_iff] at run
      obtain ⟨middle, before, last⟩ := run
      rw [replay, Option.bind_eq_some_iff] at last
      obtain ⟨after, happens, same⟩ := last
      cases same
      exact more earlier middle event _ before (ih before) (step_eq_some_iff.mp happens)

/-- What an observer notes down in a run, event by event. -/
def readings (x : Executor W) {α : Type} (look : Pool W → Event → Option α) :
    Pool W → List Event → List α
  | _, [] => []
  | p, event :: rest =>
      (look p event).toList ++
        match p.step x event with
        | some q => readings x look q rest
        | none => []

theorem readings_snoc {α : Type} {look : Pool W → Event → Option α}
    (run : p.replay x events = some q) :
    p.readings x look (events ++ [event]) = p.readings x look events ++ (look q event).toList := by
  induction events generalizing p with
  | nil =>
      cases run
      simp only [List.nil_append, readings]
      split <;> simp
  | cons first rest ih =>
      rw [replay, Option.bind_eq_some_iff] at run
      obtain ⟨middle, happens, later⟩ := run
      simp only [List.cons_append, readings, happens, ih later, List.append_assoc]

/-- The run that a worker brings to its end, with its result. -/
def finish? (p : Pool W) : Event → Option (Envelope × JobResult)
  | .run i =>
      match p.workerState? i with
      | some (.busy e (.done ended)) => some (e, resultOf ended)
      | _ => none
  | _ => none

/-- The runs that workers have brought to their ends, with their results, in their order. -/
def finished (x : Executor W) (p : Pool W) (events : List Event) : List (Envelope × JobResult) :=
  p.readings x finish? events

theorem finished_snoc (run : p.replay x events = some q) :
    p.finished x (events ++ [event]) = p.finished x events ++ (q.finish? event).toList :=
  readings_snoc run

end Pool

end JobQueue
