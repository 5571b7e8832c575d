/-
A pool of workers.

Batches wait for their turn. The batch whose turn it is puts its records into the job channel and
then collects the workers' reports from the report channel; both channels are bounded. A worker
takes the oldest record, runs its lifecycle, and puts a report into the report channel or gives
up after a while. After a shutdown no batch gets a turn, and a worker that finds the job channel
closed and empty stops.

`Pool.step` is the whole behaviour: one event, and the state after it, or nothing where the event
cannot happen. What happens in what order is a list of events.
-/

import JobQueue.Job.Lifecycle
import JobQueue.Pool.Ledger
import JobQueue.Decimal.Word

namespace JobQueue

/-- How long the pool waits, in seconds. -/
structure PoolLimits where
  /-- For room in the job channel. -/
  send : Nat
  /-- For a report. -/
  result : Nat
  /-- For room in the report channel. -/
  resultSend : Nat
deriving DecidableEq, Repr, Inhabited

/-- When a wait runs out. Of timers that run out together the one set first comes first. -/
structure Timer where
  due : Nat
  order : Nat
deriving DecidableEq, Repr

/-- Whether a timer runs out before another. -/
def Timer.precedes (a b : Timer) : Bool :=
  a.due < b.due || (a.due == b.due && a.order < b.order)

/-- A record on its way to a worker, with the number of its batch. -/
structure Envelope where
  batch : Nat
  record : JobRecord
deriving Repr

/-- A result on its way back. -/
structure Report where
  batch : Nat
  jobId : String
  result : JobResult

/-- What a worker is doing. -/
inductive WorkerState (W : Type) where
  | idle
  | busy (envelope : Envelope) (task : Task W Ended)
  | reporting (report : Report)
  | stopped

/-- A worker, with the timer of the wait it is in. -/
structure Worker (W : Type) where
  state : WorkerState W
  timer : Option Timer

/-- Whether a worker has stopped for good. -/
def Worker.isStopped {W : Type} (w : Worker W) : Bool :=
  match w.state with
  | .stopped => true
  | _ => false

/-- A batch that waits for its turn. -/
structure Submission where
  ticket : Nat
  records : List JobRecord
deriving Repr

/-- The batch whose turn it is. -/
structure Batch where
  ticket : Nat
  number : Nat
  unsent : List (Nat × JobRecord)
  ledger : Ledger
  timer : Timer

/-- A pool of workers on a world. -/
structure Pool (W : Type) where
  limits : PoolLimits
  /-- How many items each channel holds. -/
  capacity : Nat
  world : W
  /-- Milliseconds since the pool began. -/
  now : Nat
  /-- How many timers have been set. -/
  order : Nat
  isShutdown : Bool
  /-- Whether workers have been told to stop after their present job. -/
  isQuitting : Bool
  jobs : List Envelope
  reports : List Report
  workers : List (Worker W)
  waiting : List Submission
  active : Option Batch
  nextBatch : Nat
  nextTicket : Nat
  answers : List (Nat × List JobResult)

namespace Pool

variable {W : Type}

/-- The number of workers of a pool for which none is given. -/
def defaultSize : Nat := 5

/-- The number of workers for a requested number: zero asks for the default. -/
def sizeFor (requested : Nat) : Nat :=
  if requested = 0 then defaultSize else requested

/-- The slots of each channel for one worker. -/
def slotsPerWorker : Nat := 10

/-- The slots of each channel of a pool, in a machine word. -/
def slotsFor (size : Nat) : Nat := size * slotsPerWorker % Word.count 64

/-- The most slots that a channel can have. -/
def mostSlots : Nat := Word.count 61 - 1

/-- Whether channels for this many workers can be made. -/
def canStart (size : Nat) : Bool := 0 < slotsFor size && slotsFor size ≤ mostSlots

/-- A pool of idle workers. -/
def start (limits : PoolLimits) (size : Nat) (world : W) : Pool W where
  limits := limits
  capacity := slotsFor size
  world := world
  now := 0
  order := 0
  isShutdown := false
  isQuitting := false
  jobs := []
  reports := []
  workers := List.replicate size ⟨.idle, none⟩
  waiting := []
  active := none
  nextBatch := 0
  nextTicket := 0
  answers := []

/-- The number of workers. -/
def size (p : Pool W) : Nat := p.workers.length

/-- Whether all workers have stopped. -/
def allStopped (p : Pool W) : Bool := p.workers.all Worker.isStopped

/-- Whether the active batch still has records to send. -/
def isSending (p : Pool W) : Bool :=
  match p.active with
  | some b => !b.unsent.isEmpty
  | none => false

/-- Whether no record can come into the job channel any more. -/
def jobsClosed (p : Pool W) : Bool := p.isShutdown && !p.isSending

/-- A timer that runs out after some milliseconds, and the pool with the timer counted. -/
def arm (p : Pool W) (millis : Nat) : Timer × Pool W :=
  (⟨p.now + millis, p.order⟩, { p with order := p.order + 1 })

/-- The answer to a batch that gets no turn. -/
def rejection (records : List JobRecord) : List JobResult :=
  records.map fun _ => .error .poolShutdown

/-- Gives a batch its results. -/
def answer (p : Pool W) (ticket : Nat) (results : List JobResult) : Pool W :=
  { p with answers := p.answers ++ [(ticket, results)] }

/-- The results of a batch, once it has them. -/
def answerOf? (p : Pool W) (ticket : Nat) : Option (List JobResult) :=
  p.answers.lookup ticket

/-- Hands in a batch. An empty one is answered at once, and so is any after a shutdown. -/
def submit (p : Pool W) (records : List JobRecord) : Nat × Pool W :=
  let ticket := p.nextTicket
  let p := { p with nextTicket := ticket + 1 }
  if records.isEmpty then (ticket, p.answer ticket [])
  else if p.isShutdown then (ticket, p.answer ticket (rejection records))
  else (ticket, { p with waiting := p.waiting ++ [⟨ticket, records⟩] })

/-- Goes on with the active batch: a timer for its next wait, or its answer. Slots that are
empty at the end get `unresolved`. -/
def proceed (p : Pool W) (b : Batch) (unresolved : JobError) : Pool W :=
  if !b.unsent.isEmpty then
    let (timer, p) := p.arm (p.limits.send * 1000)
    { p with active := some { b with timer := timer } }
  else if b.ledger.outstanding = 0 then
    { p with active := none }.answer b.ticket (b.ledger.finish unresolved)
  else
    let (timer, p) := p.arm (p.limits.result * 1000)
    { p with active := some { b with timer := timer } }

/-- The first waiting batch gets its turn, or its refusal after a shutdown. -/
def giveTurn? (p : Pool W) : Option (Pool W) :=
  match p.active, p.waiting with
  | none, s :: rest =>
      let p := { p with waiting := rest }
      if p.isShutdown then some (p.answer s.ticket (rejection s.records))
      else
        let b : Batch := {
          ticket := s.ticket
          number := p.nextBatch
          unsent := s.records.zipIdx.map fun (r, i) => (i, r)
          ledger := Ledger.start s.records.length
          timer := ⟨p.now, p.order⟩ }
        some ({ p with nextBatch := p.nextBatch + 1 }.proceed b .poolShutdown)
  | _, _ => none

/-- The active batch puts its next record into the job channel. -/
def send? (p : Pool W) : Option (Pool W) :=
  match p.active with
  | some b =>
      match b.unsent with
      | (index, r) :: rest =>
          if p.jobs.length < p.capacity ∧ p.allStopped = false then
            let p : Pool W := { p with jobs := p.jobs ++ [⟨b.number, r⟩] }
            some (p.proceed { b with unsent := rest, ledger := b.ledger.sent r.id index }
              .poolShutdown)
          else none
      | [] => none
  | none => none

/-- The next record of the active batch is not sent, for the reason given. -/
def skip? (p : Pool W) (reason : JobRecord → JobError) : Option (Pool W) :=
  match p.active with
  | some b =>
      match b.unsent with
      | (index, r) :: rest =>
          some (p.proceed { b with unsent := rest, ledger := b.ledger.refused index (reason r) }
            .poolShutdown)
      | [] => none
  | none => none

/-- The wait for room in the job channel runs out. -/
def sendTimeout? (p : Pool W) : Option (Pool W) :=
  match p.active with
  | some b =>
      if b.timer.due ≤ p.now then p.skip? fun r => .enqueueTimeout r.id p.limits.send else none
  | none => none

/-- Nobody is left to read the job channel. -/
def sendClosed? (p : Pool W) : Option (Pool W) :=
  if p.allStopped then p.skip? fun _ => .poolShutdown else none

/-- The error of a report that did not come. -/
def missing (p : Pool W) : JobError := .resultTimeout p.limits.result

/-- The active batch takes the oldest report. One of another batch is dropped. -/
def collect? (p : Pool W) : Option (Pool W) :=
  match p.active, p.reports with
  | some b, report :: rest =>
      if b.unsent.isEmpty then
        let p := { p with reports := rest }
        if report.batch = b.number then
          some (p.proceed { b with ledger := b.ledger.receive report.jobId report.result } p.missing)
        else some (p.proceed b p.missing)
      else none
  | _, _ => none

/-- The wait for a report runs out. -/
def collectTimeout? (p : Pool W) : Option (Pool W) :=
  match p.active with
  | some b =>
      if b.unsent.isEmpty && b.timer.due ≤ p.now then
        some (p.proceed { b with ledger := b.ledger.expire p.missing } p.missing)
      else none
  | none => none

/-- Nobody is left to write a report. -/
def collectClosed? (p : Pool W) : Option (Pool W) :=
  match p.active with
  | some b =>
      if b.unsent.isEmpty && p.reports.isEmpty && p.allStopped then
        some ({ p with active := none }.answer b.ticket (b.ledger.finish p.missing))
      else none
  | none => none

/-- The pool with one worker changed. -/
def setWorker (p : Pool W) (i : Nat) (state : WorkerState W) (timer : Option Timer) : Pool W :=
  { p with workers := p.workers.set i ⟨state, timer⟩ }

/-- A worker goes on with a task; where the task waits with a limit, its timer is set. -/
def setTask (p : Pool W) (i : Nat) (e : Envelope) (task : Task W Ended) : Pool W :=
  match task with
  | .wait _ (some millis) _ =>
      let (timer, p) := p.arm millis
      p.setWorker i (.busy e task) (some timer)
  | _ => p.setWorker i (.busy e task) none

/-- The state of a worker. -/
def workerState? (p : Pool W) (i : Nat) : Option (WorkerState W) :=
  (p.workers[i]?).map Worker.state

/-- An idle worker takes the oldest record of the job channel. -/
def take? (x : Executor W) (p : Pool W) (i : Nat) : Option (Pool W) :=
  match p.workerState? i, p.jobs with
  | some .idle, e :: rest => some ({ p with jobs := rest }.setTask i e (x.run (some i) e.record))
  | _, _ => none

/-- The result that a finished run is reported with. A run that broke off has failed. -/
def resultOf (ended : Ended) : JobResult :=
  match ended.result with
  | .ok () => .ok ()
  | .error (.error e) => .error e
  | .error (.crash c) => .error (.crashed c.message)

/-- A busy worker takes one step of its task, or turns to its report at the end of it. -/
def run? (p : Pool W) (i : Nat) : Option (Pool W) :=
  match p.workerState? i with
  | some (.busy e (.act update next)) =>
      some ({ p with world := update p.world }.setTask i e (next p.world))
  | some (.busy e (.done ended)) =>
      let (timer, p) := p.arm (p.limits.resultSend * 1000)
      some (p.setWorker i (.reporting ⟨e.batch, e.record.id, resultOf ended⟩) (some timer))
  | _ => none

/-- What the task of a worker waits for has come. -/
def ready? (p : Pool W) (i : Nat) : Option (Pool W) :=
  match p.workerState? i with
  | some (.busy e (.wait ready _ next)) =>
      if ready p.world then some (p.setTask i e (next true)) else none
  | _ => none

/-- Whether the timer of a worker has run out. -/
def isDue (p : Pool W) (i : Nat) : Bool :=
  match (p.workers[i]?).bind Worker.timer with
  | some timer => timer.due ≤ p.now
  | none => false

/-- The wait of a worker's task runs out. -/
def expire? (p : Pool W) (i : Nat) : Option (Pool W) :=
  match p.workerState? i with
  | some (.busy e (.wait _ _ next)) =>
      if p.isDue i then some (p.setTask i e (next false)) else none
  | _ => none

/-- A worker puts its report into the report channel. -/
def deliver? (p : Pool W) (i : Nat) : Option (Pool W) :=
  match p.workerState? i with
  | some (.reporting report) =>
      if p.reports.length < p.capacity then
        some ({ p with reports := p.reports ++ [report] }.setWorker i .idle none)
      else none
  | _ => none

/-- A worker gives up its report: there was no room for it in time. -/
def giveUp? (p : Pool W) (i : Nat) : Option (Pool W) :=
  match p.workerState? i with
  | some (.reporting _) => if p.isDue i then some (p.setWorker i .idle none) else none
  | _ => none

/-- An idle worker stops, since no record is left and none will come. -/
def stop? (p : Pool W) (i : Nat) : Option (Pool W) :=
  match p.workerState? i with
  | some .idle => if p.jobs.isEmpty && p.jobsClosed then some (p.setWorker i .stopped none) else none
  | _ => none

/-- An idle worker stops, since it was told to. -/
def quit? (p : Pool W) (i : Nat) : Option (Pool W) :=
  match p.workerState? i with
  | some .idle => if p.isQuitting then some (p.setWorker i .stopped none) else none
  | _ => none

/-- What can happen in a pool. -/
inductive Event where
  | submit (records : List JobRecord)
  | turn
  | send
  | sendTimeout
  | sendClosed
  | collect
  | collectTimeout
  | collectClosed
  | take (worker : Nat)
  | run (worker : Nat)
  | ready (worker : Nat)
  | expire (worker : Nat)
  | deliver (worker : Nat)
  | giveUp (worker : Nat)
  | stop (worker : Nat)
  | quit (worker : Nat)
  /-- A shutdown begins. -/
  | shutdown
  /-- The deadline of a shutdown passes with workers still busy. -/
  | deadline
  /-- Time passes. -/
  | elapse (millis : Nat)

/-- The pool after an event, if the event can happen. -/
def step (x : Executor W) (p : Pool W) : Event → Option (Pool W)
  | .submit records => some (p.submit records).2
  | .turn => p.giveTurn?
  | .send => p.send?
  | .sendTimeout => p.sendTimeout?
  | .sendClosed => p.sendClosed?
  | .collect => p.collect?
  | .collectTimeout => p.collectTimeout?
  | .collectClosed => p.collectClosed?
  | .take i => p.take? x i
  | .run i => p.run? i
  | .ready i => p.ready? i
  | .expire i => p.expire? i
  | .deliver i => p.deliver? i
  | .giveUp i => p.giveUp? i
  | .stop i => p.stop? i
  | .quit i => p.quit? i
  | .shutdown => some { p with isShutdown := true }
  | .deadline => some { p with isQuitting := true }
  | .elapse millis => some { p with now := p.now + millis }

/-- The pool after a list of events, if each of them can happen in its turn. -/
def replay (x : Executor W) : Pool W → List Event → Option (Pool W)
  | p, [] => some p
  | p, e :: rest => (p.step x e).bind fun p => replay x p rest

end Pool

end JobQueue
