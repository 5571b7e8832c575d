/-
The shutdown of a pool among its callers.

Calls that process batches and calls that shut the pool down go on beside one another and beside the
workers. `Standing` says where each call stands in the code, with what it knows of the pool, and
`Office` that all of them stand somewhere, whatever has happened (`Office.step`). The main statement
is `shutdown_orderly`: once a shutdown call has taken effect no batch is admitted, and one that was
not is rejected as a whole; no envelope is run twice; and when the call that took effect
returns without an error, all that was accepted has been run to its end.
-/

import JobQueue.Proofs.Engine.Callers
import JobQueue.Proofs.Pool.Shutdown
import JobQueue.Proofs.Simulation.Scripts

namespace JobQueue

variable {W : Type}

/-! ### Calls and where they stand -/

/-- A call on a pool. -/
inductive PoolCall where
  | process (records : List JobRecord)
  | shutdown (deadline : Span)

/-- What a call on a pool returns. -/
inductive PoolReply where
  | results (results : List JobResult)
  | ended (outcome : Except JobError Unit)

namespace PoolCall

/-- The call as a task. -/
def task (p : Processor W) : PoolCall → Task (Engine W) PoolReply
  | .process records => (Engine.processBatch records).bind fun results => .done (.results results)
  | .shutdown deadline => (Engine.shutdown p deadline).bind fun outcome => .done (.ended outcome)

/-- Whether the call is a shutdown. -/
def isShutdown : PoolCall → Bool
  | .process _ => false
  | .shutdown _ => true

/-- What is left of a call that will read its results. -/
def readTask (ticket : Nat) : Task (Engine W) PoolReply :=
  .act id fun e => .done (.results ((e.pool.answerOf? ticket).getD []))

/-- What is left of a call that waits for its results. -/
def awaitTask (ticket : Nat) : Task (Engine W) PoolReply :=
  .wait (fun e => (e.pool.answerOf? ticket).isSome) none fun _ => readTask ticket

/-- What is left of a shutdown that has missed its deadline. -/
def tellTask (deadline : Span) : Task (Engine W) PoolReply :=
  .act (fun e => (Engine.tellWorkersToQuit e).2) fun _ =>
    .done (.ended (.error (.shutdownDeadline deadline)))

/-- What is left of a shutdown that waits for the workers. -/
def drainTask (deadline : Span) : Task (Engine W) PoolReply :=
  .wait (fun e => e.pool.allStopped) (some deadline.millisUp) fun came =>
    if came then .done (.ended (.ok ())) else tellTask deadline

theorem task_process {p : Processor W} {records : List JobRecord} :
    (PoolCall.process records).task p =
      .act (fun e => e.setPool (e.pool.submit records).2) fun e =>
        awaitTask (e.pool.submit records).1 := rfl

theorem task_shutdown {p : Processor W} {deadline : Span} (pooled : p.isPooled = true) :
    (PoolCall.shutdown deadline).task p = .act (fun e => (Engine.beginShutdown e).2) fun e =>
      if (Engine.beginShutdown e).1 then drainTask deadline else .done (.ended (.ok ())) := by
  rw [task, Engine.shutdown, if_pos pooled]
  change Task.act _ _ = _
  congr 1
  funext e
  change Task.bind (Task.bind (.done (Engine.beginShutdown e).1) _) _ = _
  rw [Task.bind]
  cases (Engine.beginShutdown e).1 with
  | false => rfl
  | true =>
      change Task.wait _ _ _ = _
      congr 1
      funext came
      cases came <;> rfl

end PoolCall

/-- Where a call to process records stands, when it has this ticket. -/
inductive Processing (p : Processor W) (entries : List (Pool.Entry W)) (ticket? : Option Nat)
    (records : List JobRecord) (pool : Pool W) : Task (Engine W) PoolReply → Prop where
  | fresh (none : ticket? = none) :
      Processing p entries ticket? records pool ((PoolCall.process records).task p)
  | awaiting {ticket : Nat} (own : ticket? = some ticket)
      (handled : Pool.Handled entries ticket records pool) :
      Processing p entries ticket? records pool (PoolCall.awaitTask ticket)
  | reading {ticket : Nat} (own : ticket? = some ticket)
      (handled : Pool.Handled entries ticket records pool)
      (answered : (pool.answerOf? ticket).isSome = true) :
      Processing p entries ticket? records pool (PoolCall.readTask ticket)
  | answered {ticket : Nat} {results : List JobResult} (own : ticket? = some ticket)
      (handled : Pool.Handled entries ticket records pool)
      (answered : pool.answerOf? ticket = some results) :
      Processing p entries ticket? records pool (.done (.results results))

/-- Where a call to shut the pool down stands, when it is or is not the first such call. -/
inductive Closing (p : Processor W) (isFirst : Prop) (deadline : Span) (pool : Pool W) :
    Task (Engine W) PoolReply → Prop where
  | fresh (later : ¬ isFirst) :
      Closing p isFirst deadline pool ((PoolCall.shutdown deadline).task p)
  | second (later : ¬ isFirst) : Closing p isFirst deadline pool (.done (.ended (.ok ())))
  | draining (first : isFirst) (untold : pool.isQuitting = false) :
      Closing p isFirst deadline pool (PoolCall.drainTask deadline)
  | telling (first : isFirst) (untold : pool.isQuitting = false) :
      Closing p isFirst deadline pool (PoolCall.tellTask deadline)
  | drained (first : isFirst) (untold : pool.isQuitting = false) (dead : pool.allStopped = true) :
      Closing p isFirst deadline pool (.done (.ended (.ok ())))
  | failed (first : isFirst) :
      Closing p isFirst deadline pool (.done (.ended (.error (.shutdownDeadline deadline))))

/-- Where a call stands. -/
def Standing (p : Processor W) (entries : List (Pool.Entry W)) (ticket? : Option Nat)
    (isFirst : Prop) (pool : Pool W) : PoolCall → Task (Engine W) PoolReply → Prop
  | .process records => Processing p entries ticket? records pool
  | .shutdown deadline => Closing p isFirst deadline pool

variable {p : Processor W} {x : Executor W} {entries : List (Pool.Entry W)} {ticket? : Option Nat}
  {isFirst : Prop} {pool q : Pool W} {event : Pool.Event} {call : PoolCall}
  {task : Task (Engine W) PoolReply} {records : List JobRecord} {deadline : Span}

theorem Processing.step (processing : Processing p entries ticket? records pool task)
    (kept : Pool.Kept x entries pool) (rule : Pool.Step x pool event q) :
    Processing p (entries ++ (pool.logged? event).toList) ticket? records q task := by
  cases processing with
  | fresh none => exact .fresh none
  | awaiting own handled => exact .awaiting own (handled.step kept rule)
  | reading own handled answered =>
      obtain ⟨results, found⟩ := Option.isSome_iff_exists.mp answered
      refine .reading own (handled.step kept rule) ?_
      rw [rule.answerOf?_eq_some found]
      rfl
  | answered own handled answered =>
      exact .answered own (handled.step kept rule) (rule.answerOf?_eq_some answered)

/-- While a shutdown goes on, nobody but its first call tells workers to quit. -/
theorem Closing.step (closing : Closing p isFirst deadline pool task)
    (rule : Pool.Step x pool event q)
    (staying : isFirst → pool.isQuitting = false → q.isQuitting = false) :
    Closing p isFirst deadline q task := by
  cases closing with
  | fresh later => exact .fresh later
  | second later => exact .second later
  | draining first untold => exact .draining first (staying first untold)
  | telling first untold => exact .telling first (staying first untold)
  | drained first untold dead =>
      exact .drained first (staying first untold) (rule.allStopped dead)
  | failed first => exact .failed first

theorem Standing.step (standing : Standing p entries ticket? isFirst pool call task)
    (kept : Pool.Kept x entries pool) (rule : Pool.Step x pool event q)
    (staying : isFirst → pool.isQuitting = false → q.isQuitting = false) :
    Standing p (entries ++ (pool.logged? event).toList) ticket? isFirst q call task := by
  cases call with
  | process records => exact Processing.step standing kept rule
  | shutdown deadline => exact Closing.step standing rule staying

/-! ### All calls together -/

namespace Callers

/-- The shutdown call that a move is a step of. -/
def opening? (calls : List PoolCall) : Move → Option Nat
  | .call i _ => if (calls[i]?).any PoolCall.isShutdown then some i else none
  | .pool _ => none

/-- The shutdown call that is the first to take a step. -/
def opener? (calls : List PoolCall) (moves : List Move) : Option Nat :=
  moves.findSome? (opening? calls)

/-- The ticket that a call gets if a move is the first of its steps. -/
def asking? (i : Nat) (c : Callers W PoolReply) : Move → Option Nat
  | .call j _ => if j = i then some c.engine.pool.nextTicket else none
  | .pool _ => none

/-- The ticket of a call that has taken a step. -/
def ticketOf? (x : Executor W) (c : Callers W PoolReply) (moves : List Move) (i : Nat) :
    Option Nat :=
  (c.readings x (asking? i) moves).head?

/-- Callers about to make these calls on a processor. -/
def begin (p : Processor W) (world : W) (calls : List PoolCall) : Callers W PoolReply :=
  ⟨Engine.start p world, calls.map (PoolCall.task p)⟩

/-- Where all calls stand, with the log of the pool, the tickets of the calls and the shutdown call
that has been the first to take a step. -/
structure Office (p : Processor W) (calls : List PoolCall) (entries : List (Pool.Entry W))
    (tickets : Nat → Option Nat) (opener : Option Nat) (c : Callers W PoolReply) : Prop where
  kept : Pool.Kept p.executor entries c.engine.pool
  stopping : c.engine.pool.Stopping
  flag : c.engine.pool.isShutdown = opener.isSome
  untold : opener = none → c.engine.pool.isQuitting = false
  size : c.tasks.length = calls.length
  each : ∀ i call task, calls[i]? = some call → c.tasks[i]? = some task →
    Standing p entries (tickets i) (opener = some i) c.engine.pool call task

variable {calls : List PoolCall} {tickets tickets' : Nat → Option Nat} {opener opener' : Option Nat}
  {c c' : Callers W PoolReply} {moves : List Move} {move : Move} {world : W}

theorem office_begin (pooled : p.isPooled = true) :
    Office p calls [] (fun _ => none) none (begin p world calls) where
  kept := Pool.kept_start
  stopping := by
    refine Pool.stopping_start ?_
    rw [Processor.workers, if_pos pooled, Pool.sizeFor]
    split
    · decide
    · assumption
  flag := rfl
  untold := fun _ => rfl
  size := List.length_map _
  each := by
    intro i call task named here
    have same : task = call.task p := by
      rw [begin, List.getElem?_map, named] at here
      exact (Option.some.inj here).symm
    subst same
    cases call with
    | process records => exact Processing.fresh rfl
    | shutdown deadline => exact Closing.fresh (by simp)

/-- An event inside the pool leaves all calls where they stand. -/
theorem Office.move_pool (office : Office p calls entries tickets opener c)
    (inner : event.isInner = true) (rule : Pool.Step p.executor c.engine.pool event q) :
    Office p calls (entries ++ (c.engine.pool.logged? event).toList) tickets opener
      { c with engine := c.engine.setPool q } where
  kept := office.kept.step rule
  stopping := office.stopping.step rule
  flag := (rule.flags inner).1.trans office.flag
  untold := fun none => (rule.flags inner).2.trans (office.untold none)
  size := office.size
  each := fun i call task named here =>
    (office.each i call task named here).step office.kept rule
      fun _ untold => (rule.flags inner).2.trans untold

/-- A step of one call leaves the others where they stand. -/
theorem Office.move_call {j : Nat} {task task' : Task (Engine W) PoolReply}
    (office : Office p calls entries tickets opener c)
    (named : calls[j]? = some call) (here : c.tasks[j]? = some task)
    (change : q = c.engine.pool ∨ ∃ event, Pool.Step p.executor c.engine.pool event q ∧
      c.engine.pool.logged? event = none)
    (flag : q.isShutdown = opener'.isSome) (untold : opener' = none → q.isQuitting = false)
    (staying : ∀ i, i ≠ j → opener = some i → c.engine.pool.isQuitting = false →
      q.isQuitting = false)
    (first : ∀ i, i ≠ j → (opener' = some i ↔ opener = some i))
    (same : ∀ i, i ≠ j → tickets' i = tickets i)
    (stands : Standing p entries (tickets' j) (opener' = some j) q call task') :
    Office p calls entries tickets' opener' ⟨c.engine.setPool q, c.tasks.set j task'⟩ := by
  have inside : j < c.tasks.length := (List.getElem?_eq_some_iff.mp here).1
  have more : ∀ event, c.engine.pool.logged? event = none →
      entries ++ (c.engine.pool.logged? event).toList = entries := by
    intro event unseen
    rw [unseen, Option.toList_none, List.append_nil]
  refine ⟨?_, ?_, flag, untold, (List.length_set ..).trans office.size, ?_⟩
  · rcases change with rfl | ⟨event, rule, unseen⟩
    · exact office.kept
    · exact more event unseen ▸ office.kept.step rule
  · rcases change with rfl | ⟨event, rule, _⟩
    · exact office.stopping
    · exact office.stopping.step rule
  · intro i other task'' named' here'
    by_cases own : i = j
    · subst own
      rw [List.getElem?_set_self inside] at here'
      cases here'
      cases named.symm.trans named'
      exact stands
    · rw [List.getElem?_set_ne (Ne.symm own)] at here'
      have before := office.each i other task'' named' here'
      rw [same i own, first i own]
      rcases change with rfl | ⟨event, rule, unseen⟩
      · exact before
      · exact more event unseen ▸ before.step office.kept rule (staying i own)

/-- A step of a call that processes records. -/
theorem Office.move_process {j : Nat} {came : Bool} {task task' : Task (Engine W) PoolReply}
    {engine : Engine W} (office : Office p calls entries tickets opener c)
    (named : calls[j]? = some (.process records)) (here : c.tasks[j]? = some task)
    (able : canStep came task c.engine = true)
    (goes : task.step came c.engine = some (task', engine)) :
    Office p calls entries (fun i => (tickets i).or (asking? i c (.call j came))) opener
      ⟨engine, c.tasks.set j task'⟩ := by
  have other : ∀ i, i ≠ j → (tickets i).or (asking? i c (.call j came)) = tickets i := by
    intro i differs
    rw [asking?, if_neg (Ne.symm differs), Option.or_none]
  have own : ∀ {ticket}, tickets j = some ticket →
      (tickets j).or (asking? j c (.call j came)) = some ticket := by
    intro ticket known
    rw [known, Option.some_or]
  cases office.each j _ task named here with
  | fresh none =>
      rw [PoolCall.task_process] at goes
      cases goes
      obtain ⟨flag, quitting⟩ := Pool.submit_flags c.engine.pool records
      have rule : Pool.Step p.executor c.engine.pool (.submit records)
          (c.engine.pool.submit records).2 := Pool.step_eq_some_iff.mp rfl
      refine office.move_call named here (Or.inr ⟨_, rule, rfl⟩) (flag.trans office.flag)
        (fun none => quitting.trans (office.untold none))
        (fun _ _ _ untold => quitting.trans untold)
        (fun _ _ => Iff.rfl) other ?_
      dsimp only
      rw [Pool.submit_fst]
      refine Processing.awaiting ?_ (Pool.handled_submit office.kept)
      rw [none, asking?, if_pos rfl, Option.none_or]
  | @awaiting ticket known handled =>
      cases goes
      have answered : (c.engine.pool.answerOf? ticket).isSome = true := by
        cases came with
        | true => exact able
        | false => cases able
      exact office.move_call named here (Or.inl rfl) office.flag office.untold
        (fun _ _ _ untold => untold) (fun _ _ => Iff.rfl) other
        (Processing.reading (own known) handled answered)
  | reading known handled answered =>
      cases goes
      obtain ⟨results, found⟩ := Option.isSome_iff_exists.mp answered
      refine office.move_call named here (Or.inl rfl) office.flag office.untold
        (fun _ _ _ untold => untold) (fun _ _ => Iff.rfl) other ?_
      dsimp only
      rw [found]
      exact Processing.answered (own known) handled found
  | answered => cases goes

/-- A step of a call that shuts the pool down. -/
theorem Office.move_shutdown {j : Nat} {came : Bool} {task task' : Task (Engine W) PoolReply}
    {engine : Engine W} (office : Office p calls entries tickets opener c)
    (pooled : p.isPooled = true)
    (named : calls[j]? = some (.shutdown deadline)) (here : c.tasks[j]? = some task)
    (able : canStep came task c.engine = true)
    (goes : task.step came c.engine = some (task', engine)) :
    Office p calls entries (fun i => (tickets i).or (asking? i c (.call j came)))
      (opener.or (some j)) ⟨engine, c.tasks.set j task'⟩ := by
  have other : ∀ i, i ≠ j → (tickets i).or (asking? i c (.call j came)) = tickets i := by
    intro i differs
    rw [asking?, if_neg (Ne.symm differs), Option.or_none]
  have first : ∀ i, i ≠ j → (opener.or (some j) = some i ↔ opener = some i) := by
    intro i differs
    cases opener with
    | none => simp [Ne.symm differs]
    | some k => simp
  have taken : opener.isSome = true → (opener.or (some j)).isSome = opener.isSome := by
    cases opener with
    | none => simp
    | some k => simp
  cases office.each j _ task named here with
  | fresh later =>
      rw [PoolCall.task_shutdown pooled] at goes
      cases goes
      cases flag : c.engine.pool.isShutdown with
      | true =>
          have late : opener.isSome = true := office.flag.symm.trans flag
          have begins : Engine.beginShutdown c.engine = (false, c.engine) := by
            rw [Engine.beginShutdown, if_pos flag]
          simp only [begins]
          refine office.move_call named here (Or.inl rfl) (office.flag.trans (taken late).symm) ?_
            (fun _ _ _ untold => untold) first other (Closing.second ?_)
          · intro none
            simp at none
          · cases opener with
            | none => cases late
            | some k => exact later
      | false =>
          have none : opener = none := Option.isNone_iff_eq_none.mp
            (Option.isSome_eq_false_iff.mp (office.flag.symm.trans flag))
          subst none
          have untold := office.untold rfl
          have begins : Engine.beginShutdown c.engine =
              (true, c.engine.setPool { c.engine.pool with isShutdown := true }) := by
            rw [Engine.beginShutdown, if_neg (by simp [flag])]
          simp only [begins]
          exact office.move_call named here (Or.inr ⟨_, .shutdown, rfl⟩) rfl (fun _ => untold)
            (fun _ _ _ untold => untold) first other (Closing.draining rfl untold)
  | second => cases goes
  | draining own untold =>
      subst own
      cases goes
      cases came with
      | true =>
          exact office.move_call named here (Or.inl rfl) office.flag (fun _ => untold)
            (fun _ _ _ untold => untold) first other (Closing.drained rfl untold able)
      | false =>
          exact office.move_call named here (Or.inl rfl) office.flag (fun _ => untold)
            (fun _ _ _ untold => untold) first other (Closing.telling rfl untold)
  | telling own untold =>
      subst own
      cases goes
      refine office.move_call named here (Or.inr ⟨_, .deadline, rfl⟩) office.flag (by simp) ?_ first
        other (Closing.failed rfl)
      intro i differs own
      exact absurd (Option.some.inj own).symm differs
  | drained => cases goes
  | failed => cases goes

/-- Whatever happens next, all calls stand somewhere. -/
theorem Office.step (office : Office p calls entries tickets opener c)
    (pooled : p.isPooled = true) (rule : Step p.executor c move c') :
    Office p calls (entries ++ (c.logged? move).toList)
      (fun i => (tickets i).or (asking? i c move)) (opener.or (opening? calls move)) c' := by
  cases rule with
  | @pool event q inner rule =>
      have same : (fun i => (tickets i).or (asking? i c (.pool event))) = tickets :=
        funext fun i => Option.or_none
      rw [opening?, Option.or_none, same]
      exact office.move_pool inner rule
  | @call i came t t' engine here able goes =>
      have inside : i < calls.length := office.size ▸ (List.getElem?_eq_some_iff.mp here).1
      have named := List.getElem?_eq_getElem inside
      rw [logged?, Option.toList_none, List.append_nil, opening?, named]
      cases known : calls[i] with
      | process records =>
          rw [known] at named
          simpa [PoolCall.isShutdown] using office.move_process named here able goes
      | shutdown deadline =>
          rw [known] at named
          exact office.move_shutdown pooled named here able goes

theorem ticketOf?_snoc {c₀ : Callers W PoolReply} {i : Nat} (run : c₀.replay x moves = some c) :
    c₀.ticketOf? x (moves ++ [move]) i = (c₀.ticketOf? x moves i).or (asking? i c move) := by
  rw [ticketOf?, readings_snoc run, List.head?_append, ← ticketOf?]
  cases asking? i c move <;> rfl

theorem opener?_snoc : opener? calls (moves ++ [move]) =
    (opener? calls moves).or (opening? calls move) := by
  rw [opener?, List.findSome?_append, ← opener?]
  cases opened : opening? calls move <;> simp [opened]

/-- Wherever a course of moves has led, all calls stand somewhere. -/
theorem office_replay (pooled : p.isPooled = true)
    (run : (begin p world calls).replay p.executor moves = some c) :
    Office p calls ((begin p world calls).log p.executor moves)
      ((begin p world calls).ticketOf? p.executor moves) (opener? calls moves) c := by
  refine replay_induction (motive := fun moves c => Office p calls
    ((begin p world calls).log p.executor moves)
    ((begin p world calls).ticketOf? p.executor moves) (opener? calls moves) c)
    (office_begin pooled) ?_ run
  intro moves c move c' run office rule
  have tickets : (begin p world calls).ticketOf? p.executor (moves ++ [move]) =
      fun i => ((begin p world calls).ticketOf? p.executor moves i).or (asking? i c move) :=
    funext fun _ => ticketOf?_snoc run
  rw [log_snoc run, tickets, opener?_snoc]
  exact office.step pooled rule

/-! ### Calls whose batches are not admitted -/

/-- No batch with the ticket of a call has been admitted. -/
def Unadmitted (entries : List (Pool.Entry W)) (ticket? : Option Nat) : Prop :=
  ∀ ticket, ticket? = some ticket → ∀ a ∈ Pool.admitted entries, a.1.ticket ≠ ticket

/-- Once a shutdown has begun nothing more is admitted. -/
theorem Office.late (office : Office p calls entries tickets opener c)
    (pooled : p.isPooled = true) (late : c.engine.pool.isShutdown = true)
    (rule : Step p.executor c move c') : c'.engine.pool.isShutdown = true ∧
      Pool.admitted (entries ++ (c.logged? move).toList) = Pool.admitted entries := by
  have begun : opener.isSome = true := office.flag.symm.trans late
  constructor
  · rw [(office.step pooled rule).flag]
    cases opener with
    | none => cases begun
    | some k => rfl
  · cases move with
    | pool event => exact Pool.admitted_late late
    | call j came => rw [logged?, Option.toList_none, List.append_nil]

/-- A call that comes after a shutdown has begun gets a ticket that no admitted batch has. -/
theorem Office.unadmitted {i : Nat} (office : Office p calls entries tickets opener c)
    (pooled : p.isPooled = true) (late : c.engine.pool.isShutdown = true)
    (unadmitted : Unadmitted entries (tickets i)) (rule : Step p.executor c move c') :
    Unadmitted (entries ++ (c.logged? move).toList) ((tickets i).or (asking? i c move)) := by
  intro ticket known a there
  rw [(office.late pooled late rule).2] at there
  cases before : tickets i with
  | some old =>
      rw [before, Option.some_or] at known
      exact unadmitted ticket (before.trans known) a there
  | none =>
      rw [before, Option.none_or] at known
      have fresh : ticket = c.engine.pool.nextTicket := by
        cases move with
        | pool event => cases known
        | call j came =>
            rw [asking?] at known
            split at known
            next => exact (Option.some.inj known).symm
            next => cases known
      rw [fresh]
      exact Nat.ne_of_lt (office.kept.admissions.named a there)

/-- A call whose results are there can read them. -/
theorem exists_read {i ticket : Nat} {results : List JobResult}
    (here : c.tasks[i]? = some (PoolCall.readTask ticket))
    (answered : c.engine.pool.answerOf? ticket = some results) : ∃ moves final,
      c.replay x moves = some final ∧ final.tasks[i]? = some (.done (.results results)) := by
  have inside : i < c.tasks.length := (List.getElem?_eq_some_iff.mp here).1
  have rule : Step x c (.call i true) ⟨c.engine, c.tasks.set i (.done (.results results))⟩ := by
    refine .call here rfl ?_
    rw [PoolCall.readTask, Task.step, answered]
    rfl
  exact ⟨[.call i true], _, replay_one rule, List.getElem?_set_self inside⟩

/-- A call that waits for its results can read them once they are there. -/
theorem exists_answered {i ticket : Nat} {results : List JobResult}
    (here : c.tasks[i]? = some (PoolCall.awaitTask ticket))
    (answered : c.engine.pool.answerOf? ticket = some results) : ∃ moves final,
      c.replay x moves = some final ∧ final.tasks[i]? = some (.done (.results results)) := by
  have inside : i < c.tasks.length := (List.getElem?_eq_some_iff.mp here).1
  have rule : Step x c (.call i true)
      ⟨c.engine, c.tasks.set i (PoolCall.readTask ticket)⟩ := by
    refine .call here ?_ rfl
    change (c.engine.pool.answerOf? ticket).isSome = true
    rw [answered]
    rfl
  obtain ⟨moves, final, run, done⟩ := exists_read (x := x)
    (c := ⟨c.engine, c.tasks.set i (PoolCall.readTask ticket)⟩)
    (List.getElem?_set_self inside) answered
  refine ⟨[.call i true] ++ moves, final, ?_, done⟩
  rw [replay_append, replay_one rule]
  exact run

/-- A call that has handed in its batch, and will not see it admitted, can be brought to the
rejection of the batch. -/
theorem Office.exists_rejection_of_ticket {i ticket : Nat}
    (office : Office p calls entries tickets opener c) (late : c.engine.pool.isShutdown = true)
    (unadmitted : Unadmitted entries (tickets i))
    (named : calls[i]? = some (.process records)) (known : tickets i = some ticket) :
    ∃ moves final, c.replay p.executor moves = some final ∧
      final.tasks[i]? = some (.done (.results (Pool.rejection records))) := by
  have inside : i < c.tasks.length := office.size ▸ (List.getElem?_eq_some_iff.mp named).1
  have here := List.getElem?_eq_getElem inside
  have ticketed := office.kept.ticketed
  have processing := office.each i _ _ named here
  generalize c.tasks[i] = task at here processing
  cases processing with
  | fresh none => cases none.symm.trans known
  | @awaiting ticket' own handled =>
      cases handled with
      | rejected answered _ => exact exists_answered here answered
      | turned number there => exact absurd rfl (unadmitted ticket' own _ there)
      | waiting waits =>
          obtain ⟨events, q, inner, run, answered⟩ :=
            Pool.exists_rejection late ticketed waits
          obtain ⟨moves, final, run', done⟩ := exists_answered (x := p.executor)
            (c := { c with engine := c.engine.setPool q }) here answered
          refine ⟨events.map .pool ++ moves, final, ?_, done⟩
          rw [replay_append, replay_pool inner run]
          exact run'
  | @reading ticket' own handled answered =>
      obtain ⟨results, found⟩ := Option.isSome_iff_exists.mp answered
      rw [handled.eq_rejection ticketed (unadmitted ticket' own) found] at found
      exact exists_read here found
  | @answered ticket' results own handled answered =>
      rw [handled.eq_rejection ticketed (unadmitted ticket' own) answered] at here
      exact ⟨[], c, rfl, here⟩

/-- After a shutdown has begun, a call that has not seen its batch admitted can be brought to the
rejection of the batch. -/
theorem Office.exists_rejection {i : Nat} (office : Office p calls entries tickets opener c)
    (pooled : p.isPooled = true) (late : c.engine.pool.isShutdown = true)
    (unadmitted : Unadmitted entries (tickets i)) (named : calls[i]? = some (.process records)) :
    ∃ moves final, c.replay p.executor moves = some final ∧
      final.tasks[i]? = some (.done (.results (Pool.rejection records))) := by
  cases known : tickets i with
  | some ticket => exact office.exists_rejection_of_ticket late unadmitted named known
  | none =>
      have inside : i < c.tasks.length := office.size ▸ (List.getElem?_eq_some_iff.mp named).1
      have here := List.getElem?_eq_getElem inside
      have processing := office.each i _ _ named here
      generalize c.tasks[i] = task at here processing
      cases processing with
      | awaiting own | reading own | answered own => cases known.symm.trans own
      | fresh _ =>
          rw [PoolCall.task_process] at here
          have rule : Step p.executor c (.call i true) _ := .call here rfl rfl
          have late' := (office.late pooled late rule).1
          have unadmitted' := office.unadmitted pooled late unadmitted rule
          have asked : (tickets i).or (asking? i c (.call i true)) =
              some c.engine.pool.nextTicket := by
            rw [known, asking?, if_pos rfl, Option.none_or]
          obtain ⟨moves, final, run, done⟩ :=
            (office.step pooled rule).exists_rejection_of_ticket late' unadmitted' named asked
          refine ⟨[.call i true] ++ moves, final, ?_, done⟩
          rw [replay_append, replay_one rule]
          exact run

/-- The world changes at the steps of runs only. -/
theorem Office.world_eq (office : Office p calls entries tickets opener c)
    (pooled : p.isPooled = true) (rule : Step p.executor c move c') :
    c'.engine.world = c.engine.world ∨
      ∃ i e, c.logged? move = some (.did i e (.world c.engine.world)) := by
  cases rule with
  | pool inner rule =>
      rcases rule.world_eq with ⟨same, _⟩ | ⟨i, e, _, _, _, _, seen⟩
      · exact Or.inl same
      · exact Or.inr ⟨i, e, seen⟩
  | @call i came t t' engine here able goes =>
      left
      have inside : i < calls.length := office.size ▸ (List.getElem?_eq_some_iff.mp here).1
      have standing := office.each i _ _ (List.getElem?_eq_getElem inside) here
      cases named : calls[i] with
      | process records =>
          rw [named] at standing
          cases standing with
          | fresh none =>
              rw [PoolCall.task_process] at goes
              cases goes
              exact (Pool.submit_frame ..).2.2.2.1
          | awaiting | reading =>
              cases goes
              rfl
          | answered => cases goes
      | shutdown deadline =>
          rw [named] at standing
          cases standing with
          | fresh later =>
              rw [PoolCall.task_shutdown pooled] at goes
              cases goes
              change (Engine.beginShutdown c.engine).2.world = _
              rw [Engine.beginShutdown]
              split <;> rfl
          | draining | telling =>
              cases goes
              rfl
          | second | drained | failed => cases goes

/-! ### All of it -/

/-- What the log of a pool tells of its envelopes. -/
structure Orderly (x : Executor W) (entries : List (Pool.Entry W)) (pool : Pool W) : Prop where
  /-- The workers take the accepted envelopes in their order and each of them once. -/
  order : Pool.accepted entries = (Pool.begun entries).map Prod.snd ++ pool.jobs
  /-- A worker has run all envelopes that it has taken to their ends, but for the last one if it is
  at its run. -/
  each : ∀ i, Pool.begunBy entries i =
    Pool.endedBy entries i ++ ((pool.runOf? i).map Prod.fst).toList
  /-- A worker takes steps only of runs of envelopes that it has taken. -/
  steps : ∀ i e input, .did i e input ∈ entries → (i, e) ∈ Pool.begun entries
  /-- What has ended is a whole run of its envelope. -/
  runs : ∀ i e ended, .ended i e ended ∈ entries → ∃ before inputs after,
    Pool.ofWorker entries i =
      before ++ .begun i e :: (inputs.map (.did i e) ++ .ended i e ended :: after) ∧
    (x.run (some i) e.record).follow inputs = some (.done ended)
  /-- Each accepted envelope is of one batch that was admitted. -/
  source : ∀ e ∈ Pool.accepted entries, ∃ s, (s, e.batch) ∈ Pool.admitted entries ∧
    e.record ∈ s.records
  /-- No two admitted batches have one number. -/
  numbers : ((Pool.admitted entries).map Prod.snd).Nodup
  /-- No batch is admitted twice. -/
  tickets : ((Pool.admitted entries).map fun a => a.1.ticket).Nodup

/-- What was accepted has been run to its end, and no run is in progress. -/
structure Drained (entries : List (Pool.Entry W)) (pool : Pool W) : Prop where
  taken : Pool.accepted entries = (Pool.begun entries).map Prod.snd
  ended : ∀ i, Pool.begunBy entries i = Pool.endedBy entries i
  empty : pool.jobs = []
  resting : pool.atWork = []

theorem orderly_of_kept (kept : Pool.Kept x entries pool) : Orderly x entries pool where
  order := kept.order
  each := fun i => (kept.shifts i).begun_eq
  steps := by
    intro i e input there
    have own : .did i e input ∈ Pool.ofWorker entries i := by
      rw [Pool.ofWorker, List.mem_filter]
      exact ⟨there, by simp [Pool.Entry.worker?]⟩
    exact (List.filter_sublist.filterMap _).subset ((kept.shifts i).did own)
  runs := by
    intro i e ended there
    refine (kept.shifts i).past ?_
    rw [Pool.ofWorker, List.mem_filter]
    exact ⟨there, by simp [Pool.Entry.worker?]⟩
  source := kept.admissions.source
  numbers := kept.admissions.numbers
  tickets := kept.admissions.tickets

/-- From a moment at which a shutdown has begun nothing is admitted, and who was not admitted by
then never is. -/
theorem admitted_of_late {before later : List Move} {middle after : Callers W PoolReply}
    (pooled : p.isPooled = true)
    (first : (begin p world calls).replay p.executor before = some middle)
    (late : middle.engine.pool.isShutdown = true)
    (run : middle.replay p.executor later = some after) :
    after.engine.pool.isShutdown = true ∧
      Pool.admitted ((begin p world calls).log p.executor (before ++ later)) =
        Pool.admitted ((begin p world calls).log p.executor before) ∧
      ∀ i, Unadmitted ((begin p world calls).log p.executor before)
          ((begin p world calls).ticketOf? p.executor before i) →
        Unadmitted ((begin p world calls).log p.executor (before ++ later))
          ((begin p world calls).ticketOf? p.executor (before ++ later) i) := by
  refine replay_induction (motive := fun later after => after.engine.pool.isShutdown = true ∧
    Pool.admitted ((begin p world calls).log p.executor (before ++ later)) =
      Pool.admitted ((begin p world calls).log p.executor before) ∧
    ∀ i, Unadmitted ((begin p world calls).log p.executor before)
        ((begin p world calls).ticketOf? p.executor before i) →
      Unadmitted ((begin p world calls).log p.executor (before ++ later))
        ((begin p world calls).ticketOf? p.executor (before ++ later) i)) ?_ ?_ run
  · rw [List.append_nil]
    exact ⟨late, rfl, fun i unadmitted => unadmitted⟩
  · intro later c move c' run' earlier rule
    obtain ⟨late', same, refused⟩ := earlier
    have all : (begin p world calls).replay p.executor (before ++ later) = some c := by
      rw [replay_append, first]
      exact run'
    have office := office_replay pooled all
    obtain ⟨late'', unchanged⟩ := office.late pooled late' rule
    rw [← List.append_assoc, log_snoc all]
    refine ⟨late'', unchanged.trans same, fun i unadmitted => ?_⟩
    rw [ticketOf?_snoc all]
    exact office.unadmitted pooled late' (refused i unadmitted) rule

/-- A call whose batch was not admitted returns its rejection, if it returns. -/
theorem Office.eq_rejection {i : Nat} {results : List JobResult}
    (office : Office p calls entries tickets opener c) (unadmitted : Unadmitted entries (tickets i))
    (named : calls[i]? = some (.process records))
    (done : c.tasks[i]? = some (.done (.results results))) : results = Pool.rejection records := by
  have processing := office.each i _ _ named done
  cases processing with
  | answered own handled answered =>
      exact handled.eq_rejection office.kept.ticketed (unadmitted _ own) answered

/-- When the shutdown call that was the first has returned without an error, all is done. -/
theorem Office.drained {i : Nat} (office : Office p calls entries tickets opener c)
    (pooled : p.isPooled = true) (first : opener = some i)
    (named : calls[i]? = some (.shutdown deadline))
    (done : c.tasks[i]? = some (.done (.ended (.ok ())))) : Drained entries c.engine.pool := by
  have closing := office.each i _ _ named done
  generalize returned : Task.done (PoolReply.ended (.ok ())) = task at closing
  cases closing with
  | fresh =>
      rw [PoolCall.task_shutdown pooled] at returned
      cases returned
  | draining | telling | failed => cases returned
  | second later => exact absurd first later
  | drained _ untold dead =>
      obtain ⟨taken, empty, resting, ended⟩ := office.kept.drained office.stopping untold dead
      exact ⟨taken, ended, empty, resting⟩

theorem isShutdown_of_opener? {i : Nat} (first : opener? calls moves = some i) :
    ∃ deadline, calls[i]? = some (.shutdown deadline) := by
  obtain ⟨move, _, opening⟩ := List.exists_of_findSome?_eq_some first
  cases move with
  | pool event => cases opening
  | call j came =>
      rw [opening?] at opening
      split at opening
      next closes =>
        cases opening
        obtain ⟨call, named, closes⟩ := (Option.any_eq_true ..).mp closes
        cases call with
        | process records => cases closes
        | shutdown deadline => exact ⟨deadline, named⟩
      next => cases opening

/-- The shutdown of a pool, for all courses of calls that process batches, calls that shut the pool
down, and the workers. Once a shutdown has begun, nothing is admitted; a call that has not had its
batch admitted by then never has, returns nothing but the rejection of the batch, and can get that
far. Each accepted envelope is of one admitted batch and is taken once, by one worker, which runs it
to its end before it takes the next; only steps of these runs change the world. And when
the shutdown call that was the first has returned without an error, all that was ever accepted has
been run to its end and no run is in progress. -/
theorem shutdown_orderly (pooled : p.isPooled = true) {after : Callers W PoolReply}
    (run : (begin p world calls).replay p.executor moves = some after) :
    (∀ before later middle, moves = before ++ later →
      (begin p world calls).replay p.executor before = some middle →
      middle.engine.pool.isShutdown = true →
        Pool.admitted ((begin p world calls).log p.executor moves) =
          Pool.admitted ((begin p world calls).log p.executor before) ∧
        ∀ i records, calls[i]? = some (.process records) →
          Unadmitted ((begin p world calls).log p.executor before)
            ((begin p world calls).ticketOf? p.executor before i) →
          Unadmitted ((begin p world calls).log p.executor moves)
              ((begin p world calls).ticketOf? p.executor moves i) ∧
            (∀ results, after.tasks[i]? = some (.done (.results results)) →
              results = Pool.rejection records) ∧
            ∃ more final, after.replay p.executor more = some final ∧
              final.tasks[i]? = some (.done (.results (Pool.rejection records)))) ∧
    Orderly p.executor ((begin p world calls).log p.executor moves) after.engine.pool ∧
    (∀ before move later c c', moves = before ++ move :: later →
      (begin p world calls).replay p.executor before = some c →
      c.step p.executor move = some c' → c'.engine.world = c.engine.world ∨
        ∃ i e, c.logged? move = some (.did i e (.world c.engine.world))) ∧
    ∀ i, opener? calls moves = some i → after.tasks[i]? = some (.done (.ended (.ok ()))) →
      Drained ((begin p world calls).log p.executor moves) after.engine.pool := by
  have office := office_replay pooled run
  refine ⟨?_, orderly_of_kept office.kept, ?_, ?_⟩
  · rintro before later middle rfl first late
    rw [replay_append, first, Option.bind_some] at run
    obtain ⟨late', same, refused⟩ := admitted_of_late pooled first late run
    refine ⟨same, fun i records named unadmitted => ?_⟩
    have never := refused i unadmitted
    refine ⟨never, fun results done => office.eq_rejection never named done, ?_⟩
    exact office.exists_rejection pooled late' never named
  · rintro before move later c c' rfl first happens
    exact (office_replay pooled first).world_eq pooled (step_eq_some_iff.mp happens)
  · intro i first done
    obtain ⟨deadline, named⟩ := isShutdown_of_opener? first
    exact office.drained pooled first named done

open Simulation in
/-- Callers about to process a batch, to process another, and to shut the pool down. -/
def closing : Callers World PoolReply :=
  begin (easyProcessor true) (World.still (easyJobs ["a", "b"]))
    [.process (easyJobs ["a"]), .process (easyJobs ["b"]), .shutdown ⟨1000000000⟩]

/-- The first batch has its turn and the second waits when the shutdown begins. -/
def untilClosing : List Move :=
  [.call 0 true, .pool .turn, .pool .send, .call 1 true, .call 2 true]

/-- A worker brings the first batch to its end, all workers stop, and the shutdown returns. -/
def sinceClosing : List Move :=
  [.take 0, .run 0, .run 0, .run 0, .run 0, .run 0, .deliver 0, .collect, .stop 0, .stop 1,
    .stop 2, .stop 3, .stop 4].map Move.pool ++ [.call 2 true]

open Simulation in
/-- A shutdown that begins while one batch is run and another waits: the one is run to its end, the
other can only be rejected. -/
theorem shutdown_orderly_waiting : ∃ after : Callers World PoolReply,
    closing.replay (easyProcessor true).executor (untilClosing ++ sinceClosing) = some after ∧
    after.tasks[2]? = some (.done (.ended (.ok ()))) ∧
    Pool.accepted (closing.log (easyProcessor true).executor (untilClosing ++ sinceClosing)) =
      [⟨0, easyJob "a"⟩] ∧
    Drained (closing.log (easyProcessor true).executor (untilClosing ++ sinceClosing))
      after.engine.pool ∧
    ∃ more final, after.replay (easyProcessor true).executor more = some final ∧
      final.tasks[1]? = some (.done (.results [.error .poolShutdown])) := by
  obtain ⟨middle, after, first, late, run, returned⟩ : ∃ middle after,
      closing.replay (easyProcessor true).executor untilClosing = some middle ∧
      middle.engine.pool.isShutdown = true ∧
      closing.replay (easyProcessor true).executor (untilClosing ++ sinceClosing) = some after ∧
      after.tasks[2]? = some (.done (.ended (.ok ()))) := ⟨_, _, rfl, rfl, rfl, rfl⟩
  have waits : Unadmitted (closing.log (easyProcessor true).executor untilClosing)
      (closing.ticketOf? (easyProcessor true).executor untilClosing 1) := by
    intro ticket known a there
    cases known
    cases List.mem_singleton.mp there
    decide
  obtain ⟨refuses, _, _, drains⟩ := shutdown_orderly rfl run
  obtain ⟨_, rejects⟩ := refuses untilClosing sinceClosing middle rfl first late
  obtain ⟨_, _, rejected⟩ := rejects 1 (easyJobs ["b"]) rfl waits
  exact ⟨after, run, returned, rfl, drains 2 rfl returned, rejected⟩

end Callers

end JobQueue
