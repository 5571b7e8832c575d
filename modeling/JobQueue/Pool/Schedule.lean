/-
One order of the events of a pool.

Whatever can happen at once happens, a busy worker first; only when nothing more can happen does
time pass, up to the first timer that runs out, and no further. So no wait runs out while
somebody could still move.
-/

import JobQueue.Pool.Basic

namespace JobQueue.Pool

variable {W : Type}

/-- The worker that has waited longest with a report. -/
def firstReporting (p : Pool W) : Option Nat :=
  let waiting := p.workers.zipIdx.filterMap fun (w, i) =>
    match w.state, w.timer with
    | .reporting _, some timer => some (timer.order, i)
    | _, _ => none
  (waiting.foldl least none).map Prod.snd
where
  least (best : Option (Nat × Nat)) (next : Nat × Nat) : Option (Nat × Nat) :=
    match best with
    | some b => if next.1 < b.1 then some next else some b
    | none => some next

/-- The events that need no time, in the order in which they are tried. -/
def moves (p : Pool W) : List Event :=
  let each := List.range p.size
  each.map .run ++ each.map .ready ++ [.turn, .collect, .send, .sendClosed] ++
    (p.firstReporting.map Event.deliver).toList ++ each.map .quit ++ each.map .take ++
    each.map .stop ++ [.collectClosed]

/-- The pool after the first event that needs no time. -/
def move? (x : Executor W) (p : Pool W) : Option (Pool W) :=
  p.moves.findSome? fun e => p.step x e

/-- The timers of the waits that the pool is in, with what happens when they run out. -/
def timers (p : Pool W) : List (Timer × Event) :=
  let ofBatch :=
    match p.active with
    | some b => [(b.timer, if b.unsent.isEmpty then Event.collectTimeout else Event.sendTimeout)]
    | none => []
  let ofWorkers := p.workers.zipIdx.filterMap fun (w, i) =>
    match w.state, w.timer with
    | .busy .., some timer => some (timer, Event.expire i)
    | .reporting _, some timer => some (timer, Event.giveUp i)
    | _, _ => none
  ofBatch ++ ofWorkers

/-- The first timer to run out. -/
def firstTimer? (p : Pool W) : Option (Timer × Event) :=
  p.timers.foldl
    (fun best t =>
      match best with
      | some b => if t.1.precedes b.1 then some t else some b
      | none => some t)
    none

/-- The pool with its clock at a later time. -/
def passTo (p : Pool W) (time : Nat) : Pool W := { p with now := max p.now time }

end JobQueue.Pool
