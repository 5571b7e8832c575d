/-
The engine: a processor's pool and scanner, and the calls that work through them.

All calls are tasks on one state, so that callers, workers and the scanner can act between one
another's steps. A processor without a pool has an engine whose pool has no workers; its batches
run in the caller's own task.
-/

import JobQueue.Pool.Schedule
import JobQueue.Processor
import JobQueue.Scanner.Lifecycle

namespace JobQueue

/-- The moving parts of a processor: the pool, which holds the world, and the scanner. -/
structure Engine (W : Type) where
  pool : Pool W
  scanner : Scanner.Lifecycle

namespace Engine

variable {W α : Type}

/-- The engine of a processor at its start. -/
def start (p : Processor W) (world : W) : Engine W :=
  ⟨Pool.start p.settings.limits p.workers world, .fresh⟩

/-- The world that the engine works on. -/
def world (e : Engine W) : W := e.pool.world

/-- The engine with another world. -/
def setWorld (w : W) (e : Engine W) : Engine W := { e with pool := { e.pool with world := w } }

/-- The engine with another pool. -/
def setPool (p : Pool W) (e : Engine W) : Engine W := { e with pool := p }

/-- A task on the world as one on the engine. -/
def onWorld (t : Task W α) : Task (Engine W) α := t.lift world setWorld

/-- Hands in a batch and waits for its results. -/
def processBatch (records : List JobRecord) : Task (Engine W) (List JobResult) := do
  let ticket ← Task.perform fun e : Engine W =>
    let (ticket, pool) := e.pool.submit records
    (ticket, e.setPool pool)
  Task.await fun e => (e.pool.answerOf? ticket).isSome
  Task.perform fun e => ((e.pool.answerOf? ticket).getD [], e)

/-- Processes one record in the caller's own task. -/
def processOne (p : Processor W) (r : JobRecord) : Task (Engine W) Ended :=
  onWorld (p.executor.run none r)

/-- Processes records one after another in the caller's own task. -/
def processAll (p : Processor W) (records : List JobRecord) :
    Task (Engine W) (Except Crash (List JobResult)) :=
  onWorld (p.executor.runAll records)

/-- Processes records through the pool, or one after another without one. -/
def processConcurrently (p : Processor W) (records : List JobRecord) :
    Task (Engine W) (Except Crash (List JobResult)) :=
  if records.isEmpty then pure (.ok [])
  else if p.isPooled then do return .ok (← processBatch records)
  else processAll p records

/-- Begins a shutdown, unless one has begun; says whether it did. -/
def beginShutdown (e : Engine W) : Bool × Engine W :=
  if e.pool.isShutdown then (false, e)
  else (true, e.setPool { e.pool with isShutdown := true })

/-- Tells the workers to stop after their present job. -/
def tellWorkersToQuit (e : Engine W) : Unit × Engine W :=
  ((), e.setPool { e.pool with isQuitting := true })

/-- Shuts the pool down: no new batch gets a turn, and the workers have until the deadline to
finish what has been handed in. -/
def shutdown (p : Processor W) (deadline : Span) : Task (Engine W) (Except JobError Unit) :=
  if p.isPooled then do
    if ← Task.perform beginShutdown then
      if ← Task.awaitFor (fun e : Engine W => e.pool.allStopped) deadline.millisUp then
        return .ok ()
      else
        Task.perform tellWorkersToQuit
        return .error (.shutdownDeadline deadline)
    else return .ok ()
  else pure (.ok ())

end Engine

end JobQueue
