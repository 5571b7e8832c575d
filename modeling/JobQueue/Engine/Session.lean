/-
Sessions: calls on a processor, one after another, in virtual time.

Between calls the workers, the batches begun and the scanner stay where they are; they go on
whenever a call lets time pass or waits.
-/

import JobQueue.Engine.Timeline

namespace JobQueue

/-- A processor with its engine, the fibers beside the caller, and the batches begun. -/
structure Session (W : Type) where
  processor : Processor W
  engine : Engine W
  fibers : List (Fiber (Engine W))
  /-- The tickets of batches, by the names they were given. -/
  batches : List (String × Nat)

namespace Session

variable {W α : Type}

/-- A session with a processor, unless its pool is too large to be made. -/
def start? (p : Processor W) (world : W) : Option (Session W) :=
  if p.isPooled && !Pool.canStart p.workers then none
  else some ⟨p, Engine.start p world, [], []⟩

/-- The world of the session. -/
def world (s : Session W) : W := s.engine.world

/-- The session with another world. -/
def setWorld (w : W) (s : Session W) : Session W := { s with engine := s.engine.setWorld w }

/-- More steps than a call takes. -/
def stepLimit : Nat := 1000000000000

/-- Makes a call. -/
def perform (s : Session W) (t : Task (Engine W) α) : Option (α × Session W) :=
  let b := Engine.background s.processor.executor
  ((Timeline.start b t s.fibers s.engine).run b stepLimit).map fun (a, engine, fibers) =>
    (a, { s with engine := engine, fibers := fibers })

/-- The session with one fiber more. -/
def spawn (s : Session W) (f : Fiber (Engine W)) : Session W := { s with fibers := s.fibers ++ [f] }

/-- Keeps the results of a batch under its ticket. A batch that broke off has none. -/
def keepResults (ticket : Nat) (r : Except Crash (List JobResult)) : Engine W → Unit × Engine W :=
  fun e =>
    match r with
    | .ok results => ((), e.setPool (e.pool.answer ticket results))
    | .error _ => ((), e)

/-- Begins a batch beside the caller. -/
def beginBatch (s : Session W) (name : String) (records : List JobRecord) : Session W :=
  let ticket := s.engine.pool.nextTicket
  let pool := { s.engine.pool with nextTicket := ticket + 1 }
  let task : Task (Engine W) Bool := do
    let r ← Engine.processConcurrently s.processor records
    Task.perform (keepResults ticket r)
    return false
  let s := { s with engine := s.engine.setPool pool, batches := (name, ticket) :: s.batches }
  s.spawn (Fiber.begin task (pure false))

/-- Waits for the results of a batch begun. -/
def joinBatch (s : Session W) (name : String) : Option (List JobResult × Session W) :=
  (s.batches.lookup name).bind fun ticket =>
    s.perform do
      Task.await fun e : Engine W => (e.pool.answerOf? ticket).isSome
      Task.perform fun e => ((e.pool.answerOf? ticket).getD [], e)

/-- Starts a scanner beside the caller; gives the number of the start. -/
def beginScanner (s : Session W) (schedule : Cron.Schedule) : Option (Nat × Session W) :=
  (s.perform Scanner.call).map fun (i, s) =>
    (i, s.spawn (Fiber.begin (Scanner.enter i) (Scanner.round s.processor schedule i)))

/-- Calls start in the caller's own task while another start is running. -/
def startAgain (s : Session W) : Option (Option JobResult × Session W) :=
  s.perform do
    let i ← Scanner.call
    let _ ← Scanner.enter i
    Scanner.observe fun l => l.resultOf? i

/-- Stops the scanner and waits for a start to return. -/
def stopScanner (s : Session W) (i : Nat) : Option (JobResult × Session W) :=
  s.perform do
    Scanner.stop
    Task.await fun e : Engine W => (e.scanner.resultOf? i).isSome
    Scanner.observe fun l => (l.resultOf? i).getD (.ok ())

end Session

end JobQueue
