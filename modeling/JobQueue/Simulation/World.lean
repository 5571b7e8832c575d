/-
A world for trying a processor out.

Its stores are kept in memory, do what a plan says, and keep an account of every call; its
handlers follow scripts and keep an account of every run.
-/

import JobQueue.Export.Memory
import JobQueue.Job.Lifecycle
import JobQueue.Store.Memory

namespace JobQueue.Simulation

/-- What a store call does: its work, or something else in its place. -/
inductive Plan where
  | work
  | error (e : StoreError)
  | crash

/-- The calls of a record store. -/
inductive Method where
  | create
  | find
  | save
  | delete
  | available
deriving DecidableEq, Repr

namespace Method

/-- The name of a call. -/
def name : Method → String
  | .create => "create"
  | .find => "find"
  | .save => "save"
  | .delete => "delete"
  | .available => "available"

/-- All calls. -/
def all : List Method := [.create, .find, .save, .delete, .available]

end Method

/-- A store call as the account has it. -/
inductive Call where
  | create (name : String)
  | find (id : String)
  | save (r : JobRecord)
  | delete (r : JobRecord)
  | available (before now : Instant) (limit offset : Nat)

/-- Which call it was. -/
def Call.method : Call → Method
  | .create _ => .create
  | .find _ => .find
  | .save _ => .save
  | .delete _ => .delete
  | .available .. => .available

/-- A handler's run as the account has it. -/
structure Run where
  handler : String
  job : Job
  context : JobContext

/-- Stores, plans and accounts, the latest entry first. -/
structure World where
  nature : Nature
  store : MemoryStore
  files : MemoryExports
  plans : List (Method × List Plan)
  calls : List Call
  runs : List Run
  /-- How often handlers have run, by their number. -/
  counts : List (Nat × Nat)

namespace World

/-- A world in which nothing has happened. -/
def start (nature : Nature) : World := ⟨nature, .empty, .empty, [], [], [], []⟩

/-- The nature of the world. -/
def naturePart : Part World Nature := ⟨World.nature, fun n w => { w with nature := n }⟩

/-- The records of the world. -/
def storePart : Part World MemoryStore := ⟨World.store, fun m w => { w with store := m }⟩

/-- The export files of the world. -/
def filesPart : Part World MemoryExports := ⟨World.files, fun m w => { w with files := m }⟩

/-- The next plan for a call; work, when no plans are left. -/
def nextPlan (m : Method) (w : World) : Plan × World :=
  match w.plans.lookup m with
  | some (p :: rest) =>
      (p, { w with plans := w.plans.map fun (k, ps) => if k = m then (k, rest) else (k, ps) })
  | _ => (.work, w)

/-- The world with other plans for some calls. -/
def withPlans (plans : List (Method × List Plan)) (w : World) : World :=
  { w with plans := plans ++ w.plans.filter fun (m, _) => (plans.lookup m).isNone }

/-- A call that enters the account and then does as planned. -/
def planned {α : Type} (entry : Call) (act : StoreCall World α) : StoreCall World α := fun w =>
  let (p, w) := nextPlan entry.method { w with calls := entry :: w.calls }
  match p with
  | .work => act w
  | .error e => (.error (.error e), w)
  | .crash => (.error (.crash (.text "store panicked")), w)

/-- The records as the work of their store. -/
def plainRecords : RecordStore World := MemoryStore.recordStore storePart naturePart

/-- The record store of the world. -/
def records : RecordStore World where
  create := fun new => planned (.create new.name) (plainRecords.create new)
  find := fun id => planned (.find id) (plainRecords.find id)
  save := fun r => planned (.save r) (plainRecords.save r)
  delete := fun r => planned (.delete r) (plainRecords.delete r)
  available := fun before limit offset w =>
    planned (.available before w.nature.now.1 limit offset)
      (plainRecords.available before limit offset) w

/-- The export files of the world. -/
def exports : ExportStore World := MemoryExports.exportStore filesPart naturePart

/-- Stores and clock for runs, whose sums are checked. -/
def backend : Backend World := ⟨records, naturePart.use Nature.now, .breaksOff⟩

/-- The world with empty accounts. -/
def forget (w : World) : World := { w with calls := [], runs := [] }

/-- Counts a run of a handler; gives how many there have been. -/
def count (handler : Nat) (w : World) : Nat × World :=
  let n := (w.counts.lookup handler).getD 0 + 1
  (n, { w with counts := (handler, n) :: w.counts.filter fun c => c.1 != handler })

end World

end JobQueue.Simulation
