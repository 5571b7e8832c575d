/-
Tasks: computations made of atomic steps.

A task acts on a world that others act on too. Between two of its acts any other task may take
its turn, so what tasks can do to one another is a matter of the order of their acts. A task
waits until the world is in a state it asks for, or until a number of milliseconds has passed.
-/

namespace JobQueue

/-- A computation of atomic steps on a shared world of type `W`. -/
inductive Task (W : Type) (α : Type) : Type where
  /-- The computation is over. -/
  | done (value : α)
  /-- One atomic step: what follows is chosen from the world before it. -/
  | act (update : W → W) (next : W → Task W α)
  /-- A wait for `ready`, no longer than `limit` milliseconds; `next` learns whether it came. -/
  | wait (ready : W → Bool) (limit : Option Nat) (next : Bool → Task W α)

namespace Task

variable {W α β : Type}

/-- One task after another. -/
def bind : Task W α → (α → Task W β) → Task W β
  | .done a, k => k a
  | .act update next, k => .act update fun w => (next w).bind k
  | .wait ready limit next, k => .wait ready limit fun b => (next b).bind k

instance : Monad (Task W) where
  pure := .done
  bind := bind

/-- One atomic step that gives a value. -/
def perform (step : W → α × W) : Task W α :=
  .act (fun w => (step w).2) fun w => .done (step w).1

/-- A pause. -/
def sleep (millis : Nat) : Task W Unit :=
  .wait (fun _ => false) (some millis) fun _ => .done ()

/-- A wait without limit. -/
def await (ready : W → Bool) : Task W Unit :=
  .wait ready none fun _ => .done ()

/-- A wait with a limit; says whether what was waited for came. -/
def awaitFor (ready : W → Bool) (millis : Nat) : Task W Bool :=
  .wait ready (some millis) .done

/-- The task on a larger world of which `W` is a part. -/
def lift {V : Type} (get : V → W) (set : W → V → V) : Task W α → Task V α
  | .done a => .done a
  | .act update next => .act (fun v => set (update (get v)) v) fun v => lift get set (next (get v))
  | .wait ready limit next =>
      .wait (fun v => ready (get v)) limit fun b => lift get set (next b)

/-- Takes the steps of a task up to its end or its first wait. -/
def advance : Task W α → W → Task W α × W
  | .done a, w => (.done a, w)
  | .act update next, w => advance (next w) (update w)
  | .wait ready limit next, w => (.wait ready limit next, w)

/-- Takes all steps of a task with nobody else acting; every wait runs out. -/
def runAlone : Task W α → W → α × W
  | .done a, w => (a, w)
  | .act update next, w => runAlone (next w) (update w)
  | .wait ready _ next, w => runAlone (next (ready w)) w

end Task

end JobQueue
