/-
Tasks in time.

A timeline runs one main task beside any number of fibers and a background that moves by itself.
Whatever can happen at once happens; only then does time pass, up to the first timer that runs
out, and that timer runs out alone.
-/

import JobQueue.Scanner.Scan

namespace JobQueue

/-- A task that starts again from its body as long as it ends with `true`. -/
structure Fiber (S : Type) where
  task : Task S Bool
  body : Task S Bool
  timer : Option Timer

/-- A fiber that runs a task once and then its body for as long as it is to go on. -/
def Fiber.begin {S : Type} (task body : Task S Bool) : Fiber S :=
  ⟨.act id fun _ => task, body, none⟩

/-- What goes on by itself in a state, and how timers are set in it. -/
structure Background (S : Type) where
  /-- Sets a timer. -/
  arm : Nat → S → Timer × S
  /-- Something that needs no time. -/
  move? : S → Option S
  firstTimer? : S → Option Timer
  /-- The first timer runs out. -/
  expire : S → S
  /-- Time passes. -/
  passTo : Nat → S → S

/-- A main task, the fibers beside it, and the state they share. -/
structure Timeline (S α : Type) where
  state : S
  main : Task S α
  mainTimer : Option Timer
  fibers : List (Fiber S)

namespace Timeline

variable {S α : Type}

/-- Takes a task as far as it goes without waiting, and sets the timer of the wait it comes to. -/
def settle {β : Type} (b : Background S) (t : Task S β) (s : S) : Task S β × Option Timer × S :=
  let (t, s) := t.advance s
  match t with
  | .wait _ (some millis) _ =>
      let (timer, s) := b.arm millis s
      (t, some timer, s)
  | _ => (t, none, s)

/-- A task whose wait is over, since what it waited for has come. -/
def resume? {β : Type} (b : Background S) (t : Task S β) (s : S) :
    Option (Task S β × Option Timer × S) :=
  match t with
  | .done _ => none
  | .act .. => some (settle b t s)
  | .wait ready _ next => if ready s then some (settle b (next true) s) else none

/-- A task whose wait is over, since its time is up. -/
def expired {β : Type} (b : Background S) (t : Task S β) (s : S) : Task S β × Option Timer × S :=
  match t with
  | .wait _ _ next => settle b (next false) s
  | t => (t, none, s)

/-- Goes on with the first fiber that can: from where it is, or from its body, or it is gone. -/
def resumeFiber? (b : Background S) : List (Fiber S) → S → Option (List (Fiber S) × S)
  | [], _ => none
  | f :: rest, s =>
      match f.task with
      | .done true =>
          let (t, timer, s) := settle b f.body s
          some ({ f with task := t, timer := timer } :: rest, s)
      | .done false => some (rest, s)
      | t =>
          match resume? b t s with
          | some (t, timer, s) => some ({ f with task := t, timer := timer } :: rest, s)
          | none => (resumeFiber? b rest s).map fun (rest, s) => (f :: rest, s)

/-- The timeline after something that needs no time. -/
def move? (b : Background S) (l : Timeline S α) : Option (Timeline S α) :=
  match resume? b l.main l.state with
  | some (t, timer, s) => some { l with main := t, mainTimer := timer, state := s }
  | none =>
      match resumeFiber? b l.fibers l.state with
      | some (fibers, s) => some { l with fibers := fibers, state := s }
      | none => (b.move? l.state).map fun s => { l with state := s }

/-- Whose timer it is. -/
inductive Owner where
  | main
  | fiber (i : Nat)
  | background

/-- The timers that are set, with their owners. -/
def timers (b : Background S) (l : Timeline S α) : List (Timer × Owner) :=
  (l.mainTimer.map fun t => (t, Owner.main)).toList ++
    (l.fibers.zipIdx.filterMap fun (f, i) => f.timer.map fun t => (t, Owner.fiber i)) ++
    ((b.firstTimer? l.state).map fun t => (t, Owner.background)).toList

/-- The first timer to run out. -/
def firstTimer? (b : Background S) (l : Timeline S α) : Option (Timer × Owner) :=
  (l.timers b).foldl
    (fun best t =>
      match best with
      | some x => if t.1.precedes x.1 then some t else some x
      | none => some t)
    none

/-- The timeline after a timer has run out. -/
def fire (b : Background S) (l : Timeline S α) (timer : Timer) (owner : Owner) : Timeline S α :=
  let s := b.passTo timer.due l.state
  match owner with
  | .main =>
      let (t, timer, s) := expired b l.main s
      { l with main := t, mainTimer := timer, state := s }
  | .fiber i =>
      match l.fibers[i]? with
      | some f =>
          let (t, timer, s) := expired b f.task s
          { l with fibers := l.fibers.set i { f with task := t, timer := timer }, state := s }
      | none => { l with state := s }
  | .background => { l with state := b.expire s }

/-- The timeline after what happens next: what needs no time, else the first timer. -/
def next? (b : Background S) (l : Timeline S α) : Option (Timeline S α) :=
  match l.move? b with
  | some l => some l
  | none => (l.firstTimer? b).map fun (timer, owner) => l.fire b timer owner

/-- The timeline of a main task that begins beside fibers that are there. -/
def start (b : Background S) (main : Task S α) (fibers : List (Fiber S)) (s : S) : Timeline S α :=
  let (t, timer, s) := settle b main s
  ⟨s, t, timer, fibers⟩

/-- Runs the main task to its end, in so many steps; gives its value, the state and the fibers
that are left. There is no answer when the steps do not suffice or nothing can happen any more. -/
def run (b : Background S) : Nat → Timeline S α → Option (α × S × List (Fiber S))
  | 0, _ => none
  | steps + 1, l =>
      match l.main with
      | .done a => some (a, l.state, l.fibers)
      | _ =>
          match l.next? b with
          | some l => run b steps l
          | none => none

end Timeline

namespace Engine

variable {W : Type}

/-- The pool in the background of an engine. -/
def background (x : Executor W) : Background (Engine W) where
  arm := fun millis e =>
    let (timer, pool) := e.pool.arm millis
    (timer, e.setPool pool)
  move? := fun e => (e.pool.move? x).map fun pool => e.setPool pool
  firstTimer? := fun e => e.pool.firstTimer?.map Prod.fst
  expire := fun e =>
    match e.pool.firstTimer? with
    | some (_, event) => e.setPool ((e.pool.step x event).getD e.pool)
    | none => e
  passTo := fun time e => e.setPool (e.pool.passTo time)

end Engine

end JobQueue
