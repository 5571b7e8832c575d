/-
Callers of an engine.

Any number of calls share an engine with the workers of its pool. What happens is a list of moves:
an event inside the pool, or one step of a call. A wait of a call ends when what it waits for has
come; a wait with a limit may also end without that, at any time, so that nothing that is shown of
callers depends on how long things take.
-/

import JobQueue.Engine.Basic
import JobQueue.Proofs.Job.Attempt
import JobQueue.Proofs.Pool.Log
import JobQueue.Proofs.Pool.Service

namespace JobQueue

variable {W α β : Type}

/-- An engine, and what is left of the calls on it. -/
structure Callers (W α : Type) where
  engine : Engine W
  tasks : List (Task (Engine W) α)

namespace Callers

/-- What can happen next among callers. -/
inductive Move where
  /-- An event inside the pool. -/
  | pool (event : Pool.Event)
  /-- A step of a call; where the call waits, `came` says how its wait ends. -/
  | call (i : Nat) (came : Bool)

/-- Whether a task can take a step, its wait ending in this way. -/
def canStep {S : Type} (came : Bool) : Task S α → S → Bool
  | .wait ready limit _, s => if came then ready s else limit.isSome
  | _, _ => true

/-- The callers after a move, if the move can happen. -/
def step (x : Executor W) (c : Callers W α) : Move → Option (Callers W α)
  | .pool event =>
      if event.isInner then
        (c.engine.pool.step x event).map fun pool => { c with engine := c.engine.setPool pool }
      else none
  | .call i came =>
      match c.tasks[i]? with
      | some t =>
          if canStep came t c.engine then
            (t.step came c.engine).map fun (t, engine) => ⟨engine, c.tasks.set i t⟩
          else none
      | none => none

/-- The callers after a list of moves, if each of them can happen in its turn. -/
def replay (x : Executor W) : Callers W α → List Move → Option (Callers W α)
  | c, [] => some c
  | c, move :: rest => (c.step x move).bind fun c => replay x c rest

/-- What an observer notes down, move by move. -/
def readings (x : Executor W) (look : Callers W α → Move → Option β) :
    Callers W α → List Move → List β
  | _, [] => []
  | c, move :: rest =>
      (look c move).toList ++
        match c.step x move with
        | some c => readings x look c rest
        | none => []

/-- What the log of the pool tells of a move. -/
def logged? (c : Callers W α) : Move → Option (Pool.Entry W)
  | .pool event => c.engine.pool.logged? event
  | .call .. => none

/-- The log of the pool in a course of moves. -/
def log (x : Executor W) (c : Callers W α) (moves : List Move) : List (Pool.Entry W) :=
  c.readings x logged? moves

variable {x : Executor W} {c c' : Callers W α} {move : Move} {moves : List Move}

/-! ### The rules -/

/-- What a move needs and what it does. -/
inductive Step (x : Executor W) (c : Callers W α) : Move → Callers W α → Prop where
  | pool {event : Pool.Event} {q : Pool W} (inner : event.isInner = true)
      (rule : Pool.Step x c.engine.pool event q) :
      Step x c (.pool event) { c with engine := c.engine.setPool q }
  | call {i : Nat} {came : Bool} {t t' : Task (Engine W) α} {engine : Engine W}
      (here : c.tasks[i]? = some t) (able : canStep came t c.engine = true)
      (goes : t.step came c.engine = some (t', engine)) :
      Step x c (.call i came) ⟨engine, c.tasks.set i t'⟩

theorem step_eq_some_iff : c.step x move = some c' ↔ Step x c move c' := by
  constructor
  · intro happens
    cases move with
    | pool event =>
        rw [step] at happens
        split at happens
        next inner =>
          obtain ⟨q, goes, rfl⟩ := Option.map_eq_some_iff.mp happens
          exact .pool inner (Pool.step_eq_some_iff.mp goes)
        next => cases happens
    | call i came =>
        rw [step] at happens
        split at happens
        next t here =>
          split at happens
          next able =>
            obtain ⟨⟨t', engine⟩, goes, rfl⟩ := Option.map_eq_some_iff.mp happens
            exact .call here able goes
          next => cases happens
        next => cases happens
  · intro rule
    cases rule with
    | pool inner rule => simp [step, inner, Pool.step_of_rule rule]
    | call here able goes => simp [step, here, able, goes]

theorem replay_append (first second : List Move) :
    c.replay x (first ++ second) = (c.replay x first).bind fun c => c.replay x second := by
  induction first generalizing c with
  | nil => rfl
  | cons move rest ih =>
      simp only [List.cons_append, replay]
      cases c.step x move with
      | none => rfl
      | some c => exact ih

theorem replay_one (rule : Step x c move c') : c.replay x [move] = some c' := by
  rw [replay, step_eq_some_iff.mpr rule, Option.bind_some, replay]

theorem replay_snoc {c'' : Callers W α} (run : c.replay x moves = some c')
    (rule : Step x c' move c'') : c.replay x (moves ++ [move]) = some c'' := by
  simp [replay_append, run, replay, step_eq_some_iff.mpr rule]

/-- The induction on courses of moves: from the beginning, move by move. -/
theorem replay_induction {motive : List Move → Callers W α → Prop} (start : motive [] c)
    (more : ∀ moves c' move c'', c.replay x moves = some c' → motive moves c' →
      Step x c' move c'' → motive (moves ++ [move]) c'')
    (run : c.replay x moves = some c') : motive moves c' := by
  induction moves using List.reverseRecOn generalizing c' with
  | nil =>
      cases run
      exact start
  | append_singleton earlier move ih =>
      rw [replay_append, Option.bind_eq_some_iff] at run
      obtain ⟨middle, before, last⟩ := run
      rw [replay, Option.bind_eq_some_iff] at last
      obtain ⟨after, happens, same⟩ := last
      cases same
      exact more earlier middle move _ before (ih before) (step_eq_some_iff.mp happens)

theorem readings_append {look : Callers W α → Move → Option β} {later : List Move}
    (run : c.replay x moves = some c') :
    c.readings x look (moves ++ later) = c.readings x look moves ++ c'.readings x look later := by
  induction moves generalizing c with
  | nil =>
      cases run
      rfl
  | cons first rest ih =>
      rw [replay, Option.bind_eq_some_iff] at run
      obtain ⟨middle, happens, later⟩ := run
      simp only [List.cons_append, readings, happens, ih later, List.append_assoc]

theorem readings_snoc {look : Callers W α → Move → Option β} (run : c.replay x moves = some c') :
    c.readings x look (moves ++ [move]) = c.readings x look moves ++ (look c' move).toList := by
  rw [readings_append run]
  simp only [readings]
  split <;> simp

theorem log_snoc (run : c.replay x moves = some c') :
    c.log x (moves ++ [move]) = c.log x moves ++ (c'.logged? move).toList := readings_snoc run

/-- Events inside the pool are a course of moves. -/
theorem replay_pool {events : List Pool.Event} {q : Pool W}
    (inner : ∀ event ∈ events, event.isInner = true)
    (run : c.engine.pool.replay x events = some q) :
    c.replay x (events.map .pool) = some { c with engine := c.engine.setPool q } := by
  induction events generalizing c with
  | nil =>
      cases run
      rfl
  | cons event rest ih =>
      rw [Pool.replay, Option.bind_eq_some_iff] at run
      obtain ⟨middle, happens, later⟩ := run
      have own : event.isInner = true := inner event List.mem_cons_self
      have goes : c.step x (.pool event) = some { c with engine := c.engine.setPool middle } := by
        simp [step, own, happens]
      rw [List.map_cons, replay, goes]
      exact ih (c := { c with engine := c.engine.setPool middle })
        (fun other member => inner other (List.mem_cons_of_mem _ member)) later

end Callers

end JobQueue
