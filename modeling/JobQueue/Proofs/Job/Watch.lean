/-
Runs under watch.

A run does not say what it has done on its way. So that this can be told, its executor is put into a
world with a log (`Executor.watched`): each call of the store is entered with its answer, and so are
the beginning and the end of each handler. Neither the executor nor its handlers can look at the
log, and what is watched comes to the same as what is not (`Task.Shown`, and `Task.Shown.bind` for
one task after another).
-/

import JobQueue.Proofs.Job.Fate

namespace JobQueue

variable {W : Type}

/-! ### The log -/

/-- What is entered in the log. -/
inductive Entry (W : Type) where
  /-- A save, and what it answered. -/
  | saved (r : JobRecord) (answer : Except (Fault StoreError) Unit)
  /-- A delete, and what it answered. -/
  | deleted (r : JobRecord) (answer : Except (Fault StoreError) Unit)
  /-- Any other call of the store. -/
  | asked
  /-- A handler began to run a job in some world. -/
  | began (job : Job) (w : W)
  /-- A handler ended and left some world. -/
  | ended (result : Except (Fault JobError) Unit) (w : W)

/-- A world with a log. -/
structure Watched (W : Type) where
  world : W
  log : List (Entry W)

namespace Watched

/-- The log with another world. -/
def put (w : W) (v : Watched W) : Watched W := { v with world := w }

/-- The world with one entry more. -/
def enter (entry : Entry W) (v : Watched W) : Watched W := { v with log := v.log ++ [entry] }

end Watched

variable {α β : Type}

/-- A call that is entered in the log. -/
def StoreCall.watched (entry : Except (Fault StoreError) α → Entry W) (call : StoreCall W α) :
    StoreCall (Watched W) α := fun v =>
  ((call v.world).1, (v.put (call v.world).2).enter (entry (call v.world).1))

/-- A store whose calls are entered in the log. -/
def RecordStore.watched (records : RecordStore W) : RecordStore (Watched W) where
  create := fun new => (records.create new).watched fun _ => .asked
  find := fun id => (records.find id).watched fun _ => .asked
  save := fun r => (records.save r).watched (.saved r)
  delete := fun r => (records.delete r).watched (.deleted r)
  available := fun before limit offset =>
    (records.available before limit offset).watched fun _ => .asked

/-- A handler whose beginning and end are entered in the log. -/
def Handler.watched (h : Handler W) : Handler (Watched W) where
  jobType := h.jobType
  run := fun context job => ExceptT.mk do
    Task.perform fun v => ((), v.enter (.began job v.world))
    let result ← (h.run context job).run.lift Watched.world Watched.put
    Task.perform fun v => ((), v.enter (.ended result v.world))
    return result

/-- Handlers that are all watched. -/
def Registry.watched (r : Registry W) : Registry (Watched W) :=
  ⟨r.handlers.map fun entry => (entry.1, entry.2.watched)⟩

/-- An executor whose store and handlers are watched. -/
def Executor.watched (x : Executor W) : Executor (Watched W) where
  backend := {
    records := x.backend.records.watched
    clock := fun v => ((x.backend.clock v.world).1, v.put (x.backend.clock v.world).2)
    overflow := x.backend.overflow }
  registry := x.registry.watched
  lease := x.lease

/-! ### What is shown by the log -/

namespace Task

/-- A task and the same task under watch come to a value and to a world, and the log shows some
entries of it. -/
structure Shown (t : Task W α) (watched : Task (Watched W) α) (w : W) (a : α) (w' : W)
    (entries : List (Entry W)) : Prop where
  alone : t.runAlone w = (a, w')
  seen : ∀ log, watched.runAlone ⟨w, log⟩ = (a, ⟨w', log ++ entries⟩)

variable {t : Task W α} {t' : Task (Watched W) α} {w w₁ w₂ : W} {a : α} {b : β}
  {entries more : List (Entry W)}

theorem shown_done : (Task.done (W := W) a).Shown (.done a) w a w [] where
  alone := rfl
  seen := fun log => by rw [List.append_nil]; rfl

theorem Shown.bind {k : α → Task W β} {k' : α → Task (Watched W) β}
    (first : t.Shown t' w a w₁ entries) (later : (k a).Shown (k' a) w₁ b w₂ more) :
    (t.bind k).Shown (t'.bind k') w b w₂ (entries ++ more) where
  alone := by rw [runAlone_bind, first.alone, later.alone]
  seen := fun log => by rw [runAlone_bind, first.seen, later.seen, List.append_assoc]

/-- A step that is not entered in the log. -/
theorem shown_step {step : W → α × W} (does : step w = (a, w₁)) : (perform step).Shown
    (perform fun v => ((step v.world).1, v.put (step v.world).2)) w a w₁ [] where
  alone := does
  seen := fun log => by
    show ((step w).1, Watched.mk (step w).2 log) = _
    rw [does, List.append_nil]

/-- A call that is entered in the log. -/
theorem shown_call {call : StoreCall W α} {entry : Except (Fault StoreError) α → Entry W}
    {answer : Except (Fault StoreError) α} (does : call w = (answer, w₁)) :
    (perform call).Shown (perform (call.watched entry)) w answer w₁ [entry answer] where
  alone := does
  seen := fun log => by
    show ((call w).1, Watched.mk (call w).2 (log ++ [entry (call w).1])) = _
    rw [does]

/-- A task that knows nothing of the log. -/
theorem shown_lift (t : Task W α) (w : W) : t.Shown (t.lift Watched.world Watched.put) w
    (t.runAlone w).1 (t.runAlone w).2 [] := by
  constructor
  · rfl
  · intro log
    rw [List.append_nil]
    induction t generalizing w with
    | done a => rfl
    | act update next ih => exact ih w (update w)
    | wait ready limit next ih => exact ih (ready w) w

end Task

/-! ### Executors under watch -/

namespace Executor

variable {x : Executor W} {r : JobRecord} {worker : Option Nat} {w : W}

theorem get_watched (registry : Registry W) (jobType : String) :
    registry.watched.get jobType = (registry.get jobType).map Handler.watched := by
  rw [Registry.get, Registry.get, Registry.watched]
  dsimp only
  induction registry.handlers with
  | nil => rfl
  | cons entry rest ih =>
      rw [List.map_cons, List.lookup_cons, List.lookup_cons]
      cases jobType == entry.1 with
      | true => rfl
      | false => exact ih

theorem handlerFor_watched : x.watched.handlerFor r =
    (x.handlerFor r).map fun found => (found.1.watched, found.2) := by
  rw [handlerFor, handlerFor]
  cases Job.ofRecord r with
  | error e => rfl
  | ok job =>
      dsimp only
      rw [show x.watched.registry = x.registry.watched from rfl, get_watched]
      cases x.registry.get job.jobType <;> rfl

/-- How a handler runs a job: its result, and the world that it leaves. -/
def Handles (x : Executor W) (worker : Option Nat) (r : JobRecord) (job : Job) (w : W)
    (result : Except (Fault JobError) Unit) (w' : W) : Prop :=
  ∃ handler, x.handlerFor r = .ok (handler, job) ∧
    (handler.run (JobContext.ofJob job worker) job).run.runAlone w = (result, w')

/-- Where no handler is found for a record, nothing happens. -/
theorem shown_execute_of_error {e : JobError} (missing : x.handlerFor r = .error e) :
    (x.execute worker r).Shown (x.watched.execute worker r) w (.error e) w [] := by
  rw [execute_eq, execute_eq, handlerFor_watched, missing]
  exact Task.shown_done

theorem run_watched {h : Handler W} {context : JobContext} {job : Job} :
    (h.watched.run context job).run = .act (fun v => v.enter (.began job v.world)) fun _ =>
      ((h.run context job).run.lift Watched.world Watched.put).bind fun result =>
        .act (fun v => v.enter (.ended result v.world)) fun _ => .done result := rfl

/-- A handler is seen to begin and to end, once each. -/
theorem shown_handler {h : Handler W} {context : JobContext} {job : Job}
    {result : Except (Fault JobError) Unit} {w' : W}
    (ran : (h.run context job).run.runAlone w = (result, w')) :
    (h.run context job).run.Shown (h.watched.run context job).run w result w'
      [.began job w, .ended result w'] := by
  constructor
  · exact ran
  · intro log
    have body := (Task.shown_lift (h.run context job).run w).seen (log ++ [.began job w])
    rw [ran, List.append_nil] at body
    rw [run_watched]
    show Task.runAlone (Task.bind _ _) (Watched.mk w (log ++ [.began job w])) = _
    rw [Task.runAlone_bind, body]
    show (result, Watched.mk w' ((log ++ [.began job w]) ++ [.ended result w'])) = _
    rw [List.append_assoc, List.singleton_append]

/-- Where a handler is found, it runs once. -/
theorem shown_execute {job : Job} {result : Except (Fault JobError) Unit} {w' : W}
    (handles : x.Handles worker r job w result w') :
    (x.execute worker r).Shown (x.watched.execute worker r) w (resultOfHandler result) w'
      [.began job w, .ended result w'] := by
  obtain ⟨handler, found, ran⟩ := handles
  rw [execute_eq, execute_eq, handlerFor_watched, found]
  exact (shown_handler ran).bind Task.shown_done

end Executor

end JobQueue
