/-
What a task may do while others act, and what it then comes to.

All who act on one state keep to one relation between an earlier state and a later one. A task
assures a goal within the relation if each of its steps keeps to it and its value and last state are
as the goal says, whatever others do within the relation between its steps (`Task.Assures`). Such
assurances are composed along the steps of tasks (`Assures.bind`, `Assures.step`), outlast what
others do (`Assures.later`), and carry over to a larger state (`Assures.lift`).
-/

import JobQueue.Job.Handler
import JobQueue.Proofs.Job.Attempt

namespace JobQueue

namespace Task

variable {S V α β : Type} {onward : S → S → Prop} {goal : α → S → Prop} {t t' : Task S α} {s s' : S}

/-- Whether each step of a task does only what is allowed. -/
def KeepsTo (allowed : S → S → Prop) : Task S α → Prop
  | .done _ => True
  | .act update next => ∀ s, allowed s (update s) ∧ (next s).KeepsTo allowed
  | .wait _ _ next => ∀ came, (next came).KeepsTo allowed

/-- Within what others may do between its steps, each step of the task is one that it may do, and
its value and the state at its end are as the goal says. -/
def Assures (onward : S → S → Prop) (goal : α → S → Prop) : Task S α → S → Prop
  | .done a, s => goal a s
  | .act update next, s => ∀ s', onward s s' →
      onward s' (update s') ∧ (next s').Assures onward goal (update s')
  | .wait ready _ next, s => ∀ came s', onward s s' → (came = true → ready s' = true) →
      (next came).Assures onward goal s'

theorem Assures.mono {goal' : α → S → Prop} (assures : t.Assures onward goal s)
    (weaker : ∀ a s, goal a s → goal' a s) : t.Assures onward goal' s := by
  induction t generalizing s with
  | done a => exact weaker a s assures
  | act update next ih =>
      intro s' since
      obtain ⟨kept, later⟩ := assures s' since
      exact ⟨kept, ih s' later⟩
  | wait ready limit next ih => exact fun came s' since ends => ih came (assures came s' since ends)

theorem Assures.bind {k : α → Task S β} {goal' : β → S → Prop} (first : t.Assures onward goal s)
    (second : ∀ a s, goal a s → (k a).Assures onward goal' s) :
    (t.bind k).Assures onward goal' s := by
  induction t generalizing s with
  | done a => exact second a s first
  | act update next ih =>
      intro s' since
      obtain ⟨kept, later⟩ := first s' since
      exact ⟨kept, ih s' later⟩
  | wait ready limit next ih => exact fun came s' since ends => ih came (first came s' since ends)

/-- The state at the end of a task comes after every state that its beginning comes after. -/
theorem Assures.since {s₀ : S} (trans : ∀ {a b c}, onward a b → onward b c → onward a c)
    (begun : onward s₀ s) (assures : t.Assures onward goal s) :
    t.Assures onward (fun a s' => onward s₀ s' ∧ goal a s') s := by
  induction t generalizing s with
  | done a => exact ⟨begun, assures⟩
  | act update next ih =>
      intro s' since
      obtain ⟨kept, later⟩ := assures s' since
      exact ⟨kept, ih s' (trans (trans begun since) kept) later⟩
  | wait ready limit next ih =>
      exact fun came s' since ends => ih came (trans begun since) (assures came s' since ends)

/-- What others have done does not matter, if it does not matter to the goal. -/
theorem Assures.later (trans : ∀ {a b c}, onward a b → onward b c → onward a c)
    (lasts : ∀ {a s s'}, goal a s → onward s s' → goal a s') (assures : t.Assures onward goal s)
    (since : onward s s') : t.Assures onward goal s' := by
  cases t with
  | done a => exact lasts assures since
  | act update next => exact fun s'' more => assures s'' (trans since more)
  | wait ready limit next => exact fun came s'' more => assures came s'' (trans since more)

/-- A step of a task in a state is one that it may do, and leaves what assures the same. -/
theorem Assures.step {came : Bool} (refl : onward s s) (assures : t.Assures onward goal s)
    (ends : ∀ ready limit next, t = .wait ready limit next → came = true → ready s = true)
    (goes : t.step came s = some (t', s')) : onward s s' ∧ t'.Assures onward goal s' := by
  cases t with
  | done a => cases goes
  | act update next =>
      cases goes
      exact assures s refl
  | wait ready limit next =>
      cases goes
      exact ⟨refl, assures came s refl (ends ready limit next rfl)⟩

theorem assures_perform {step : S → α × S}
    (each : ∀ s', onward s s' → onward s' (step s').2 ∧ goal (step s').1 (step s').2) :
    (perform step).Assures onward goal s := each

/-- A task each of whose steps does only what may be done. -/
theorem KeepsTo.assures {allowed : S → S → Prop} (steps : t.KeepsTo allowed)
    (may : ∀ s₁ s₂, onward s s₁ → allowed s₁ s₂ → onward s₁ s₂)
    (trans : ∀ {a b c}, onward a b → onward b c → onward a c) :
    t.Assures onward (fun _ _ => True) s := by
  induction t generalizing s with
  | done a => trivial
  | act update next ih =>
      intro s' since
      have kept := may s' _ since (steps s').1
      exact ⟨kept, ih s' (steps s').2 fun s₁ s₂ more => may s₁ s₂ (trans (trans since kept) more)⟩
  | wait ready limit next ih =>
      intro came s' since _
      exact ih came (steps came) fun s₁ s₂ more => may s₁ s₂ (trans since more)

/-- What each step of a task does is done by the whole of it, if nobody else is at work. -/
theorem KeepsTo.runAlone {allowed : S → S → Prop} (refl : ∀ s, allowed s s)
    (trans : ∀ {a b c}, allowed a b → allowed b c → allowed a c) (steps : t.KeepsTo allowed) :
    allowed s (t.runAlone s).2 := by
  induction t generalizing s with
  | done a => exact refl s
  | act update next ih => exact trans (steps s).1 (ih s (steps s).2)
  | wait ready limit next ih => exact ih (ready s) (steps (ready s))

theorem KeepsTo.bind {allowed : S → S → Prop} {k : α → Task S β} (first : t.KeepsTo allowed)
    (second : ∀ a, (k a).KeepsTo allowed) : (t.bind k).KeepsTo allowed := by
  induction t with
  | done a => exact second a
  | act update next ih => exact fun s => ⟨(first s).1, ih s (first s).2⟩
  | wait ready limit next ih => exact fun came => ih came (first came)

/-- On the whole of a state a task on a part of it does no more than put back that part. -/
theorem keepsTo_lift {get : V → S} {set : S → V → V} {allowed : V → V → Prop}
    (puts : ∀ v s, allowed v (set s v)) : (t.lift get set).KeepsTo allowed := by
  induction t with
  | done a => trivial
  | act update next ih => exact fun v => ⟨puts v _, ih (get v)⟩
  | wait ready limit next ih => exact fun came => ih came

/-- What a task assures on a part of a state, it assures on the whole. -/
theorem Assures.lift {get : V → S} {set : S → V → V} {onward' : V → V → Prop} {v : V}
    (assures : t.Assures onward goal (get v))
    (gets : ∀ v v', onward' v v' → onward (get v) (get v'))
    (puts : ∀ v s, onward' v v → onward (get v) s → onward' v (set s v) ∧ get (set s v) = s)
    (good : ∀ v v', onward' v v' → onward' v' v') :
    (t.lift get set).Assures onward' (fun a v => goal a (get v)) v := by
  induction t generalizing v with
  | done a => exact assures
  | act update next ih =>
      intro v' since
      obtain ⟨kept, later⟩ := assures (get v') (gets v v' since)
      obtain ⟨kept', there⟩ := puts v' _ (good v v' since) kept
      refine ⟨kept', ih (get v') ?_⟩
      rw [there]
      exact later
  | wait ready limit next ih =>
      exact fun came v' since ends => ih came (assures came (get v') (gets v v' since) ends)

end Task

namespace JobTask

variable {W α β : Type} {onward : W → W → Prop} {goal : Except (Fault JobError) β → W → Prop}
  {w : W}

/-- What a task that may fail assures of its result. -/
structure Assures (onward : W → W → Prop) (goal : Except (Fault JobError) β → W → Prop)
    (t : JobTask W β) (w : W) : Prop where
  steps : t.run.Assures onward goal w

variable {t : JobTask W α} {k : α → JobTask W β}

theorem Assures.mono {goal' : Except (Fault JobError) α → W → Prop}
    {goal : Except (Fault JobError) α → W → Prop} (assures : t.Assures onward goal w)
    (weaker : ∀ result w, goal result w → goal' result w) : t.Assures onward goal' w :=
  ⟨assures.steps.mono weaker⟩

theorem assures_ok {b : β} (reached : goal (.ok b) w) :
    (pure b : JobTask W β).Assures onward goal w := ⟨reached⟩

theorem assures_fail {e : JobError} (reached : goal (.error (.error e)) w) :
    (fail e : JobTask W β).Assures onward goal w := ⟨reached⟩

theorem assures_call {call : StoreCall W β} (each : ∀ w', onward w w' →
    onward w' (call w').2 ∧ goal ((call w').1.mapError Fault.ofStore) (call w').2) :
    (JobTask.call call).Assures onward goal w := by
  constructor
  rw [run_call_eq]
  exact each

theorem assures_perform {step : W → β × W} (each : ∀ w', onward w w' →
    onward w' (step w').2 ∧ goal (.ok (step w').1) (step w').2) :
    (JobTask.perform step).Assures onward goal w := ⟨each⟩

theorem assures_lift {t : Task W β} (assures : t.Assures onward (fun b w => goal (.ok b) w) w) :
    JobTask.Assures onward goal (ExceptT.lift t) w :=
  ⟨assures.bind fun _ _ reached => reached⟩

/-- One task after another: where the first fails, so does the whole. -/
theorem assures_bind (middle : α → W → Prop)
    (first : t.Assures onward (fun result w =>
      match result with
      | .ok a => middle a w
      | .error fault => goal (.error fault) w) w)
    (second : ∀ a w, middle a w → (k a).Assures onward goal w) :
    (t >>= k).Assures onward goal w := by
  constructor
  rw [run_bind]
  refine first.steps.bind fun result w' reached => ?_
  cases result with
  | ok a => exact (second a w' reached).steps
  | error fault => exact reached

/-- Going on with a result assures what going on with its value does, if it is no error. -/
theorem assures_ofExcept {r : Except JobError α} (failed : ∀ e, goal (.error (.error e)) w)
    (goes : ∀ a, r = .ok a → (k a).Assures onward goal w) :
    (ofExcept r >>= k).Assures onward goal w := by
  constructor
  rw [run_bind]
  cases r with
  | error e => exact failed e
  | ok a => exact (goes a rfl).steps

end JobTask

/-- A typed handler assures what it assures for the payloads that it accepts. -/
theorem TypedHandler.assures_toHandler {W D O : Type} {onward : W → W → Prop} {w : W}
    {goal : Except (Fault JobError) Unit → W → Prop} {h : TypedHandler W D O}
    {context : JobContext} {job : Job} (failed : ∀ fault, goal (.error fault) w)
    (goes : ∀ p, job.decode h.data h.options h.noOptions = .ok p →
      (h.run context p).Assures onward goal w) :
    (h.toHandler.run context job).Assures onward goal w := by
  rw [toHandler]
  refine JobTask.assures_ofExcept (fun e => failed (.error e)) fun p decoded => ?_
  split
  · exact JobTask.assures_fail (failed _)
  · exact goes p decoded

end JobQueue
