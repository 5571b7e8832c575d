/-
A single caller.

Between two steps of a call others may act on the same state. `Task.Secures` says that a call comes
to a value and a state as its goal says, whatever the others do, and that, where this is possible
for it, each of its waits can end. It is composed along the steps of calls (`Secures.bind`), holds
of a call on a part of the state that the others leave alone (`Secures.lift`), and is kept by every
course of moves of a single caller (`Callers.secured`), which can then go on to the end of the call
(`Callers.exists_end`).
-/

import JobQueue.Proofs.Engine.Callers
import JobQueue.Proofs.Job.Ending
import Mathlib.Logic.Relation

namespace JobQueue

open Relation (ReflTransGen)

variable {W : Type}

namespace Task

variable {S V α β : Type} {others : S → S → Prop} {able : Prop} {goal : α → S → Prop}
  {t : Task S α} {s s' : S}

/-- Whatever others do between its steps, the task ends with a value and in a state as the goal
says; and if it is able to, it never waits for what cannot come any more. -/
def Secures (others : S → S → Prop) (able : Prop) (goal : α → S → Prop) : Task S α → S → Prop
  | .done a, s => ∀ s', ReflTransGen others s s' → goal a s'
  | .act update next, s => ∀ s', ReflTransGen others s s' →
      Secures others able goal (next s') (update s')
  | .wait ready limit next, s => ∀ s', ReflTransGen others s s' →
      (able → limit.isSome = true ∨ ∃ later, ReflTransGen others s' later ∧ ready later = true) ∧
      ∀ came, (if came then ready s' else limit.isSome) = true →
        Secures others able goal (next came) s'

/-- What the others have done does not matter. -/
theorem Secures.after (secures : t.Secures others able goal s) (later : ReflTransGen others s s') :
    t.Secures others able goal s' := by
  cases t with
  | done a | act update next | wait ready limit next =>
      exact fun s'' more => secures s'' (later.trans more)

theorem Secures.mono {goal' : α → S → Prop} (secures : t.Secures others able goal s)
    (weaker : ∀ a s, goal a s → goal' a s) : t.Secures others able goal' s := by
  induction t generalizing s with
  | done a => exact fun s' later => weaker a s' (secures s' later)
  | act update next ih => exact fun s' later => ih s' (secures s' later)
  | wait ready limit next ih =>
      intro s' later
      obtain ⟨possible, goesOn⟩ := secures s' later
      exact ⟨possible, fun came ends => ih came (goesOn came ends)⟩

/-- What a task has come to holds on while others go on, and a second task may begin there. -/
theorem Secures.bind {k : α → Task S β} {goal' : β → S → Prop}
    (first : t.Secures others able goal s)
    (second : ∀ a s, (∀ s', ReflTransGen others s s' → goal a s') →
      (k a).Secures others able goal' s) :
    (t.bind k).Secures others able goal' s := by
  induction t generalizing s with
  | done a => exact second a s first
  | act update next ih => exact fun s' later => ih s' (first s' later)
  | wait ready limit next ih =>
      intro s' later
      obtain ⟨possible, goesOn⟩ := first s' later
      exact ⟨possible, fun came ends => ih came (goesOn came ends)⟩

/-- A task that nobody interferes with. -/
abbrev SecuresAlone (able : Prop) (goal : α → S → Prop) : Task S α → S → Prop :=
  Secures (fun _ _ => False) able goal

theorem eq_of_nobody (later : ReflTransGen (fun _ _ => False) s s') : s' = s := by
  cases later with
  | refl => rfl
  | tail _ never => exact never.elim

/-- A task on a part of the state that the others leave alone comes to what it comes to alone. -/
theorem Secures.lift {get : V → S} {set : S → V → V} {others : V → V → Prop} {rests : V → Prop}
    {v : V} (secures : t.SecuresAlone able goal s) (there : get v = s) (begins : rests v)
    (stays : ∀ v v', rests v → others v v' → rests v' ∧ get v' = get v)
    (puts : ∀ s v, rests v → rests (set s v) ∧ get (set s v) = s) :
    (t.lift get set).Secures others able (fun a v => rests v ∧ goal a (get v)) v := by
  have still : ∀ {v v'}, rests v → ReflTransGen others v v' → rests v' ∧ get v' = get v := by
    intro v v' begins later
    induction later with
    | refl => exact ⟨begins, rfl⟩
    | tail _ last ih =>
        obtain ⟨rests', same⟩ := stays _ _ ih.1 last
        exact ⟨rests', same.trans ih.2⟩
  induction t generalizing s v with
  | done a =>
      intro v' later
      obtain ⟨rests', same⟩ := still begins later
      exact ⟨rests', same.trans there ▸ secures s .refl⟩
  | act update next ih =>
      intro v' later
      obtain ⟨rests', same⟩ := still begins later
      rw [there] at same
      obtain ⟨rests'', put⟩ := puts (update (get v')) v' rests'
      refine ih (get v') ?_ put rests''
      exact same ▸ secures s .refl
  | wait ready limit next ih =>
      intro v' later
      obtain ⟨rests', same⟩ := still begins later
      rw [there] at same
      subst same
      obtain ⟨possible, goesOn⟩ := secures _ .refl
      refine ⟨fun yes => (possible yes).imp_right ?_, fun came ends => ?_⟩
      · rintro ⟨s', later', comes⟩
        cases eq_of_nobody later'
        exact ⟨v', .refl, comes⟩
      · exact ih came (goesOn came ends) rfl rests'

/-- What a task brings about under its own id, it brings about alone. -/
theorem Brings.alone {C : Type} {shelf : Shelf W C} {id : String} {ending : α → Option C → Prop}
    {t : Task W α} {w : W} (brings : t.Brings shelf id ending (shelf.cell w id))
    (good : shelf.Good w) (limited : able → t.WaitsOnly fun limit => limit.isSome) :
    t.SecuresAlone able (fun a w' => ending a (shelf.cell w' id) ∧ shelf.Good w' ∧
      shelf.SameBut id w w') w := by
  induction t generalizing w with
  | done a =>
      intro w' later
      cases eq_of_nobody later
      exact ⟨brings, good, Shelf.Same.refl.but⟩
  | act update next ih =>
      intro w' later
      cases eq_of_nobody later
      obtain ⟨apart, later⟩ := brings w good rfl
      refine (ih w later (apart.good good) fun yes => limited yes w).mono ?_
      rintro a w' ⟨ends, good', apart'⟩
      refine ⟨ends, good', fun _ => good', fun other differs => ?_⟩
      rw [apart'.cell other differs, apart.cell other differs]
  | wait ready limit next ih =>
      intro w' later
      cases eq_of_nobody later
      refine ⟨fun yes => .inl (limited yes).1, fun came _ => ?_⟩
      exact ih came (brings came) good fun yes => (limited yes).2 came

end Task

/-! ### Courses of a single caller -/

theorem Engine.onWorld_act_bind {α β : Type} {update : W → W} {next : W → Task W α}
    {k : α → Task (Engine W) β} : (Engine.onWorld (.act update next)).bind k =
      .act (fun e => e.setWorld (update e.world)) fun e =>
        (Engine.onWorld (next e.world)).bind k := rfl

/-- An event that gives nothing up happens in the pool of an engine. -/
def Engine.Stirs (x : Executor W) (e e' : Engine W) : Prop :=
  ∃ event q, event.isCalm = true ∧ Pool.Step x e.pool event q ∧ e' = e.setPool q

namespace Callers

variable {α : Type} {x : Executor W} {able : Prop} {goal : α → Engine W → Prop}
  {e e' : Engine W} {t : Task (Engine W) α} {c : Callers W α} {move : Move} {moves : List Move}

/-- Whether a move gives nothing up. -/
def Move.isCalm : Move → Bool
  | .pool event => event.isCalm
  | .call .. => true

/-- A single call on an engine. -/
def single (e : Engine W) (t : Task (Engine W) α) : Callers W α := ⟨e, [t]⟩

/-- A single call takes its next step. -/
theorem replay_act {update : Engine W → Engine W} {next : Engine W → Task (Engine W) α} :
    (single e (.act update next)).replay x (.call 0 true :: moves) =
      (single (update e) (next e)).replay x moves := rfl

/-- A move leaves a single call on its way to its goal. -/
theorem secured_step (secures : t.Secures (Engine.Stirs x) able goal e) (calm : move.isCalm = true)
    (rule : Step x (single e t) move c) :
    ∃ e' t', c = single e' t' ∧ t'.Secures (Engine.Stirs x) able goal e' := by
  cases rule with
  | @pool event q inner rule =>
      refine ⟨e.setPool q, t, rfl, secures.after (.single ⟨event, q, calm, rule, rfl⟩)⟩
  | @call i came task task' engine here able' goes =>
      obtain ⟨rfl, rfl⟩ : i = 0 ∧ t = task := by
        cases i with
        | zero => exact ⟨rfl, Option.some.inj here⟩
        | succ i => simp [single] at here
      refine ⟨engine, task', rfl, ?_⟩
      cases t with
      | done a => cases goes
      | act update next =>
          cases goes
          exact secures e .refl
      | wait ready limit next =>
          cases goes
          exact (secures e .refl).2 came able'

/-- Whatever happens that gives nothing up, a single call stays on its way to its goal. -/
theorem secured (secures : t.Secures (Engine.Stirs x) able goal e)
    (calm : ∀ move ∈ moves, move.isCalm = true) (run : (single e t).replay x moves = some c) :
    ∃ e' t', c = single e' t' ∧ t'.Secures (Engine.Stirs x) able goal e' := by
  refine replay_induction (motive := fun moves c => (∀ move ∈ moves, move.isCalm = true) →
    ∃ e' t', c = single e' t' ∧ t'.Secures (Engine.Stirs x) able goal e')
    (fun _ => ⟨e, t, rfl, secures⟩) (fun moves c move c' _ before rule calm => ?_) run calm
  obtain ⟨e', t', rfl, secures'⟩ := before fun other member => calm other (by simp [member])
  exact secured_step secures' (calm move (by simp)) rule

/-- What others do while a call waits is a course of moves. -/
theorem exists_moves (later : ReflTransGen (Engine.Stirs x) e e') : ∃ moves,
    (∀ move ∈ moves, move.isCalm = true) ∧
      (single e t).replay x moves = some (single e' t) := by
  induction later with
  | refl => exact ⟨[], by simp, rfl⟩
  | tail _ last ih =>
      obtain ⟨moves, calm, run⟩ := ih
      obtain ⟨event, q, gentle, rule, rfl⟩ := last
      refine ⟨moves ++ [.pool event], ?_, ?_⟩
      · intro move member
        rcases List.mem_append.mp member with old | new
        · exact calm move old
        · cases List.mem_singleton.mp new
          exact gentle
      · exact replay_snoc run (.pool (Pool.Event.isInner_of_isCalm gentle) rule)

/-- A single call that is able to end can go on to its end. -/
theorem exists_end (possible : able) (secures : t.Secures (Engine.Stirs x) able goal e) :
    ∃ moves e' a, (∀ move ∈ moves, move.isCalm = true) ∧
      (single e t).replay x moves = some (single e' (.done a)) := by
  -- One step of the call, after which it goes on to its end.
  have steps : ∀ {e e' t t'} came, canStep came t e = true → t.step came e = some (t', e') →
      (∃ moves e'' a, (∀ move ∈ moves, move.isCalm = true) ∧
        (single e' t').replay x moves = some (single e'' (.done a))) →
      ∃ moves e'' a, (∀ move ∈ moves, move.isCalm = true) ∧
        (single e t : Callers W α).replay x moves = some (single e'' (.done a)) := by
    rintro e e' t t' came able' goes ⟨moves, e'', a, calm, run⟩
    refine ⟨.call 0 came :: moves, e'', a, ?_, ?_⟩
    · simpa [Move.isCalm] using calm
    · have first : (single e t).step x (.call 0 came) = some (single e' t') :=
        step_eq_some_iff.mpr (.call rfl able' goes)
      rw [replay, first, Option.bind_some, run]
  induction t generalizing e with
  | done a => exact ⟨[], e, a, by simp, rfl⟩
  | act update next ih => exact steps true rfl rfl (ih e (secures e .refl))
  | wait ready limit next ih =>
      obtain ⟨ends, goesOn⟩ := secures e .refl
      rcases ends possible with limited | ⟨e', later, comes⟩
      · exact steps false limited rfl (ih false (goesOn false limited))
      · obtain ⟨first, calm, run⟩ := exists_moves (t := .wait ready limit next) later
        obtain ⟨second, e'', a, calm', run'⟩ := steps true (t := .wait ready limit next) comes rfl
          (ih true ((secures e' later).2 true comes))
        refine ⟨first ++ second, e'', a, ?_, ?_⟩
        · intro move member
          rcases List.mem_append.mp member with old | new
          · exact calm move old
          · exact calm' move new
        · rw [replay_append, run, Option.bind_some, run']

end Callers

end JobQueue
