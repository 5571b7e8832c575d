/-
Running starts and stops of one scanner.

A start is a fiber and a stop is a task. Each takes one step at a time, in any order, and whoever
else works on the engine may change its pool between these steps (`Crew.step`). The tasks note what
they do in the life of the scanner, where an event that cannot happen is passed over
(`Lifecycle.after`). None is ever passed over: each step of a start is a stride of that start or
leaves the scanner as it is, whatever signal has come in the meantime (`Walks`). So a run of the
tasks is a run of the scanner's life, move by move (`Crew.told_of_replay`).
-/

import JobQueue.Engine.Timeline
import JobQueue.Proofs.Engine.Callers
import JobQueue.Proofs.Job.Guarantee
import JobQueue.Proofs.Scanner.Lifecycle

namespace JobQueue

namespace Scanner

variable {W α β : Type} {p : Processor W} {schedule : Cron.Schedule} {l l' : Lifecycle}
  {s s' s'' : StartState} {ev : Event} {i j : Nat} {b : Bool}

/-! ### What others do to a start -/

/-- Where a start may stand after what others have done: a signal may have come. -/
inductive StartState.Later (s : StartState) : StartState → Prop where
  | same : Later s s
  | signal : Later s s.signal

theorem StartState.Later.trans (first : s.Later s') (second : s'.Later s'') : s.Later s'' := by
  have twice : s.signal.signal = s.signal := by cases s <;> rfl
  cases first with
  | same => exact second
  | signal =>
      cases second with
      | same => exact .signal
      | signal =>
          rw [twice]
          exact .signal

theorem Lifecycle.Change.later (change : Change l ev l') (other : ev.isOf i = false)
    (here : l.starts[i]? = some s) : ∃ s', l'.starts[i]? = some s' ∧ s.Later s' := by
  cases change with
  | stride _ stride =>
      refine ⟨s, ?_, .same⟩
      rw [List.getElem?_set_ne, here]
      rintro rfl
      exact Bool.eq_false_iff.mp other (stride.isOf_iff.mpr rfl)
  | start =>
      refine ⟨s, ?_, .same⟩
      rw [List.getElem?_append_left (List.getElem?_eq_some_iff.mp here).1, here]
  | stop => exact ⟨s, here, .same⟩
  | send => exact ⟨s.signal, by rw [List.getElem?_map, here, Option.map_some], .signal⟩

theorem Lifecycle.Change.stops {state : StopState} (change : Change l ev l') (other : ev ≠ .send j)
    (here : l.stops[j]? = some state) : l'.stops[j]? = some state := by
  cases change with
  | stride | start => exact here
  | stop => exact (List.getElem?_append_left (List.getElem?_eq_some_iff.mp here).1).trans here
  | send =>
      refine (List.getElem?_set_ne ?_).trans here
      rintro rfl
      exact other rfl

theorem Event.isOf_ne (own : ev.isOf i = true) (other : j ≠ i) : ev.isOf j = false := by
  cases ev with
  | start | stop | send => rfl
  | _ =>
      rw [Event.isOf, beq_iff_eq] at own
      subst own
      exact beq_false_of_ne (Ne.symm other)

/-- A step of a start leaves the stops alone, and makes no start and takes none away. -/
theorem Lifecycle.Change.lists (change : Change l ev l') (own : ev.isOf i = true) :
    l'.starts.length = l.starts.length ∧ l'.stops = l.stops := by
  cases change with
  | stride => exact ⟨List.length_set, rfl⟩
  | start | stop | send => cases own

/-! ### How a task goes -/

/-- What one step of a start does to the scanner and to the start: nothing, or one stride. -/
inductive Pace (l : Lifecycle) (i : Nat) (s : StartState) : Lifecycle → StartState → Prop where
  | rest : Pace l i s l s
  | stride {ev : Event} {s' : StartState} {running : Bool}
      (stride : Lifecycle.Stride l i ev s s' running) :
      Pace l i s { l with isRunning := running, starts := l.starts.set i s' } s'

/-- Whether a task of a start that stands in a state takes only paces, whatever others do between
its steps, and leaves the start as the goal says. -/
def Walks (i : Nat) (goal : α → StartState → Prop) : Task (Engine W) α → StartState → Prop
  | .done a, s => goal a s
  | .act update next, s => ∀ (e : Engine W) s', s.Later s' → e.scanner.starts[i]? = some s' →
      ∃ s'', Pace e.scanner i s' (update e).scanner s'' ∧ Walks i goal (next e) s''
  | .wait ready _ next, s => ∀ came (e : Engine W) s', s.Later s' →
      e.scanner.starts[i]? = some s' → (came = true → ready e = true) →
      Walks i goal (next came) s'

variable {goal : α → StartState → Prop} {t : Task (Engine W) α}

theorem walks_bind {k : α → Task (Engine W) β} {goal : β → StartState → Prop}
    (middle : α → StartState → Prop) (first : Walks i middle t s)
    (second : ∀ a s, middle a s → Walks i goal (k a) s) : Walks i goal (t >>= k) s := by
  show Walks i goal (t.bind k) s
  induction t generalizing s with
  | done a => exact second a s first
  | act update next ih =>
      intro e s' later here
      obtain ⟨s'', pace, rest⟩ := first e s' later here
      exact ⟨s'', pace, ih e rest⟩
  | wait ready limit next ih =>
      exact fun came e s' later here ends => ih came (first came e s' later here ends)

/-- A signal that comes does not matter, if it does not matter to the goal. -/
theorem Walks.later (lasts : ∀ {a s s'}, goal a s → s.Later s' → goal a s')
    (walks : Walks i goal t s) (since : s.Later s') : Walks i goal t s' := by
  cases t with
  | done a => exact lasts walks since
  | act update next => exact fun e s'' more => walks e s'' (since.trans more)
  | wait ready limit next => exact fun came e s'' more => walks came e s'' (since.trans more)

/-- A task that leaves the scanner alone leaves a start as others do. -/
theorem walks_quiet (quiet : t.KeepsTo fun e e' => e'.scanner = e.scanner) (since : s.Later s') :
    Walks i (fun _ s'' => s.Later s'') t s' := by
  induction t generalizing s' with
  | done a => exact since
  | act update next ih =>
      intro e s'' later here
      obtain ⟨alone, rest⟩ := quiet e
      exact ⟨s'', alone ▸ .rest, ih e rest (since.trans later)⟩
  | wait ready limit next ih =>
      exact fun came e s'' later here _ => ih came (quiet came) (since.trans later)

theorem walks_happen {k : Unit → Task (Engine W) α} (goes : ∀ l s', s.Later s' →
    ∃ s'' running, Lifecycle.Stride l i ev s' s'' running ∧ Walks i goal (k ()) s'') :
    Walks i goal (happen ev >>= k) s := by
  intro e s' later here
  obtain ⟨s'', running, stride, rest⟩ := goes e.scanner s' later
  refine ⟨s'', ?_, rest⟩
  show Pace e.scanner i s' (e.scanner.after ev) s''
  rw [Lifecycle.after_of_change (.stride here stride)]
  exact .stride stride

theorem walks_observe {f : Lifecycle → β} {k : β → Task (Engine W) α} (goes : ∀ l s', s.Later s' →
    l.starts[i]? = some s' → Walks i goal (k (f l)) s') : Walks i goal (observe f >>= k) s :=
  fun e s' later here => ⟨s', .rest, goes e.scanner s' later here⟩

/-! ### Scans -/

theorem keepsTo_onWorld {t : Task W α} :
    (Engine.onWorld t).KeepsTo fun e e' => e'.scanner = e.scanner :=
  Task.keepsTo_lift fun _ _ => rfl

theorem keepsTo_processConcurrently {records : List JobRecord} :
    (Engine.processConcurrently p records).KeepsTo fun e e' => e'.scanner = e.scanner := by
  rw [Engine.processConcurrently]
  split
  · trivial
  · split
    · exact fun _ => ⟨rfl, fun _ _ => ⟨rfl, trivial⟩⟩
    · exact keepsTo_onWorld

theorem keepsTo_scanOnce :
    (scanOnce p).run.KeepsTo fun e e' => e'.scanner = e.scanner := by
  rw [scanOnce, JobTask.run_bind]
  refine keepsTo_onWorld.bind ?_
  rintro (fault | page)
  · trivial
  · dsimp only
    split
    · trivial
    · rw [JobTask.run_bind]
      refine Task.KeepsTo.bind (keepsTo_processConcurrently.bind fun _ => ?_) ?_
      · trivial
      · rintro (fault | (crash | results)) <;> trivial

/-! ### The tasks of a start -/

/-- How a start stands when a task of it ends that says whether it is to go on. -/
def Ends : Bool → StartState → Prop
  | true, s => ∃ signalled, s = .checking signalled
  | false, s => ∃ result, s = .returned result

theorem Ends.later {again : Bool} (ends : Ends again s) (later : s.Later s') : Ends again s' := by
  cases again with
  | true =>
      obtain ⟨signalled, rfl⟩ := ends
      cases later <;> exact ⟨_, rfl⟩
  | false =>
      obtain ⟨result, rfl⟩ := ends
      cases later <;> exact ⟨_, rfl⟩

theorem walks_enter : Walks i Ends (enter i : Task (Engine W) Bool) .called := by
  refine walks_happen fun l s' later => ?_
  obtain rfl : s' = .called := by cases later <;> rfl
  cases running : l.isRunning with
  | true =>
      refine ⟨_, _, .refuse running, walks_observe fun l s' later here => ?_⟩
      obtain rfl : s' = .returned (.error alreadyRunning) := by cases later <;> rfl
      have found : l.resultOf? i = some (.error alreadyRunning) := by
        rw [Lifecycle.resultOf?, Lifecycle.startOf?, here]
      rw [found]
      exact ⟨_, rfl⟩
  | false =>
      refine ⟨_, _, .claim running, walks_observe fun l s' later here => ?_⟩
      obtain rfl : s' = .claimed := by cases later <;> rfl
      have none : l.resultOf? i = none := by
        rw [Lifecycle.resultOf?, Lifecycle.startOf?, here]
      rw [none]
      refine walks_happen fun l s' later => ?_
      cases later <;> exact ⟨_, _, .subscribe, _, rfl⟩

theorem walks_leave : Walks i Ends (leave i : Task (Engine W) Bool) .leaving :=
  walks_happen fun l s' later => by cases later <;> exact ⟨_, _, .leave, _, rfl⟩

theorem isLeaving_eq (here : l.starts[i]? = some s) :
    l.isLeaving i = true ↔ s = .leaving := by
  rw [Lifecycle.isLeaving, Lifecycle.startOf?, here]
  cases s <;> simp

theorem eq_waiting (here : l.starts[i]? = some s) (signalled : l.isSignalled i = true) :
    s = .waiting true := by
  rw [Lifecycle.isSignalled, Lifecycle.startOf?, here] at signalled
  cases s with
  | waiting signal => cases signalled; rfl
  | _ => cases signalled

/-- The rest of a round whose next run has been planned. -/
theorem walks_wait {millis : Nat} : Walks i Ends (do
    let signalled ← Task.awaitFor (fun engine : Engine W => engine.scanner.isSignalled i) millis
    if signalled then
      happen (.hear i)
      leave i
    else
      happen (.tick i)
      let _ ← (scanOnce p).run
      happen (.scanned i)
      return true) (.waiting b) := by
  intro came e s' later here ends
  obtain ⟨b, rfl⟩ : ∃ b, s' = .waiting b := by cases later <;> exact ⟨_, rfl⟩
  cases came with
  | true =>
      cases eq_waiting here (ends rfl)
      refine walks_happen fun l s' later => ?_
      cases later <;> exact ⟨_, _, .hear, walks_leave⟩
  | false =>
      refine walks_happen fun l s' later => ?_
      obtain ⟨b, rfl⟩ : ∃ b, s' = .waiting b := by cases later <;> exact ⟨_, rfl⟩
      refine ⟨_, _, .tick, walks_bind _ (walks_quiet keepsTo_scanOnce .same) fun _ s later => ?_⟩
      refine walks_happen fun l s' since => ?_
      cases later <;> cases since <;> exact ⟨_, _, .scanned, _, rfl⟩

theorem walks_round : Walks i Ends (round p schedule i) (.checking b) := by
  refine walks_happen fun l s' later => ?_
  obtain ⟨b, rfl⟩ : ∃ b, s' = .checking b := by cases later <;> exact ⟨_, rfl⟩
  cases stopping : l.isStopping with
  | true =>
      refine ⟨_, _, .heed stopping, walks_observe fun l s' later here => ?_⟩
      obtain rfl : s' = .leaving := by cases later <;> rfl
      rw [if_pos ((isLeaving_eq here).mpr rfl)]
      exact walks_leave
  | false =>
      refine ⟨_, _, .pass stopping, walks_observe fun l s' later here => ?_⟩
      obtain ⟨b, rfl⟩ : ∃ b, s' = .planning b := by cases later <;> exact ⟨_, rfl⟩
      rw [if_neg (mt (isLeaving_eq here).mp nofun)]
      refine walks_bind _ (walks_quiet keepsTo_onWorld .same) fun next s later => ?_
      obtain ⟨b, rfl⟩ : ∃ b, s = .planning b := by cases later <;> exact ⟨_, rfl⟩
      cases next with
      | none =>
          refine walks_happen fun l s' later => ?_
          cases later <;> exact ⟨_, _, .giveUp, walks_leave⟩
      | some span =>
          refine walks_happen fun l s' later => ?_
          cases later <;> exact ⟨_, _, .plan, walks_wait⟩

end Scanner

/-! ### Starts and stops under way -/

/-- A fiber after one step of it, its body begun again if it is to go on. Where it waits, `came`
says how its wait ends. -/
def Fiber.step {S : Type} (came : Bool) (f : Fiber S) (s : S) : Option (Fiber S × S) :=
  match f.task with
  | .done true => some ({ f with task := f.body }, s)
  | t =>
      if Callers.canStep came t s then
        (t.step came s).map fun (t, s) => ({ f with task := t }, s)
      else none

/-- The starts and stops that have been called on one engine, and how far they are. -/
structure Crew (W : Type) where
  engine : Engine W
  starts : List (Fiber (Engine W))
  stops : List (Task (Engine W) Unit)

namespace Crew

/-- What can happen next among starts and stops. -/
inductive Move (W : Type) where
  /-- Somebody calls start on a scanner with a schedule. -/
  | start (schedule : Cron.Schedule)
  /-- A step of a start; where it waits, `came` says how its wait ends. -/
  | go (i : Nat) (came : Bool)
  /-- Somebody calls stop, which takes its first step at once. -/
  | stop
  /-- The next step of a stop. -/
  | send (j : Nat)
  /-- Others work on the engine. -/
  | rest (pool : Pool W)

variable {W : Type}

/-- An engine whose scanner nobody has started. -/
def still (p : Processor W) (world : W) : Crew W := ⟨Engine.start p world, [], []⟩

/-- The starts and stops after a move, if the move can happen. -/
def step (p : Processor W) (c : Crew W) : Move W → Option (Crew W)
  | .start schedule =>
      let (i, engine) := Scanner.call.runAlone c.engine
      let fiber := Fiber.begin (Scanner.enter i) (Scanner.round p schedule i)
      some { c with engine := engine, starts := c.starts ++ [fiber] }
  | .go i came =>
      match c.starts[i]? with
      | some fiber => (fiber.step came c.engine).map fun (fiber, engine) =>
          { c with engine := engine, starts := c.starts.set i fiber }
      | none => none
  | .stop => (Scanner.stop.step true c.engine).map fun (task, engine) =>
      { c with engine := engine, stops := c.stops ++ [task] }
  | .send j =>
      match c.stops[j]? with
      | some task => (task.step true c.engine).map fun (task, engine) =>
          { c with engine := engine, stops := c.stops.set j task }
      | none => none
  | .rest pool => some { c with engine := c.engine.setPool pool }

/-- The starts and stops after a list of moves, if each of them can happen in its turn. -/
def replay (p : Processor W) : Crew W → List (Move W) → Option (Crew W)
  | c, [] => some c
  | c, move :: rest => (c.step p move).bind fun c => replay p c rest

/-- Which events of the scanner's life a move may be. -/
inductive Told : Move W → List Scanner.Event → Prop where
  | start {schedule : Cron.Schedule} : Told (.start schedule) [.start]
  | idle {i : Nat} {came : Bool} : Told (.go i came) []
  | go {i : Nat} {came : Bool} {event : Scanner.Event} (own : event.isOf i = true) :
      Told (.go i came) [event]
  | stop : Told .stop [.stop]
  | send {j : Nat} : Told (.send j) [.send j]
  | rest {pool : Pool W} : Told (.rest pool) []

open Scanner (Lifecycle Event StartState Walks Ends Pace)

variable {p : Processor W} {schedule : Cron.Schedule} {c c' : Crew W} {move : Move W}
  {moves : List (Move W)} {l l' : Lifecycle} {event : Event} {i j : Nat} {came : Bool}
  {f f' : Fiber (Engine W)} {t : Task (Engine W) Unit} {e e' : Engine W}

/-! ### Where they stand -/

/-- Where the fiber of a start stands: what is left of it goes on from where the start is. -/
structure Fares (i : Nat) (f : Fiber (Engine W)) (l : Lifecycle) : Prop where
  task : ∃ s, l.starts[i]? = some s ∧ Walks i Ends f.task s
  body : ∀ signalled, Walks i Ends f.body (.checking signalled)

theorem Fares.others (fares : Fares i f l) (change : Lifecycle.Change l event l')
    (other : event.isOf i = false) : Fares i f l' := by
  obtain ⟨⟨s, here, walks⟩, body⟩ := fares
  obtain ⟨s', here', later⟩ := change.later other here
  exact ⟨⟨s', here', walks.later Ends.later later⟩, body⟩

/-- A step of a start leaves the scanner as it is, or is an event of that start. -/
theorem Fares.step (fares : Fares i f e.scanner) (goes : f.step came e = some (f', e')) :
    Fares i f' e'.scanner ∧ (e'.scanner = e.scanner ∨
      ∃ event : Event, event.isOf i = true ∧ Lifecycle.Change e.scanner event e'.scanner) := by
  obtain ⟨task, body, timer⟩ := f
  obtain ⟨⟨s, here, walks⟩, again⟩ := fares
  cases task with
  | done more =>
      cases more with
      | true =>
          cases goes
          obtain ⟨signalled, rfl⟩ := walks
          exact ⟨⟨⟨_, here, again signalled⟩, again⟩, .inl rfl⟩
      | false => cases goes
  | act update next =>
      cases goes
      obtain ⟨s', pace, walks'⟩ := walks e s .same here
      dsimp only
      generalize (update e).scanner = after at pace ⊢
      cases pace with
      | rest => exact ⟨⟨⟨s, here, walks'⟩, again⟩, .inl rfl⟩
      | stride stride =>
          obtain ⟨bound, _⟩ := List.getElem?_eq_some_iff.mp here
          exact ⟨⟨⟨s', List.getElem?_set_self bound, walks'⟩, again⟩,
            .inr ⟨_, stride.isOf_iff.mpr rfl, .stride here stride⟩⟩
  | wait ready limit next =>
      simp only [Fiber.step] at goes
      split at goes
      next able =>
        cases goes
        refine ⟨⟨⟨s, here, walks came e s .same here ?_⟩, again⟩, .inl rfl⟩
        rintro rfl
        simpa [Callers.canStep] using able
      next => cases goes

/-- Where the task of a stop stands: it has its signal still to send, or it is over. -/
inductive Halts (j : Nat) : Task (Engine W) Unit → Lifecycle → Prop where
  | sending {l : Lifecycle} (here : l.stops[j]? = some .flagged) :
      Halts j (Scanner.happen (.send j)) l
  | finished {l : Lifecycle} (here : l.stops[j]? = some .returned) : Halts j (.done ()) l

/-- Where starts and stops stand that have been called on one engine. -/
structure Sound (c : Crew W) : Prop where
  starts : c.starts.length = c.engine.scanner.starts.length
  fares : ∀ i f, c.starts[i]? = some f → Fares i f c.engine.scanner
  stops : c.stops.length = c.engine.scanner.stops.length
  halts : ∀ j t, c.stops[j]? = some t → Halts j t c.engine.scanner

theorem sound_still {world : W} : (still p world).Sound := ⟨rfl, nofun, rfl, nofun⟩

theorem Halts.others (halts : Halts j t l) (change : Lifecycle.Change l event l')
    (other : event ≠ .send j) : Halts j t l' := by
  cases halts with
  | sending here => exact .sending (change.stops other here)
  | finished here => exact .finished (change.stops other here)

theorem fares_begin (here : l.starts[i]? = some .called) :
    Fares i (Fiber.begin (Scanner.enter i) (Scanner.round p schedule i)) l where
  task := by
    refine ⟨_, here, fun e s' later _ => ⟨s', .rest, ?_⟩⟩
    obtain rfl : s' = .called := by cases later <;> rfl
    exact Scanner.walks_enter
  body := fun _ => Scanner.walks_round

/-! ### One move -/

theorem getElem?_concat_cases {α : Type} {xs : List α} {x y : α} (here : (xs ++ [x])[i]? = some y) :
    xs[i]? = some y ∨ i = xs.length ∧ y = x := by
  rcases Nat.lt_trichotomy i xs.length with old | rfl | beyond
  · exact .inl (List.getElem?_append_left old ▸ here)
  · rw [List.getElem?_concat_length] at here
    exact .inr ⟨rfl, (Option.some.inj here).symm⟩
  · rw [List.getElem?_eq_none (by simp; omega)] at here
    cases here

section

variable (sound : c.Sound)

include sound

theorem Sound.start (goes : c.step p (.start schedule) = some c') :
    c'.Sound ∧ Lifecycle.Change c.engine.scanner .start c'.engine.scanner := by
  cases goes
  have change : Lifecycle.Change c.engine.scanner .start (c.engine.scanner.after .start) := .start
  refine ⟨⟨?_, fun i f here => ?_, sound.stops, ?_⟩, change⟩
  · simp [sound.starts, Lifecycle.after, Lifecycle.step]
  · rcases getElem?_concat_cases here with old | ⟨rfl, rfl⟩
    · exact (sound.fares i f old).others change rfl
    · rw [sound.starts]
      exact fares_begin List.getElem?_concat_length
  · exact fun j t here => (sound.halts j t here).others change (by rintro ⟨⟩)

theorem Sound.stop (goes : c.step p .stop = some c') :
    c'.Sound ∧ Lifecycle.Change c.engine.scanner .stop c'.engine.scanner := by
  cases goes
  have change : Lifecycle.Change c.engine.scanner .stop (c.engine.scanner.after .stop) := .stop
  refine ⟨⟨sound.starts, ?_, ?_, fun j t here => ?_⟩, change⟩
  · exact fun i f here => (sound.fares i f here).others change rfl
  · simp [sound.stops, Lifecycle.after, Lifecycle.step]
  · rcases getElem?_concat_cases here with old | ⟨rfl, rfl⟩
    · exact (sound.halts j t old).others change (by rintro ⟨⟩)
    · rw [sound.stops]
      exact .sending List.getElem?_concat_length

/-- A step of a start leaves the scanner as it is, or is an event of that start. -/
theorem Sound.go (goes : c.step p (.go i came) = some c') :
    c'.Sound ∧ (c'.engine.scanner = c.engine.scanner ∨ ∃ event : Event, event.isOf i = true ∧
      Lifecycle.Change c.engine.scanner event c'.engine.scanner) := by
  rw [step] at goes
  split at goes
  next f here =>
    obtain ⟨⟨f', e'⟩, taken, rfl⟩ := Option.map_eq_some_iff.mp goes
    obtain ⟨own, does⟩ := (sound.fares i f here).step taken
    refine ⟨?_, does⟩
    have there : ∀ k g, k ≠ i → c.starts[k]? = some g → Fares k g e'.scanner := by
      intro k g other here'
      have fares := sound.fares k g here'
      rcases does with same | ⟨event, mine, change⟩
      · exact same ▸ fares
      · exact fares.others change (Event.isOf_ne mine other)
    have lists : e'.scanner.starts.length = c.engine.scanner.starts.length ∧
        e'.scanner.stops = c.engine.scanner.stops := by
      rcases does with same | ⟨event, mine, change⟩
      · exact same ▸ ⟨rfl, rfl⟩
      · exact change.lists mine
    constructor
    case starts => rw [List.length_set, sound.starts, lists.1]
    case fares =>
      intro k g here'
      by_cases same : k = i
      · subst same
        dsimp only at here'
        rw [List.getElem?_set_self (List.getElem?_eq_some_iff.mp here).1] at here'
        cases here'
        exact own
      · exact there k g same ((List.getElem?_set_ne (Ne.symm same)).symm.trans here')
    case stops => rw [sound.stops, lists.2]
    case halts =>
      intro j t here'
      have halts := sound.halts j t here'
      rcases does with same | ⟨event, mine, change⟩
      · exact same ▸ halts
      · refine halts.others change ?_
        rintro rfl
        cases mine
  next => cases goes

theorem Sound.send (goes : c.step p (.send j) = some c') :
    c'.Sound ∧ Lifecycle.Change c.engine.scanner (.send j) c'.engine.scanner := by
  rw [step] at goes
  split at goes
  next t here =>
    have halts := sound.halts j t here
    cases halts with
    | finished => cases goes
    | sending flagged =>
        cases goes
        have change := Lifecycle.Change.send flagged
        dsimp only
        rw [Lifecycle.after_of_change change]
        refine ⟨⟨?_, fun i f here' => ?_, ?_, fun k t here' => ?_⟩, change⟩
        · simp [sound.starts]
        · exact (sound.fares i f here').others change rfl
        · simp [sound.stops]
        · by_cases same : k = j
          · subst same
            rw [List.getElem?_set_self (List.getElem?_eq_some_iff.mp here).1] at here'
            cases here'
            exact .finished (List.getElem?_set_self (List.getElem?_eq_some_iff.mp flagged).1)
          · rw [List.getElem?_set_ne (Ne.symm same)] at here'
            refine (sound.halts k t here').others change ?_
            rintro ⟨⟩
            exact same rfl
  next => cases goes

/-- What a move does to the life of the scanner, and that it leaves starts and stops in order. -/
theorem Sound.step (goes : c.step p move = some c') : c'.Sound ∧
    ∃ events, Told move events ∧ c.engine.scanner.replay events = some c'.engine.scanner := by
  cases move with
  | start schedule =>
      obtain ⟨sound', change⟩ := sound.start goes
      exact ⟨sound', _, .start, Lifecycle.replay_one change⟩
  | go i came =>
      obtain ⟨sound', same | ⟨event, own, change⟩⟩ := sound.go goes
      · exact ⟨sound', _, .idle, by rw [same]; rfl⟩
      · exact ⟨sound', _, .go own, Lifecycle.replay_one change⟩
  | stop =>
      obtain ⟨sound', change⟩ := sound.stop goes
      exact ⟨sound', _, .stop, Lifecycle.replay_one change⟩
  | send j =>
      obtain ⟨sound', change⟩ := sound.send goes
      exact ⟨sound', _, .send, Lifecycle.replay_one change⟩
  | rest pool =>
      cases goes
      exact ⟨⟨sound.starts, sound.fares, sound.stops, sound.halts⟩, _, .rest, rfl⟩

/-- A run of the tasks is a run of the scanner's life, move by move. -/
theorem Sound.replay (run : c.replay p moves = some c') : c'.Sound ∧
    ∃ parts, List.Forall₂ Told moves parts ∧
      c.engine.scanner.replay parts.flatten = some c'.engine.scanner := by
  induction moves generalizing c with
  | nil =>
      cases run
      exact ⟨sound, [], .nil, rfl⟩
  | cons move rest ih =>
      obtain ⟨middle, goes, run⟩ := Option.bind_eq_some_iff.mp run
      obtain ⟨sound', events, told, first⟩ := sound.step goes
      obtain ⟨sound'', parts, tolds, later⟩ := ih sound' run
      exact ⟨sound'', events :: parts, .cons told tolds, Lifecycle.replay_trans first later⟩

end

/-- The starts and stops of a scanner that are run as tasks live its life: each of their steps is an
event that can happen in its turn, or leaves the scanner as it is. -/
theorem told_of_replay {world : W} (run : (still p world).replay p moves = some c) :
    ∃ parts, List.Forall₂ Told moves parts ∧
      Lifecycle.fresh.replay parts.flatten = some c.engine.scanner :=
  (sound_still.replay run).2

/-- A stop comes when a start has subscribed, and the start returns. -/
example {world : W} : ((still p world).replay p
    ([.start schedule] ++ .replicate 5 (.go 0 true) ++ [.stop, .send 0] ++
      .replicate 3 (.go 0 true))).bind (·.engine.scanner.resultOf? 0) = some (.ok ()) := rfl

end Crew

end JobQueue
