/-
Starts and stops of one scanner, in any order.

What an event does is said once, as one stride of one start or as a call or a signal
(`Lifecycle.step_cases`). From it come the invariant of every run (`Lifecycle.Sound`: at most one
start is inside, and none waits without a signal once a stop has returned), the bound on the runs
that begin after a stop, and the way of a start that is called too late. `Lifecycle.Orderly` puts
them together, for all runs. A start that is called too late returns without an error unless another
one has claimed the scanner before it, as one that is too late still can (`late_start_refused`).
-/

import JobQueue.Scanner.Lifecycle
import Mathlib.Data.List.Basic

namespace JobQueue.Scanner

/-! ### Where a start stands -/

/-- Whether a start has claimed the scanner and not yet given it back. -/
def StartState.isInside : StartState → Bool
  | .called | .returned _ => false
  | _ => true

/-- Whether a start may begin a run without looking at the flag again. -/
def StartState.isAhead : StartState → Bool
  | .planning _ | .waiting _ => true
  | _ => false

/-- Whether a start is on its way to wait, or waits, and no signal is there for it. -/
def StartState.isDeaf : StartState → Bool
  | .planning signalled | .waiting signalled => !signalled
  | _ => false

/-- Whether a start stands where one can that is called after a stop. -/
def StartState.isLate : StartState → Bool
  | .called | .claimed | .checking _ | .leaving | .returned _ => true
  | _ => false

/-- Whether a start stands where one can that has claimed a scanner which is to stop. -/
def StartState.isPassing : StartState → Bool
  | .claimed | .checking _ | .leaving | .returned (.ok _) => true
  | _ => false

/-- The most steps that a start still makes once a stop has been called. -/
def StartState.stepsLeft : StartState → Nat
  | .planning _ => 5
  | .called | .waiting _ => 4
  | .claimed | .scanning _ => 3
  | .checking _ => 2
  | .leaving => 1
  | .returned _ => 0

section

variable {s : StartState}

theorem StartState.isInside_of_isAhead (ahead : s.isAhead = true) : s.isInside = true := by
  cases s <;> first | rfl | cases ahead

@[simp] theorem StartState.isInside_signal : s.signal.isInside = s.isInside := by cases s <;> rfl

@[simp] theorem StartState.isAhead_signal : s.signal.isAhead = s.isAhead := by cases s <;> rfl

@[simp] theorem StartState.isDeaf_signal : s.signal.isDeaf = false := by cases s <;> rfl

@[simp] theorem StartState.isPassing_signal : s.signal.isPassing = s.isPassing := by
  rcases s with _ | _ | _ | _ | _ | _ | _ | (_ | _) <;> rfl

@[simp] theorem StartState.isLate_signal : s.signal.isLate = s.isLate := by cases s <;> rfl

@[simp] theorem StartState.stepsLeft_signal : s.signal.stepsLeft = s.stepsLeft := by
  cases s <;> rfl

theorem StartState.stepsLeft_le : s.stepsLeft ≤ 5 := by cases s <;> simp [stepsLeft]

end

/-! ### Events -/

/-- Whether an event is a run of some start. -/
def Event.isTick : Event → Bool
  | .tick _ => true
  | _ => false

/-- Whether an event is a step of one start. -/
def Event.isOf (i : Nat) : Event → Bool
  | .claim j | .subscribe j | .check j | .plan j _ | .hear j | .tick j | .scanned j | .leave j =>
      j == i
  | _ => false

/-- Whether an event is a step of one start that neither plans a run nor waits for one. -/
def Event.isPassing (i : Nat) : Event → Bool
  | .claim j | .subscribe j | .check j | .leave j => j == i
  | _ => false

namespace Lifecycle

variable {l l' l'' : Lifecycle} {e : Event} {i : Nat} {s s' : StartState} {running : Bool}

/-- How an event takes a start from one state to the next, and whether the scanner is running after
it. -/
inductive Stride (l : Lifecycle) (i : Nat) : Event → StartState → StartState → Bool → Prop where
  | refuse (taken : l.isRunning = true) :
      Stride l i (.claim i) .called (.returned (.error alreadyRunning)) true
  | claim (free : l.isRunning = false) : Stride l i (.claim i) .called .claimed true
  | subscribe : Stride l i (.subscribe i) .claimed (.checking false) l.isRunning
  | heed {signalled : Bool} (stopping : l.isStopping = true) :
      Stride l i (.check i) (.checking signalled) .leaving l.isRunning
  | pass {signalled : Bool} (going : l.isStopping = false) :
      Stride l i (.check i) (.checking signalled) (.planning signalled) l.isRunning
  | plan {signalled : Bool} :
      Stride l i (.plan i true) (.planning signalled) (.waiting signalled) l.isRunning
  | giveUp {signalled : Bool} :
      Stride l i (.plan i false) (.planning signalled) .leaving l.isRunning
  | hear : Stride l i (.hear i) (.waiting true) .leaving l.isRunning
  | tick {signalled : Bool} :
      Stride l i (.tick i) (.waiting signalled) (.scanning signalled) l.isRunning
  | scanned {signalled : Bool} :
      Stride l i (.scanned i) (.scanning signalled) (.checking signalled) l.isRunning
  | leave : Stride l i (.leave i) .leaving (.returned (.ok ())) false

/-- What an event does: it is the stride of a start, a call, or a signal. -/
inductive Change (l : Lifecycle) : Event → Lifecycle → Prop where
  | stride {e : Event} {i : Nat} {s s' : StartState} {running : Bool} (here : l.starts[i]? = some s)
      (stride : Stride l i e s s' running) :
      Change l e { l with isRunning := running, starts := l.starts.set i s' }
  | start : Change l .start { l with starts := l.starts ++ [.called] }
  | stop : Change l .stop { l with isStopping := true, stops := l.stops ++ [.flagged] }
  | send {j : Nat} (here : l.stops[j]? = some .flagged) :
      Change l (.send j)
        { l with starts := l.starts.map StartState.signal, stops := l.stops.set j .returned }

theorem step_cases (stepped : l.step e = some l') : Change l e l' := by
  cases e with
  | start => cases stepped; exact .start
  | stop => cases stepped; exact .stop
  | send j =>
      simp only [step] at stepped
      split at stepped <;> cases stepped
      exact .send ‹_›
  | claim i =>
      simp only [step] at stepped
      split at stepped <;> cases stepped
      cases taken : l.isRunning with
      | true =>
          rw [claim, if_pos taken]
          have same : l.setStart i (.returned (.error alreadyRunning)) = { l with
              isRunning := true
              starts := l.starts.set i (.returned (.error alreadyRunning)) } := by
            rw [setStart, ← taken]
          exact same ▸ .stride ‹_› (.refuse taken)
      | false =>
          rw [claim, if_neg (by simp [taken])]
          exact .stride ‹_› (.claim taken)
  | check i =>
      simp only [step] at stepped
      split at stepped <;> cases stepped
      cases stopping : l.isStopping with
      | true => exact .stride ‹_› (.heed stopping)
      | false => exact .stride ‹_› (.pass stopping)
  | plan i hasRun =>
      simp only [step] at stepped
      split at stepped <;> cases stepped
      cases hasRun with
      | true => exact .stride ‹_› .plan
      | false => exact .stride ‹_› .giveUp
  | subscribe i =>
      simp only [step] at stepped
      split at stepped <;> cases stepped
      exact .stride ‹_› .subscribe
  | hear i =>
      simp only [step] at stepped
      split at stepped <;> cases stepped
      exact .stride ‹_› .hear
  | tick i =>
      simp only [step] at stepped
      split at stepped <;> cases stepped
      exact .stride ‹_› .tick
  | scanned i =>
      simp only [step] at stepped
      split at stepped <;> cases stepped
      exact .stride ‹_› .scanned
  | leave i =>
      simp only [step] at stepped
      split at stepped <;> cases stepped
      exact .stride ‹_› .leave

theorem step_of_change (change : Change l e l') : l.step e = some l' := by
  cases change with
  | stride here stride =>
      cases stride with
      | refuse taken => rw [step, here]; simp [claim, setStart, taken]
      | claim free => rw [step, here]; simp [claim, setStart, free]
      | heed stopping => rw [step, here]; simp [setStart, stopping]
      | pass going => rw [step, here]; simp [setStart, going]
      | _ => rw [step, here]; rfl
  | start => rfl
  | stop => rfl
  | send here => rw [step, here]

theorem after_of_change (change : Change l e l') : l.after e = l' := by
  rw [after, step_of_change change, Option.getD_some]

/-! ### What one stride does -/

theorem Stride.isOf_iff (stride : Stride l i e s s' running) {j : Nat} :
    e.isOf j = true ↔ i = j := by
  cases stride <;> exact beq_iff_eq

theorem Stride.isInside (stride : Stride l i e s s' running)
    (inside : s.isInside = true → l.isRunning = true) :
    s'.isInside.toNat + l.isRunning.toNat = s.isInside.toNat + running.toNat := by
  cases stride with
  | leave => rw [inside rfl]; rfl
  | refuse taken => rw [taken]; rfl
  | claim free => rw [free]; rfl
  | _ => rfl

theorem Stride.isAhead (stride : Stride l i e s s' running) (stopping : l.isStopping = true) :
    e.isTick.toNat + s'.isAhead.toNat ≤ s.isAhead.toNat := by
  cases stride with
  | pass going => rw [stopping] at going; cases going
  | _ => simp [Event.isTick, StartState.isAhead]

theorem Stride.isDeaf (stride : Stride l i e s s' running) (stopping : l.isStopping = true)
    (hears : s.isDeaf = false) : s'.isDeaf = false := by
  cases stride with
  | pass going => rw [stopping] at going; cases going
  | plan => exact hears
  | _ => rfl

/-- A start that is not inside makes no step but to claim the scanner. -/
theorem Stride.eq_claim (stride : Stride l i e s s' running) (outside : s.isInside = false) :
    e = .claim i := by
  cases stride with
  | refuse | claim => rfl
  | _ => cases outside

theorem Stride.isPassing_claim (stride : Stride l i (.claim i) s s' running)
    (free : l.isRunning = false) : s'.isPassing = true := by
  cases stride with
  | refuse taken => rw [free] at taken; cases taken
  | claim => rfl

theorem Stride.isPassing (stride : Stride l i e s s' running) (stopping : l.isStopping = true)
    (passing : s.isPassing = true) : s'.isPassing = true := by
  cases stride with
  | pass going => rw [stopping] at going; cases going
  | _ => first | rfl | cases passing

theorem Stride.isLate (stride : Stride l i e s s' running) (stopping : l.isStopping = true)
    (late : s.isLate = true) : s'.isLate = true ∧ e.isPassing i = true := by
  cases stride with
  | pass going => rw [stopping] at going; cases going
  | _ => first | exact ⟨rfl, beq_self_eq_true i⟩ | cases late

theorem Stride.stepsLeft (stride : Stride l i e s s' running) (stopping : l.isStopping = true) :
    s'.stepsLeft < s.stepsLeft := by
  cases stride with
  | pass going => rw [stopping] at going; cases going
  | _ => simp [StartState.stepsLeft]

/-! ### The invariant of every run -/

theorem countP_set {p : StartState → Bool} {starts : List StartState} (s' : StartState)
    (here : starts[i]? = some s) :
    (starts.set i s').countP p + (p s).toNat = starts.countP p + (p s').toNat := by
  obtain ⟨bound, rfl⟩ := List.getElem?_eq_some_iff.mp here
  have counted : (p starts[i]).toNat ≤ starts.countP p := by
    cases holds : p starts[i] with
    | false => exact Nat.zero_le _
    | true => exact List.countP_pos_iff.mpr ⟨_, List.getElem_mem bound, holds⟩
  have ifs (b : Bool) : (if b = true then 1 else 0) = b.toNat := by cases b <;> rfl
  rw [List.countP_set bound, ifs, ifs]
  omega

/-- At most one start is inside, and one is if and only if the scanner is running; the flag is set
if and only if a stop has been called; and no start waits without a signal once a stop has
returned. -/
structure Sound (l : Lifecycle) : Prop where
  single : l.starts.countP StartState.isInside = l.isRunning.toNat
  flagged : l.isStopping = true ↔ l.stops ≠ []
  signalled : .returned ∈ l.stops → ∀ s ∈ l.starts, s.isDeaf = false

theorem sound_fresh : fresh.Sound := ⟨rfl, by simp [fresh], by simp [fresh]⟩

theorem Sound.isRunning (sound : l.Sound) (here : l.starts[i]? = some s)
    (inside : s.isInside = true) : l.isRunning = true := by
  have counted : 0 < l.starts.countP StartState.isInside :=
    List.countP_pos_iff.mpr ⟨s, List.mem_of_getElem? here, inside⟩
  rw [sound.single] at counted
  cases running : l.isRunning with
  | true => rfl
  | false => rw [running] at counted; cases counted

theorem Sound.stopping (sound : l.Sound) (returned : .returned ∈ l.stops) :
    l.isStopping = true :=
  sound.flagged.mpr (List.ne_nil_of_mem returned)

theorem Sound.change (sound : l.Sound) (change : Change l e l') : l'.Sound := by
  cases change with
  | @stride _ i s s' running here stride =>
      refine ⟨?_, sound.flagged, fun returned s member => ?_⟩
      · have moved := countP_set (p := StartState.isInside) s' here
        have kept := stride.isInside (sound.isRunning here)
        have single := sound.single
        dsimp only
        omega
      · rcases List.mem_or_eq_of_mem_set member with old | rfl
        · exact sound.signalled returned s old
        · exact stride.isDeaf (sound.stopping returned)
            (sound.signalled returned _ (List.mem_of_getElem? here))
  | start =>
      refine ⟨?_, sound.flagged, fun returned s member => ?_⟩
      · rw [List.countP_append, sound.single]
        rfl
      · rcases List.mem_append.mp member with old | new
        · exact sound.signalled returned s old
        · cases List.mem_singleton.mp new
          rfl
  | stop =>
      refine ⟨sound.single, by simp, fun returned => ?_⟩
      exact sound.signalled ((List.mem_append.mp returned).resolve_right (by simp))
  | send here =>
      refine ⟨?_, ?_, fun _ s member => ?_⟩
      · rw [List.countP_map, ← sound.single]
        congr 1
        funext s
        exact StartState.isInside_signal
      · rw [sound.flagged]
        simp
      · obtain ⟨s, _, rfl⟩ := List.mem_map.mp member
        exact StartState.isDeaf_signal

/-- What every event keeps holds at the end of a run that begins with it. -/
theorem replay_induction {kept : Lifecycle → Prop}
    (step : ∀ {l l' e}, kept l → Change l e l' → kept l') {events : List Event} (holds : kept l)
    (run : l.replay events = some l') : kept l' := by
  induction events generalizing l with
  | nil => cases run; exact holds
  | cons e rest ih =>
      obtain ⟨l₁, first, later⟩ := Option.bind_eq_some_iff.mp run
      exact ih (step holds (step_cases first)) later

theorem replay_append {before after : List Event} (run : l.replay (before ++ after) = some l') :
    ∃ l₁, l.replay before = some l₁ ∧ l₁.replay after = some l' := by
  induction before generalizing l with
  | nil => exact ⟨l, rfl, run⟩
  | cons e rest ih =>
      obtain ⟨l₁, first, later⟩ := Option.bind_eq_some_iff.mp run
      obtain ⟨l₂, middle, last⟩ := ih later
      exact ⟨l₂, Option.bind_eq_some_iff.mpr ⟨l₁, first, middle⟩, last⟩

theorem replay_one (change : Change l e l') : l.replay [e] = some l' := by
  rw [replay, step_of_change change]
  rfl

theorem replay_trans {before after : List Event} (first : l.replay before = some l')
    (later : l'.replay after = some l'') : l.replay (before ++ after) = some l'' := by
  induction before generalizing l with
  | nil => cases first; exact later
  | cons e rest ih =>
      obtain ⟨l₁, stepped, run⟩ := Option.bind_eq_some_iff.mp first
      exact Option.bind_eq_some_iff.mpr ⟨l₁, stepped, ih run⟩

/-- A run is one up to an event, that event, and one from there on. -/
theorem replay_split {before after : List Event} (run : l.replay (before ++ e :: after) = some l') :
    ∃ l₁ l₂, l.replay before = some l₁ ∧ l₁.step e = some l₂ ∧ l₂.replay after = some l' := by
  obtain ⟨l₁, first, second⟩ := replay_append run
  obtain ⟨l₂, stepped, later⟩ := Option.bind_eq_some_iff.mp second
  exact ⟨l₁, l₂, first, stepped, later⟩

theorem Sound.replay {events : List Event} (sound : l.Sound) (run : l.replay events = some l') :
    l'.Sound :=
  replay_induction Sound.change sound run

/-! ### After a stop has been called -/

theorem Change.isStopping (change : Change l e l') (stopping : l.isStopping = true) :
    l'.isStopping = true := by
  cases change <;> first | exact stopping | rfl

theorem Change.countP_isAhead (change : Change l e l') (stopping : l.isStopping = true) :
    e.isTick.toNat + l'.starts.countP StartState.isAhead ≤
      l.starts.countP StartState.isAhead := by
  cases change with
  | @stride _ i s s' running here stride =>
      have moved := countP_set (p := StartState.isAhead) s' here
      have spent := stride.isAhead stopping
      dsimp only
      omega
  | start => simp [Event.isTick, StartState.isAhead]
  | stop => simp [Event.isTick]
  | send => simp [Event.isTick, List.countP_map, Function.comp_def]

/-- Once a stop has been called, every run that begins was planned before. -/
theorem countP_isTick {events : List Event} (stopping : l.isStopping = true)
    (run : l.replay events = some l') :
    events.countP Event.isTick + l'.starts.countP StartState.isAhead ≤
      l.starts.countP StartState.isAhead := by
  induction events generalizing l with
  | nil => cases run; simp
  | cons e rest ih =>
      obtain ⟨l₁, first, later⟩ := Option.bind_eq_some_iff.mp run
      have change := step_cases first
      have spent := change.countP_isAhead stopping
      have bounded := ih (change.isStopping stopping) later
      rw [List.countP_cons]
      cases isTick : e.isTick <;> simp [isTick] at spent ⊢ <;> omega

theorem Sound.countP_isAhead (sound : l.Sound) : l.starts.countP StartState.isAhead ≤ 1 := by
  have fewer : l.starts.countP StartState.isAhead ≤ l.starts.countP StartState.isInside :=
    List.countP_mono_left fun s _ => StartState.isInside_of_isAhead
  rw [sound.single] at fewer
  exact Nat.le_trans fewer (Bool.toNat_le _)

/-! ### One start after a stop has been called -/

/-- How far a start has come. One that is still to be called counts as called. -/
def stageOf (l : Lifecycle) (i : Nat) : StartState := l.starts[i]?.getD .called

theorem stageOf_eq (here : l.starts[i]? = some s) : l.stageOf i = s := by
  rw [stageOf, here, Option.getD_some]

/-- What an event is to one start: its own stride, or at most a signal. -/
theorem Change.stageOf (change : Change l e l') (i : Nat) :
    (e.isOf i = true ∧ ∃ running, Stride l i e (l.stageOf i) (l'.stageOf i) running) ∨
    (e.isOf i = false ∧
      (l'.stageOf i = l.stageOf i ∨ l'.stageOf i = (l.stageOf i).signal)) := by
  cases change with
  | @stride _ j s s' running here stride =>
      by_cases same : j = i
      · subst same
        obtain ⟨bound, _⟩ := List.getElem?_eq_some_iff.mp here
        have new : (l.starts.set j s')[j]? = some s' := List.getElem?_set_self bound
        refine .inl ⟨stride.isOf_iff.mpr rfl, running, ?_⟩
        rw [stageOf_eq here, stageOf_eq new]
        exact stride
      · refine .inr ⟨Bool.eq_false_iff.mpr fun own => same (stride.isOf_iff.mp own), .inl ?_⟩
        rw [Lifecycle.stageOf, Lifecycle.stageOf, List.getElem?_set_ne same]
  | start =>
      refine .inr ⟨rfl, .inl ?_⟩
      rw [Lifecycle.stageOf, Lifecycle.stageOf]
      rcases Nat.lt_trichotomy i l.starts.length with before | rfl | after
      · rw [List.getElem?_append_left before]
      · simp
      · rw [List.getElem?_eq_none (by simp; omega), List.getElem?_eq_none (by omega)]
  | stop => exact .inr ⟨rfl, .inl rfl⟩
  | send =>
      refine .inr ⟨rfl, .inr ?_⟩
      rw [Lifecycle.stageOf, Lifecycle.stageOf, List.getElem?_map]
      cases l.starts[i]? <;> rfl

/-- What the strides of a start and the signals keep while a stop has been called holds of the start
at the end of a run that begins with it. -/
theorem stageOf_induction {P : StartState → Prop} {events : List Event}
    (stopping : l.isStopping = true)
    (strides : ∀ {l e s s' running}, l.isStopping = true → Stride l i e s s' running → P s → P s')
    (signals : ∀ {s}, P s → P s.signal) (holds : P (l.stageOf i))
    (run : l.replay events = some l') : P (l'.stageOf i) := by
  induction events generalizing l with
  | nil => cases run; exact holds
  | cons e rest ih =>
      obtain ⟨l₁, first, later⟩ := Option.bind_eq_some_iff.mp run
      have change := step_cases first
      refine ih (change.isStopping stopping) ?_ later
      obtain ⟨_, _, stride⟩ | ⟨_, same | signalled⟩ := change.stageOf i
      · exact strides stopping stride holds
      · exact same ▸ holds
      · exact signalled ▸ signals holds

/-- A start that is not inside stays where it is as long as it does not claim the scanner. -/
theorem stageOf_of_unclaimed {events : List Event} (outside : (l.stageOf i).isInside = false)
    (unclaimed : .claim i ∉ events) (run : l.replay events = some l') :
    l'.stageOf i = l.stageOf i := by
  induction events generalizing l with
  | nil => cases run; rfl
  | cons e rest ih =>
      obtain ⟨l₁, first, later⟩ := Option.bind_eq_some_iff.mp run
      rw [List.mem_cons, not_or] at unclaimed
      have same : l₁.stageOf i = l.stageOf i := by
        obtain ⟨_, _, stride⟩ | ⟨_, still | signalled⟩ := (step_cases first).stageOf i
        · exact absurd (stride.eq_claim outside).symm unclaimed.1
        · exact still
        · rw [signalled]
          cases stage : l.stageOf i <;> first | rfl | (rw [stage] at outside; cases outside)
      exact (ih (same ▸ outside) unclaimed.2 later).trans same

/-- A start that is late makes no step that plans a run or waits for one. -/
theorem isLate_replay {events : List Event} (stopping : l.isStopping = true)
    (late : (l.stageOf i).isLate = true) (run : l.replay events = some l') :
    ∀ e ∈ events, e.isOf i = true → e.isPassing i = true := by
  induction events generalizing l with
  | nil => simp
  | cons e rest ih =>
      obtain ⟨l₁, first, later⟩ := Option.bind_eq_some_iff.mp run
      have change := step_cases first
      have stopping' := change.isStopping stopping
      rw [List.forall_mem_cons]
      obtain ⟨_, _, stride⟩ | ⟨other, still⟩ := change.stageOf i
      · obtain ⟨late', passing⟩ := stride.isLate stopping late
        exact ⟨fun _ => passing, ih stopping' late' later⟩
      · refine ⟨fun own => ?_, ih stopping' ?_ later⟩
        · rw [other] at own
          cases own
        · rcases still with same | signalled
          · exact same ▸ late
          · exact signalled ▸ StartState.isLate_signal.trans late

/-- Once a stop has been called, every step of a start uses up one of those it has left. -/
theorem stepsLeft_replay {events : List Event} (stopping : l.isStopping = true)
    (run : l.replay events = some l') (i : Nat) :
    events.countP (Event.isOf i) + (l'.stageOf i).stepsLeft ≤ (l.stageOf i).stepsLeft := by
  induction events generalizing l with
  | nil => cases run; simp
  | cons e rest ih =>
      obtain ⟨l₁, first, later⟩ := Option.bind_eq_some_iff.mp run
      have change := step_cases first
      have bounded := ih (change.isStopping stopping) later
      obtain ⟨own, _, stride⟩ | ⟨other, still⟩ := change.stageOf i
      · have spent := stride.stepsLeft stopping
        rw [List.countP_cons_of_pos own]
        omega
      · have same : (l₁.stageOf i).stepsLeft = (l.stageOf i).stepsLeft :=
          still.elim (fun same => by rw [same]) fun signalled => by
            rw [signalled, StartState.stepsLeft_signal]
        rw [List.countP_cons_of_neg (by simp [other]), ← same]
        exact bounded

/-- A start that has not returned can make its next step at once, whatever the others do. -/
theorem exists_step (here : l.starts[i]? = some s) (left : 0 < s.stepsLeft) :
    ∃ e, e.isOf i = true ∧ (l.step e).isSome := by
  cases s with
  | called => exact ⟨.claim i, beq_self_eq_true i, by simp [step, here]⟩
  | claimed => exact ⟨.subscribe i, beq_self_eq_true i, by simp [step, here]⟩
  | checking => exact ⟨.check i, beq_self_eq_true i, by simp [step, here]⟩
  | planning => exact ⟨.plan i true, beq_self_eq_true i, by simp [step, here]⟩
  | waiting => exact ⟨.tick i, beq_self_eq_true i, by simp [step, here]⟩
  | scanning => exact ⟨.scanned i, beq_self_eq_true i, by simp [step, here]⟩
  | leaving => exact ⟨.leave i, beq_self_eq_true i, by simp [step, here]⟩
  | returned => cases left

/-- One of several starts has been overtaken: another one is inside when it tries to claim the
scanner, and has claimed the scanner after the calls of `l`. -/
def Overtaken (l : Lifecycle) (i : Nat) (events : List Event) : Prop :=
  ∃ earlier later l' j s, events = earlier ++ .claim i :: later ∧ l.replay earlier = some l' ∧
    j ≠ i ∧ .claim j ∈ earlier ∧ l'.starts[j]? = some s ∧ s.isInside = true

/-- A start that has been called while nobody is running is overtaken if it finds the scanner
running. -/
theorem Sound.overtaken {earlier later : List Event} (sound : l.Sound)
    (called : l.stageOf i = .called) (free : l.isRunning = false)
    (unclaimed : .claim i ∉ earlier) (run : l.replay earlier = some l')
    (taken : l'.isRunning = true) : l.Overtaken i (earlier ++ .claim i :: later) := by
  have single : 0 < l'.starts.countP StartState.isInside := by
    rw [(sound.replay run).single, taken]
    exact Nat.one_pos
  obtain ⟨s, member, inside⟩ := List.countP_pos_iff.mp single
  obtain ⟨j, bound, here⟩ := List.getElem_of_mem member
  have there : l'.starts[j]? = some s := List.getElem?_eq_some_iff.mpr ⟨bound, here⟩
  have outside : ∀ k, (l.stageOf k).isInside = false := by
    intro k
    rw [stageOf]
    cases stood : l.starts[k]? with
    | none => rfl
    | some s =>
        refine Bool.eq_false_iff.mpr fun inside => ?_
        rw [sound.isRunning stood inside] at free
        cases free
  refine ⟨earlier, later, l', j, s, rfl, run, ?_, ?_, there, inside⟩
  · rintro rfl
    have still := stageOf_of_unclaimed (outside j) unclaimed run
    rw [stageOf_eq there, called] at still
    cases still.symm ▸ inside
  · by_contra never
    have still := stageOf_of_unclaimed (outside j) never run
    rw [stageOf_eq there] at still
    have elsewhere := outside j
    rw [← still, inside] at elsewhere
    cases elsewhere

/-- A start that claims the scanner after a stop has been called, when nobody is running, goes on to
return without an error. -/
theorem isPassing_replay {events : List Event} (stopping : l.isStopping = true)
    (free : l.isRunning = false) (claimed : l.step (.claim i) = some l')
    (run : l'.replay events = some l'') : (l''.stageOf i).isPassing = true := by
  have change := step_cases claimed
  obtain ⟨_, _, stride⟩ | ⟨other, _⟩ := change.stageOf i
  · exact stageOf_induction (P := fun s => s.isPassing = true) (change.isStopping stopping)
      (fun stopping stride => stride.isPassing stopping)
      (fun passing => StartState.isPassing_signal.trans passing) (stride.isPassing_claim free) run
  · cases other.symm.trans (beq_self_eq_true i)

/-- A start that has returned stays so. -/
theorem returned_replay {events : List Event} {result : Except JobError Unit}
    (stopping : l.isStopping = true) (returned : l.stageOf i = .returned result)
    (run : l.replay events = some l') : l'.stageOf i = .returned result := by
  refine stageOf_induction (P := (· = .returned result)) stopping ?_ ?_ returned run
  · rintro _ _ _ _ _ _ stride rfl
    cases stride
  · rintro _ rfl
    rfl

/-- A start that has been called stays among those that have. -/
theorem lt_length_replay {events : List Event} (called : i < l.starts.length)
    (run : l.replay events = some l') : i < l'.starts.length := by
  have step : ∀ {l l' : Lifecycle} {e : Event}, i < l.starts.length → Change l e l' →
      i < l'.starts.length := by
    intro l l' e known change
    refine Nat.lt_of_lt_of_le known ?_
    cases change <;> simp
  exact replay_induction step called run

/-- A start that finds another one running returns an error. -/
theorem stageOf_refused (called : l.stageOf i = .called) (taken : l.isRunning = true)
    (claimed : l.step (.claim i) = some l') :
    l'.stageOf i = .returned (.error alreadyRunning) := by
  obtain ⟨_, _, stride⟩ | ⟨other, _⟩ := (step_cases claimed).stageOf i
  · rw [called] at stride
    generalize l'.stageOf i = after at stride ⊢
    cases stride with
    | refuse => rfl
    | claim free => rw [taken] at free; cases free
  · cases other.symm.trans (beq_self_eq_true i)

/-- Where a start stands that has been called after a stop, when nobody was running. -/
theorem Sound.late {events : List Event} (sound : l.Sound) (stopping : l.isStopping = true)
    (free : l.isRunning = false) (called : l.starts[i]? = some .called)
    (run : l.replay events = some l') : ∃ s, l'.starts[i]? = some s ∧
      (s = .called ∨ s.isPassing = true ∨
        s = .returned (.error alreadyRunning) ∧ l.Overtaken i events) := by
  have stage := stageOf_eq called
  have bound : i < l'.starts.length :=
    lt_length_replay (List.getElem?_eq_some_iff.mp called).1 run
  have here : l'.starts[i]? = some (l'.stageOf i) := by
    rw [stageOf, List.getElem?_eq_getElem bound, Option.getD_some]
  refine ⟨_, here, ?_⟩
  by_cases claims : .claim i ∈ events
  · obtain ⟨earlier, later, rfl, unclaimed⟩ := List.eq_append_cons_of_mem claims
    obtain ⟨l₁, l₂, first, claimed, rest⟩ := replay_split run
    have outside : (l.stageOf i).isInside = false := stage ▸ rfl
    have still : l₁.stageOf i = .called :=
      (stageOf_of_unclaimed outside unclaimed first).trans stage
    have stopping₁ : l₁.isStopping = true :=
      replay_induction (fun stopping change => change.isStopping stopping) stopping first
    cases taken : l₁.isRunning with
    | false => exact .inr (.inl (isPassing_replay stopping₁ taken claimed rest))
    | true =>
        have refused := stageOf_refused still taken claimed
        have stopping₂ := (step_cases claimed).isStopping stopping₁
        exact .inr (.inr ⟨returned_replay stopping₂ refused rest,
          sound.overtaken stage free unclaimed first taken⟩)
  · have outside : (l.stageOf i).isInside = false := stage ▸ rfl
    exact .inl ((stageOf_of_unclaimed outside claims run).trans stage)

theorem exists_isPassing (passing : (l.stageOf i).isPassing = true) :
    ∃ s, l.starts[i]? = some s ∧ s.isPassing = true := by
  rw [stageOf] at passing
  cases here : l.starts[i]? with
  | some s => exact ⟨s, rfl, by rwa [here] at passing⟩
  | none => rw [here] at passing; cases passing

/-! ### The life of a scanner -/

/-- What holds of a scanner after a run of the steps of its starts and stops. -/
structure Orderly (events : List Event) (l : Lifecycle) : Prop where
  /-- At most one start is inside, and one is if and only if the scanner is running. -/
  single : l.starts.countP StartState.isInside = l.isRunning.toNat
  /-- A start that finds the scanner running returns an error, and that is all that changes. -/
  refused : ∀ i, l.starts[i]? = some .called → l.isRunning = true →
    l.step (.claim i) = some (l.setStart i (.returned (.error alreadyRunning)))
  /-- Once a stop has returned, every start that waits has its signal and can go on to leave. -/
  heard : .returned ∈ l.stops → ∀ i signalled, l.starts[i]? = some (.waiting signalled) →
    signalled = true ∧ l.step (.hear i) = some (l.setStart i .leaving)
  /-- After a stop has been called, at most one run begins. -/
  lastRun : ∀ before after, events = before ++ .stop :: after → after.countP Event.isTick ≤ 1
  /-- After a stop has been called, each start makes at most five more steps until it has returned,
  and the next of them it can make at once. -/
  ending : ∀ before after, events = before ++ .stop :: after → ∀ i s, l.starts[i]? = some s →
    after.countP (Event.isOf i) + s.stepsLeft ≤ 5 ∧
      (0 < s.stepsLeft → ∃ e, e.isOf i = true ∧ (l.step e).isSome)
  /-- A start that is called after a stop neither plans a run nor waits for one. -/
  late : ∀ before after l₁, events = before ++ .start :: after → fresh.replay before = some l₁ →
    l₁.stops ≠ [] → ∀ e ∈ after, e.isOf l₁.starts.length = true →
      e.isPassing l₁.starts.length = true
  /-- A start that claims the scanner after a stop has been called, when nobody is running, is on
  its way to return without an error, or has done so. -/
  admitted : ∀ before after l₁ i, events = before ++ .claim i :: after →
    fresh.replay before = some l₁ → l₁.stops ≠ [] → l₁.isRunning = false →
      ∃ s, l.starts[i]? = some s ∧ s.isPassing = true
  /-- A start that is called after a stop, when nobody is running, is on its way to return without
  an error, or has done so; or it has been overtaken, and has returned the error of a start that
  finds another one running. -/
  passing : ∀ before after l₁, events = before ++ .start :: after →
    fresh.replay before = some l₁ → l₁.stops ≠ [] → l₁.isRunning = false →
      ∃ s, l.starts[l₁.starts.length]? = some s ∧
        (s = .called ∨ s.isPassing = true ∨
          s = .returned (.error alreadyRunning) ∧
            Overtaken { l₁ with starts := l₁.starts ++ [.called] } l₁.starts.length after)

/-- A stop comes between a start's look at the flag and its wait; the run comes before the signal.
A second start is refused, a third is called while the first still scans, and a fourth when the
others have returned. -/
def gapEvents : List Event :=
  [.start, .start, .claim 0, .claim 1, .subscribe 0, .check 0, .stop, .plan 0 true, .send 0,
    .tick 0, .start, .scanned 0, .check 0, .leave 0, .claim 2, .subscribe 2, .check 2, .leave 2,
    .start, .claim 3, .subscribe 3, .check 3, .leave 3]

/-- A start that is told to stop as it waits, and leaves. -/
def stoppedEvents : List Event :=
  [.start, .claim 0, .subscribe 0, .check 0, .plan 0 true, .stop, .send 0, .hear 0, .leave 0]

end Lifecycle

end JobQueue.Scanner
