/-
What comes next in a pool, and that a batch gets its answer.

Work needs no time here: whatever can happen without a wait happens first, in any order, and a
wait runs out as soon as its time has come; only when nothing of the kind is left does time pass,
up to the first timer (`Ahead`). What is bound to happen, however one goes on, is `Inevitable`.

Every such step of a pool that serves a batch brings down a measure: the weight of what is left
to do, then the tasks of the workers, then whether a wait has run out. So an answer is inevitable
(`inevitable_of_invariant`), for any handlers.
-/

import JobQueue.Pool.Schedule
import JobQueue.Proofs.Pool.Service
import Mathlib.Data.List.MinMax
import Mathlib.Logic.Hydra

namespace JobQueue

/-- A task after one of its steps. -/
inductive Task.Next {W α : Type} : Task W α → Task W α → Prop where
  | act {update : W → W} {next : W → Task W α} (w : W) : Next (next w) (.act update next)
  | wait {ready : W → Bool} {limit : Option Nat} {next : Bool → Task W α} (came : Bool) :
      Next (next came) (.wait ready limit next)

/-- No task goes on without end. -/
theorem Task.wellFounded_next {W α : Type} : WellFounded (@Task.Next W α) := by
  constructor
  intro t
  induction t with
  | done a => exact ⟨_, fun _ next => by cases next⟩
  | act update next ih =>
      constructor
      intro t later
      cases later with
      | act w => exact ih w
  | wait ready limit next ih =>
      constructor
      intro t later
      cases later with
      | wait came => exact ih came

namespace Pool

variable {W : Type} {x : Executor W} {p q : Pool W} {event : Event} {events : List Event}

/-! ### What comes next -/

/-- Whether an event is one that needs no time. -/
def Event.isMove : Event → Bool
  | .turn | .send | .sendClosed | .collect | .collectClosed | .take _ | .run _ | .ready _
  | .deliver _ | .stop _ | .quit _ => true
  | _ => false

/-- Nothing can happen before time passes. -/
def Stuck (x : Executor W) (p : Pool W) : Prop :=
  ∀ event : Event, event.isMove = true → p.step x event = none

theorem Stuck.never (stuck : Stuck x p) (move : event.isMove = true) : ¬ Step x p event q := by
  intro rule
  simpa [stuck event move] using step_of_rule rule

theorem exists_rule_of_not_stuck (moving : ¬ Stuck x p) :
    ∃ event q, event.isMove = true ∧ Step x p event q := by
  simp only [Stuck, Classical.not_forall] at moving
  obtain ⟨event, timeless, happens⟩ := moving
  obtain ⟨q, happens⟩ := Option.ne_none_iff_exists'.mp happens
  exact ⟨event, q, timeless, step_eq_some_iff.mp happens⟩

/-- What can come next where work needs no time. -/
inductive Ahead (x : Executor W) (p : Pool W) : Event → Pool W → Prop where
  /-- Something that needs no time. -/
  | move {event : Event} {q : Pool W} (timeless : event.isMove = true)
      (happens : p.step x event = some q) : Ahead x p event q
  /-- A wait whose time has come runs out. -/
  | due {timer : Timer} {event : Event} {q : Pool W} (set : (timer, event) ∈ p.timers)
      (due : timer.due ≤ p.now) (happens : p.step x event = some q) : Ahead x p event q
  /-- Nobody can move, and time passes up to the first timer. -/
  | pass {timer : Timer} {event : Event} (stuck : Stuck x p)
      (set : (timer, event) ∈ p.timers) (early : p.now < timer.due)
      (first : ∀ other ∈ p.timers, timer.due ≤ other.1.due) :
      Ahead x p (.elapse (timer.due - p.now)) { p with now := p.now + (timer.due - p.now) }

/-- What is bound to come true, however the pool goes on. -/
inductive Inevitable (x : Executor W) (goal : List Event → Pool W → Prop) :
    List Event → Pool W → Prop where
  | now {events : List Event} {p : Pool W} (holds : goal events p) : Inevitable x goal events p
  | later {events : List Event} {p : Pool W} (possible : ∃ event q, Ahead x p event q)
      (all : ∀ event q, Ahead x p event q → Inevitable x goal (events ++ [event]) q) :
      Inevitable x goal events p

/-- What is bound to come true under a condition that is bound to hold as well. -/
theorem Inevitable.mono {goal goal' : List Event → Pool W → Prop}
    (inevitable : Inevitable x goal events p) (weaker : ∀ es p, goal es p → goal' es p) :
    Inevitable x goal' events p := by
  induction inevitable with
  | now holds => exact .now (weaker _ _ holds)
  | later possible _ ih => exact .later possible fun event q ahead => ih event q ahead

/-! ### Timers -/

/-- The wait that a worker is in, with what happens when it runs out. -/
def timerOf (w : Worker W) (i : Nat) : Option (Timer × Event) :=
  match w.state, w.timer with
  | .busy .., some timer => some (timer, Event.expire i)
  | .reporting _, some timer => some (timer, Event.giveUp i)
  | _, _ => none

theorem mem_timers_iff {entry : Timer × Event} : entry ∈ p.timers ↔
    (∃ b, p.active = some b ∧ entry =
      (b.timer, if b.unsent.isEmpty then Event.collectTimeout else Event.sendTimeout)) ∨
    ∃ i w, p.workers[i]? = some w ∧ timerOf w i = some entry := by
  have workers : (∃ a ∈ p.workers.zipIdx, timerOf a.1 a.2 = some entry) ↔
      ∃ i w, p.workers[i]? = some w ∧ timerOf w i = some entry := by
    constructor
    · rintro ⟨⟨w, i⟩, member, timer⟩
      exact ⟨i, w, List.mem_zipIdx_iff_getElem?.mp member, timer⟩
    · rintro ⟨i, w, member, timer⟩
      exact ⟨(w, i), List.mem_zipIdx_iff_getElem?.mpr member, timer⟩
  have split : p.timers = (p.active.elim [] fun b =>
      [(b.timer, if b.unsent.isEmpty then Event.collectTimeout else Event.sendTimeout)]) ++
      p.workers.zipIdx.filterMap fun a => timerOf a.1 a.2 := by
    unfold timers
    cases p.active <;> rfl
  rw [split, List.mem_append, List.mem_filterMap, workers]
  cases p.active <;> simp

/-- The event of a timer is one of the pool itself, and not that time passes. -/
theorem isInner_of_mem_timers {entry : Timer × Event} (set : entry ∈ p.timers) :
    entry.2.isInner = true ∧ ∀ millis, entry.2 ≠ .elapse millis := by
  rcases mem_timers_iff.mp set with ⟨b, _, rfl⟩ | ⟨i, w, _, timer⟩
  · dsimp only
    split <;> exact ⟨rfl, fun _ same => by cases same⟩
  · unfold timerOf at timer
    split at timer <;> cases timer <;> exact ⟨rfl, fun _ same => by cases same⟩

/-- What comes next is one of the events of the pool itself. -/
theorem Ahead.rule (ahead : Ahead x p event q) : Step x p event q ∧ event.isInner = true := by
  cases ahead with
  | move timeless happens =>
      refine ⟨step_eq_some_iff.mp happens, ?_⟩
      cases event <;> first | rfl | cases timeless
  | due set _ happens => exact ⟨step_eq_some_iff.mp happens, (isInner_of_mem_timers set).1⟩
  | pass => exact ⟨Step.elapse, rfl⟩

/-- A wait of a batch or a worker that has run out lets something happen. -/
theorem exists_ahead_of_due {entry : Timer × Event} (set : entry ∈ p.timers)
    (due : entry.1.due ≤ p.now) : ∃ event q, Ahead x p event q := by
  rcases mem_timers_iff.mp set with ⟨b, active, rfl⟩ | ⟨i, w, here, timer⟩
  · cases unsent : b.unsent with
    | nil =>
        have rule : Step x p .collectTimeout _ := Step.collectTimeout active unsent due
        exact ⟨_, _, .due set due (by simpa [unsent] using step_of_rule rule)⟩
    | cons first rest =>
        have rule : Step x p .sendTimeout _ := Step.sendTimeout active unsent due
        exact ⟨_, _, .due set due (by simpa [unsent] using step_of_rule rule)⟩
  · obtain ⟨state, timer'⟩ := w
    cases state with
    | idle => simp [timerOf] at timer
    | stopped => simp [timerOf] at timer
    | reporting report =>
        cases timer' with
        | none => simp [timerOf] at timer
        | some t =>
            simp only [timerOf, Option.some.injEq] at timer
            subst timer
            exact ⟨_, _, .due set due (step_of_rule (Step.giveUp here due))⟩
    | busy e task =>
        cases timer' with
        | none => simp [timerOf] at timer
        | some t =>
            simp only [timerOf, Option.some.injEq] at timer
            subst timer
            cases task with
            | done _ => exact ⟨_, _, .move rfl (step_of_rule (Step.finish here))⟩
            | act _ _ => exact ⟨_, _, .move rfl (step_of_rule (Step.act here))⟩
            | wait _ _ _ => exact ⟨_, _, .due set due (step_of_rule (Step.expire here due))⟩

/-- While some wait is set, something comes next. -/
theorem exists_ahead {entry : Timer × Event} (set : entry ∈ p.timers) :
    ∃ event q, Ahead x p event q := by
  by_cases stuck : Stuck x p
  · cases least : p.timers.argmin fun entry => entry.1.due with
    | none => simp [List.argmin_eq_none.mp least] at set
    | some first =>
        have member := List.argmin_mem least
        by_cases due : first.1.due ≤ p.now
        · exact exists_ahead_of_due member due
        · exact ⟨_, _, .pass stuck member (Nat.lt_of_not_le due)
            fun other there => List.le_of_mem_argmin (f := fun entry => entry.1.due) there least⟩
  · obtain ⟨event, q, timeless, rule⟩ := exists_rule_of_not_stuck stuck
    exact ⟨event, q, .move timeless (step_of_rule rule)⟩

/-! ### The measure -/

/-- The task of a worker. -/
def taskOf (w : Worker W) : Option (Task W Ended) :=
  match w.state with
  | .busy _ task => some task
  | _ => none

/-- The tasks of the workers. -/
def tasks (p : Pool W) : Multiset (Task W Ended) := ↑(p.workers.filterMap taskOf)

/-- How much is left to do. Each move of a record, a run or a report makes it less. -/
def weight (p : Pool W) : Nat :=
  (p.waiting.map fun s => 7 * s.records.length + 1).sum +
    (match p.active with
      | some b => 6 * b.unsent.length + b.ledger.outstanding
      | none => 0) +
    (4 * p.jobs.length + 3 * p.atWork.length + 2 * p.inHand.length + p.reports.length)

/-- One if no wait has run out. -/
def patient (p : Pool W) : Nat := if ∀ entry ∈ p.timers, p.now < entry.1.due then 1 else 0

/-- A pool with less to do. -/
def Lower (q p : Pool W) : Prop :=
  Prod.Lex (· < ·) (Prod.Lex (Relation.CutExpand Task.Next) (· < ·))
    (q.weight, q.tasks, q.patient) (p.weight, p.tasks, p.patient)

theorem wellFounded_lower : WellFounded (Lower (W := W)) :=
  InvImage.wf (fun p : Pool W => (p.weight, p.tasks, p.patient))
    (Prod.lex Nat.lt_wfRel
      (Prod.lex ⟨_, Task.wellFounded_next.cutExpand⟩ Nat.lt_wfRel)).wf

theorem lower_of_weight (less : q.weight < p.weight) : Lower q p := Prod.Lex.left _ _ less

/-- A worker that takes a step of its task has less to do. -/
theorem lower_of_next {i : Nat} {e : Envelope} {task task' : Task W Ended}
    {timer timer' : Option Timer} (busy : p.workers[i]? = some ⟨.busy e task, timer⟩)
    (workers : q.workers = p.workers.set i ⟨.busy e task', timer'⟩) (next : Task.Next task' task)
    (weight : q.weight = p.weight) : Lower q p := by
  obtain ⟨others, old, new⟩ := perm_filterMap_set taskOf busy
  have before : p.tasks = task ::ₘ (others : Multiset (Task W Ended)) := Quotient.sound old
  have after : q.tasks = task' ::ₘ (others : Multiset (Task W Ended)) := by
    rw [tasks, workers]
    exact Quotient.sound (new _)
  unfold Lower
  rw [weight]
  refine Prod.Lex.right _ (Prod.Lex.left _ _ ⟨{task'}, task, ?_, ?_⟩)
  · intro later member
    rw [Multiset.mem_singleton.mp member]
    exact next
  · rw [before, after, Multiset.add_comm, Multiset.singleton_add, Multiset.add_comm,
      Multiset.singleton_add, Multiset.cons_swap]

variable {s : Submission} {number : Nat} {unsent unsent' : List (Nat × JobRecord)}
  {ledger ledger' : Ledger}

/-- The weight of a pool that serves a batch. -/
theorem Serving.weight_eq (serving : p.Serving s number unsent ledger) :
    p.weight = 6 * unsent.length + ledger.outstanding +
      (4 * p.jobs.length + 3 * p.atWork.length + 2 * p.inHand.length + p.reports.length) := by
  rw [weight, serving.alone]
  cases serving.place with
  | active active => simp [active]
  | answered free sentAll settled => simp [free, sentAll, settled]

/-- How the numbers of envelopes and reports with workers change with one worker. -/
theorem length_of_set {i : Nat} {w w' : Worker W} (here : p.workers[i]? = some w)
    (workers : q.workers = p.workers.set i w') : ∃ envelopes reports,
      p.atWork.length = w.envelope?.toList.length + envelopes ∧
      q.atWork.length = w'.envelope?.toList.length + envelopes ∧
      p.inHand.length = w.report?.toList.length + reports ∧
      q.inHand.length = w'.report?.toList.length + reports := by
  obtain ⟨before, after, before', after', old, new, old', new'⟩ := split_of_set here workers
  refine ⟨before.length + after.length, before'.length + after'.length, ?_, ?_, ?_, ?_⟩ <;>
    simp only [old, new, old', new', List.length_append] <;> omega

/-- A pool that serves a batch has less to do once a worker has taken a step of its task. -/
theorem Serving.lower_of_next {i : Nat} {e : Envelope} {task task' : Task W Ended}
    {timer timer' : Option Timer} (serving : p.Serving s number unsent ledger)
    (serving' : q.Serving s number unsent ledger)
    (busy : p.workers[i]? = some ⟨.busy e task, timer⟩) (jobs : q.jobs = p.jobs)
    (reports : q.reports = p.reports)
    (workers : q.workers = p.workers.set i ⟨.busy e task', timer'⟩)
    (next : Task.Next task' task) : Lower q p := by
  obtain ⟨_, _, old, new, old', new'⟩ := length_of_set busy workers
  apply Pool.lower_of_next busy workers next
  rw [serving.weight_eq, serving'.weight_eq, jobs, reports, old, new, old', new']
  rfl

/-- What happens in a pool that serves a batch leaves less to do, if it is not time that passes. -/
theorem Advance.lower (advance : Advance x number unsent ledger p event unsent' ledger' q)
    (serving : p.Serving s number unsent ledger) (serving' : q.Serving s number unsent' ledger')
    (timed : ∀ millis, event ≠ .elapse millis) : Lower q p := by
  have before := serving.weight_eq
  have after := serving'.weight_eq
  have unmoved : q.workers = p.workers → q.atWork = p.atWork ∧ q.inHand = p.inHand := by
    intro workers
    rw [atWork, atWork, inHand, inHand, workers]
    exact ⟨rfl, rfl⟩
  cases advance with
  | send next _ jobs reports workers =>
      obtain ⟨atWork, inHand⟩ := unmoved workers
      apply lower_of_weight
      rw [before, after, next, jobs, reports, atWork, inHand]
      simp only [Ledger.sent, List.length_cons, List.length_append, List.length_nil]
      omega
  | sendTimeout next jobs reports workers =>
      obtain ⟨atWork, inHand⟩ := unmoved workers
      apply lower_of_weight
      rw [before, after, next, jobs, reports, atWork, inHand]
      simp only [Ledger.refused, List.length_cons]
      omega
  | @collect _ report _ sentAll next jobs reports workers =>
      obtain ⟨atWork, inHand⟩ := unmoved workers
      have fewer : (if report.batch = number then ledger.receive report.jobId report.result
          else ledger).outstanding ≤ ledger.outstanding := by
        split
        · unfold Ledger.receive
          split
          · exact Nat.sub_le _ _
          · exact Nat.le_refl _
        · exact Nat.le_refl _
      apply lower_of_weight
      rw [before, after, next, jobs, reports, atWork, inHand, List.length_cons]
      simp only [List.length_nil]
      omega
  | collectTimeout sentAll outstanding jobs reports workers =>
      obtain ⟨atWork, inHand⟩ := unmoved workers
      have fewer := serving.sound.outstanding_expire (e := p.missing) outstanding
      apply lower_of_weight
      rw [before, after, jobs, reports, atWork, inHand]
      simp only [List.length_nil]
      omega
  | take idle next jobs reports workers =>
      obtain ⟨_, _, old, new, old', new'⟩ := length_of_set idle workers
      simp only [Worker.envelope?_idle, Worker.envelope?_busy, Worker.report?_idle,
        Worker.report?_busy, Option.toList_none, Option.toList_some, List.length_nil,
        List.length_cons] at old new old' new'
      apply lower_of_weight
      rw [before, after, next, jobs, reports, List.length_cons]
      omega
  | act busy jobs reports workers =>
      exact serving.lower_of_next serving' busy jobs reports workers (.act _)
  | finish busy jobs reports workers =>
      obtain ⟨_, _, old, new, old', new'⟩ := length_of_set busy workers
      simp only [Worker.envelope?_busy, Worker.envelope?_reporting, Worker.report?_busy,
        Worker.report?_reporting, Option.toList_none, Option.toList_some, List.length_nil,
        List.length_cons] at old new old' new'
      apply lower_of_weight
      rw [before, after, jobs, reports]
      omega
  | wake busy _ jobs reports workers =>
      exact serving.lower_of_next serving' busy jobs reports workers (.wait _)
  | deliver reporting _ jobs reports workers =>
      obtain ⟨_, _, old, new, old', new'⟩ := length_of_set reporting workers
      simp only [Worker.envelope?_idle, Worker.envelope?_reporting, Worker.report?_idle,
        Worker.report?_reporting, Option.toList_none, Option.toList_some, List.length_nil,
        List.length_cons] at old new old' new'
      apply lower_of_weight
      rw [before, after, jobs, reports, List.length_append, List.length_singleton]
      omega
  | giveUp reporting jobs reports workers =>
      obtain ⟨_, _, old, new, old', new'⟩ := length_of_set reporting workers
      simp only [Worker.envelope?_idle, Worker.envelope?_reporting, Worker.report?_idle,
        Worker.report?_reporting, Option.toList_none, Option.toList_some, List.length_nil,
        List.length_cons] at old new old' new'
      apply lower_of_weight
      rw [before, after, jobs, reports]
      omega
  | elapse => exact absurd rfl (timed _)

/-! ### Answers -/

/-- Time passes only when nothing can happen at once. -/
theorem Ahead.of_elapse {millis : Nat} (ahead : Ahead x p (.elapse millis) q) :
    Stuck x p ∧ Lower q p := by
  generalize elapsed : Event.elapse millis = event at ahead
  cases ahead with
  | move timeless =>
      subst elapsed
      cases timeless
  | due set => exact absurd elapsed.symm ((isInner_of_mem_timers set).2 millis)
  | @pass timer event stuck set early first =>
      refine ⟨stuck, Prod.Lex.right _ (Prod.Lex.right _ ?_)⟩
      have before : p.patient = 1 :=
        if_pos fun entry there => Nat.lt_of_lt_of_le early (first entry there)
      have after : patient { p with now := p.now + (timer.due - p.now) } = 0 := by
        apply if_neg
        intro all
        have := all (timer, event) set
        simp only at this
        omega
      rw [before, after]
      exact Nat.zero_lt_one

/-- The turn of a batch leaves less to do. -/
theorem Awaiting.lower {s : Submission} {number : Nat} (awaiting : p.Awaiting s)
    (serving : q.Serving s number (indexed s.records) (Ledger.start s.records.length))
    (workers : q.workers = p.workers) (jobs : q.jobs = []) (reports : q.reports = []) :
    Lower q p := by
  obtain ⟨atWork, inHand⟩ := holds_nothing (workers ▸ awaiting.idle)
  apply lower_of_weight
  rw [serving.weight_eq, weight, awaiting.next, atWork, inHand, jobs, reports,
    Accounts.length_indexed]
  simp only [Ledger.start, List.map_cons, List.map_nil, List.sum_cons, List.sum_nil,
    List.length_nil]
  omega

/-- An answer is bound to come, and with it whatever keeps holding until then. -/
theorem inevitable_of_invariant (s : Submission) (inv : List Event → Pool W → Prop)
    (phase : ∀ es p, inv es p →
      p.Awaiting s ∨ ∃ number unsent ledger, p.Serving s number unsent ledger)
    (kept : ∀ es p event q, inv es p → p.answerOf? s.ticket = none → Ahead x p event q →
      inv (es ++ [event]) q)
    (holds : inv events p) :
    Inevitable x (fun es q => inv es q ∧ ∃ results, q.answerOf? s.ticket = some results)
      events p := by
  induction p using wellFounded_lower.induction generalizing events with
  | _ p ih =>
      cases answered : p.answerOf? s.ticket with
      | some results => exact .now ⟨holds, results, answered⟩
      | none =>
          rcases phase events p holds with awaiting | ⟨number, unsent, ledger, serving⟩
          · have turn : Step x p .turn _ := Step.turn awaiting.free awaiting.next awaiting.early
            refine .later ⟨_, _, .move rfl (step_of_rule turn)⟩ fun event q ahead => ?_
            refine ih q ?_ (kept events p event q holds answered ahead)
            obtain ⟨rule, inner⟩ := ahead.rule
            obtain ⟨_, workers, jobs, reports, _, ⟨⟨millis, rfl⟩, _⟩ | ⟨_, serving⟩⟩ :=
              awaiting.step rule inner
            · exact ahead.of_elapse.2
            · exact awaiting.lower serving workers jobs reports
          · have set : ∃ entry, entry ∈ p.timers := by
              cases serving.place with
              | active active => exact ⟨_, mem_timers_iff.mpr (Or.inl ⟨_, active, rfl⟩)⟩
              | answered _ _ _ answer => simp [answer .poolShutdown] at answered
            refine .later (exists_ahead set.choose_spec) fun event q ahead => ?_
            refine ih q ?_ (kept events p event q holds answered ahead)
            obtain ⟨rule, inner⟩ := ahead.rule
            by_cases timed : ∃ millis, event = .elapse millis
            · obtain ⟨millis, rfl⟩ := timed
              exact ahead.of_elapse.2
            · obtain ⟨unsent', ledger', serving', advance⟩ := serving.step rule inner
              exact advance.lower serving serving' fun millis same => timed ⟨millis, same⟩

end Pool

end JobQueue
