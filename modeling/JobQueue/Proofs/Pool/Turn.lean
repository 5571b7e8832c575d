/-
The turn of a batch.

In a pool the loop of a batch meets what the events of the pool bring about (`met`). The main
statement is `batch_accounting`: by itself the loop keeps its accounts in order whatever it meets
(`Accounts.Balanced`), and in a pool that has been running in any way, from the moment a batch
gets its turn, the batch is where its loop is by itself, is answered with the results of the loop
as soon as that is over, and takes in no report of its number but those of runs of its own
records that ended during its turn.
-/

import JobQueue.Proofs.Pool.Accounts
import JobQueue.Proofs.Pool.Flow
import JobQueue.Proofs.Simulation.Scripts

namespace JobQueue.Pool

variable {W : Type} {x : Executor W} {p q : Pool W} {event : Event} {events : List Event}

/-! ### Tickets -/

/-- The tickets of the batches that were handed in. -/
def tickets (p : Pool W) : List Nat :=
  p.answers.map Prod.fst ++
    ((p.active.map Batch.ticket).toList ++ p.waiting.map Submission.ticket)

/-- No two batches have one ticket, and those to come get new ones. -/
structure Ticketed (p : Pool W) : Prop where
  once : p.tickets.Nodup
  dated : ∀ ticket ∈ p.tickets, ticket < p.nextTicket

theorem perm_tickets_proceed {b : Batch} {u : JobError} : (p.proceed b u).tickets.Perm
    (p.answers.map Prod.fst ++ (b.ticket :: p.waiting.map Submission.ticket)) := by
  by_cases done : isDone b
  · simp [proceed_of_done done, tickets]
  · simp [proceed_of_not_done done, tickets]

/-- An event keeps the tickets, or adds the next one. -/
theorem Step.tickets (rule : Step x p event q) :
    (q.tickets.Perm p.tickets ∧ q.nextTicket = p.nextTicket) ∨
    (q.tickets.Perm (p.nextTicket :: p.tickets) ∧ q.nextTicket = p.nextTicket + 1) := by
  cases rule with
  | submitEmpty | submitLate =>
      refine Or.inr ⟨?_, rfl⟩
      simp only [Pool.tickets, answer, List.map_append, List.map_cons, List.map_nil,
        List.append_assoc, List.cons_append, List.nil_append]
      exact List.perm_middle
  | submit =>
      refine Or.inr ⟨?_, rfl⟩
      simp only [Pool.tickets, List.map_append, List.map_cons, List.map_nil, ← List.append_assoc]
      exact List.perm_append_singleton _ _
  | reject free next => exact Or.inl ⟨by simp [Pool.tickets, answer, free, next], rfl⟩
  | turn free next =>
      refine Or.inl ⟨perm_tickets_proceed.trans ?_, proceed_nextTicket⟩
      simp [Pool.tickets, Batch.opening, free, next]
  | send active | sendTimeout active | sendClosed active | collectTimeout active =>
      refine Or.inl ⟨perm_tickets_proceed.trans ?_, proceed_nextTicket⟩
      simp [Pool.tickets, active]
  | collect active =>
      refine Or.inl ⟨perm_tickets_proceed.trans ?_, proceed_nextTicket⟩
      simp [Pool.tickets, active, unsent_collect.1]
  | collectClosed active => exact Or.inl ⟨by simp [Pool.tickets, answer, active], rfl⟩
  | take | act | ready | expire =>
      rw [setTask_eq]
      exact Or.inl ⟨List.Perm.refl _, rfl⟩
  | _ => exact Or.inl ⟨List.Perm.refl _, rfl⟩

theorem ticketed_start {limits : PoolLimits} {size : Nat} {world : W} :
    (start limits size world).Ticketed := ⟨List.nodup_nil, by simp [start, tickets]⟩

theorem Ticketed.step (ticketed : p.Ticketed) (rule : Step x p event q) : q.Ticketed := by
  rcases rule.tickets with ⟨perm, next⟩ | ⟨perm, next⟩
  · exact ⟨perm.nodup_iff.mpr ticketed.once,
      fun ticket there => next ▸ ticketed.dated ticket (perm.subset there)⟩
  · have fresh : p.nextTicket ∉ p.tickets :=
      fun there => Nat.lt_irrefl _ (ticketed.dated _ there)
    refine ⟨perm.nodup_iff.mpr (List.nodup_cons.mpr ⟨fresh, ticketed.once⟩),
      fun ticket there => ?_⟩
    rcases List.mem_cons.mp (perm.subset there) with rfl | old
    · omega
    · have := ticketed.dated ticket old
      omega

theorem Ticketed.replay (ticketed : p.Ticketed) (run : p.replay x events = some q) :
    q.Ticketed :=
  replay_induction (motive := fun _ q => q.Ticketed) ticketed
    (fun _ _ _ _ _ before rule => before.step rule) run

/-- A batch whose turn it is has no answer yet. -/
theorem Ticketed.unanswered {b : Batch} (ticketed : p.Ticketed) (active : p.active = some b) :
    b.ticket ∉ p.answers.map Prod.fst := by
  have once := ticketed.once
  rw [Pool.tickets, List.nodup_append] at once
  intro there
  exact once.2.2 _ there _ (by simp [active]) rfl

/-- An answer that is given stays. -/
theorem Step.answerOf?_eq_some {ticket : Nat} {results : List JobResult}
    (rule : Step x p event q) (answered : p.answerOf? ticket = some results) :
    q.answerOf? ticket = some results := by
  obtain ⟨more, answers⟩ := rule.answers_eq
  rw [answerOf?, answers, List.lookup_append, ← answerOf?, answered]
  rfl

/-! ### The loop in the pool -/

/-- What the loop of a batch meets in an event. -/
def met (number : Nat) (p : Pool W) (event : Event) : Option Happening :=
  match p.active with
  | none => none
  | some b =>
      if b.number = number then
        match event with
        | .send => some .sent
        | .sendTimeout =>
            b.unsent.head?.map fun entry =>
              .refused (.enqueueTimeout entry.2.id p.limits.send)
        | .sendClosed => some (.refused .poolShutdown)
        | .collect => p.reports.head?.map .report
        | .collectTimeout => some .timeout
        | .collectClosed => some .closed
        | _ => none
      else none

/-- A batch with another timer. -/
def setTimer (b : Batch) (timer : Timer) : Batch := { b with timer := timer }

/-- A batch in a pool is where its loop is by itself. -/
structure Follows (number : Nat) (a : Accounts) (p : Pool W) : Prop where
  going : a.isOver = false → ∃ timer, p.active = some (setTimer a.batch timer)
  finished : a.isOver = true → p.answerOf? a.batch.ticket = some a.results ∧
    ∀ b, p.active = some b → b.number ≠ number

variable {number : Nat} {a : Accounts}

theorem isOver_iff_isDone {timer : Timer} (isOpen : a.isClosed = false) :
    a.isOver = true ↔ isDone (setTimer a.batch timer) := by
  simp [Accounts.isOver, isDone, setTimer, isOpen]

theorem answerOf?_eq_none {ticket : Nat} (fresh : ticket ∉ p.answers.map Prod.fst) :
    p.answerOf? ticket = none := by
  rw [answerOf?, List.lookup_eq_none_iff]
  intro entry there
  exact bne_iff_ne.mpr fun same => fresh (same ▸ List.mem_map_of_mem there)

/-- An answer under a new ticket is found. -/
theorem answerOf?_answer {ticket : Nat} {results : List JobResult}
    (fresh : ticket ∉ p.answers.map Prod.fst) :
    (p.answer ticket results).answerOf? ticket = some results := by
  have absent := answerOf?_eq_none fresh
  rw [answerOf?] at absent
  simp [answer, answerOf?, List.lookup_append, absent]

theorem follows_proceed {timer : Timer} {u : JobError} (isOpen : a.isClosed = false)
    (fresh : a.batch.ticket ∉ p.answers.map Prod.fst)
    (results : a.isOver = true → a.batch.ledger.finish u = a.results) :
    Follows number a (p.proceed (setTimer a.batch timer) u) := by
  by_cases done : isDone (setTimer a.batch timer)
  · have finished := (isOver_iff_isDone isOpen).mpr done
    rw [proceed_of_done done]
    refine ⟨fun going => absurd finished (by simp [going]), fun _ => ⟨?_, by simp⟩⟩
    rw [← results finished]
    exact answerOf?_answer (p := { p with active := none }) fresh
  · rw [proceed_of_not_done done]
    exact ⟨fun _ => ⟨_, rfl⟩, fun finished => absurd ((isOver_iff_isDone isOpen).mp finished) done⟩

theorem met_of_active {b : Batch} (active : p.active = some b) : p.met b.number event =
    match event with
    | .send => some .sent
    | .sendTimeout =>
        b.unsent.head?.map fun entry => .refused (.enqueueTimeout entry.2.id p.limits.send)
    | .sendClosed => some (.refused .poolShutdown)
    | .collect => p.reports.head?.map .report
    | .collectTimeout => some .timeout
    | .collectClosed => some .closed
    | _ => none := by
  simp [met, active]

theorem met_of_other (other : ∀ b, p.active = some b → b.number ≠ number) :
    p.met number event = none := by
  unfold met
  cases active : p.active with
  | none => rfl
  | some b => exact if_neg (other b active)

/-- An event that is about no batch is nothing that a loop meets. -/
theorem met_of_aside (other : event.isOfBatch = false) : p.met number event = none := by
  unfold met
  cases p.active with
  | none => rfl
  | some b =>
      cases event with
      | turn | send | sendTimeout | sendClosed | collect | collectTimeout | collectClosed =>
          cases other
      | _ => exact ite_self none

theorem collect_timer {b : Batch} {timer : Timer} {report : Report} :
    (setTimer b timer).collect report = setTimer (b.collect report) timer := by
  unfold Batch.collect setTimer
  split <;> rfl

/-- The limit of the waits for reports, as an error. -/
theorem Step.missing_eq (rule : Step x p event q) : q.missing = p.missing := by
  rw [missing, missing, rule.limits_eq]

variable {s : Submission} {timer : Timer} {happenings : List Happening}

/-- Once the loop is over, no event is anything to it and its answer stays. -/
theorem Follows.step_finished (follows : Follows number a p) (finished : a.isOver = true)
    (began : number < p.nextBatch) (rule : Step x p event q) :
    p.met number event = none ∧ Follows number a q := by
  obtain ⟨answered, others⟩ := follows.finished finished
  refine ⟨met_of_other others, fun going => absurd finished (by simp [going]), ?_⟩
  intro _
  refine ⟨rule.answerOf?_eq_some answered, fun b' active => ?_⟩
  rcases rule.active_eq_some active with
    ⟨b, before, _, same, _⟩ | ⟨_, _, _, _, _, fresh, _⟩
  · exact same ▸ others b before
  · omega

/-- While the loop goes on, an event is one step of it or leaves it where it is. -/
theorem Follows.step_going (follows : Follows number a p) (finished : a.isOver = false)
    (going : Accounts.Going s number timer p.missing happenings a) (ticketed : p.Ticketed)
    (rule : Step x p event q) :
    ∃ a', a.meetAll (p.met number event).toList = some a' ∧ Follows number a' q := by
  obtain ⟨set, active⟩ := follows.going finished
  have own : (setTimer a.batch set).number = number := going.constant.2.1
  have fresh : (setTimer a.batch set).ticket ∉ p.answers.map Prod.fst :=
    ticketed.unanswered active
  have met : p.met _ event = _ := met_of_active active
  rw [own] at met
  by_cases aside : event.isOfBatch = false
  · rw [met_of_aside aside]
    refine ⟨a, rfl, fun _ => ⟨set, (rule.aside aside).1.trans active⟩, ?_⟩
    intro done
    exact absurd done (by simp [finished])
  have isOpen : a.isClosed = false := by
    by_contra closed
    have closed : a.isClosed = true := by simpa using closed
    simp [Accounts.isOver, closed, going.closedLast closed] at finished
  have collecting : a.batch.unsent = [] → a.isCollecting = true := by
    intro sentAll
    simpa [Accounts.isOver, Accounts.isCollecting, sentAll, isOpen] using finished
  -- Any step of the loop but the last is followed by `proceed`.
  have goes : ∀ {h a' u} {p' : Pool W}, p.met number event = some h → a.meet h = some a' →
      a'.isClosed = false → a'.batch.ticket = a.batch.ticket →
      q = p'.proceed (setTimer a'.batch set) u → p'.answers = p.answers →
      ∃ a', a.meetAll (p.met number event).toList = some a' ∧ Follows number a' q := by
    intro h a' u p' met happens isOpen ticket after answers
    refine ⟨a', by simp [met, Accounts.meetAll, happens], ?_⟩
    rw [after]
    exact follows_proceed isOpen (by rw [ticket, answers]; exact fresh)
      (fun finished => (going.meet happens).1.finish_eq isOpen finished u)
  cases rule with
  | reject free | turn free => exact absurd (free.symm.trans active) (by simp)
  | send before next =>
      cases active.symm.trans before
      exact goes met (Accounts.meet_sent next) isOpen rfl rfl rfl
  | sendTimeout before next =>
      cases active.symm.trans before
      simp only [next, List.head?_cons, Option.map_some] at met
      exact goes met (Accounts.meet_refused next) isOpen rfl rfl rfl
  | sendClosed before next =>
      cases active.symm.trans before
      exact goes met (Accounts.meet_refused next) isOpen rfl rfl rfl
  | collect before sentAll next =>
      cases active.symm.trans before
      simp only [next, List.head?_cons, Option.map_some] at met
      exact goes met (if_pos (collecting sentAll)) isOpen
        unsent_collect.1 (congrArg (proceed _ · _) collect_timer) rfl
  | collectTimeout before sentAll =>
      cases active.symm.trans before
      exact goes met (if_pos (collecting sentAll)) isOpen rfl
        (by rw [going.constant.2.2.2]; rfl) rfl
  | collectClosed before sentAll =>
      cases active.symm.trans before
      refine ⟨{ a with isClosed := true, events := a.events + 1 }, ?_, fun open' => ?_,
        fun _ => ⟨?_, by simp [answer]⟩⟩
      · simp [met, Accounts.meetAll, Accounts.meet, collecting sentAll]
      · have unsent : a.batch.unsent = [] := sentAll
        simp [Accounts.isOver, unsent] at open'
      · rw [← going.constant.2.2.2]
        exact answerOf?_answer (p := { p with active := none }) fresh
  | _ => exact absurd rfl aside

/-- A batch in a pool, and what its loop has met since its turn began. -/
structure Looping (s : Submission) (number : Nat) (timer : Timer) (missing : JobError)
    (happenings : List Happening) (fin : List (Envelope × JobResult)) (p : Pool W) : Prop where
  follows : ∃ a,
    (Accounts.start (Batch.opening s number timer) missing).meetAll happenings = some a ∧
    Follows number a p
  sourced : p.Sourced number s.records fin
  /-- A report of the batch's number is one of a run of the batch. -/
  reports : ∀ report, .report report ∈ happenings → report.batch = number →
    HasRun number s.records fin report

theorem met_report {report : Report} (met : p.met number event = some (.report report)) :
    report ∈ p.outcomes := by
  cases active : p.active with
  | none => simp [Pool.met, active] at met
  | some b =>
      simp only [Pool.met, active] at met
      split at met
      next own =>
        cases event with
        | collect =>
            have front : p.reports.head? = some report := by simpa using met
            exact List.mem_append_left _ (List.mem_of_head? front)
        | _ => simp at met
      next => cases met

theorem looping_turn {rest : List Submission} {u : JobError} (dated : p.Dated)
    (ticketed : p.Ticketed) (next : p.waiting = s :: rest) :
    Looping s p.nextBatch ⟨p.now, p.order⟩ p.missing [] []
      ({ p with waiting := rest, nextBatch := p.nextBatch + 1 }.proceed
        (Batch.opening s p.nextBatch ⟨p.now, p.order⟩) u) := by
  have fresh : s.ticket ∉ p.answers.map Prod.fst := by
    have once := ticketed.once
    rw [Pool.tickets, List.nodup_append] at once
    exact fun there => once.2.2 _ there s.ticket (by simp [next]) rfl
  refine ⟨⟨_, rfl, ?_⟩, ⟨by simp, ?_, ?_, ?_⟩, by simp⟩
  · exact follows_proceed rfl fresh (fun finished => Accounts.going_start.finish_eq rfl finished u)
  · intro b active _ entry there
    obtain ⟨_, _, _, unsent, _⟩ := of_proceed_active active
    rw [unsent] at there
    simp only [Batch.opening, indexed, List.mem_map, Prod.exists] at there
    obtain ⟨r, i, member, rfl⟩ := there
    exact List.fst_mem_of_mem_zipIdx member
  · intro e there own
    exact absurd own (Nat.ne_of_lt (dated.envelopes e (by simpa [envelopes, atWork] using there)))
  · intro report there own
    have before := dated.outcomes report (by simpa [outcomes, inHand] using there)
    exact absurd own (Nat.ne_of_lt before)

theorem Looping.step {fin : List (Envelope × JobResult)}
    (looping : Looping s number timer p.missing happenings fin p) (ticketed : p.Ticketed)
    (rule : Step x p event q) :
    Looping s number timer q.missing (happenings ++ (p.met number event).toList)
      (fin ++ (p.finish? event).toList) q := by
  obtain ⟨⟨a, happens, follows⟩, sourced, reports⟩ := looping
  refine ⟨?_, sourced.step rule, ?_⟩
  · rw [rule.missing_eq]
    cases finished : a.isOver with
    | true =>
        obtain ⟨unmet, after⟩ := follows.step_finished finished sourced.began rule
        exact ⟨a, by simpa [unmet] using happens, after⟩
    | false =>
        have going := (Accounts.going_start.meetAll happens).1
        obtain ⟨a', next, after⟩ := follows.step_going finished going ticketed rule
        exact ⟨a', by simp [Accounts.meetAll_append, happens, next], after⟩
  · intro report there own
    rcases List.mem_append.mp there with old | new
    · exact (reports report old own).more
    · exact (sourced.outcomes report (met_report (by simpa using new)) own).more

/-- The accounts of a batch. By itself the loop of a batch keeps them in order, whatever it meets.
In a pool that has been running in any way, a batch that gets its turn goes on as its loop does,
is answered with the results of the loop once that is over, and takes a report of its number
only for a run of one of its records that ended during its turn. -/
theorem batch_accounting (x : Executor W) (limits : PoolLimits) (size : Nat) (world : W) :
    (∀ s number timer missing happenings a,
      (Accounts.start (Batch.opening s number timer) missing).meetAll happenings = some a →
      Accounts.Balanced s number timer missing happenings a) ∧
    ∀ (earlier events : List Event) (p p' q : Pool W) (s : Submission) (rest : List Submission),
      (start limits size world).replay x earlier = some p →
      p.waiting = s :: rest → p.isShutdown = false → p.step x .turn = some p' →
      p'.replay x events = some q →
      Looping s p.nextBatch ⟨p.now, p.order⟩ p.missing
        (p'.readings x (met p.nextBatch) events) (p'.finished x events) q := by
  refine ⟨fun _ _ _ _ _ _ => Accounts.balanced_of_meetAll, ?_⟩
  intro earlier events p p' q s rest before next early turn run
  have dated := dated_start.replay before
  have ticketed := ticketed_start.replay before
  have looping : Looping s p.nextBatch ⟨p.now, p.order⟩ p'.missing [] [] p' ∧ p'.Ticketed := by
    have rule := step_eq_some_iff.mp turn
    refine ⟨?_, ticketed.step rule⟩
    rw [rule.missing_eq]
    cases rule with
    | reject _ _ late => exact absurd late (by simp [early])
    | turn _ next' =>
        rw [next', List.cons.injEq] at next
        obtain ⟨rfl, rfl⟩ := next
        exact looping_turn dated ticketed next'
  have missing : p'.missing = p.missing := (step_eq_some_iff.mp turn).missing_eq
  have all := replay_induction (motive := fun events q => q.missing = p.missing ∧ q.Ticketed ∧
    Looping s p.nextBatch ⟨p.now, p.order⟩ q.missing
      (p'.readings x (met p.nextBatch) events) (p'.finished x events) q)
    ⟨missing, looping.2, looping.1⟩
    (fun _ _ _ _ run before rule => by
      obtain ⟨same, ticketed, looping⟩ := before
      rw [readings_snoc run, finished_snoc run]
      exact ⟨rule.missing_eq.trans same, ticketed.step rule, looping.step ticketed rule⟩) run
  exact all.1 ▸ all.2.2

/-- What happens in the turn of two jobs with one id, which one worker takes one after the
other. -/
def turnOfTwins : List Event :=
  [.send, .send, .take 0, .run 0, .run 0, .run 0, .run 0, .run 0, .deliver 0, .collect,
    .take 0, .run 0, .run 0, .run 0, .deliver 0, .collect]

open Simulation in
/-- Of two jobs with one id the second finds its record deleted, and is answered so. -/
theorem batch_accounting_twins : ∃ p p' q : Pool World,
    (start ⟨30, 300, 10⟩ 1 (World.still (easyJobs ["a"]))).replay easyExecutor
      [.submit (easyJobs ["a", "a"])] = some p ∧
    p.step easyExecutor .turn = some p' ∧ p'.replay easyExecutor turnOfTwins = some q ∧
    q.answerOf? 0 = some [.ok (), .error (.reservation "a" (.notFound "a"))] ∧
    Looping ⟨0, easyJobs ["a", "a"]⟩ 0 ⟨0, 0⟩ p.missing
      (p'.readings easyExecutor (met 0) turnOfTwins) (p'.finished easyExecutor turnOfTwins) q :=
  ⟨_, _, _, rfl, rfl, rfl, rfl,
    (batch_accounting easyExecutor ⟨30, 300, 10⟩ 1 (World.still (easyJobs ["a"]))).2
      [.submit (easyJobs ["a", "a"])] turnOfTwins _ _ _ ⟨0, easyJobs ["a", "a"]⟩ []
      rfl rfl rfl rfl rfl⟩

end JobQueue.Pool
