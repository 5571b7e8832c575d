/-
The end of a pool.

From the moment a shutdown has begun no batch is admitted (`admitted_late`), and one that still
waits is answered with its rejection and can always get that far (`exists_rejection`). A worker that
nobody has told to quit stops only where the job channel is empty and closed (`Stopping`), so
where all workers have stopped by themselves nothing that was accepted is left over
(`Kept.drained`).
-/

import JobQueue.Proofs.Pool.Log
import JobQueue.Proofs.Pool.Service

namespace JobQueue.Pool

variable {W : Type} {x : Executor W} {p q : Pool W} {event : Event} {events : List Event}
  {entries : List (Entry W)} {ticket : Nat} {records : List JobRecord}

/-! ### Batches that come late -/

theorem Step.isShutdown (rule : Step x p event q) (late : p.isShutdown = true) :
    q.isShutdown = true := by
  cases rule with
  | turn | send | sendTimeout | sendClosed | collect | collectTimeout =>
      rw [proceed_isShutdown]
      exact late
  | take | act | ready | expire =>
      rw [setTask_eq]
      exact late
  | shutdown => rfl
  | _ => exact late

/-- After a shutdown has begun no batch is admitted. -/
theorem admitted_late (late : p.isShutdown = true) :
    admitted (entries ++ (p.logged? event).toList) = admitted entries := by
  have unseen : (p.logged? event).bind Entry.admitted? = none := by
    cases event with
    | turn =>
        unfold logged?
        rw [late]
        dsimp only
        split <;> rfl
    | send =>
        unfold logged?
        dsimp only
        split
        next b _ => cases b.unsent <;> rfl
        next => rfl
    | take i =>
        unfold logged?
        cases p.jobs <;> rfl
    | run i | ready i | expire i =>
        unfold logged?
        dsimp only
        split <;> rfl
    | _ => rfl
  rw [admitted_more, unseen, Option.toList_none, List.append_nil]

/-- What becomes of a batch that has been handed in. -/
inductive Handled (entries : List (Entry W)) (ticket : Nat) (records : List JobRecord)
    (p : Pool W) : Prop where
  | waiting (waits : Submission.mk ticket records ∈ p.waiting)
  | rejected (answered : p.answerOf? ticket = some (rejection records))
      (unadmitted : ∀ a ∈ admitted entries, a.1.ticket ≠ ticket)
  | turned (number : Nat) (there : (Submission.mk ticket records, number) ∈ admitted entries)

theorem handled_submit (kept : Kept x entries p) :
    Handled entries p.nextTicket records (p.submit records).2 := by
  have fresh : p.nextTicket ∉ p.answers.map Prod.fst := by
    intro there
    exact Nat.lt_irrefl _ (kept.ticketed.dated _ (List.mem_append_left _ there))
  have unadmitted : ∀ a ∈ admitted entries, a.1.ticket ≠ p.nextTicket :=
    fun a there => Nat.ne_of_lt (kept.admissions.named a there)
  unfold Pool.submit
  dsimp only
  split
  next empty =>
    rw [List.isEmpty_iff.mp empty]
    exact .rejected (answerOf?_answer (p := { p with nextTicket := p.nextTicket + 1 }) fresh)
      unadmitted
  next =>
    split
    · exact .rejected (answerOf?_answer (p := { p with nextTicket := p.nextTicket + 1 }) fresh)
        unadmitted
    · exact .waiting (List.mem_append_right _ List.mem_cons_self)

/-- A batch that has its answer is not admitted any more. -/
theorem Step.unadmitted {results : List JobResult} (rule : Step x p event q)
    (ticketed : p.Ticketed) (answered : p.answerOf? ticket = some results)
    (unadmitted : ∀ a ∈ admitted entries, a.1.ticket ≠ ticket) :
    ∀ a ∈ admitted (entries ++ (p.logged? event).toList), a.1.ticket ≠ ticket := by
  intro a there
  rw [admitted_more, List.mem_append, Option.mem_toList] at there
  rcases there with old | new
  · exact unadmitted a old
  · obtain ⟨s, number⟩ := a
    obtain ⟨_, _, rest, next, _⟩ := rule.admits (of_admitted? new)
    have once := ticketed.once
    rw [Pool.tickets, List.nodup_append] at once
    have known : ticket ∈ p.answers.map Prod.fst := by
      by_contra absent
      rw [answerOf?_eq_none absent] at answered
      cases answered
    intro same
    exact once.2.2 ticket known s.ticket (by simp [next]) same.symm

theorem Handled.step (handled : Handled entries ticket records p) (kept : Kept x entries p)
    (rule : Step x p event q) :
    Handled (entries ++ (p.logged? event).toList) ticket records q := by
  cases handled with
  | rejected answered unadmitted =>
      exact .rejected (rule.answerOf?_eq_some answered)
        (rule.unadmitted kept.ticketed answered unadmitted)
  | turned number there =>
      refine .turned number ?_
      rw [admitted_more]
      exact List.mem_append_left _ there
  | waiting waits =>
      cases rule with
      | @reject s rest free next late =>
          have left : ∀ a ∈ admitted entries, a.1.ticket ≠ ticket :=
            fun a there => (kept.admissions.left a there _ waits).symm
          rw [next, List.mem_cons] at waits
          rcases waits with rfl | later
          · refine .rejected (answerOf?_answer (p := { p with waiting := rest }) ?_) ?_
            · have once := kept.ticketed.once
              rw [Pool.tickets, List.nodup_append] at once
              exact fun there => once.2.2 _ there ticket (by simp [next]) rfl
            · have unseen : p.logged? .turn = none := by simp [logged?, free, next, late]
              rw [unseen, Option.toList_none, List.append_nil]
              exact left
          · exact .waiting later
      | @turn s rest free next early =>
          rw [next, List.mem_cons] at waits
          rcases waits with rfl | later
          · refine .turned p.nextBatch ?_
            rw [admitted_more]
            simp [logged?, free, next, early, Entry.admitted?]
          · exact .waiting (by rw [proceed_waiting]; exact later)
      | send | sendTimeout | sendClosed | collect | collectTimeout =>
          exact .waiting (by rw [proceed_waiting]; exact waits)
      | take | act | ready | expire =>
          rw [setTask_eq]
          exact .waiting waits
      | submit => exact .waiting (List.mem_append_left _ waits)
      | _ => exact .waiting waits

/-- A batch that was not admitted is answered with its rejection, or not at all. -/
theorem Handled.eq_rejection {results : List JobResult} (handled : Handled entries ticket records p)
    (ticketed : p.Ticketed) (refused : ∀ a ∈ admitted entries, a.1.ticket ≠ ticket)
    (answered : p.answerOf? ticket = some results) : results = rejection records := by
  cases handled with
  | rejected rejected _ => exact Option.some.inj (answered.symm.trans rejected)
  | turned number there => exact absurd rfl (refused _ there)
  | waiting waits =>
      have once := ticketed.once
      rw [Pool.tickets, List.nodup_append] at once
      have there : ticket ∈ p.answers.map Prod.fst := by
        by_contra absent
        rw [answerOf?_eq_none absent] at answered
        cases answered
      refine absurd rfl (once.2.2 ticket there ticket (List.mem_append_right _ ?_))
      exact List.mem_map.mpr ⟨_, waits, rfl⟩

/-! ### The batch in its turn can always come to its end -/

/-- How much a batch has left to wait for. -/
def remaining (b : Batch) : Nat := b.unsent.length + b.ledger.outstanding

/-- One wait of the batch in its turn can run out, and then it has less to wait for. -/
theorem exists_less {b : Batch} (x : Executor W) (active : p.active = some b) :
    ∃ (events : List Event) (p' : Pool W) (b' : Batch) (u : JobError),
      (∀ event ∈ events, event.isInner = true) ∧ p.replay x events = some (p'.proceed b' u) ∧
      p'.waiting = p.waiting ∧ p'.isShutdown = p.isShutdown ∧
      (¬ isDone b' → remaining b' < remaining b) := by
  let later : Pool W := { p with now := p.now + b.timer.due }
  have due : b.timer.due ≤ later.now := Nat.le_add_left _ _
  have passes : p.replay x [.elapse b.timer.due] = some later := rfl
  cases next : b.unsent with
  | cons entry rest =>
      have rule := Step.sendTimeout (x := x) (p := later) active next due
      refine ⟨[.elapse b.timer.due, .sendTimeout], later, _, _, by simp [Event.isInner],
        replay_snoc passes rule, rfl, rfl, fun _ => ?_⟩
      rw [remaining, remaining, next, List.length_cons]
      change rest.length + b.ledger.outstanding < _
      omega
  | nil =>
      have rule := Step.collectTimeout (x := x) (p := later) active next due
      refine ⟨[.elapse b.timer.due, .collectTimeout], later, _, _, by simp [Event.isInner],
        replay_snoc passes rule, rfl, rfl, fun more => ?_⟩
      have fewer : (b.ledger.expire later.missing).outstanding = b.ledger.outstanding - 1 := by
        unfold Ledger.expire
        split <;> rfl
      have positive : (b.ledger.expire later.missing).outstanding ≠ 0 := fun none =>
        more ⟨next, none⟩
      change b.unsent.length + (b.ledger.expire later.missing).outstanding < _
      rw [remaining]
      omega

/-- Since waits run out, the batch in its turn can be brought to its end, whatever the workers
do. -/
theorem exists_free (x : Executor W) (p : Pool W) : ∃ events q,
    (∀ event ∈ events, event.isInner = true) ∧ p.replay x events = some q ∧ q.active = none ∧
      q.waiting = p.waiting ∧ q.isShutdown = p.isShutdown := by
  cases active : p.active with
  | none => exact ⟨[], p, by simp, rfl, active, rfl, rfl⟩
  | some b =>
      generalize size : remaining b = n
      induction n using Nat.strongRecOn generalizing p b with
      | ind n ih =>
      obtain ⟨events, p', b', u, inner, run, waiting, flag, less⟩ := exists_less x active
      by_cases done : isDone b'
      · refine ⟨events, _, inner, run, ?_, ?_, ?_⟩
        · rw [proceed_of_done done]
        · rw [proceed_waiting, waiting]
        · rw [proceed_isShutdown, flag]
      · have goes : (p'.proceed b' u).active =
            some { b' with timer := ⟨p'.now + p'.patience b' * 1000, p'.order⟩ } := by
          rw [proceed_of_not_done done]
        obtain ⟨events', q, inner', run', free, waiting', flag'⟩ :=
          ih _ (size ▸ less done) _ _ goes rfl
        refine ⟨events ++ events', q, ?_, ?_, free, ?_, ?_⟩
        · intro event member
          exact (List.mem_append.mp member).elim (inner event) (inner' event)
        · rw [replay_append, run]
          exact run'
        · rw [waiting', proceed_waiting, waiting]
        · rw [flag', proceed_isShutdown, flag]

/-- A batch that still waits once a shutdown has begun can be brought to its rejection. -/
theorem exists_rejection (late : p.isShutdown = true) (ticketed : p.Ticketed)
    (waits : Submission.mk ticket records ∈ p.waiting) : ∃ events q,
      (∀ event ∈ events, event.isInner = true) ∧ p.replay x events = some q ∧
      q.answerOf? ticket = some (rejection records) := by
  generalize queue : p.waiting = waiting at waits
  induction waiting generalizing p with
  | nil => cases waits
  | cons s rest ih =>
      obtain ⟨events, p', inner, run, free, same, flag⟩ := exists_free x p
      have rule : Step x p' .turn ({ p' with waiting := rest }.answer s.ticket
          (rejection s.records)) :=
        .reject free (same.trans queue) (flag.trans late)
      have ticketed' : p'.Ticketed := ticketed.replay run
      have turned := replay_snoc run rule
      have innerAll : ∀ event ∈ events ++ [.turn], event.isInner = true := by
        intro event member
        rcases List.mem_append.mp member with old | new
        · exact inner event old
        · rw [List.mem_singleton.mp new]
          rfl
      rcases List.mem_cons.mp waits with rfl | later
      · refine ⟨events ++ [.turn], _, innerAll, turned, ?_⟩
        refine answerOf?_answer (p := { p' with waiting := rest }) fun there => ?_
        have once := ticketed'.once
        rw [Pool.tickets, List.nodup_append] at once
        exact once.2.2 _ there ticket (by simp [same, queue]) rfl
      · obtain ⟨events', q, inner', run', answered⟩ :=
          ih (p := ({ p' with waiting := rest } : Pool W).answer s.ticket (rejection s.records))
            (flag.trans late) (ticketed'.step rule) rfl later
        refine ⟨events ++ [.turn] ++ events', q, ?_, ?_, answered⟩
        · intro event member
          exact (List.mem_append.mp member).elim (innerAll event) (inner' event)
        · rw [replay_append, turned]
          exact run'

/-! ### Workers that stop -/

/-- Once the job channel is closed and empty it stays so. -/
theorem Step.closed (rule : Step x p event q) (empty : p.jobs = []) (closed : p.jobsClosed = true) :
    q.jobs = [] ∧ q.jobsClosed = true := by
  obtain ⟨late, resting⟩ : p.isShutdown = true ∧ p.isSending = false := by
    simpa [jobsClosed] using closed
  have sendsNothing : ∀ b, p.active = some b → b.unsent = [] := by
    intro b active
    simpa [isSending, active] using resting
  have rests : q.isSending = false := by
    unfold isSending
    cases active : q.active with
    | none => rfl
    | some b' =>
        rcases rule.active_eq_some active with
          ⟨b, before, _, _, fewer, _⟩ | ⟨s, rest, free, next, _, _, _, more⟩
        · have none : b'.unsent = [] := by
            rw [sendsNothing b before] at fewer
            exact List.subset_nil.mp fewer
          simp [none]
        · cases rule with
          | turn _ _ early => simp [late] at early
          | send there | sendTimeout there | sendClosed there | collect there
          | collectTimeout there | collectClosed there => simp [free] at there
          | take | act | ready | expire =>
              rw [setTask_eq] at more
              exact absurd more (Nat.ne_of_lt (Nat.lt_succ_self _))
          | _ => exact absurd more (Nat.ne_of_lt (Nat.lt_succ_self _))
  have jobs : q.jobs = [] := by
    cases rule with
    | send active next => simp [sendsNothing _ active] at next
    | take _ next => simp [empty] at next
    | turn | sendTimeout | sendClosed | collect | collectTimeout =>
        rw [proceed_jobs]
        exact empty
    | act | ready | expire =>
        rw [setTask_eq]
        exact empty
    | _ => exact empty
  exact ⟨jobs, by simp [jobsClosed, rule.isShutdown late, rests]⟩

theorem Step.isQuitting (rule : Step x p event q) (staying : q.isQuitting = false) :
    p.isQuitting = false := by
  cases rule with
  | turn | send | sendTimeout | sendClosed | collect | collectTimeout =>
      rwa [proceed_isQuitting] at staying
  | take | act | ready | expire =>
      rw [setTask_eq] at staying
      exact staying
  | deadline => cases staying
  | _ => exact staying

/-- Events inside the pool neither begin a shutdown nor tell workers to quit. -/
theorem Step.flags (rule : Step x p event q) (inner : event.isInner = true) :
    q.isShutdown = p.isShutdown ∧ q.isQuitting = p.isQuitting := by
  cases rule with
  | turn | send | sendTimeout | sendClosed | collect | collectTimeout =>
      exact ⟨proceed_isShutdown, proceed_isQuitting⟩
  | take | act | ready | expire =>
      rw [setTask_eq]
      exact ⟨rfl, rfl⟩
  | submitEmpty | submitLate | submit | shutdown | deadline => cases inner
  | _ => exact ⟨rfl, rfl⟩

/-- A worker that has stopped has stopped before, or has found the job channel closed and empty, or
has been told to quit. -/
theorem Step.stopped {w : Worker W} (rule : Step x p event q) (member : w ∈ q.workers)
    (stopped : w.isStopped = true) :
    w ∈ p.workers ∨ p.jobs = [] ∧ p.jobsClosed = true ∨ p.isQuitting = true := by
  have among : ∀ {i : Nat} {new : Worker W}, w ∈ p.workers.set i new → w ∈ p.workers ∨ w = new :=
    fun there => List.mem_or_eq_of_mem_set there
  cases rule with
  | stop _ empty closed => exact Or.inr (Or.inl ⟨empty, closed⟩)
  | quit _ told => exact Or.inr (Or.inr told)
  | turn | send | sendTimeout | sendClosed | collect | collectTimeout =>
      rw [proceed_workers] at member
      exact Or.inl member
  | take | act | ready | expire =>
      rw [setTask_eq] at member
      rcases among member with old | rfl
      · exact Or.inl old
      · cases stopped
  | finish | deliver | giveUp =>
      rcases among member with old | rfl
      · exact Or.inl old
      · cases stopped
  | _ => exact Or.inl member

/-- The pool has workers, and one that has stopped without being told has found the job channel
closed and empty. -/
structure Stopping (p : Pool W) : Prop where
  manned : p.workers ≠ []
  found : p.isQuitting = false → ∀ w ∈ p.workers, w.isStopped = true →
    p.jobs = [] ∧ p.jobsClosed = true

theorem stopping_start {limits : PoolLimits} {size : Nat} {world : W} (some : size ≠ 0) :
    (start limits size world).Stopping where
  manned := fun none => some (by simpa [start] using none)
  found := by
    intro _ w member stopped
    cases List.eq_of_mem_replicate member
    cases stopped

theorem Stopping.step (stopping : p.Stopping) (rule : Step x p event q) : q.Stopping where
  manned := by
    rcases rule.stride with ⟨same, _⟩ | ⟨i, _, w', _, set, _⟩
    · exact same ▸ stopping.manned
    · intro none
      rw [set, List.set_eq_nil_iff] at none
      exact stopping.manned none
  found := by
    intro staying w member stopped
    have untold := rule.isQuitting staying
    obtain ⟨empty, closed⟩ : p.jobs = [] ∧ p.jobsClosed = true := by
      rcases rule.stopped member stopped with old | found | told
      · exact stopping.found untold w old stopped
      · exact found
      · cases untold.symm.trans told
    exact rule.closed empty closed

/-- Who has stopped stays so. -/
theorem Step.allStopped (rule : Step x p event q) (dead : p.allStopped = true) :
    q.allStopped = true := by
  have nobody : ∀ {i : Nat} {w : Worker W}, p.workers[i]? = some w → w.isStopped = true :=
    fun here => List.all_eq_true.mp dead _ (List.mem_of_getElem? here)
  cases rule with
  | turn | send | sendTimeout | sendClosed | collect | collectTimeout =>
      rw [Pool.allStopped, proceed_workers]
      exact dead
  | take here | act here | finish here | ready here | expire here | deliver here | giveUp here
  | stop here | quit here => cases nobody here
  | _ => exact dead

/-- Where all workers have stopped, and nobody was told to, everything that was accepted has been
run to its end, and nothing is in progress. -/
theorem Kept.drained (kept : Kept x entries p) (stopping : p.Stopping)
    (untold : p.isQuitting = false) (dead : p.allStopped = true) :
    accepted entries = (begun entries).map Prod.snd ∧ p.jobs = [] ∧ p.atWork = [] ∧
      ∀ i, begunBy entries i = endedBy entries i := by
  have stopped : ∀ w ∈ p.workers, w.isStopped = true := List.all_eq_true.mp dead
  have resting : ∀ w ∈ p.workers, w.run? = none ∧ w.envelope? = none := by
    intro w member
    obtain ⟨state, timer⟩ := w
    have := stopped _ member
    cases state with
    | stopped => exact ⟨rfl, rfl⟩
    | _ => cases this
  obtain ⟨w, member⟩ := List.exists_mem_of_ne_nil _ stopping.manned
  have empty := (stopping.found untold w member (stopped w member)).1
  refine ⟨?_, empty, ?_, ?_⟩
  · rw [kept.order, empty, List.append_nil]
  · exact List.filterMap_eq_nil_iff.mpr fun w member => (resting w member).2
  · intro i
    have none : p.runOf? i = none := Option.bind_eq_none_iff.mpr fun w here =>
      (resting w (List.mem_of_getElem? here)).1
    have shift := kept.shifts i
    rw [none] at shift
    rw [begunBy, shift.begun_eq, endedBy, Option.map_none, Option.toList_none, List.append_nil]

end JobQueue.Pool
