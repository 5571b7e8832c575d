/-
When all results of a batch are delivered.

Where work needs no time, a batch of records with different ids gets every result of its runs,
or not, by its length alone. Until its last record is sent a batch takes in no report; so at most
as many records can be on their way as the two channels and the workers hold (`room`). Up to that
number nothing is ever given up; beyond it a wait of the pool runs out in every course of events,
and a slot holds a timeout in place of a result (`inevitable_delivery`).
-/

import JobQueue.Proofs.Job.Course
import JobQueue.Proofs.Pool.Progress
import JobQueue.Proofs.Simulation.Scripts

namespace JobQueue.Pool

variable {W : Type} {x : Executor W} {p q : Pool W} {event : Event} {events : List Event}
  {s : Submission} {number : Nat} {unsent unsent' : List (Nat × JobRecord)}
  {ledger ledger' : Ledger} {fin : List (Envelope × JobResult)}

/-- The most records that can be on their way at once: both channels full and a report in the
hands of every worker. -/
def room (p : Pool W) : Nat := 2 * p.capacity + p.size

theorem length_held_le : p.atWork.length + p.inHand.length ≤ p.size := by
  rw [atWork, inHand, size]
  induction p.workers with
  | nil => simp
  | cons w rest ih =>
      obtain ⟨state, timer⟩ := w
      cases state <;>
        simp only [List.filterMap_cons, Worker.envelope?, Worker.report?, List.length_cons] <;>
        omega

theorem Advance.room_eq (advance : Advance x number unsent ledger p event unsent' ledger' q)
    (rule : Step x p event q) : q.room = p.room := by
  rw [room, room, rule.capacity_eq, advance.size_eq]

/-! ### Both channels stay within their bounds -/

/-- What is on its way fits into channels and workers. -/
structure Fits (records : List JobRecord) (unsent : List (Nat × JobRecord)) (ledger : Ledger)
    (p : Pool W) : Prop where
  jobs : p.jobs.length ≤ p.capacity
  reports : p.reports.length ≤ p.capacity
  /-- Before the last record is sent no report is taken in. -/
  unread : unsent ≠ [] → ledger.outstanding + unsent.length = records.length
  bound : records.length ≤ p.room + unsent.length

theorem Fits.step (fits : Fits s.records unsent ledger p)
    (lossless' : q.Lossless s.records number fin unsent' ledger') (rule : Step x p event q)
    (advance : Advance x number unsent ledger p event unsent' ledger' q)
    (calm : event.isCalm = true) : Fits s.records unsent' ledger' q := by
  have capacity := rule.capacity_eq
  have room := advance.room_eq rule
  obtain ⟨jobs, reports, unread, bound⟩ := fits
  cases advance with
  | sendTimeout | collectTimeout | giveUp => cases calm
  | send next space jobs' reports' =>
      have sent := unread (by simp [next])
      rw [next, List.length_cons] at sent
      have here : q.jobs.length ≤ q.capacity := by
        rw [jobs', List.length_append, List.length_singleton, capacity]
        omega
      have there : q.reports.length ≤ q.capacity := by
        rw [reports', capacity]
        exact reports
      refine ⟨here, there, ?_, ?_⟩
      · intro _
        simp only [Ledger.sent]
        omega
      · have even := lossless'.even
        have held := length_held_le (p := q)
        simp only [Ledger.sent, envelopes, outcomes, List.length_append] at even
        rw [Pool.room]
        omega
  | collect sentAll next jobs' reports' =>
      rw [next, List.length_cons] at reports
      refine ⟨by rw [jobs', capacity]; exact jobs, by rw [reports', capacity]; omega,
        fun more => absurd rfl more, ?_⟩
      rw [room, ← sentAll]
      exact bound
  | take _ next jobs' reports' =>
      rw [next, List.length_cons] at jobs
      exact ⟨by rw [jobs', capacity]; omega, by rw [reports', capacity]; exact reports, unread,
        room ▸ bound⟩
  | deliver _ space jobs' reports' =>
      refine ⟨by rw [jobs', capacity]; exact jobs, ?_, unread, room ▸ bound⟩
      rw [reports', capacity, List.length_append, List.length_singleton]
      exact space
  | act _ jobs' reports' | finish _ jobs' reports' | wake _ _ jobs' reports'
  | elapse jobs' reports' =>
      exact ⟨by rw [jobs', capacity]; exact jobs, by rw [reports', capacity]; exact reports,
        unread, room ▸ bound⟩

/-! ### Nobody has to wait while everything fits -/

/-- The tasks of the workers wait only where the limit of the wait is one that is allowed. -/
def WaitsOnly (allowed : Option Nat → Prop) (p : Pool W) : Prop :=
  ∀ w ∈ p.workers, ∀ e task, w.state = .busy e task → task.WaitsOnly allowed

variable {allowed : Option Nat → Prop}

theorem waitsOnly_set {i : Nat} {w : Worker W} (waits : p.WaitsOnly allowed)
    (workers : q.workers = p.workers.set i w)
    (new : ∀ e task, w.state = .busy e task → task.WaitsOnly allowed) : q.WaitsOnly allowed := by
  intro w' member
  rw [workers] at member
  rcases List.mem_or_eq_of_mem_set member with old | rfl
  · exact waits w' old
  · exact new

theorem WaitsOnly.step (waits : p.WaitsOnly allowed) (handlers : x.WaitsOnly allowed)
    (advance : Advance x number unsent ledger p event unsent' ledger' q) :
    q.WaitsOnly allowed := by
  cases advance with
  | send _ _ _ _ workers | sendTimeout _ _ _ workers | collect _ _ _ _ workers
  | collectTimeout _ _ _ _ workers | elapse _ _ workers =>
      intro w member
      exact waits w (workers ▸ member)
  | take _ _ _ _ workers =>
      apply waitsOnly_set waits workers
      intro e task state
      cases state
      exact Executor.waitsOnly_run handlers
  | act busy _ _ workers =>
      apply waitsOnly_set waits workers
      intro e task state
      cases state
      exact waits _ (List.mem_of_getElem? busy) _ _ rfl p.world
  | wake busy _ _ _ workers =>
      apply waitsOnly_set waits workers
      intro e task state
      cases state
      exact (waits _ (List.mem_of_getElem? busy) _ _ rfl).2 _
  | finish _ _ _ workers | deliver _ _ _ _ workers | giveUp _ _ _ workers =>
      exact waitsOnly_set waits workers fun e task state => by cases state

/-- No handler that a worker runs waits. -/
abbrev Prompt (p : Pool W) : Prop := p.WaitsOnly fun _ => False

theorem WaitsOnly.unwaiting (prompt : p.Prompt) : ∀ w ∈ p.workers, ∀ e ready limit next,
    w.state ≠ .busy e (.wait ready limit next) :=
  fun w member e _ _ _ busy => (prompt w member e _ busy).1

/-- Nobody is at work in a stuck pool, unless in a wait of its own. -/
theorem Stuck.atWork_eq_nil (stuck : Stuck x p)
    (unwaiting : ∀ w ∈ p.workers, ∀ e ready limit next,
      w.state ≠ .busy e (.wait ready limit next)) : p.atWork = [] := by
  apply List.filterMap_eq_nil_iff.mpr
  intro w member
  obtain ⟨i, here⟩ := List.mem_iff_getElem?.mp member
  obtain ⟨state, timer⟩ := w
  cases state with
  | busy e task =>
      cases task with
      | done _ => exact absurd (Step.finish here) (stuck.never rfl)
      | act _ _ => exact absurd (Step.act here) (stuck.never rfl)
      | wait ready limit next => exact absurd rfl (unwaiting _ member e ready limit next)
  | _ => rfl

/-- In a stuck pool whose batch is sent and that nobody is at work in, nothing is on its way. -/
theorem Stuck.nothing_left (stuck : Stuck x p) (serving : p.Serving s number [] ledger)
    (space : 0 < p.capacity) (free : p.atWork = [])
    {timer : Timer} (active : p.active = some ⟨s.ticket, number, [], ledger, timer⟩) :
    p.jobs = [] ∧ p.reports = [] ∧ p.inHand = [] := by
  have noReports : p.reports = [] := by
    cases reports : p.reports with
    | nil => rfl
    | cons report rest => exact absurd (Step.collect active rfl reports) (stuck.never rfl)
  have allIdle : ∀ w ∈ p.workers, w.state = .idle := by
    intro w member
    obtain ⟨i, here⟩ := List.mem_iff_getElem?.mp member
    have standing := serving.standing w member
    have unbusy := List.filterMap_eq_nil_iff.mp free w member
    obtain ⟨state, timer⟩ := w
    cases state with
    | idle => rfl
    | busy => simp at unbusy
    | reporting report =>
        refine absurd (Step.deliver here ?_) (stuck.never rfl)
        simpa [noReports] using space
    | stopped => cases standing
  refine ⟨?_, noReports, (holds_nothing allIdle).2⟩
  cases jobs : p.jobs with
  | nil => rfl
  | cons e rest =>
      obtain ⟨w, member⟩ := List.exists_mem_of_length_pos serving.manned
      obtain ⟨i, here⟩ := List.mem_iff_getElem?.mp member
      have idle : p.workers[i]? = some ⟨.idle, w.timer⟩ := by
        rw [here, ← allIdle w member]
      exact absurd (Step.take idle jobs) (stuck.never rfl)

/-- In a stuck pool whose batch is not sent yet and that nobody is at work in, both channels are
full and all workers hold reports. -/
theorem Stuck.all_full (stuck : Stuck x p) (serving : p.Serving s number unsent ledger)
    (fits : Fits s.records unsent ledger p) (space : 0 < p.capacity) (free : p.atWork = [])
    {timer : Timer} (active : p.active = some ⟨s.ticket, number, unsent, ledger, timer⟩)
    (left : unsent ≠ []) :
    p.jobs.length = p.capacity ∧ p.reports.length = p.capacity ∧ p.inHand.length = p.size := by
  obtain ⟨first, rest, left⟩ := List.exists_cons_of_ne_nil left
  have full : p.jobs.length = p.capacity := by
    refine Nat.le_antisymm fits.jobs (Nat.le_of_not_lt fun room => ?_)
    exact stuck.never rfl (Step.send active left room serving.not_allStopped)
  have allReporting : ∀ w ∈ p.workers, w.report?.isSome = true := by
    intro w member
    obtain ⟨i, here⟩ := List.mem_iff_getElem?.mp member
    have standing := serving.standing w member
    have unbusy := List.filterMap_eq_nil_iff.mp free w member
    obtain ⟨state, timer⟩ := w
    cases state with
    | idle =>
        cases jobs : p.jobs with
        | nil => simp [jobs] at full; omega
        | cons e rest => exact absurd (Step.take here jobs) (stuck.never rfl)
    | busy => simp at unbusy
    | reporting report => rfl
    | stopped => cases standing
  refine ⟨full, ?_, List.filterMap_length_eq_length.mpr allReporting⟩
  refine Nat.le_antisymm fits.reports (Nat.le_of_not_lt fun room => ?_)
  obtain ⟨w, member⟩ := List.exists_mem_of_length_pos serving.manned
  obtain ⟨i, here⟩ := List.mem_iff_getElem?.mp member
  have reporting := allReporting w member
  obtain ⟨state, timer⟩ := w
  cases state with
  | reporting report => exact stuck.never rfl (Step.deliver here room)
  | _ => cases reporting

/-- While all that is left of a batch fits, somebody can move, or waits within a run. -/
theorem Stuck.room_lt (stuck : Stuck x p) (serving : p.Serving s number unsent ledger)
    (lossless : p.Lossless s.records number fin unsent ledger)
    (fits : Fits s.records unsent ledger p)
    (unwaiting : ∀ w ∈ p.workers, ∀ e ready limit next, w.state ≠ .busy e (.wait ready limit next))
    (space : 0 < p.capacity) (unanswered : p.answerOf? s.ticket = none) :
    p.room < s.records.length := by
  obtain ⟨timer, active, busy⟩ : ∃ timer,
      p.active = some ⟨s.ticket, number, unsent, ledger, timer⟩ ∧
      ¬ (unsent = [] ∧ ledger.outstanding = 0) := by
    cases serving.place with
    | active active busy => exact ⟨_, active, busy⟩
    | answered _ _ _ answer => simp [answer .poolShutdown] at unanswered
  have free := stuck.atWork_eq_nil unwaiting
  have even := lossless.even
  simp only [envelopes, outcomes, List.length_append, free, List.length_nil] at even
  by_cases sentAll : unsent = []
  · subst sentAll
    obtain ⟨noJobs, noReports, noHand⟩ := stuck.nothing_left serving space free active
    rw [noJobs, noReports, noHand] at even
    exact absurd ⟨rfl, even⟩ busy
  · obtain ⟨jobs, reports, hands⟩ := stuck.all_full serving fits space free active sentAll
    have sent := fits.unread sentAll
    have left := List.length_pos_iff.mpr sentAll
    rw [room]
    omega

/-! ### No wait runs out while somebody can move -/

/-- No wait has run out. -/
def Undue (p : Pool W) : Prop := ∀ entry ∈ p.timers, p.now < entry.1.due

/-- All waits of a pool have a length. -/
def PoolLimits.Positive (limits : PoolLimits) : Prop :=
  0 < limits.send ∧ 0 < limits.result ∧ 0 < limits.resultSend

instance (limits : PoolLimits) : Decidable (PoolLimits.Positive limits) :=
  inferInstanceAs (Decidable (_ ∧ _ ∧ _))

theorem undue_proceed {b : Batch} {u : JobError} (positive : PoolLimits.Positive p.limits)
    (workers : ∀ i w entry, p.workers[i]? = some w → timerOf w i = some entry →
      p.now < entry.1.due) : (p.proceed b u).Undue := by
  intro entry set
  rw [proceed_now]
  rcases mem_timers_iff.mp set with ⟨b', active, rfl⟩ | ⟨i, w, here, timer⟩
  · by_cases done : isDone b
    · simp [proceed_of_done done] at active
    · rw [proceed_of_not_done done, Option.some.injEq] at active
      subst active
      have patience : 0 < p.patience b := by
        rw [patience]
        split
        · exact positive.2.1
        · exact positive.1
      show p.now < p.now + p.patience b * 1000
      omega
  · rw [proceed_workers] at here
    exact workers i w entry here timer

theorem undue_set {i : Nat} {w' : Worker W} (undue : p.Undue) (active : q.active = p.active)
    (now : q.now = p.now) (workers : q.workers = p.workers.set i w')
    (new : ∀ entry, timerOf w' i = some entry → p.now < entry.1.due) : q.Undue := by
  intro entry set
  rw [now]
  rcases mem_timers_iff.mp set with ⟨b, here, rfl⟩ | ⟨j, w, here, timer⟩
  · exact undue _ (mem_timers_iff.mpr (Or.inl ⟨b, active ▸ here, rfl⟩))
  · rw [workers, List.getElem?_set] at here
    split at here
    next same =>
      split at here
      · cases here
        exact new entry (same ▸ timer)
      · cases here
    next => exact undue _ (mem_timers_iff.mpr (Or.inr ⟨j, w, here, timer⟩))

/-- A worker that runs a prompt task waits for nothing. -/
theorem timerOf_prompt {e : Envelope} {task : Task W Ended} {i : Nat}
    (prompt : task.WaitsOnly fun _ => False) :
    timerOf ⟨.busy e task, p.timerFor task⟩ i = none := by
  cases task with
  | done _ => rfl
  | act _ _ => rfl
  | wait _ _ _ => exact prompt.1.elim

/-- What happens without a wait leaves no wait run out. -/
theorem Undue.step (undue : p.Undue) (rule : Step x p event q) (inner : event.isInner = true)
    (timed : ∀ millis, event ≠ .elapse millis) (positive : PoolLimits.Positive p.limits)
    (prompt : p.Prompt) (prompt' : q.Prompt) : q.Undue := by
  have workers : ∀ i w entry, p.workers[i]? = some w → timerOf w i = some entry →
      p.now < entry.1.due :=
    fun i w entry here timer => undue entry (mem_timers_iff.mpr (Or.inr ⟨i, w, here, timer⟩))
  have inside : ∀ {i : Nat} {w : Worker W}, p.workers[i]? = some w → i < p.workers.length :=
    fun here => (List.getElem?_eq_some_iff.mp here).1
  have goesOn : ∀ {i : Nat} {w : Worker W} {e : Envelope} {task : Task W Ended} {entry},
      p.workers[i]? = some w → q.workers = p.workers.set i ⟨.busy e task, p.timerFor task⟩ →
      timerOf ⟨.busy e task, p.timerFor task⟩ i = some entry → p.now < entry.1.due := by
    intro i w e task entry here set timer
    have member : (⟨.busy e task, p.timerFor task⟩ : Worker W) ∈ q.workers :=
      set ▸ List.mem_set (inside here) _
    rw [timerOf_prompt (prompt' _ member e task rfl)] at timer
    cases timer
  cases rule with
  | submitEmpty | submitLate | submit | shutdown | deadline => cases inner
  | elapse => exact absurd rfl (timed _)
  | turn | send | sendTimeout | sendClosed | collect | collectTimeout =>
      exact undue_proceed positive workers
  | reject free =>
      intro entry set
      rcases mem_timers_iff.mp set with ⟨b, active, _⟩ | ⟨i, w, here, timer⟩
      · exact absurd (free.symm.trans active) (by simp)
      · exact workers i w entry here timer
  | collectClosed =>
      intro entry set
      rcases mem_timers_iff.mp set with ⟨b, active, _⟩ | ⟨i, w, here, timer⟩
      · simp [answer] at active
      · exact workers i w entry here timer
  | take idle =>
      rw [setTask_eq] at goesOn ⊢
      exact undue_set undue rfl rfl rfl fun entry timer => goesOn idle rfl timer
  | act busy =>
      rw [setTask_eq] at goesOn ⊢
      exact undue_set undue rfl rfl rfl fun entry timer => goesOn busy rfl timer
  | finish =>
      refine undue_set undue rfl rfl rfl fun entry timer => ?_
      cases timer
      have := positive.2.2
      show p.now < p.now + p.limits.resultSend * 1000
      omega
  | ready busy | expire busy => exact (prompt _ (List.mem_of_getElem? busy) _ _ rfl).1.elim
  | deliver | giveUp | stop | quit =>
      exact undue_set undue rfl rfl rfl fun entry timer => by cases timer

/-! ### What is given up is missed -/

/-- Whether a result is a timeout that the pool gives a record in place of its own. -/
def IsTimeout (limits : PoolLimits) (r : JobRecord) (result : JobResult) : Prop :=
  result = .error (.enqueueTimeout r.id limits.send) ∨
    result = .error (.resultTimeout limits.result)

/-- A slot holds a timeout of the pool. -/
def HasTimeout (records : List JobRecord) (limits : PoolLimits)
    (slots : List (Option JobResult)) : Prop :=
  ∃ (i : Nat) (r : JobRecord) (result : JobResult), records[i]? = some r ∧
    slots[i]? = some (some result) ∧ IsTimeout limits r result

/-- A result has been replaced by a timeout, or will be: fewer things are on their way than the
batch waits for. -/
def Owing (records : List JobRecord) (limits : PoolLimits) (ledger : Ledger) (p : Pool W) : Prop :=
  HasTimeout records limits ledger.slots ∨
    p.envelopes.length + p.outcomes.length < ledger.outstanding

theorem HasTimeout.extends {records : List JobRecord} {limits : PoolLimits}
    (holds : HasTimeout records limits ledger.slots) (kept : ledger.Extends ledger') :
    HasTimeout records limits ledger'.slots := by
  obtain ⟨i, r, result, record, there, timeout⟩ := holds
  exact ⟨i, r, result, record, kept i result there, timeout⟩

/-- A record that is not sent in time gets a timeout. -/
theorem Serving.hasTimeout_refused {index : Nat} {r : JobRecord} {rest : List (Nat × JobRecord)}
    {limits : PoolLimits} (serving : p.Serving s number unsent ledger)
    (next : unsent = (index, r) :: rest) :
    HasTimeout s.records limits
      (ledger.refused index (.enqueueTimeout r.id limits.send)).slots := by
  have record := (serving.next next).2.1
  refine ⟨index, r, _, record, Ledger.fill_self ?_, Or.inl rfl⟩
  rw [serving.sound.size, List.length_map]
  exact (List.getElem?_eq_some_iff.mp record).1

/-- A report that does not come in time is replaced by a timeout. -/
theorem Serving.hasTimeout_expire {limits : PoolLimits} (serving : p.Serving s number unsent ledger)
    (outstanding : 0 < ledger.outstanding) :
    HasTimeout s.records limits (ledger.expire (.resultTimeout limits.result)).slots := by
  obtain ⟨i, pending, id, first, taken⟩ := serving.sound.takeFirst_of_outstanding outstanding
  have inside := (List.getElem?_eq_some_iff.mp (serving.sound.empty_of_takeFor taken)).1
  have record : i < s.records.length := by
    rw [← List.length_map JobRecord.id, ← serving.sound.size]
    exact inside
  refine ⟨i, _, _, List.getElem?_eq_getElem record, ?_, Or.inr rfl⟩
  rw [Ledger.expire, first]
  exact Ledger.fill_self inside

/-- No result is changed once it is there. -/
theorem Advance.extends (advance : Advance x number unsent ledger p event unsent' ledger' q)
    (serving : p.Serving s number unsent ledger) : ledger.Extends ledger' := by
  cases advance with
  | send => exact fun _ _ there => there
  | sendTimeout next =>
      have here := serving.next next
      have sound := serving.sound
      rw [← here.1] at sound
      exact sound.extends_refused (by simpa using (List.getElem?_eq_some_iff.mp here.2.1).1)
  | collect =>
      split
      · exact serving.sound.extends_receive
      · exact Ledger.Extends.refl _
  | collectTimeout => exact serving.sound.extends_expire
  | _ => exact Ledger.Extends.refl _

/-- Nothing comes onto its way that the batch does not wait for. -/
theorem Advance.flight_le (advance : Advance x number unsent ledger p event unsent' ledger' q)
    (kept : event ≠ .collectTimeout) :
    q.envelopes.length + q.outcomes.length + ledger.outstanding ≤
      p.envelopes.length + p.outcomes.length + ledger'.outstanding := by
  have unmoved : q.workers = p.workers → q.atWork = p.atWork ∧ q.inHand = p.inHand := by
    intro workers
    rw [atWork, atWork, inHand, inHand, workers]
    exact ⟨rfl, rfl⟩
  simp only [envelopes, outcomes, List.length_append]
  cases advance with
  | collectTimeout => exact absurd rfl kept
  | send _ _ jobs reports workers =>
      obtain ⟨atWork, inHand⟩ := unmoved workers
      simp only [jobs, reports, atWork, inHand, Ledger.sent, List.length_append,
        List.length_singleton]
      omega
  | sendTimeout _ jobs reports workers =>
      obtain ⟨atWork, inHand⟩ := unmoved workers
      simp only [jobs, reports, atWork, inHand, Ledger.refused]
      omega
  | elapse jobs reports workers =>
      obtain ⟨atWork, inHand⟩ := unmoved workers
      simp only [jobs, reports, atWork, inHand]
      omega
  | @collect _ report _ _ next jobs reports workers =>
      obtain ⟨atWork, inHand⟩ := unmoved workers
      have fewer : ledger.outstanding ≤ (if report.batch = number then
          ledger.receive report.jobId report.result else ledger).outstanding + 1 := by
        split
        · unfold Ledger.receive
          split
          · exact Nat.sub_le_iff_le_add.mp (Nat.le_refl _)
          · exact Nat.le_succ _
        · exact Nat.le_succ _
      simp only [jobs, reports, atWork, inHand, next, List.length_cons]
      omega
  | take here next jobs reports workers =>
      obtain ⟨_, _, old, new, old', new'⟩ := length_of_set here workers
      simp only [Worker.envelope?_idle, Worker.envelope?_busy, Worker.report?_idle,
        Worker.report?_busy, Option.toList_none, Option.toList_some, List.length_nil,
        List.length_singleton] at old new old' new'
      simp only [jobs, reports, next, List.length_cons]
      omega
  | act here jobs reports workers | wake here _ jobs reports workers =>
      obtain ⟨_, _, old, new, old', new'⟩ := length_of_set here workers
      simp only [Worker.envelope?_busy, Worker.report?_busy] at old new old' new'
      simp only [jobs, reports]
      omega
  | finish here jobs reports workers =>
      obtain ⟨_, _, old, new, old', new'⟩ := length_of_set here workers
      simp only [Worker.envelope?_busy, Worker.envelope?_reporting, Worker.report?_busy,
        Worker.report?_reporting, Option.toList_none, Option.toList_some, List.length_nil,
        List.length_singleton] at old new old' new'
      simp only [jobs, reports]
      omega
  | deliver here _ jobs reports workers =>
      obtain ⟨_, _, old, new, old', new'⟩ := length_of_set here workers
      simp only [Worker.envelope?_idle, Worker.envelope?_reporting, Worker.report?_idle,
        Worker.report?_reporting, Option.toList_none, Option.toList_some, List.length_nil,
        List.length_singleton] at old new old' new'
      simp only [jobs, reports, List.length_append, List.length_singleton]
      omega
  | giveUp here jobs reports workers =>
      obtain ⟨_, _, old, new, old', new'⟩ := length_of_set here workers
      simp only [Worker.envelope?_idle, Worker.envelope?_reporting, Worker.report?_idle,
        Worker.report?_reporting, Option.toList_none, Option.toList_some, List.length_nil,
        List.length_singleton] at old new old' new'
      simp only [jobs, reports]
      omega

/-- What is missed stays missed. -/
theorem Owing.step (owing : Owing s.records p.limits ledger p)
    (serving : p.Serving s number unsent ledger) (rule : Step x p event q)
    (advance : Advance x number unsent ledger p event unsent' ledger' q) :
    Owing s.records q.limits ledger' q := by
  rw [rule.limits_eq]
  rcases owing with holds | fewer
  · exact Or.inl (holds.extends (advance.extends serving))
  · by_cases timeout : event = .collectTimeout
    · subst timeout
      cases advance with
      | collectTimeout _ outstanding => exact Or.inl (serving.hasTimeout_expire outstanding)
      | wake _ woken => rcases woken with woken | woken <;> cases woken
    · have := advance.flight_le timeout
      exact Or.inr (by omega)

/-- Once a wait of the pool has run out, something is missed. -/
theorem Lossless.owing (lossless : p.Lossless s.records number fin unsent ledger)
    (serving : p.Serving s number unsent ledger) (rule : Step x p event q)
    (advance : Advance x number unsent ledger p event unsent' ledger' q)
    (lost : event.isCalm = false) : Owing s.records q.limits ledger' q := by
  rw [rule.limits_eq]
  have even := lossless.even
  cases advance with
  | sendTimeout next => exact Or.inl (serving.hasTimeout_refused next)
  | collectTimeout _ outstanding => exact Or.inl (serving.hasTimeout_expire outstanding)
  | giveUp here jobs reports workers =>
      obtain ⟨_, _, old, new, old', new'⟩ := length_of_set here workers
      simp only [Worker.envelope?_idle, Worker.envelope?_reporting, Worker.report?_idle,
        Worker.report?_reporting, Option.toList_none, Option.toList_some, List.length_nil,
        List.length_singleton] at old new old' new'
      apply Or.inr
      simp only [envelopes, outcomes, List.length_append, jobs, reports] at even ⊢
      omega
  | wake _ woken => rcases woken with rfl | rfl <;> cases lost
  | _ => cases lost

/-! ### The course of a batch -/

/-- A batch of which nothing has been lost after some events: it waits for its turn, or its turn
goes on. -/
inductive Whole (x : Executor W) (s : Submission) (p₀ : Pool W) (events : List Event)
    (p : Pool W) : Prop where
  | awaiting (awaiting : p.Awaiting s) (number : p.nextBatch = p₀.nextBatch)
      (none : p₀.finished x events = [])
  | serving {unsent : List (Nat × JobRecord)} {ledger : Ledger}
      (serving : p.Serving s p₀.nextBatch unsent ledger)
      (lossless : p.Lossless s.records p₀.nextBatch (p₀.finished x events) unsent ledger)
      (fits : Fits s.records unsent ledger p)

variable {p₀ : Pool W}

/-- A batch that has just been handed in is whole. -/
theorem Quiet.whole {records : List JobRecord} (quiet : p.Quiet) :
    Whole x ⟨p.nextTicket, records⟩ (p.submit records).2 [] (p.submit records).2 := by
  by_cases nonempty : records = []
  · subst nonempty
    have fresh : p.nextTicket ∉ p.answers.map Prod.fst := fun there =>
      Nat.lt_irrefl _ (quiet.ticketed.dated _ (List.mem_append_left _ there))
    have ticketed := quiet.ticketed.step (x := x) .submitEmpty
    have serving : (p.submit []).2.Serving ⟨p.nextTicket, []⟩ p.nextBatch [] (Ledger.start 0) := {
      early := quiet.early
      staying := quiet.staying
      standing := fun w member => by simp [Worker.isStopped, quiet.idle w member]
      manned := quiet.manned
      alone := quiet.alone
      ticketed := ticketed
      sound := Ledger.sound_start
      left := rfl
      place := .answered quiet.free rfl rfl fun e =>
        answerOf?_answer (p := { p with nextTicket := p.nextTicket + 1 }) fresh }
    refine .serving serving (lossless_start quiet.idle quiet.jobs quiet.reports) ?_
    exact ⟨by simp [Pool.submit, answer, quiet.jobs], by simp [Pool.submit, answer, quiet.reports],
      fun _ => rfl, Nat.zero_le _⟩
  · exact .awaiting (quiet.submit nonempty) rfl rfl

/-- Nothing is lost by an event that gives nothing up. -/
theorem Whole.step (whole : Whole x s p₀ events p) (run : p₀.replay x events = some p)
    (rule : Step x p event q) (calm : event.isCalm = true) (separate : Separate p.size s.records) :
    Whole x s p₀ (events ++ [event]) q := by
  have inner := Event.isInner_of_isCalm calm
  cases whole with
  | awaiting awaiting number none =>
      obtain ⟨_, workers, jobs, reports, unfinished, next⟩ := awaiting.step rule inner
      have finished : p₀.finished x (events ++ [event]) = [] := by
        rw [finished_snoc run, none, unfinished]
        rfl
      rcases next with ⟨_, awaiting', number'⟩ | ⟨_, serving⟩
      · exact .awaiting awaiting' (number'.trans number) finished
      · rw [number] at serving
        refine .serving serving ?_ ⟨by simp [jobs], by simp [reports], fun _ => ?_, ?_⟩
        · exact finished ▸ lossless_start (workers ▸ awaiting.idle) jobs reports
        · simp [Ledger.start, Accounts.length_indexed]
        · rw [Accounts.length_indexed]
          omega
  | serving serving lossless fits =>
      obtain ⟨unsent', ledger', serving', advance⟩ := serving.step rule inner
      have lossless' := lossless.step serving separate advance calm
      rw [← finished_snoc run] at lossless'
      exact .serving serving' lossless' (fits.step lossless' rule advance calm)

/-- The size of a pool is the same for good. -/
theorem Whole.size_eq (whole : Whole x s p₀ events p) (rule : Step x p event q)
    (inner : event.isInner = true) : q.size = p.size := by
  cases whole with
  | awaiting awaiting =>
      rw [Pool.size, Pool.size, (awaiting.step rule inner).2.1]
  | serving serving =>
      obtain ⟨_, _, _, advance⟩ := serving.step rule inner
      exact advance.size_eq

theorem Whole.waitsOnly (whole : Whole x s p₀ events p) (waits : p.WaitsOnly allowed)
    (handlers : x.WaitsOnly allowed) (rule : Step x p event q) (inner : event.isInner = true) :
    q.WaitsOnly allowed := by
  cases whole with
  | awaiting awaiting =>
      intro w member
      exact waits w ((awaiting.step rule inner).2.1 ▸ member)
  | serving serving =>
      obtain ⟨_, _, _, advance⟩ := serving.step rule inner
      exact waits.step handlers advance

/-- Where a batch stands after some events: nothing of it has been lost, or something has, since
it did not fit. -/
inductive Standing (x : Executor W) (s : Submission) (p₀ : Pool W) (events : List Event)
    (p : Pool W) : Prop where
  | whole (whole : Whole x s p₀ events p) (undue : s.records.length ≤ p₀.room → p.Undue)
      (calm : s.records.length ≤ p₀.room → ∀ event ∈ events, event.isCalm = true)
  | missed {unsent : List (Nat × JobRecord)} {ledger : Ledger}
      (serving : p.Serving s p₀.nextBatch unsent ledger)
      (owing : Owing s.records p₀.limits ledger p) (many : p₀.room < s.records.length)

/-- A pool that has gone on for some events with a batch whose handlers do not wait. -/
structure Going (x : Executor W) (s : Submission) (p₀ : Pool W) (events : List Event)
    (p : Pool W) : Prop where
  run : p₀.replay x events = some p
  limits : p.limits = p₀.limits
  capacity : p.capacity = p₀.capacity
  size : p.size = p₀.size
  prompt : p.Prompt
  standing : Standing x s p₀ events p

theorem Going.room_eq (going : Going x s p₀ events p) : p.room = p₀.room := by
  rw [room, room, going.capacity, going.size]

/-- Where no batch has its turn and all workers are idle, no wait is set. -/
theorem undue_of_idle (free : p.active = none) (idle : ∀ w ∈ p.workers, w.state = .idle) :
    p.Undue := by
  intro entry set
  rcases mem_timers_iff.mp set with ⟨b, active, _⟩ | ⟨i, w, here, timer⟩
  · exact absurd (free.symm.trans active) (by simp)
  · obtain ⟨state, set⟩ := w
    have none : state = .idle := idle _ (List.mem_of_getElem? here)
    subst none
    cases timer

theorem waitsOnly_of_idle (idle : ∀ w ∈ p.workers, w.state = .idle) : p.WaitsOnly allowed :=
  fun w member _ _ busy => by cases (idle w member).symm.trans busy

theorem isCalm_of_isMove (timeless : event.isMove = true) : event.isCalm = true := by
  cases event <;> first | rfl | cases timeless

theorem calm_snoc (before : ∀ event ∈ events, event.isCalm = true) (calm : event.isCalm = true) :
    ∀ other ∈ events ++ [event], other.isCalm = true := by
  intro other member
  rcases List.mem_append.mp member with old | new
  · exact before other old
  · exact List.mem_singleton.mp new ▸ calm

/-- While everything fits, no time passes during the turn of a batch. -/
theorem Whole.undue (whole : Whole x s p₀ events p) (undue : p.Undue) (prompt : p.Prompt)
    (prompt' : q.Prompt) (few : s.records.length ≤ p.room) (space : 0 < p.capacity)
    (positive : PoolLimits.Positive p.limits) (unanswered : p.answerOf? s.ticket = none)
    (ahead : Ahead x p event q) : q.Undue := by
  obtain ⟨rule, inner⟩ := ahead.rule
  have others : (∀ millis, event ≠ .elapse millis) → q.Undue := fun timed =>
    undue.step rule inner timed positive prompt prompt'
  cases whole with
  | awaiting awaiting =>
      obtain ⟨_, _, _, _, _, ⟨_, awaiting', _⟩ | ⟨rfl, _⟩⟩ := awaiting.step rule inner
      · exact undue_of_idle awaiting'.free awaiting'.idle
      · exact others fun _ same => by cases same
  | serving serving lossless fits =>
      apply others
      rintro millis rfl
      have many := ahead.of_elapse.1.room_lt serving lossless fits prompt.unwaiting space unanswered
      omega

theorem Going.step (going : Going x s p₀ events p) (handlers : x.Prompt)
    (positive : PoolLimits.Positive p₀.limits) (space : 0 < p₀.capacity)
    (different : (s.records.map JobRecord.id).Nodup)
    (unanswered : p.answerOf? s.ticket = none) (ahead : Ahead x p event q) :
    Going x s p₀ (events ++ [event]) q := by
  obtain ⟨rule, inner⟩ := ahead.rule
  have run := replay_snoc going.run rule
  have limits := rule.limits_eq.trans going.limits
  have capacity := rule.capacity_eq.trans going.capacity
  cases going.standing with
  | whole whole undue calm =>
      have size := (whole.size_eq rule inner).trans going.size
      have prompt := whole.waitsOnly going.prompt handlers rule inner
      refine ⟨run, limits, capacity, size, prompt, ?_⟩
      cases patient : event.isCalm with
      | true =>
          refine .whole (whole.step going.run rule patient (Or.inr different)) (fun few => ?_)
            fun few => calm_snoc (calm few) patient
          exact whole.undue (undue few) going.prompt prompt (going.room_eq ▸ few)
            (going.capacity ▸ space) (going.limits ▸ positive) unanswered ahead
      | false =>
          have many : p₀.room < s.records.length := by
            apply Nat.lt_of_not_le
            intro few
            cases ahead with
            | move timeless => simp [isCalm_of_isMove timeless] at patient
            | due set due => exact Nat.lt_irrefl _ (Nat.lt_of_lt_of_le (undue few _ set) due)
            | pass => cases patient
          cases whole with
          | awaiting awaiting =>
              obtain ⟨_, _, _, _, _, ⟨⟨_, rfl⟩, _⟩ | ⟨rfl, _⟩⟩ := awaiting.step rule inner <;>
                cases patient
          | serving serving lossless =>
              obtain ⟨unsent', ledger', serving', advance⟩ := serving.step rule inner
              exact .missed serving' (limits ▸ lossless.owing serving rule advance patient) many
  | missed serving owing many =>
      obtain ⟨unsent', ledger', serving', advance⟩ := serving.step rule inner
      refine ⟨run, limits, capacity, advance.size_eq.trans going.size,
        going.prompt.step handlers advance, ?_⟩
      rw [← going.limits] at owing
      exact .missed serving' (limits ▸ owing.step serving rule advance) many

/-- Nothing is on its way any more once nothing is outstanding. -/
theorem Lossless.settled {records : List JobRecord}
    (lossless : p.Lossless records number fin unsent ledger) (settled : ledger.outstanding = 0) :
    p.jobs = [] ∧ p.atWork = [] ∧ p.reports = [] ∧ p.inHand = [] := by
  have even := lossless.even
  simp only [settled, envelopes, outcomes, List.length_append] at even
  refine ⟨?_, ?_, ?_, ?_⟩ <;> exact List.eq_nil_of_length_eq_zero (by omega)

/-- Once nothing is outstanding, the runs of an id are those of its records, in their order. -/
theorem Lossless.ranOf_eq {records : List JobRecord} {id : String}
    (lossless : p.Lossless records number fin [] ledger) (settled : ledger.outstanding = 0) :
    ranOf id fin = records.filter fun r => r.id == id := by
  obtain ⟨noJobs, noWork, _, _⟩ := lossless.settled settled
  simpa [noJobs, noWork, recordsOf, unsentOf] using (lossless.runs id).symm

/-- Once nothing is outstanding, the results of an id are those in its slots, in their order. -/
theorem Lossless.gaveOf_eq {records : List JobRecord} {id : String}
    (lossless : p.Lossless records number fin [] ledger) (settled : ledger.outstanding = 0) :
    gaveOf id fin = Ledger.filledOf id (records.map JobRecord.id) ledger.slots := by
  obtain ⟨_, _, noReports, noHand⟩ := lossless.settled settled
  simpa [noReports, noHand, resultsOf] using lossless.results id

/-- Of a batch that is answered without a loss, every slot holds the result of its record's
run. -/
theorem Lossless.delivered {records : List JobRecord} {i : Nat} {r : JobRecord}
    (lossless : p.Lossless records number fin [] ledger)
    (sound : ledger.Sound (records.map JobRecord.id) records.length)
    (settled : ledger.outstanding = 0) (different : (records.map JobRecord.id).Nodup)
    (record : records[i]? = some r) :
    ∃ e result, e.record = r ∧ (e, result) ∈ fin ∧ ledger.slots[i]? = some (some result) := by
  have runs : records.filter (fun r' => r'.id == r.id) = ranOf r.id fin :=
    (lossless.ranOf_eq settled).symm
  have results : gaveOf r.id fin =
      Ledger.filledOf r.id (records.map JobRecord.id) ledger.slots := lossless.gaveOf_eq settled
  have tag : (records.map JobRecord.id)[i]? = some r.id := by simp [record]
  rw [← List.length_map JobRecord.id] at sound
  obtain ⟨result, there⟩ := sound.filled_of_settled settled (List.getElem?_eq_some_iff.mp tag).1
  have ran : r ∈ ranOf r.id fin := by
    rw [← runs, List.mem_filter]
    exact ⟨List.mem_of_getElem? record, by simp⟩
  have gave : result ∈ gaveOf r.id fin := by
    rw [results, Ledger.filledOf, List.mem_filterMap]
    exact ⟨(r.id, some result), List.mem_of_getElem? (List.getElem?_zip_eq_some.mpr ⟨tag, there⟩),
      by simp⟩
  obtain ⟨entry, member, same, holds⟩ := mem_underId.mp ran
  obtain ⟨entry', member', same', holds'⟩ := mem_underId.mp gave
  -- The id is named once, so it is one run that has the record and the result.
  have once : (fin.filter fun entry => entry.1.record.id == r.id).length ≤ 1 := by
    have le : (underId JobRecord.id (fun r => r) r.id records).length ≤ 1 :=
      length_underId_le_one different
    rw [underId, List.length_map, runs, ranOf, underId, List.length_map] at le
    exact le
  have one : entry = entry' := by
    have here : entry ∈ fin.filter fun entry => entry.1.record.id == r.id :=
      List.mem_filter.mpr ⟨member, by simp [same]⟩
    have here' : entry' ∈ fin.filter fun entry => entry.1.record.id == r.id :=
      List.mem_filter.mpr ⟨member', by simp [same']⟩
    revert once here here'
    cases fin.filter fun entry => entry.1.record.id == r.id with
    | nil => simp
    | cons first rest =>
        intro once here here'
        have none : rest = [] := List.eq_nil_of_length_eq_zero (by simpa using once)
        simp only [none, List.mem_singleton] at here here'
        exact here.trans here'.symm
  exact ⟨entry.1, entry.2, holds, member, by rw [one, holds']; exact there⟩

/-- How a batch has been answered that has gone on with prompt handlers. -/
theorem Going.delivered {results : List JobResult} (going : Going x s p₀ events p)
    (different : (s.records.map JobRecord.id).Nodup)
    (answered : p.answerOf? s.ticket = some results) :
    results.length = s.records.length ∧
      (s.records.length ≤ p₀.room → (∀ event ∈ events, event.isCalm = true) ∧
        ∀ (i : Nat) (r : JobRecord), s.records[i]? = some r → ∃ e result, e.record = r ∧
          (e, result) ∈ p₀.finished x events ∧ results[i]? = some result) ∧
      (p₀.room < s.records.length → ∃ (i : Nat) (r : JobRecord) (result : JobResult),
        s.records[i]? = some r ∧ results[i]? = some result ∧ IsTimeout p₀.limits r result) := by
  cases going.standing with
  | whole whole _ calm =>
      cases whole with
      | awaiting awaiting => simp [answerOf?_eq_none awaiting.fresh] at answered
      | @serving unsent ledger serving lossless fits =>
          obtain ⟨_, sentAll, settled, same⟩ := serving.of_answered answered
          subst sentAll
          have sound := serving.sound
          have fit := fits.bound
          rw [going.room_eq] at fit
          refine ⟨?_, fun few => ⟨calm few, fun i r record => ?_⟩, fun many => ?_⟩
          · rw [same .poolShutdown, Ledger.length_finish, sound.size, List.length_map]
          · obtain ⟨e, result, holds, member, there⟩ :=
              lossless.delivered sound settled different record
            refine ⟨e, result, holds, member, ?_⟩
            rw [same .poolShutdown]
            exact Ledger.getElem?_finish there
          · simp only [List.length_nil] at fit
            omega
  | @missed unsent ledger serving owing many =>
      obtain ⟨_, sentAll, settled, same⟩ := serving.of_answered answered
      refine ⟨?_, fun few => absurd few (Nat.not_le_of_lt many), ?_⟩
      · rw [same .poolShutdown, Ledger.length_finish, serving.sound.size, List.length_map]
      · intro _
        rcases owing with ⟨i, r, result, record, there, timeout⟩ | fewer
        · refine ⟨i, r, result, record, ?_, timeout⟩
          rw [same .poolShutdown]
          exact Ledger.getElem?_finish there
        · omega

/-- A batch that is handed in goes on with prompt handlers until it is answered. -/
theorem Quiet.inevitable_going {records : List JobRecord} (quiet : p.Quiet) (handlers : x.Prompt)
    (space : 0 < p.capacity) (positive : PoolLimits.Positive p.limits)
    (different : (records.map JobRecord.id).Nodup) :
    Inevitable x (fun events q =>
      Going x ⟨p.nextTicket, records⟩ (p.submit records).2 events q ∧
        ∃ results, q.answerOf? p.nextTicket = some results) [] (p.submit records).2 := by
  obtain ⟨limits, capacity, workers, _, active⟩ := submit_frame p records
  have whole : Whole x ⟨p.nextTicket, records⟩ (p.submit records).2 [] (p.submit records).2 :=
    quiet.whole
  generalize (p.submit records).2 = p₀ at *
  have idle : ∀ w ∈ p₀.workers, w.state = .idle := workers ▸ quiet.idle
  have start : Going x ⟨p.nextTicket, records⟩ p₀ [] p₀ :=
    ⟨rfl, rfl, rfl, rfl, waitsOnly_of_idle idle,
      .whole whole (fun _ => undue_of_idle (active.trans quiet.free) idle) (by simp)⟩
  have phase : ∀ es q, Going x ⟨p.nextTicket, records⟩ p₀ es q →
      q.Awaiting ⟨p.nextTicket, records⟩ ∨
        ∃ number unsent ledger, q.Serving ⟨p.nextTicket, records⟩ number unsent ledger := by
    intro es q going
    cases going.standing with
    | whole whole =>
        cases whole with
        | awaiting awaiting => exact Or.inl awaiting
        | serving serving => exact Or.inr ⟨_, _, _, serving⟩
    | missed serving => exact Or.inr ⟨_, _, _, serving⟩
  exact inevitable_of_invariant (x := x) ⟨p.nextTicket, records⟩ _ phase
    (fun es q event q' going unanswered ahead =>
      going.step handlers (limits ▸ positive) (capacity ▸ space) different unanswered ahead) start

/-- Where neither handlers nor stores make anybody wait, a pool that is handed a batch of records
with different ids is bound to answer it with one result for each record. If the records fit into
the channels and the hands of the workers, no wait runs out and every slot holds the result of
its record's run. If they do not, a slot holds a timeout of the pool. -/
theorem inevitable_delivery (x : Executor W) (p : Pool W) (records : List JobRecord)
    (handlers : x.Prompt) (quiet : p.Quiet) (space : 0 < p.capacity)
    (positive : PoolLimits.Positive p.limits) (different : (records.map JobRecord.id).Nodup) :
    Inevitable x (fun events q => ∃ results, q.answerOf? p.nextTicket = some results ∧
      results.length = records.length ∧
      (records.length ≤ p.room → (∀ event ∈ events, event.isCalm = true) ∧
        ∀ (i : Nat) (r : JobRecord), records[i]? = some r → ∃ e result, e.record = r ∧
          (e, result) ∈ (p.submit records).2.finished x events ∧ results[i]? = some result) ∧
      (p.room < records.length → ∃ (i : Nat) (r : JobRecord) (result : JobResult),
        records[i]? = some r ∧ results[i]? = some result ∧ IsTimeout p.limits r result))
      [] (p.submit records).2 := by
  obtain ⟨limits, capacity, workers, _, _⟩ := submit_frame p records
  have room : (p.submit records).2.room = p.room := by
    rw [Pool.room, Pool.room, capacity, Pool.size, workers]
    rfl
  apply (quiet.inevitable_going handlers space positive different).mono
  rintro events q ⟨going, results, answered⟩
  have delivered := going.delivered different answered
  rw [room, limits] at delivered
  exact ⟨results, answered, delivered⟩

open Simulation in
/-- Two easy jobs fit into a pool of one worker: it answers each with what its run came to. -/
theorem inevitable_delivery_pair :
    Inevitable easyExecutor (fun events q => ∃ first second e e' : _,
      q.answerOf? 0 = some [first, second] ∧ (∀ event ∈ events, event.isCalm = true) ∧
      ((e, first) ∈ ((start ⟨30, 300, 10⟩ 1 (World.still (easyJobs ["a", "b"]))).submit
          (easyJobs ["a", "b"])).2.finished easyExecutor events ∧ e.record.id = "a") ∧
      ((e', second) ∈ ((start ⟨30, 300, 10⟩ 1 (World.still (easyJobs ["a", "b"]))).submit
          (easyJobs ["a", "b"])).2.finished easyExecutor events ∧ e'.record.id = "b"))
      [] ((start ⟨30, 300, 10⟩ 1 (World.still (easyJobs ["a", "b"]))).submit
        (easyJobs ["a", "b"])).2 := by
  refine (inevitable_delivery easyExecutor (start ⟨30, 300, 10⟩ 1 _) (easyJobs ["a", "b"])
    easyExecutor_prompt (quiet_start (by decide)) (by decide) (by decide) (by decide)).mono ?_
  rintro events q ⟨results, answered, many, fits, _⟩
  obtain ⟨calm, filled⟩ := fits (by decide)
  obtain ⟨e, first, holds, ran, there⟩ := filled 0 _ rfl
  obtain ⟨e', second, holds', ran', there'⟩ := filled 1 _ rfl
  have same : results = [first, second] := by
    rcases results with _ | ⟨a, _ | ⟨b, _ | ⟨c, rest⟩⟩⟩
    · cases many
    · cases many
    · cases there
      cases there'
      rfl
    · simp [easyJobs] at many
  exact ⟨first, second, e, e', same ▸ answered, calm, ⟨ran, by rw [holds]; rfl⟩,
    ⟨ran', by rw [holds']; rfl⟩⟩

/-- The ids of 22 jobs. -/
def letters : List String :=
  ["a", "b", "c", "d", "e", "f", "g", "h", "i", "j", "k", "l", "m", "n", "o", "p", "q", "r", "s",
    "t", "u", "v"]

open Simulation in
/-- With one worker 22 easy jobs are one too many: however the pool goes on, in the answer a
timeout of the pool takes the place of a result. -/
theorem timeout_among_letters :
    Inevitable easyExecutor (fun _ q => ∃ (results : List JobResult) (i : Nat) (r : JobRecord)
      (result : JobResult), q.answerOf? 0 = some results ∧ (easyJobs letters)[i]? = some r ∧
        results[i]? = some result ∧ IsTimeout ⟨30, 300, 10⟩ r result)
      [] ((start ⟨30, 300, 10⟩ 1 (World.still (easyJobs letters))).submit
        (easyJobs letters)).2 := by
  have different : ((easyJobs letters).map JobRecord.id).Nodup := by decide
  refine ((quiet_start (by decide)).inevitable_going easyExecutor_prompt (by decide) (by decide)
    different).mono ?_
  rintro events q ⟨going, results, answered⟩
  obtain ⟨i, r, result, record, there, timeout⟩ :=
    (going.delivered different answered).2.2 (by decide)
  exact ⟨results, i, r, result, answered, record, there, timeout⟩

end JobQueue.Pool
