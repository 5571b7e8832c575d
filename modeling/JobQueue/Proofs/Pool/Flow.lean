/-
What flows through a pool.

A record travels in an envelope, through the job channel and a worker, until its run ends; then
its report travels, from the worker through the report channel to the batch. Each event moves at
most one of these things (`Step.flow`): a record is put in, a run is turned into its report, or a
report is taken out.

Two facts follow by induction on runs. What travels in a pool carries the number of a batch that
has had its turn (`Dated`). And what carries the number of one batch comes from the records of
that batch and, if it is a report, from a run that ended during the batch (`Sourced`).
-/

import JobQueue.Proofs.Pool.Steps
import Mathlib.Data.List.Perm.Basic

namespace JobQueue

variable {W : Type}

/-- The envelope that a worker works on. -/
def Worker.envelope? (w : Worker W) : Option Envelope :=
  match w.state with
  | .busy e _ => some e
  | _ => none

/-- The report that a worker wants to hand in. -/
def Worker.report? (w : Worker W) : Option Report :=
  match w.state with
  | .reporting report => some report
  | _ => none

section Views

variable {timer : Option Timer} {e : Envelope} {task : Task W Ended} {report : Report}

@[simp] theorem Worker.envelope?_idle : (Worker.mk (W := W) .idle timer).envelope? = none := rfl

@[simp] theorem Worker.envelope?_busy : (Worker.mk (.busy e task) timer).envelope? = some e := rfl

@[simp] theorem Worker.envelope?_reporting :
    (Worker.mk (W := W) (.reporting report) timer).envelope? = none := rfl

@[simp] theorem Worker.envelope?_stopped :
    (Worker.mk (W := W) .stopped timer).envelope? = none := rfl

@[simp] theorem Worker.report?_idle : (Worker.mk (W := W) .idle timer).report? = none := rfl

@[simp] theorem Worker.report?_busy : (Worker.mk (.busy e task) timer).report? = none := rfl

@[simp] theorem Worker.report?_reporting :
    (Worker.mk (W := W) (.reporting report) timer).report? = some report := rfl

@[simp] theorem Worker.report?_stopped :
    (Worker.mk (W := W) .stopped timer).report? = none := rfl

end Views

namespace Pool

/-- The envelopes that workers work on. -/
def atWork (p : Pool W) : List Envelope := p.workers.filterMap Worker.envelope?

/-- The reports that workers want to hand in. -/
def inHand (p : Pool W) : List Report := p.workers.filterMap Worker.report?

/-- The envelopes whose runs have not ended. -/
def envelopes (p : Pool W) : List Envelope := p.jobs ++ p.atWork

/-- The reports that the batch has not taken. -/
def outcomes (p : Pool W) : List Report := p.reports ++ p.inHand

variable {x : Executor W} {p q : Pool W} {event : Event} {events : List Event} {i : Nat}

/-- A worker among the others: changing it leaves them where they are. -/
theorem exists_others {α : Type} {ws : List α} {w : α} (here : ws[i]? = some w) :
    ∃ before after, ws = before ++ w :: after ∧ ∀ w', ws.set i w' = before ++ w' :: after := by
  obtain ⟨inside, rfl⟩ := List.getElem?_eq_some_iff.mp here
  refine ⟨ws.take i, ws.drop (i + 1), ?_, ?_⟩
  · rw [List.getElem_cons_drop, List.take_append_drop]
  · intro w'
    rw [List.set_eq_take_append_cons_drop, if_pos inside]

/-- What the workers hold, with what one of them holds in front. -/
theorem perm_filterMap_set {α β : Type} {ws : List α} {w : α} (f : α → Option β)
    (here : ws[i]? = some w) : ∃ others, (ws.filterMap f).Perm ((f w).toList ++ others) ∧
      ∀ w', ((ws.set i w').filterMap f).Perm ((f w').toList ++ others) := by
  obtain ⟨before, after, split, set⟩ := exists_others here
  have front : ∀ v, ((before ++ v :: after).filterMap f).Perm
      ((f v).toList ++ (before ++ after).filterMap f) := by
    intro v
    cases held : f v with
    | none => simp [held]
    | some b =>
        simp only [List.filterMap_append, List.filterMap_cons, held, Option.toList_some]
        exact List.perm_middle
  refine ⟨(before ++ after).filterMap f, ?_, ?_⟩
  · rw [split]
    exact front w
  · intro w'
    rw [set]
    exact front w'

/-- How an event moves envelopes and reports. -/
inductive Flow (p : Pool W) (event : Event) (q : Pool W) : Prop where
  | sent {b : Batch} {index : Nat} {r : JobRecord} {rest : List (Nat × JobRecord)}
      (active : p.active = some b) (next : b.unsent = (index, r) :: rest)
      (unfinished : p.finish? event = none)
      (envelopes : q.envelopes.Perm (⟨b.number, r⟩ :: p.envelopes))
      (outcomes : q.outcomes.Perm p.outcomes)
  | ended {e : Envelope} {result : JobResult} (finished : p.finish? event = some (e, result))
      (envelopes : p.envelopes.Perm (e :: q.envelopes))
      (outcomes : q.outcomes.Perm (⟨e.batch, e.record.id, result⟩ :: p.outcomes))
  | removed {report : Report} (unfinished : p.finish? event = none)
      (envelopes : q.envelopes.Perm p.envelopes)
      (outcomes : p.outcomes.Perm (report :: q.outcomes))
  | kept (unfinished : p.finish? event = none) (envelopes : q.envelopes.Perm p.envelopes)
      (outcomes : q.outcomes.Perm p.outcomes)

/-- What a change of one worker does to what travels. -/
private theorem perm_of_set {w w' : Worker W} (here : p.workers[i]? = some w)
    (workers : q.workers = p.workers.set i w') : ∃ atWork inHand,
      p.envelopes.Perm (w.envelope?.toList ++ (p.jobs ++ atWork)) ∧
      q.envelopes.Perm (w'.envelope?.toList ++ (q.jobs ++ atWork)) ∧
      p.outcomes.Perm (w.report?.toList ++ (p.reports ++ inHand)) ∧
      q.outcomes.Perm (w'.report?.toList ++ (q.reports ++ inHand)) := by
  obtain ⟨atWork, old, new⟩ := perm_filterMap_set Worker.envelope? here
  obtain ⟨inHand, old', new'⟩ := perm_filterMap_set Worker.report? here
  have front : ∀ {α : Type} {all channel held others : List α}, all.Perm (held ++ others) →
      (channel ++ all).Perm (held ++ (channel ++ others)) := by
    intro α all channel held others perm
    have comm : (channel ++ held).Perm (held ++ channel) := List.perm_append_comm
    have swapped := comm.append_right others
    rw [List.append_assoc, List.append_assoc] at swapped
    exact (perm.append_left channel).trans swapped
  refine ⟨atWork, inHand, front old, ?_, front old', ?_⟩
  · rw [envelopes, Pool.atWork, workers]
    exact front (new w')
  · rw [outcomes, Pool.inHand, workers]
    exact front (new' w')

/-- A worker that holds the same things before and after an event moves nothing. -/
private theorem kept_of_set {w w' : Worker W} (here : p.workers[i]? = some w)
    (unfinished : p.finish? event = none) (jobs : q.jobs = p.jobs)
    (reports : q.reports = p.reports) (workers : q.workers = p.workers.set i w')
    (envelope : w'.envelope? = w.envelope?) (report : w'.report? = w.report?) :
    Flow p event q := by
  obtain ⟨_, _, old, new, old', new'⟩ := perm_of_set here workers
  rw [jobs, envelope] at new
  rw [reports, report] at new'
  exact Flow.kept unfinished (new.trans old.symm) (new'.trans old'.symm)

theorem Step.flow (rule : Step x p event q) : Flow p event q := by
  cases rule with
  | submitEmpty => exact Flow.kept rfl (List.Perm.refl _) (List.Perm.refl _)
  | submitLate => exact Flow.kept rfl (List.Perm.refl _) (List.Perm.refl _)
  | submit => exact Flow.kept rfl (List.Perm.refl _) (List.Perm.refl _)
  | reject => exact Flow.kept rfl (List.Perm.refl _) (List.Perm.refl _)
  | turn => exact Flow.kept rfl (by simp [envelopes, atWork]) (by simp [outcomes, inHand])
  | send active next =>
      refine Flow.sent active next rfl ?_ (by simp [outcomes, inHand])
      simp only [envelopes, atWork, proceed_jobs, proceed_workers, List.append_assoc]
      exact List.perm_middle
  | sendTimeout => exact Flow.kept rfl (by simp [envelopes, atWork]) (by simp [outcomes, inHand])
  | sendClosed => exact Flow.kept rfl (by simp [envelopes, atWork]) (by simp [outcomes, inHand])
  | @collect _ report rest _ _ next =>
      have taken : p.outcomes.Perm (report :: (rest ++ p.inHand)) := by simp [outcomes, next]
      exact Flow.removed rfl (by simp [envelopes, atWork]) (by simpa [outcomes, inHand] using taken)
  | collectTimeout =>
      exact Flow.kept rfl (by simp [envelopes, atWork]) (by simp [outcomes, inHand])
  | collectClosed => exact Flow.kept rfl (List.Perm.refl _) (List.Perm.refl _)
  | take idle next =>
      rw [setTask_eq]
      obtain ⟨_, _, old, new, old', new'⟩ := perm_of_set (q := Pool.mk ..) idle rfl
      rw [next] at old
      exact Flow.kept rfl (new.trans old.symm) (new'.trans old'.symm)
  | act busy =>
      rw [setTask_eq]
      exact kept_of_set busy (by simp [finish?, workerState?, busy]) rfl rfl rfl rfl rfl
  | @finish _ _ e ended busy =>
      obtain ⟨_, _, old, new, old', new'⟩ :=
        perm_of_set (q := setWorker { p with order := p.order + 1 } _
          (.reporting ⟨e.batch, e.record.id, resultOf ended⟩)
          (some ⟨p.now + p.limits.resultSend * 1000, p.order⟩)) busy rfl
      exact Flow.ended (by simp [finish?, workerState?, busy]) (old.trans (new.symm.cons _))
        (new'.trans (old'.symm.cons _))
  | ready busy =>
      rw [setTask_eq]
      exact kept_of_set busy rfl rfl rfl rfl rfl rfl
  | expire busy =>
      rw [setTask_eq]
      exact kept_of_set busy rfl rfl rfl rfl rfl rfl
  | @deliver _ _ report reporting =>
      obtain ⟨_, _, old, new, old', new'⟩ :=
        perm_of_set (q := setWorker { p with reports := p.reports ++ [report] } ..) reporting rfl
      have behind : ∀ others, (p.reports ++ [report] ++ others).Perm
          (report :: (p.reports ++ others)) := by simp
      exact Flow.kept rfl (new.trans old.symm) ((new'.trans (behind _)).trans old'.symm)
  | giveUp reporting =>
      obtain ⟨_, _, old, new, old', new'⟩ := perm_of_set (q := setWorker ..) reporting rfl
      exact Flow.removed rfl (new.trans old.symm) (old'.trans (new'.symm.cons _))
  | stop idle => exact kept_of_set idle rfl rfl rfl rfl rfl rfl
  | quit idle => exact kept_of_set idle rfl rfl rfl rfl rfl rfl
  | shutdown => exact Flow.kept rfl (List.Perm.refl _) (List.Perm.refl _)
  | deadline => exact Flow.kept rfl (List.Perm.refl _) (List.Perm.refl _)
  | elapse => exact Flow.kept rfl (List.Perm.refl _) (List.Perm.refl _)

/-! ### The numbers of batches -/

theorem unsent_collect {b : Batch} {report : Report} :
    (b.collect report).ticket = b.ticket ∧ (b.collect report).number = b.number ∧
      (b.collect report).unsent = b.unsent := by
  unfold Batch.collect
  split <;> exact ⟨rfl, rfl, rfl⟩

/-- The batch after an event is the batch before it, with no more left to send, or one that has
just got its turn. -/
theorem Step.active_eq_some {b' : Batch} (rule : Step x p event q) (active : q.active = some b') :
    (∃ b, p.active = some b ∧ b'.ticket = b.ticket ∧ b'.number = b.number ∧
      b'.unsent ⊆ b.unsent ∧ q.nextBatch = p.nextBatch) ∨
    (∃ s rest, p.active = none ∧ p.waiting = s :: rest ∧ b'.ticket = s.ticket ∧
      b'.number = p.nextBatch ∧ b'.unsent = indexed s.records ∧
      q.nextBatch = p.nextBatch + 1) := by
  by_cases other : event.isOfBatch = false
  · obtain ⟨same, number⟩ := rule.aside other
    exact Or.inl ⟨b', same ▸ active, rfl, rfl, List.Subset.refl _, number⟩
  · cases rule with
    | reject free => exact absurd (free.symm.trans active) (by simp)
    | @turn s rest free next =>
        obtain ⟨_, ticket, number, unsent, _⟩ := of_proceed_active active
        exact Or.inr ⟨s, rest, free, next, ticket, number, unsent, by simp⟩
    | @send b _ _ _ before next | @sendTimeout b _ _ _ before next
    | @sendClosed b _ _ _ before next =>
        obtain ⟨_, ticket, number, unsent, _⟩ := of_proceed_active active
        exact Or.inl ⟨b, before, ticket, number, by simp [unsent, next], by simp⟩
    | @collect b report _ before =>
        obtain ⟨_, ticket, number, unsent, _⟩ := of_proceed_active active
        obtain ⟨sameTicket, sameNumber, sameUnsent⟩ : (b.collect report).ticket = _ ∧ _ :=
          unsent_collect
        rw [sameUnsent] at unsent
        exact Or.inl ⟨b, before, ticket.trans sameTicket, number.trans sameNumber,
          unsent ▸ List.Subset.refl _, by simp⟩
    | @collectTimeout b before =>
        obtain ⟨_, ticket, number, unsent, _⟩ := of_proceed_active active
        exact Or.inl ⟨b, before, ticket, number, unsent ▸ List.Subset.refl _, by simp⟩
    | collectClosed => exact absurd active (by simp [answer])
    | _ => exact absurd rfl other

theorem Step.nextBatch_le (rule : Step x p event q) : p.nextBatch ≤ q.nextBatch := by
  by_cases other : event.isOfBatch = false
  · exact Nat.le_of_eq (rule.aside other).2.symm
  · cases rule with
    | turn =>
        rw [proceed_nextBatch]
        exact Nat.le_succ _
    | reject | collectClosed => exact Nat.le_refl _
    | send | sendTimeout | sendClosed | collect | collectTimeout => simp
    | _ => exact absurd rfl other

/-- What travels in a pool carries the number of a batch that has had its turn. -/
structure Dated (p : Pool W) : Prop where
  envelopes : ∀ e ∈ p.envelopes, e.batch < p.nextBatch
  outcomes : ∀ report ∈ p.outcomes, report.batch < p.nextBatch
  active : ∀ b, p.active = some b → b.number < p.nextBatch

theorem dated_start {limits : PoolLimits} {size : Nat} {world : W} :
    (start limits size world).Dated where
  envelopes := by simp [start, Pool.envelopes, atWork, List.filterMap_replicate]
  outcomes := by simp [start, Pool.outcomes, inHand, List.filterMap_replicate]
  active := by simp [start]

theorem Dated.step (dated : p.Dated) (rule : Step x p event q) : q.Dated := by
  have later := rule.nextBatch_le
  have active : ∀ b, q.active = some b → b.number < q.nextBatch := by
    intro b' after
    rcases rule.active_eq_some after with
      ⟨b, before, _, number, _, _⟩ | ⟨s, rest, _, _, _, number, _, next⟩
    · have := dated.active b before
      omega
    · omega
  have envelope : ∀ e ∈ p.envelopes, e.batch < q.nextBatch :=
    fun e there => Nat.lt_of_lt_of_le (dated.envelopes e there) later
  have outcome : ∀ report ∈ p.outcomes, report.batch < q.nextBatch :=
    fun report there => Nat.lt_of_lt_of_le (dated.outcomes report there) later
  cases rule.flow with
  | @sent b index r rest before next _ envelopes outcomes =>
      refine ⟨?_, fun report there => outcome report (outcomes.subset there), active⟩
      intro e there
      rcases List.mem_cons.mp (envelopes.subset there) with rfl | old
      · exact Nat.lt_of_lt_of_le (dated.active b before) later
      · exact envelope e old
  | @ended e result _ envelopes outcomes =>
      refine ⟨fun e there => envelope e (envelopes.symm.subset (List.mem_cons_of_mem _ there)),
        fun report there => ?_, active⟩
      rcases List.mem_cons.mp (outcomes.subset there) with rfl | old
      · exact envelope e (envelopes.symm.subset List.mem_cons_self)
      · exact outcome report old
  | removed _ envelopes outcomes =>
      exact ⟨fun e there => envelope e (envelopes.subset there),
        fun report there => outcome report (outcomes.symm.subset (List.mem_cons_of_mem _ there)),
        active⟩
  | kept _ envelopes outcomes =>
      exact ⟨fun e there => envelope e (envelopes.subset there),
        fun report there => outcome report (outcomes.subset there), active⟩

theorem Dated.replay (dated : p.Dated) (run : p.replay x events = some q) : q.Dated :=
  replay_induction (motive := fun _ q => q.Dated) dated
    (fun _ _ _ _ _ before rule => before.step rule) run

/-! ### The source of what carries a batch's number -/

/-- The run that a report of a batch tells of. -/
def HasRun (number : Nat) (records : List JobRecord) (fin : List (Envelope × JobResult))
    (report : Report) : Prop :=
  ∃ e, (e, report.result) ∈ fin ∧ e.batch = number ∧ e.record ∈ records ∧
    e.record.id = report.jobId

/-- What carries the number of a batch has to do with the batch, where these runs have ended. -/
structure Sourced (number : Nat) (records : List JobRecord) (fin : List (Envelope × JobResult))
    (p : Pool W) : Prop where
  began : number < p.nextBatch
  unsent : ∀ b, p.active = some b → b.number = number → ∀ entry ∈ b.unsent, entry.2 ∈ records
  envelopes : ∀ e ∈ p.envelopes, e.batch = number → e.record ∈ records
  outcomes : ∀ report ∈ p.outcomes, report.batch = number → HasRun number records fin report

theorem HasRun.more {number : Nat} {records : List JobRecord}
    {fin more : List (Envelope × JobResult)} {report : Report}
    (run : HasRun number records fin report) : HasRun number records (fin ++ more) report := by
  obtain ⟨e, ended, own, member, id⟩ := run
  exact ⟨e, List.mem_append_left _ ended, own, member, id⟩

theorem Sourced.step {number : Nat} {records : List JobRecord}
    {fin : List (Envelope × JobResult)} (sourced : p.Sourced number records fin)
    (rule : Step x p event q) :
    q.Sourced number records (fin ++ (p.finish? event).toList) := by
  have began := Nat.lt_of_lt_of_le sourced.began rule.nextBatch_le
  have unsent : ∀ b, q.active = some b → b.number = number → ∀ entry ∈ b.unsent,
      entry.2 ∈ records := by
    intro b' after own entry there
    rcases rule.active_eq_some after with
      ⟨b, before, _, same, fewer, _⟩ | ⟨s, rest, _, _, _, fresh, _, _⟩
    · exact sourced.unsent b before (same.symm.trans own) entry (fewer there)
    · have := sourced.began
      omega
  have outcome : ∀ report ∈ p.outcomes, report.batch = number →
      HasRun number records (fin ++ (p.finish? event).toList) report :=
    fun report there own => (sourced.outcomes report there own).more
  cases rule.flow with
  | @sent b index r rest before next _ envelopes outcomes =>
      refine ⟨began, unsent, fun e there own => ?_,
        fun report there => outcome report (outcomes.subset there)⟩
      rcases List.mem_cons.mp (envelopes.subset there) with rfl | old
      · exact sourced.unsent b before own (index, r) (by simp [next])
      · exact sourced.envelopes e old own
  | @ended e result finished envelopes outcomes =>
      refine ⟨began, unsent,
        fun e there => sourced.envelopes e (envelopes.symm.subset (List.mem_cons_of_mem _ there)),
        fun report there own => ?_⟩
      rcases List.mem_cons.mp (outcomes.subset there) with rfl | old
      · exact ⟨e, by simp [finished], own,
          sourced.envelopes e (envelopes.symm.subset List.mem_cons_self) own, rfl⟩
      · exact outcome report old own
  | removed _ envelopes outcomes =>
      exact ⟨began, unsent, fun e there => sourced.envelopes e (envelopes.subset there),
        fun report there => outcome report (outcomes.symm.subset (List.mem_cons_of_mem _ there))⟩
  | kept _ envelopes outcomes =>
      exact ⟨began, unsent, fun e there => sourced.envelopes e (envelopes.subset there),
        fun report there => outcome report (outcomes.subset there)⟩

end Pool

end JobQueue
