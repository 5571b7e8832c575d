/-
Waits that run out, in the order of the records.

The queues of a batch may come to stand in another order at any time (`Reordered`), and nobody
sees it: whatever happens then happens in the pool as it is (`Runs.replayed`). The main statement
is `timeouts_charged_in_order`. From tidy queues the least open index is taken, and in every run
the waits of a batch that run out are charged to greater and greater indices; where a batch waits
for reports there is an index to charge, the earliest empty slot, and waits that run out one after
another fill the slots that are left from the first one on.
-/

import JobQueue.Proofs.Pool.Earliest
import JobQueue.Proofs.Pool.Origins

namespace JobQueue.Pool

variable {W : Type} {x : Executor W} {p q r p₀ : Pool W} {event : Event} {b : Batch}
  {ledger : Ledger} {u : JobError} {number i n : Nat} {past later : List (Pool W × Event)}

/-! ### Queues in another order -/

/-- The same pool, but for the order in which the queues of its batch stand. -/
inductive Reordered (p : Pool W) : Pool W → Prop where
  | refl : Reordered p p
  | batch {b : Batch} {ledger : Ledger} (active : p.active = some b)
      (alike : b.ledger.Alike ledger) :
      Reordered p { p with active := some { b with ledger := ledger } }

theorem Reordered.trans (first : Reordered p q) (second : Reordered q r) : Reordered p r := by
  cases first with
  | refl => exact second
  | @batch b _ active alike =>
      cases second with
      | refl => exact .batch active alike
      | @batch _ ledger active' alike' =>
          cases active'
          exact Reordered.batch (b := b) active (alike.trans alike')

/-- The batch of the reordered pool has the same accounts in another order. -/
theorem Reordered.of_active (same : Reordered p q) (active : p.active = some b) :
    ∃ ledger, b.ledger.Alike ledger ∧ q.active = some { b with ledger := ledger } := by
  cases same with
  | refl => exact ⟨b.ledger, .refl _, active⟩
  | batch active' alike =>
      cases active.symm.trans active'
      exact ⟨_, alike, rfl⟩

theorem Reordered.active_eq_some {b' : Batch} (same : Reordered p q) (active : q.active = some b') :
    ∃ b ledger, p.active = some b ∧ b.ledger.Alike ledger ∧ b' = { b with ledger := ledger } := by
  cases same with
  | refl => exact ⟨b', b'.ledger, active, .refl _, rfl⟩
  | batch active' alike =>
      cases active
      exact ⟨_, _, active', alike, rfl⟩

/-- All but the batch is the same. -/
theorem Reordered.frame {α : Type} (same : Reordered p q) (field : Pool W → α)
    (unread : ∀ active, field { p with active := active } = field p) : field q = field p := by
  cases same with
  | refl => rfl
  | batch => exact unread _

/-- What a loop meets does not depend on the order of the queues. -/
theorem Reordered.met_eq (same : Reordered p q) : q.met number event = p.met number event := by
  cases same with
  | refl => rfl
  | batch active => simp [met, active]

/-- A pool goes on in the same way with a batch whose queues stand in another order. -/
theorem reordered_proceed {p' : Pool W} {active : Option Batch}
    (same : p' = { p with active := active }) (alike : b.ledger.Alike ledger) :
    Reordered (p.proceed b u) (p'.proceed { b with ledger := ledger } u) := by
  subst same
  by_cases done : isDone b
  · have done' : isDone { b with ledger := ledger } := ⟨done.1, alike.outstanding.trans done.2⟩
    rw [proceed_of_done done, proceed_of_done done', alike.finish_eq]
    exact .refl
  · have more : ¬ isDone { b with ledger := ledger } := fun done' =>
      done ⟨done'.1, alike.outstanding.symm.trans done'.2⟩
    rw [proceed_of_not_done done, proceed_of_not_done more]
    exact Reordered.batch (b := { b with timer := _ }) rfl alike

theorem reordered_setTask {e : Envelope} {task : Task W Ended} (active : p.active = some b)
    (alike : b.ledger.Alike ledger) : Reordered (p.setTask i e task)
      ({ p with active := some { b with ledger := ledger } }.setTask i e task) := by
  rw [setTask_eq, setTask_eq]
  exact .batch active alike

/-- A report changes the accounts in the same way, in whatever order the queues stand. -/
theorem alike_collect {report : Report} (alike : b.ledger.Alike ledger)
    (tidy : b.ledger.pending.Tidy) : ∃ ledger', (b.collect report).ledger.Alike ledger' ∧
      Batch.collect { b with ledger := ledger } report =
        { b.collect report with ledger := ledger' } := by
  unfold Batch.collect
  dsimp only
  split
  · exact ⟨_, alike.receive tidy.single, rfl⟩
  · exact ⟨_, alike, rfl⟩

/-- The queues of the batch are tidy, and its number is given out. -/
structure Orderly (p : Pool W) : Prop where
  tidy : ∀ b, p.active = some b → b.ledger.pending.Tidy
  began : ∀ b, p.active = some b → b.number < p.nextBatch

theorem Orderly.reorder (orderly : p.Orderly) (same : Reordered p q) : q.Orderly := by
  constructor
  · intro b' active
    obtain ⟨b, ledger, before, alike, rfl⟩ := same.active_eq_some active
    exact (orderly.tidy b before).of_perm alike.pending
  · intro b' active
    obtain ⟨b, ledger, before, alike, rfl⟩ := same.active_eq_some active
    rw [same.frame nextBatch fun _ => rfl]
    exact orderly.began b before

/-- What can happen when the queues stand in another order can happen as they are, and differs in
their order only. -/
theorem Step.reordered {p' q' : Pool W} (orderly : p.Orderly) (same : Reordered p p')
    (rule : Step x p' event q') : ∃ q, Step x p event q ∧ Reordered q q' := by
  cases same with
  | refl => exact ⟨q', rule, .refl⟩
  | @batch b ledger active alike =>
      have tidy := orderly.tidy b active
      -- Only the rules about the batch look at its queues; the others carry them along.
      cases rule with
      | submitEmpty => exact ⟨_, .submitEmpty, .batch active alike⟩
      | submitLate nonempty late => exact ⟨_, .submitLate nonempty late, .batch active alike⟩
      | submit nonempty early => exact ⟨_, .submit nonempty early, .batch active alike⟩
      | reject free | turn free => cases free
      | send here next room alive =>
          cases here
          exact ⟨_, .send active next room alive, reordered_proceed rfl (alike.sent tidy.single)⟩
      | sendTimeout here next due =>
          cases here
          exact ⟨_, .sendTimeout active next due, reordered_proceed rfl alike.refused⟩
      | sendClosed here next dead =>
          cases here
          exact ⟨_, .sendClosed active next dead, reordered_proceed rfl alike.refused⟩
      | collect here sentAll next =>
          cases here
          obtain ⟨ledger', alike', after⟩ := alike_collect alike tidy
          rw [after]
          exact ⟨_, .collect active sentAll next, reordered_proceed rfl alike'⟩
      | collectTimeout here sentAll due =>
          cases here
          exact ⟨_, .collectTimeout active sentAll due, reordered_proceed rfl (alike.expire tidy)⟩
      | collectClosed here sentAll none dead =>
          cases here
          rw [alike.finish_eq]
          exact ⟨_, .collectClosed active sentAll none dead, .refl⟩
      | take idle next => exact ⟨_, .take idle next, reordered_setTask active alike⟩
      | act busy => exact ⟨_, .act busy, reordered_setTask active alike⟩
      | finish busy => exact ⟨_, .finish busy, .batch active alike⟩
      | ready busy came => exact ⟨_, .ready busy came, reordered_setTask active alike⟩
      | expire busy due => exact ⟨_, .expire busy due, reordered_setTask active alike⟩
      | deliver reporting room => exact ⟨_, .deliver reporting room, .batch active alike⟩
      | giveUp reporting due => exact ⟨_, .giveUp reporting due, .batch active alike⟩
      | stop idle empty closed =>
          refine ⟨_, .stop idle empty ?_, .batch active alike⟩
          simpa [jobsClosed, isSending, active] using closed
      | quit idle told => exact ⟨_, .quit idle told, .batch active alike⟩
      | shutdown => exact ⟨_, .shutdown, .batch active alike⟩
      | deadline => exact ⟨_, .deadline, .batch active alike⟩
      | elapse => exact ⟨_, .elapse, .batch active alike⟩

/-! ### Runs in which the order may change -/

/-- A run in which the queues may come to stand in another order at any time, told by its events,
each with the pool that it happens in. -/
inductive Runs (x : Executor W) (p : Pool W) : List (Pool W × Event) → Pool W → Prop where
  | nil : Runs x p [] p
  | reorder {past : List (Pool W × Event)} {q r : Pool W} (before : Runs x p past q)
      (same : Reordered q r) : Runs x p past r
  | event {past : List (Pool W × Event)} {q r : Pool W} {event : Event}
      (before : Runs x p past q) (happens : q.step x event = some r) :
      Runs x p (past ++ [(q, event)]) r

/-- What an observer notes down in a run. -/
def notes {α : Type} (look : Pool W → Event → Option α) (past : List (Pool W × Event)) : List α :=
  past.filterMap fun entry => look entry.1 entry.2

theorem notes_snoc {α : Type} {look : Pool W → Event → Option α} :
    notes look (past ++ [(p, event)]) = notes look past ++ (look p event).toList := by
  rw [notes, List.filterMap_append]
  cases seen : look p event <;> simp [notes, seen]

/-- A run in which the order may change is one of the pool as it is, up to the order in which the
queues stand in the end, and the loop of each batch meets the same. -/
theorem Runs.replayed (run : Runs x p past q) (same : Reordered p₀ p)
    (orderly : ∀ events q, p₀.replay x events = some q → q.Orderly) :
    ∃ q₀, p₀.replay x (past.map Prod.snd) = some q₀ ∧ Reordered q₀ q ∧
      ∀ number, p₀.readings x (met number) (past.map Prod.snd) = notes (met number) past := by
  induction run with
  | nil => exact ⟨p₀, rfl, same, fun _ => rfl⟩
  | reorder _ turned ih =>
      obtain ⟨q₀, replayed, before, told⟩ := ih
      exact ⟨q₀, replayed, before.trans turned, told⟩
  | @event past q r event _ happens ih =>
      -- The event happens in the pool as it is as well, whatever order stood before it.
      obtain ⟨q₀, replayed, before, told⟩ := ih
      obtain ⟨r₀, rule, after⟩ :=
        (step_eq_some_iff.mp happens).reordered (orderly _ _ replayed) before
      rw [List.map_append, List.map_singleton]
      refine ⟨r₀, replay_snoc replayed rule, after, fun number => ?_⟩
      rw [readings_snoc replayed, notes_snoc, told, before.met_eq]

/-- The batch of a pool is where its loop is by itself. -/
theorem Traced.exists_loop {entries : List (Entry W)} (traced : Traced x entries p)
    (active : p.active = some b) :
    ∃ s timer happenings fin a set, Looping s b.number timer p.missing happenings fin p ∧
      (Accounts.start (Batch.opening s b.number timer) p.missing).meetAll happenings = some a ∧
      b = setTimer a.batch set ∧ a.isOver = false := by
  obtain ⟨s, there, _, _⟩ := traced.kept.admissions.current b active
  obtain ⟨timer, happenings, fin, trace⟩ := traced.traces s b.number there
  obtain ⟨⟨a, happens, follows⟩, _, _⟩ := trace.looping
  have goes : a.isOver = false := by
    by_contra finished
    exact (follows.finished (by simpa using finished)).2 b active rfl
  obtain ⟨set, here⟩ := follows.going goes
  exact ⟨s, timer, happenings, fin, a, set, trace.looping, happens,
    Option.some.inj (active.symm.trans here), goes⟩

theorem Traced.orderly {entries : List (Entry W)} (traced : Traced x entries p) : p.Orderly := by
  refine ⟨fun b active => ?_, traced.dated.active⟩
  obtain ⟨_, _, _, _, a, set, _, happens, rfl, _⟩ := traced.exists_loop active
  exact (Accounts.going_start.meetAll happens).1.sound.tidy

section Start

variable {limits : PoolLimits} {size : Nat} {world : W}

theorem orderly_replay (events : List Event) (q : Pool W)
    (run : (start limits size world).replay x events = some q) : q.Orderly :=
  (traced_replay run).orderly

theorem Runs.orderly (run : Runs x (start limits size world) past q) : q.Orderly := by
  obtain ⟨q₀, replayed, same, _⟩ := run.replayed .refl orderly_replay
  exact (orderly_replay _ _ replayed).reorder same

end Start

/-! ### The indices that are charged -/

/-- The index that a wait for a report is charged to when it runs out, if the batch of a number
waits. -/
def charge? (number : Nat) (p : Pool W) : Event → Option Nat
  | .collectTimeout =>
      match p.active with
      | some b => if b.number = number then b.ledger.pending.takeFirst.map Prod.fst else none
      | none => none
  | _ => none

theorem of_charge? (charged : p.charge? number event = some i) :
    event = .collectTimeout ∧ ∃ b rest, p.active = some b ∧ b.number = number ∧
      b.ledger.pending.takeFirst = some (i, rest) := by
  unfold charge? at charged
  split at charged
  next =>
    split at charged
    next b active =>
      split at charged
      next own =>
        obtain ⟨⟨j, rest⟩, taken, rfl⟩ := Option.map_eq_some_iff.mp charged
        exact ⟨rfl, b, rest, active, own, taken⟩
      next => cases charged
    next => cases charged
  next => cases charged

/-- The batch of a number has had its turn, and if it still waits, all its open indices come after
one. -/
structure Passed (number i : Nat) (p : Pool W) : Prop where
  began : number < p.nextBatch
  ahead : ∀ b, p.active = some b → b.number = number →
    b.unsent = [] ∧ ∀ j ∈ b.ledger.pending.indices, i < j

theorem indices_collect (b : Batch) (report : Report) :
    (b.collect report).ledger.pending.indices ⊆ b.ledger.pending.indices := by
  rcases Accounts.ledger_collect b report with kept | ⟨_, received⟩
  · rw [kept]
    exact List.Subset.refl _
  · rw [received, Ledger.receive]
    split
    next taken =>
      exact fun j waits => (Pending.takeFor_eq_some taken).2.2.2.symm.subset
        (List.mem_cons_of_mem _ waits)
    next => exact List.Subset.refl _

/-- After a wait ran out, all open indices come after the one it was charged to. -/
theorem lt_of_mem_indices_expire {rest : Pending} (tidy : ledger.pending.Tidy)
    (taken : ledger.pending.takeFirst = some (i, rest)) {j : Nat}
    (waits : j ∈ (ledger.expire u).pending.indices) : j ∈ ledger.pending.indices ∧ i < j := by
  obtain ⟨⟨id, closed⟩, _⟩ := Pending.takeFirst_eq_some tidy.single taken
  have perm := (Pending.takeFor_eq_some closed).2.2.2
  have once := List.nodup_cons.mp (perm.nodup_iff.mp tidy.once)
  have least := (tidy.isLeast_of_takeFirst taken).1
  simp only [Ledger.expire, taken] at waits
  have before := perm.mem_iff.mpr (List.mem_cons_of_mem _ waits)
  refine ⟨before, Nat.lt_of_le_of_ne (least.2 before) ?_⟩
  rintro rfl
  exact once.1 waits

/-- What has been passed stays passed: nothing is opened any more. -/
theorem Passed.step (passed : Passed number i p) (orderly : p.Orderly) (rule : Step x p event q) :
    Passed number i q := by
  refine ⟨Nat.lt_of_lt_of_le passed.began rule.nextBatch_le, ?_⟩
  by_cases other : event.isOfBatch = false
  · rw [(rule.aside other).1]
    exact passed.ahead
  intro b' active own
  cases rule with
  | reject free => cases active.symm.trans free
  | turn =>
      obtain ⟨_, _, same, _, _⟩ := of_proceed_active active
      exact absurd passed.began (Nat.not_lt.mpr (Nat.le_of_eq (same.symm.trans own)))
  | @send b _ _ _ before next | @sendTimeout b _ _ _ before next
  | @sendClosed b _ _ _ before next =>
      -- A batch that still has records to send has charged nothing.
      obtain ⟨_, _, same, _, _⟩ := of_proceed_active active
      have none := (passed.ahead b before (same.symm.trans own)).1
      cases none.symm.trans next
  | @collect b report _ before =>
      obtain ⟨_, _, same, unsent, ledger⟩ := of_proceed_active active
      obtain ⟨_, sameNumber, sameUnsent⟩ : (b.collect report).ticket = _ ∧ _ := unsent_collect
      obtain ⟨sentAll, ahead⟩ := passed.ahead b before (sameNumber.symm.trans (same.symm.trans own))
      rw [unsent, ledger]
      exact ⟨sameUnsent.trans sentAll, fun j waits => ahead j (indices_collect b report waits)⟩
  | @collectTimeout b before =>
      obtain ⟨_, _, same, unsent, ledger⟩ := of_proceed_active active
      obtain ⟨sentAll, ahead⟩ := passed.ahead b before (same.symm.trans own)
      rw [unsent, ledger]
      refine ⟨sentAll, fun j waits => ahead j ?_⟩
      cases taken : b.ledger.pending.takeFirst with
      | none => simpa [Ledger.expire, taken] using waits
      | some found => exact (lt_of_mem_indices_expire (orderly.tidy b before) taken waits).1
  | collectClosed => cases active
  | _ => exact absurd rfl other

theorem Passed.reorder (passed : Passed number i p) (same : Reordered p q) :
    Passed number i q := by
  refine ⟨?_, fun b' active own => ?_⟩
  · rw [same.frame nextBatch fun _ => rfl]
    exact passed.began
  · obtain ⟨b, ledger, before, alike, rfl⟩ := same.active_eq_some active
    obtain ⟨sentAll, ahead⟩ := passed.ahead b before own
    exact ⟨sentAll, fun j waits => ahead j ((Pending.perm_indices alike.pending).subset waits)⟩

/-- An index that is charged was open, and is passed from then on. -/
theorem passed_of_charge? (orderly : p.Orderly) (charged : p.charge? number event = some i)
    (rule : Step x p event q) :
    (∃ b, p.active = some b ∧ b.number = number ∧ i ∈ b.ledger.pending.indices) ∧
      Passed number i q := by
  obtain ⟨rfl, b, rest, active, own, taken⟩ := of_charge? charged
  have tidy := orderly.tidy b active
  refine ⟨⟨b, active, own, (tidy.isLeast_of_takeFirst taken).1.1⟩, ?_, ?_⟩
  · exact Nat.lt_of_lt_of_le (own ▸ orderly.began b active) rule.nextBatch_le
  · intro b' after _
    cases rule with
    | collectTimeout before sentAll =>
        cases active.symm.trans before
        obtain ⟨_, _, _, unsent, ledger⟩ := of_proceed_active after
        rw [unsent, ledger]
        exact ⟨sentAll, fun j waits => (lt_of_mem_indices_expire tidy taken waits).2⟩

section Start

variable {limits : PoolLimits} {size : Nat} {world : W}

/-- The waits of a batch are charged to greater and greater indices. -/
theorem Runs.increasing (number : Nat) (run : Runs x (start limits size world) past q) :
    (notes (charge? number) past).Pairwise (· < ·) ∧
      ∀ i ∈ notes (charge? number) past, Passed number i q := by
  induction run with
  | nil => exact ⟨List.Pairwise.nil, by simp [notes]⟩
  | reorder _ same ih => exact ⟨ih.1, fun i there => (ih.2 i there).reorder same⟩
  | @event past q r event before happens ih =>
      obtain ⟨increasing, passed⟩ := ih
      have rule := step_eq_some_iff.mp happens
      have kept : ∀ i ∈ notes (charge? number) past, Passed number i r := fun i there =>
        (passed i there).step before.orderly rule
      rw [notes_snoc]
      cases charged : q.charge? number event with
      | none => simpa using ⟨increasing, kept⟩
      | some i =>
          obtain ⟨⟨b, active, own, waits⟩, new⟩ := passed_of_charge? before.orderly charged rule
          rw [Option.toList_some]
          constructor
          · refine List.pairwise_append.mpr ⟨increasing, List.pairwise_singleton _ _, ?_⟩
            intro j there k last
            rw [List.mem_singleton.mp last]
            exact ((passed j there).ahead b active own).2 i waits
          · intro j there
            rcases List.mem_append.mp there with old | last
            · exact kept j old
            · exact List.mem_singleton.mp last ▸ new

end Start

/-! ### Waits that run out one after another -/

/-- Where a batch is once so many waits have run out one after another: its earliest empty slots
are filled, and with the last one it is answered. -/
structure Filled (b : Batch) (missing : JobError) (n : Nat) (p : Pool W) : Prop where
  bound : n ≤ b.ledger.outstanding
  going : n < b.ledger.outstanding → ∃ b', p.active = some b' ∧ b'.number = b.number ∧
    b'.unsent = [] ∧ b'.ledger.slots = Ledger.fillEarliest (.error missing) n b.ledger.slots
  answered : n = b.ledger.outstanding → p.answerOf? b.ticket = some (b.ledger.finish missing)

theorem Filled.reorder (filled : Filled b u n p) (same : Reordered p q) : Filled b u n q where
  bound := filled.bound
  going := by
    intro less
    obtain ⟨b', active, own, sentAll, slots⟩ := filled.going less
    obtain ⟨ledger, alike, active'⟩ := same.of_active active
    exact ⟨_, active', own, sentAll, alike.slots.trans slots⟩
  answered := fun all =>
    (same.frame (answerOf? · b.ticket) fun _ => rfl).trans (filled.answered all)

theorem Filled.of_alike (filled : Filled b u n p) (alike : b.ledger.Alike ledger) :
    Filled { b with ledger := ledger } u n p where
  bound := alike.outstanding ▸ filled.bound
  going := by
    intro less
    obtain ⟨b', active, own, sentAll, slots⟩ := filled.going (alike.outstanding ▸ less)
    exact ⟨b', active, own, sentAll, slots.trans (by rw [alike.slots])⟩
  answered := fun all => (filled.answered (all.trans alike.outstanding)).trans
    (congrArg some alike.finish_eq.symm)

theorem missing_replay {events : List Event} (run : p.replay x events = some q) :
    q.missing = p.missing :=
  replay_induction (motive := fun _ q => q.missing = p.missing) rfl
    (fun _ _ _ _ _ before rule => rule.missing_eq.trans before) run

/-- The loop of a batch goes on in a pool from wherever it is. -/
theorem Looping.replay {s : Submission} {timer : Timer} {before : List Happening}
    {fin : List (Envelope × JobResult)} {events : List Event}
    (looping : Looping s number timer p.missing before fin p) (ticketed : p.Ticketed)
    (run : p.replay x events = some q) :
    Looping s number timer q.missing (before ++ p.readings x (met number) events)
      (fin ++ p.finished x events) q := by
  have all := replay_induction (motive := fun events q => q.Ticketed ∧
    Looping s number timer q.missing (before ++ p.readings x (met number) events)
      (fin ++ p.finished x events) q)
    ⟨ticketed, by simpa [readings, finished] using looping⟩
    (fun events q event r run before rule => by
      rw [readings_snoc run, finished_snoc run, ← List.append_assoc, ← List.append_assoc]
      exact ⟨before.1.step rule, before.2.step before.1 rule⟩) run
  exact all.2

/-- A loop that goes on with nothing left to send waits for something. -/
theorem waiting_of_goes {a : Accounts} (sentAll : a.batch.unsent = []) (goes : a.isOver = false) :
    0 < a.batch.ledger.outstanding ∧ a.isClosed = false := by
  simpa [Accounts.isOver, sentAll, Nat.pos_iff_ne_zero] using goes

/-- Where waits run out one after another in a pool as it is, they fill the earliest empty slots. -/
theorem Traced.filled {entries : List (Entry W)} {events : List Event}
    (traced : Traced x entries p) (active : p.active = some b) (sentAll : b.unsent = [])
    (run : p.replay x events = some q)
    (told : p.readings x (met b.number) events = List.replicate n .timeout) :
    Filled b p.missing n q := by
  obtain ⟨s, timer, before, fin, a, set, looping, happens, rfl, goes⟩ := traced.exists_loop active
  have sentAll : a.batch.unsent = [] := sentAll
  have going := (Accounts.going_start.meetAll happens).1
  obtain ⟨_, isOpen⟩ := waiting_of_goes sentAll goes
  obtain ⟨⟨a', happens', follows⟩, _, _⟩ := looping.replay traced.kept.ticketed run
  rw [missing_replay run, told, Accounts.meetAll_append, happens, Option.bind_some] at happens'
  have going' := (going.meetAll happens').1
  obtain ⟨sentAll', isOpen', outstanding, slots⟩ := going.timeouts sentAll isOpen happens'
  have ends : a'.isOver = true ↔ n = a.batch.ledger.outstanding := by
    simp only [Accounts.isOver, sentAll', isOpen', List.isEmpty_nil, Bool.or_false, Bool.true_and,
      beq_iff_eq]
    omega
  refine ⟨Nat.le.intro ((Nat.add_comm _ _).trans outstanding), fun less => ?_, fun all => ?_⟩
  · obtain ⟨set', active'⟩ :=
      follows.going (Bool.eq_false_iff.mpr (mt ends.mp (Nat.ne_of_lt less)))
    exact ⟨_, active', going'.constant.2.1, sentAll', slots⟩
  · have answered := (follows.finished (ends.mpr all)).1
    rw [going'.constant.1.trans going.constant.1.symm, Accounts.results, going'.constant.2.2.2,
      Ledger.finish_of_fillEarliest slots] at answered
    exact answered

/-- How a batch that waits for reports charges the waits that run out. -/
structure Charging (x : Executor W) (b : Batch) (p : Pool W) : Prop where
  tidy : b.ledger.pending.Tidy
  waiting : 0 < b.ledger.outstanding
  /-- Whichever queue comes first, a wait that runs out finds an index, that of the earliest empty
  slot. The slot is filled, and no other index is closed. -/
  finds : ∃ i, b.ledger.IsEarliest i ∧ ∀ ledger, b.ledger.Alike ledger →
    ledger.pending.takeFirst = some (i, ledger.pending.without i) ∧
      ledger.expire p.missing = ⟨b.ledger.fill i (.error p.missing), ledger.pending.without i,
        b.ledger.outstanding - 1⟩
  /-- Waits that run out one after another fill the slots that are empty, from the first one on. -/
  fills : ∀ later r n, Runs x p later r →
    notes (met b.number) later = List.replicate n .timeout → Filled b p.missing n r
  /-- So many of them can follow one another. -/
  follow : ∀ n ≤ b.ledger.outstanding, ∃ later r, Runs x p later r ∧
    notes (met b.number) later = List.replicate n .timeout

/-- The wait of a batch can run out next. -/
theorem Runs.exists_timeout (run : Runs x p later q) (active : q.active = some b)
    (sentAll : b.unsent = []) : ∃ later' r, Runs x p later' r ∧
      notes (met b.number) later' = notes (met b.number) later ++ [.timeout] := by
  let waited : Pool W := { q with now := q.now + b.timer.due }
  have due : b.timer.due ≤ waited.now := Nat.le_add_left _ _
  have elapsed : q.step x (.elapse b.timer.due) = some waited := rfl
  have expired := step_of_rule (x := x) (.collectTimeout (p := waited) active sentAll due)
  refine ⟨_, _, (run.event elapsed).event expired, ?_⟩
  rw [notes_snoc, notes_snoc, met_of_active active, met_of_active (p := waited) active]
  simp

/-- As long as something is outstanding another wait can run out. -/
theorem exists_timeouts (fills : ∀ later r n, Runs x p later r →
    notes (met b.number) later = List.replicate n .timeout → Filled b u n r)
    (within : n ≤ b.ledger.outstanding) :
    ∃ later r, Runs x p later r ∧ notes (met b.number) later = List.replicate n .timeout := by
  induction n with
  | zero => exact ⟨[], p, .nil, rfl⟩
  | succ n ih =>
      obtain ⟨later, r, run, told⟩ := ih (Nat.le_of_succ_le within)
      obtain ⟨b', active, own, sentAll, _⟩ := (fills later r n run told).going within
      obtain ⟨later', r', run', told'⟩ := run.exists_timeout active sentAll
      rw [own, told, ← List.replicate_succ'] at told'
      exact ⟨later', r', run', told'⟩

section Start

variable {limits : PoolLimits} {size : Nat} {world : W}

/-- Where waits run out one after another, the earliest empty slots are filled, in whatever order
the queues come to stand. -/
theorem Runs.filled (run : Runs x (start limits size world) past p) (active : p.active = some b)
    (sentAll : b.unsent = []) (run' : Runs x p later r)
    (told : notes (met b.number) later = List.replicate n .timeout) : Filled b p.missing n r := by
  -- Both runs are courses of the pool as it is, where the loop of the batch is known.
  obtain ⟨p₀, replayed, same, _⟩ := run.replayed .refl orderly_replay
  obtain ⟨b₀, ledger, active₀, alike, rfl⟩ := same.active_eq_some active
  have orderly : ∀ events q, p₀.replay x events = some q → q.Orderly := fun events q after =>
    orderly_replay (past.map Prod.snd ++ events) q (by rw [replay_append, replayed]; exact after)
  obtain ⟨r₀, replayed', same', told'⟩ := run'.replayed same orderly
  have filled := (traced_replay replayed).filled active₀ sentAll replayed' ((told' _).trans told)
  have missing : p.missing = p₀.missing := same.frame Pool.missing fun _ => rfl
  rw [missing]
  exact (filled.of_alike alike).reorder same'

theorem Runs.charging (run : Runs x (start limits size world) past p) (active : p.active = some b)
    (sentAll : b.unsent = []) : Charging x b p := by
  have fills : ∀ later r n, Runs x p later r →
      notes (met b.number) later = List.replicate n .timeout → Filled b p.missing n r :=
    fun _ _ _ run' told => run.filled active sentAll run' told
  obtain ⟨p₀, replayed, same, _⟩ := run.replayed .refl orderly_replay
  obtain ⟨b₀, ledger, active₀, alike, rfl⟩ := same.active_eq_some active
  obtain ⟨_, _, _, _, a, _, _, happens, rfl, goes⟩ :=
    (traced_replay replayed).exists_loop active₀
  have alike : a.batch.ledger.Alike ledger := alike
  have sound := (Accounts.going_start.meetAll happens).1.sound_of_sentAll sentAll
  obtain ⟨waiting, _⟩ := waiting_of_goes sentAll goes
  obtain ⟨i, least⟩ := sound.exists_least waiting
  have tidy : ledger.pending.Tidy := sound.tidy.of_perm alike.pending
  exact {
    tidy := tidy
    waiting := alike.outstanding.symm ▸ waiting
    finds := by
      refine ⟨i, alike.isEarliest_iff.mpr (sound.isLeast_iff.mp least), fun ledger' alike' => ?_⟩
      exact alike'.expire_eq tidy ((Pending.isLeast_perm alike.pending).mpr least)
    fills := fills
    follow := fun _ within => exists_timeouts fills within }

end Start

/-- Waits that run out are charged to the earliest open job. From tidy queues, whichever of them
comes first, the least open index is taken and no other, and nothing is taken exactly if all queues
are empty. In every run of a pool, in which the queues may come to stand in another order at any
time, the waits of a batch are charged to greater and greater indices, and wherever a batch waits
for reports it charges the waits that run out as `Charging` says. -/
theorem timeouts_charged_in_order (x : Executor W) (limits : PoolLimits) (size : Nat) (world : W) :
    (∀ p order : Pending, p.Tidy → order.Perm p →
      (order.takeFirst = none ↔ ∀ entry ∈ p, entry.2 = []) ∧
      ∀ i rest, order.takeFirst = some (i, rest) ↔
        IsLeast {j | j ∈ p.indices} i ∧ rest = order.without i) ∧
    ∀ past p, Runs x (start limits size world) past p →
      (∀ number, (notes (charge? number) past).Pairwise (· < ·)) ∧
      ∀ b, p.active = some b → b.unsent = [] → Charging x b p := by
  refine ⟨fun p order tidy perm => ?_, fun past p run => ?_⟩
  · have tidy' : order.Tidy := tidy.of_perm perm
    refine ⟨?_, fun i rest => ?_⟩
    · rw [tidy'.takeFirst_eq_none_iff]
      simp only [perm.mem_iff]
    · rw [tidy'.takeFirst_eq_some_iff, Pending.isLeast_perm perm]
  · exact ⟨fun number => (run.increasing number).1,
      fun b active sentAll => run.charging active sentAll⟩

section Example

open Simulation

/-- A pool with the queues of its batch turned round. -/
def turnedRound (p : Pool W) : Pool W :=
  match p.active with
  | some b =>
      { p with active := some { b with
          ledger := { b.ledger with pending := b.ledger.pending.reverse } } }
  | none => p

theorem reordered_turnedRound : Reordered p p.turnedRound := by
  unfold turnedRound
  split
  next b active => exact .batch active ⟨rfl, List.reverse_perm _, rfl⟩
  next => exact .refl

/-- The events of a course, each with the pool that it happens in. -/
def visits (x : Executor W) (p : Pool W) (events : List Event) : List (Pool W × Event) :=
  p.readings x (fun p event => some (p, event)) events

/-- A course of the pool as it is goes on with a run. -/
theorem Runs.replay {events : List Event} (before : Runs x p past q)
    (run : q.replay x events = some r) : Runs x p (past ++ q.visits x events) r := by
  refine replay_induction (motive := fun events r => Runs x p (past ++ q.visits x events) r) ?_
    (fun events q' event r run before rule => ?_) run
  · rw [visits, readings, List.append_nil]
    exact before
  · rw [visits, readings_snoc run, ← List.append_assoc]
    exact before.event (step_of_rule rule)

/-- A course in which the one worker runs the first of three jobs and takes no other. -/
def firstOfThree : List Event :=
  [.submit (easyJobs ["a", "a", "b"]), .turn, .send, .send, .send, .take 0, .run 0, .run 0, .run 0,
    .run 0, .run 0, .deliver 0, .collect]

/-- Two waits for a report that run out. -/
def twoWaits : List Event := [.elapse 300000, .collectTimeout, .elapse 300000, .collectTimeout]

/-- A pool of one worker on jobs under two ids. -/
def twoNames : Pool World := start ⟨30, 300, 10⟩ 1 (World.still (easyJobs ["a", "b"]))

/-- The least of some indices is found in queues that are turned round. Two waits run out for the
second and the third of three jobs, while the queue of the third comes first. -/
theorem timeouts_charged_in_order_turned :
    Pending.takeFirst [("c", []), ("a", [2, 7]), ("b", [4])] =
      some (2, [("c", []), ("a", [7]), ("b", [4])]) ∧
    ∃ past p b later r, Runs easyExecutor twoNames past p ∧ p.active = some b ∧ b.unsent = [] ∧
      b.ledger.pending = [("b", [2]), ("a", [1])] ∧ Runs easyExecutor p later r ∧
      notes (met b.number) later = List.replicate 2 .timeout ∧
      notes (charge? b.number) later = [1, 2] ∧
      (notes (charge? b.number) (past ++ later)).Pairwise (· < ·) ∧
      r.answerOf? b.ticket =
        some [.ok (), .error (.resultTimeout 300), .error (.resultTimeout 300)] := by
  obtain ⟨takes, charged⟩ := timeouts_charged_in_order easyExecutor ⟨30, 300, 10⟩ 1
    (World.still (easyJobs ["a", "b"]))
  constructor
  · have tidy : Pending.Tidy [("b", [4]), ("a", [2, 7]), ("c", [])] :=
      ⟨by decide, by decide, by simp [List.Disjoint]⟩
    exact ((takes _ _ tidy (List.reverse_perm _)).2 2 _).mpr
      ⟨⟨by decide, by simp [Pending.indices, mem_lowerBounds]⟩, rfl⟩
  · obtain ⟨p, b, r, first, active, sentAll, pending, slots, outstanding, missing, last, told,
        indices⟩ : ∃ p b r, twoNames.replay easyExecutor firstOfThree = some p ∧
          p.turnedRound.active = some b ∧ b.unsent = [] ∧
          b.ledger.pending = [("b", [2]), ("a", [1])] ∧
          b.ledger.slots = [some (.ok ()), none, none] ∧ 2 = b.ledger.outstanding ∧
          p.turnedRound.missing = .resultTimeout 300 ∧
          p.turnedRound.replay easyExecutor twoWaits = some r ∧
          notes (met b.number) (p.turnedRound.visits easyExecutor twoWaits) =
            List.replicate 2 .timeout ∧
          notes (charge? b.number) (p.turnedRound.visits easyExecutor twoWaits) = [1, 2] :=
      ⟨_, _, _, rfl, rfl, rfl, rfl, rfl, rfl, rfl, rfl, rfl, rfl⟩
    have run := (Runs.nil.replay first).reorder reordered_turnedRound
    have later : Runs easyExecutor p.turnedRound _ r := Runs.nil.replay last
    have filled := ((charged _ _ run).2 b active sentAll).fills _ r 2 later told
    refine ⟨_, _, b, _, r, run, active, sentAll, pending, later, told, indices,
      (charged _ _ (run.replay last)).1 b.number, ?_⟩
    rw [filled.answered outstanding, Ledger.finish, slots, missing]
    rfl

end Example

end JobQueue.Pool
