/-
Where the result of each record comes from.

The attempts to send the records of a batch come in the order of the records (`Tried`): the result
of a record is the reason why it could not be sent, or the result of a report for it, or it says
that no report came (`Origin`). In a pool with a log, what could not be sent was never accepted, and
what is reported has ended with this result (`Trace`).
-/

import JobQueue.Proofs.Pool.Shutdown

namespace JobQueue

/-- What comes of an attempt to send the next record: nothing, or the reason why it failed. -/
def Happening.attempt? : Happening → Option (Option JobError)
  | .sent => some none
  | .refused e => some (some e)
  | _ => none

namespace Accounts

/-- What came of the attempts to send records, in their order. -/
def attempts (happenings : List Happening) : List (Option JobError) :=
  happenings.filterMap Happening.attempt?

/-- Where the result in the slot of a record comes from. -/
inductive Origin (s : Submission) (number : Nat) (missing : JobError)
    (happenings : List Happening) (i : Nat) : JobResult → Prop where
  | refused {e : JobError} (failed : (attempts happenings)[i]? = some (some e)) :
      Origin s number missing happenings i (.error e)
  | report {r : Report} (met : .report r ∈ happenings) (own : r.batch = number)
      (tag : (s.records.map JobRecord.id)[i]? = some r.jobId) :
      Origin s number missing happenings i r.result
  | timeout : Origin s number missing happenings i (.error missing)

/-- Each attempt is one to send the next record, and each result has an origin. -/
structure Tried (s : Submission) (number : Nat) (missing : JobError)
    (happenings : List Happening) (a : Accounts) : Prop where
  count : (attempts happenings).length + a.batch.unsent.length = s.records.length
  origin : ∀ (i : Nat) (result : JobResult), a.batch.ledger.slots[i]? = some (some result) →
    Origin s number missing happenings i result

variable {s : Submission} {number : Nat} {timer : Timer} {missing : JobError}
  {happenings : List Happening} {h : Happening} {a a' : Accounts} {i : Nat} {result : JobResult}

theorem attempts_snoc :
    attempts (happenings ++ [h]) = attempts happenings ++ h.attempt?.toList := by
  cases h <;> simp [attempts, Happening.attempt?]

theorem Origin.more (origin : Origin s number missing happenings i result) (h : Happening) :
    Origin s number missing (happenings ++ [h]) i result := by
  cases origin with
  | refused failed =>
      refine .refused ?_
      rw [attempts_snoc]
      exact List.getElem?_append_left (List.getElem?_eq_some_iff.mp failed).1 ▸ failed
  | report met own tag => exact .report (List.mem_append_left _ met) own tag
  | timeout => exact .timeout

theorem tried_start : Tried s number missing []
    (start (Batch.opening s number timer) missing) where
  count := by simp [attempts, start, Batch.opening, length_indexed]
  origin := by simp [start, Batch.opening, Ledger.start, List.getElem?_replicate]

/-- The next attempt is one to send the first record that is left. -/
theorem Tried.next {r : JobRecord} {rest : List (Nat × JobRecord)}
    (tried : Tried s number missing happenings a)
    (going : Going s number timer missing happenings a) (next : a.batch.unsent = (i, r) :: rest) :
    i = (attempts happenings).length ∧ s.records[i]? = some r := by
  obtain ⟨place, record, _⟩ := going.next next
  have count := tried.count
  exact ⟨by omega, record⟩

theorem Tried.meet (tried : Tried s number missing happenings a)
    (going : Going s number timer missing happenings a) (happens : a.meet h = some a') :
    Tried s number missing (happenings ++ [h]) a' := by
  have count := tried.count
  -- What is no attempt leaves the attempts and the records that are left as they are.
  have aside : h.attempt? = none → a'.batch.unsent = a.batch.unsent →
      (attempts (happenings ++ [h])).length + a'.batch.unsent.length = s.records.length := by
    intro none same
    rw [attempts_snoc, none, Option.toList_none, List.append_nil, same]
    exact count
  have tries : ∀ {i r rest result}, h.attempt? = some result →
      a.batch.unsent = (i, r) :: rest → a'.batch.unsent = rest →
      (attempts (happenings ++ [h])).length + a'.batch.unsent.length = s.records.length := by
    intro i r rest result attempt next left
    rw [next, List.length_cons] at count
    rw [attempts_snoc, attempt, left, List.length_append, Option.toList_some,
      List.length_singleton]
    omega
  rw [Accounts.meet.eq_def] at happens
  cases h with
  | sent =>
      dsimp only at happens
      split at happens
      next i r rest next =>
        cases happens
        exact ⟨tries rfl next rfl, fun j result there => (tried.origin j result there).more _⟩
      next => cases happens
  | refused e =>
      dsimp only at happens
      split at happens
      next i r rest next =>
        cases happens
        obtain ⟨place, record⟩ := tried.next going next
        refine ⟨tries rfl next rfl, fun j result there => ?_⟩
        by_cases same : i = j
        · have inside : j < a.batch.ledger.slots.length := by
            rw [going.sound.size, List.length_map, ← same]
            exact (List.getElem?_eq_some_iff.mp record).1
          rw [Ledger.refused, same, Ledger.fill_self inside] at there
          cases there
          refine .refused ?_
          rw [attempts_snoc, ← same, place]
          exact List.getElem?_concat_length
        · rw [Ledger.refused, Ledger.fill_other same] at there
          exact (tried.origin j result there).more _
      next => cases happens
  | report r =>
      dsimp only at happens
      split at happens
      next =>
        cases happens
        refine ⟨aside rfl Pool.unsent_collect.2.2, fun j result there => ?_⟩
        rcases ledger_collect a.batch r with kept | ⟨own, received⟩
        · rw [kept] at there
          exact (tried.origin j result there).more _
        · rw [received] at there
          rcases going.sound.of_receive there with old | ⟨tag, rfl⟩
          · exact (tried.origin j result old).more _
          · exact .report (List.mem_append_right _ List.mem_cons_self)
              (own.trans going.constant.2.1) tag
      next => cases happens
  | timeout =>
      dsimp only at happens
      split at happens
      next =>
        cases happens
        refine ⟨aside rfl rfl, fun j result there => ?_⟩
        rcases going.sound.of_expire there with old | rfl
        · exact (tried.origin j result old).more _
        · rw [going.constant.2.2.2]
          exact .timeout
      next => cases happens
  | closed =>
      dsimp only at happens
      split at happens
      next =>
        cases happens
        exact ⟨aside rfl rfl, fun j result there => (tried.origin j result there).more _⟩
      next => cases happens

/-- Whatever a batch meets, each of its results has an origin. -/
theorem tried_of_meetAll
    (happens : (start (Batch.opening s number timer) missing).meetAll happenings = some a) :
    Tried s number missing happenings a := by
  induction happenings using List.reverseRecOn generalizing a with
  | nil =>
      cases happens
      exact tried_start
  | append_singleton earlier h ih =>
      rw [meetAll_append, Option.bind_eq_some_iff] at happens
      obtain ⟨middle, before, last⟩ := happens
      rw [meetAll, Option.bind_eq_some_iff] at last
      obtain ⟨after, next, same⟩ := last
      cases same
      exact (ih before).meet (going_start.meetAll before).1 next

end Accounts

/-- Whether an error says that a record was not sent. -/
def JobError.isRefusal : JobError → Bool
  | .poolShutdown | .enqueueTimeout .. => true
  | _ => false

namespace Pool

variable {W : Type} {x : Executor W} {p q : Pool W} {event : Event} {events : List Event}
  {entries : List (Entry W)} {s : Submission} {number : Nat} {timer : Timer}
  {happenings : List Happening} {fin : List (Envelope × JobResult)} {e : Envelope}
  {results : List JobResult}

/-! ### What the loop meets and what the log tells -/

theorem isRefusal_of_met {reason : JobError} (met : p.met number event = some (.refused reason)) :
    reason.isRefusal = true := by
  unfold Pool.met at met
  split at met
  next => cases met
  next b _ =>
    split at met
    next =>
      cases event with
      | sendTimeout =>
          cases next : b.unsent with
          | nil => simp [next] at met
          | cons entry rest =>
              simp only [next, List.head?_cons, Option.map_some, Option.some.injEq,
                Happening.refused.injEq] at met
              rw [← met]
              rfl
      | sendClosed =>
          cases met
          rfl
      | collect => simp at met
      | _ => cases met
    next => cases met

/-- What is accepted is the next record of the batch in its turn. -/
theorem of_logged?_accepted (seen : p.logged? event = some (.accepted e)) : event = .send ∧
    ∃ b index rest, p.active = some b ∧ b.unsent = (index, e.record) :: rest ∧
      e.batch = b.number := by
  cases event with
  | send =>
      refine ⟨rfl, ?_⟩
      unfold logged? at seen
      dsimp only at seen
      split at seen
      next b active =>
        cases next : b.unsent with
        | nil => simp [next] at seen
        | cons entry rest =>
            simp only [next, List.head?_cons, Option.map_some, Option.some.injEq,
              Entry.accepted.injEq] at seen
            subst seen
            exact ⟨b, entry.1, rest, active, next, rfl⟩
      next => cases seen
  | turn =>
      unfold logged? at seen
      dsimp only at seen
      split at seen
      · split at seen <;> cases seen
      · cases seen
  | take i =>
      unfold logged? at seen
      cases next : p.jobs <;> simp [next] at seen
  | run i | ready i | expire i =>
      unfold logged? at seen
      dsimp only at seen
      split at seen <;> cases seen
  | _ => cases seen

/-- A run that is brought to its end is told of in the log. -/
theorem exists_ended {result : JobResult} (finished : p.finish? event = some (e, result)) :
    ∃ i ended, p.logged? event = some (.ended i e ended) ∧ resultOf ended = result := by
  cases event with
  | run i =>
      unfold finish? at finished
      dsimp only at finished
      split at finished
      next e' ended busy =>
        cases finished
        exact ⟨i, ended, by simp [logged?, busy], rfl⟩
      next => cases finished
  | _ => cases finished

/-- What the loop of a batch has met since its turn began, and what the log tells of it. -/
structure Trace (s : Submission) (number : Nat) (timer : Timer) (happenings : List Happening)
    (fin : List (Envelope × JobResult)) (entries : List (Entry W)) (p : Pool W) : Prop where
  looping : Looping s number timer p.missing happenings fin p
  refusals : ∀ e, .refused e ∈ happenings → e.isRefusal = true
  /-- Accepted is what the loop has sent. -/
  sent : ∀ e ∈ accepted entries, e.batch = number → ∃ i : Nat, s.records[i]? = some e.record ∧
    (Accounts.attempts happenings)[i]? = some none
  runs : ∀ run ∈ fin, ∃ i ended, .ended i run.1 ended ∈ entries ∧ resultOf ended = run.2

theorem Trace.step (trace : Trace s number timer happenings fin entries p) (ticketed : p.Ticketed)
    (rule : Step x p event q) :
    Trace s number timer (happenings ++ (p.met number event).toList)
      (fin ++ (p.finish? event).toList) (entries ++ (p.logged? event).toList) q := by
  refine ⟨trace.looping.step ticketed rule, fun e there => ?_, fun e there own => ?_,
    fun run there => ?_⟩
  · rcases List.mem_append.mp there with old | new
    · exact trace.refusals e old
    · exact isRefusal_of_met (Option.mem_toList.mp new)
  · rw [accepted_more, List.mem_append, Option.mem_toList] at there
    rcases there with old | new
    · obtain ⟨i, record, sent⟩ := trace.sent e old own
      refine ⟨i, record, ?_⟩
      rw [Accounts.attempts, List.filterMap_append]
      exact List.getElem?_append_left (List.getElem?_eq_some_iff.mp sent).1 ▸ sent
    · obtain ⟨rfl, b, index, rest, active, next, mine⟩ := of_logged?_accepted (of_accepted? new)
      obtain ⟨⟨a, happens, follows⟩, _, _⟩ := trace.looping
      have goes : a.isOver = false := by
        by_contra finished
        exact (follows.finished (by simpa using finished)).2 b active (mine.symm.trans own)
      obtain ⟨set, here⟩ := follows.going goes
      cases active.symm.trans here
      obtain ⟨place, record⟩ := (Accounts.tried_of_meetAll happens).next
        (Accounts.going_start.meetAll happens).1 next
      have met : p.met number .send = some .sent := by
        rw [← own, mine]
        exact met_of_active here
      refine ⟨index, record, ?_⟩
      rw [met, Option.toList_some, Accounts.attempts_snoc, place]
      exact List.getElem?_concat_length
  · rcases List.mem_append.mp there with old | new
    · obtain ⟨i, ended, told, result⟩ := trace.runs run old
      exact ⟨i, ended, List.mem_append_left _ told, result⟩
    · obtain ⟨i, ended, seen, result⟩ := exists_ended (Option.mem_toList.mp new)
      exact ⟨i, ended, List.mem_append_right _ (Option.mem_toList.mpr seen), result⟩

/-- The trace of a batch begins with its turn. -/
theorem trace_turn {rest : List Submission} (dated : p.Dated) (ticketed : p.Ticketed)
    (admissions : Admissions entries p) (next : p.waiting = s :: rest)
    (rule : Step x p .turn ({ p with waiting := rest, nextBatch := p.nextBatch + 1 }.proceed
      (Batch.opening s p.nextBatch ⟨p.now, p.order⟩) .poolShutdown)) :
    Trace s p.nextBatch ⟨p.now, p.order⟩ [] [] (entries ++ [.admitted s p.nextBatch])
      ({ p with waiting := rest, nextBatch := p.nextBatch + 1 }.proceed
        (Batch.opening s p.nextBatch ⟨p.now, p.order⟩) .poolShutdown) := by
  refine ⟨?_, by simp, fun e there own => ?_, by simp⟩
  · rw [rule.missing_eq]
    exact looping_turn dated ticketed next
  · rw [accepted_admitted] at there
    obtain ⟨s', member, _⟩ := admissions.source e there
    exact absurd own (Nat.ne_of_lt (admissions.dated _ member))

/-- A batch that has its answer has it from its loop: each result has an origin. -/
theorem Trace.origin (trace : Trace s number timer happenings fin entries p)
    (ticketed : p.Ticketed) (answered : p.answerOf? s.ticket = some results) :
    results.length = s.records.length ∧ ∀ (i : Nat) (result : JobResult),
      results[i]? = some result →
        Accounts.Origin s number p.missing happenings i result := by
  obtain ⟨⟨a, happens, follows⟩, _, _⟩ := trace.looping
  have balanced := Accounts.balanced_of_meetAll happens
  obtain ⟨ticket, _, _, missing⟩ := balanced.constant
  have finished : a.isOver = true := by
    by_contra goes
    obtain ⟨set, active⟩ := follows.going (by simpa using goes)
    have none := answerOf?_eq_none (ticketed.unanswered active)
    rw [show (setTimer a.batch set).ticket = s.ticket from ticket, answered] at none
    cases none
  have same : results = a.results := by
    have own := (follows.finished finished).1
    rw [ticket, answered] at own
    exact Option.some.inj own
  subst same
  refine ⟨balanced.length, fun i result here => ?_⟩
  rw [Accounts.results, Ledger.finish, List.getElem?_map, Option.map_eq_some_iff] at here
  obtain ⟨slot, there, rfl⟩ := here
  cases slot with
  | none =>
      rw [Option.getD_none, missing]
      exact .timeout
  | some result => exact (Accounts.tried_of_meetAll happens).origin i result there

/-! ### All batches of a pool -/

/-- Each batch that was admitted has its trace. -/
structure Traced (x : Executor W) (entries : List (Entry W)) (p : Pool W) : Prop where
  kept : Kept x entries p
  dated : p.Dated
  traces : ∀ s number, (s, number) ∈ admitted entries →
    ∃ timer happenings fin, Trace s number timer happenings fin entries p

theorem traced_start {limits : PoolLimits} {size : Nat} {world : W} :
    Traced x [] (start limits size world) where
  kept := kept_start
  dated := dated_start
  traces := by simp [admitted]

theorem Traced.step (traced : Traced x entries p) (rule : Step x p event q) :
    Traced x (entries ++ (p.logged? event).toList) q where
  kept := traced.kept.step rule
  dated := traced.dated.step rule
  traces := by
    have ticketed := traced.kept.ticketed
    intro s number there
    rw [admitted_more, List.mem_append, Option.mem_toList] at there
    rcases there with old | new
    · obtain ⟨timer, happenings, fin, trace⟩ := traced.traces s number old
      exact ⟨timer, _, _, trace.step ticketed rule⟩
    · have seen := of_admitted? new
      obtain ⟨rfl, rfl, rest, next, rfl⟩ := rule.admits seen
      rw [seen]
      exact ⟨_, _, _, trace_turn traced.dated ticketed traced.kept.admissions next rule⟩

theorem traced_replay {limits : PoolLimits} {size : Nat} {world : W}
    (run : (start limits size world).replay x events = some q) :
    Traced x ((start limits size world).log x events) q := by
  refine replay_induction (motive := fun events q =>
    Traced x ((start limits size world).log x events) q) traced_start
    (fun events p event q run before rule => ?_) run
  rw [log_snoc run]
  exact before.step rule

end Pool

end JobQueue
