/-
The slots of a batch and the store.

A result tells its caller what the pool has done to the record. While a store is changed by the
runs of one pool only, what is gone stays gone, and the record of each run that has ended without
an error is gone (`Tended`). The main statement is `slots_truthful`: a record that its batch has
refused is never run for it; one that has succeeded was run to a good end and is gone;
any other error that is not the lack of a report is the one that the run of the record ended with.
-/

import JobQueue.Proofs.Pool.Origins

namespace JobQueue

variable {W C : Type} {shelf : Shelf W C} {ids : List String} {id : String}

namespace Task

variable {α : Type} {t t' : Task W α} {input : Input W}

theorem KeepsGone.given (keeps : t.KeepsGone shelf ids) (step : t.given input = some t')
    (good : ∀ w, input = .world w → shelf.Good w) : t'.KeepsGone shelf ids := by
  cases t with
  | done a => cases step
  | act update next =>
      cases input with
      | world w =>
          cases step
          exact (keeps w (good w rfl)).2.2
      | came came => cases step
  | wait ready limit next =>
      cases input with
      | world w => cases step
      | came came =>
          cases step
          exact keeps came

theorem Clears.came {t t' : Task W Ended} {came : Bool} {gone : Prop}
    (clears : t.Clears shelf id gone) (step : t.given (.came came) = some t') :
    t'.Clears shelf id gone := by
  cases t with
  | done a => cases step
  | act update next => cases step
  | wait ready limit next =>
      cases step
      exact clears came

end Task

namespace Pool

variable {x : Executor W} {p q : Pool W} {event : Event} {entries : List (Entry W)}

/-! ### What is gone stays gone -/

/-- The store is in order, the runs of a pool bring nothing back, and the record of each run that
has ended without an error is gone. -/
structure Tended (shelf : Shelf W C) (ids : List String) (entries : List (Entry W)) (p : Pool W) :
    Prop where
  good : shelf.Good p.world
  keeps : ∀ i e task, p.runOf? i = some (e, task) → task.KeepsGone shelf ids
  clears : ∀ i e task, p.runOf? i = some (e, task) → e.record.id ∈ ids →
    task.Clears shelf e.record.id (shelf.cell p.world e.record.id = none)
  gone : ∀ i e ended, .ended i e ended ∈ entries → ended.result = .ok () → e.record.id ∈ ids →
    shelf.cell p.world e.record.id = none

theorem tended_start {limits : PoolLimits} {size : Nat} {world : W} (good : shelf.Good world) :
    Tended shelf ids [] (start limits size world) where
  good := good
  keeps := by
    intro i e task here
    cases runOf?_start.symm.trans here
  clears := by
    intro i e task here
    cases runOf?_start.symm.trans here
  gone := by simp

/-- An event keeps the store in order and brings nothing back. -/
theorem Tended.stays (tended : Tended shelf ids entries p) (rule : Step x p event q) :
    shelf.Good q.world ∧
      ∀ id ∈ ids, shelf.cell p.world id = none → shelf.cell q.world id = none := by
  rcases rule.world_eq with ⟨same, _⟩ | ⟨i, e, update, next, here, after, _⟩
  · rw [same]
    exact ⟨tended.good, fun id _ gone => gone⟩
  · obtain ⟨good, gone, _⟩ := tended.keeps i e _ here p.world tended.good
    rw [after]
    exact ⟨good, gone⟩

theorem Tended.step (tended : Tended shelf ids entries p) (buries : x.Buries shelf ids)
    (rule : Step x p event q) : Tended shelf ids (entries ++ (p.logged? event).toList) q := by
  obtain ⟨good, stays⟩ := tended.stays rule
  refine ⟨good, ?_, ?_, ?_⟩
  · intro i e task here
    rcases rule.strideOf i with ⟨same, _⟩ | ⟨_, stride⟩
    · exact tended.keeps i e task (same.symm.trans here)
    · rw [here] at stride
      generalize before : p.runOf? i = run at stride
      generalize told : p.logged? event = entry at stride
      cases stride with
      | took => exact buries.keepsGone_run
      | did given =>
          refine (tended.keeps i e _ before).given given ?_
          rintro w rfl
          rcases rule.world_eq with ⟨_, unseen⟩ | ⟨_, _, _, _, _, _, seen⟩
          · exact absurd told (unseen i e w)
          · cases told.symm.trans seen
            exact tended.good
  · intro i e task here own
    rcases rule.strideOf i with ⟨same, _⟩ | ⟨_, stride⟩
    · exact (tended.clears i e task (same.symm.trans here) own).mono (stays _ own)
    · rw [here] at stride
      generalize before : p.runOf? i = run at stride
      generalize told : p.logged? event = entry at stride
      cases stride with
      | took => exact Executor.clears_run buries.store
      | @did _ task' _ input given =>
          have clears := tended.clears i e _ before own
          cases input with
          | came came => exact (clears.came given).mono (stays _ own)
          | world w =>
              rcases rule.world_eq with ⟨_, unseen⟩ | ⟨_, _, update, next, there, after, seen⟩
              · exact absurd told (unseen i e w)
              · cases told.symm.trans seen
                cases before.symm.trans there
                cases given
                rw [after]
                exact clears p.world tended.good
  · intro i e ended there fine own
    rcases List.mem_append.mp there with old | new
    · exact stays _ own (tended.gone i e ended old fine own)
    · have seen := Option.mem_toList.mp new
      rcases rule.strideOf i with ⟨_, other⟩ | ⟨_, stride⟩
      · exact absurd rfl (other _ seen)
      · rw [seen] at stride
        generalize before : p.runOf? i = run at stride
        generalize q.runOf? i = after at stride
        cases stride
        exact stays _ own (tended.clears i e _ before own fine)

/-! ### What a slot tells -/

/-- An envelope of the batch with a ticket. -/
def OfBatch (entries : List (Entry W)) (ticket : Nat) (e : Envelope) : Prop :=
  ∃ a ∈ admitted entries, a.1.ticket = ticket ∧ a.2 = e.batch

/-- A worker has run a record for the batch with a ticket, from the beginning to the end. -/
def HasRunFor (x : Executor W) (entries : List (Entry W)) (ticket : Nat) (r : JobRecord) (i : Nat)
    (inputs : List (Task.Input W)) (ended : Ended) : Prop :=
  ∃ e before after, OfBatch entries ticket e ∧ e.record = r ∧
    ofWorker entries i =
      before ++ .begun i e :: (inputs.map (.did i e) ++ .ended i e ended :: after) ∧
    (x.run (some i) r).follow inputs = some (.done ended)

theorem HasRunFor.follows {ticket : Nat} {r : JobRecord} {i : Nat} {inputs : List (Task.Input W)}
    {ended : Ended} (run : HasRunFor x entries ticket r i inputs ended) :
    (x.run (some i) r).follow inputs = some (.done ended) := by
  obtain ⟨_, _, _, _, _, _, follows⟩ := run
  exact follows

/-- What the result of a record in a batch tells. -/
structure Tells (x : Executor W) (shelf : Shelf W C) (entries : List (Entry W)) (ticket : Nat)
    (r : JobRecord) (result : JobResult) (world : W) : Prop where
  /-- A record that was refused is not run for the batch, and so not written for it. -/
  refused : ∀ reason, result = .error reason → reason.isRefusal = true →
    ∀ e, OfBatch entries ticket e → e.record.id = r.id →
      e ∉ accepted entries ∧ (∀ i, (i, e) ∉ begun entries) ∧
        (∀ i input, .did i e input ∉ entries) ∧ ∀ i ended, .ended i e ended ∉ entries
  /-- A record that has succeeded was run to a good end, and is gone. -/
  succeeded : result = .ok () → ∃ i inputs ended, HasRunFor x entries ticket r i inputs ended ∧
    x.Succeeds (some i) r inputs ∧ shelf.cell world r.id = none
  /-- Any other error but the lack of a report is the one with which the run of the record ended. -/
  failed : ∀ reason, result = .error reason → reason.isPoolCapacity = false →
    ∃ i inputs ended, HasRunFor x entries ticket r i inputs ended ∧
      resultOf ended = .error reason

variable {ticket number : Nat} {s : Submission} {timer : Timer} {happenings : List Happening}
  {fin : List (Envelope × JobResult)} {r : JobRecord} {result : JobResult}

theorem isPoolCapacity_of_isRefusal {reason : JobError} (refusal : reason.isRefusal = true) :
    reason.isPoolCapacity = true := by
  cases reason <;> first | rfl | cases refusal

/-- What was not accepted is not run. -/
theorem Kept.unrun {e : Envelope} (kept : Kept x entries p) (absent : e ∉ accepted entries) :
    (∀ i, (i, e) ∉ begun entries) ∧ (∀ i input, .did i e input ∉ entries) ∧
      ∀ i ended, .ended i e ended ∉ entries := by
  have unbegun : ∀ i, (i, e) ∉ begun entries := by
    intro i there
    refine absent ?_
    rw [kept.order]
    exact List.mem_append_left _ (List.mem_map.mpr ⟨_, there, rfl⟩)
  have all : ∀ i, begun (ofWorker entries i) ⊆ begun entries := fun i =>
    (List.filter_sublist.filterMap _).subset
  have own : ∀ {i : Nat} {entry : Entry W}, entry.worker? = some i → entry ∈ entries →
      entry ∈ ofWorker entries i := by
    intro i entry told there
    rw [ofWorker, List.mem_filter]
    exact ⟨there, by simp [told]⟩
  refine ⟨unbegun, fun i input there => ?_, fun i ended there => ?_⟩
  · exact unbegun i (all i ((kept.shifts i).did (own rfl there)))
  · obtain ⟨before, inputs, after, told, _⟩ := (kept.shifts i).past (own rfl there)
    refine unbegun i (all i ?_)
    rw [told]
    simp [begun, Entry.begun?]

/-- A run of a batch that has ended is one from beginning to end. -/
theorem Kept.hasRunFor {e : Envelope} {i : Nat} {ended : Ended} (kept : Kept x entries p)
    (own : OfBatch entries ticket e) (there : .ended i e ended ∈ entries) :
    ∃ inputs, HasRunFor x entries ticket e.record i inputs ended := by
  have told : .ended i e ended ∈ ofWorker entries i := by
    rw [ofWorker, List.mem_filter]
    exact ⟨there, by simp [Entry.worker?]⟩
  obtain ⟨before, inputs, after, split, follows⟩ := (kept.shifts i).past told
  exact ⟨inputs, e, before, after, own, rfl, split, follows⟩

/-- An envelope of the batch with a ticket carries the number of that batch. -/
theorem OfBatch.batch_eq {e : Envelope} (own : OfBatch entries s.ticket e)
    (kept : Kept x entries p) (there : (s, number) ∈ admitted entries) : e.batch = number := by
  obtain ⟨a, member, ticket, batch⟩ := own
  have same := List.inj_on_of_nodup_map kept.admissions.tickets member there ticket
  rw [← batch, same]

theorem result_of_resultOf {ended : Ended} (fine : resultOf ended = .ok ()) :
    ended.result = .ok () := by
  unfold resultOf at fine
  split at fine
  next same => exact same
  next => cases fine
  next => cases fine

/-- What the result of a record tells, when the batch has had its turn. -/
theorem Traced.tells {results : List JobResult} {i : Nat} (traced : Traced x entries p)
    (tended : Tended shelf (s.records.map JobRecord.id) entries p) (candid : x.Candid)
    (distinct : (s.records.map JobRecord.id).Nodup) (there : (s, number) ∈ admitted entries)
    (answered : p.answerOf? s.ticket = some results) (named : s.records[i]? = some r)
    (here : results[i]? = some result) :
    Tells x shelf entries s.ticket r result p.world := by
  have kept := traced.kept
  obtain ⟨timer, happenings, fin, trace⟩ := traced.traces s number there
  have tagged : ∀ {j : Nat} {r' : JobRecord}, s.records[j]? = some r' →
      (s.records.map JobRecord.id)[j]? = some r'.id := by
    intro j r' named
    rw [List.getElem?_map, named, Option.map_some]
  have inside : i < (s.records.map JobRecord.id).length :=
    (List.getElem?_eq_some_iff.mp (tagged named)).1
  have only : ∀ {j : Nat} {r' : JobRecord}, s.records[j]? = some r' → r'.id = r.id → i = j := by
    intro j r' named' same
    refine (List.getElem?_inj inside distinct).mp ?_
    rw [tagged named, tagged named', same]
  cases (trace.origin kept.ticketed answered).2 i result here with
  | @refused reason failed =>
      have refusal : reason.isRefusal = true := by
        refine trace.refusals reason ?_
        obtain ⟨h, met, attempt⟩ := List.mem_filterMap.mp (List.mem_of_getElem? failed)
        cases h <;> cases attempt
        exact met
      refine ⟨fun _ _ _ e own same => ?_, nofun, ?_⟩
      · have absent : e ∉ accepted entries := by
          intro member
          obtain ⟨j, named', sent⟩ := trace.sent e member (own.batch_eq kept there)
          cases only named' same
          cases failed.symm.trans sent
        exact ⟨absent, kept.unrun absent⟩
      · rintro _ ⟨⟩ own
        cases own.symm.trans (isPoolCapacity_of_isRefusal refusal)
  | @report report met own tag =>
      obtain ⟨e, ran, batch, member, id⟩ := trace.looping.reports report met own
      have same : e.record = r := by
        obtain ⟨j, named'⟩ := List.mem_iff_getElem?.mp member
        have ids : e.record.id = r.id :=
          id.trans (Option.some.inj (tag.symm.trans (tagged named)))
        cases only named' ids
        exact Option.some.inj (named'.symm.trans named)
      subst same
      obtain ⟨worker, ended, told, result⟩ := trace.runs _ ran
      obtain ⟨inputs, run⟩ := kept.hasRunFor ⟨_, there, rfl, batch.symm⟩ told
      dsimp only at told result
      have own := (Executor.returns_run candid).follow run.follows
      rw [← result]
      refine ⟨fun reason failed refusal => ?_, fun fine => ?_, fun reason failed _ => ?_⟩
      · have capacity := isPoolCapacity_of_isRefusal refusal
        cases capacity.symm.trans (own reason failed)
      · have fine' := result_of_resultOf fine
        refine ⟨worker, inputs, ended, run, Executor.succeeds_of_follow run.follows fine', ?_⟩
        exact tended.gone worker e ended told fine'
          (List.mem_of_getElem? (tagged named))
      · exact ⟨worker, inputs, ended, run, failed⟩
  | timeout =>
      refine ⟨?_, nofun, ?_⟩
      · rintro _ ⟨⟩ refusal
        cases refusal
      · rintro _ ⟨⟩ own
        cases own

/-- What the result of a record tells, when the batch was rejected. -/
theorem tells_rejection {i : Nat} {records : List JobRecord} {world : W}
    (unadmitted : ∀ a ∈ admitted entries, a.1.ticket ≠ ticket)
    (here : (rejection records)[i]? = some result) :
    Tells x shelf entries ticket r result world := by
  rw [rejection, List.getElem?_map, Option.map_eq_some_iff] at here
  obtain ⟨_, _, rfl⟩ := here
  refine ⟨fun _ _ _ e own _ => ?_, nofun, ?_⟩
  · obtain ⟨a, member, ticket, _⟩ := own
    exact absurd ticket (unadmitted a member)
  · rintro _ ⟨⟩ own
    cases own

section Run

variable {limits : PoolLimits} {size : Nat} {world : W} {before later : List Event}
  {records : List JobRecord}

theorem tended_replay (buries : x.Buries shelf ids) (good : shelf.Good world)
    (run : (start limits size world).replay x later = some q) :
    Tended shelf ids ((start limits size world).log x later) q := by
  refine replay_induction (motive := fun events q =>
    Tended shelf ids ((start limits size world).log x events) q) (tended_start good)
    (fun events p event q run before rule => ?_) run
  rw [log_snoc run]
  exact before.step buries rule

/-- The course in which a batch is handed in. -/
theorem replay_submit (first : (start limits size world).replay x before = some p)
    (run : (p.submit records).2.replay x later = some q) :
    (start limits size world).replay x (before ++ .submit records :: later) = some q := by
  rw [replay_append, first]
  exact run

theorem handled_replay (first : (start limits size world).replay x before = some p)
    (run : (p.submit records).2.replay x later = some q) :
    Handled ((start limits size world).log x (before ++ .submit records :: later)) p.nextTicket
      records q := by
  refine replay_induction (motive := fun later q =>
    Handled ((start limits size world).log x (before ++ .submit records :: later)) p.nextTicket
      records q) ?_ (fun later c event c' run' handled rule => ?_) run
  · have log : (start limits size world).log x (before ++ [.submit records]) =
        (start limits size world).log x before := (log_snoc first).trans (List.append_nil _)
    rw [log]
    exact handled_submit (traced_replay first).kept
  · have all := replay_submit first run'
    rw [← List.cons_append, ← List.append_assoc, log_snoc all]
    exact handled.step (traced_replay all).kept rule

/-- The slots of a batch tell the truth about the store. In every course of a pool, with any limits,
any number of workers, and a shutdown and its deadline at any time, let a batch of records with
different ids be answered. Then a record with a refusal is not run for the batch and is never run
for it later; the handler of a record that has succeeded has returned without an error, and the
record is gone; and any other error but the lack of a report is the one that the run of the record
for this batch ended with. -/
theorem slots_truthful (buries : x.Buries shelf (records.map JobRecord.id)) (candid : x.Candid)
    (distinct : (records.map JobRecord.id).Nodup) (good : shelf.Good world)
    (first : (start limits size world).replay x before = some p)
    (run : (p.submit records).2.replay x later = some q) {results : List JobResult}
    (answered : q.answerOf? p.nextTicket = some results) :
    results.length = records.length ∧ ∀ (i : Nat) (r : JobRecord) (result : JobResult),
      records[i]? = some r → results[i]? = some result →
        Tells x shelf ((start limits size world).log x (before ++ .submit records :: later))
          p.nextTicket r result q.world := by
  have all := replay_submit first run
  have traced := traced_replay all
  have tended := tended_replay buries good all
  have ticketed := traced.kept.ticketed
  cases handled_replay first run with
  | waiting waits =>
      have once := ticketed.once
      rw [Pool.tickets, List.nodup_append] at once
      have there : p.nextTicket ∈ q.answers.map Prod.fst := by
        by_contra absent
        rw [answerOf?_eq_none absent] at answered
        cases answered
      refine absurd rfl (once.2.2 _ there _ (List.mem_append_right _ ?_))
      exact List.mem_map.mpr ⟨_, waits, rfl⟩
  | rejected rejected unadmitted =>
      cases answered.symm.trans rejected
      refine ⟨List.length_map _, fun i r result _ here => ?_⟩
      exact tells_rejection unadmitted here
  | turned number there =>
      obtain ⟨timer, happenings, fin, trace⟩ := traced.traces _ number there
      refine ⟨(trace.origin ticketed answered).1, fun i r result named here => ?_⟩
      exact traced.tells tended candid distinct there answered named here

end Run

section Example

open Simulation

theorem easyExecutor_buries : easyExecutor.Buries World.shelf ids where
  store := (MemoryStore.reliable World.storePart_lawful).toKeeps.unreliable World.unreliable
  ticking := fun _ _ => World.same_of_store rfl
  handlers := fun jobType handler found context job =>
    (easyExecutor_spares jobType handler found context job).keepsGone

theorem easyExecutor_candid : easyExecutor.Candid := by
  intro jobType handler found context job
  obtain ⟨script, member, rfl, _⟩ := Script.script_of_get found
  cases List.mem_singleton.mp member
  rw [Script.run_eq]
  exact fun _ => nofun

/-- A course in which the one worker is told to quit while it runs the first of two jobs, so that
nobody is left to take the second. -/
def deserted : List Event :=
  [.turn, .send, .take 0, .run 0, .run 0, .shutdown, .deadline, .run 0, .run 0, .run 0, .deliver 0,
    .quit 0, .sendClosed, .collect]

/-- A pool of one worker on two jobs. -/
def lonely : Pool World := start ⟨30, 300, 10⟩ 1 (World.still (easyJobs ["a", "b"]))

/-- Of two jobs the first succeeds and is gone, and the second is refused and never run. -/
theorem slots_truthful_deserted : ∃ q : Pool World,
    (lonely.submit (easyJobs ["a", "b"])).2.replay easyExecutor deserted = some q ∧
    q.answerOf? 0 = some [.ok (), .error .poolShutdown] ∧
    World.shelf.cell q.world "a" = none ∧
    Envelope.mk 0 (easyJob "b") ∉
      accepted (lonely.log easyExecutor (.submit (easyJobs ["a", "b"]) :: deserted)) := by
  obtain ⟨q, run, answered⟩ : ∃ q,
      (lonely.submit (easyJobs ["a", "b"])).2.replay easyExecutor deserted = some q ∧
      q.answerOf? 0 = some [.ok (), .error .poolShutdown] := ⟨_, rfl, rfl⟩
  have buries : easyExecutor.Buries World.shelf ((easyJobs ["a", "b"]).map JobRecord.id) :=
    easyExecutor_buries
  have first : lonely.replay easyExecutor [] = some lonely := rfl
  obtain ⟨_, tells⟩ :=
    slots_truthful buries easyExecutor_candid (by decide) trivial first run answered
  obtain ⟨_, _, _, _, _, gone⟩ := (tells 0 (easyJob "a") _ rfl rfl).succeeded rfl
  have own : OfBatch (lonely.log easyExecutor (.submit (easyJobs ["a", "b"]) :: deserted)) 0
      ⟨0, easyJob "b"⟩ := ⟨(⟨0, easyJobs ["a", "b"]⟩, 0), List.mem_cons_self, rfl, rfl⟩
  exact ⟨q, run, answered, gone,
    ((tells 1 (easyJob "b") _ rfl rfl).refused _ rfl rfl _ own rfl).1⟩

end Example

end Pool

end JobQueue
