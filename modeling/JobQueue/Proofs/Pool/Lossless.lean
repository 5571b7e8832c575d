/-
A batch of which nothing is lost.

As long as no wait runs out, every record of a batch is either unsent, in the job channel, with a
worker, or its run has ended; and every result of an ended run is with a worker, in the report
channel, or in a slot (`Lossless`). For each id these come in the order of the records, provided
that no two workers ever hold one id: the batch names no id twice, or there is one worker only
(`Separate`). The main statements are one for each event that moves something: `Lossless.send`,
`Lossless.take`, `Lossless.finish`, `Lossless.deliver` and `Lossless.collect`.
-/

import JobQueue.Proofs.Pool.Accounts
import JobQueue.Proofs.Pool.Flow

namespace JobQueue

/-! ### Things under one id -/

/-- What belongs to one id, of things that each belong to some id. -/
def underId {α β : Type} (key : α → String) (value : α → β) (id : String) (l : List α) : List β :=
  (l.filter fun a => key a == id).map value

section UnderId

variable {α β γ : Type} {key : α → String} {value : α → β} {id : String} {a : α} {l l' : List α}

@[simp] theorem underId_nil : underId key value id [] = [] := rfl

@[simp] theorem underId_append :
    underId key value id (l ++ l') = underId key value id l ++ underId key value id l' := by
  simp [underId]

theorem underId_cons : underId key value id (a :: l) =
    (if key a = id then [value a] else []) ++ underId key value id l := by
  by_cases same : key a = id <;> simp [underId, same]

theorem length_underId_perm (perm : l.Perm l') :
    (underId key value id l).length = (underId key value id l').length := by
  rw [underId, underId, List.length_map, List.length_map, (perm.filter _).length_eq]

theorem length_underId {other : α → γ} :
    (underId key value id l).length = (underId key other id l).length := by
  rw [underId, underId, List.length_map, List.length_map]

/-- Where an id is named once at most, one thing belongs to it at most. -/
theorem length_underId_le_one (nodup : (l.map key).Nodup) :
    (underId key value id l).length ≤ 1 := by
  have count : (underId key value id l).length = (l.map key).count id := by
    rw [underId, List.length_map, List.count, List.countP_map, List.countP_eq_length_filter]
    rfl
  rw [count]
  exact List.nodup_iff_count_le_one.mp nodup id

theorem mem_underId {b : β} : b ∈ underId key value id l ↔ ∃ a ∈ l, key a = id ∧ value a = b := by
  simp [underId, and_assoc]

end UnderId

/-- The records of envelopes of one id. -/
def recordsOf (id : String) (l : List Envelope) : List JobRecord :=
  underId (fun e => e.record.id) (fun e => e.record) id l

theorem length_recordsOf_perm {id : String} {l l' : List Envelope} (perm : l.Perm l') :
    (recordsOf id l).length = (recordsOf id l').length :=
  length_underId_perm perm

/-- The results of reports of one id. -/
def resultsOf (id : String) (l : List Report) : List JobResult :=
  underId (fun report => report.jobId) (fun report => report.result) id l

theorem length_resultsOf_perm {id : String} {l l' : List Report} (perm : l.Perm l') :
    (resultsOf id l).length = (resultsOf id l').length :=
  length_underId_perm perm

/-- The records of one id whose runs have ended. -/
def ranOf (id : String) (l : List (Envelope × JobResult)) : List JobRecord :=
  underId (fun entry => entry.1.record.id) (fun entry => entry.1.record) id l

/-- The results of the runs of one id that have ended. -/
def gaveOf (id : String) (l : List (Envelope × JobResult)) : List JobResult :=
  underId (fun entry => entry.1.record.id) (fun entry => entry.2) id l

/-- The records of one id that are not sent. -/
def unsentOf (id : String) (l : List (Nat × JobRecord)) : List JobRecord :=
  underId (fun entry => entry.2.id) (fun entry => entry.2) id l

namespace Ledger

/-- The results in the slots of one id, in the order of the slots. -/
def filledOf (id : String) (ids : List String) (slots : List (Option JobResult)) :
    List JobResult :=
  (ids.zip slots).filterMap fun entry => if entry.1 = id then entry.2 else none

variable {ids : List String} {tried i : Nat} {id a : String} {l : Ledger} {pending : Pending}
  {result : JobResult} {slots : List (Option JobResult)}

/-- Of the slots of one id the earlier ones are filled first. -/
def Ordered (ids : List String) (l : Ledger) : Prop :=
  ∀ id, ∀ i ∈ l.pending.queue id, ∀ (j : Nat) (result : JobResult), ids[j]? = some id →
    l.slots[j]? = some (some result) → j < i

theorem filledOf_cons {slot : Option JobResult} : filledOf id (a :: ids) (slot :: slots) =
    (if a = id then slot else none).toList ++ filledOf id ids slots := by
  simp only [filledOf, List.zip_cons_cons, List.filterMap_cons]
  cases (if a = id then slot else none) <;> rfl

theorem filledOf_eq_nil (empty : ∀ (j : Nat) (result : JobResult), ids[j]? = some id →
    slots[j]? ≠ some (some result)) : filledOf id ids slots = [] := by
  rw [filledOf, List.filterMap_eq_nil_iff]
  intro entry member
  obtain ⟨j, inside, rfl⟩ := List.getElem_of_mem member
  have bounds := inside
  rw [List.length_zip, Nat.lt_min] at bounds
  have tag := List.getElem?_eq_getElem bounds.1
  have slot := List.getElem?_eq_getElem bounds.2
  rw [List.getElem_zip]
  split
  next same =>
    cases held : slots[j] with
    | none => rfl
    | some result => exact absurd (held ▸ slot) (empty j result (same ▸ tag))
  next => rfl

/-- Filling a slot adds its result behind those of its id, if all later slots of the id are
empty, and changes nothing for another id. -/
theorem filledOf_set (tag : ids[i]? = some id) (empty : slots[i]? = some none)
    (later : ∀ (j : Nat) (result : JobResult), i < j → ids[j]? = some id →
      slots[j]? ≠ some (some result)) :
    filledOf a ids (slots.set i (some result)) =
      filledOf a ids slots ++ if id = a then [result] else [] := by
  induction ids generalizing i slots with
  | nil => simp at tag
  | cons k ids ih =>
      cases slots with
      | nil => simp at empty
      | cons slot slots =>
          cases i with
          | zero =>
              simp only [List.getElem?_cons_zero, Option.some.injEq] at tag empty
              subst tag empty
              by_cases same : k = a
              · subst same
                have none : filledOf k ids slots = [] :=
                  filledOf_eq_nil fun j result there => later (j + 1) result (by omega) there
                simp only [filledOf] at none
                simp [filledOf, none]
              · simp [filledOf, same]
          | succ i =>
              have tag : ids[i]? = some id := tag
              have empty : slots[i]? = some none := empty
              have rest := ih tag empty
                (fun j result after there => later (j + 1) result (by omega) there)
              simp only [filledOf] at rest
              simp only [filledOf, List.set_cons_succ, List.zip_cons_cons, List.filterMap_cons]
              split <;> simp [rest]

theorem ordered_start {n : Nat} : Ordered ids (start n) := by simp [Ordered, start]

/-- A filled slot is one of a record that has been tried. -/
theorem Sound.lt_of_filled (sound : l.Sound ids tried) (there : l.slots[i]? = some (some result)) :
    i < tried := by
  by_contra later
  have inside : i < ids.length := sound.size ▸ (List.getElem?_eq_some_iff.mp there).1
  rw [sound.untried i (by omega) inside] at there
  cases there

theorem Ordered.sent (ordered : Ordered ids l) (sound : l.Sound ids tried) :
    Ordered ids (l.sent id tried) := by
  intro a i waits j result tag there
  have queue : (l.sent id tried).pending.queue a = _ := Pending.queue_push
  rw [queue] at waits
  split at waits
  next same =>
    rcases List.mem_append.mp waits with old | new
    · exact ordered id i old j result (same ▸ tag) there
    · rw [List.mem_singleton.mp new]
      exact sound.lt_of_filled there
  next => exact ordered a i waits j result tag there

/-- The index that a report fills is the first open one of its id. -/
theorem Ordered.receive (ordered : Ordered ids l) (sound : l.Sound ids tried)
    (taken : l.pending.takeFor id = some (i, pending)) : Ordered ids (l.receive id result) := by
  obtain ⟨front, others, _, _⟩ := Pending.takeFor_eq_some taken
  intro a k waits j other tag there
  simp only [Ledger.receive, taken] at waits there
  by_cases filled : i = j
  · by_cases same : a = id
    · have sorted := sound.sorted id
      rw [front, List.pairwise_cons] at sorted
      exact filled ▸ sorted.1 k (same ▸ waits)
    · have own := sound.tagged id i (by simp [front])
      rw [filled, tag, Option.some.injEq] at own
      exact absurd own same
  · rw [fill_other filled] at there
    by_cases same : a = id
    · refine ordered a k ?_ j other tag there
      rw [same, front]
      exact List.mem_cons_of_mem _ (same ▸ waits)
    · rw [others a same] at waits
      exact ordered a k waits j other tag there

/-- A report adds its result behind those of its id. -/
theorem Ordered.filledOf_receive (ordered : Ordered ids l) (sound : l.Sound ids tried)
    (taken : l.pending.takeFor id = some (i, pending)) :
    filledOf a ids (l.receive id result).slots =
      filledOf a ids l.slots ++ if id = a then [result] else [] := by
  have front := (Pending.takeFor_eq_some taken).1
  have waits : i ∈ l.pending.queue id := by simp [front]
  simp only [Ledger.receive, taken]
  apply filledOf_set (sound.tagged id i waits) (sound.empty_of_takeFor taken)
  intro j other after tag there
  exact absurd (ordered id i waits j other tag there) (by omega)

end Ledger

namespace Pool

variable {W : Type}

/-- Whether no two records of a batch with one id can be with two workers. -/
def Separate (size : Nat) (records : List JobRecord) : Prop :=
  size ≤ 1 ∨ (records.map JobRecord.id).Nodup

/-- The accounts of a batch of which nothing has been lost. -/
structure Lossless (records : List JobRecord) (number : Nat) (fin : List (Envelope × JobResult))
    (unsent : List (Nat × JobRecord)) (ledger : Ledger) (p : Pool W) : Prop where
  /-- The counter counts what is on its way. -/
  even : ledger.outstanding = p.envelopes.length + p.outcomes.length
  stamped : (∀ e ∈ p.envelopes, e.batch = number) ∧ ∀ report ∈ p.outcomes, report.batch = number
  /-- As many indices wait for an id as there are things of that id on their way. -/
  awaited : ∀ id, (ledger.pending.queue id).length =
    (recordsOf id p.envelopes).length + (resultsOf id p.outcomes).length
  ordered : ledger.Ordered (records.map JobRecord.id)
  /-- Where the records of an id are. -/
  runs : ∀ id, records.filter (fun r => r.id == id) =
    ranOf id fin ++ (recordsOf id p.atWork ++ (recordsOf id p.jobs ++ unsentOf id unsent))
  /-- Where the results of an id are. -/
  results : ∀ id, gaveOf id fin =
    Ledger.filledOf id (records.map JobRecord.id) ledger.slots ++
      (resultsOf id p.reports ++ resultsOf id p.inHand)
  /-- No two workers hold one id. -/
  alone : ∀ id, (recordsOf id p.atWork).length + (resultsOf id p.inHand).length ≤ 1

variable {x : Executor W} {p q : Pool W} {records : List JobRecord} {number tried i index : Nat}
  {fin : List (Envelope × JobResult)} {unsent rest : List (Nat × JobRecord)} {ledger : Ledger}
  {r : JobRecord} {e : Envelope} {report : Report} {result : JobResult}

/-- A record is put into the job channel. -/
theorem Lossless.send
    (lossless : p.Lossless records number fin ((index, r) :: rest) ledger)
    (sound : ledger.Sound (records.map JobRecord.id) index)
    (jobs : q.jobs = p.jobs ++ [⟨number, r⟩]) (reports : q.reports = p.reports)
    (workers : q.workers = p.workers) :
    q.Lossless records number fin rest (ledger.sent r.id index) := by
  have atWork : q.atWork = p.atWork := by rw [Pool.atWork, Pool.atWork, workers]
  have inHand : q.inHand = p.inHand := by rw [Pool.inHand, Pool.inHand, workers]
  have envelopes : q.envelopes.Perm (⟨number, r⟩ :: p.envelopes) := by
    rw [Pool.envelopes, Pool.envelopes, atWork, jobs, List.append_assoc]
    exact List.perm_middle
  have outcomes : q.outcomes = p.outcomes := by
    rw [Pool.outcomes, Pool.outcomes, inHand, reports]
  exact {
    even := by
      have even := lossless.even
      rw [envelopes.length_eq, outcomes, List.length_cons]
      simp only [Ledger.sent]
      omega
    stamped := by
      refine ⟨?_, outcomes ▸ lossless.stamped.2⟩
      intro e there
      rcases List.mem_cons.mp (envelopes.subset there) with rfl | old
      · rfl
      · exact lossless.stamped.1 e old
    awaited := by
      intro id
      have awaited := lossless.awaited id
      have queue : (ledger.sent r.id index).pending.queue id = _ := Pending.queue_push
      rw [queue, length_recordsOf_perm envelopes, recordsOf, underId_cons, outcomes,
        List.length_append]
      rw [recordsOf] at awaited
      split
      next same =>
        rw [List.length_append, same, awaited]
        simp
        omega
      next => simpa using awaited
    ordered := lossless.ordered.sent sound
    runs := by
      intro id
      have runs := lossless.runs id
      rw [unsentOf, underId_cons] at runs
      rw [atWork, jobs, recordsOf, recordsOf, underId_append, underId_cons, runs]
      simp [recordsOf, unsentOf]
    results := by
      intro id
      rw [inHand, reports]
      exact lossless.results id
    alone := by
      intro id
      rw [inHand, atWork]
      exact lossless.alone id }

/-- What the workers hold when one of them changes, in the order of the workers. -/
theorem split_of_set {w w' : Worker W} (here : p.workers[i]? = some w)
    (workers : q.workers = p.workers.set i w') : ∃ before after before' after',
      p.atWork = before ++ (w.envelope?.toList ++ after) ∧
      q.atWork = before ++ (w'.envelope?.toList ++ after) ∧
      p.inHand = before' ++ (w.report?.toList ++ after') ∧
      q.inHand = before' ++ (w'.report?.toList ++ after') := by
  obtain ⟨left, right, split, set⟩ := exists_others here
  have middle : ∀ {α : Type} (f : Worker W → Option α) (v : Worker W),
      (left ++ v :: right).filterMap f =
        left.filterMap f ++ ((f v).toList ++ right.filterMap f) := by
    intro α f v
    cases held : f v <;> simp [held]
  refine ⟨left.filterMap Worker.envelope?, right.filterMap Worker.envelope?,
    left.filterMap Worker.report?, right.filterMap Worker.report?, ?_, ?_, ?_, ?_⟩
  · rw [Pool.atWork, split, middle]
  · rw [Pool.atWork, workers, set, middle]
  · rw [Pool.inHand, split, middle]
  · rw [Pool.inHand, workers, set, middle]

/-- While a record of an id is in the job channel, no worker holds that id. -/
theorem Lossless.nobody_holds (lossless : p.Lossless records number fin unsent ledger)
    (separate : Separate p.size records) {timer : Option Timer}
    (idle : p.workers[i]? = some ⟨.idle, timer⟩) (waits : e ∈ p.jobs) :
    recordsOf e.record.id p.atWork = [] ∧ resultsOf e.record.id p.inHand = [] := by
  rcases separate with single | nodup
  · have only : p.workers = [⟨.idle, timer⟩] := by
      obtain ⟨inside, there⟩ := List.getElem?_eq_some_iff.mp idle
      have one : p.workers.length = 1 := Nat.le_antisymm single (by omega)
      obtain ⟨w, alone⟩ := List.length_eq_one_iff.mp one
      have first : i = 0 := by omega
      subst first
      simp only [alone, List.getElem_cons_zero] at there
      rw [alone, there]
    rw [Pool.atWork, Pool.inHand, only]
    exact ⟨rfl, rfl⟩
  · have runs := congrArg List.length (lossless.runs e.record.id)
    have results := congrArg List.length (lossless.results e.record.id)
    have once : (records.filter fun r => r.id == e.record.id).length ≤ 1 := by
      have le : (underId JobRecord.id (fun r => r) e.record.id records).length ≤ 1 :=
        length_underId_le_one nodup
      rwa [underId, List.length_map] at le
    have here : 0 < (recordsOf e.record.id p.jobs).length :=
      List.length_pos_of_mem (mem_underId.mpr ⟨e, waits, rfl, rfl⟩)
    have same : (gaveOf e.record.id fin).length = (ranOf e.record.id fin).length := length_underId
    simp only [List.length_append] at runs results
    exact ⟨List.eq_nil_of_length_eq_zero (by omega), List.eq_nil_of_length_eq_zero (by omega)⟩

/-- A worker takes a record. -/
theorem Lossless.take {jobs : List Envelope} {timer timer' : Option Timer} {task : Task W Ended}
    (lossless : p.Lossless records number fin unsent ledger)
    (separate : Separate p.size records) (idle : p.workers[i]? = some ⟨.idle, timer⟩)
    (next : p.jobs = e :: jobs) (rest : q.jobs = jobs) (reports : q.reports = p.reports)
    (workers : q.workers = p.workers.set i ⟨.busy e task, timer'⟩) :
    q.Lossless records number fin unsent ledger := by
  have waits : e ∈ p.jobs := by simp [next]
  obtain ⟨noWork, noHand⟩ := lossless.nobody_holds separate idle waits
  obtain ⟨before, after, before', after', old, new, old', new'⟩ := split_of_set idle workers
  simp only [Worker.envelope?_idle, Worker.envelope?_busy, Worker.report?_idle,
    Worker.report?_busy, Option.toList_none, Option.toList_some, List.nil_append,
    List.singleton_append] at old new old' new'
  have inHand : q.inHand = p.inHand := new'.trans old'.symm
  have envelopes : q.envelopes.Perm p.envelopes := by
    rw [Pool.envelopes, Pool.envelopes, old, new, next, rest, List.cons_append, ← List.append_assoc,
      ← List.append_assoc]
    exact List.perm_middle
  have outcomes : q.outcomes = p.outcomes := by
    rw [Pool.outcomes, Pool.outcomes, inHand, reports]
  rw [old, recordsOf, underId_append, List.append_eq_nil_iff] at noWork
  exact {
    even := by rw [envelopes.length_eq, outcomes, lossless.even]
    stamped := ⟨fun e there => lossless.stamped.1 e (envelopes.subset there),
      outcomes ▸ lossless.stamped.2⟩
    awaited := by
      intro id
      rw [length_recordsOf_perm envelopes, outcomes, lossless.awaited id]
    ordered := lossless.ordered
    runs := by
      intro id
      rw [lossless.runs id, old, new, next, rest]
      simp only [recordsOf, underId_append, underId_cons]
      split
      next same => simp [← same, noWork.1, noWork.2]
      next => simp
    results := by
      intro id
      rw [inHand, reports]
      exact lossless.results id
    alone := by
      intro id
      have alone := lossless.alone id
      rw [old] at alone
      rw [inHand, new]
      simp only [recordsOf, underId_append, underId_cons, List.length_append] at alone ⊢
      split
      next same => simp [← same, noWork.1, noWork.2, noHand]
      next => simpa using alone }

/-- A worker goes on with its record, or with its report. -/
theorem Lossless.keep {w w' : Worker W}
    (lossless : p.Lossless records number fin unsent ledger) (here : p.workers[i]? = some w)
    (jobs : q.jobs = p.jobs) (reports : q.reports = p.reports)
    (workers : q.workers = p.workers.set i w') (envelope : w'.envelope? = w.envelope?)
    (report : w'.report? = w.report?) : q.Lossless records number fin unsent ledger := by
  obtain ⟨_, _, _, _, old, new, old', new'⟩ := split_of_set here workers
  have atWork : q.atWork = p.atWork := by rw [new, old, envelope]
  have inHand : q.inHand = p.inHand := by rw [new', old', report]
  obtain ⟨even, stamped, awaited, ordered, runs, results, alone⟩ := lossless
  constructor
  all_goals
    simp only [Pool.envelopes, Pool.outcomes, atWork, inHand, jobs, reports] at *
    assumption

/-- The run of a record ends, and its worker turns to the report. -/
theorem Lossless.finish {timer timer' : Option Timer} {task : Task W Ended}
    (lossless : p.Lossless records number fin unsent ledger)
    (busy : p.workers[i]? = some ⟨.busy e task, timer⟩) (jobs : q.jobs = p.jobs)
    (reports : q.reports = p.reports)
    (workers : q.workers =
      p.workers.set i ⟨.reporting ⟨e.batch, e.record.id, result⟩, timer'⟩) :
    q.Lossless records number (fin ++ [(e, result)]) unsent ledger := by
  obtain ⟨before, after, before', after', old, new, old', new'⟩ := split_of_set busy workers
  simp only [Worker.envelope?_busy, Worker.envelope?_reporting, Worker.report?_busy,
    Worker.report?_reporting, Option.toList_none, Option.toList_some, List.nil_append,
    List.singleton_append] at old new old' new'
  have envelopes : p.envelopes.Perm (e :: q.envelopes) := by
    rw [Pool.envelopes, Pool.envelopes, old, new, jobs, ← List.append_assoc, ← List.append_assoc]
    exact List.perm_middle
  have outcomes : q.outcomes.Perm (⟨e.batch, e.record.id, result⟩ :: p.outcomes) := by
    rw [Pool.outcomes, Pool.outcomes, old', new', reports, ← List.append_assoc,
      ← List.append_assoc]
    exact List.perm_middle
  -- The worker is the only one that holds the id.
  have alone := lossless.alone e.record.id
  rw [old, old'] at alone
  simp only [recordsOf, resultsOf, underId_append, underId_cons, if_true, List.length_append,
    List.length_cons, List.length_nil] at alone
  have none : underId (fun e => e.record.id) (fun e => e.record) e.record.id before = [] ∧
      underId (fun e => e.record.id) (fun e => e.record) e.record.id after = [] ∧
      underId (fun r : Report => r.jobId) (fun r => r.result) e.record.id before' = [] ∧
      underId (fun r : Report => r.jobId) (fun r => r.result) e.record.id after' = [] := by
    refine ⟨?_, ?_, ?_, ?_⟩ <;> exact List.eq_nil_of_length_eq_zero (by omega)
  obtain ⟨none₁, none₂, none₃, none₄⟩ := none
  exact {
    even := by
      have even := lossless.even
      rw [envelopes.length_eq, List.length_cons] at even
      rw [outcomes.length_eq, List.length_cons]
      omega
    stamped := by
      refine ⟨fun e' there => lossless.stamped.1 e' (envelopes.symm.subset
        (List.mem_cons_of_mem _ there)), fun report there => ?_⟩
      rcases List.mem_cons.mp (outcomes.subset there) with rfl | old
      · exact lossless.stamped.1 e (envelopes.symm.subset List.mem_cons_self)
      · exact lossless.stamped.2 report old
    awaited := by
      intro id
      have awaited := lossless.awaited id
      rw [length_recordsOf_perm envelopes] at awaited
      rw [length_resultsOf_perm outcomes, awaited]
      simp only [recordsOf, resultsOf, underId_cons, List.length_append]
      split
      · simp
        omega
      · simp
    ordered := lossless.ordered
    runs := by
      intro id
      rw [lossless.runs id, old, new, jobs]
      simp only [recordsOf, ranOf, underId_append, underId_cons]
      split
      next same => simp [← same, none₁, none₂]
      next => simp
    results := by
      intro id
      have results := lossless.results id
      rw [old'] at results
      rw [new', reports]
      simp only [resultsOf, gaveOf, underId_append, underId_cons] at results ⊢
      rw [results]
      split
      next same => simp [← same, none₃, none₄]
      next => simp
    alone := by
      intro id
      have alone := lossless.alone id
      rw [old, old'] at alone
      rw [new, new']
      simp only [recordsOf, resultsOf, underId_append, underId_cons, List.length_append] at alone ⊢
      split
      next same => simp [← same, none₁, none₂, none₃, none₄]
      next other => simpa [other] using alone }

/-- A worker puts its report into the report channel. -/
theorem Lossless.deliver {timer timer' : Option Timer}
    (lossless : p.Lossless records number fin unsent ledger)
    (reporting : p.workers[i]? = some ⟨.reporting report, timer⟩) (jobs : q.jobs = p.jobs)
    (reports : q.reports = p.reports ++ [report])
    (workers : q.workers = p.workers.set i ⟨.idle, timer'⟩) :
    q.Lossless records number fin unsent ledger := by
  obtain ⟨before, after, before', after', old, new, old', new'⟩ := split_of_set reporting workers
  simp only [Worker.envelope?_idle, Worker.envelope?_reporting, Worker.report?_idle,
    Worker.report?_reporting, Option.toList_none, Option.toList_some, List.nil_append,
    List.singleton_append] at old new old' new'
  have atWork : q.atWork = p.atWork := new.trans old.symm
  have envelopes : q.envelopes = p.envelopes := by
    rw [Pool.envelopes, Pool.envelopes, atWork, jobs]
  have outcomes : q.outcomes.Perm p.outcomes := by
    rw [Pool.outcomes, Pool.outcomes, old', new', reports, List.append_assoc,
      ← List.append_assoc _ before']
    exact List.perm_middle.symm.append_left p.reports
  exact {
    even := by rw [envelopes, outcomes.length_eq, lossless.even]
    stamped := ⟨envelopes ▸ lossless.stamped.1,
      fun report there => lossless.stamped.2 report (outcomes.subset there)⟩
    awaited := by
      intro id
      rw [length_resultsOf_perm outcomes, envelopes, lossless.awaited id]
    ordered := lossless.ordered
    runs := by
      intro id
      rw [atWork, jobs]
      exact lossless.runs id
    results := by
      intro id
      have alone := lossless.alone id
      rw [lossless.results id, old', new', reports]
      rw [old'] at alone
      simp only [resultsOf, underId_append, underId_cons, List.length_append] at alone ⊢
      split
      next same =>
        rw [if_pos same] at alone
        simp only [List.length_cons, List.length_nil] at alone
        have none : underId (fun r : Report => r.jobId) (fun r => r.result) id before' = [] ∧
            underId (fun r : Report => r.jobId) (fun r => r.result) id after' = [] := by
          constructor <;> exact List.eq_nil_of_length_eq_zero (by omega)
        simp [none.1, none.2]
      next => simp
    alone := by
      intro id
      have alone := lossless.alone id
      rw [old'] at alone
      rw [atWork, new']
      simp only [resultsOf, underId_append, underId_cons, List.length_append] at alone ⊢
      omega }

/-- The batch takes the oldest report: an index waits for it. -/
theorem Lossless.collect {reports : List Report}
    (lossless : p.Lossless records number fin unsent ledger)
    (sound : ledger.Sound (records.map JobRecord.id) tried)
    (next : p.reports = report :: reports) (jobs : q.jobs = p.jobs) (rest : q.reports = reports)
    (workers : q.workers = p.workers) :
    q.Lossless records number fin unsent (ledger.receive report.jobId report.result) ∧
      (ledger.receive report.jobId report.result).outstanding + 1 = ledger.outstanding := by
  have atWork : q.atWork = p.atWork := by rw [Pool.atWork, Pool.atWork, workers]
  have inHand : q.inHand = p.inHand := by rw [Pool.inHand, Pool.inHand, workers]
  have envelopes : q.envelopes = p.envelopes := by
    rw [Pool.envelopes, Pool.envelopes, atWork, jobs]
  have outcomes : p.outcomes = report :: q.outcomes := by
    rw [Pool.outcomes, Pool.outcomes, inHand, next, rest, List.cons_append]
  have waits := lossless.awaited report.jobId
  rw [outcomes, resultsOf, underId_cons, if_pos rfl, List.length_append] at waits
  cases taken : ledger.pending.takeFor report.jobId with
  | none =>
      rw [Pending.takeFor_eq_none_iff.mp taken] at waits
      simp only [List.length_cons, List.length_nil] at waits
      omega
  | some found =>
      obtain ⟨index, pending⟩ := found
      obtain ⟨front, others, _, _⟩ := Pending.takeFor_eq_some taken
      have outstanding : (ledger.receive report.jobId report.result).outstanding + 1 = _ :=
        sound.outstanding_receive taken
      refine ⟨?_, outstanding⟩
      exact {
        even := by
          have even := lossless.even
          rw [outcomes, List.length_cons] at even
          rw [envelopes]
          omega
        stamped := ⟨envelopes ▸ lossless.stamped.1, fun report there =>
          lossless.stamped.2 report (outcomes ▸ List.mem_cons_of_mem _ there)⟩
        awaited := by
          intro id
          have awaited := lossless.awaited id
          rw [outcomes, resultsOf, underId_cons, List.length_append] at awaited
          simp only [Ledger.receive, taken, envelopes]
          by_cases same : report.jobId = id
          · rw [if_pos same, ← same, front] at awaited
            simp only [List.length_cons, List.length_nil] at awaited
            rw [← same, resultsOf]
            omega
          · rw [if_neg same, List.length_nil, Nat.zero_add] at awaited
            rw [others id (Ne.symm same), awaited, resultsOf]
        ordered := lossless.ordered.receive sound taken
        runs := by
          intro id
          rw [atWork, jobs]
          exact lossless.runs id
        results := by
          intro id
          rw [lossless.results id, lossless.ordered.filledOf_receive sound taken, inHand, next,
            rest]
          simp only [resultsOf, underId_cons, List.append_assoc]
        alone := by
          intro id
          rw [atWork, inHand]
          exact lossless.alone id }

end Pool

end JobQueue
