/-
The loop of a batch, by itself.

A batch meets one thing after another: an attempt to send a record succeeds or fails, a report
comes in, a wait runs out, nobody is left to report. `Accounts.meet` is what the loop does with
each, whoever brings it about and in whatever order. The main statement is
`Accounts.balanced_of_meetAll`: whatever the loop meets, its accounts are sound, no result is
changed once it is there, the loop takes in at most as many things as it sent records and threw
reports away, and every result has a source among the things met.
-/

import JobQueue.Proofs.Pool.Ledger
import JobQueue.Proofs.Pool.Steps

namespace JobQueue

/-- What the loop of a batch meets. -/
inductive Happening where
  /-- The next record is in the job channel. -/
  | sent
  /-- The next record could not be sent. -/
  | refused (e : JobError)
  /-- A report came in, of this batch or another. -/
  | report (r : Report)
  /-- The wait for a report ran out. -/
  | timeout
  /-- Nobody is left to write a report. -/
  | closed

/-- The accounts of a batch while its loop runs. -/
structure Accounts where
  batch : Batch
  /-- The error of a report that did not come. -/
  missing : JobError
  /-- Whether the report channel has come to its end. -/
  isClosed : Bool
  /-- How many records were sent. -/
  sent : Nat
  /-- How many reports were thrown away. -/
  discarded : Nat
  /-- How many things were met while collecting. -/
  events : Nat

namespace Accounts

/-- The accounts of a batch whose turn begins. -/
def start (b : Batch) (missing : JobError) : Accounts := ⟨b, missing, false, 0, 0, 0⟩

/-- Whether the loop waits for a report. -/
def isCollecting (a : Accounts) : Bool :=
  a.batch.unsent.isEmpty && a.batch.ledger.outstanding != 0 && !a.isClosed

/-- Whether the loop has come to its end. -/
def isOver (a : Accounts) : Bool :=
  a.batch.unsent.isEmpty && (a.batch.ledger.outstanding == 0 || a.isClosed)

/-- Whether a report is one that the batch waits for. -/
def isAwaited (a : Accounts) (r : Report) : Bool :=
  r.batch == a.batch.number && (a.batch.ledger.pending.takeFor r.jobId).isSome

/-- The accounts after the next thing, if it can happen. -/
def meet (a : Accounts) : Happening → Option Accounts
  | .sent =>
      match a.batch.unsent with
      | (i, r) :: rest => some { a with
          batch := { a.batch with unsent := rest, ledger := a.batch.ledger.sent r.id i }
          sent := a.sent + 1 }
      | [] => none
  | .refused e =>
      match a.batch.unsent with
      | (i, _) :: rest => some { a with
          batch := { a.batch with unsent := rest, ledger := a.batch.ledger.refused i e } }
      | [] => none
  | .report r =>
      if a.isCollecting then some { a with
        batch := a.batch.collect r
        discarded := if a.isAwaited r then a.discarded else a.discarded + 1
        events := a.events + 1 }
      else none
  | .timeout =>
      if a.isCollecting then some { a with
        batch := { a.batch with ledger := a.batch.ledger.expire a.missing }
        events := a.events + 1 }
      else none
  | .closed =>
      if a.isCollecting then some { a with isClosed := true, events := a.events + 1 } else none

variable {a : Accounts} {i : Nat} {r : JobRecord} {rest : List (Nat × JobRecord)}

theorem meet_sent (next : a.batch.unsent = (i, r) :: rest) : a.meet .sent = some { a with
    batch := { a.batch with unsent := rest, ledger := a.batch.ledger.sent r.id i }
    sent := a.sent + 1 } := by
  rw [meet, next]

theorem meet_refused {e : JobError} (next : a.batch.unsent = (i, r) :: rest) :
    a.meet (.refused e) = some { a with
      batch := { a.batch with unsent := rest, ledger := a.batch.ledger.refused i e } } := by
  rw [meet, next]

/-- The accounts after a list of things, if each can happen in its turn. -/
def meetAll : Accounts → List Happening → Option Accounts
  | a, [] => some a
  | a, h :: rest => (a.meet h).bind fun a => meetAll a rest

/-- The results of the batch. -/
def results (a : Accounts) : List JobResult := a.batch.ledger.finish a.missing

/-- Where the result in a slot comes from. -/
inductive Source (s : Submission) (number : Nat) (missing : JobError)
    (happenings : List Happening) (i : Nat) : JobResult → Prop where
  /-- From a report of this batch for the record of the slot. -/
  | report {r : Report} (met : .report r ∈ happenings) (own : r.batch = number)
      (tag : (s.records.map JobRecord.id)[i]? = some r.jobId) :
      Source s number missing happenings i r.result
  /-- From a failed attempt to send a record. -/
  | refused {e : JobError} (met : .refused e ∈ happenings) :
      Source s number missing happenings i (.error e)
  /-- From a wait for a report that ran out. -/
  | timeout (met : .timeout ∈ happenings) :
      Source s number missing happenings i (.error missing)

/-! ### The records that are not tried yet -/

theorem length_indexed {records : List JobRecord} : (indexed records).length = records.length := by
  simp [indexed]

/-- The first of the records that are left is the one that comes next in the batch. -/
theorem of_cons_eq_drop {records : List JobRecord} {rest : List (Nat × JobRecord)} {tried i : Nat}
    {r : JobRecord} (left : (i, r) :: rest = (indexed records).drop tried) :
    i = tried ∧ records[tried]? = some r ∧ rest = (indexed records).drop (tried + 1) := by
  have inside : tried < (indexed records).length := by
    by_contra beyond
    rw [List.drop_eq_nil_of_le (by omega)] at left
    cases left
  rw [List.drop_eq_getElem_cons inside, List.cons.injEq] at left
  obtain ⟨first, later⟩ := left
  simp only [indexed, List.getElem_map, List.getElem_zipIdx, Prod.mk.injEq, Nat.zero_add] at first
  obtain ⟨place, record⟩ := first
  rw [length_indexed] at inside
  exact ⟨place, by rw [List.getElem?_eq_getElem inside, record], later⟩

/-- The accounts of a batch that has met some things are in order. -/
structure Balanced (s : Submission) (number : Nat) (timer : Timer) (missing : JobError)
    (happenings : List Happening) (a : Accounts) : Prop where
  /-- The batch is still the same one. -/
  constant : a.batch.ticket = s.ticket ∧ a.batch.number = number ∧ a.batch.timer = timer ∧
    a.missing = missing
  /-- The records that are not tried yet are the last ones. -/
  unsent : a.batch.unsent = (indexed s.records).drop (s.records.length - a.batch.unsent.length)
  /-- Slots, queues and counter agree. -/
  sound : a.batch.ledger.Sound (s.records.map JobRecord.id)
    (s.records.length - a.batch.unsent.length)
  /-- What stood in a slot at any earlier moment still stands there. -/
  kept : ∀ before after earlier, happenings = before ++ after →
    (start (Batch.opening s number timer) missing).meetAll before = some earlier →
    earlier.batch.ledger.Extends a.batch.ledger
  /-- Each thing met while collecting settles a record that was sent or throws a report away. -/
  settled : a.isClosed = false →
    a.events + a.batch.ledger.outstanding = a.sent + a.discarded
  /-- The loop takes in at most as many things as it sent records and threw reports away. -/
  bounded : a.events ≤ a.sent + a.discarded
  /-- Only while collecting is the end of the report channel noticed. -/
  closedLast : a.isClosed = true → a.batch.unsent = []
  /-- The loop goes on exactly until it is over. -/
  stops : a.isOver = true ↔ ∀ h, a.meet h = none
  /-- Every record has a result. -/
  length : a.results.length = s.records.length
  /-- At the end a slot is filled, unless nobody was left to report. -/
  complete : a.isOver = true → a.isClosed = false → ∀ i < s.records.length,
    ∃ result, a.batch.ledger.slots[i]? = some (some result)
  /-- Every result in a slot comes from something the loop met. -/
  source : ∀ (i : Nat) (result : JobResult), a.batch.ledger.slots[i]? = some (some result) →
    Source s number missing happenings i result

/-! ### One thing after another -/

/-- What holds of the accounts at any moment by itself. -/
structure Going (s : Submission) (number : Nat) (timer : Timer) (missing : JobError)
    (happenings : List Happening) (a : Accounts) : Prop where
  constant : a.batch.ticket = s.ticket ∧ a.batch.number = number ∧ a.batch.timer = timer ∧
    a.missing = missing
  unsent : a.batch.unsent = (indexed s.records).drop (s.records.length - a.batch.unsent.length)
  sound : a.batch.ledger.Sound (s.records.map JobRecord.id)
    (s.records.length - a.batch.unsent.length)
  settled : a.isClosed = false →
    a.events + a.batch.ledger.outstanding = a.sent + a.discarded
  bounded : a.events ≤ a.sent + a.discarded
  closedLast : a.isClosed = true → a.batch.unsent = []
  source : ∀ (i : Nat) (result : JobResult), a.batch.ledger.slots[i]? = some (some result) →
    Source s number missing happenings i result

variable {s : Submission} {number : Nat} {timer : Timer} {missing : JobError}
  {happenings : List Happening} {h : Happening} {a a' : Accounts}

/-- A source among some things is one among more. -/
theorem Source.more {i : Nat} {result : JobResult}
    (source : Source s number missing happenings i result) (h : Happening) :
    Source s number missing (happenings ++ [h]) i result := by
  cases source with
  | report met own tag => exact .report (List.mem_append_left _ met) own tag
  | refused met => exact .refused (List.mem_append_left _ met)
  | timeout met => exact .timeout (List.mem_append_left _ met)

theorem going_start : Going s number timer missing []
    (start (Batch.opening s number timer) missing) where
  constant := ⟨rfl, rfl, rfl, rfl⟩
  unsent := by simp [start, Batch.opening, length_indexed]
  sound := by
    have sound : (Ledger.start (s.records.map JobRecord.id).length).Sound _ 0 := Ledger.sound_start
    simpa [start, Batch.opening, length_indexed] using sound
  settled := fun _ => rfl
  bounded := Nat.le_refl _
  closedLast := by simp [start]
  source := by simp [start, Batch.opening, Ledger.start, List.getElem?_replicate]

/-- Collecting means that all records are tried and something is outstanding. -/
theorem isCollecting_iff : a.isCollecting = true ↔
    a.batch.unsent = [] ∧ 0 < a.batch.ledger.outstanding ∧ a.isClosed = false := by
  simp [isCollecting, Nat.pos_iff_ne_zero, and_assoc]

/-- The record that is tried next, and what it does to the number of those tried. -/
theorem Going.next {i : Nat} {r : JobRecord} {rest : List (Nat × JobRecord)}
    (going : Going s number timer missing happenings a) (next : a.batch.unsent = (i, r) :: rest) :
    i = s.records.length - a.batch.unsent.length ∧ s.records[i]? = some r ∧
      s.records.length - rest.length = i + 1 ∧ rest = (indexed s.records).drop (i + 1) := by
  have left := next.symm.trans going.unsent
  obtain ⟨place, record, later⟩ := of_cons_eq_drop left
  have size := congrArg List.length later
  rw [List.length_drop, length_indexed] at size
  have inside := (List.getElem?_eq_some_iff.mp record).1
  exact ⟨place, place ▸ record, by omega, place ▸ later⟩

theorem Going.sent (going : Going s number timer missing happenings a)
    (happens : a.meet .sent = some a') :
    Going s number timer missing (happenings ++ [.sent]) a' ∧
      a.batch.ledger.Extends a'.batch.ledger := by
  rw [Accounts.meet] at happens
  split at happens
  next i r rest next =>
    cases happens
    obtain ⟨place, record, tried, left⟩ := going.next next
    have sound := going.sound
    rw [← place] at sound
    have isOpen : a.isClosed = false := by
      by_contra closed
      simp [going.closedLast (by simpa using closed)] at next
    have settled := going.settled isOpen
    have bounded := going.bounded
    refine ⟨?_, fun _ _ there => there⟩
    exact {
      constant := going.constant
      unsent := by
        show rest = (indexed s.records).drop (s.records.length - rest.length)
        rw [tried, left]
      sound := by
        show (a.batch.ledger.sent r.id i).Sound _ (s.records.length - rest.length)
        rw [tried]
        exact sound.sent (by simp [record])
      settled := fun _ => by
        show a.events + (a.batch.ledger.outstanding + 1) = a.sent + 1 + a.discarded
        omega
      bounded := by
        show a.events ≤ a.sent + 1 + a.discarded
        omega
      closedLast := fun closed => absurd closed (by simp [isOpen])
      source := fun i result there => (going.source i result there).more .sent }
  next => cases happens

theorem Going.refused {e : JobError} (going : Going s number timer missing happenings a)
    (happens : a.meet (.refused e) = some a') :
    Going s number timer missing (happenings ++ [.refused e]) a' ∧
      a.batch.ledger.Extends a'.batch.ledger := by
  rw [Accounts.meet] at happens
  split at happens
  next i r rest next =>
    cases happens
    obtain ⟨place, record, tried, left⟩ := going.next next
    have inside : i < (s.records.map JobRecord.id).length := by
      rw [List.length_map]
      exact (List.getElem?_eq_some_iff.mp record).1
    have sound := going.sound
    rw [← place] at sound
    refine ⟨?_, sound.extends_refused inside⟩
    exact {
      constant := going.constant
      unsent := by
        show rest = (indexed s.records).drop (s.records.length - rest.length)
        rw [tried, left]
      sound := by
        show (a.batch.ledger.refused i e).Sound _ (s.records.length - rest.length)
        rw [tried]
        exact sound.refused inside
      settled := going.settled
      bounded := going.bounded
      closedLast := fun closed => absurd (going.closedLast closed) (by simp [next])
      source := by
        intro j result there
        by_cases same : i = j
        · have inside' : j < a.batch.ledger.slots.length := by
            rw [sound.size, ← same]
            exact inside
          rw [Ledger.refused, same, Ledger.fill_self inside'] at there
          cases there
          exact .refused (List.mem_append_right _ List.mem_cons_self)
        · rw [Ledger.refused, Ledger.fill_other same] at there
          exact (going.source j result there).more _ }
  next => cases happens

/-- A report settles a record if it is awaited, and is thrown away if not. -/
theorem Going.outstanding_collect (going : Going s number timer missing happenings a)
    (r : Report) : (a.batch.collect r).ledger.outstanding + 1 + a.discarded =
      a.batch.ledger.outstanding + if a.isAwaited r then a.discarded else a.discarded + 1 := by
  by_cases own : r.batch = a.batch.number
  · cases taken : a.batch.ledger.pending.takeFor r.jobId with
    | some found =>
        have settled : (a.batch.ledger.receive r.jobId r.result).outstanding + 1 = _ :=
          going.sound.outstanding_receive taken
        simp [Batch.collect, own, isAwaited, taken, settled]
    | none =>
        simp only [Batch.collect, own, if_true, isAwaited, taken, Ledger.receive,
          Option.isSome_none, Bool.and_false, Bool.false_eq_true, if_false]
        omega
  · simp only [Batch.collect, own, if_false, isAwaited, beq_eq_false_iff_ne.mpr own,
      Bool.false_and, Bool.false_eq_true]
    omega

/-- A report of another batch changes nothing in the accounts. -/
theorem ledger_collect (b : Batch) (r : Report) : (b.collect r).ledger = b.ledger ∨
    (r.batch = b.number ∧ (b.collect r).ledger = b.ledger.receive r.jobId r.result) := by
  unfold Batch.collect
  split
  next own => exact Or.inr ⟨own, rfl⟩
  next => exact Or.inl rfl

theorem Going.report {r : Report} (going : Going s number timer missing happenings a)
    (happens : a.meet (.report r) = some a') :
    Going s number timer missing (happenings ++ [.report r]) a' ∧
      a.batch.ledger.Extends a'.batch.ledger := by
  rw [Accounts.meet] at happens
  split at happens
  next collecting =>
    cases happens
    obtain ⟨sentAll, waiting, isOpen⟩ := isCollecting_iff.mp collecting
    have settled := going.settled isOpen
    have outstanding := going.outstanding_collect r
    have same : (a.batch.collect r).ticket = a.batch.ticket ∧
        (a.batch.collect r).number = a.batch.number ∧
        (a.batch.collect r).timer = a.batch.timer ∧
        (a.batch.collect r).unsent = a.batch.unsent := by
      unfold Batch.collect
      split <;> exact ⟨rfl, rfl, rfl, rfl⟩
    have ledger := ledger_collect a.batch r
    constructor
    · exact {
        constant := by
          obtain ⟨ticket, number, timer, error⟩ := going.constant
          exact ⟨same.1.trans ticket, same.2.1.trans number, same.2.2.1.trans timer, error⟩
        unsent := by
          rw [same.2.2.2]
          exact going.unsent
        sound := by
          rw [same.2.2.2]
          rcases ledger with kept | ⟨_, received⟩
          · exact kept ▸ going.sound
          · exact received ▸ going.sound.receive
        settled := fun _ => by
          show a.events + 1 + (a.batch.collect r).ledger.outstanding =
            a.sent + if a.isAwaited r then a.discarded else a.discarded + 1
          omega
        bounded := by
          show a.events + 1 ≤ a.sent + if a.isAwaited r then a.discarded else a.discarded + 1
          omega
        closedLast := fun closed => absurd closed (by simp [isOpen])
        source := by
          intro i result there
          rcases ledger with kept | ⟨own, received⟩
          · rw [kept] at there
            exact (going.source i result there).more _
          · rw [received] at there
            rcases going.sound.of_receive there with old | ⟨tag, rfl⟩
            · exact (going.source i result old).more _
            · exact .report (List.mem_append_right _ List.mem_cons_self)
                (own.trans going.constant.2.1) tag }
    · rcases ledger with kept | ⟨_, received⟩
      · exact kept ▸ Ledger.Extends.refl _
      · exact received ▸ going.sound.extends_receive
  next => cases happens

theorem Going.timeout (going : Going s number timer missing happenings a)
    (happens : a.meet .timeout = some a') :
    Going s number timer missing (happenings ++ [.timeout]) a' ∧
      a.batch.ledger.Extends a'.batch.ledger := by
  rw [Accounts.meet] at happens
  split at happens
  next collecting =>
    cases happens
    obtain ⟨sentAll, waiting, isOpen⟩ := isCollecting_iff.mp collecting
    have settled := going.settled isOpen
    have outstanding := going.sound.outstanding_expire (e := a.missing) waiting
    refine ⟨?_, going.sound.extends_expire⟩
    exact {
      constant := going.constant
      unsent := going.unsent
      sound := going.sound.expire
      settled := fun _ => by
        show a.events + 1 + (a.batch.ledger.expire a.missing).outstanding = a.sent + a.discarded
        omega
      bounded := by
        show a.events + 1 ≤ a.sent + a.discarded
        omega
      closedLast := fun closed => absurd closed (by simp [isOpen])
      source := by
        intro i result there
        rcases going.sound.of_expire there with old | rfl
        · exact (going.source i result old).more _
        · rw [going.constant.2.2.2]
          exact .timeout (List.mem_append_right _ List.mem_cons_self) }
  next => cases happens

theorem Going.closed (going : Going s number timer missing happenings a)
    (happens : a.meet .closed = some a') :
    Going s number timer missing (happenings ++ [.closed]) a' ∧
      a.batch.ledger.Extends a'.batch.ledger := by
  rw [Accounts.meet] at happens
  split at happens
  next collecting =>
    cases happens
    obtain ⟨sentAll, waiting, isOpen⟩ := isCollecting_iff.mp collecting
    have settled := going.settled isOpen
    refine ⟨?_, Ledger.Extends.refl _⟩
    exact {
      constant := going.constant
      unsent := going.unsent
      sound := going.sound
      settled := fun isOpen => absurd isOpen (by simp)
      bounded := by
        show a.events + 1 ≤ a.sent + a.discarded
        omega
      closedLast := fun _ => sentAll
      source := fun i result there => (going.source i result there).more _ }
  next => cases happens

/-- Whatever is met next, the accounts go on and no result is changed. -/
theorem Going.meet (going : Going s number timer missing happenings a)
    (happens : a.meet h = some a') :
    Going s number timer missing (happenings ++ [h]) a' ∧
      a.batch.ledger.Extends a'.batch.ledger := by
  cases h with
  | sent => exact going.sent happens
  | refused e => exact going.refused happens
  | report r => exact going.report happens
  | timeout => exact going.timeout happens
  | closed => exact going.closed happens

/-! ### All of it -/

theorem meetAll_append (first second : List Happening) :
    a.meetAll (first ++ second) = (a.meetAll first).bind fun a' => a'.meetAll second := by
  induction first generalizing a with
  | nil => rfl
  | cons h rest ih =>
      simp only [List.cons_append, meetAll]
      cases a.meet h with
      | none => rfl
      | some next => exact ih

theorem Going.meetAll {later : List Happening} (going : Going s number timer missing happenings a)
    (happens : a.meetAll later = some a') :
    Going s number timer missing (happenings ++ later) a' ∧
      a.batch.ledger.Extends a'.batch.ledger := by
  induction later generalizing happenings a with
  | nil =>
      cases happens
      exact ⟨by simpa using going, Ledger.Extends.refl _⟩
  | cons h rest ih =>
      rw [Accounts.meetAll, Option.bind_eq_some_iff] at happens
      obtain ⟨middle, first, others⟩ := happens
      obtain ⟨next, kept⟩ := going.meet first
      obtain ⟨last, kept'⟩ := ih next others
      rw [List.append_assoc] at last
      exact ⟨last, kept.trans kept'⟩

/-- The loop goes on exactly until it is over. -/
theorem isOver_iff : a.isOver = true ↔ ∀ h, a.meet h = none := by
  constructor
  · intro finished
    simp only [isOver, Bool.and_eq_true, List.isEmpty_iff] at finished
    have resting : a.isCollecting = false := by
      rw [isCollecting]
      rcases Bool.or_eq_true_iff.mp finished.2 with none | closed
      · simp [beq_iff_eq.mp none]
      · simp [closed]
    intro h
    cases h <;> simp [meet, finished.1, resting]
  · intro stuck
    have sentAll : a.batch.unsent = [] := by
      cases unsent : a.batch.unsent with
      | nil => rfl
      | cons first rest =>
          have sends := stuck .sent
          simp [meet, unsent] at sends
    have resting : a.isCollecting = false := by
      have waits := stuck .timeout
      simpa [meet] using waits
    simp only [isCollecting, isOver, sentAll, List.isEmpty_nil, Bool.true_and] at resting ⊢
    rw [← Bool.not_eq_false', Bool.not_or]
    simpa [bne] using resting

/-- At the end of a loop that met no end of the report channel, nothing is missing. -/
theorem Going.finish_eq (going : Going s number timer missing happenings a)
    (isOpen : a.isClosed = false) (finished : a.isOver = true) (u : JobError) :
    a.batch.ledger.finish u = a.results := by
  have sound := going.sound
  simp only [isOver, isOpen, Bool.or_false, Bool.and_eq_true, List.isEmpty_iff,
    beq_iff_eq] at finished
  rw [finished.1, List.length_nil, Nat.sub_zero, ← List.length_map (f := JobRecord.id)] at sound
  exact sound.finish_eq finished.2 _ _

/-- Whatever a batch meets, its accounts are in order. -/
theorem balanced_of_meetAll
    (happens : (start (Batch.opening s number timer) missing).meetAll happenings = some a) :
    Balanced s number timer missing happenings a := by
  have going : Going s number timer missing happenings a := (going_start.meetAll happens).1
  exact {
    constant := going.constant
    unsent := going.unsent
    sound := going.sound
    kept := by
      rintro before after earlier rfl first
      rw [meetAll_append, first] at happens
      exact ((going_start.meetAll first).1.meetAll happens).2
    settled := going.settled
    bounded := going.bounded
    closedLast := going.closedLast
    stops := isOver_iff
    length := by rw [results, Ledger.length_finish, going.sound.size, List.length_map]
    complete := by
      intro finished isOpen i inside
      simp only [isOver, isOpen, Bool.or_false, Bool.and_eq_true, List.isEmpty_iff,
        beq_iff_eq] at finished
      have sound := going.sound
      rw [finished.1, List.length_nil, Nat.sub_zero, ← List.length_map (f := JobRecord.id)] at sound
      exact sound.filled_of_settled finished.2 (by rw [List.length_map]; exact inside)
    source := going.source }

end Accounts

end JobQueue
