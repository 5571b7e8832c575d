/-
The rule of scans and the rule of runs.

A scan takes the records whose leases began before its cutoff; a run refuses a record whose lease
still holds when the run reads its clock. The cutoff lies one window before the scan, or at the
start of the calendar if there is no such time (`Scanner.exists_cutoff`), and no lease starts
before the calendar (`Time.started_of_strict?`). So the two rules never both hold, and they both
fail for a lease whose window runs out at just that time (`JobRecord.available_or_reserved`). A
lease that has run out stays so, and a run never refuses a record that a scan before it has
selected from the memory store (`Scanner.selected_not_refused`).

All times are outside leap seconds, the starts of leases among them. By the order of instants a
time in a leap second comes before the second that follows, but its distance from other times may
count that second or not.
-/

import JobQueue.Proofs.Job.Guarantee
import JobQueue.Proofs.Simulation.Scripts
import JobQueue.Proofs.Time.Lease
import JobQueue.Scanner.Scan

namespace JobQueue

open Instant

variable {W : Type} {a b t now later before start : Instant} {window : Span} {r : JobRecord}

/-! ### Instants and their nanoseconds -/

namespace Instant

theorem toNanos_ofNanos (n : Int) : (ofNanos n).toNanos = n := by
  have scale : nanosPerSecond = 1000000000 := rfl
  rw [ofNanos, toNanos, scale]
  dsimp only
  omega

theorem plain_ofNanos (n : Int) : (ofNanos n).Plain := by
  have scale : nanosPerSecond = 1000000000 := rfl
  rw [ofNanos, Plain, scale]
  dsimp only
  omega

theorem lt_iff_toNanos (first : a.Plain) (second : b.Plain) : a < b ↔ a.toNanos < b.toNanos := by
  have scale : nanosPerSecond = 1000000000 := rfl
  rw [Plain, scale] at first second
  rw [lt_iff, toNanos, toNanos, scale]
  omega

/-- What lies in the calendar begins no earlier than the calendar does. -/
theorem started_of_inCalendar? (found : t.inCalendar? = some now) :
    earliest.seconds ≤ now.seconds := by
  rw [inCalendar?] at found
  split at found
  next bounds =>
    cases found
    exact bounds.1
  next => cases found

end Instant

namespace Time

theorem Fields.started {fields : Fields} (named : fields.toInstant = .ok t) :
    earliest.seconds ≤ t.seconds := by
  unfold Fields.toInstant at named
  dsimp only at named
  generalize (if fields.second = 60 then (59, nanosPerSecond + fields.nanos)
    else (fields.second, fields.nanos)) = clock at named
  split at named
  · cases named
  · split at named
    · cases named
    · split at named
      · cases named
      · split at named
        next found =>
          cases named
          exact started_of_inCalendar? found
        next => cases named

/-- A time that can be read does not lie before the calendar. -/
theorem started_of_strict? {text : String} (read : strict? text = some t) :
    earliest.seconds ≤ t.seconds := by
  have named : readStrict text = .ok t := by
    rw [strict?] at read
    cases outcome : readStrict text with
    | error fault => simp [outcome, Except.toOption] at read
    | ok u =>
        rw [outcome] at read
        cases read
        rfl
  rw [readStrict] at named
  cases scanned : strictFields text.toList with
  | error fault =>
      rw [scanned] at named
      cases named
  | ok result =>
      obtain ⟨fields, rest⟩ := result
      rw [scanned] at named
      change (if rest.isEmpty then fields.toInstant else .error .tooLong) = .ok t at named
      split at named
      · exact Fields.started named
      · cases named

end Time

/-! ### The cutoff -/

/-- A window that instants can be moved by has a cutoff: one window before the scan, or the start
of the calendar if that time lies before it. -/
theorem Scanner.exists_cutoff (usable : window.isUsable = true) (valid : now.Valid)
    (plain : now.Plain) : ∃ before, cutoff window now = .ok before ∧ before.Plain ∧
      (before.toNanos = now.toNanos - window.nanos ∨
        before = earliest ∧ now.toNanos - window.nanos < earliest.toNanos) := by
  have scale : nanosPerSecond = 1000000000 := rfl
  have atStart : earliest.toNanos = earliest.seconds * nanosPerSecond := Int.add_zero _
  obtain ⟨_, last, _⟩ := valid
  have whole := toNanos_ofNanos (now.toNanos + -window.nanos)
  have part := plain_ofNanos (now.toNanos + -window.nanos)
  rw [cutoff, if_pos usable, plus?, inCalendar?]
  generalize ofNanos (now.toNanos + -window.nanos) = moved at whole part ⊢
  rw [Plain, scale] at part plain
  rw [toNanos, toNanos, scale] at whole
  rw [scale] at atStart
  have early : moved.seconds ≤ latest.seconds := by omega
  by_cases inside : earliest.seconds ≤ moved.seconds
  · refine ⟨moved, ?_, part, .inl ?_⟩
    · rw [if_pos ⟨inside, early⟩]
      rfl
    · rw [toNanos, toNanos, scale]
      omega
  · refine ⟨earliest, ?_, by decide, .inr ⟨rfl, ?_⟩⟩
    · rw [if_neg fun bounds => inside bounds.1]
      rfl
    · rw [atStart, toNanos, scale]
      omega

theorem Scanner.isUsable_of_cutoff (cut : cutoff window now = .ok before) :
    window.isUsable = true := by
  rw [cutoff] at cut
  split at cut
  next usable => exact usable
  next => cases cut

/-- A lease began before the cutoff just if more than its window has passed. -/
theorem Scanner.lt_cutoff_iff (valid : now.Valid) (plain : now.Plain)
    (cut : cutoff window now = .ok before) (first : start.Plain)
    (started : earliest.seconds ≤ start.seconds) :
    start < before ↔ window.nanos < now.since start := by
  have scale : nanosPerSecond = 1000000000 := rfl
  have atStart : earliest.toNanos = earliest.seconds * nanosPerSecond := Int.add_zero _
  obtain ⟨found, same, second, place⟩ := exists_cutoff (isUsable_of_cutoff cut) valid plain
  cases same.symm.trans cut
  rw [lt_iff_toNanos first second, since_of_plain plain first]
  have after : earliest.toNanos ≤ start.toNanos := by
    rw [atStart, toNanos, scale]
    omega
  rcases place with same | ⟨rfl, earlier⟩ <;> omega

/-! ### The two rules -/

/-- The lease of a record starts in no leap second, if it names a time at all. -/
def JobRecord.HasPlainLease (r : JobRecord) : Prop :=
  ∀ start, r.reservedSince? = some start → start.Plain

theorem JobRecord.isAvailable_eq (r : JobRecord) : r.isAvailable before =
    match r.reservedSince? with
    | some start => decide (start < before)
    | none => true := by
  rw [isAvailable, reservedSince?, leaseStart?]
  split <;> rfl

/-- The two rules never both hold, and both fail just where a lease's window runs out now. -/
theorem JobRecord.available_or_reserved (valid : now.Valid) (plain : now.Plain)
    (cut : Scanner.cutoff window now = .ok before) (lease : r.HasPlainLease) :
    ¬ (r.isAvailable before = true ∧ r.isReserved window now = true) ∧
      (r.isAvailable before = false ∧ r.isReserved window now = false ↔
        ∃ start, r.reservedSince? = some start ∧ now.since start = window.nanos) := by
  rw [isAvailable_eq, isReserved]
  cases read : r.reservedSince? with
  | none => simp
  | some start =>
      have started : earliest.seconds ≤ start.seconds := by
        rw [reservedSince?, leaseStart?] at read
        split at read
        · cases read
        · exact Time.started_of_strict? read
      have rule := Scanner.lt_cutoff_iff valid plain cut (lease start read) started
      simp only [leaseHolds, if_pos (Scanner.isUsable_of_cutoff cut), decide_eq_true_iff,
        decide_eq_false_iff_not, rule, Option.some.injEq, exists_eq_left']
      omega

/-- A record that a scan may take is not reserved at the time of the scan, nor at any later
time. -/
theorem JobRecord.isReserved_of_isAvailable (valid : now.Valid) (plain : now.Plain)
    (cut : Scanner.cutoff window now = .ok before) (lease : r.HasPlainLease)
    (available : r.isAvailable before = true) (le : now ≤ later) (laterPlain : later.Plain) :
    r.isReserved window later = false := by
  have apart := (available_or_reserved valid plain cut lease).1
  refine Bool.eq_false_iff.mpr fun held => apart ⟨available, ?_⟩
  rw [isReserved] at held ⊢
  cases read : r.reservedSince? with
  | none => simp [read] at held
  | some start =>
      rw [read] at held
      exact leaseHolds_of_le (lease start read) plain laterPlain le held

/-! ### The page of a scan -/

/-- A scan reads the clock, and asks for a page of the records that were available then. -/
theorem Scanner.fetch_eq (p : Processor W) : (fetch p).run =
    .act (fun w => (p.backend.clock w).2) fun w =>
      match cutoff p.settings.window (p.backend.clock w).1 with
      | .ok before => (JobTask.call (p.backend.records.available before p.settings.batchSize 0)).run
      | .error e => .done (.error (.error e)) := by
  rw [fetch, JobTask.run_perform_bind]
  congr 1
  funext w
  generalize cutoff p.settings.window (p.backend.clock w).1 = outcome
  cases outcome <;> rfl

/-- The page that a scan has fetched is one of the store at that time, and the cutoff is that of the
time at which the scan began. -/
theorem Scanner.page_of_fetch {p : Processor W} {place : Part W MemoryStore}
    {nature : Part W Nature} {w during w₁ w₂ : W}
    {rest : Task W (Except (Fault JobError) (List JobRecord))} {page : List JobRecord}
    (memory : p.backend.records = MemoryStore.recordStore place nature)
    (begun : (fetch p).run.step true w = some (rest, w₁))
    (fetched : rest.step true during = some (.done (.ok page), w₂)) :
    ∃ before, cutoff p.settings.window (p.backend.clock w).1 = .ok before ∧
      page = (place.get during).available before p.settings.batchSize 0 := by
  rw [fetch_eq, Task.step, Option.some.injEq, Prod.mk.injEq] at begun
  obtain ⟨rfl, _⟩ := begun
  generalize cutoff p.settings.window (p.backend.clock w).1 = cut at fetched ⊢
  cases cut with
  | error e => simp [Task.step] at fetched
  | ok before =>
      refine ⟨before, rfl, ?_⟩
      rw [memory] at fetched
      simp only [JobTask.run_call, MemoryStore.recordStore, Task.step, Option.some.injEq,
        Prod.mk.injEq, Task.done.injEq, Except.ok.injEq] at fetched
      exact fetched.1.symm

/-- What is on a page of the memory store may be taken. -/
theorem MemoryStore.isAvailable_of_mem {m : MemoryStore} {limit offset : Nat}
    (member : r ∈ m.available before limit offset) : r.isAvailable before = true := by
  have listed : r ∈ m.pageList before := List.mem_of_mem_drop (List.mem_of_mem_take member)
  rw [pageList, List.mem_mergeSort] at listed
  exact (List.mem_filter.mp listed).2

/-- A run that begins in a world is refused since its record is leased. -/
def Executor.RefusesLeased (x : Executor W) (worker : Option Nat) (r : JobRecord) (w : W) : Prop :=
  ∃ w', (x.run worker r).step true w =
    some (.done ⟨r, .error (.error (.alreadyReserved r.id))⟩, w')

theorem Executor.not_refusesLeased {x : Executor W} {worker : Option Nat} {w : W}
    (free : r.isReserved x.lease (x.backend.clock w).1 = false) : ¬ x.RefusesLeased worker r w := by
  rintro ⟨w', refused⟩
  cases checked : check r with
  | some e =>
      rw [run_of_refused checked] at refused
      cases refused
  | none =>
      rw [run_eq checked, Task.step, free] at refused
      cases refused

/-- Scans and runs agree on which records are reserved. At any time outside leap seconds, and for
any window that times can be moved by, a scan and a run that read the clock then never both want
the same record, and they both leave it just where its window runs out at that very time. So a
record that a scan has selected from the memory store, whatever was in it, is not refused as
reserved by a run that reads the clock later. -/
theorem Scanner.selected_not_refused {p : Processor W} {place : Part W MemoryStore}
    {nature : Part W Nature}
    (memory : p.backend.records = MemoryStore.recordStore place nature) :
    (∀ window now, window.isUsable = true → now.Valid → now.Plain →
      ∃ before, cutoff window now = .ok before ∧ ∀ r : JobRecord, r.HasPlainLease →
        ¬ (r.isAvailable before = true ∧ r.isReserved window now = true) ∧
        (r.isAvailable before = false ∧ r.isReserved window now = false ↔
          ∃ start, r.reservedSince? = some start ∧ now.since start = window.nanos)) ∧
    ∀ w during w₁ w₂ rest page,
      (p.backend.clock w).1.Valid → (p.backend.clock w).1.Plain →
      (fetch p).run.step true w = some (rest, w₁) →
      rest.step true during = some (.done (.ok page), w₂) →
      ∀ r ∈ page, r.HasPlainLease → ∀ worker later,
        (p.backend.clock w).1 ≤ (p.backend.clock later).1 → (p.backend.clock later).1.Plain →
          ¬ p.executor.RefusesLeased worker r later := by
  constructor
  · intro window now usable valid plain
    obtain ⟨before, cut, _⟩ := exists_cutoff usable valid plain
    exact ⟨before, cut, fun r lease => JobRecord.available_or_reserved valid plain cut lease⟩
  · intro w during w₁ w₂ rest page valid plain begun fetched r member lease worker later le
      laterPlain
    obtain ⟨before, cut, same⟩ := page_of_fetch memory begun fetched
    have available := MemoryStore.isAvailable_of_mem (same ▸ member)
    exact Executor.not_refusesLeased
      (JobRecord.isReserved_of_isAvailable valid plain cut lease available le laterPlain)

namespace Simulation

/-- An easy job that was claimed five minutes and a second before the start of 1970. -/
def lapsedJob : JobRecord := { easyJob "a" with reservedAt := "1969-12-31T23:54:59Z" }

def lapsedWorld : World := World.still [lapsedJob]

theorem lapsedJob_plain : lapsedJob.HasPlainLease := by
  have named : lapsedJob.reservedSince? = some ⟨-301, 0⟩ := by decide +kernel
  intro start read
  cases named.symm.trans read
  decide

theorem lapsedWorld_page : lapsedWorld.store.available ⟨-300, 0⟩ 50 0 = [lapsedJob] := by
  have free : lapsedJob.isAvailable ⟨-300, 0⟩ = true := by decide +kernel
  simp [MemoryStore.available, MemoryStore.pageList, lapsedWorld, World.still, free]

/-- A job whose lease has run out a second before a scan is selected, and then not refused. -/
theorem selected_not_refused_lapsed : ∃ rest w₁ w₂,
    (Scanner.fetch (easyProcessor true)).run.step true lapsedWorld = some (rest, w₁) ∧
    rest.step true w₁ = some (.done (.ok [lapsedJob]), w₂) ∧
    ¬ (easyProcessor true).executor.RefusesLeased (some 0) lapsedJob w₂ := by
  have cut : Scanner.cutoff (easyProcessor true).settings.window ⟨0, 0⟩ = .ok ⟨-300, 0⟩ := by
    decide +kernel
  have reading : ((easyProcessor true).backend.clock lapsedWorld).1 = ⟨0, 0⟩ := rfl
  have begun : (Scanner.fetch (easyProcessor true)).run.step true lapsedWorld =
      some ((JobTask.call (World.plainRecords.available ⟨-300, 0⟩ 50 0)).run,
        ((easyProcessor true).backend.clock lapsedWorld).2) := by
    rw [Scanner.fetch_eq, Task.step, reading, cut]
    rfl
  have fetched : (JobTask.call (World.plainRecords.available ⟨-300, 0⟩ 50 0)).run.step true
      ((easyProcessor true).backend.clock lapsedWorld).2 =
      some (.done (.ok [lapsedJob]), ((easyProcessor true).backend.clock lapsedWorld).2) := by
    rw [← lapsedWorld_page]
    rfl
  have memory : (easyProcessor true).backend.records =
      MemoryStore.recordStore World.storePart World.naturePart := rfl
  obtain ⟨_, goesOn⟩ := Scanner.selected_not_refused memory
  refine ⟨_, _, _, begun, fetched, ?_⟩
  exact goesOn _ _ _ _ _ _ (by decide) (by decide) begun fetched lapsedJob List.mem_cons_self
    lapsedJob_plain (some 0) _ (by decide) (by decide)

end Simulation

end JobQueue
