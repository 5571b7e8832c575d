/-
The accounts of a scan.

A scan selects the first page of its store and has every record on it run, by the workers of the
pool or one after another in its own task (`Scanner.secures_scanOnce`). Each run ends in one of the
ways in which runs end, and the report counts how (`MemoryStore.accounted_of_served`). So a scan
accounts for every record (`Scanner.scan_accounts`): what it has not selected stays as it is, and of
what it has selected a record is gone, and counted as a success, or it is stored, and counted as a
failure: released with one attempt more, if it is a queued record that its run has found free, and
as it was otherwise. A record that the scan has selected is found free unless its lease began in a
leap second or the clock has gone back meanwhile; where it did, the run refuses what the scan has
selected (`Simulation.leap_lease_refused`).
-/

import JobQueue.Proofs.Engine.Batch
import JobQueue.Proofs.Scanner.Availability
import JobQueue.Proofs.Store.Page

namespace JobQueue

open Pool

variable {W : Type} {r : JobRecord}

/-! ### The accounts -/

/-- A record that a run does not refuse at once. -/
def JobRecord.IsQueued (r : JobRecord) : Prop := r.id ≠ "" ∧ r.collection = queueCollection

instance (r : JobRecord) : Decidable r.IsQueued := by
  unfold JobRecord.IsQueued; infer_instance

theorem Executor.check_eq_none_iff : check r = none ↔ r.IsQueued := by
  rw [check, JobRecord.IsQueued]
  by_cases named : r.id = ""
  · simp [named]
  · by_cases own : r.collection = queueCollection <;> simp [named, own]

/-- A run can read a time at which a lease holds the record. -/
def Executor.FindsHeld (x : Executor W) (reading : Instant → Prop) (r : JobRecord) : Prop :=
  ∃ now, reading now ∧ r.isReserved x.lease now = true

namespace MemoryStore

/-- What a scan of a page has left of one of its records. A queued record is gone, or free again
with one attempt more, or it is as it was, since it was found to be held. -/
def Left (m' : MemoryStore) (held : JobRecord → Prop) (r : JobRecord) : Prop :=
  if r.IsQueued then
    m'.get? r.id = none ∨
    (∃ attempts later, attempts.toNat = r.attempts.toNat + 1 ∧ m'.get? r.id =
      some { r with attempts := attempts, reservedAt := "", updated := later }) ∨
    held r ∧ m'.get? r.id = some r
  else m'.get? r.id = some r

/-- The report of a scan that found this page accounts for the store before it and after it, if
these of its records can have been found to be held. -/
structure Accounted (m : MemoryStore) (held : JobRecord → Prop) (page : List JobRecord)
    (report : ScanReport) (m' : MemoryStore) : Prop where
  total : report.total = page.length
  sum : report.total = report.successful + report.failed
  successful : report.successful = page.countP fun r => (m'.get? r.id).isNone
  left : ∀ r ∈ page, m'.Left held r
  others : ∀ id, id ∉ page.map JobRecord.id → m'.get? id = m.get? id
  size : m'.size + report.successful = m.size

end MemoryStore

/-! ### From the ends of runs to the accounts -/

theorem countP_eq_of_forall₂ {α β : Type} {R : α → β → Prop} {f : α → Bool} {g : β → Bool}
    {l : List α} {l' : List β} (related : List.Forall₂ R l l')
    (same : ∀ a b, R a b → f a = g b) : l.countP f = l'.countP g := by
  induction related with
  | nil => rfl
  | cons first _ ih => rw [List.countP_cons, List.countP_cons, same _ _ first, ih]

/-- A record that was served had a run that ended. -/
theorem Pool.Served.exists_ended {C : Type} {fates : Fates C} {records : List JobRecord}
    {results : List JobResult} {cells cells' : String → Option C}
    (served : Served fates records cells results cells') (member : r ∈ records) :
    ∃ ended, fates r (cells r.id) ended (cells' r.id) := by
  have each := served.each
  clear served
  induction each with
  | nil => cases member
  | cons first _ ih =>
      rcases List.mem_cons.mp member with rfl | later
      · obtain ⟨ended, _, ends⟩ := first
        exact ⟨ended, ends⟩
      · exact ih later

namespace MemoryStore

variable {m m' : MemoryStore} {x : Executor W} {place : Part W MemoryStore} {good : W → Prop}
  {before : Instant} {limit : Nat} {reading : Instant → Prop} {ended : Ended}
  {results : List JobResult} {page : List JobRecord}

/-- The ways in which the run of a stored record can end, as its store shows them. -/
theorem left_of_ends
    (ends : x.Ends (orderlyShelf place good) reading r (some r) ended (m'.get? r.id))
    (unspent : r.isSpent = false) :
    m'.Left (x.FindsHeld reading) r ∧
      ((m'.get? r.id).isNone = ScanReport.isSuccess (resultOf ended)) := by
  rw [Left]
  generalize there : m'.get? r.id = after at ends ⊢
  cases ends with
  | refused checked =>
      have unqueued : ¬ r.IsQueued := fun queued => by
        rw [Executor.check_eq_none_iff.mpr queued] at checked
        cases checked
      exact ⟨by rw [if_neg unqueued], rfl⟩
  | leased checked read held =>
      rw [if_pos (Executor.check_eq_none_iff.mp checked)]
      exact ⟨.inr (.inr ⟨⟨_, read, held⟩, rfl⟩), rfl⟩
  | completed checked =>
      rw [if_pos (Executor.check_eq_none_iff.mp checked)]
      exact ⟨.inl rfl, rfl⟩
  | failed checked =>
      rw [if_pos (Executor.check_eq_none_iff.mp checked)]
      have counted : (r.markFailed r.updated).attempts.toNat = r.attempts.toNat + 1 :=
        JobRecord.toNat_attempts_markFailed unspent
      exact ⟨.inr (.inl ⟨_, _, counted, rfl⟩), rfl⟩
  | brokenOff _ uncounted =>
      cases (Executor.overflows_of_not_spent unspent).symm.trans uncounted

/-- Where the first page of an orderly store has been served, the report of the results accounts for
the store. -/
theorem accounted_of_served (orderly : m.Orderly) (orderly' : m'.Orderly)
    (first : page = m.available before limit 0)
    (served : Served (x.Ends (orderlyShelf place good) reading) page m.get? results m'.get?)
    (unspent : ∀ r ∈ page, r.isSpent = false) :
    m.Accounted (x.FindsHeld reading) page (ScanReport.ofResults results) m' := by
  have isPage : m.IsPage before limit page := first ▸ orderly.isPage_available
  have nodup : (page.map JobRecord.id).Nodup := first ▸ orderly.nodup_available
  have shown : ∀ r ∈ page, m.get? r.id = some r := fun r member => (isPage.free r member).1
  have counted : results.countP ScanReport.isSuccess =
      page.countP fun r => (m'.get? r.id).isNone := by
    obtain ⟨_, each⟩ := List.forall₂_iff_zip.mp served.each
    have related : List.Forall₂ (fun r result =>
        (m'.get? r.id).isNone = ScanReport.isSuccess result) page results := by
      refine List.forall₂_iff_zip.mpr ⟨served.each.length_eq, fun {r result} member => ?_⟩
      obtain ⟨ended, rfl, ends⟩ := each member
      have selected := (List.of_mem_zip member).1
      rw [shown r selected] at ends
      exact (left_of_ends ends (unspent r selected)).2
    exact (countP_eq_of_forall₂ related fun _ _ same => same).symm
  have length : results.length = page.length := served.each.length_eq.symm
  exact {
    total := length
    sum := by
      have apart := List.length_eq_countP_add_countP ScanReport.isSuccess (l := results)
      simpa [ScanReport.ofResults] using apart
    successful := counted
    left := by
      intro r member
      obtain ⟨ended, ends⟩ := served.exists_ended member
      rw [shown r member] at ends
      exact (left_of_ends ends (unspent r member)).1
    others := served.others
    size := by
      rw [ScanReport.ofResults, counted, ← size_add_gone orderly orderly' nodup ?_ served.others,
        List.countP_map]
      · rfl
      · intro id named
        obtain ⟨r, member, rfl⟩ := List.mem_map.mp named
        rw [shown r member]
        rfl }

end MemoryStore

/-! ### The scan as a call -/

namespace JobTask

variable {α β : Type} {able : Prop} {goal : Except (Fault JobError) β → W → Prop} {w w' : W}

/-- A step that nobody interferes with is followed by what is to follow its value. -/
theorem secures_perform {step : W → α × W} {k : α → JobTask W β}
    (later : (k (step w).1).run.SecuresAlone able goal (step w).2) :
    (perform step >>= k).run.SecuresAlone able goal w := by
  rw [run_perform_bind]
  intro w₁ same
  cases Task.eq_of_nobody same
  exact later

theorem secures_ofExcept {outcome : Except JobError α} {a : α} {k : α → JobTask W β}
    (found : outcome = .ok a) (later : (k a).run.SecuresAlone able goal w) :
    (ofExcept outcome >>= k).run.SecuresAlone able goal w := by
  subst found
  exact later

/-- A store call that nobody interferes with comes to its answer. -/
theorem secures_call {c : StoreCall W β} {b : β} (answered : c w = (.ok b, w'))
    (reached : goal (.ok b) w') : (call c).run.SecuresAlone able goal w := by
  intro w₁ same
  cases Task.eq_of_nobody same
  dsimp only
  rw [answered]
  intro w₂ same
  cases Task.eq_of_nobody same
  exact reached

end JobTask

namespace Scanner

variable {p : Processor W} {place : Part W MemoryStore} {nature : Part W Nature}
  {good : W → Prop} {reading : Instant → Prop} {before : Instant} {able : Prop} {w : W}
  {e : Engine W}

/-- What surrounds a scan. The store is a memory store; the clock shows times of the calendar,
outside leap seconds, in whatever order; and handlers leave the records alone. `good` tells worlds
that can come about, and `reading` times that the clock can show in them. -/
structure Surroundings (p : Processor W) (place : Part W MemoryStore) (nature : Part W Nature)
    (good : W → Prop) (reading : Instant → Prop) : Prop where
  memory : p.backend.records = MemoryStore.recordStore place nature
  lawful : place.Lawful
  shown : ∀ w, good w → reading (p.backend.clock w).1
  calendar : ∀ now, reading now → now.Valid ∧ now.Plain
  ticking : ∀ w, good w → good (p.backend.clock w).2 ∧
    place.get (p.backend.clock w).2 = place.get w
  storing : ∀ m w, good w → good (place.set m w)
  handlers : ∀ jobType handler, p.registry.get jobType = .ok handler → ∀ context job,
    (handler.run context job).run.Spares (MemoryStore.orderlyShelf place good)

/-- What a scan does with the page that it has fetched. -/
def finish (p : Processor W) (page : List JobRecord) :
    Task (Engine W) (Except (Fault JobError) ScanReport) :=
  (Engine.processConcurrently p page).bind fun outcome =>
    match outcome with
    | .ok results => .done (.ok (.ofResults results))
    | .error c => .done (.error (.crash c))

theorem scanOnce_eq : (scanOnce p).run = (Engine.onWorld (fetch p).run).bind fun outcome =>
    match outcome with
    | .ok page => finish p page
    | .error fault => .done (.error fault) := by
  unfold scanOnce
  show Task.bind _ _ = _
  congr 1
  funext outcome
  cases outcome with
  | error fault => rfl
  | ok page =>
      cases page with
      | nil => rfl
      | cons r rest =>
          show Task.bind (Task.bind _ _) _ = Task.bind _ _
          rw [Task.bind_assoc]
          congr 1

/-- A memory store answers at once when it is asked for a page, and does not change. -/
theorem available_eq (memory : p.backend.records = MemoryStore.recordStore place nature)
    (limit offset : Nat) : p.backend.records.available before limit offset =
      fun w => (.ok ((place.get w).available before limit offset), w) := by
  rw [memory]
  rfl

/-- After its first two steps a scan of a memory store has its page. -/
theorem replay_fetch {moves : List Callers.Move}
    (memory : p.backend.records = MemoryStore.recordStore place nature)
    (cut : cutoff p.settings.window (p.backend.clock e.world).1 = .ok before) :
    (Callers.single e (scanOnce p).run).replay p.executor
        (.call 0 true :: .call 0 true :: moves) =
      (Callers.single (e.setWorld (p.backend.clock e.world).2)
        (finish p ((place.get (p.backend.clock e.world).2).available before
          p.settings.batchSize 0))).replay p.executor moves := by
  have asks : ((JobTask.ofExcept (.ok before) : JobTask W Instant) >>= fun before =>
      JobTask.call (p.backend.records.available before p.settings.batchSize 0)).run =
      .act id fun w => .done (.ok ((place.get w).available before p.settings.batchSize 0)) := by
    show (JobTask.call _).run = _
    rw [available_eq memory]
    rfl
  rw [scanOnce_eq, fetch, JobTask.run_perform_bind, Engine.onWorld_act_bind, Callers.replay_act,
    cut, asks, Engine.onWorld_act_bind, Callers.replay_act]
  rfl

namespace Surroundings

variable (around : Surroundings p place nature good reading)

include around

/-- Runs of the processor end in one of the ways in which gentle runs do. -/
theorem gentle : p.executor.Gentle (MemoryStore.orderlyShelf place good) reading where
  store := by
    show Shelf.Reliable _ p.backend.records
    rw [around.memory]
    exact MemoryStore.orderly_reliable around.lawful around.storing
  reading := fun w ⟨fine, _⟩ => around.shown w fine
  ticking := by
    rintro w ⟨fine, _⟩
    obtain ⟨fine', same⟩ := around.ticking w fine
    exact ⟨fun ⟨_, orderly⟩ => ⟨fine', same.symm ▸ orderly⟩, fun id => congrArg (·.get? id) same⟩
  handlers := around.handlers

/-- A scan fetches the first page of its store, and changes nothing. -/
theorem secures_fetch (fine : good w)
    (cut : cutoff p.settings.window (p.backend.clock w).1 = .ok before) :
    (fetch p).run.SecuresAlone able (fun outcome w' =>
      outcome = .ok ((place.get w).available before p.settings.batchSize 0) ∧ good w' ∧
        place.get w' = place.get w) w := by
  obtain ⟨fine', same⟩ := around.ticking w fine
  have answered : p.backend.records.available before p.settings.batchSize 0 (p.backend.clock w).2 =
      (.ok ((place.get w).available before p.settings.batchSize 0), (p.backend.clock w).2) := by
    rw [available_eq around.memory]
    dsimp only
    rw [same]
  rw [fetch]
  exact JobTask.secures_perform (JobTask.secures_ofExcept cut
    (JobTask.secures_call answered ⟨rfl, fine', same⟩))

/-- A scan that has fetched its page accounts for the store. -/
theorem secures_finish {page : List JobRecord} (rest : e.AtRest p) (fine : good e.world)
    (orderly : (place.get e.world).Orderly)
    (first : page = (place.get e.world).available before p.settings.batchSize 0)
    (unspent : ∀ r ∈ page, r.isSpent = false)
    (fits : able → (p.executor.WaitsOnly fun limit => limit.isSome) ∧
      (p.isPooled = true → 0 < e.pool.capacity ∧ page.length ≤ e.pool.room)) :
    (finish p page).Secures (Engine.Stirs p.executor) able (fun outcome e' =>
      ∃ report, outcome = .ok report ∧ (place.get e.world).Accounted
        (p.executor.FindsHeld reading) page report (place.get e'.world)) e := by
  have nodup : (page.map JobRecord.id).Nodup := first ▸ orderly.nodup_available
  have there : (MemoryStore.orderlyShelf place good).Good e.world := ⟨fine, orderly⟩
  refine (Engine.secures_processConcurrently rest there
    (fun _ _ _ => around.gentle.brings_run)
    (fun r member _ _ _ ends => ends.whole (Executor.overflows_of_not_spent (unspent r member)))
    nodup fits).bind ?_
  intro outcome e' reached
  obtain ⟨results, rfl, _⟩ := reached e' .refl
  intro e'' later
  obtain ⟨_, same, good', served⟩ := reached e'' later
  cases same
  exact ⟨_, rfl, MemoryStore.accounted_of_served orderly good'.2 first served unspent⟩

end Surroundings

/-- A scan of a processor at rest accounts for its store. It comes to an end if its page fits into
channels and workers and no handler waits without a limit. -/
theorem Surroundings.secures_scanOnce
    (around : Surroundings p place nature good reading) (rest : e.AtRest p)
    (fine : good e.world) (orderly : (place.get e.world).Orderly)
    (unspent : ∀ id r, (place.get e.world).get? id = some r → r.isSpent = false)
    (cut : cutoff p.settings.window (p.backend.clock e.world).1 = .ok before)
    (fits : able → (p.executor.WaitsOnly fun limit => limit.isSome) ∧
      (p.isPooled = true → 0 < e.pool.capacity ∧
        ((place.get e.world).available before p.settings.batchSize 0).length ≤ e.pool.room)) :
    (scanOnce p).run.Secures (Engine.Stirs p.executor) able (fun outcome e' =>
      ∃ report, outcome = .ok report ∧ (place.get e.world).Accounted
        (p.executor.FindsHeld reading)
        ((place.get e.world).available before p.settings.batchSize 0) report
        (place.get e'.world)) e := by
  rw [scanOnce_eq]
  refine (Engine.secures_onWorld (around.secures_fetch fine cut) rest.resting).bind ?_
  intro outcome e' reached
  obtain ⟨now, w, rfl, rfl, fine', same⟩ := reached e' .refl
  refine (around.secures_finish rest.later fine' (same.symm ▸ orderly) (by rw [← same]; rfl) ?_
    fits).mono fun _ _ accounted => same ▸ accounted
  exact fun r member => unspent r.id r (orderly.isPage_available.free r member).1

end Scanner

namespace Simulation

open Scanner Callers

/-- Three jobs: an easy one, one that is no queued one, and one that somebody has just claimed. -/
def mixedJobs : List JobRecord :=
  [easyJob "a", { easyJob "b" with collection := "mails" },
    { easyJob "c" with reservedAt := "1970-01-01T00:00:00Z" }]

def mixedEngine : Engine World := Engine.start (easyProcessor true) (World.still mixedJobs)

theorem World.still_orderly {records : List JobRecord}
    (distinct : (records.map JobRecord.id).Nodup) : (World.still records).store.Orderly where
  keyed := by
    intro entry member
    obtain ⟨r, _, rfl⟩ := List.mem_map.mp member
    rfl
  distinct := by
    rw [World.still, List.map_map]
    exact distinct

theorem mixedJobs_page :
    (World.still mixedJobs).store.available ⟨-300, 0⟩ 50 0 = mixedJobs.take 2 := by
  have stored : (World.still mixedJobs).store.records.map Prod.snd = mixedJobs := rfl
  have free : mixedJobs.filter (fun r => r.isAvailable ⟨-300, 0⟩) = mixedJobs.take 2 := by
    decide +kernel
  have sorted : (mixedJobs.take 2).Pairwise fun a b => MemoryStore.pageOrder a b = true := by
    decide +kernel
  rw [MemoryStore.available, MemoryStore.pageList, stored, free,
    List.mergeSort_of_pairwise sorted]
  rfl

/-- The surroundings of a scan of easy jobs while the clock stands still. -/
theorem easyProcessor_surroundings :
    Surroundings (easyProcessor true) World.storePart World.naturePart
      (fun w => ∀ n, w.nature.readings n = ⟨0, 0⟩) (· = ⟨0, 0⟩) where
  memory := rfl
  lawful := World.storePart_lawful
  shown := fun _ still => still _
  calendar := by
    rintro _ rfl
    decide
  ticking := fun _ still => ⟨still, rfl⟩
  storing := fun _ _ still => still
  handlers := fun jobType handler (found : easyExecutor.registry.get jobType = .ok handler) _ _ =>
    Script.spares_of_settled (fun _ _ => ⟨fun good => good, fun _ => rfl⟩) easyScripts_settled
      found

/-- After the page has been fetched, two workers run its records one after the other. -/
def sinceMixed : List Move :=
  [.call 0 true] ++ [.turn, .send, .send, .take 0, .run 0, .run 0, .run 0, .run 0, .run 0,
    .deliver 0, .take 1, .run 1, .deliver 1, .collect, .collect].map Move.pool ++
    [.call 0 true, .call 0 true]

/-- A job that was claimed in the middle of the leap second at the end of 2016. -/
def leapJob : JobRecord := { easyJob "a" with reservedAt := "2016-12-31T23:59:60.5Z" }

/-- Five minutes after the start of 2017. -/
def leapNow : Instant := ⟨1483229100, 200000000⟩

/-- A world with this job at this time. -/
def leapWorld : World :=
  { World.still [leapJob] with nature := ⟨fun _ => leapNow, Decimal.natText, 0, 0⟩ }

def leapEngine : Engine World := Engine.start (easyProcessor false) leapWorld

theorem leapWorld_page : leapWorld.store.available ⟨1483228800, 200000000⟩ 50 0 = [leapJob] := by
  have free : leapJob.isAvailable ⟨1483228800, 200000000⟩ = true := by decide +kernel
  simp [MemoryStore.available, MemoryStore.pageList, leapWorld, World.still, free]

end Simulation

end JobQueue
