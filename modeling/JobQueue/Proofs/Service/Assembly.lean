/-
Services that can be put together.

Settings that are in order make a service (`App.make?`), and its pool has ten slots in each channel
for every worker, if they ask for no more than `Pool.mostWorkers` workers. The number of workers is
not among the things that are checked. With more of them the slots are more than a channel can have,
or more than a machine word can count: a pool that is made all the same has lost some of them
(`App.starts_of_valid`).
-/

import JobQueue.Proofs.Scanner.Readiness
import JobQueue.Proofs.Service.Calls

namespace JobQueue

variable {W : Type}

namespace Pool

/-- The most workers whose slots a channel can have. -/
def mostWorkers : Nat := mostSlots / slotsPerWorker

/-- The slots of a pool are counted by a machine word and are not too many for a channel, up to a
number of workers. -/
theorem slots_le_iff {requested : Nat} :
    (sizeFor requested * slotsPerWorker < Word.count 64 ∧
      sizeFor requested * slotsPerWorker ≤ mostSlots) ↔ requested ≤ mostWorkers := by
  have words : Word.count 61 = 2305843009213693952 ∧ Word.count 64 = 18446744073709551616 := by
    decide
  rw [mostWorkers, mostSlots, words.1, words.2, slotsPerWorker, sizeFor, defaultSize]
  split <;> omega

theorem sizeFor_pos {requested : Nat} : 0 < sizeFor requested := by
  rw [sizeFor, defaultSize]
  split <;> omega

/-- A number of slots that a word counts is kept. -/
theorem slotsFor_of_lt {size : Nat} (counted : size * slotsPerWorker < Word.count 64) :
    slotsFor size = size * slotsPerWorker := Nat.mod_eq_of_lt counted

/-- Channels can be made for a number of workers that they have room for. -/
theorem canStart_of_le {requested : Nat} (few : requested ≤ mostWorkers) :
    canStart (sizeFor requested) = true := by
  obtain ⟨counted, room⟩ := slots_le_iff.mpr few
  have positive : 0 < sizeFor requested * slotsPerWorker := Nat.mul_pos sizeFor_pos (by decide)
  rw [canStart, slotsFor_of_lt counted, decide_eq_true positive, decide_eq_true room]
  rfl

/-- Channels for more workers than that are made only if a word cannot count their slots. -/
theorem wraps_of_canStart {requested : Nat} (many : mostWorkers < requested)
    (starts : canStart (sizeFor requested) = true) :
    Word.count 64 ≤ sizeFor requested * slotsPerWorker := by
  by_contra counted
  rw [not_le] at counted
  rw [canStart, slotsFor_of_lt counted, Bool.and_eq_true, decide_eq_true_iff,
    decide_eq_true_iff] at starts
  exact absurd (slots_le_iff.mp ⟨counted, starts.2⟩) (not_le.mpr many)

end Pool

namespace Session

variable {p : Processor W} {w : W}

theorem start?_pooled (pooled : p.isPooled = true) : start? p w =
    if Pool.canStart (Pool.sizeFor p.settings.maxWorkers) then
      some ⟨p, Engine.start p w, [], []⟩ else none := by
  rw [start?, Processor.workers, if_pos pooled, pooled, Bool.true_and]
  cases Pool.canStart (Pool.sizeFor p.settings.maxWorkers) <;> rfl

end Session

namespace App

variable {settings : Settings}

/-- Settings that are in order put a service together. -/
theorem assemble_of_valid (valid : settings.Valid) (stores : Stores W) (clock : W → Instant × W)
    (mailer : Mailer W) (sender : String) :
    ∃ a, assemble settings stores clock mailer sender = .ok a ∧
      a.processor.settings = settings.jobs ∧ a.processor.isPooled = true := by
  obtain ⟨schedule, readable⟩ := valid.exists_schedule
  rw [assemble, processorOf_eq, readable]
  exact ⟨_, rfl, rfl, rfl⟩

/-- Settings that are in order put a service together, if the channels of its pool can be made. They
can be made with ten slots for each worker if no more than `mostWorkers` workers are asked for, and
only then can a machine word count the slots and a channel have them. With more workers there are no
channels, no pool and no service, unless the word has wrapped around and the channels have some
slots less. -/
theorem starts_of_valid (valid : settings.Valid) (stores : Stores W) (clock : W → Instant × W)
    (mailer : Mailer W) (sender : String) (w : W) :
    ∃ a, assemble settings stores clock mailer sender = .ok a ∧
      let size := Pool.sizeFor settings.jobs.maxWorkers
      let slots := size * Pool.slotsPerWorker
      (slots < Word.count 64 ∧ slots ≤ Pool.mostSlots ↔
        settings.jobs.maxWorkers ≤ Pool.mostWorkers) ∧
      make? settings stores clock mailer sender =
        (if Pool.canStart size then some (.ok a) else none) ∧
      (settings.jobs.maxWorkers ≤ Pool.mostWorkers →
        Pool.canStart size = true ∧ ∃ s, Session.start? a.processor w = some s ∧
          s.engine.pool.size = size ∧ s.engine.pool.capacity = slots) ∧
      (Pool.mostWorkers < settings.jobs.maxWorkers →
        ∀ s, Session.start? a.processor w = some s →
          Word.count 64 ≤ slots ∧ s.engine.pool.capacity = slots % Word.count 64) := by
  obtain ⟨a, assembled, own, pooled⟩ := assemble_of_valid valid stores clock mailer sender
  have start := Session.start?_pooled (w := w) pooled
  have workers : a.processor.workers = Pool.sizeFor settings.jobs.maxWorkers := by
    rw [Processor.workers, if_pos pooled, own]
  rw [own] at start
  refine ⟨a, assembled, Pool.slots_le_iff, by rw [make?, assembled], fun few => ?_,
    fun many s started => ?_⟩
  · refine ⟨Pool.canStart_of_le few, _, start.trans (if_pos (Pool.canStart_of_le few)), ?_, ?_⟩
    · rw [Engine.start, Pool.size, Pool.start, List.length_replicate, workers]
    · rw [Engine.start, Pool.start, workers]
      exact Pool.slotsFor_of_lt (Pool.slots_le_iff.mpr few).1
  · rw [start] at started
    split at started
    next starts =>
      cases started
      refine ⟨Pool.wraps_of_canStart many starts, ?_⟩
      rw [Engine.start, Pool.start, workers]
      rfl
    next => cases started

/-- When nothing is said, a pool of five workers is made, with fifty slots in each channel. -/
theorem starts_of_valid_default : Settings.default.Valid ∧
    ∃ a, assemble Settings.default Site.memoryStores Site.clock .silent defaultSender = .ok a ∧
      make? Settings.default Site.memoryStores Site.clock .silent defaultSender = some (.ok a) ∧
      ∃ s, Session.start? a.processor (Site.start ⟨fun _ => ⟨0, 0⟩, Decimal.natText, 0, 0⟩) =
        some s ∧ s.engine.pool.size = 5 ∧ s.engine.pool.capacity = 50 := by
  have valid : Settings.default.Valid := by decide +kernel
  obtain ⟨a, assembled, _, made, starts, _⟩ := starts_of_valid valid Site.memoryStores Site.clock
    .silent defaultSender (Site.start ⟨fun _ => ⟨0, 0⟩, Decimal.natText, 0, 0⟩)
  obtain ⟨fits, started⟩ := starts (by decide)
  exact ⟨valid, a, assembled, made.trans (if_pos fits), started⟩

/-- Settings that ask for very many workers. -/
def crowdedSettings : Settings :=
  { Settings.default with
    jobs := { JobsSettings.default with maxWorkers := 1152921504606846976 } }

/-- These settings are in order, and all else of a service can be put together, but a channel cannot
have the slots that its pool wants, and so there is no pool and no service. -/
theorem crowded_pool_refused : crowdedSettings.Valid ∧
    Pool.mostSlots <
      Pool.sizeFor crowdedSettings.jobs.maxWorkers * Pool.slotsPerWorker ∧
    make? crowdedSettings Site.memoryStores Site.clock .silent defaultSender = none ∧
    ∃ a, assemble crowdedSettings Site.memoryStores Site.clock .silent defaultSender = .ok a ∧
      Session.start? a.processor (Site.start ⟨fun _ => ⟨0, 0⟩, Decimal.natText, 0, 0⟩) = none := by
  have valid : crowdedSettings.Valid := by decide +kernel
  obtain ⟨a, assembled, own, pooled⟩ := assemble_of_valid valid Site.memoryStores Site.clock
    .silent defaultSender
  refine ⟨valid, by decide, if_neg (by decide), a, assembled, ?_⟩
  rw [Session.start?_pooled pooled, own]
  exact if_neg (by decide)

end App

end JobQueue
