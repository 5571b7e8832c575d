/-
Settings that scans can go by.

Settings that are in order have a schedule that can be read, and so make a scanner. They may still
ask for a lease window that no time can be moved by. The windows of up to `Scanner.longestMinutes`
minutes can be used (`JobsSettings.isUsable_window_iff`). With such a window a scan asks its store
for a page and then goes on as the store answers: it has the page processed, or returns the store's
own error. With a longer one it returns an error of configuration before it asks for anything
(`Scanner.scan_of_valid`).
-/

import JobQueue.Proofs.Job.Returns
import JobQueue.Proofs.Scanner.Accounting
import JobQueue.Settings.Check

namespace JobQueue

variable {W : Type}

/-! ### The window -/

/-- The most minutes that a lease window may have if times are to be moved by it. -/
def Scanner.longestMinutes : Nat := 153722867280912

theorem JobsSettings.isUsable_window_iff {s : JobsSettings} :
    s.window.isUsable = true ↔ s.reservationMinutes ≤ Scanner.longestMinutes := by
  have words : Word.count 63 = 9223372036854775808 ∧ Word.count 64 = 18446744073709551616 := by
    decide
  rw [JobsSettings.window, Span.isUsable, decide_eq_true_iff, Span.ofSeconds, Span.longest,
    Span.ofMillis, JobsSettings.secondsBound, Scanner.longestMinutes, words.1, words.2]
  dsimp only
  omega

/-! ### The schedule -/

theorem Settings.Valid.exists_schedule {s : Settings} (valid : s.Valid) :
    ∃ schedule, Scanner.readSchedule s.jobs.scanSchedule = .ok schedule := by
  rw [Settings.Valid, Settings.problems, List.append_eq_nil_iff] at valid
  have readable : scheduleProblems s.jobs.scanSchedule = [] := by
    have jobs := valid.2
    simp only [JobsSettings.problems, List.append_eq_nil_iff] at jobs
    exact jobs.1.1.1.1.2
  rw [scheduleProblems] at readable
  rw [Scanner.readSchedule]
  cases parsed : Cron.Schedule.parse s.jobs.scanSchedule with
  | ok schedule => exact ⟨schedule, rfl⟩
  | error reason => simp [parsed] at readable

/-! ### What follows the store's answer -/

theorem Task.returns_of_forall {S α : Type} {allowed : α → Prop} (all : ∀ a, allowed a)
    (t : Task S α) : t.Returns allowed := by
  induction t with
  | done a => exact all a
  | act update next ih => exact ih
  | wait ready limit next ih => exact ih

theorem Task.Returns.mono {S α : Type} {allowed allowed' : α → Prop} {t : Task S α}
    (returns : t.Returns allowed) (weaker : ∀ a, allowed a → allowed' a) : t.Returns allowed' := by
  induction t with
  | done a => exact weaker a returns
  | act update next ih => exact fun w => ih w (returns w)
  | wait ready limit next ih => exact fun came => ih came (returns came)

namespace Scanner

variable {p : Processor W} {page : List JobRecord} {window : Span}

/-- The error of a window that no time can be moved by. -/
def endlessWindow : JobError :=
  .configuration
    "Invalid reservation timeout: Source duration value is out of range for the target type"

/-- How a scan goes on once its store has answered. -/
def goOn (p : Processor W) : Except (Fault StoreError) (List JobRecord) →
    Task (Engine W) (Except (Fault JobError) ScanReport)
  | .ok page => finish p page
  | .error (.error e) => .done (.error (.error (.store e)))
  | .error (.crash c) => .done (.error (.crash c))

/-- What a scan returns that has its page: a report, unless it runs the records in its own task and
the store breaks off. -/
def Reported (p : Processor W) (outcome : Except (Fault JobError) ScanReport) : Prop :=
  (∃ results, outcome = .ok (.ofResults results)) ∨
    p.isPooled = false ∧ ∃ c, outcome = .error (.crash c)

theorem returns_finish : (finish p page).Returns (Reported p) := by
  have processed : (Engine.processConcurrently p page).Returns fun outcome =>
      (∃ results, outcome = .ok results) ∨ p.isPooled = false := by
    unfold Engine.processConcurrently
    split
    · exact .inl ⟨[], rfl⟩
    · split
      next =>
        have batch : (Engine.processBatch (W := W) page).Returns fun _ => True :=
          Task.returns_of_forall (fun _ => trivial) _
        exact batch.bind fun results _ => .inl ⟨results, rfl⟩
      next sequential =>
        exact Task.returns_of_forall (fun _ => .inr (Bool.eq_false_iff.mpr sequential)) _
  refine processed.bind fun outcome known => ?_
  cases outcome with
  | ok results => exact .inl ⟨results, rfl⟩
  | error c => exact .inr ⟨known.resolve_left (by simp), c, rfl⟩

/-- A scan that has read the clock: it asks its store for a page if there is a cutoff. -/
def askPage (p : Processor W) :
    Except JobError Instant → Task (Engine W) (Except (Fault JobError) ScanReport)
  | .ok before =>
      let ask := p.backend.records.available before p.settings.batchSize 0
      .act (fun e => e.setWorld (ask e.world).2) fun e => goOn p (ask e.world).1
  | .error e => .done (.error (.error e))

theorem scanOnce_steps : (scanOnce p).run =
    .act (fun e => e.setWorld (p.backend.clock e.world).2) fun e =>
      askPage p (cutoff p.settings.window (p.backend.clock e.world).1) := by
  rw [scanOnce_eq, fetch_eq, Engine.onWorld_act_bind]
  congr 1
  funext e
  cases cutoff p.settings.window (p.backend.clock e.world).1 with
  | error e => rfl
  | ok before =>
      rw [askPage]
      dsimp only
      rw [JobTask.run_call, Engine.onWorld_act_bind]
      congr 1
      funext e
      rcases (p.backend.records.available before p.settings.batchSize 0 e.world).1 with
        (_ | _) | page <;> rfl

theorem follow_scanOnce (e₀ : Engine W) (inputs : List (Task.Input (Engine W))) :
    (scanOnce p).run.follow (.world e₀ :: inputs) =
      (askPage p (cutoff p.settings.window (p.backend.clock e₀.world).1)).follow inputs := by
  rw [scanOnce_steps, Task.follow, Task.given, Option.bind_some]

theorem exists_cutoff_of_isUsable (usable : window.isUsable = true) (now : Instant) :
    ∃ before, cutoff window now = .ok before :=
  ⟨_, by rw [cutoff, if_pos usable]⟩

theorem cutoff_of_endless (endless : window.isUsable = false) (now : Instant) :
    cutoff window now = .error endlessWindow := by
  rw [cutoff, endless]
  rfl

/-- However its store answers, a scan that has asked returns no error of configuration. -/
theorem returns_goOn (answer : Except (Fault StoreError) (List JobRecord)) :
    (goOn p answer).Returns fun outcome =>
      ∀ text, outcome ≠ .error (.error (.configuration text)) := by
  rcases answer with (e | c) | page
  · exact fun text => by simp
  · exact fun text => by simp
  · refine returns_finish.mono fun outcome reported text => ?_
    rcases reported with ⟨results, rfl⟩ | ⟨_, c, rfl⟩ <;> simp

/-- A scan whose window can be used asks for the page that was available when it began, and goes on
as its store answers. -/
theorem follow_scanOnce_of_isUsable (usable : p.settings.window.isUsable = true)
    (e₀ : Engine W) : ∃ before, cutoff p.settings.window (p.backend.clock e₀.world).1 = .ok before ∧
      ∀ e₁ : Engine W, (scanOnce p).run.follow [.world e₀, .world e₁] =
        some (goOn p (p.backend.records.available before p.settings.batchSize 0 e₁.world).1) := by
  obtain ⟨before, found⟩ := exists_cutoff_of_isUsable usable (p.backend.clock e₀.world).1
  refine ⟨before, found, fun e₁ => ?_⟩
  rw [follow_scanOnce, found]
  rfl

/-- A scan whose window no time can be moved by ends before it asks for anything. -/
theorem follow_scanOnce_of_endless (endless : p.settings.window.isUsable = false)
    (e₀ : Engine W) : (scanOnce p).run.follow [.world e₀] =
      some (.done (.error (.error endlessWindow))) := by
  rw [follow_scanOnce, cutoff_of_endless endless]
  rfl

theorem returns_scanOnce (usable : p.settings.window.isUsable = true) :
    (scanOnce p).run.Returns fun outcome =>
      ∀ text, outcome ≠ .error (.error (.configuration text)) := by
  rw [scanOnce_steps, Task.Returns]
  intro e₀
  obtain ⟨before, found⟩ := exists_cutoff_of_isUsable usable (p.backend.clock e₀.world).1
  rw [found, askPage, Task.Returns]
  exact fun e₁ => returns_goOn _

/-- Settings that are in order make a scanner. If their window has no more than `longestMinutes`
minutes, then whatever is in the store, whatever the clock shows and whatever others do meanwhile, a
scan asks for one page of the records that were available when it began; it then has the page
processed and returns a report, or returns the error of its store. It never returns an error of
configuration. With a longer window each scan does, and asks for nothing. -/
theorem scan_of_valid {s : Settings} (valid : s.Valid) (own : p.settings = s.jobs) :
    (∃ schedule, readSchedule p.settings.scanSchedule = .ok schedule) ∧
    (p.settings.reservationMinutes ≤ longestMinutes →
      (∀ e₀ : Engine W, ∃ before,
        cutoff p.settings.window (p.backend.clock e₀.world).1 = .ok before ∧
        ∀ e₁ : Engine W, (scanOnce p).run.follow [.world e₀, .world e₁] =
          some (goOn p (p.backend.records.available before p.settings.batchSize 0 e₁.world).1)) ∧
      (∀ page, (finish p page).Returns (Reported p)) ∧
      (scanOnce p).run.Returns fun outcome =>
        ∀ text, outcome ≠ .error (.error (.configuration text))) ∧
    (longestMinutes < p.settings.reservationMinutes → ∀ e₀ : Engine W,
      (scanOnce p).run.follow [.world e₀] = some (.done (.error (.error endlessWindow)))) := by
  refine ⟨own ▸ valid.exists_schedule, fun short => ?_, fun long => ?_⟩
  · have usable := JobsSettings.isUsable_window_iff.mpr short
    exact ⟨follow_scanOnce_of_isUsable usable, fun page => returns_finish, returns_scanOnce usable⟩
  · refine follow_scanOnce_of_endless (Bool.eq_false_iff.mpr fun usable => ?_)
    exact absurd (JobsSettings.isUsable_window_iff.mp usable) (Nat.not_le.mpr long)

end Scanner

namespace Simulation

open Scanner

/-- The settings when nothing is said make scans that ask the store and go on. -/
theorem scan_of_valid_default : Settings.default.Valid ∧
    (∃ schedule, readSchedule (easyProcessor true).settings.scanSchedule = .ok schedule) ∧
    (scanOnce (easyProcessor true)).run.follow [.world mixedEngine, .world mixedEngine] =
      some (finish (easyProcessor true) (mixedJobs.take 2)) ∧
    (finish (easyProcessor true) (mixedJobs.take 2)).Returns fun outcome =>
      ∃ results, outcome = .ok (.ofResults results) := by
  have valid : Settings.default.Valid := by decide +kernel
  obtain ⟨scanner, short, _⟩ := scan_of_valid valid (p := easyProcessor true) rfl
  obtain ⟨asks, reports, _⟩ := short (by decide)
  obtain ⟨before, found, goes⟩ := asks mixedEngine
  have cut : cutoff (easyProcessor true).settings.window
      ((easyProcessor true).backend.clock mixedEngine.world).1 = .ok ⟨-300, 0⟩ := by
    decide +kernel
  obtain rfl : ⟨-300, 0⟩ = before := Except.ok.inj (cut.symm.trans found)
  refine ⟨valid, scanner, ?_, (reports _).mono fun outcome reported => ?_⟩
  · rw [goes mixedEngine, ← mixedJobs_page]
    rfl
  · exact reported.resolve_right fun ⟨sequential, _⟩ => by cases sequential

/-- Settings with the longest window that can be written. -/
def endlessSettings : Settings :=
  { Settings.default with
    jobs := { JobsSettings.default with reservationMinutes := Word.count 64 - 1 } }

/-- A processor that goes by them. -/
def endlessProcessor : Processor World :=
  { easyProcessor true with settings := endlessSettings.jobs }

/-- These settings are in order, but every scan fails for want of a usable window. -/
theorem endless_window_refused : endlessSettings.Valid ∧
    (scanOnce endlessProcessor).run.follow [.world mixedEngine] =
      some (.done (.error (.error (.configuration
        "Invalid reservation timeout: Source duration value is out of range for the target type"))))
    := by
  have endless : endlessProcessor.settings.window.isUsable = false := by decide +kernel
  exact ⟨by decide +kernel, follow_scanOnce_of_endless endless mixedEngine⟩

end Simulation

end JobQueue
