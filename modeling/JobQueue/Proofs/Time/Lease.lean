/-
Leases and time.

Whether a lease lives is a matter of its text alone (`leaseLives`). The text that a claim writes is
read back as the second in which the claim was made, or not at all (`plain_of_leaseText`), so a
lease that lives at some time has lived at every earlier one since a time that no leap second
touches (`leaseLives_of_le`). A lease that was begun in the years 0 to 9999 lasts for its window from
the start of that second, and for ever if the window is longer than any that can be measured
(`JobRecord.reserved_for_window`).
-/

import JobQueue.Proofs.Time.Stamp
import JobQueue.Record.Basic

namespace JobQueue

open Instant

variable {a b t now since start : Instant} {window : Span} {places : Nat}

/-! ### Differences of times -/

theorem Instant.le_iff :
    a ≤ b ↔ a.seconds < b.seconds ∨ a.seconds = b.seconds ∧ a.nanos ≤ b.nanos := by
  have unfolded : a ≤ b ↔ ¬ b < a := Bool.not_eq_true _ ▸ Iff.rfl
  rw [unfolded, lt_iff]
  omega

theorem Instant.lt_irrefl (a : Instant) : ¬ a < a := by
  rw [lt_iff]
  omega

theorem Instant.lt_trans {c : Instant} (first : a < b) (second : b < c) : a < c := by
  rw [lt_iff] at *
  omega

theorem Instant.lt_of_not_lt_of_lt {c : Instant} (first : ¬ b < a) (second : b < c) : a < c := by
  rw [lt_iff] at *
  omega

/-- Two instants neither of which is before the other are the same. -/
theorem Instant.eq_of_not_lt (first : ¬ a < b) (second : ¬ b < a) : a = b := by
  rw [lt_iff] at first second
  obtain ⟨seconds, nanos⟩ := a
  obtain ⟨seconds', nanos'⟩ := b
  rw [Instant.mk.injEq]
  dsimp only at first second
  omega

theorem Instant.since_of_plain (first : a.Plain) (second : b.Plain) :
    a.since b = a.toNanos - b.toNanos := by
  have whole : leapBetween a b = 0 := by
    unfold leapBetween
    rw [if_neg (Nat.not_le.mpr second), if_neg (Nat.not_le.mpr first)]
    split
    · rfl
    · split <;> rfl
  rw [since, whole, toNanos, toNanos, Int.add_zero, Int.sub_mul]
  omega

theorem Instant.toNanos_le_toNanos (plain : a.Plain) (le : a ≤ b) : a.toNanos ≤ b.toNanos := by
  have scale : nanosPerSecond = 1000000000 := rfl
  rw [Plain, scale] at plain
  rw [le_iff] at le
  rw [toNanos, toNanos, scale]
  omega

/-! ### Texts of leases -/

/-- A written time of a year that four digits do not write is refused for its sign. -/
theorem Time.readStrict_stamp_of_far (far : ¬ t.HasFourDigitYear) :
    Time.readStrict (t.stamp places) = .error .invalid := by
  have years : ¬ (0 ≤ t.date.year ∧ t.date.year ≤ 9999) := far
  obtain ⟨sign, rest, noDigit, written⟩ : ∃ (sign : Char) (rest : List Char),
      Decimal.digitValue? sign = none ∧ stampChars places t = sign :: rest := by
    rw [stampChars, dateChars, yearChars, if_neg years]
    refine ⟨_, _, ?_, rfl⟩
    split <;> decide
  have long : ¬ Time.byteCount (stampChars places t) < 4 := by
    have bytes := Time.length_le_byteCount (stampChars places t)
    have marks : 4 ≤ (stampChars places t).length := by
      simp only [stampChars, dateChars, clockChars, List.length_append, List.length_cons]
      omega
    omega
  have refused : Time.number 4 4 (sign :: rest) = .error .invalid := by
    rw [written] at long
    rw [Time.number, if_neg long, Time.takeDigits, noDigit]
    rfl
  rw [Time.readStrict, stamp, String.toList_ofList, written, Time.strictFields, refused]
  rfl

theorem Time.strict?_stamp_of_far (far : ¬ t.HasFourDigitYear) :
    Time.strict? (t.stamp places) = none := by
  rw [Time.strict?, Time.readStrict_stamp_of_far far]
  rfl

theorem Instant.leaseText_ne_empty (t : Instant) : t.leaseText ≠ "" := by
  obtain ⟨c, rest, written, _⟩ := exists_stampChars_eq_cons 0 t
  intro empty
  have none := congrArg String.toList empty
  rw [leaseText, stamp, String.toList_ofList, written] at none
  cases none

/-- A claim of the years 0 to 9999 is read back as the start of its second. -/
theorem leaseStart?_leaseText (plain : since.Plain) (year : since.HasFourDigitYear) :
    leaseStart? since.leaseText = some since.toSecond := by
  have written : since.leaseText.isEmpty = false :=
    String.isEmpty_eq_false_iff.mpr since.leaseText_ne_empty
  rw [leaseStart?, written, if_neg Bool.false_ne_true, leaseText,
    Time.strict?_stamp (by decide) plain year, cut_zero plain]

/-- The start of a lease that a claim has written lies in no leap second. -/
theorem plain_of_leaseText (plain : since.Plain) (read : leaseStart? since.leaseText = some start) :
    start.Plain := by
  by_cases year : since.HasFourDigitYear
  · rw [leaseStart?_leaseText plain year, Option.some.injEq] at read
    rw [← read]
    exact (by decide : 0 < nanosPerSecond)
  · rw [leaseStart?, leaseText, Time.strict?_stamp_of_far year] at read
    split at read <;> cases read

/-- Whether a lease with a text lives. -/
def leaseLives (text : String) (window : Span) (now : Instant) : Bool :=
  match leaseStart? text with
  | some start => leaseHolds window start now
  | none => false

theorem JobRecord.isReserved_eq (r : JobRecord) :
    r.isReserved window now = leaseLives r.reservedAt window now := rfl

theorem leaseHolds_of_le (first : start.Plain) (second : t.Plain) (third : now.Plain) (le : t ≤ now)
    (holds : leaseHolds window start now = true) : leaseHolds window start t = true := by
  unfold leaseHolds at holds ⊢
  split
  next usable =>
    rw [if_pos usable, decide_eq_true_iff, since_of_plain third first] at holds
    rw [decide_eq_true_iff, since_of_plain second first]
    have earlier := toNanos_le_toNanos second le
    omega
  next => rfl

/-- A lease that lives lived at every earlier time. -/
theorem leaseLives_of_le (first : since.Plain) (second : t.Plain) (third : now.Plain) (le : t ≤ now)
    (lives : leaseLives since.leaseText window now = true) :
    leaseLives since.leaseText window t = true := by
  unfold leaseLives at lives ⊢
  cases read : leaseStart? since.leaseText with
  | none => simp [read] at lives
  | some start =>
      rw [read] at lives
      exact leaseHolds_of_le (plain_of_leaseText first read) second third le lives

/-! ### How long a lease lasts -/

theorem Span.isUsable_iff : window.isUsable = true ↔ window.nanos ≤ Span.longest.nanos :=
  decide_eq_true_iff

/-- A lease holds before its window is over, and for ever if the window is too long. -/
theorem leaseHolds_iff : leaseHolds window start now = true ↔
    now.since start < window.nanos ∨ Span.longest.nanos < window.nanos := by
  unfold leaseHolds
  split
  next usable =>
    have short := Span.isUsable_iff.mp usable
    rw [decide_eq_true_iff, or_iff_left (Nat.not_lt.mpr short)]
  next endless =>
    have long := mt Span.isUsable_iff.mpr endless
    exact iff_of_true rfl (.inr (Nat.not_le.mp long))

theorem leaseHolds_of_window_le {longer : Span} (le : window.nanos ≤ longer.nanos)
    (holds : leaseHolds window start now = true) : leaseHolds longer start now = true := by
  rw [leaseHolds_iff] at holds ⊢
  omega

namespace JobRecord

theorem isReserved_of_window_le {r : JobRecord} {longer : Span} (le : window.nanos ≤ longer.nanos)
    (reserved : r.isReserved window now = true) : r.isReserved longer now = true := by
  unfold isReserved at reserved ⊢
  cases read : r.reservedSince? with
  | none => simp [read] at reserved
  | some start =>
      rw [read] at reserved
      exact leaseHolds_of_window_le le reserved

/-- A record that is claimed in the years 0 to 9999 is reserved from the start of that second for as
long as the window says, and for ever if the window is longer than any that can be measured. Once its
lease has lapsed it stays so, and a longer window ends no lease. -/
theorem reserved_for_window (r : JobRecord) (plain : now.Plain) (year : now.HasFourDigitYear) :
    (r.reserve now).reservedSince? = some now.toSecond ∧
    (∀ window t, t.Plain → ((r.reserve now).isReserved window t = true ↔
      t.toNanos - now.toSecond.toNanos < window.nanos ∨ Span.longest.nanos < window.nanos)) ∧
    (∀ window t later, t.Plain → later.Plain → t ≤ later →
      (r.reserve now).isReserved window t = false →
      (r.reserve now).isReserved window later = false) ∧
    (∀ window longer t, window.nanos ≤ longer.nanos → (r.reserve now).isReserved window t = true →
      (r.reserve now).isReserved longer t = true) := by
  have began : (r.reserve now).reservedSince? = some now.toSecond :=
    leaseStart?_leaseText plain year
  have second : now.toSecond.Plain := (by decide : 0 < nanosPerSecond)
  refine ⟨began, fun window t plainly => ?_, fun window t later first last le lapsed => ?_,
    fun window longer t le => isReserved_of_window_le le⟩
  · rw [isReserved, began]
    show leaseHolds window now.toSecond t = true ↔ _
    rw [leaseHolds_iff, since_of_plain plainly second]
  · refine Bool.eq_false_iff.mpr fun held => Bool.eq_false_iff.mp lapsed ?_
    exact leaseLives_of_le plain first last le held

/-- A record that is claimed in the last nanosecond of a leap day is reserved for five minutes from
the start of the last second, under a longer window as well, and no longer a year later. -/
theorem reserved_for_window_leapDay :
    let now : Instant := ⟨1709251199, 999999999⟩
    let r := ((⟨"job", "", ""⟩ : NewJobRecord).toRecord "r1" now).reserve now
    r.reservedAt = "2024-02-29T23:59:59Z" ∧ r.reservedSince? = some ⟨1709251199, 0⟩ ∧
      r.isReserved (.ofSeconds 300) ⟨1709251498, 999999999⟩ = true ∧
      r.isReserved (.ofSeconds 600) ⟨1709251498, 999999999⟩ = true ∧
      r.isReserved (.ofSeconds 300) ⟨1709251499, 0⟩ = false ∧
      r.isReserved (.ofSeconds 300) ⟨1740787199, 0⟩ = false := by
  intro now r
  have plain : now.Plain := by decide
  have year : now.HasFourDigitYear := by decide +kernel
  obtain ⟨began, lasts, lapses, longer⟩ := reserved_for_window
    ((⟨"job", "", ""⟩ : NewJobRecord).toRecord "r1" now) plain year
  have held := (lasts (.ofSeconds 300) ⟨1709251498, 999999999⟩ (by decide)).mpr (by decide)
  have lapsed : r.isReserved (.ofSeconds 300) ⟨1709251499, 0⟩ = false := by
    rw [Bool.eq_false_iff, ne_eq, lasts _ _ (by decide)]
    decide
  exact ⟨by decide +kernel, began, held, longer _ _ _ (by decide) held, lapsed,
    lapses _ _ _ (by decide) (by decide) (by decide) lapsed⟩

end JobRecord

end JobQueue
