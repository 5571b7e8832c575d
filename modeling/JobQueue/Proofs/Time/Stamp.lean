/-
Written times and what they tell.

A time of the years 0 to 9999 is read back from its written form, cut off after the digits that
the form has (`strict?_stamp`). Written forms with equally many digits come in the order of the
times they are cut off at (`stamp_lt_stamp_iff`), and so do the forms of leases where the second is
any time up to the year 9999 (`leaseText_lt_leaseText_iff`). Leap seconds do not disturb either, as
long as each is the last second of its minute (`Instant.Proper`). For the texts that are stored this
comes to `Instant.texts_in_order`: comparing them compares the times.
-/

import JobQueue.Database.Basic
import JobQueue.Proofs.Decimal.Padded
import JobQueue.Proofs.Time.Calendar
import JobQueue.Time.Strict

namespace JobQueue

namespace Instant

open Decimal

variable {a b t : Instant} {places : Nat}

/-- The instant lies in a year that four digits write. -/
def HasFourDigitYear (t : Instant) : Prop := 0 ≤ t.date.year ∧ t.date.year ≤ 9999

instance (t : Instant) : Decidable t.HasFourDigitYear := by
  unfold HasFourDigitYear; infer_instance

/-- A leap second comes at the end of a minute and is over after a second. -/
structure Proper (t : Instant) : Prop where
  nanos : t.nanos < 2 * nanosPerSecond
  leap : nanosPerSecond ≤ t.nanos → t.secondOfDay % 60 = 59

instance (t : Instant) : Decidable t.Proper :=
  decidable_of_iff (t.nanos < 2 * nanosPerSecond ∧
      (nanosPerSecond ≤ t.nanos → t.secondOfDay % 60 = 59))
    ⟨fun ⟨nanos, leap⟩ => ⟨nanos, leap⟩, fun proper => ⟨proper.nanos, proper.leap⟩⟩

theorem Plain.proper (plain : t.Plain) : t.Proper where
  nanos := Nat.lt_of_lt_of_le plain (by decide)
  leap := fun late => absurd plain (Nat.not_lt.mpr late)

theorem Proper.leap_cases (proper : t.Proper) : t.nanos / nanosPerSecond = 0 ∨
    t.nanos / nanosPerSecond = 1 ∧ t.secondOfDay % 60 = 59 := by
  have scale : nanosPerSecond = 1000000000 := rfl
  have nanos := proper.nanos
  have leap := proper.leap
  rw [scale] at *
  omega

/-- The instant cut off after some digits of its fraction; a leap second stays one. -/
def cut (places : Nat) (t : Instant) : Instant :=
  ⟨t.seconds, t.nanos / 10 ^ (9 - places) * 10 ^ (9 - places)⟩

theorem cut_zero (plain : t.Plain) : t.cut 0 = t.toSecond := by
  have none : t.nanos / 10 ^ (9 - 0) = 0 := Nat.div_eq_of_lt plain
  rw [cut, none, Nat.zero_mul, toSecond]

theorem lt_iff : a < b ↔ a.seconds < b.seconds ∨ a.seconds = b.seconds ∧ a.nanos < b.nanos := by
  have unfolded : a < b ↔ a.before b = true := Iff.rfl
  rw [unfolded]
  simp [before]

theorem cut_six (t : Instant) : t.cut 6 = t.toMicro := rfl

/-! ### Days and seconds -/

theorem seconds_eq (t : Instant) : t.seconds = t.day * 86400 + t.secondOfDay := by
  unfold day secondOfDay secondsPerDay
  omega

theorem secondOfDay_lt (t : Instant) : t.secondOfDay < 86400 := by
  unfold secondOfDay secondsPerDay
  omega

theorem valid_date (t : Instant) : t.date.Valid := Date.valid_ofDay t.day

theorem toDay_date (t : Instant) : t.date.toDay = t.day := Date.toDay_ofDay t.day

theorem before_date_iff : a.date.Before b.date ↔ a.day < b.day := Date.ofDay_before_iff

theorem HasFourDigitYear.seconds_bounds (year : t.HasFourDigitYear) :
    -62167219200 ≤ t.seconds ∧ t.seconds < 253402300800 := by
  obtain ⟨first, last⟩ := year
  have valid := t.valid_date
  have months : 0 ≤ t.date.monthIndex ∧ t.date.monthIndex + 1 ≤ 120000 := by
    obtain ⟨_, _, _⟩ := valid
    unfold Date.monthIndex
    omega
  have start : Date.monthStart 0 = -719528 := by decide
  have finish : Date.monthStart 120000 = 2932897 := by decide
  have lower := Date.monthStart_strictMono.monotone months.1
  have upper := Date.monthStart_strictMono.monotone months.2
  have begun := Date.toDay_eq_monthStart valid
  have inMonth := Date.toDay_lt_monthStart valid
  rw [toDay_date] at begun inMonth
  have started := valid.2.2.1
  have split := t.seconds_eq
  have inDay := t.secondOfDay_lt
  omega

theorem HasFourDigitYear.inCalendar (year : t.HasFourDigitYear) (nanos : Nat) :
    inCalendar? ⟨t.seconds, nanos⟩ = some ⟨t.seconds, nanos⟩ := by
  have first : earliest.seconds = -8334601228800 := by decide
  have last : latest.seconds = 8210266876799 := by decide
  obtain ⟨lower, upper⟩ := year.seconds_bounds
  rw [inCalendar?, first, last, if_pos ⟨by dsimp only; omega, by dsimp only; omega⟩]

/-! ### The order of written forms -/

section Order

theorem length_dateChars (year : t.HasFourDigitYear) : (dateChars t.date).length = 10 := by
  simp [dateChars, yearChars, year.1, year.2, length_padded]

theorem length_clockChars : (clockChars t).length = 8 := by
  simp [clockChars, length_padded]

theorem dateChars_eq (year : t.HasFourDigitYear) : dateChars t.date =
    padded 4 t.date.year.toNat ++
      '-' :: (padded 2 t.date.month ++ '-' :: (padded 2 t.date.day ++ [])) := by
  rw [dateChars, yearChars, if_pos ⟨year.1, year.2⟩, List.append_nil]

theorem day_lt (t : Instant) : t.date.day < 10 ^ 2 := by
  obtain ⟨_, _, _, inMonth⟩ := t.valid_date
  unfold Date.daysInMonth at inMonth
  grind

theorem month_lt (t : Instant) : t.date.month < 10 ^ 2 := by
  obtain ⟨_, _, _⟩ := t.valid_date
  omega

theorem year_lt (year : t.HasFourDigitYear) : t.date.year.toNat < 10 ^ 4 := by
  obtain ⟨_, _⟩ := year
  omega

/-- Written dates come in the order of the days. -/
theorem dateChars_lt_dateChars_iff (first : a.HasFourDigitYear) (second : b.HasFourDigitYear) :
    dateChars a.date < dateChars b.date ↔ a.day < b.day := by
  rw [← before_date_iff, dateChars_eq first, dateChars_eq second,
    padded_append_lt_iff (year_lt first) (year_lt second), cons_lt_cons_same_iff,
    padded_append_lt_iff a.month_lt b.month_lt, cons_lt_cons_same_iff,
    padded_append_lt_iff a.day_lt b.day_lt]
  have irrefl : ¬ ([] : List Char) < [] := List.not_lt_nil []
  obtain ⟨_, _⟩ := first
  obtain ⟨_, _⟩ := second
  unfold Date.Before
  simp only [irrefl, and_false, or_false]
  omega

theorem dateChars_inj (first : a.HasFourDigitYear) (second : b.HasFourDigitYear) :
    dateChars a.date = dateChars b.date ↔ a.day = b.day := by
  refine ⟨fun same => ?_, fun same => congrArg (fun day => dateChars (Date.ofDay day)) same⟩
  have notBefore : ¬ a.day < b.day := by
    rw [← dateChars_lt_dateChars_iff first second, same]
    exact List.lt_irrefl _
  have notAfter : ¬ b.day < a.day := by
    rw [← dateChars_lt_dateChars_iff second first, same]
    exact List.lt_irrefl _
  omega

/-- Hours, minutes and seconds decide one after another; the last second may be a leap second. -/
theorem clock_lt_iff {first second leap : Nat} (few : leap ≤ 1) :
    (first / 3600 < second / 3600 ∨ first / 3600 = second / 3600 ∧
      (first / 60 % 60 < second / 60 % 60 ∨ first / 60 % 60 = second / 60 % 60 ∧
        first % 60 < second % 60 + leap)) ↔ first < second + leap := by
  have hours : ∀ n : Nat, n / 3600 = n / 60 / 60 := fun n => (Nat.div_div_eq_div_mul n 60 60).symm
  have minutes : (first / 60 / 60 < second / 60 / 60 ∨ first / 60 / 60 = second / 60 / 60 ∧
      first / 60 % 60 < second / 60 % 60) ↔ first / 60 < second / 60 := by omega
  have sameMinute : (first / 60 / 60 = second / 60 / 60 ∧ first / 60 % 60 = second / 60 % 60) ↔
      first / 60 = second / 60 := by omega
  have decided : (first / 60 < second / 60 ∨ first / 60 = second / 60 ∧
      first % 60 < second % 60 + leap) ↔ first < second + leap := by omega
  rw [hours, hours, ← decided, ← minutes, ← sameMinute]
  tauto

/-- Times of the day, whose seconds may be leap seconds, come in their order where the first is
no leap second. -/
theorem clockChars_lt_clockChars_iff (plain : a.Plain) (other : b.nanos < 2 * nanosPerSecond) :
    clockChars a < clockChars b ↔ a.secondOfDay < b.secondOfDay + b.nanos / nanosPerSecond := by
  have firsts := a.secondOfDay_lt
  have seconds := b.secondOfDay_lt
  have none : a.nanos / nanosPerSecond = 0 := Nat.div_eq_of_lt plain
  have few : b.nanos / nanosPerSecond ≤ 1 := by
    unfold nanosPerSecond at other ⊢
    omega
  have irrefl : ¬ ([] : List Char) < [] := List.not_lt_nil []
  rw [clockChars, clockChars, ← List.append_nil (padded 2 a.writtenSecond),
    ← List.append_nil (padded 2 b.writtenSecond), writtenSecond, writtenSecond, none,
    padded_append_lt_iff (by omega) (by omega), cons_lt_cons_same_iff,
    padded_append_lt_iff (by omega) (by omega), cons_lt_cons_same_iff,
    padded_append_lt_iff (by omega) (by omega)]
  simp only [irrefl, and_false, or_false]
  exact clock_lt_iff few

/-- So they do where each may be a leap second, if that is the last second of a minute. -/
theorem leap_lt_iff {first second leap leap' : Nat} (last : leap = 0 ∨ leap = 1 ∧ first % 60 = 59)
    (last' : leap' = 0 ∨ leap' = 1 ∧ second % 60 = 59) :
    (first / 3600 < second / 3600 ∨ first / 3600 = second / 3600 ∧
      (first / 60 % 60 < second / 60 % 60 ∨ first / 60 % 60 = second / 60 % 60 ∧
        first % 60 + leap < second % 60 + leap')) ↔
      first < second ∨ first = second ∧ leap < leap' := by
  have few : leap' ≤ 1 := by omega
  rcases last with none | ⟨one, fifty⟩
  · rw [none, Nat.add_zero, clock_lt_iff few]
    omega
  · -- A leap second has every later second of its minute behind it.
    have plain := @clock_lt_iff first second leap' few
    omega

theorem clockChars_lt_clockChars_iff_of_proper (first : a.Proper) (second : b.Proper) :
    clockChars a < clockChars b ↔ a.secondOfDay < b.secondOfDay ∨
      a.secondOfDay = b.secondOfDay ∧ a.nanos / nanosPerSecond < b.nanos / nanosPerSecond := by
  have firsts := a.secondOfDay_lt
  have seconds := b.secondOfDay_lt
  have ofFirst := first.leap_cases
  have ofSecond := second.leap_cases
  have irrefl : ¬ ([] : List Char) < [] := List.not_lt_nil []
  rw [clockChars, clockChars, ← List.append_nil (padded 2 a.writtenSecond),
    ← List.append_nil (padded 2 b.writtenSecond), writtenSecond, writtenSecond,
    padded_append_lt_iff (by omega) (by omega), cons_lt_cons_same_iff,
    padded_append_lt_iff (by omega) (by omega), cons_lt_cons_same_iff,
    padded_append_lt_iff (by omega) (by omega)]
  simp only [irrefl, and_false, or_false]
  exact leap_lt_iff ofFirst ofSecond

theorem clockChars_inj (first : a.Proper) (second : b.Proper) :
    clockChars a = clockChars b ↔ a.secondOfDay = b.secondOfDay ∧
      a.nanos / nanosPerSecond = b.nanos / nanosPerSecond := by
  constructor
  · intro same
    have notBefore := mt (clockChars_lt_clockChars_iff_of_proper first second).mpr
      (same ▸ List.lt_irrefl _)
    have notAfter := mt (clockChars_lt_clockChars_iff_of_proper second first).mpr
      (same ▸ List.lt_irrefl _)
    omega
  · rintro ⟨same, leap⟩
    rw [clockChars, clockChars, writtenSecond, writtenSecond, same, leap]

theorem stamp_lt_stamp_iff_chars :
    a.stamp places < b.stamp places ↔ stampChars places a < stampChars places b := by
  have unfolded : a.stamp places < b.stamp places ↔
      (String.ofList (stampChars places a)).toList < (String.ofList (stampChars places b)).toList :=
    Iff.rfl
  rw [unfolded, String.toList_ofList, String.toList_ofList]

/-- What is cut off after some digits is made of the whole second and the digits of its fraction. -/
theorem nanos_div_eq (few : places ≤ 9) (t : Instant) : t.nanos / 10 ^ (9 - places) =
    t.nanos / nanosPerSecond * 10 ^ places + t.nanos % nanosPerSecond / 10 ^ (9 - places) := by
  have positive : 0 < 10 ^ (9 - places) := Nat.pow_pos (by decide)
  have scale : nanosPerSecond = 10 ^ (9 - places) * 10 ^ places := by
    rw [← Nat.pow_add, Nat.sub_add_cancel few]
    rfl
  calc t.nanos / 10 ^ (9 - places)
      = (10 ^ (9 - places) * (t.nanos / nanosPerSecond * 10 ^ places) +
          t.nanos % nanosPerSecond) / 10 ^ (9 - places) := by
        rw [Nat.mul_comm (t.nanos / nanosPerSecond), ← Nat.mul_assoc, ← scale, Nat.div_add_mod]
    _ = _ := Nat.mul_add_div positive _ _

theorem fraction_lt (few : places ≤ 9) (t : Instant) :
    t.nanos % nanosPerSecond / 10 ^ (9 - places) < 10 ^ places := by
  refine Nat.div_lt_of_lt_mul ?_
  rw [← Nat.pow_add, Nat.sub_add_cancel few]
  exact Nat.mod_lt _ (by decide)

/-- Written forms with equally many digits come in the order of the times they are cut off at, leap
seconds at the end of a minute included. -/
theorem stamp_lt_stamp_iff_of_proper (few : places ≤ 9) (first : a.Proper) (second : b.Proper)
    (firstYear : a.HasFourDigitYear) (secondYear : b.HasFourDigitYear) :
    a.stamp places < b.stamp places ↔ a.cut places < b.cut places := by
  have fractions : fractionChars places a ++ ['Z'] < fractionChars places b ++ ['Z'] ↔
      a.nanos % nanosPerSecond / 10 ^ (9 - places) <
        b.nanos % nanosPerSecond / 10 ^ (9 - places) := by
    unfold fractionChars
    by_cases bare : places = 0
    · subst bare
      have ofFirst := a.fraction_lt few
      have ofSecond := b.fraction_lt few
      simp only [if_true, List.nil_append]
      refine iff_of_false (List.lt_irrefl _) (by omega)
    · rw [if_neg bare, if_neg bare, List.cons_append, List.cons_append, cons_lt_cons_same_iff,
        Nat.pow_eq, padded_append_lt_iff (a.fraction_lt few) (b.fraction_lt few)]
      exact or_iff_left fun both => List.lt_irrefl _ both.2
  have scaled : ∀ {m n k : Nat}, 0 < k → (m * k < n * k ↔ m < n) := fun positive =>
    Nat.mul_lt_mul_right positive
  -- The whole second of a fraction is none or one, and counts before its digits.
  have parts : a.nanos / 10 ^ (9 - places) < b.nanos / 10 ^ (9 - places) ↔
      a.nanos / nanosPerSecond < b.nanos / nanosPerSecond ∨
        a.nanos / nanosPerSecond = b.nanos / nanosPerSecond ∧
          a.nanos % nanosPerSecond / 10 ^ (9 - places) <
            b.nanos % nanosPerSecond / 10 ^ (9 - places) := by
    have ofFirst := a.fraction_lt few
    have ofSecond := b.fraction_lt few
    rw [nanos_div_eq few a, nanos_div_eq few b]
    generalize a.nanos % nanosPerSecond / 10 ^ (9 - places) = digits at ofFirst ⊢
    generalize b.nanos % nanosPerSecond / 10 ^ (9 - places) = digits' at ofSecond ⊢
    rcases first.leap_cases with leap | ⟨leap, _⟩ <;>
      rcases second.leap_cases with leap' | ⟨leap', _⟩ <;> rw [leap, leap'] <;> omega
  rw [stamp_lt_stamp_iff_chars, stampChars, stampChars,
    append_lt_append_iff (by rw [length_dateChars firstYear, length_dateChars secondYear]),
    dateChars_lt_dateChars_iff firstYear secondYear, dateChars_inj firstYear secondYear,
    cons_lt_cons_same_iff, append_lt_append_iff (by rw [length_clockChars, length_clockChars]),
    clockChars_lt_clockChars_iff_of_proper first second, clockChars_inj first second, fractions,
    lt_iff, cut, cut, scaled (Nat.pow_pos (by decide)), parts, a.seconds_eq, b.seconds_eq]
  have := a.secondOfDay_lt
  have := b.secondOfDay_lt
  omega

/-- Written forms with equally many digits come in the order of the times they are cut off at. -/
theorem stamp_lt_stamp_iff (few : places ≤ 9) (first : a.Plain) (second : b.Plain)
    (firstYear : a.HasFourDigitYear) (secondYear : b.HasFourDigitYear) :
    a.stamp places < b.stamp places ↔ a.cut places < b.cut places :=
  stamp_lt_stamp_iff_of_proper few first.proper second.proper firstYear secondYear

/-- No written time of the years 0 to 9999 comes before one of an earlier year than these. -/
theorem not_stamp_lt_of_year_neg (firstYear : a.HasFourDigitYear) (early : b.date.year < 0) :
    ¬ a.stamp places < b.stamp places := by
  obtain ⟨digit, rest, front⟩ : ∃ n rest, padded 4 a.date.year.toNat = digitChar n :: rest :=
    ⟨_, _, rfl⟩
  have notLess : ¬ digitChar digit < '-' := by
    have compared : digitChar digit < '-' ↔ (digitChar digit).toNat < '-'.toNat := Iff.rfl
    have mark : '-'.toNat = 45 := rfl
    rw [compared, toNat_digitChar, mark]
    omega
  have differs : digitChar digit ≠ '-' := by
    intro same
    have := congrArg Char.toNat same
    have mark : '-'.toNat = 45 := rfl
    rw [toNat_digitChar, mark] at this
    omega
  rw [stamp_lt_stamp_iff_chars, stampChars, stampChars, dateChars_eq firstYear, front, dateChars,
    yearChars, if_neg (by omega), if_pos early, List.cons_append, List.cons_append,
    List.cons_append, List.cons_append, List.cons_lt_cons_iff]
  exact fun less => less.elim notLess fun both => differs both.1

/-- A written time begins with a digit or a sign. -/
theorem exists_stampChars_eq_cons (places : Nat) (t : Instant) :
    ∃ c rest, stampChars places t = c :: rest ∧ c ≤ '9' := by
  have decimal : ∀ n : Nat, ∃ m rest, padded 4 n = digitChar m :: rest := fun n => ⟨_, _, rfl⟩
  rw [stampChars, dateChars, yearChars]
  split
  · obtain ⟨m, rest, front⟩ := decimal t.date.year.toNat
    rw [front]
    refine ⟨digitChar m, _, rfl, ?_⟩
    have compared : digitChar m ≤ '9' ↔ (digitChar m).toNat ≤ 57 := Iff.rfl
    rw [compared, toNat_digitChar]
    omega
  · refine ⟨_, _, rfl, ?_⟩
    split <;> decide

/-- A text that begins with a character after the digits comes before no written time. -/
theorem not_lt_stamp {s : String} {c : Char} {rest : List Char} (begins : s.toList = c :: rest)
    (late : '9' < c) : ¬ s < t.stamp places := by
  obtain ⟨d, rest', written, early⟩ := exists_stampChars_eq_cons places t
  have unfolded : s < t.stamp places ↔ s.toList < (t.stamp places).toList := Iff.rfl
  rw [unfolded, stamp, String.toList_ofList, begins, written, List.cons_lt_cons_iff]
  rintro (less | ⟨same, _⟩)
  · exact absurd (Nat.lt_of_lt_of_le late (Nat.le_trans (Nat.le_of_lt less) early))
      (Nat.lt_irrefl _)
  · subst same
    exact absurd (Nat.lt_of_lt_of_le late early) (Nat.lt_irrefl _)

/-- The texts of leases come in the order of the seconds they name, if the first is a time of the
years 0 to 9999 and the second is no later. -/
theorem leaseText_lt_leaseText_iff (first : a.Plain) (firstYear : a.HasFourDigitYear)
    (second : b.nanos < 2 * nanosPerSecond) (secondYear : b.date.year ≤ 9999) :
    a.leaseText < b.leaseText ↔ a.toSecond < b.cut 0 := by
  have inDay := a.secondOfDay_lt
  have split := a.seconds_eq
  have split' := b.seconds_eq
  have inDay' := b.secondOfDay_lt
  have few : b.nanos / nanosPerSecond ≤ 1 := by
    unfold nanosPerSecond at second ⊢
    omega
  have whole : a.toSecond < b.cut 0 ↔ a.seconds < b.seconds + (b.nanos / nanosPerSecond : Nat) := by
    have scale : nanosPerSecond = 10 ^ (9 - 0) := rfl
    rw [lt_iff, toSecond, cut, ← scale]
    rcases Nat.le_one_iff_eq_zero_or_eq_one.mp few with none | one
    · simp [none]
    · have positive : 0 < nanosPerSecond := by decide
      simp only [one, Nat.one_mul, positive, and_true]
      omega
  rw [whole, leaseText, leaseText]
  by_cases early : b.date.year < 0
  · have days : b.day < a.day :=
      before_date_iff.mp (Or.inl (Int.lt_of_lt_of_le early firstYear.1))
    generalize b.nanos / nanosPerSecond = leap at few ⊢
    exact iff_of_false (not_stamp_lt_of_year_neg firstYear early) (by omega)
  · have year : b.HasFourDigitYear := ⟨Int.not_lt.mp early, secondYear⟩
    have bare : ∀ t : Instant, fractionChars 0 t = [] := fun _ => rfl
    rw [stamp_lt_stamp_iff_chars, stampChars, stampChars, bare, bare,
      append_lt_append_iff (by rw [length_dateChars firstYear, length_dateChars year]),
      dateChars_lt_dateChars_iff firstYear year, dateChars_inj firstYear year,
      cons_lt_cons_same_iff, append_lt_append_iff (by rw [length_clockChars, length_clockChars]),
      clockChars_lt_clockChars_iff first second, List.nil_append]
    have irrefl : ¬ ['Z'] < ['Z'] := List.lt_irrefl _
    simp only [irrefl, and_false, or_false]
    generalize b.nanos / nanosPerSecond = leap at few ⊢
    omega

end Order

end Instant

namespace Time

open Decimal Instant

variable {t : Instant} {places : Nat}

/-! ### Reading back -/

/-- A fraction is read back as nanoseconds. -/
theorem fraction?_fractionChars (few : places ≤ 9) (t : Instant) :
    fraction? (fractionChars places t ++ ['Z']) =
      .ok (t.nanos % nanosPerSecond / 10 ^ (9 - places) * 10 ^ (9 - places), ['Z']) := by
  have digits := t.fraction_lt few
  have stop : ∀ c, ['Z'].head? = some c → digitValue? c = none := by
    intro c head
    cases head
    rfl
  by_cases bare : places = 0
  · subst bare
    rw [Nat.lt_one_iff.mp digits, Nat.zero_mul]
    rfl
  · have taken := takeDigits_padded places (9 - places) 0 0
      (t.nanos % nanosPerSecond / 10 ^ (9 - places)) ['Z']
    rw [Nat.add_sub_cancel' few, takeDigits_stop stop, Nat.zero_mul, Nat.zero_add, Nat.zero_add,
      Nat.mod_eq_of_lt digits] at taken
    have some : (padded places (t.nanos % nanosPerSecond / 10 ^ (9 - places)) ++ ['Z']).isEmpty =
        false := by simp
    rw [fractionChars, if_neg bare, List.cons_append, fraction?, fraction, Nat.pow_eq, some, taken]
    simp only [Bool.false_eq_true, if_false, if_neg bare]
    rfl

/-- The fields of a written time with a number of fraction digits. -/
def writtenFields (places : Nat) (t : Instant) : Fields where
  year := t.date.year
  month := t.date.month
  day := t.date.day
  hour := t.secondOfDay / 3600
  minute := t.secondOfDay / 60 % 60
  second := t.writtenSecond
  nanos := t.nanos % nanosPerSecond / 10 ^ (9 - places) * 10 ^ (9 - places)
  offset := 0

/-- Fields that keep within what readers of times allow. -/
structure Fields.InBounds (f : Fields) : Prop where
  month : within 1 12 f.month = .ok f.month
  day : within 1 31 f.day = .ok f.day
  hour : within 0 23 f.hour = .ok f.hour
  minute : within 0 59 f.minute = .ok f.minute
  second : within 0 60 f.second = .ok f.second

theorem inBounds_writtenFields (short : t.nanos < 2 * nanosPerSecond) :
    (writtenFields places t).InBounds := by
  have inDay := t.secondOfDay_lt
  have inMinute : t.writtenSecond ≤ 60 := by
    unfold writtenSecond nanosPerSecond at *
    omega
  obtain ⟨month, months, day, days⟩ := t.valid_date
  have inMonth : t.date.day ≤ 31 := by
    unfold Date.daysInMonth at days
    grind
  have hours : t.secondOfDay / 3600 ≤ 23 := by omega
  have minutes : t.secondOfDay / 60 % 60 ≤ 59 := by omega
  have bounded : ∀ {least most n : Nat}, least ≤ n → n ≤ most → within least most n = .ok n :=
    fun low high => if_pos ⟨low, high⟩
  exact ⟨bounded month months, bounded day inMonth, bounded (Nat.zero_le _) hours,
    bounded (Nat.zero_le _) minutes, bounded (Nat.zero_le _) inMinute⟩

/-- The fields of hours, minutes and seconds have two digits. -/
theorem clock_lt (short : t.nanos < 2 * nanosPerSecond) : t.secondOfDay / 3600 < 10 ^ 2 ∧
    t.secondOfDay / 60 % 60 < 10 ^ 2 ∧ t.writtenSecond < 10 ^ 2 := by
  have inDay := t.secondOfDay_lt
  unfold writtenSecond nanosPerSecond at *
  omega

/-- The fields of a written time are read in the strict form. -/
theorem strictFields_stampChars (few : places ≤ 9) (short : t.nanos < 2 * nanosPerSecond)
    (year : t.HasFourDigitYear) :
    strictFields (stampChars places t) = .ok (writtenFields places t, []) := by
  have bounds : (writtenFields places t).InBounds := inBounds_writtenFields short
  obtain ⟨month, day, hour, minute, second⟩ := bounds
  obtain ⟨hours, minutes, seconds⟩ := clock_lt short
  simp only [writtenFields] at month day hour minute second
  have yearIs : ((t.date.year.toNat : Nat) : Int) = t.date.year := Int.toNat_of_nonneg year.1
  rw [stampChars, dateChars_eq year, clockChars]
  simp only [List.append_assoc, List.cons_append, List.append_nil]
  simp only [strictFields, bind, Except.bind, number_padded (year_lt year) (by decide : 4 ≤ 18),
    number_padded t.month_lt (by decide : 2 ≤ 18), number_padded t.day_lt (by decide : 2 ≤ 18),
    number_padded hours (by decide : 2 ≤ 18), number_padded minutes (by decide : 2 ≤ 18),
    number_padded seconds (by decide : 2 ≤ 18), exactly, if_true, dateTimeMark, month, day, hour,
    minute, second, fraction?_fractionChars few t, offset, yearIs]
  rfl

/-- What a second that is read stands for: the last second of its minute carried on, if it is the
sixtieth. -/
theorem second_of_writtenFields (few : places ≤ 9) (proper : t.Proper) :
    (if (writtenFields places t).second = 60 then
        (59, nanosPerSecond + (writtenFields places t).nanos)
      else ((writtenFields places t).second, (writtenFields places t).nanos)) =
      (t.secondOfDay % 60, (t.cut places).nanos) := by
  have scale : 10 ^ places * 10 ^ (9 - places) = nanosPerSecond := by
    rw [← Nat.pow_add, Nat.add_sub_cancel' few]
    rfl
  have second : (writtenFields places t).second =
      t.secondOfDay % 60 + t.nanos / nanosPerSecond := rfl
  have nanos : (writtenFields places t).nanos =
      t.nanos % nanosPerSecond / 10 ^ (9 - places) * 10 ^ (9 - places) := rfl
  rw [second, nanos, cut, nanos_div_eq few t]
  rcases proper.leap_cases with leap | ⟨leap, last⟩
  · rw [leap, if_neg (by omega), Nat.zero_mul, Nat.zero_add, Nat.add_zero]
  · rw [leap, last, if_pos rfl, Nat.add_mul, Nat.one_mul, scale]

/-- The fields of a written time name that time, cut off after its digits. -/
theorem toInstant_writtenFields (few : places ≤ 9) (proper : t.Proper)
    (known : ∀ nanos, inCalendar? ⟨t.seconds, nanos⟩ = some ⟨t.seconds, nanos⟩) :
    (writtenFields places t).toInstant = .ok (t.cut places) := by
  have inDay := t.secondOfDay_lt
  have hour : (writtenFields places t).hour = t.secondOfDay / 3600 := rfl
  have minute : (writtenFields places t).minute = t.secondOfDay / 60 % 60 := rfl
  have clock : t.secondOfDay / 3600 * 3600 + t.secondOfDay / 60 % 60 * 60 + t.secondOfDay % 60 =
      t.secondOfDay := by omega
  have moment : t.day * (secondsPerDay : Int) + (t.secondOfDay : Int) = t.seconds := by
    rw [t.seconds_eq]
    rfl
  have date : (⟨(writtenFields places t).year, (writtenFields places t).month,
      (writtenFields places t).day⟩ : Date) = t.date := rfl
  have universal : (writtenFields places t).offset = 0 := rfl
  simp only [Fields.toInstant, date, t.valid_date, not_true_eq_false, if_false,
    second_of_writtenFields few proper, hour, minute, clock, toDay_date, moment, universal]
  simp [known, cut, secondsPerDay]

/-- A written time of the years 0 to 9999 is read back, cut off after its digits, a leap second at
the end of a minute included. -/
theorem readStrict_stamp (few : places ≤ 9) (proper : t.Proper) (year : t.HasFourDigitYear) :
    readStrict (t.stamp places) = .ok (t.cut places) := by
  rw [readStrict, stamp, String.toList_ofList]
  simp only [bind, Except.bind, strictFields_stampChars few proper.nanos year, List.isEmpty_nil,
    if_true, toInstant_writtenFields few proper year.inCalendar]

theorem strict?_stamp_of_proper (few : places ≤ 9) (proper : t.Proper)
    (year : t.HasFourDigitYear) : strict? (t.stamp places) = some (t.cut places) := by
  rw [strict?, readStrict_stamp few proper year]
  rfl

/-- A written time of the years 0 to 9999 is read back, cut off after its digits. -/
theorem strict?_stamp (few : places ≤ 9) (plain : t.Plain) (year : t.HasFourDigitYear) :
    strict? (t.stamp places) = some (t.cut places) :=
  strict?_stamp_of_proper few plain.proper year

end Time

namespace Instant

variable {a b : Instant}

/-! ### Texts that the database compares -/

/-- Stored times and leases come, as texts, in the order of the microseconds and of the seconds that
they show, and a stored time is read back as its microsecond, from any column of a database. -/
theorem texts_in_order (first : a.Plain) (second : b.Plain) (firstYear : a.HasFourDigitYear)
    (secondYear : b.HasFourDigitYear) :
    (a.storedText < b.storedText ↔ a.toMicro < b.toMicro) ∧
      (a.leaseText < b.leaseText ↔ a.toSecond < b.toSecond) ∧
      Time.strict? a.storedText = some a.toMicro ∧
      ∀ id column, Database.storedTime id column a.storedText = .ok a.toMicro := by
  refine ⟨?micros, ?seconds, ?readBack, ?stored⟩
  case micros =>
    rw [storedText, storedText, stamp_lt_stamp_iff (by decide) first second firstYear secondYear,
      cut_six, cut_six]
  case seconds =>
    rw [leaseText, leaseText, stamp_lt_stamp_iff (by decide) first second firstYear secondYear,
      cut_zero first, cut_zero second]
  case readBack =>
    rw [storedText, Time.strict?_stamp (by decide) first firstYear, cut_six]
  case stored =>
    intro id column
    rw [Database.storedTime, storedText,
      Time.readStrict_stamp (by decide) first.proper firstYear, cut_six]

/-- The last nanosecond of a leap day and the start of the next month. -/
theorem texts_in_order_leapDay :
    let a : Instant := ⟨1709251199, 999999999⟩
    let b : Instant := ⟨1709251200, 0⟩
    (a.Plain ∧ b.Plain ∧ a.HasFourDigitYear ∧ b.HasFourDigitYear ∧ a.toMicro < b.toMicro) ∧
      (a.storedText < b.storedText ↔ a.toMicro < b.toMicro) ∧
      (a.leaseText < b.leaseText ↔ a.toSecond < b.toSecond) ∧
      Time.strict? a.storedText = some a.toMicro ∧
      ∀ id column, Database.storedTime id column a.storedText = .ok a.toMicro :=
  ⟨by decide, texts_in_order (by decide) (by decide) (by decide) (by decide)⟩

end Instant

end JobQueue
