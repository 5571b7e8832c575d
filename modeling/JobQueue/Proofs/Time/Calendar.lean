/-
Days and their dates.

Every day has a date that the calendar has, and counting the days up to that date gives the day
back (`valid_ofDay`, `toDay_ofDay`). Dates that come one before the other by year, month and day
have days in the same order (`toDay_lt_toDay`), so days come in the order of their dates
(`ofDay_before_iff`).
-/

import JobQueue.Time.Calendar
import Mathlib.Algebra.Order.SuccPred
import Mathlib.Data.Int.ConditionallyCompleteOrder
import Mathlib.Tactic.IntervalCases

namespace JobQueue.Date

variable {d e : Date} {m n : Int}

/-- Whether a date comes before another by year, month and day. -/
def Before (d e : Date) : Prop :=
  d.year < e.year ∨ d.year = e.year ∧
    (d.month < e.month ∨ d.month = e.month ∧ d.day < e.day)

/-! ### Years that begin in March -/

/-- The days from the first of March of the year zero to the first of March of a year. -/
def daysBeforeMarch (year : Int) : Int := 365 * year + year / 4 - year / 100 + year / 400

theorem cycle_add_daysBeforeYear (year : Int) :
    year / 400 * 146097 + (daysBeforeYear (year % 400).toNat : Int) = daysBeforeMarch year := by
  unfold daysBeforeYear daysBeforeMarch
  omega

/-- The days of a year that begins in March are 366 if the February at its end has 29 days. -/
theorem daysBeforeMarch_succ (year : Int) :
    daysBeforeMarch year = daysBeforeMarch (year - 1) + 365 + if isLeapYear year then 1 else 0 := by
  unfold daysBeforeMarch isLeapYear
  by_cases leap : year % 4 = 0 ∧ (year % 100 ≠ 0 ∨ year % 400 = 0)
  · rw [if_pos (by simpa using leap)]
    omega
  · rw [if_neg (by simpa using leap)]
    omega

theorem toDay_of_le_two (early : d.month ≤ 2) (started : 1 ≤ d.day) : d.toDay =
    daysBeforeMarch (d.year - 1) + daysBeforeMonth (d.month + 9) + d.day - 719469 := by
  rw [← cycle_add_daysBeforeYear]
  simp only [toDay, if_pos early]
  omega

theorem toDay_of_two_lt (late : 2 < d.month) (started : 1 ≤ d.day) : d.toDay =
    daysBeforeMarch d.year + daysBeforeMonth (d.month - 3) + d.day - 719469 := by
  rw [← cycle_add_daysBeforeYear]
  simp only [toDay, if_neg (Nat.not_le.mpr late)]
  omega

/-! ### Dates in their order -/

/-- The day that a month begins with; months are counted from the start of the year zero. -/
def monthStart (k : Int) : Int := toDay ⟨k / 12, (k % 12).toNat + 1, 1⟩

/-- A month begins when the one before it is over. -/
theorem monthStart_succ (k : Int) :
    monthStart (k + 1) = monthStart k + daysInMonth (k / 12) ((k % 12).toNat + 1) := by
  obtain ⟨year, month, inYear, rfl⟩ : ∃ (year : Int) (month : Nat), month < 12 ∧
      k = 12 * year + month := ⟨k / 12, (k % 12).toNat, by omega, by omega⟩
  have thisYear : (12 * year + month) / 12 = year := by omega
  have thisMonth : ((12 * year + month) % 12).toNat = month := by omega
  have march := daysBeforeMarch_succ year
  rw [monthStart, monthStart, thisYear, thisMonth]
  by_cases december : month = 11
  · subst december
    have nextYear : (12 * year + (11 : Nat) + 1) / 12 = year + 1 := by omega
    have nextMonth : ((12 * year + (11 : Nat) + 1) % 12).toNat = 0 := by omega
    rw [nextYear, nextMonth, toDay_of_le_two (by simp) (by simp),
      toDay_of_two_lt (by simp) (by simp)]
    simp [daysBeforeMonth, daysInMonth]
    omega
  · have sameYear : (12 * year + month + 1) / 12 = year := by omega
    have nextMonth : ((12 * year + month + 1) % 12).toNat = month + 1 := by omega
    rw [sameYear, nextMonth]
    rcases (by omega : month = 0 ∨ month = 1 ∨ 2 ≤ month) with rfl | rfl | spring
    · rw [toDay_of_le_two (by simp) (by simp), toDay_of_le_two (by simp) (by simp)]
      simp [daysBeforeMonth, daysInMonth]
      omega
    · rw [toDay_of_two_lt (by simp) (by simp), toDay_of_le_two (by simp) (by simp), march]
      simp only [daysBeforeMonth, daysInMonth, if_true, Nat.reduceAdd]
      split <;> omega
    · rw [toDay_of_two_lt (by simp; omega) (by simp), toDay_of_two_lt (by simp; omega) (by simp)]
      simp only [daysBeforeMonth, daysInMonth]
      interval_cases month <;> simp <;> omega

theorem monthStart_strictMono : StrictMono monthStart := by
  apply strictMono_int_of_lt_succ
  intro k
  rw [monthStart_succ]
  unfold daysInMonth
  split
  · split <;> omega
  · split <;> omega

/-- The month of a date, counted from the start of the year zero. -/
def monthIndex (d : Date) : Int := 12 * d.year + d.month - 1

theorem toDay_eq_monthStart (valid : d.Valid) :
    d.toDay = monthStart d.monthIndex + (d.day - 1) := by
  obtain ⟨_, _, started, _⟩ := valid
  have year : d.monthIndex / 12 = d.year := by unfold monthIndex; omega
  have month : (d.monthIndex % 12).toNat + 1 = d.month := by unfold monthIndex; omega
  rw [monthStart, year, month]
  by_cases early : d.month ≤ 2
  · rw [toDay_of_le_two early started, toDay_of_le_two (d := ⟨d.year, d.month, 1⟩) early (by simp)]
    push_cast
    omega
  · have late := Nat.not_le.mp early
    rw [toDay_of_two_lt late started, toDay_of_two_lt (d := ⟨d.year, d.month, 1⟩) late (by simp)]
    push_cast
    omega

theorem toDay_lt_monthStart (valid : d.Valid) : d.toDay < monthStart (d.monthIndex + 1) := by
  have year : d.monthIndex / 12 = d.year := by
    obtain ⟨_, _, _⟩ := valid
    unfold monthIndex
    omega
  have month : (d.monthIndex % 12).toNat + 1 = d.month := by
    obtain ⟨_, _, _⟩ := valid
    unfold monthIndex
    omega
  rw [toDay_eq_monthStart valid, monthStart_succ, year, month]
  have inMonth := valid.2.2.2
  omega

/-- Of two dates the earlier one has the lesser day. -/
theorem toDay_lt_toDay (first : d.Valid) (second : e.Valid) (before : d.Before e) :
    d.toDay < e.toDay := by
  have ordered : d.monthIndex < e.monthIndex ∨ d.monthIndex = e.monthIndex ∧ d.day < e.day := by
    obtain ⟨_, _, _⟩ := first
    obtain ⟨_, _, _⟩ := second
    unfold Before at before
    unfold monthIndex
    omega
  rcases ordered with months | ⟨month, days⟩
  · calc d.toDay < monthStart (d.monthIndex + 1) := toDay_lt_monthStart first
      _ ≤ monthStart e.monthIndex := monthStart_strictMono.monotone months
      _ ≤ e.toDay := by
          rw [toDay_eq_monthStart second]
          have started := second.2.2.1
          omega
  · rw [toDay_eq_monthStart first, toDay_eq_monthStart second, month]
    omega

/-! ### The date of a day -/

theorem daysBeforeYear_century {century four year : Nat} (fours : four ≤ 24) (years : year ≤ 3) :
    daysBeforeYear (100 * century + 4 * four + year) =
      36524 * century + 1461 * four + 365 * year := by
  unfold daysBeforeYear
  omega

/-- The year of a cycle in which one of its days lies. -/
theorem yearOfCycle_spec {day year : Nat} (inCycle : day < 146097)
    (found : year = (day - day / 1460 + day / 36524 - day / 146096) / 365) :
    year < 400 ∧ daysBeforeYear year ≤ day ∧ day ≤ daysBeforeYear year + 365 ∧
      (day = daysBeforeYear year + 365 →
        (year + 1) % 4 = 0 ∧ ((year + 1) % 100 ≠ 0 ∨ (year + 1) % 400 = 0)) := by
  -- The last day of a cycle is the leap day of its last century.
  by_cases last : day = 146096
  · subst last
    subst found
    decide
  · obtain ⟨century, four, rest, centuries, fours, rests, inCentury, rfl⟩ :
        ∃ century four rest, century ≤ 3 ∧ four ≤ 24 ∧ rest < 1461 ∧ 1461 * four + rest < 36524 ∧
          day = 36524 * century + 1461 * four + rest :=
      ⟨day / 36524, day % 36524 / 1461, day % 36524 % 1461, by omega, by omega, by omega,
        by omega, by omega⟩
    generalize same : 36524 * century + 1461 * four + rest = day at found inCycle last ⊢
    have centuriesOf : day / 36524 = century := by omega
    have cyclesOf : day / 146096 = 0 := by omega
    obtain ⟨extra, extraIs, foursOf⟩ : ∃ extra,
        (extra = 0 ∧ 24 * century + four + rest < 1460 ∨
          extra = 1 ∧ 1460 ≤ 24 * century + four + rest) ∧
        day / 1460 = 25 * century + four + extra := by
      by_cases few : 24 * century + four + rest < 1460
      · exact ⟨0, Or.inl ⟨rfl, few⟩, by omega⟩
      · exact ⟨1, Or.inr ⟨rfl, Nat.not_lt.mp few⟩, by omega⟩
    have yearIs : year = 100 * century + 4 * four + min 3 (rest / 365) := by
      rw [found, centuriesOf, cyclesOf, foursOf]
      omega
    clear found centuriesOf cyclesOf foursOf extraIs
    rw [yearIs, daysBeforeYear_century fours (Nat.min_le_left 3 _)]
    omega

/-- The date of a day, in cycles of 400 years. -/
theorem ofDay_spec (n : Int) : ∃ (cycle : Int) (year dayOfYear : Nat),
    year < 400 ∧ dayOfYear ≤ 365 ∧
    (dayOfYear = 365 → (year + 1) % 4 = 0 ∧ ((year + 1) % 100 ≠ 0 ∨ (year + 1) % 400 = 0)) ∧
    n = cycle * 146097 + daysBeforeYear year + dayOfYear - 719468 ∧
    ofDay n =
      let month := if (5 * dayOfYear + 2) / 153 < 10 then (5 * dayOfYear + 2) / 153 + 3
        else (5 * dayOfYear + 2) / 153 - 9
      ⟨if month ≤ 2 then year + cycle * 400 + 1 else year + cycle * 400, month,
        dayOfYear - daysBeforeMonth ((5 * dayOfYear + 2) / 153) + 1⟩ := by
  have inCycle : ((n + 719468) % 146097).toNat < 146097 := by omega
  obtain ⟨years, started, inYear, leap⟩ := yearOfCycle_spec inCycle rfl
  refine ⟨(n + 719468) / 146097, _, _, years, Nat.sub_le_iff_le_add'.mpr inYear,
    fun lastDay => leap ?_, ?_, rfl⟩
  · omega
  · omega

theorem valid_ofDay (n : Int) : (ofDay n).Valid := by
  obtain ⟨cycle, year, day, years, days, leap, _, date⟩ := ofDay_spec n
  rw [date]
  generalize months : (5 * day + 2) / 153 = month
  have inYear : month ≤ 11 := by omega
  have february : day ≤ if isLeapYear (year + cycle * 400 + 1) then 365 else 364 := by
    split
    next => exact days
    next common =>
      have notLast : day ≠ 365 := fun last => common (by
        have := leap last
        simp only [isLeapYear, Bool.and_eq_true, Bool.or_eq_true, beq_iff_eq, bne_iff_ne]
        omega)
      omega
  dsimp only
  unfold Valid daysInMonth daysBeforeMonth
  interval_cases month <;> simp
  case «11» => grind
  all_goals omega

theorem toDay_ofDay (n : Int) : (ofDay n).toDay = n := by
  obtain ⟨cycle, year, day, years, days, leap, counted, date⟩ := ofDay_spec n
  rw [date, counted]
  generalize months : (5 * day + 2) / 153 = month
  have inYear : month ≤ 11 := by omega
  have begun : daysBeforeMonth month ≤ day := by
    unfold daysBeforeMonth
    omega
  have cycles : (year + cycle * 400) / 400 = cycle := by omega
  have yearOf : ((year + cycle * 400) % 400).toNat = year := by omega
  by_cases late : month < 10
  · simp only [toDay, if_pos late, if_neg (by omega : ¬ month + 3 ≤ 2), cycles, yearOf,
      Nat.add_sub_cancel]
    omega
  · simp only [toDay, if_neg late, if_pos (by omega : month - 9 ≤ 2), Int.add_sub_cancel, cycles,
      yearOf, Nat.sub_add_cancel (by omega : 9 ≤ month)]
    omega

/-- Days come in the order of their dates. -/
theorem ofDay_before_iff : (ofDay m).Before (ofDay n) ↔ m < n := by
  constructor
  · intro before
    simpa [toDay_ofDay] using toDay_lt_toDay (valid_ofDay m) (valid_ofDay n) before
  · intro less
    by_contra notBefore
    have later : ofDay m = ofDay n ∨ (ofDay n).Before (ofDay m) := by
      unfold Before at notBefore ⊢
      rw [Date.mk.injEq]
      omega
    rcases later with same | after
    · have := congrArg toDay same
      simp only [toDay_ofDay] at this
      omega
    · have := toDay_lt_toDay (valid_ofDay n) (valid_ofDay m) after
      simp only [toDay_ofDay] at this
      omega

end JobQueue.Date
