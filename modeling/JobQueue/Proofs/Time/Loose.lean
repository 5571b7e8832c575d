/-
Times in structured values.

The form of a time in a structured value has as many digits as the time needs, and a sign and more
digits in its year where four do not write it. The loose reader gives the time back from it, to the
nanosecond and over the whole calendar (`readLoose_jsonText`).
-/

import JobQueue.Proofs.Json.Number
import JobQueue.Proofs.Time.Stamp
import JobQueue.Time.Loose

namespace JobQueue

namespace Instant

variable {t : Instant}

/-! ### The years of the calendar -/

theorem Valid.inCalendar (valid : t.Valid) (nanos : Nat) :
    inCalendar? ⟨t.seconds, nanos⟩ = some ⟨t.seconds, nanos⟩ :=
  if_pos ⟨valid.1, valid.2.1⟩

/-- An instant of the calendar lies in one of its years. -/
theorem Valid.year_bounds (valid : t.Valid) :
    -262143 ≤ t.date.year ∧ t.date.year ≤ 262142 := by
  obtain ⟨begun, ended, _⟩ := valid
  have dated := t.valid_date
  have split := t.seconds_eq
  have inDay := t.secondOfDay_lt
  have first : earliest.seconds = Date.toDay ⟨-262143, 1, 1⟩ * 86400 := rfl
  have last : latest.seconds = Date.toDay ⟨262142, 12, 31⟩ * 86400 + 86399 := rfl
  constructor
  · by_contra early
    have before := Date.toDay_lt_toDay dated (by decide : (⟨-262143, 1, 1⟩ : Date).Valid)
      (.inl (Int.not_le.mp early))
    rw [toDay_date] at before
    omega
  · by_contra late
    have after := Date.toDay_lt_toDay (by decide : (⟨262142, 12, 31⟩ : Date).Valid) dated
      (.inl (Int.not_le.mp late))
    rw [toDay_date] at after
    omega

theorem Valid.fits_year (valid : t.Valid) : Word.fits 32 t.date.year = true := by
  obtain ⟨lower, upper⟩ := valid.year_bounds
  have bound : (Word.count (32 - 1) : Int) = 2147483648 := rfl
  rw [Word.fits, bound, Bool.and_eq_true, decide_eq_true_eq, decide_eq_true_eq]
  omega

/-- The digits that an instant needs are all that it has. -/
theorem cut_placesNeeded (t : Instant) : t.cut t.placesNeeded = t := by
  have scale : nanosPerSecond = 1000000000 := rfl
  have kept : t.nanos / 10 ^ (9 - t.placesNeeded) * 10 ^ (9 - t.placesNeeded) = t.nanos := by
    unfold placesNeeded
    dsimp only
    rw [scale]
    split
    · omega
    · split
      · omega
      · split <;> omega
  rw [cut, kept]

theorem placesNeeded_le (t : Instant) : t.placesNeeded ≤ 9 := by
  unfold placesNeeded
  dsimp only
  split
  · decide
  · split
    · decide
    · split <;> decide

end Instant

namespace Time

open Decimal Instant

variable {t : Instant} {places n limit taken start : Nat} {year : Int} {c : Char}
  {ds cs rest : List Char}

/-! ### Numbers without a width -/

/-- A number of any width is read back. -/
theorem number_of_readDigits (reads : readDigits 0 ds = some n) (there : ds ≠ [])
    (fits : n < Word.count 63) (stop : ∀ c, rest.head? = some c → digitValue? c = none) :
    number 1 (anyWidth (ds ++ rest)) (ds ++ rest) = .ok (n, rest) := by
  have some : 1 ≤ ds.length := List.length_pos_of_ne_nil there
  have bytes : ¬ byteCount (ds ++ rest) < 1 := by
    have := length_le_byteCount (ds ++ rest)
    rw [List.length_append] at this
    omega
  rw [number, if_neg bytes, anyWidth, List.length_append, takeDigits_append reads,
    takeDigits_stop stop]
  simp only [Nat.zero_add, Nat.not_lt.mpr some, if_false, ge_iff_le, Nat.not_le.mpr fits]

/-! ### Pieces after no blank -/

theorem isBlank_digitChar (n : Nat) : Text.isBlank (digitChar n) = false := by
  have digit : n % 10 < 10 := Nat.mod_lt n (by decide)
  unfold digitChar
  interval_cases n % 10 <;> rfl

theorem trimStart_cons (ink : Text.isBlank c = false) : Text.trimStart (c :: cs) = c :: cs := by
  rw [Text.trimStart, List.dropWhile_cons_of_neg (by simp [ink])]

/-- A padded number begins with a digit. -/
theorem exists_padded_eq_cons (width n : Nat) :
    ∃ m front, padded (width + 1) n = digitChar m :: front := by
  induction width generalizing n with
  | zero => exact ⟨n, [], rfl⟩
  | succ width ih =>
      obtain ⟨m, front, begins⟩ := ih (n / 10)
      exact ⟨m, front ++ [digitChar n], by rw [padded, begins, List.cons_append]⟩

theorem trimStart_padded (width n : Nat) (rest : List Char) :
    Text.trimStart (padded (width + 1) n ++ rest) = padded (width + 1) n ++ rest := by
  obtain ⟨m, front, begins⟩ := exists_padded_eq_cons width n
  rw [begins, List.cons_append, trimStart_cons (isBlank_digitChar m)]

theorem looseMark_cons (ink : Text.isBlank c = false) :
    looseMark c (c :: rest) = .ok ((), rest) := by
  rw [looseMark, trimStart_cons ink, exactly, if_pos rfl]

theorem looseNumber_padded {least most : Nat} (short : n < 10 ^ 2)
    (inside : within least most n = .ok n) :
    looseNumber least most (padded 2 n ++ rest) = .ok (n, rest) := by
  rw [looseNumber, trimStart_padded, number_padded_of_le (by decide) short (by decide)]
  show Except.bind (within least most n) _ = _
  rw [inside]
  rfl

/-! ### Years -/

/-- The digits of a year that four digits do not write. -/
theorem exists_signedYear (wide : ¬ (0 ≤ year ∧ year ≤ 9999)) : ∃ ds, ds ≠ [] ∧
    readDigits 0 ds = some year.natAbs ∧ yearChars year = (if year < 0 then '-' else '+') :: ds := by
  rw [yearChars, if_neg wide]
  by_cases few : year.natAbs < 10000
  · have reads : readDigits 0 (padded 4 year.natAbs) = some year.natAbs := by
      rw [readDigits_padded, Nat.zero_mul, Nat.zero_add,
        Nat.mod_eq_of_lt (show year.natAbs < 10 ^ 4 from few)]
    have there : padded 4 year.natAbs ≠ [] :=
      List.ne_nil_of_length_pos (by rw [length_padded]; decide)
    exact ⟨_, there, reads, by simp only [few, if_true]⟩
  · exact ⟨_, digits_ne_nil _, readDigits_digits _, by simp only [few, if_false]⟩

theorem looseYear_yearChars (fits : Word.fits 32 year = true) :
    looseYear (yearChars year ++ '-' :: rest) = .ok (year, '-' :: rest) := by
  have stop : ∀ c, ('-' :: rest).head? = some c → digitValue? c = none := by
    intro c head
    cases head
    rfl
  have small : year.natAbs < Word.count 63 := by
    have bound : (Word.count (32 - 1) : Int) = 2147483648 := rfl
    have wider : Word.count 63 = 9223372036854775808 := rfl
    rw [Word.fits, bound, Bool.and_eq_true, decide_eq_true_eq, decide_eq_true_eq] at fits
    omega
  by_cases plain : 0 ≤ year ∧ year ≤ 9999
  · obtain ⟨m, front, begins⟩ := exists_padded_eq_cons 3 year.toNat
    have read : number 1 4 (padded 4 year.toNat ++ '-' :: rest) = .ok (year.toNat, '-' :: rest) :=
      number_padded_of_le (by decide) (by omega) (by decide)
    have whole : ((year.toNat : Nat) : Int) = year := Int.toNat_of_nonneg plain.1
    have unsigned : ∀ c, isDigit c = false → digitChar m ≠ c := by
      rintro _ other rfl
      rw [isDigit_digitChar] at other
      cases other
    rw [yearChars, if_pos plain, looseYear, trimStart_padded]
    simp only [begins, List.cons_append] at read ⊢
    split
    next same => exact absurd (List.cons.inj same).1 (unsigned '-' rfl)
    next same => exact absurd (List.cons.inj same).1 (unsigned '+' rfl)
    next => simp only [read, Except.map, bind, Except.bind, whole, fits, if_true]
  · obtain ⟨ds, there, reads, written⟩ := exists_signedYear plain
    have read := number_of_readDigits reads there small stop
    rw [written, looseYear]
    by_cases negative : year < 0
    · have whole : -(year.natAbs : Int) = year := by omega
      rw [if_pos negative, List.cons_append, trimStart_cons rfl]
      simp only [read, Except.map, bind, Except.bind, whole, fits, if_true]
    · have whole : (year.natAbs : Int) = year := by omega
      rw [if_neg negative, List.cons_append, trimStart_cons rfl]
      simp only [read, Except.map, bind, Except.bind, whole, fits, if_true]

/-! ### Reading back -/

/-- The fields of a written time are read in the loose form. -/
theorem looseFields_stampChars (few : places ≤ 9) (short : t.nanos < 2 * nanosPerSecond)
    (fits : Word.fits 32 t.date.year = true) :
    looseFields (stampChars places t) = .ok (writtenFields places t, []) := by
  have bounds : (writtenFields places t).InBounds := inBounds_writtenFields short
  obtain ⟨month, day, hour, minute, second⟩ := bounds
  obtain ⟨hours, minutes, seconds⟩ := clock_lt short
  simp only [writtenFields] at month day hour minute second
  have dash : Text.isBlank '-' = false := rfl
  have colon : Text.isBlank ':' = false := rfl
  have universal : looseOffset ['Z'] = .ok (0, []) := rfl
  rw [stampChars, dateChars, clockChars]
  simp only [List.append_assoc, List.cons_append]
  simp only [looseFields, bind, Except.bind, looseYear_yearChars fits, looseMark_cons dash,
    looseMark_cons colon, looseNumber_padded t.month_lt month, looseNumber_padded t.day_lt day,
    looseNumber_padded hours hour, looseNumber_padded minutes minute,
    looseNumber_padded seconds second, dateTimeMark, fraction?_fractionChars few t, universal]
  rfl

/-- Every time of the calendar is read back from its form in structured values, a leap second at
the end of a minute included. -/
theorem readLoose_jsonText (valid : t.Valid) (proper : t.Proper) :
    readLoose t.jsonText = .ok t := by
  have few := t.placesNeeded_le
  rw [readLoose, jsonText, stamp, String.toList_ofList]
  simp only [bind, Except.bind, looseFields_stampChars few proper.nanos valid.fits_year,
    Text.trimStart, List.dropWhile_nil, List.isEmpty_nil, if_true,
    toInstant_writtenFields few proper valid.inCalendar, cut_placesNeeded]

end Time

end JobQueue
