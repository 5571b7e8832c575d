/-
Numbers of a fixed width.

A number that has no more digits than the width allows is read back from its padded form, whatever
follows (`takeDigits_padded`, `number_padded`). Padded forms of one width compare as their numbers
do (`padded_lt_padded_iff`), and texts that begin with pieces of one length are decided by the first
pieces that differ (`append_lt_append_iff`).
-/

import JobQueue.Time.Scan
import Mathlib.Tactic.IntervalCases

namespace JobQueue.Decimal

variable {m n width : Nat} {rest : List Char}

/-! ### Digits -/

theorem toNat_digitChar (n : Nat) : (digitChar n).toNat = 48 + n % 10 := by
  have digit : n % 10 < 10 := Nat.mod_lt n (by decide)
  unfold digitChar
  interval_cases n % 10 <;> rfl

theorem digitValue?_digitChar (n : Nat) : digitValue? (digitChar n) = some (n % 10) := by
  have digit : n % 10 < 10 := Nat.mod_lt n (by decide)
  unfold digitChar
  interval_cases n % 10 <;> rfl

theorem digitChar_lt_digitChar_iff : digitChar m < digitChar n ↔ m % 10 < n % 10 := by
  have compared : digitChar m < digitChar n ↔ (digitChar m).toNat < (digitChar n).toNat := Iff.rfl
  rw [compared, toNat_digitChar, toNat_digitChar]
  omega

theorem digitChar_inj : digitChar m = digitChar n ↔ m % 10 = n % 10 := by
  constructor
  · intro same
    have := congrArg Char.toNat same
    rw [toNat_digitChar, toNat_digitChar] at this
    omega
  · intro same
    rw [digitChar, same, digitChar]

/-! ### Comparing -/

/-- Texts that begin with pieces of one length are decided by these pieces, or by what follows. -/
theorem append_lt_append_iff {a b s t : List Char} (same : a.length = b.length) :
    a ++ s < b ++ t ↔ a < b ∨ a = b ∧ s < t := by
  induction a generalizing b with
  | nil =>
      cases b with
      | nil => simp
      | cons c b => simp at same
  | cons c a ih =>
      cases b with
      | nil => simp at same
      | cons d b =>
          have shorter : a.length = b.length := by simpa using same
          rw [List.cons_append, List.cons_append, List.cons_lt_cons_iff, List.cons_lt_cons_iff,
            ih shorter, List.cons.injEq]
          tauto

theorem cons_lt_cons_same_iff {c : Char} {s t : List Char} : c :: s < c :: t ↔ s < t := by
  rw [List.cons_lt_cons_iff]
  exact ⟨fun less => less.elim (fun self => absurd self (Char.lt_irrefl c)) And.right,
    fun less => Or.inr ⟨rfl, less⟩⟩

theorem padded_inj (first : m < 10 ^ width) (second : n < 10 ^ width) :
    padded width m = padded width n ↔ m = n := by
  refine ⟨fun same => ?_, fun same => same ▸ rfl⟩
  induction width generalizing m n with
  | zero => omega
  | succ width ih =>
      rw [Nat.pow_succ] at first second
      rw [padded, padded] at same
      obtain ⟨front, last⟩ := List.append_inj' same rfl
      have fronts := ih (Nat.div_lt_of_lt_mul (by omega)) (Nat.div_lt_of_lt_mul (by omega)) front
      rw [List.cons.injEq, digitChar_inj] at last
      omega

theorem padded_lt_padded_iff (first : m < 10 ^ width) (second : n < 10 ^ width) :
    padded width m < padded width n ↔ m < n := by
  induction width generalizing m n with
  | zero =>
      have : m = n := by omega
      subst this
      simp
  | succ width ih =>
      rw [Nat.pow_succ] at first second
      have firsts : m / 10 < 10 ^ width := Nat.div_lt_of_lt_mul (by omega)
      have seconds : n / 10 < 10 ^ width := Nat.div_lt_of_lt_mul (by omega)
      have one : [digitChar m] < [digitChar n] ↔ m % 10 < n % 10 := by
        rw [List.cons_lt_cons_iff, digitChar_lt_digitChar_iff]
        simp
      rw [padded, padded, append_lt_append_iff (by simp [length_padded]), ih firsts seconds,
        padded_inj firsts seconds, one]
      omega

/-- Padded numbers of one width, each with something after it. -/
theorem padded_append_lt_iff {s t : List Char} (first : m < 10 ^ width) (second : n < 10 ^ width) :
    padded width m ++ s < padded width n ++ t ↔ m < n ∨ m = n ∧ s < t := by
  rw [append_lt_append_iff (by simp [length_padded]), padded_lt_padded_iff first second,
    padded_inj first second]

/-! ### Reading digits -/

theorem readDigits_append (start : Nat) (first second : List Char) :
    readDigits start (first ++ second) =
      (readDigits start first).bind fun n => readDigits n second := by
  induction first generalizing start with
  | nil => rfl
  | cons c first ih =>
      rw [List.cons_append, readDigits, readDigits]
      cases digitValue? c with
      | none => rfl
      | some d => exact ih _

/-- The digits of a padded number are its last ones. -/
theorem readDigits_padded (start width n : Nat) :
    readDigits start (padded width n) = some (start * 10 ^ width + n % 10 ^ width) := by
  induction width generalizing n with
  | zero => simp [padded, readDigits, Nat.mod_one]
  | succ width ih =>
      have digits : (start * 10 ^ width + n / 10 % 10 ^ width) * 10 + n % 10 =
          start * 10 ^ (width + 1) + n % 10 ^ (width + 1) := by
        rw [Nat.pow_succ', Nat.mod_mul, Nat.add_mul, Nat.mul_assoc, Nat.mul_comm (10 ^ width) 10,
          Nat.add_assoc, Nat.mul_comm (n / 10 % 10 ^ width) 10, Nat.add_comm (10 * _) (n % 10)]
      rw [padded, readDigits_append, ih, Option.bind_some, readDigits, digitValue?_digitChar]
      simp only [readDigits, digits]

end JobQueue.Decimal

namespace JobQueue.Time

open Decimal

variable {n width value : Nat} {ds rest : List Char}

/-! ### Reading back -/

/-- Digits are taken one after another as long as more may be taken. -/
theorem takeDigits_append (reads : readDigits value ds = some n) (more taken : Nat)
    (rest : List Char) : takeDigits (ds.length + more) taken value (ds ++ rest) =
      takeDigits more (taken + ds.length) n rest := by
  induction ds generalizing taken value with
  | nil =>
      cases reads
      simp
  | cons c ds ih =>
      rw [readDigits] at reads
      cases digit : digitValue? c with
      | none =>
          rw [digit] at reads
          cases reads
      | some d =>
          rw [digit] at reads
          have later := ih reads (taken + 1)
          rw [List.length_cons, Nat.add_right_comm, List.cons_append, takeDigits, digit]
          simp only
          rw [later, Nat.add_assoc, Nat.add_comm 1]

/-- No digits are taken where none stand. -/
theorem takeDigits_stop (stop : ∀ c, rest.head? = some c → digitValue? c = none)
    (limit taken value : Nat) : takeDigits limit taken value rest = (taken, value, rest) := by
  cases limit with
  | zero => rfl
  | succ limit =>
      cases rest with
      | nil => rfl
      | cons c rest => rw [takeDigits, stop c rfl]

/-- Digits are taken from a padded number as long as more digits may be taken. -/
theorem takeDigits_padded (width more taken value n : Nat) (rest : List Char) :
    takeDigits (width + more) taken value (padded width n ++ rest) =
      takeDigits more (taken + width) (value * 10 ^ width + n % 10 ^ width) rest := by
  have taken := takeDigits_append (readDigits_padded value width n) more taken rest
  rwa [length_padded] at taken

theorem length_le_byteCount (cs : List Char) : cs.length ≤ byteCount cs := by
  induction cs with
  | nil => exact Nat.le_refl 0
  | cons c cs ih =>
      have positive := Char.utf8Size_pos c
      have split : byteCount (c :: cs) = c.utf8Size + byteCount cs := rfl
      rw [split, List.length_cons]
      omega

theorem width_le_byteCount : width ≤ byteCount (padded width n ++ rest) := by
  have := length_le_byteCount (padded width n ++ rest)
  rw [List.length_append, length_padded] at this
  omega

/-- A number of a fixed width is read back where it may be no longer, even if it may be shorter. -/
theorem number_padded_of_le {least : Nat} (fewer : least ≤ width) (fits : n < 10 ^ width)
    (short : width ≤ 18) : number least width (padded width n ++ rest) = .ok (n, rest) := by
  have taken := takeDigits_padded width 0 0 0 n rest
  rw [Nat.add_zero, takeDigits, Nat.zero_mul, Nat.zero_add, Nat.zero_add,
    Nat.mod_eq_of_lt fits] at taken
  have small : n < Word.count 63 := calc
    n < 10 ^ width := fits
    _ ≤ 10 ^ 18 := Nat.pow_le_pow_right (by decide) short
    _ ≤ Word.count 63 := by decide
  rw [number, if_neg (Nat.not_lt.mpr (Nat.le_trans fewer width_le_byteCount)), taken]
  simp only [Nat.not_lt.mpr fewer, if_false, ge_iff_le, Nat.not_le.mpr small]

/-- A number of a fixed width is read back. -/
theorem number_padded (fits : n < 10 ^ width) (short : width ≤ 18) :
    number width width (padded width n ++ rest) = .ok (n, rest) :=
  number_padded_of_le (Nat.le_refl width) fits short

end JobQueue.Time
