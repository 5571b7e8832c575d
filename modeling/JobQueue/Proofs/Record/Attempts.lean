/-
The number of failed attempts.

It is a word of 32 bits, so it stays below `JobRecord.attemptBound`, and a number below that is kept
when it is put into a word. A failed attempt adds one to it (`JobRecord.toNat_attempts_markFailed`),
unless the record is spent: then there is no greater number.
-/

import JobQueue.Record.Basic

namespace JobQueue.JobRecord

variable {r : JobRecord} {now : Instant} {n : Nat}

theorem attempts_lt (r : JobRecord) : r.attempts.toNat < attemptBound := r.attempts.toNat_lt

/-- A number of attempts that a record can have is kept. -/
theorem toNat_ofNat_of_lt (few : n < attemptBound) : (UInt32.ofNat n).toNat = n :=
  UInt32.toNat_ofNat_of_lt few

theorem isSpent_eq_false_iff : r.isSpent = false ↔ r.attempts.toNat + 1 < attemptBound := by
  rw [isSpent, beq_eq_false_iff_ne]
  have width := r.attempts_lt
  omega

/-- A failed attempt is counted, unless the number of attempts is the greatest there is. -/
theorem toNat_attempts_markFailed (unspent : r.isSpent = false) :
    (r.markFailed now).attempts.toNat = r.attempts.toNat + 1 := by
  have sum : (r.markFailed now).attempts.toNat = (r.attempts.toNat + 1) % attemptBound :=
    UInt32.toNat_add r.attempts 1
  rw [sum, Nat.mod_eq_of_lt (isSpent_eq_false_iff.mp unspent)]

end JobQueue.JobRecord
