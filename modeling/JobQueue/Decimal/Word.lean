/-
Words: whole numbers of a width in bits, and what comes of sums that are too large for it.
-/

namespace JobQueue.Word

/-- How many numbers there are of a width; those without a sign stay below this. -/
def count (bits : Nat) : Nat := Nat.pow 2 bits

/-- Whether a number with a sign is of a width. -/
def fits (bits : Nat) (n : Int) : Bool :=
  -(count (bits - 1) : Int) ≤ n && n < (count (bits - 1) : Int)

/-- What comes of a sum that is too large for its width: it wraps around, or it breaks off, where
sums are checked. -/
inductive Overflow where
  | wraps
  | breaksOff
deriving DecidableEq, Repr

/-- A word of 32 bits stands for a number. -/
instance coeNat : Coe UInt32 Nat := ⟨UInt32.toNat⟩

end JobQueue.Word
