/-
Reading back texts in quotes.

Every character is read back from what is written for it, whatever follows
(`textChars?_escapeChar`), so a text in quotes is read back up to its closing quote (`text?_quote`).
-/

import JobQueue.Json.Reader
import Mathlib.Tactic.IntervalCases

namespace JobQueue.Json

variable {c : Char} {fuel n : Nat} {rest : List Char}

/-! ### Escapes -/

theorem hexValue?_hexChar (small : n < 16) : hexValue? (hexChar n) = some n := by
  interval_cases n <;> rfl

theorem unicode?_control (control : c.toNat < 32) :
    unicode? ('0' :: '0' :: hexChar (c.toNat / 16) :: hexChar (c.toNat % 16) :: rest) =
      some (c, rest) := by
  have high := hexValue?_hexChar (n := c.toNat / 16) (by omega)
  have low := hexValue?_hexChar (n := c.toNat % 16) (by omega)
  have value : c.toNat / 16 * 16 + c.toNat % 16 = c.toNat := by omega
  have zero : hexValue? '0' = some 0 := rfl
  simp only [unicode?, hex4?, zero, high, low, Option.bind_eq_bind, Option.bind_some, Nat.zero_mul,
    Nat.zero_add, value]
  rw [if_neg (by omega), if_neg (by omega), Char.ofNat_toNat]

/-- A character is read back from what is written for it. -/
theorem textChars?_escapeChar (c : Char) (fuel : Nat) (rest : List Char) :
    textChars? (fuel + 1) (escapeChar c ++ rest) =
      (textChars? fuel rest).map fun read => (c :: read.1, read.2) := by
  have short (d : Char) (more : List Char) (read : escape? (d :: more) = some (c, rest)) :
      textChars? (fuel + 1) ('\\' :: d :: more) =
        (textChars? fuel rest).map fun read => (c :: read.1, read.2) := by
    rw [textChars?, if_neg (by decide), if_pos rfl, read, Option.bind_eq_bind, Option.bind_some]
    dsimp only
    cases textChars? fuel rest <;> rfl
  have named (code : Nat) (same : c.toNat = code) : Char.ofNat code = c := by
    rw [← same, Char.ofNat_toNat]
  unfold escapeChar
  split
  next same => exact short '"' rest (by rw [same]; rfl)
  split
  next same => exact short '\\' rest (by rw [same]; rfl)
  split
  next same => exact short 'n' rest (by rw [same]; rfl)
  split
  next same => exact short 'r' rest (by rw [same]; rfl)
  split
  next same => exact short 't' rest (by rw [same]; rfl)
  split
  next same => exact short 'b' rest (by rw [escape?, named 8 same])
  split
  next same => exact short 'f' rest (by rw [escape?, named 12 same])
  split
  next control => exact short 'u' _ (unicode?_control control)
  next quote slash _ _ _ _ _ plain =>
    rw [List.singleton_append, textChars?, if_neg quote, if_neg slash, if_neg plain]
    cases textChars? fuel rest <;> rfl

/-! ### Texts -/

theorem textChars?_quote (cs : List Char) (enough : cs.length < fuel) :
    textChars? fuel (cs.flatMap escapeChar ++ '"' :: rest) = some (cs, rest) := by
  induction cs generalizing fuel with
  | nil =>
      obtain ⟨fuel, rfl⟩ := Nat.exists_eq_succ_of_ne_zero (Nat.ne_zero_of_lt enough)
      rfl
  | cons c cs ih =>
      obtain ⟨fuel, rfl⟩ := Nat.exists_eq_succ_of_ne_zero (Nat.ne_zero_of_lt enough)
      rw [List.flatMap_cons, List.append_assoc, textChars?_escapeChar, ih (by simpa using enough),
        Option.map_some]

theorem length_le_flatMap_escapeChar (cs : List Char) :
    cs.length ≤ (cs.flatMap escapeChar).length := by
  have written (c : Char) : 1 ≤ (escapeChar c).length := by
    unfold escapeChar
    repeat' split
    all_goals simp
  induction cs with
  | nil => exact Nat.le_refl 0
  | cons c cs ih =>
      rw [List.flatMap_cons, List.length_append, List.length_cons]
      have := written c
      omega

/-- A text is read back from between its quotes. -/
theorem text?_quote (s : String) (rest : List Char) :
    text? (s.toList.flatMap escapeChar ++ '"' :: rest) = some (s, rest) := by
  have enough := length_le_flatMap_escapeChar s.toList
  rw [text?, textChars?_quote _ (by rw [List.length_append]; omega), Option.map_some]
  dsimp only
  rw [String.ofList_toList]

end JobQueue.Json
