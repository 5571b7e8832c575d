/-
Reading back the numbers of structured values.

A written number is read up to where it ends, whatever follows, as long as what follows closes a
value (`Json.closes`). A whole number of 64 bits is read back as it was (`number?_intText`). A
floating-point number is read to its last character (`number?_write`).
-/

import JobQueue.Json.Reader
import JobQueue.Proofs.Decimal.Padded
import Mathlib.Data.List.Basic
import Mathlib.Data.List.TakeDrop

namespace JobQueue.Decimal

variable {n : Nat} {c : Char} {ds rest : List Char}

/-! ### Digits -/

/-- Whether a character is a decimal digit. -/
def isDigit (c : Char) : Bool := (digitValue? c).isSome

@[simp] theorem isDigit_digitChar (n : Nat) : isDigit (digitChar n) = true := by
  rw [isDigit, digitValue?_digitChar, Option.isSome_some]

theorem digits_ne_nil (n : Nat) : digits n ≠ [] := by
  rw [digits]
  split <;> simp

theorem isDigit_of_mem_digits (member : c ∈ digits n) : isDigit c = true := by
  induction n using Nat.strongRecOn with
  | ind n ih =>
      rw [digits] at member
      split at member
      · rw [List.mem_singleton.mp member, isDigit_digitChar]
      · rcases List.mem_append.mp member with front | last
        · exact ih (n / 10) (by omega) front
        · rw [List.mem_singleton.mp last, isDigit_digitChar]

theorem digits_head (positive : 0 < n) : (digits n).head? ≠ some '0' := by
  induction n using Nat.strongRecOn with
  | ind n ih =>
      rw [digits]
      split
      next small =>
        have zero : '0' = digitChar 0 := rfl
        rw [List.head?_cons, zero, Option.some_inj.ne, Ne, digitChar_inj]
        omega
      next =>
        rw [List.head?_append_of_ne_nil _ (digits_ne_nil _)]
        exact ih (n / 10) (by omega) (by omega)

theorem readDigits_digits (n : Nat) : readDigits 0 (digits n) = some n := by
  induction n using Nat.strongRecOn with
  | ind n ih =>
      rw [digits]
      split
      · rw [readDigits, digitValue?_digitChar]
        simp only [readDigits]
        congr 1
        omega
      · rw [readDigits_append, ih (n / 10) (by omega), Option.bind_some, readDigits,
          digitValue?_digitChar]
        simp only [readDigits]
        congr 1
        omega

theorem ofDigits?_eq (there : ds ≠ []) : ofDigits? ds = readDigits 0 ds := by
  cases ds with
  | nil => exact absurd rfl there
  | cons => rfl

theorem exists_ofDigits? (ds : List Char) (all : ∀ c ∈ ds, isDigit c = true) (there : ds ≠ []) :
    ∃ n, ofDigits? ds = some n := by
  rw [ofDigits?_eq there]
  generalize 0 = start
  clear there
  induction ds generalizing start with
  | nil => exact ⟨start, rfl⟩
  | cons c ds ih =>
      obtain ⟨d, value⟩ := Option.isSome_iff_exists.mp (all c List.mem_cons_self)
      rw [readDigits, value]
      exact ih (fun c member => all c (List.mem_cons_of_mem _ member)) _

theorem ofDigits?_digits (n : Nat) : ofDigits? (digits n) = some n := by
  rw [ofDigits?_eq (digits_ne_nil n), readDigits_digits]

/-- Digits are taken up to the first character that is none. -/
theorem spanDigits_append (all : ∀ c ∈ ds, isDigit c = true)
    (stop : ∀ c, rest.head? = some c → isDigit c = false) :
    spanDigits (ds ++ rest) = (ds, rest) := by
  rw [spanDigits, List.span_eq_takeWhile_dropWhile]
  have none : rest.takeWhile isDigit = [] := by
    cases rest with
    | nil => rfl
    | cons c rest => rw [List.takeWhile_cons_of_neg (by simp [stop c rfl])]
  have whole : rest.dropWhile isDigit = rest := by
    cases rest with
    | nil => rfl
    | cons c rest => rw [List.dropWhile_cons_of_neg (by simp [stop c rfl])]
  change ((ds ++ rest).takeWhile isDigit, (ds ++ rest).dropWhile isDigit) = _
  rw [List.takeWhile_append_of_pos all, List.dropWhile_append_of_pos all, none, whole,
    List.append_nil]

end JobQueue.Decimal

namespace JobQueue.Double

variable {x : Double} {e : Int} {k : Nat}

/-! ### The digits of a floating-point number -/

theorem lower_pos (nonzero : x.mantissa ≠ 0) : 0 < x.interval.1 := by
  have scale (n : Nat) : 0 < Nat.pow 2 n := Nat.pow_pos (by decide)
  unfold interval
  dsimp only
  refine Nat.mul_pos ?_ ?_
  · split <;> omega
  · split
    · exact scale _
    · exact Nat.one_pos

/-- Nothing but zero itself reads back from zero. -/
theorem readsBack_zero (nonzero : x.mantissa ≠ 0) {den : Nat} (positive : 0 < den) :
    x.readsBack 0 den = false := by
  have lower : 0 < x.interval.1 * den := Nat.mul_pos (lower_pos nonzero) positive
  unfold readsBack
  generalize x.interval = ends at lower ⊢
  obtain ⟨lo, _, hi, d⟩ := ends
  dsimp only at lower ⊢
  have above : ¬ lo * den ≤ 0 := Nat.not_le.mpr lower
  rw [Nat.zero_mul, decide_eq_false above, decide_eq_false (Nat.not_lt_zero _), Bool.false_and,
    Bool.false_and, ite_self]

theorem readsBack_of_onGrid? (found : x.onGrid? e = some k) :
    (if e ≥ 0 then x.readsBack (k * Nat.pow 10 e.toNat) 1
      else x.readsBack k (Nat.pow 10 (-e).toNat)) = true := by
  have pick (back : Nat → Bool) {first second : Nat} (found : (if back first = true then some first
      else if back second = true then some second else none) = some k) : back k = true := by
    split at found
    next back => exact Option.some.inj found ▸ back
    next =>
      split at found
      next back => exact Option.some.inj found ▸ back
      next => cases found
  unfold onGrid? at found
  split at found
  split at found
  exact pick (fun k => if e ≥ 0 then x.readsBack (k * Nat.pow 10 e.toNat) 1
    else x.readsBack k (Nat.pow 10 (-e).toNat)) found

theorem onGrid?_pos (nonzero : x.mantissa ≠ 0) (found : x.onGrid? e = some k) : 0 < k := by
  have back := readsBack_of_onGrid? found
  refine Nat.pos_of_ne_zero ?_
  rintro rfl
  split at back
  · rw [Nat.zero_mul, readsBack_zero nonzero Nat.one_pos] at back
    cases back
  · have power : 0 < Nat.pow 10 (-e).toNat := Nat.pow_pos (by decide)
    rw [readsBack_zero nonzero power] at back
    cases back

theorem searchGrid_pos (nonzero : x.mantissa ≠ 0) {top : Int} {done left : Nat}
    (found : searchGrid x top done left = some (k, e)) : 0 < k := by
  induction left generalizing done with
  | zero => cases found
  | succ left ih =>
      rw [searchGrid] at found
      split at found
      next here =>
        cases found
        exact onGrid?_pos nonzero here
      next => exact ih found

theorem dropZeros_pos {fuel : Nat} (positive : 0 < k) : 0 < (dropZeros fuel k e).1 := by
  induction fuel generalizing k e with
  | zero => exact positive
  | succ fuel ih =>
      rw [dropZeros]
      split
      next ends => exact ih (by omega)
      next => exact positive

/-- Only zero has no digits but zero. -/
theorem shortest_pos (nonzero : x.isZero = false) : 0 < x.shortest.1 := by
  have mantissa : x.mantissa ≠ 0 := by simpa [isZero] using nonzero
  rw [shortest, if_neg (by simp [nonzero])]
  dsimp only
  split
  next found => exact dropZeros_pos (searchGrid_pos mantissa found)
  next => exact Nat.pos_of_ne_zero mantissa

end JobQueue.Double

namespace JobQueue.Json

open Decimal

variable {negative : Bool} {whole part tail rest : List Char} {c : Char}

/-! ### The parts of a number -/

/-- Whether a text closes the value before it: it is empty, or goes on with a comma, a closing
bracket or a blank. -/
def closes : List Char → Bool
  | [] => true
  | c :: _ => c == ',' || c == ']' || c == '}' || isSpace c

/-- What closes a value goes on with no character that a number could go on with. -/
theorem closes_head (closed : closes rest = true) (here : rest.head? = some c) :
    isDigit c = false ∧ c ≠ '.' ∧ c ≠ 'e' ∧ c ≠ 'E' := by
  cases rest with
  | nil => cases here
  | cons d rest =>
      cases here
      simp only [closes, isSpace, Bool.or_eq_true, beq_iff_eq] at closed
      rcases closed with ((rfl | rfl) | rfl) | ((rfl | rfl) | rfl) | rfl <;> decide

/-- The whole part of a number: a zero alone, or digits that do not begin with one. -/
structure IsWhole (whole : List Char) : Prop where
  digits : ∀ c ∈ whole, isDigit c = true
  there : whole ≠ []
  leading : whole = ['0'] ∨ whole.head? ≠ some '0'

theorem isWhole_zero : IsWhole ['0'] where
  digits := by
    intro c member
    cases List.mem_singleton.mp member
    rfl
  there := List.cons_ne_nil _ _
  leading := .inl rfl

theorem isWhole_digits (n : Nat) : IsWhole (digits n) where
  digits := fun _ => isDigit_of_mem_digits
  there := digits_ne_nil n
  leading := by
    rcases Nat.eq_zero_or_pos n with rfl | positive
    · exact .inl (by rw [Decimal.digits]; rfl)
    · exact .inr (digits_head positive)

theorem IsWhole.head_append (isWhole : IsWhole whole) (rest : List Char) :
    (whole ++ rest).head?.any isDigit = true := by
  obtain ⟨c, ds, rfl⟩ := List.exists_cons_of_ne_nil isWhole.there
  exact isWhole.digits c List.mem_cons_self

theorem wholePart?_append (isWhole : IsWhole whole)
    (stop : ∀ c, tail.head? = some c → isDigit c = false) :
    wholePart? (whole ++ tail) = some (whole, tail) := by
  obtain ⟨all, there, rfl | leading⟩ := isWhole
  · rfl
  · rw [wholePart?, spanDigits_append all stop]
    · simp [there]
    · intro rest same
      have front : (whole ++ tail).head? = whole.head? := List.head?_append_of_ne_nil whole there
      rw [← front, same] at leading
      exact leading rfl

theorem fraction?_append (all : ∀ c ∈ part, isDigit c = true) (there : part ≠ [])
    (stop : ∀ c, tail.head? = some c → isDigit c = false) :
    fraction? ('.' :: (part ++ tail)) = some (part, tail) := by
  simp [fraction?, spanDigits_append all stop, there]

theorem fraction?_none (stop : ∀ c, tail.head? = some c → c ≠ '.') :
    fraction? tail = some ([], tail) := by
  rw [fraction?]
  rintro rest rfl
  exact stop '.' rfl rfl

/-- A number with its sign. -/
def signed (negative : Bool) (cs : List Char) : List Char := if negative then '-' :: cs else cs

section

variable {cs body more : List Char} {mantissa : Nat} {e : Int}

/-- Whether a text begins as a number does. -/
def startsNumber (cs : List Char) : Bool := cs.head?.any fun c => c == '-' || isDigit c

theorem startsNumber_signed (there : body.head?.any isDigit = true) :
    startsNumber (signed negative body) = true := by
  cases negative with
  | true => rfl
  | false =>
      cases body with
      | nil => cases there
      | cons c body => exact Bool.or_eq_true_iff.mpr (.inr there)

theorem number?_signed (there : body.head?.any isDigit = true) :
    number? (signed negative body) = unsigned? negative body := by
  cases negative with
  | true => rfl
  | false =>
      rw [signed, if_neg (by decide), number?]
      rintro rest rfl
      cases there

/-- A number without an exponent, by its whole part and the digits after its point. -/
theorem unsigned?_plain (first : wholePart? cs = some (whole, tail))
    (second : fraction? tail = some (part, rest)) (read : ofDigits? (whole ++ part) = some mantissa)
    (plain : ∀ c, rest.head? = some c → c ≠ 'e' ∧ c ≠ 'E') :
    unsigned? negative cs = (if part.isEmpty then wholeNumber? negative mantissa
      else (Double.ofDecimal? negative mantissa (-part.length)).map .double).map (·, rest) := by
  rw [unsigned?, first, Option.bind_eq_bind, Option.bind_some]
  dsimp only
  rw [second, Option.bind_eq_bind, Option.bind_some]
  dsimp only
  rw [read, Option.bind_eq_bind, Option.bind_some]
  split
  · exact absurd rfl (plain _ rfl).1
  · exact absurd rfl (plain _ rfl).2
  · split
    · cases wholeNumber? negative mantissa <;> rfl
    · cases Double.ofDecimal? negative mantissa (-part.length) <;> rfl

/-- A number with an exponent, by its parts. -/
theorem unsigned?_exponent (first : wholePart? cs = some (whole, tail))
    (second : fraction? tail = some (part, 'e' :: more))
    (read : ofDigits? (whole ++ part) = some mantissa)
    (exponent : exponent? more = some (e, rest)) :
    unsigned? negative cs =
      ((Double.ofDecimal? negative mantissa (e - part.length)).map .double).map (·, rest) := by
  rw [unsigned?, first, Option.bind_eq_bind, Option.bind_some]
  dsimp only
  rw [second, Option.bind_eq_bind, Option.bind_some]
  dsimp only
  rw [read, Option.bind_eq_bind, Option.bind_some]
  change Option.bind (exponent? more) _ = _
  rw [exponent, Option.bind_some]
  cases Double.ofDecimal? negative mantissa (e - part.length) <;> rfl

end

/-! ### Whole numbers -/

theorem toList_intText (n : Int) :
    (intText n).toList = signed (decide (n < 0)) (digits n.natAbs) := by
  rw [intText, signed]
  split <;> simp [natText, *]

theorem signed_append (cs rest : List Char) :
    signed negative cs ++ rest = signed negative (cs ++ rest) := by
  cases negative <;> rfl

theorem startsNumber_intText (n : Int) : startsNumber ((intText n).toList ++ rest) = true := by
  rw [toList_intText, signed_append]
  exact startsNumber_signed ((isWhole_digits _).head_append _)

/-- A whole number that fits 64 bits, with a sign or without, is read back. -/
theorem number?_intText {n : Int} (least : -(Word.count 63 : Int) ≤ n)
    (greatest : n < Word.count 64) (closed : closes rest = true) :
    number? ((intText n).toList ++ rest) = some (.int n, rest) := by
  have stop (c : Char) (here : rest.head? = some c) := closes_head closed here
  rw [toList_intText, signed_append, number?_signed ((isWhole_digits _).head_append _),
    unsigned?_plain (wholePart?_append (isWhole_digits _) fun c here => (stop c here).1)
      (fraction?_none fun c here => (stop c here).2.1)
      (by rw [List.append_nil, ofDigits?_digits]) fun c here => (stop c here).2.2]
  simp only [List.isEmpty_nil, if_true, wholeNumber?, decide_eq_true_eq]
  split
  · rw [if_neg (by omega), if_pos (by omega)]
    simp only [Option.map_some, Option.some.injEq, Prod.mk.injEq, Json.int.injEq, and_true]
    omega
  · rw [if_pos (by omega)]
    simp only [Option.map_some, Option.some.injEq, Prod.mk.injEq, Json.int.injEq, and_true]
    omega

/-! ### Floating-point numbers -/

section

variable {x : Double}

/-- A number with a point and without an exponent is read to its last digit. -/
theorem number?_fraction (isWhole : IsWhole whole) (all : ∀ c ∈ part, isDigit c = true)
    (there : part ≠ []) : ∃ answer : Option Json, ∀ rest, closes rest = true →
      number? (signed negative (whole ++ '.' :: part) ++ rest) = answer.map (·, rest) := by
  obtain ⟨mantissa, read⟩ := exists_ofDigits? (whole ++ part)
    (fun c member => (List.mem_append.mp member).elim (isWhole.digits c) (all c))
    (by simp [there])
  refine ⟨(Double.ofDecimal? negative mantissa (-part.length)).map .double, fun rest closed => ?_⟩
  have stop (c : Char) (here : rest.head? = some c) := closes_head closed here
  have dot (c : Char) (here : ('.' :: (part ++ rest)).head? = some c) : isDigit c = false := by
    cases here
    rfl
  rw [signed_append, List.append_assoc, List.cons_append,
    number?_signed (isWhole.head_append _), unsigned?_plain (wholePart?_append isWhole dot)
      (fraction?_append all there fun c here => (stop c here).1) read
      fun c here => (stop c here).2.2, if_neg (by simp [there])]

/-- The digits after a point, with the point if there are any. -/
def pointed (part : List Char) : List Char := if part.isEmpty then [] else '.' :: part

/-- A number with an exponent is read to the last digit of that. -/
theorem number?_power (isWhole : IsWhole whole) (all : ∀ c ∈ part, isDigit c = true) (down : Bool)
    (n : Nat) : ∃ answer : Option Json, ∀ rest, closes rest = true →
      number? (signed negative (whole ++ (pointed part ++
        'e' :: (if down then '-' else '+') :: digits n)) ++ rest) = answer.map (·, rest) := by
  obtain ⟨mantissa, read⟩ := exists_ofDigits? (whole ++ part)
    (fun c member => (List.mem_append.mp member).elim (isWhole.digits c) (all c))
    (by simp [isWhole.there])
  refine ⟨(Double.ofDecimal? negative mantissa
    ((if down then -(n : Int) else (n : Int)) - part.length)).map .double, fun rest closed => ?_⟩
  have stop (c : Char) (here : rest.head? = some c) := closes_head closed here
  have exponent : exponent? ((if down then '-' else '+') :: (digits n ++ rest)) =
      some (if down then -(n : Int) else (n : Int), rest) := by
    have taken := spanDigits_append (fun c => isDigit_of_mem_digits (n := n) (c := c))
      fun c here => (stop c here).1
    cases down <;> simp [exponent?, taken, ofDigits?_digits]
  have letter (more : List Char) (c : Char) (here : ('e' :: more).head? = some c) :
      isDigit c = false ∧ c ≠ '.' := by
    cases here
    decide
  have ahead (more : List Char) (c : Char)
      (here : (pointed part ++ 'e' :: more).head? = some c) : isDigit c = false := by
    cases part with
    | nil => exact (letter more c here).1
    | cons => cases here; rfl
  rw [signed_append, List.append_assoc, List.append_assoc, List.cons_append, List.cons_append,
    number?_signed (isWhole.head_append _),
    unsigned?_exponent (wholePart?_append isWhole (ahead _)) ?_ read exponent]
  cases part with
  | nil => exact fraction?_none fun c here => (letter _ c here).2
  | cons d part => exact fraction?_append all (by simp) fun c here => (letter _ c here).1

/-- The digits of a number with the point among them, before them or after them. -/
theorem positional_eq {ds : List Char} {point : Int} (isWhole : IsWhole ds)
    (zero : ds = ['0'] → point = 1) : ∃ whole part, Double.positional numberLayout ds point =
      whole ++ '.' :: part ∧ IsWhole whole ∧ (∀ c ∈ part, isDigit c = true) ∧ part ≠ [] := by
  have zeros (n : Nat) (c : Char) (member : c ∈ List.replicate n '0') : isDigit c = true := by
    rw [List.eq_of_mem_replicate member]
    rfl
  unfold Double.positional
  dsimp only
  split
  next front =>
    refine ⟨['0'], _, rfl, isWhole_zero, fun c member => ?_, by simp [isWhole.there]⟩
    exact (List.mem_append.mp member).elim (zeros _ c) (isWhole.digits c)
  next behind =>
    split
    next among =>
      refine ⟨ds.take point.toNat, ds.drop point.toNat, rfl, ⟨fun c member => ?_, ?_, ?_⟩,
        fun c member => isWhole.digits c (List.mem_of_mem_drop member), ?_⟩
      · exact isWhole.digits c (List.mem_of_mem_take member)
      · simp [isWhole.there]
        omega
      · refine .inr ?_
        rcases isWhole.leading with rfl | leading
        · rw [zero rfl] at among
          exact absurd among (by decide)
        · rw [List.head?_take, if_neg (by omega)]
          exact leading
      · simp
        omega
    next after =>
      refine ⟨ds ++ List.replicate (point - ds.length).toNat '0', ['0'], by simp [numberLayout],
        ⟨fun c member => ?_, by simp [isWhole.there], ?_⟩, isWhole_zero.digits, isWhole_zero.there⟩
      · exact (List.mem_append.mp member).elim (isWhole.digits c) (zeros _ c)
      · rcases isWhole.leading with rfl | leading
        · exact .inl (by rw [zero rfl]; rfl)
        · refine .inr ?_
          rw [List.head?_append_of_ne_nil _ isWhole.there]
          exact leading

theorem scientific_eq {ds : List Char} {exponent : Int} (isWhole : IsWhole ds) :
    ∃ whole part, ∃ down : Bool, ∃ n, Double.scientific numberLayout ds exponent =
      whole ++ (pointed part ++ 'e' :: (if down then '-' else '+') :: digits n) ∧ IsWhole whole ∧
      ∀ c ∈ part, isDigit c = true := by
  obtain ⟨all, there, _⟩ := isWhole
  obtain ⟨d, more, rfl⟩ := List.exists_cons_of_ne_nil there
  have first : IsWhole [d] := by
    refine ⟨fun c member => all c ?_, by simp, ?_⟩
    · rw [List.mem_singleton.mp member]
      exact List.mem_cons_self
    · by_cases zero : d = '0'
      · exact .inl (by rw [zero])
      · exact .inr (by simpa using zero)
  refine ⟨[d], more, exponent < 0, exponent.natAbs, ?_, first,
    fun c member => all c (List.mem_cons_of_mem _ member)⟩
  cases more <;> by_cases down : exponent < 0 <;>
    simp [Double.scientific, pointed, numberLayout, down]

/-- A written floating-point number is read to its last character, and to the same whatever closes
it. -/
theorem exists_number?_write (x : Double) :
    (∀ rest, startsNumber ((x.write numberLayout).toList ++ rest) = true) ∧
    ∃ answer : Option Json, ∀ rest, closes rest = true →
      number? ((x.write numberLayout).toList ++ rest) = answer.map (·, rest) := by
  unfold Double.write
  rcases shortest : x.shortest with ⟨k, e⟩
  have isWhole := isWhole_digits k
  dsimp only
  have sign (body : List Char) : (String.ofList (if x.negative then '-' :: body else body)).toList =
      signed x.negative body := String.toList_ofList
  rw [sign]
  have zero (same : digits k = ['0']) :
      (if x.isZero = true then 1 else ((digits k).length : Int) + e) = 1 := by
    cases isZero : x.isZero with
    | true => rfl
    | false =>
        have positive := Double.shortest_pos isZero
        rw [shortest] at positive
        exact absurd (by rw [same]; rfl) (digits_head positive)
  generalize (if x.isZero = true then 1 else ((digits k).length : Int) + e) = point at zero ⊢
  split
  next =>
    obtain ⟨whole, part, same, whole', all, there⟩ := positional_eq isWhole zero
    rw [same]
    refine ⟨fun rest => ?_, number?_fraction whole' all there⟩
    rw [signed_append, List.append_assoc]
    exact startsNumber_signed (whole'.head_append _)
  next =>
    obtain ⟨whole, part, down, n, same, whole', all⟩ := scientific_eq isWhole
    rw [same]
    refine ⟨fun rest => ?_, number?_power whole' all down n⟩
    rw [signed_append, List.append_assoc]
    exact startsNumber_signed (whole'.head_append _)

end

end JobQueue.Json
