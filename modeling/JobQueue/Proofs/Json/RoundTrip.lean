/-
Reading back structured values.

A value whose objects have their keys in order and whose whole numbers fit 64 bits is read from its
written form to its last character, and to nothing else than `Json.reread?` says: itself but for its
floating-point numbers, or nothing where it is too deep (`value?_compactChars`). A value without
floating-point numbers that is not too deep is read back as it was (`read_compact_of_plain`).
-/

import JobQueue.Proofs.Json.Fields
import JobQueue.Proofs.Json.Number
import JobQueue.Proofs.Json.Text

namespace JobQueue

namespace Json

/-! ### Every value inside a value -/

mutual

/-- Whether something holds of a value and of every value inside it. -/
def Every (p : Json → Prop) : Json → Prop
  | .arr items => p (.arr items) ∧ EveryItem p items
  | .obj fields => p (.obj fields) ∧ EveryField p fields
  | v => p v

/-- Whether something holds of every item and of every value inside one. -/
def EveryItem (p : Json → Prop) : List Json → Prop
  | [] => True
  | x :: rest => Every p x ∧ EveryItem p rest

/-- Whether something holds of the value of every field and of every value inside one. -/
def EveryField (p : Json → Prop) : List (String × Json) → Prop
  | [] => True
  | (_, x) :: rest => Every p x ∧ EveryField p rest

end

/-- Whether a value may stand in a text, seen from outside: its keys are in order if it is an
object, and it fits 64 bits, with a sign or without, if it is a whole number. -/
def IsRegular : Json → Prop
  | .obj fields => Fields.Ordered fields
  | .int n => -(Word.count 63 : Int) ≤ n ∧ n < Word.count 64
  | _ => True

/-- Whether a value is regular and no floating-point number. -/
def IsPlain (v : Json) : Prop := v.IsRegular ∧ ∀ x, v ≠ .double x

variable {p q : Json → Prop} {v : Json} {items : List Json} {fields : Fields} {depth : Nat}
  {rest : List Char}

theorem everyItem_iff : EveryItem p items ↔ ∀ x ∈ items, x.Every p := by
  induction items with
  | nil => exact iff_of_true trivial (by simp)
  | cons x rest ih => rw [EveryItem, ih, List.forall_mem_cons]

theorem everyField_iff : EveryField p fields ↔ ∀ f ∈ fields, f.2.Every p := by
  induction fields with
  | nil => exact iff_of_true trivial (by simp)
  | cons f rest ih => rw [EveryField, ih, List.forall_mem_cons]

theorem Every.self (every : v.Every p) : p v := by
  cases v <;> first | exact every | exact every.1

/-- What holds of a value if it holds of the values directly inside it holds of all values. -/
@[elab_as_elim]
theorem induction {P : Json → Prop} (null : P .null) (bool : ∀ b, P (.bool b))
    (int : ∀ n, P (.int n)) (double : ∀ x, P (.double x)) (str : ∀ s, P (.str s))
    (arr : ∀ items, (∀ x ∈ items, P x) → P (.arr items))
    (obj : ∀ fields : Fields, (∀ f ∈ fields, P f.2) → P (.obj fields)) (v : Json) : P v :=
  @Json.rec P (fun items => ∀ x ∈ items, P x) (fun fields => ∀ f ∈ fields, P f.2) (fun f => P f.2)
    null bool int double str arr obj (by simp)
    (fun _ _ first others => List.forall_mem_cons.mpr ⟨first, others⟩) (by simp)
    (fun _ _ first others => List.forall_mem_cons.mpr ⟨first, others⟩) (fun _ _ here => here) v

/-! ### What a value is read back as -/

mutual

/-- What is read from the written form of a value, if lists and objects may stand `depth` deep: the
value with each floating-point number as it is read from its own text. -/
def reread? : Json → Nat → Option Json
  | .double x, _ => (number? (x.write numberLayout).toList).map Prod.fst
  | .arr _, 0 | .obj _, 0 => none
  | .arr items, depth + 1 => (rereadItems? items depth).map .arr
  | .obj fields, depth + 1 => (rereadFields? fields depth).map .obj
  | v, _ => some v

/-- What is read from the items of a list. -/
def rereadItems? : List Json → Nat → Option (List Json)
  | [], _ => some []
  | x :: rest, depth => (reread? x depth).bind fun y => (rereadItems? rest depth).map (y :: ·)

/-- What is read from the fields of an object. -/
def rereadFields? : List (String × Json) → Nat → Option (List (String × Json))
  | [], _ => some []
  | (k, x) :: rest, depth =>
      (reread? x depth).bind fun y => (rereadFields? rest depth).map ((k, y) :: ·)

end

theorem keys_rereadFields? {fields' : List (String × Json)}
    (read : rereadFields? fields depth = some fields') :
    fields'.map Prod.fst = fields.map Prod.fst := by
  induction fields generalizing fields' with
  | nil => cases read; rfl
  | cons f fields ih =>
      obtain ⟨y, _, others⟩ := Option.bind_eq_some_iff.mp read
      obtain ⟨fields', read', rfl⟩ := Option.map_eq_some_iff.mp others
      rw [List.map_cons, List.map_cons, ih read']

theorem depthItems_le_iff : depthItems items ≤ depth ↔ ∀ x ∈ items, x.depth ≤ depth := by
  induction items with
  | nil => exact iff_of_true (Nat.zero_le _) (by simp)
  | cons x items ih => rw [depthItems, Nat.max_le, ih, List.forall_mem_cons]

theorem depthFields_le_iff : depthFields fields ≤ depth ↔ ∀ f ∈ fields, f.2.depth ≤ depth := by
  induction fields with
  | nil => exact iff_of_true (Nat.zero_le _) (by simp)
  | cons f fields ih => rw [depthFields, Nat.max_le, ih, List.forall_mem_cons]

theorem rereadItems?_eq_self (each : ∀ x ∈ items, x.reread? depth = some x) :
    rereadItems? items depth = some items := by
  induction items with
  | nil => rfl
  | cons x items ih =>
      rw [rereadItems?, each x List.mem_cons_self, Option.bind_some,
        ih fun y member => each y (List.mem_cons_of_mem _ member), Option.map_some]

theorem rereadFields?_eq_self (each : ∀ f ∈ fields, f.2.reread? depth = some f.2) :
    rereadFields? fields depth = some fields := by
  induction fields with
  | nil => rfl
  | cons f fields ih =>
      rw [rereadFields?, each f List.mem_cons_self, Option.bind_some,
        ih fun g member => each g (List.mem_cons_of_mem _ member), Option.map_some]

/-- A value without floating-point numbers is read back as it was. -/
theorem reread?_of_plain (plain : v.Every IsPlain) (flat : v.depth ≤ depth) :
    v.reread? depth = some v := by
  induction v using Json.induction generalizing depth with
  | double x => exact absurd rfl (plain.2 x)
  | arr items ih =>
      obtain ⟨depth, rfl⟩ := Nat.exists_eq_succ_of_ne_zero (Nat.ne_zero_of_lt flat)
      have flat' := depthItems_le_iff.mp (Nat.le_of_succ_le_succ flat)
      rw [reread?, rereadItems?_eq_self fun x member =>
        ih x member (everyItem_iff.mp plain.2 x member) (flat' x member), Option.map_some]
  | obj fields ih =>
      obtain ⟨depth, rfl⟩ := Nat.exists_eq_succ_of_ne_zero (Nat.ne_zero_of_lt flat)
      have flat' := depthFields_le_iff.mp (Nat.le_of_succ_le_succ flat)
      rw [reread?, rereadFields?_eq_self fun f member =>
        ih f member (everyField_iff.mp plain.2 f member) (flat' f member), Option.map_some]
  | _ => rfl

/-! ### Reading a written value -/

theorem skipSpace_cons {c : Char} (ink : isSpace c = false) :
    skipSpace (c :: rest) = c :: rest := by
  rw [skipSpace, List.dropWhile_cons_of_neg (by simp [ink])]

/-- A character that a written value can begin with. -/
structure Begins (c : Char) : Prop where
  ink : isSpace c = false
  other : c ≠ ']'

theorem ne_of_startsNumber {c d : Char} (starts : startsNumber (c :: rest) = true)
    (letter : (d == '-' || Decimal.isDigit d) = false) : c ≠ d := by
  rintro rfl
  rw [startsNumber, List.head?_cons, Option.any_some, letter] at starts
  cases starts

theorem begins_of_startsNumber {cs : List Char} (starts : startsNumber cs = true) :
    ∃ c tail, cs = c :: tail ∧ Begins c := by
  cases cs with
  | nil => cases starts
  | cons c tail =>
      refine ⟨c, tail, rfl, ?_, ne_of_startsNumber starts rfl⟩
      simp only [isSpace, Bool.or_eq_false_iff, beq_eq_false_iff_ne]
      exact ⟨⟨⟨ne_of_startsNumber starts rfl, ne_of_startsNumber starts rfl⟩,
        ne_of_startsNumber starts rfl⟩, ne_of_startsNumber starts rfl⟩

theorem begins_compactChars (v : Json) : ∃ c tail, compactChars v = c :: tail ∧ Begins c := by
  cases v with
  | null => exact ⟨'n', _, rfl, rfl, by decide⟩
  | bool b => cases b <;> exact ⟨_, _, rfl, rfl, by decide⟩
  | int n =>
      rw [compactChars]
      have starts : startsNumber ((Decimal.intText n).toList ++ []) = true := startsNumber_intText n
      exact begins_of_startsNumber (by simpa using starts)
  | double x =>
      rw [compactChars]
      exact begins_of_startsNumber (by simpa using (exists_number?_write x).1 [])
  | str s => exact ⟨'"', _, rfl, rfl, by decide⟩
  | arr items => exact ⟨'[', _, rfl, rfl, by decide⟩
  | obj fields => exact ⟨'\x7b', _, rfl, rfl, by decide⟩

/-- A text that begins as a number does is read as one. -/
theorem value?_of_startsNumber {cs : List Char} (starts : startsNumber cs = true) :
    value? depth cs = number? cs := by
  cases cs with
  | nil => cases starts
  | cons c cs =>
      have other (d : Char) (letter : (d == '-' || Decimal.isDigit d) = false) : c ≠ d :=
        ne_of_startsNumber starts letter
      obtain ⟨_, _, same, begins⟩ := begins_of_startsNumber starts
      cases same
      rw [value?, skipSpace_cons begins.ink]
      split
      next same => exact absurd (List.cons.inj same).1 (other _ rfl)
      next same => exact absurd (List.cons.inj same).1 (other _ rfl)
      next same => exact absurd (List.cons.inj same).1 (other _ rfl)
      next same => exact absurd (List.cons.inj same).1 (other _ rfl)
      next same => exact absurd (List.cons.inj same).1 (other _ rfl)
      next same => exact absurd (List.cons.inj same).1 (other _ rfl)
      next => rfl

/-! ### Blanks -/

/-- Blanks alone. -/
def IsGap (gap : List Char) : Prop := ∀ c ∈ gap, isSpace c = true

variable {gap lead cs : List Char}

theorem isGap_nil : IsGap [] := by simp [IsGap]

theorem IsGap.skipSpace_append (blank : IsGap gap) : skipSpace (gap ++ cs) = skipSpace cs :=
  List.dropWhile_append_of_pos blank

theorem IsGap.closes_append (blank : IsGap gap) (closed : closes rest = true) :
    closes (gap ++ rest) = true := by
  cases gap with
  | nil => exact closed
  | cons c gap =>
      rw [List.cons_append, closes, blank c List.mem_cons_self]
      exact Bool.or_true _

theorem skipSpace_skipSpace (cs : List Char) : skipSpace (skipSpace cs) = skipSpace cs := by
  induction cs with
  | nil => rfl
  | cons c cs ih =>
      cases blank : isSpace c with
      | true =>
          have gap : IsGap [c] := by simp [IsGap, blank]
          exact (congrArg skipSpace gap.skipSpace_append).trans (ih.trans gap.skipSpace_append.symm)
      | false => rw [skipSpace_cons blank, skipSpace_cons blank]

/-- Blanks hold no commas. -/
theorem count_skipSpace (cs : List Char) : (skipSpace cs).count ',' = cs.count ',' := by
  induction cs with
  | nil => rfl
  | cons c cs ih =>
      cases blank : isSpace c with
      | true =>
          have other : c ≠ ',' := by rintro rfl; cases blank
          have gap : IsGap [c] := by simp [IsGap, blank]
          rw [List.count_cons_of_ne other, ← ih]
          exact congrArg _ gap.skipSpace_append
      | false => rw [skipSpace_cons blank]

/-- Blanks before a value do not count. -/
theorem value?_skipSpace (cs : List Char) : value? depth (skipSpace cs) = value? depth cs := by
  rw [value?, value?, skipSpace_skipSpace]

/-! ### Lists and objects -/

variable {item : List Char → Option (Json × List Char)} {fuel : Nat} {write : Json → List Char}

/-- Parts with commas between them are not more than their text is long, with or without the blanks
at its beginning. -/
theorem length_le_skipSpace (parts : List (List Char)) (rest : List Char) : parts.length ≤
    (skipSpace ([','].intercalate parts ++ rest)).length + 1 := by
  have commas : parts.length ≤ ([','].intercalate parts).count ',' + 1 := by
    induction parts with
    | nil => exact Nat.zero_le _
    | cons part parts ih =>
        cases parts with
        | nil => exact Nat.le_add_left _ _
        | cons next parts =>
            rw [List.intercalate_cons_cons, List.count_append, List.count_append,
              List.count_singleton_self, List.length_cons]
            omega
  calc
    parts.length ≤ ([','].intercalate parts).count ',' + 1 := commas
    _ ≤ ([','].intercalate parts ++ rest).count ',' + 1 := by
      rw [List.count_append]
      omega
    _ = (skipSpace ([','].intercalate parts ++ rest)).count ',' + 1 := by rw [count_skipSpace]
    _ ≤ _ := Nat.succ_le_succ List.count_le_length

/-- The items of a list are read back if each of them is. -/
theorem items?_intercalate (there : items ≠ []) (enough : items.length ≤ fuel) (blank : IsGap gap)
    (each : ∀ x ∈ items, ∀ rest, closes rest = true →
      item (write x ++ rest) = (x.reread? depth).map (·, rest)) :
    items? item fuel ([','].intercalate (items.map write) ++ (gap ++ ']' :: rest)) =
      (rereadItems? items depth).map (·, rest) := by
  induction items generalizing fuel with
  | nil => exact absurd rfl there
  | cons x items ih =>
      obtain ⟨fuel, rfl⟩ := Nat.exists_eq_succ_of_ne_zero (Nat.ne_zero_of_lt enough)
      have first := each x List.mem_cons_self
      cases items with
      | nil =>
          have bracket : skipSpace (gap ++ ']' :: rest) = ']' :: rest := blank.skipSpace_append
          rw [List.map_singleton, List.intercalate_singleton, items?,
            first _ (blank.closes_append rfl), rereadItems?, rereadItems?]
          cases x.reread? depth with
          | none => rfl
          | some x' =>
              simp only [Option.map_some, Option.bind_eq_bind, Option.bind_some, bracket]
      | cons y items =>
          have others := ih (by simp) (Nat.le_of_succ_le_succ enough)
            fun z member => each z (List.mem_cons_of_mem _ member)
          rw [List.map_cons] at others
          rw [List.map_cons, List.map_cons, List.intercalate_cons_cons, List.append_assoc,
            List.append_assoc, List.singleton_append, items?, first _ rfl, rereadItems?]
          cases x.reread? depth with
          | none => rfl
          | some x' =>
              have comma (more : List Char) : skipSpace (',' :: more) = ',' :: more :=
                skipSpace_cons rfl
              simp only [Option.map_some, Option.bind_eq_bind, Option.bind_some, comma, others]
              cases rereadItems? (y :: items) depth <;> rfl

theorem quote_append (s : String) (rest : List Char) :
    quote s ++ rest = '"' :: (s.toList.flatMap escapeChar ++ '"' :: rest) := by
  rw [quote, List.cons_append, List.append_assoc, List.singleton_append]

/-- A field: blanks, its key, and its value. -/
def fieldChars (lead : List Char) (write : Json → List Char) (f : String × Json) : List Char :=
  lead ++ (quote f.1 ++ ':' :: write f.2)

theorem skipSpace_fieldChars (blank : IsGap lead) (f : String × Json) :
    skipSpace (fieldChars lead write f ++ rest) =
      '"' :: (f.1.toList.flatMap escapeChar ++ '"' :: ':' :: (write f.2 ++ rest)) := by
  rw [fieldChars, List.append_assoc, List.append_assoc, quote_append, blank.skipSpace_append]
  exact skipSpace_cons rfl

/-- The fields of an object are read back if the value of each of them is. -/
theorem fields?_intercalate (there : fields ≠ []) (enough : fields.length ≤ fuel)
    (before : IsGap lead) (blank : IsGap gap)
    (each : ∀ f ∈ fields, ∀ rest, closes rest = true →
      item (write f.2 ++ rest) = (f.2.reread? depth).map (·, rest)) :
    fields? item fuel
        ([','].intercalate (fields.map (fieldChars lead write)) ++ (gap ++ '\x7d' :: rest)) =
      (rereadFields? fields depth).map (·, rest) := by
  induction fields generalizing fuel with
  | nil => exact absurd rfl there
  | cons f fields ih =>
      obtain ⟨k, x⟩ := f
      obtain ⟨fuel, rfl⟩ := Nat.exists_eq_succ_of_ne_zero (Nat.ne_zero_of_lt enough)
      have first := each _ List.mem_cons_self
      have mark (c : Char) (ink : isSpace c = false) (more : List Char) :
          skipSpace (c :: more) = c :: more := skipSpace_cons ink
      cases fields with
      | nil =>
          have brace : skipSpace (gap ++ '\x7d' :: rest) = '\x7d' :: rest :=
            blank.skipSpace_append
          rw [List.map_singleton, List.intercalate_singleton, fields?, skipSpace_fieldChars before]
          change Option.bind (text? _) _ = _
          rw [text?_quote, Option.bind_some]
          change Option.bind (item _) _ = _
          rw [first _ (blank.closes_append rfl), rereadFields?, rereadFields?]
          cases x.reread? depth with
          | none => rfl
          | some x' => simp only [Option.map_some, Option.bind_some, brace]
      | cons g fields =>
          have others := ih (by simp) (Nat.le_of_succ_le_succ enough)
            fun h member => each h (List.mem_cons_of_mem _ member)
          rw [List.map_cons] at others
          rw [List.map_cons, List.map_cons, List.intercalate_cons_cons, List.append_assoc,
            List.append_assoc, List.singleton_append, fields?, skipSpace_fieldChars before]
          change Option.bind (text? _) _ = _
          rw [text?_quote, Option.bind_some]
          change Option.bind (item _) _ = _
          rw [first _ rfl, rereadFields?]
          cases x.reread? depth with
          | none => rfl
          | some x' =>
              simp only [Option.map_some, Option.bind_some, mark ',' rfl, others]
              cases rereadFields? (g :: fields) depth <;> rfl

/-- Where items are read whatever blanks are before them, a list is read back if its items are. -/
theorem list?_intercalate (ignores : ∀ cs, item (skipSpace cs) = item cs) (blank : IsGap gap)
    (begins : ∀ x ∈ items, ∃ c tail, skipSpace (write x) = c :: tail ∧ Begins c)
    (each : ∀ x ∈ items, ∀ rest, closes rest = true →
      item (write x ++ rest) = (x.reread? depth).map (·, rest)) :
    list? item ([','].intercalate (items.map write) ++ (gap ++ ']' :: rest)) =
      ((rereadItems? items depth).map .arr).map (·, rest) := by
  cases items with
  | nil =>
      have bracket : skipSpace (gap ++ ']' :: rest) = ']' :: rest := blank.skipSpace_append
      rw [List.map_nil, List.intercalate_nil, List.nil_append, list?, bracket]
      rfl
  | cons x items =>
      have unskipped (fuel : Nat) (cs : List Char) :
          items? item (fuel + 1) (skipSpace cs) = items? item (fuel + 1) cs := by
        rw [items?, items?, ignores]
      have enough := length_le_skipSpace ((x :: items).map write) (gap ++ ']' :: rest)
      rw [List.length_map] at enough
      obtain ⟨c, tail, same, begins⟩ : ∃ c tail, skipSpace ([','].intercalate
          ((x :: items).map write) ++ (gap ++ ']' :: rest)) = c :: tail ∧ Begins c := by
        obtain ⟨c, tail, start, ink⟩ := begins x List.mem_cons_self
        have first (more : List Char) : skipSpace (write x ++ more) = c :: (tail ++ more) := by
          rw [skipSpace] at start
          rw [skipSpace, List.dropWhile_append, start]
          rfl
        cases items with
        | nil =>
            refine ⟨c, tail ++ (gap ++ ']' :: rest), ?_, ink⟩
            rw [List.map_singleton, List.intercalate_singleton, first]
        | cons y items =>
            rw [List.map_cons, List.map_cons, List.intercalate_cons_cons, List.append_assoc,
              List.append_assoc]
            exact ⟨c, _, first _, ink⟩
      rw [list?]
      split
      next end_ =>
        rw [same] at end_
        exact absurd (List.cons.inj end_).1 begins.other
      next =>
        rw [unskipped, items?_intercalate (by simp) enough blank each]
        cases rereadItems? (x :: items) depth <;> rfl

/-- An object is read back if its keys are in order and the values of its fields are read back. -/
theorem object?_intercalate (ordered : Fields.Ordered fields) (before : IsGap lead)
    (blank : IsGap gap) (each : ∀ f ∈ fields, ∀ rest, closes rest = true →
      item (write f.2 ++ rest) = (f.2.reread? depth).map (·, rest)) :
    object? item
        ([','].intercalate (fields.map (fieldChars lead write)) ++ (gap ++ '\x7d' :: rest)) =
      ((rereadFields? fields depth).map .obj).map (·, rest) := by
  cases fields with
  | nil =>
      have brace : skipSpace (gap ++ '\x7d' :: rest) = '\x7d' :: rest := blank.skipSpace_append
      rw [List.map_nil, List.intercalate_nil, List.nil_append, object?, brace]
      rfl
  | cons f fields =>
      have unskipped (fuel : Nat) (cs : List Char) :
          fields? item (fuel + 1) (skipSpace cs) = fields? item (fuel + 1) cs := by
        rw [fields?, fields?, skipSpace_skipSpace]
      have enough := length_le_skipSpace
        ((f :: fields).map (fieldChars lead write)) (gap ++ '\x7d' :: rest)
      rw [List.length_map] at enough
      obtain ⟨tail, same⟩ : ∃ tail, skipSpace ([','].intercalate
          ((f :: fields).map (fieldChars lead write)) ++ (gap ++ '\x7d' :: rest)) =
            '"' :: tail := by
        cases fields with
        | nil =>
            rw [List.map_singleton, List.intercalate_singleton, skipSpace_fieldChars before]
            exact ⟨_, rfl⟩
        | cons g fields =>
            rw [List.map_cons, List.map_cons, List.intercalate_cons_cons, List.append_assoc,
              List.append_assoc, skipSpace_fieldChars before]
            exact ⟨_, rfl⟩
      rw [object?]
      split
      next end_ =>
        rw [same] at end_
        exact absurd (List.cons.inj end_).1 (by decide)
      next =>
        rw [unskipped, fields?_intercalate (by simp) enough before blank each]
        cases again : rereadFields? (f :: fields) depth with
        | none => rfl
        | some fields' =>
            have ordered' : Fields.Ordered fields' := by
              rw [Fields.ordered_iff, keys_rereadFields? again]
              exact Fields.ordered_iff.mp ordered
            simp only [Option.map_some, ofFields, Fields.ofList_of_ordered ordered']

/-! ### Values without blanks -/

theorem compactItems_eq (items : List Json) :
    compactItems items = [','].intercalate (items.map compactChars) := by
  induction items with
  | nil => rfl
  | cons x items ih =>
      cases items with
      | nil => rw [compactItems, List.map_singleton, List.intercalate_singleton]
      | cons y items =>
          rw [compactItems, ih, List.map_cons, List.map_cons, List.map_cons,
            List.intercalate_cons_cons, List.append_assoc, List.singleton_append]

theorem compactFields_eq (fields : Fields) :
    compactFields fields = [','].intercalate (fields.map (fieldChars [] compactChars)) := by
  induction fields with
  | nil => rfl
  | cons f fields ih =>
      obtain ⟨k, x⟩ := f
      cases fields with
      | nil =>
          rw [compactFields, List.map_singleton, List.intercalate_singleton]
          rfl
      | cons g fields =>
          have first : fieldChars [] compactChars (k, x) = quote k ++ ':' :: compactChars x := rfl
          rw [compactFields, ih, List.map_cons, List.map_cons, List.map_cons,
            List.intercalate_cons_cons, first]
          simp only [List.append_assoc, List.cons_append, List.nil_append]

/-- A written value is read to its last character, whatever closes it. -/
theorem value?_compactChars (regular : v.Every IsRegular) (closed : closes rest = true) :
    value? depth (compactChars v ++ rest) = (v.reread? depth).map (·, rest) := by
  induction v using Json.induction generalizing depth rest with
  | null => rw [compactChars, value?]; rfl
  | bool b => cases b <;> rw [compactChars, value?] <;> rfl
  | int n =>
      rw [compactChars, value?_of_startsNumber (startsNumber_intText n),
        number?_intText regular.1 regular.2 closed]
      rfl
  | double x =>
      obtain ⟨starts, answer, reads⟩ := exists_number?_write x
      have alone := reads [] rfl
      rw [List.append_nil] at alone
      rw [compactChars, value?_of_startsNumber (starts rest), reads rest closed, reread?, alone]
      cases answer <;> rfl
  | str s =>
      rw [compactChars, quote_append, value?, skipSpace_cons rfl]
      change Option.map _ (text? _) = _
      rw [text?_quote]
      rfl
  | arr items ih =>
      rw [compactChars, List.cons_append, List.append_assoc, List.singleton_append, value?,
        skipSpace_cons rfl]
      cases depth with
      | zero => rfl
      | succ depth =>
          rw [compactItems_eq]
          refine list?_intercalate value?_skipSpace isGap_nil (fun x _ => ?_)
            fun x member rest closed => ih x member (everyItem_iff.mp regular.2 x member) closed
          obtain ⟨c, tail, same, begins⟩ := begins_compactChars x
          exact ⟨c, tail, same ▸ skipSpace_cons begins.ink, begins⟩
  | obj fields ih =>
      rw [compactChars, List.cons_append, List.append_assoc, List.singleton_append, value?,
        skipSpace_cons rfl]
      cases depth with
      | zero => rfl
      | succ depth =>
          rw [compactFields_eq]
          exact object?_intercalate regular.1 isGap_nil isGap_nil fun f member rest closed =>
            ih f member (everyField_iff.mp regular.2 f member) closed

/-- What is read from the text of a value. -/
theorem read_compact (regular : v.Every IsRegular) : read v.compact = v.reread? depthLimit := by
  have whole : value? depthLimit (compactChars v ++ []) = _ := value?_compactChars regular rfl
  rw [List.append_nil] at whole
  rw [read, readWithin, compact, String.toList_ofList, whole]
  cases v.reread? depthLimit <;> rfl

theorem Every.mono (every : v.Every p) (weaker : ∀ v, p v → q v) : v.Every q := by
  induction v using Json.induction with
  | arr items ih =>
      exact ⟨weaker _ every.1, everyItem_iff.mpr fun x member =>
        ih x member (everyItem_iff.mp every.2 x member)⟩
  | obj fields ih =>
      exact ⟨weaker _ every.1, everyField_iff.mpr fun f member =>
        ih f member (everyField_iff.mp every.2 f member)⟩
  | _ => exact weaker _ every

/-- A value without floating-point numbers in which lists and objects do not stand too deep is read
from its text as it was. -/
theorem read_compact_of_plain (plain : v.Every IsPlain) (flat : v.depth ≤ depthLimit) :
    read v.compact = some v := by
  rw [read_compact (plain.mono fun _ => And.left), reread?_of_plain plain flat]

end Json

end JobQueue
