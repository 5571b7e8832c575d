/-
What is read from a text is regular.

Every object has its keys in order however they stand in the text (`Fields.ordered_ofList`), and a
whole number that does not fit 64 bits becomes a floating-point number (`regular_of_wholeNumber?`).
So whatever is read is regular through and through (`regular_of_read`).
-/

import JobQueue.Proofs.Json.RoundTrip

namespace JobQueue

/-! ### Fields put in order -/

namespace Fields

variable {fields : Fields} {k key : String} {v : Json} {f : String × Json}

theorem of_mem_insert (member : f ∈ fields.insert k v) : f = (k, v) ∨ f ∈ fields := by
  induction fields with
  | nil => exact .inl (List.mem_singleton.mp member)
  | cons g rest ih =>
      rw [insert] at member
      split at member
      · exact List.mem_cons.mp member
      · split at member
        · exact (List.mem_cons.mp member).imp_right (List.mem_cons_of_mem _)
        · rcases List.mem_cons.mp member with rfl | later
          · exact .inr List.mem_cons_self
          · exact (ih later).imp_right (List.mem_cons_of_mem _)

theorem Ordered.insert (ordered : fields.Ordered) : (fields.insert k v).Ordered := by
  rw [ordered_iff, List.pairwise_map] at ordered ⊢
  induction fields with
  | nil => exact List.pairwise_singleton _ _
  | cons g rest ih =>
      obtain ⟨above, rising⟩ := List.pairwise_cons.mp ordered
      rw [Fields.insert]
      split
      next less =>
        exact List.pairwise_cons.mpr ⟨List.forall_mem_cons.mpr
          ⟨less, fun f member => less.trans (above f member)⟩, ordered⟩
      next notLess =>
        split
        next same => exact List.pairwise_cons.mpr ⟨same ▸ above, rising⟩
        next other =>
          have less : g.1 < k := lt_of_le_of_ne (not_lt.mp notLess) (Ne.symm other)
          refine List.pairwise_cons.mpr ⟨fun f member => ?_, ih rising⟩
          rcases of_mem_insert member with rfl | later
          · exact less
          · exact above f later

/-- An object has its keys in order, whatever it is made of. -/
theorem ordered_ofList (pairs : List (String × Json)) : (ofList pairs).Ordered := by
  have kept (done : Fields) (ordered : done.Ordered) :
      Ordered (pairs.foldl (fun fields f => Fields.insert f.1 f.2 fields) done) := by
    induction pairs generalizing done with
    | nil => exact ordered
    | cons f rest ih => exact ih _ ordered.insert
  exact kept [] trivial

theorem of_mem_ofList {pairs : List (String × Json)} (member : f ∈ ofList pairs) :
    f ∈ pairs := by
  have kept (done : Fields)
      (there : f ∈ pairs.foldl (fun fields f => Fields.insert f.1 f.2 fields) done) :
      f ∈ done ∨ f ∈ pairs := by
    clear member
    induction pairs generalizing done with
    | nil => exact .inl there
    | cons g rest ih =>
        rcases ih _ there with earlier | later
        · rcases of_mem_insert earlier with rfl | before
          · exact .inr List.mem_cons_self
          · exact .inl before
        · exact .inr (List.mem_cons_of_mem _ later)
  exact (kept [] member).resolve_left List.not_mem_nil

end Fields

namespace Json

variable {v : Json} {cs rest : List Char} {fuel : Nat}

/-! ### Numbers -/

theorem regular_of_wholeNumber? {negative : Bool} {n : Nat}
    (read : wholeNumber? negative n = some v) : v.Every IsRegular := by
  have bounds : Word.count 63 ≤ Word.count 64 := by decide
  rw [wholeNumber?] at read
  split at read
  · split at read
    · cases read
      trivial
    · split at read
      next fits =>
        cases read
        constructor <;> omega
      · obtain ⟨x, _, rfl⟩ := Option.map_eq_some_iff.mp read
        trivial
  · split at read
    next fits =>
      cases read
      constructor <;> omega
    · obtain ⟨x, _, rfl⟩ := Option.map_eq_some_iff.mp read
      trivial

theorem regular_of_unsigned? {negative : Bool} (read : unsigned? negative cs = some (v, rest)) :
    v.Every IsRegular := by
  obtain ⟨⟨whole, afterWhole⟩, _, read⟩ := Option.bind_eq_some_iff.mp read
  obtain ⟨⟨part, afterPart⟩, _, read⟩ := Option.bind_eq_some_iff.mp read
  obtain ⟨mantissa, _, read⟩ := Option.bind_eq_some_iff.mp read
  have double {e : Int} {after : List Char}
      (read : (Double.ofDecimal? negative mantissa e).bind (fun x => some (double x, after)) =
        some (v, rest)) : v.Every IsRegular := by
    obtain ⟨x, _, same⟩ := Option.bind_eq_some_iff.mp read
    cases same
    trivial
  dsimp only at read
  split at read
  · obtain ⟨_, _, read⟩ := Option.bind_eq_some_iff.mp read
    exact double read
  · obtain ⟨_, _, read⟩ := Option.bind_eq_some_iff.mp read
    exact double read
  · split at read
    · obtain ⟨n, whole, same⟩ := Option.bind_eq_some_iff.mp read
      cases same
      exact regular_of_wholeNumber? whole
    · exact double read

theorem regular_of_number? (read : number? cs = some (v, rest)) : v.Every IsRegular := by
  unfold number? at read
  split at read <;> exact regular_of_unsigned? read

/-! ### Lists and objects -/

section

variable {item : List Char → Option (Json × List Char)}
  (each : ∀ {cs v rest}, item cs = some (v, rest) → v.Every IsRegular)
include each

theorem regular_of_items? {items : List Json} (read : items? item fuel cs = some (items, rest)) :
    EveryItem IsRegular items := by
  induction fuel generalizing cs items with
  | zero => cases read
  | succ fuel ih =>
      obtain ⟨⟨v, after⟩, first, read⟩ := Option.bind_eq_some_iff.mp read
      dsimp only at read
      split at read
      · cases read
        exact ⟨each first, trivial⟩
      · obtain ⟨⟨others, after'⟩, later, read⟩ := Option.bind_eq_some_iff.mp read
        cases read
        exact ⟨each first, ih later⟩
      · cases read

theorem regular_of_fields? {fields : List (String × Json)}
    (read : fields? item fuel cs = some (fields, rest)) : EveryField IsRegular fields := by
  induction fuel generalizing cs fields with
  | zero => cases read
  | succ fuel ih =>
      rw [fields?] at read
      split at read
      · obtain ⟨⟨k, after⟩, _, read⟩ := Option.bind_eq_some_iff.mp read
        dsimp only at read
        split at read
        · obtain ⟨⟨v, after'⟩, first, read⟩ := Option.bind_eq_some_iff.mp read
          dsimp only at read
          split at read
          · cases read
            exact ⟨each first, trivial⟩
          · obtain ⟨⟨others, after''⟩, later, read⟩ := Option.bind_eq_some_iff.mp read
            cases read
            exact ⟨each first, ih later⟩
          · cases read
        · cases read
      · cases read

theorem regular_of_list? (read : list? item cs = some (v, rest)) : v.Every IsRegular := by
  rw [list?] at read
  split at read
  · cases read
    exact ⟨trivial, trivial⟩
  · obtain ⟨⟨items, after⟩, all, same⟩ := Option.map_eq_some_iff.mp read
    cases same
    exact ⟨trivial, regular_of_items? each all⟩

theorem regular_of_object? (read : object? item cs = some (v, rest)) : v.Every IsRegular := by
  rw [object?] at read
  split at read
  · cases read
    exact ⟨trivial, trivial⟩
  · obtain ⟨⟨fields, after⟩, all, same⟩ := Option.map_eq_some_iff.mp read
    cases same
    have regular := everyField_iff.mp (regular_of_fields? each all)
    exact ⟨Fields.ordered_ofList fields,
      everyField_iff.mpr fun f member => regular f (Fields.of_mem_ofList member)⟩

end

/-! ### Values -/

theorem regular_of_value? {depth : Nat} {cs rest : List Char} {v : Json}
    (read : value? depth cs = some (v, rest)) : v.Every IsRegular := by
  rw [value?] at read
  split at read
  · cases read
    trivial
  · cases read
    trivial
  · cases read
    trivial
  · obtain ⟨⟨s, after⟩, _, same⟩ := Option.map_eq_some_iff.mp read
    cases same
    trivial
  · cases depth with
    | zero => cases read
    | succ depth => exact regular_of_list? regular_of_value? read
  · cases depth with
    | zero => cases read
    | succ depth => exact regular_of_object? regular_of_value? read
  · exact regular_of_number? read

/-- What is read from a text is regular. -/
theorem regular_of_read {text : String} (read : Json.read text = some v) : v.Every IsRegular := by
  obtain ⟨⟨v', rest⟩, whole, ended⟩ := Option.bind_eq_some_iff.mp read
  dsimp only at ended
  split at ended
  · cases ended
    exact regular_of_value? whole
  · cases ended

end Json

end JobQueue
