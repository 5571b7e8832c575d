/-
Fields of objects.

Fields whose keys rise are the object that they make (`Fields.ofList_of_ordered`), and two objects
of such fields in which every key has the same value are the same list (`Fields.map_eq_of_get?`).
-/

import JobQueue.Json.Value
import Mathlib.Data.String.Basic

namespace JobQueue.Fields

variable {fields fields' : Fields} {k key : String} {v : Json}

/-! ### One field -/

theorem get?_cons :
    get? ((k, v) :: fields) key = if key = k then some v else fields.get? key := by
  by_cases own : key = k
  · rw [if_pos own, own]
    exact List.lookup_cons_self
  · rw [get?, List.lookup_cons, beq_false_of_ne own, if_neg own, get?]

theorem mem_of_get? (here : fields.get? key = some v) : (key, v) ∈ fields := by
  obtain ⟨earlier, later, split, _⟩ := List.lookup_eq_some_iff.mp here
  exact split ▸ List.mem_append_right _ List.mem_cons_self

/-! ### Fields in order -/

theorem insert_of_forall_lt (below : ∀ f ∈ fields, f.1 < k) :
    fields.insert k v = fields ++ [(k, v)] := by
  induction fields with
  | nil => rfl
  | cons f rest ih =>
      obtain ⟨l, u⟩ := f
      have less : l < k := below _ List.mem_cons_self
      rw [insert, if_neg less.asymm, if_neg less.ne', ih fun f member => below f
        (List.mem_cons_of_mem _ member), List.cons_append]

theorem ordered_iff : fields.Ordered ↔ (fields.map Prod.fst).Pairwise (· < ·) := by
  rw [← List.isChain_iff_pairwise]
  induction fields with
  | nil => exact iff_of_true trivial .nil
  | cons f rest ih =>
      cases rest with
      | nil => exact iff_of_true trivial (.singleton _)
      | cons g rest =>
          rw [Ordered, ih, List.map_cons (a := f), List.map_cons, List.isChain_cons_cons]

theorem Ordered.nodup (ordered : fields.Ordered) : (fields.map Prod.fst).Nodup :=
  (ordered_iff.mp ordered).imp fun less => less.ne

/-- The object of fields that are in order already. -/
theorem ofList_of_ordered (ordered : fields.Ordered) : ofList fields = fields := by
  have folded (done : Fields) (rising : ((done ++ fields).map Prod.fst).Pairwise (· < ·)) :
      fields.foldl (fun fields f => Fields.insert f.1 f.2 fields) done = done ++ fields := by
    clear ordered
    induction fields generalizing done with
    | nil => exact (List.append_nil done).symm
    | cons f rest ih =>
        have below : ∀ g ∈ done, g.1 < f.1 := by
          rw [List.map_append, List.pairwise_append] at rising
          exact fun g member => rising.2.2 g.1 (List.mem_map_of_mem member) f.1 (by simp)
        rw [List.foldl_cons, insert_of_forall_lt below, ih _ (by simpa using rising),
          List.append_assoc, List.singleton_append]
  exact folded [] (ordered_iff.mp ordered)

theorem get?_eq_none_of_lt (above : ∀ f ∈ fields, key < f.1) : fields.get? key = none := by
  rw [get?, List.lookup_eq_none_iff]
  intro f member
  exact bne_iff_ne.mpr (above f member).ne

/-- Fields in order are the same list if every key has the same in them, as far as a part of a value
tells. -/
theorem map_eq_of_get? {α : Type} (part : Json → α) (ordered : fields.Ordered)
    (ordered' : fields'.Ordered)
    (same : ∀ key, (fields.get? key).map part = (fields'.get? key).map part) :
    fields.map (fun f => (f.1, part f.2)) = fields'.map fun f => (f.1, part f.2) := by
  rw [ordered_iff, List.pairwise_map] at ordered ordered'
  induction fields generalizing fields' with
  | nil =>
      cases fields' with
      | nil => rfl
      | cons g rest' =>
          have found := same g.1
          rw [get?_cons, if_pos rfl] at found
          cases found
  | cons f rest ih =>
      obtain ⟨k, v⟩ := f
      obtain ⟨above, rising⟩ := List.pairwise_cons.mp ordered
      have first := same k
      rw [get?_cons, if_pos rfl, Option.map_some] at first
      cases fields' with
      | nil => cases first
      | cons g rest' =>
          obtain ⟨k', v'⟩ := g
          obtain ⟨above', rising'⟩ := List.pairwise_cons.mp ordered'
          -- The lesser of two first keys would be missing among the fields after the other.
          have keys : k = k' := by
            rcases lt_trichotomy k k' with less | rfl | less
            · rw [get?_eq_none_of_lt (List.forall_mem_cons.mpr
                ⟨less, fun f member => less.trans (above' f member)⟩)] at first
              cases first
            · rfl
            · have missing := same k'
              rw [get?_eq_none_of_lt (List.forall_mem_cons.mpr
                ⟨less, fun f member => less.trans (above f member)⟩), get?_cons, if_pos rfl]
                at missing
              cases missing
          subst keys
          rw [get?_cons, if_pos rfl, Option.map_some, Option.some.injEq] at first
          have later : ∀ key, (get? rest key).map part = (get? rest' key).map part := by
            intro key
            have both := same key
            rw [get?_cons, get?_cons] at both
            split at both
            next here =>
              rw [here, get?_eq_none_of_lt above, get?_eq_none_of_lt above']
            next => exact both
          rw [List.map_cons, List.map_cons, ih rising rising' later, first]

end JobQueue.Fields
