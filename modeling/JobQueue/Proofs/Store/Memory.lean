/-
The memory store, id by id.

A record is found under its id once it has been put there, and no longer once it has been erased
(`get?_insert`, `get?_erase`). Saves and deletes fail only where no record stands
(`MemoryStore.reliable`).
-/

import JobQueue.Proofs.Store.Shelf
import JobQueue.Store.Memory

namespace JobQueue.MemoryStore

variable {W : Type} {m : MemoryStore} {id other : String} {r : JobRecord}
  {l : List (String × JobRecord)}

theorem lookup_cons {k : String} {rest : List (String × JobRecord)} :
    ((k, r) :: rest).lookup other = if other = k then some r else rest.lookup other := by
  by_cases first : other = k
  · simp [first]
  · have differs : (other == k) = false := beq_false_of_ne first
    rw [List.lookup_cons, differs, if_neg first]

theorem lookup_put (l : List (String × JobRecord)) :
    (put id r l).lookup other = if other = id then some r else l.lookup other := by
  induction l with
  | nil => exact lookup_cons
  | cons entry rest ih =>
      obtain ⟨k, s⟩ := entry
      rw [put]
      split
      next here =>
        rw [lookup_cons, lookup_cons, here]
        split <;> rfl
      next elsewhere =>
        rw [lookup_cons, lookup_cons, ih]
        by_cases first : other = k
        · rw [if_pos first, if_pos first, if_neg fun same => elsewhere (first.symm.trans same)]
        · rw [if_neg first, if_neg first]

theorem lookup_eq_none_iff : l.lookup id = none ↔ id ∉ l.map Prod.fst := by
  rw [List.lookup_eq_none_iff, List.mem_map]
  constructor
  · rintro absent ⟨entry, member, rfl⟩
    simpa using absent entry member
  · intro absent entry member
    exact bne_iff_ne.mpr fun same => absent ⟨entry, member, same.symm⟩

/-- A record that is found under an id stands there. -/
theorem mem_of_get? (found : m.get? id = some r) : (id, r) ∈ m.records := by
  obtain ⟨earlier, later, split, _⟩ := List.lookup_eq_some_iff.mp found
  rw [split]
  exact List.mem_append_right _ List.mem_cons_self

/-- A record put in place of another stands under its id. -/
theorem keys_put (stored : id ∈ l.map Prod.fst) :
    (put id r l).map Prod.fst = l.map Prod.fst := by
  induction l with
  | nil => cases stored
  | cons entry l ih =>
      obtain ⟨key, s⟩ := entry
      rw [put]
      by_cases here : key = id
      · rw [if_pos here, List.map_cons, List.map_cons, here]
      · rw [List.map_cons, List.mem_cons] at stored
        rw [if_neg here, List.map_cons, List.map_cons,
          ih (stored.resolve_left fun same => here same.symm)]

theorem keys_insert {old : JobRecord} (stored : m.get? r.id = some old) :
    (m.insert r).records.map Prod.fst = m.records.map Prod.fst := by
  refine keys_put (Decidable.byContradiction fun absent => ?_)
  have none : m.get? r.id = none := lookup_eq_none_iff.mpr absent
  exact absurd (none.symm.trans stored) (by simp)

/-- A record under a new id comes last. -/
theorem put_of_notMem (absent : id ∉ l.map Prod.fst) :
    put id r l = l ++ [(id, r)] := by
  induction l with
  | nil => rfl
  | cons entry l ih =>
      obtain ⟨key, s⟩ := entry
      rw [List.map_cons, List.mem_cons, not_or] at absent
      rw [put, if_neg fun same => absent.1 same.symm, ih absent.2, List.cons_append]

@[simp] theorem get?_insert :
    (m.insert r).get? other = if other = r.id then some r else m.get? other :=
  lookup_put m.records

@[simp] theorem get?_erase :
    (m.erase id).get? other = if other = id then none else m.get? other := by
  unfold erase get?
  induction m.records with
  | nil => simp
  | cons entry rest ih =>
      obtain ⟨k, s⟩ := entry
      by_cases here : k = id
      · rw [List.filter_cons_of_neg (by simpa using here), ih, lookup_cons, here]
        split <;> rfl
      · rw [List.filter_cons_of_pos (by simpa using here), lookup_cons, ih, lookup_cons]
        by_cases first : other = k
        · rw [if_pos first, if_pos first, if_neg fun same => here (first.symm.trans same)]
        · rw [if_neg first, if_neg first]

/-- The records of a memory store under their ids. -/
def shelf (place : Part W MemoryStore) : Shelf W JobRecord where
  Good := fun _ => True
  cell := fun w id => (place.get w).get? id
  written := fun r _ => r

/-- Saves and deletes of a memory store do what they are asked to, unless no record stands under
the id. -/
theorem reliable {place : Part W MemoryStore} {nature : Part W Nature} (lawful : place.Lawful) :
    (shelf place).Reliable (recordStore place nature) := by
  have saved : ∀ (r : JobRecord) (w : W), (recordStore place nature).save r w =
      ((save r (place.get w)).1.mapError Fault.error, place.set (save r (place.get w)).2 w) :=
    fun _ _ => rfl
  have deleted : ∀ (r : JobRecord) (w : W), (recordStore place nature).delete r w =
      ((delete r (place.get w)).1.mapError Fault.error, place.set (delete r (place.get w)).2 w) :=
    fun _ _ => rfl
  have unchanged : ∀ w, (shelf place).Same w (place.set (place.get w) w) := fun w =>
    ⟨fun _ => trivial, fun id => by simp only [shelf, lawful (place.get w) w]⟩
  refine ⟨⟨fun r w _ => ?_, fun r w _ => ?_⟩, fun r w _ => ?_, fun r w _ => ?_⟩
  · rw [saved]
    cases stored : (place.get w).get? r.id with
    | none =>
        simp only [save, stored]
        exact .failed (unchanged w)
    | some old =>
        simp only [save, stored]
        refine .done stored ?_ ⟨fun _ => trivial, fun other differs => ?_⟩
        · simp [shelf, lawful _ w]
        · simp [shelf, lawful _ w, differs]
  · rw [deleted]
    cases stored : (place.get w).get? r.id with
    | none =>
        simp only [delete, stored]
        exact .failed (unchanged w)
    | some old =>
        simp only [delete, stored]
        refine .done stored ?_ ⟨fun _ => trivial, fun other differs => ?_⟩
        · simp [shelf, lawful _ w]
        · simp [shelf, lawful _ w, differs]
  · rw [saved]
    cases stored : (place.get w).get? r.id <;>
      simp only [save, stored, shelf, Shelf.answer] <;> rfl
  · rw [deleted]
    cases stored : (place.get w).get? r.id <;>
      simp only [delete, stored, shelf, Shelf.answer] <;> rfl

end JobQueue.MemoryStore
