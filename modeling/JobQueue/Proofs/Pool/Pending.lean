/-
The queues of open indices.

`Pending` is read as a map from ids to queues (`Pending.queue`). What each operation does is said
on that map, on the list of ids, and on the multiset of all open indices: opening an index adds
it at the end of its id's queue (`queue_push`), and both ways of closing one take the front of one
queue and leave the others (`takeFor_eq_some`, `takeFirst_eq_some`). The index that `takeFirst`
closes is the least front of all.
-/

import JobQueue.Pool.Ledger
import Mathlib.Data.List.Perm.Basic
import Mathlib.Data.List.Nodup

namespace JobQueue.Pending

/-- The open indices that wait for an id, in their order. -/
def queue (id : String) : Pending → List Nat
  | [] => []
  | (k, indices) :: rest => if k = id then indices else queue id rest

/-- The ids that have a queue. -/
def ids (p : Pending) : List String := p.map Prod.fst

variable {p p' : Pending} {a id : String} {i : Nat}

@[simp] theorem queue_nil : queue id [] = [] := rfl

@[simp] theorem indices_nil : indices [] = [] := rfl

@[simp] theorem ids_nil : ids [] = [] := rfl

theorem queue_cons (entry : String × List Nat) (rest : Pending) :
    queue id (entry :: rest) = if entry.1 = id then entry.2 else queue id rest := rfl

theorem indices_cons (entry : String × List Nat) (rest : Pending) :
    indices (entry :: rest) = entry.2 ++ indices rest := List.flatMap_cons

theorem ids_cons (entry : String × List Nat) (rest : Pending) :
    ids (entry :: rest) = entry.1 :: ids rest := rfl

theorem queue_eq_nil_of_notMem (absent : id ∉ p.ids) : p.queue id = [] := by
  induction p with
  | nil => rfl
  | cons entry rest ih =>
      rw [ids_cons, List.mem_cons, not_or] at absent
      rw [queue_cons, if_neg (Ne.symm absent.1), ih absent.2]

/-- Where each id has one queue, an index is open exactly if it waits for some id. -/
theorem mem_indices_iff (nodup : p.ids.Nodup) : i ∈ p.indices ↔ ∃ id, i ∈ p.queue id := by
  induction p with
  | nil => simp
  | cons entry rest ih =>
      rw [ids_cons, List.nodup_cons] at nodup
      rw [indices_cons, List.mem_append, ih nodup.2]
      constructor
      · rintro (here | ⟨id, there⟩)
        · exact ⟨entry.1, by simpa [queue_cons] using here⟩
        · refine ⟨id, ?_⟩
          have other : entry.1 ≠ id := by
            rintro rfl
            simp [queue_eq_nil_of_notMem nodup.1] at there
          simpa [queue_cons, other] using there
      · rintro ⟨id, waits⟩
        rw [queue_cons] at waits
        split at waits
        · exact Or.inl waits
        · exact Or.inr ⟨id, waits⟩

/-! ### Opening an index -/

theorem queue_push : (p.push id i).queue a = if id = a then p.queue id ++ [i] else p.queue a := by
  induction p with
  | nil => rfl
  | cons entry rest ih =>
      obtain ⟨k, indices⟩ := entry
      by_cases same : k = id
      · subst same
        by_cases asked : k = a <;> simp [push, queue_cons, asked]
      · by_cases asked : id = a
        · subst asked
          simpa [push, queue_cons, same] using ih
        · simp [push, queue_cons, same, asked, ih]

theorem ids_push : (p.push id i).ids = if id ∈ p.ids then p.ids else p.ids ++ [id] := by
  induction p with
  | nil => rfl
  | cons entry rest ih =>
      obtain ⟨k, indices⟩ := entry
      by_cases same : k = id
      · simp [push, same, ids_cons]
      · simp only [push, same, if_false, ids_cons, ih, List.mem_cons, Ne.symm same, false_or]
        split <;> rfl

theorem nodup_ids_push (nodup : p.ids.Nodup) : (p.push id i).ids.Nodup := by
  rw [ids_push]
  split
  next => exact nodup
  next absent => exact nodup.append (List.nodup_singleton id) (by simpa using absent)

theorem perm_indices_push : (p.push id i).indices.Perm (i :: p.indices) := by
  induction p with
  | nil => exact List.Perm.refl [i]
  | cons entry rest ih =>
      obtain ⟨k, indices⟩ := entry
      by_cases same : k = id
      · simp only [push, same, if_true, indices_cons, List.append_assoc, List.singleton_append]
        exact List.perm_middle
      · simp only [push, same, if_false, indices_cons]
        exact (ih.append_left indices).trans List.perm_middle

/-! ### Closing an index -/

theorem takeFor_eq_none_iff : p.takeFor id = none ↔ p.queue id = [] := by
  induction p with
  | nil => simp [takeFor]
  | cons entry rest ih =>
      obtain ⟨k, indices⟩ := entry
      by_cases same : k = id
      · cases indices <;> simp [takeFor, queue_cons, same]
      · simp [takeFor, queue_cons, same, ih]

/-- Closing an index for an id takes the front of that id's queue and nothing else. -/
theorem takeFor_eq_some (taken : p.takeFor id = some (i, p')) :
    p.queue id = i :: p'.queue id ∧ (∀ a, a ≠ id → p'.queue a = p.queue a) ∧ p'.ids = p.ids ∧
      p.indices.Perm (i :: p'.indices) := by
  induction p generalizing p' with
  | nil => simp [takeFor] at taken
  | cons entry rest ih =>
      obtain ⟨k, indices⟩ := entry
      by_cases same : k = id
      · subst same
        cases indices with
        | nil => simp [takeFor] at taken
        | cons first more =>
            simp only [takeFor, if_true, Option.some.injEq, Prod.mk.injEq] at taken
            obtain ⟨rfl, rfl⟩ := taken
            refine ⟨by simp [queue_cons], ?_, rfl, List.Perm.refl _⟩
            intro a other
            simp [queue_cons, Ne.symm other]
      · simp only [takeFor, same, if_false, Option.map_eq_some_iff, Prod.mk.injEq] at taken
        obtain ⟨⟨index, rest'⟩, found, rfl, rfl⟩ := taken
        obtain ⟨front, others, names, perm⟩ := ih found
        refine ⟨by simpa [queue_cons, same] using front, ?_, ?_, ?_⟩
        · intro a other
          simp [queue_cons, others a other]
        · rw [ids_cons, ids_cons, names]
        · rw [indices_cons, indices_cons]
          exact (perm.append_left indices).trans List.perm_middle

theorem leastFront_eq_none_iff : p.leastFront = none ↔ p.indices = [] := by
  induction p with
  | nil => simp [leastFront]
  | cons entry rest ih =>
      obtain ⟨k, indices⟩ := entry
      cases indices with
      | nil => simp [leastFront, indices_cons, ih]
      | cons first more =>
          simp only [leastFront, indices_cons, List.cons_append, reduceCtorEq, iff_false]
          split
          · split <;> simp
          · simp

/-- The least front is the front of its id's queue, and no queue has a lesser front. -/
theorem leastFront_eq_some (nodup : p.ids.Nodup) (found : p.leastFront = some (id, i)) :
    id ∈ p.ids ∧ (∃ more, p.queue id = i :: more) ∧
      ∀ a j more, p.queue a = j :: more → i ≤ j := by
  induction p generalizing id i with
  | nil => simp [leastFront] at found
  | cons entry rest ih =>
      obtain ⟨k, indices⟩ := entry
      rw [ids_cons, List.nodup_cons] at nodup
      have apart : ∀ {l}, l ∈ ids rest → k ≠ l := fun there eq => nodup.1 (eq ▸ there)
      cases indices with
      | nil =>
          obtain ⟨there, ⟨more, front⟩, least⟩ := ih nodup.2 found
          refine ⟨List.mem_cons_of_mem _ there, ⟨more, ?_⟩, fun a j more' at_a => ?_⟩
          · simpa [queue_cons, apart there] using front
          · rw [queue_cons] at at_a
            split at at_a
            · simp at at_a
            · exact least a j more' at_a
      | cons first more =>
          cases later : leastFront rest with
          | none =>
              simp only [leastFront, later, Option.some.injEq, Prod.mk.injEq] at found
              obtain ⟨rfl, rfl⟩ := found
              have empty := leastFront_eq_none_iff.mp later
              refine ⟨List.mem_cons_self, ⟨more, by simp [queue_cons]⟩, ?_⟩
              intro a j more' at_a
              rw [queue_cons] at at_a
              split at at_a
              · simp only [List.cons.injEq] at at_a
                exact Nat.le_of_eq at_a.1
              · have waits : j ∈ indices rest :=
                  (mem_indices_iff nodup.2).mpr ⟨a, by simp [at_a]⟩
                simp [empty] at waits
          | some best =>
              obtain ⟨l, other⟩ := best
              obtain ⟨there, ⟨more', front⟩, least⟩ := ih nodup.2 later
              simp only [leastFront, later] at found
              split at found
              next less =>
                simp only [Option.some.injEq, Prod.mk.injEq] at found
                obtain ⟨rfl, rfl⟩ := found
                refine ⟨List.mem_cons_of_mem _ there, ⟨more', ?_⟩, fun a j more'' at_a => ?_⟩
                · simpa [queue_cons, apart there] using front
                · rw [queue_cons] at at_a
                  split at at_a
                  · simp only [List.cons.injEq] at at_a
                    omega
                  · exact least a j more'' at_a
              next notLess =>
                simp only [Option.some.injEq, Prod.mk.injEq] at found
                obtain ⟨rfl, rfl⟩ := found
                refine ⟨List.mem_cons_self, ⟨more, by simp [queue_cons]⟩, ?_⟩
                intro a j more'' at_a
                rw [queue_cons] at at_a
                split at at_a
                · simp only [List.cons.injEq] at at_a
                  exact Nat.le_of_eq at_a.1
                · have := least a j more'' at_a
                  omega

theorem takeFirst_eq_none_iff (nodup : p.ids.Nodup) : p.takeFirst = none ↔ p.indices = [] := by
  rw [← leastFront_eq_none_iff]
  cases found : leastFront p with
  | none => simp [takeFirst, found]
  | some best =>
      obtain ⟨id, i⟩ := best
      obtain ⟨_, ⟨more, front⟩, _⟩ := leastFront_eq_some nodup found
      simp [takeFirst, found, takeFor_eq_none_iff, front]

/-- Closing the first index of all closes the front of some id's queue, and no queue has a lesser
front. -/
theorem takeFirst_eq_some (nodup : p.ids.Nodup) (taken : p.takeFirst = some (i, p')) :
    (∃ id, p.takeFor id = some (i, p')) ∧ ∀ a j more, p.queue a = j :: more → i ≤ j := by
  cases found : leastFront p with
  | none => simp [takeFirst, found] at taken
  | some best =>
      obtain ⟨id, least⟩ := best
      obtain ⟨_, ⟨more, front⟩, minimal⟩ := leastFront_eq_some nodup found
      simp only [takeFirst, found] at taken
      have same := (takeFor_eq_some taken).1
      rw [front, List.cons.injEq] at same
      exact ⟨⟨id, taken⟩, same.1 ▸ minimal⟩

end JobQueue.Pending
