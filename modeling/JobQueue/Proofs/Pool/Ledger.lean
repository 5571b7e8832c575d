/-
The accounts of a batch are sound.

`Ledger.Sound` ties the slots, the queues of open indices and the counter together: an index that
has been tried either waits in exactly one queue with an empty slot or has a filled slot, and the
counter counts the waiting ones. Every operation keeps it (`Sound.sent`, `Sound.refused`,
`Sound.receive`, `Sound.expire`), and none changes a slot that is filled (`Extends`).
-/

import JobQueue.Proofs.Pool.Pending
import Mathlib.Data.List.Basic

namespace JobQueue.Ledger

/-- The accounts of a batch of records with these ids, of which so many have been tried. -/
structure Sound (ids : List String) (tried : Nat) (l : Ledger) : Prop where
  size : l.slots.length = ids.length
  within : tried ≤ ids.length
  /-- No id has two queues. -/
  single : l.pending.ids.Nodup
  count : l.outstanding = l.pending.indices.length
  /-- No index waits twice. -/
  once : l.pending.indices.Nodup
  empty : ∀ i ∈ l.pending.indices, i < tried ∧ l.slots[i]? = some none
  filled : ∀ i < tried, i ∉ l.pending.indices → ∃ result, l.slots[i]? = some (some result)
  untried : ∀ i, tried ≤ i → i < ids.length → l.slots[i]? = some none
  /-- An index waits under the id of its record. -/
  tagged : ∀ id, ∀ i ∈ l.pending.queue id, ids[i]? = some id
  /-- Indices wait in the order of the records. -/
  sorted : ∀ id, (l.pending.queue id).Pairwise (· < ·)

/-- Whether later accounts keep every result of earlier ones. -/
def Extends (l l' : Ledger) : Prop :=
  ∀ (i : Nat) (result : JobResult),
    l.slots[i]? = some (some result) → l'.slots[i]? = some (some result)

theorem Extends.refl (l : Ledger) : l.Extends l := fun _ _ there => there

theorem Extends.trans {l l' l'' : Ledger} (first : l.Extends l') (second : l'.Extends l'') :
    l.Extends l'' :=
  fun i result there => second i result (first i result there)

variable {ids : List String} {tried : Nat} {l : Ledger} {id : String} {i : Nat}
  {result : JobResult} {e : JobError} {pending : Pending}

/-! ### Slots -/

theorem length_fill : (l.fill i result).length = l.slots.length := List.length_set

theorem fill_self (inside : i < l.slots.length) :
    (l.fill i result)[i]? = some (some result) := List.getElem?_set_self inside

theorem fill_other {j : Nat} (other : i ≠ j) : (l.fill i result)[j]? = l.slots[j]? :=
  List.getElem?_set_ne other

/-- Filling an empty slot keeps every result. -/
theorem extends_of_fill {l' : Ledger} (empty : l.slots[i]? = some none)
    (slots : l'.slots = l.fill i result) : l.Extends l' := by
  intro j other there
  have different : i ≠ j := by
    rintro rfl
    rw [empty] at there
    cases there
  rw [slots, fill_other different, there]

/-! ### What each operation keeps -/

theorem sound_start : (start ids.length).Sound ids 0 where
  size := List.length_replicate
  within := Nat.zero_le _
  single := List.nodup_nil
  count := rfl
  once := List.nodup_nil
  empty := by simp [start]
  filled := by simp
  untried := fun i _ inside => by simp [start, inside]
  tagged := by simp [start]
  sorted := by simp [start]

namespace Sound

/-- The slot of an index that waits is there and is empty. -/
theorem empty_of_queue (sound : l.Sound ids tried) (waits : i ∈ l.pending.queue id) :
    i < tried ∧ l.slots[i]? = some none :=
  sound.empty i ((Pending.mem_indices_iff sound.single).mpr ⟨id, waits⟩)

theorem sent (sound : l.Sound ids tried) (tag : ids[tried]? = some id) :
    (l.sent id tried).Sound ids (tried + 1) := by
  have inside : tried < ids.length := (List.getElem?_eq_some_iff.mp tag).1
  have fresh : tried ∉ l.pending.indices := fun waits => Nat.lt_irrefl _ (sound.empty _ waits).1
  have perm : (l.pending.push id tried).indices.Perm (tried :: l.pending.indices) :=
    Pending.perm_indices_push
  have queue : ∀ a, (l.pending.push id tried).queue a =
      if id = a then l.pending.queue id ++ [tried] else l.pending.queue a :=
    fun _ => Pending.queue_push
  exact {
    size := sound.size
    within := inside
    single := Pending.nodup_ids_push sound.single
    count := by simp [Ledger.sent, perm.length_eq, sound.count]
    once := perm.nodup_iff.mpr (List.nodup_cons.mpr ⟨fresh, sound.once⟩)
    empty := by
      intro i waits
      rcases List.mem_cons.mp (perm.mem_iff.mp waits) with rfl | old
      · exact ⟨Nat.lt_succ_self _, sound.untried _ (Nat.le_refl _) inside⟩
      · obtain ⟨before, empty⟩ := sound.empty i old
        exact ⟨Nat.lt_succ_of_lt before, empty⟩
    filled := by
      intro i before waits
      have absent : i ≠ tried ∧ i ∉ l.pending.indices := by
        rw [Ledger.sent, perm.mem_iff, List.mem_cons, not_or] at waits
        exact waits
      exact sound.filled i (by omega) absent.2
    untried := fun i after inside => sound.untried i (Nat.le_of_succ_le after) inside
    tagged := by
      intro a i waits
      rw [Ledger.sent, queue] at waits
      split at waits
      next same =>
        rcases List.mem_append.mp waits with old | new
        · exact same ▸ sound.tagged id i old
        · rw [List.mem_singleton.mp new, tag, same]
      next => exact sound.tagged a i waits
    sorted := by
      intro a
      rw [Ledger.sent, queue]
      split
      next =>
        refine List.pairwise_append.mpr ⟨sound.sorted id, List.pairwise_singleton _ _, ?_⟩
        intro i waits j last
        rw [List.mem_singleton.mp last]
        exact (sound.empty_of_queue waits).1
      next => exact sound.sorted a }

theorem refused (sound : l.Sound ids tried) (inside : tried < ids.length) :
    (l.refused tried e).Sound ids (tried + 1) := by
  have apart : ∀ i ∈ l.pending.indices, tried ≠ i := fun i waits eq =>
    Nat.lt_irrefl i (eq ▸ (sound.empty i waits).1)
  exact {
    size := length_fill.trans sound.size
    within := inside
    single := sound.single
    count := sound.count
    once := sound.once
    empty := by
      intro i waits
      obtain ⟨before, empty⟩ := sound.empty i waits
      exact ⟨Nat.lt_succ_of_lt before, (fill_other (apart i waits)).trans empty⟩
    filled := by
      intro i before notOpen
      by_cases last : tried = i
      · exact ⟨.error e, last ▸ fill_self (by rw [sound.size]; exact inside)⟩
      · obtain ⟨result, there⟩ := sound.filled i (by omega) notOpen
        exact ⟨result, (fill_other last).trans there⟩
    untried := fun i after inside =>
      (fill_other (by omega)).trans (sound.untried i (Nat.le_of_succ_le after) inside)
    tagged := sound.tagged
    sorted := sound.sorted }

/-- Closing the front of a queue with a result keeps the accounts sound. -/
theorem close (sound : l.Sound ids tried) (taken : l.pending.takeFor id = some (i, pending)) :
    Sound ids tried ⟨l.fill i result, pending, l.outstanding - 1⟩ := by
  obtain ⟨front, others, names, perm⟩ := Pending.takeFor_eq_some taken
  have once := perm.nodup_iff.mp sound.once
  have waits : i ∈ l.pending.queue id := by simp [front]
  have before : i < tried := (sound.empty_of_queue waits).1
  have subqueue : ∀ a, (pending.queue a).Sublist (l.pending.queue a) := by
    intro a
    by_cases same : a = id
    · rw [same, front]
      exact List.sublist_cons_self _ _
    · rw [others a same]
  exact {
    size := length_fill.trans sound.size
    within := sound.within
    single := names ▸ sound.single
    count := by
      rw [sound.count, perm.length_eq]
      rfl
    once := (List.nodup_cons.mp once).2
    empty := by
      intro j waits
      have different : i ≠ j := fun eq => (List.nodup_cons.mp once).1 (eq ▸ waits)
      obtain ⟨before, empty⟩ := sound.empty j (perm.mem_iff.mpr (List.mem_cons_of_mem _ waits))
      exact ⟨before, (fill_other different).trans empty⟩
    filled := by
      intro j before notOpen
      by_cases same : i = j
      · have inside : i < l.slots.length := by
          rw [sound.size]
          exact Nat.lt_of_lt_of_le (by omega) sound.within
        exact ⟨result, same ▸ fill_self inside⟩
      · have old : j ∉ l.pending.indices := by
          rw [perm.mem_iff, List.mem_cons, not_or]
          exact ⟨Ne.symm same, notOpen⟩
        obtain ⟨result, there⟩ := sound.filled j before old
        exact ⟨result, (fill_other same).trans there⟩
    untried := fun j after inside =>
      (fill_other (by omega)).trans (sound.untried j after inside)
    tagged := fun a j waits => sound.tagged a j ((subqueue a).subset waits)
    sorted := fun a => (sound.sorted a).sublist (subqueue a) }

/-- The index that is closed has an empty slot. -/
theorem empty_of_takeFor (sound : l.Sound ids tried)
    (taken : l.pending.takeFor id = some (i, pending)) : l.slots[i]? = some none := by
  have waits : i ∈ l.pending.queue id := by simp [(Pending.takeFor_eq_some taken).1]
  exact (sound.empty_of_queue waits).2

theorem receive (sound : l.Sound ids tried) : (l.receive id result).Sound ids tried := by
  unfold Ledger.receive
  split
  next taken => exact sound.close taken
  next => exact sound

/-- While anything is outstanding, a wait that runs out closes an index. -/
theorem takeFirst_of_outstanding (sound : l.Sound ids tried) (waiting : 0 < l.outstanding) :
    ∃ i pending id, l.pending.takeFirst = some (i, pending) ∧
      l.pending.takeFor id = some (i, pending) := by
  cases taken : l.pending.takeFirst with
  | none =>
      rw [Pending.takeFirst_eq_none_iff sound.single] at taken
      simp [sound.count, taken] at waiting
  | some found =>
      obtain ⟨i, pending⟩ := found
      obtain ⟨⟨id, same⟩, _⟩ := Pending.takeFirst_eq_some sound.single taken
      exact ⟨i, pending, id, rfl, same⟩

theorem expire (sound : l.Sound ids tried) : (l.expire e).Sound ids tried := by
  unfold Ledger.expire
  split
  next taken =>
    obtain ⟨⟨_, same⟩, _⟩ := Pending.takeFirst_eq_some sound.single taken
    exact sound.close same
  next none =>
    have empty := (Pending.takeFirst_eq_none_iff sound.single).mp none
    have zero : l.outstanding = 0 := by rw [sound.count, empty]; rfl
    exact { sound with count := by rw [zero, empty]; rfl }

/-! ### What each operation changes -/

theorem extends_refused (sound : l.Sound ids tried) (inside : tried < ids.length) :
    l.Extends (l.refused tried e) :=
  extends_of_fill (sound.untried tried (Nat.le_refl _) inside) rfl

theorem extends_receive (sound : l.Sound ids tried) : l.Extends (l.receive id result) := by
  unfold Ledger.receive
  split
  next taken => exact extends_of_fill (sound.empty_of_takeFor taken) rfl
  next => exact Extends.refl l

theorem extends_expire (sound : l.Sound ids tried) : l.Extends (l.expire e) := by
  unfold Ledger.expire
  split
  next taken =>
    obtain ⟨⟨_, same⟩, _⟩ := Pending.takeFirst_eq_some sound.single taken
    exact extends_of_fill (sound.empty_of_takeFor same) rfl
  next => exact fun _ _ there => there

/-- A report that an index waits for lowers the counter by one. -/
theorem outstanding_receive (sound : l.Sound ids tried)
    (taken : l.pending.takeFor id = some (i, pending)) :
    (l.receive id result).outstanding + 1 = l.outstanding := by
  have perm := (Pending.takeFor_eq_some taken).2.2.2
  have positive : 0 < l.outstanding := by simp [sound.count, perm.length_eq]
  simp only [Ledger.receive, taken]
  omega

theorem outstanding_expire (sound : l.Sound ids tried) (waiting : 0 < l.outstanding) :
    (l.expire e).outstanding + 1 = l.outstanding := by
  obtain ⟨i, pending, _, taken, _⟩ := sound.takeFirst_of_outstanding waiting
  simp only [Ledger.expire, taken]
  omega

/-- A result in a slot after a report was there before, or it is the report's and the slot is one
of the report's id. -/
theorem of_receive {j : Nat} {other : JobResult} (sound : l.Sound ids tried)
    (there : (l.receive id result).slots[j]? = some (some other)) :
    l.slots[j]? = some (some other) ∨ (ids[j]? = some id ∧ other = result) := by
  unfold Ledger.receive at there
  split at there
  next i pending taken =>
    have front := (Pending.takeFor_eq_some taken).1
    by_cases same : i = j
    · have inside : i < l.slots.length :=
        (List.getElem?_eq_some_iff.mp (sound.empty_of_takeFor taken)).1
      have tag := sound.tagged id i (by simp [front])
      rw [← same, fill_self inside, Option.some.injEq, Option.some.injEq] at there
      exact Or.inr ⟨same ▸ tag, there.symm⟩
    · rw [fill_other same] at there
      exact Or.inl there
  next => exact Or.inl there

/-- A result in a slot after a wait ran out was there before, or it is the error charged. -/
theorem of_expire {j : Nat} {other : JobResult} (sound : l.Sound ids tried)
    (there : (l.expire e).slots[j]? = some (some other)) :
    l.slots[j]? = some (some other) ∨ other = .error e := by
  unfold Ledger.expire at there
  split at there
  next i pending taken =>
    obtain ⟨⟨_, found⟩, _⟩ := Pending.takeFirst_eq_some sound.single taken
    by_cases same : i = j
    · have inside : i < l.slots.length :=
        (List.getElem?_eq_some_iff.mp (sound.empty_of_takeFor found)).1
      rw [← same, fill_self inside, Option.some.injEq, Option.some.injEq] at there
      exact Or.inr there.symm
    · rw [fill_other same] at there
      exact Or.inl there
  next => exact Or.inl there

end Sound

/-! ### The results -/

theorem length_finish : (l.finish e).length = l.slots.length := List.length_map _

/-- A filled slot is handed out as it is. -/
theorem getElem?_finish (there : l.slots[i]? = some (some result)) :
    (l.finish e)[i]? = some result := by
  simp [finish, there]

/-- Once nothing is outstanding and every record has been tried, every slot is filled. -/
theorem Sound.filled_of_settled (sound : l.Sound ids ids.length) (settled : l.outstanding = 0)
    (inside : i < ids.length) : ∃ result, l.slots[i]? = some (some result) := by
  have empty : l.pending.indices = [] := List.length_eq_zero_iff.mp (sound.count.symm.trans settled)
  exact sound.filled i inside (by simp [empty])

/-- Then it does not matter what empty slots would get. -/
theorem Sound.finish_eq (sound : l.Sound ids ids.length) (settled : l.outstanding = 0)
    (e e' : JobError) : l.finish e = l.finish e' := by
  apply List.map_congr_left
  intro slot member
  obtain ⟨i, inside, rfl⟩ := List.getElem_of_mem member
  obtain ⟨result, there⟩ := sound.filled_of_settled settled (sound.size ▸ inside)
  rw [List.getElem?_eq_getElem inside, Option.some.injEq] at there
  rw [there]
  rfl

end JobQueue.Ledger
