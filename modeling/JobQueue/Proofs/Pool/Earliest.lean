/-
The earliest open index.

The queues of a batch are a map, and which queue of a map comes first is nobody's choice. While
they are tidy (`Pending.Tidy`), the index that a wait which runs out closes is the least of all
open ones and nothing else is closed, whichever queue comes first
(`Pending.takeFirst_eq_some_iff`), and accounts that differ in the order of their queues only
stay so (`Ledger.Alike`). Once all records have been tried, what is open are the empty slots, so
one wait after another fills them from the first one on (`Accounts.Going.timeouts`).
-/

import JobQueue.Proofs.Pool.Accounts
import Mathlib.Order.Bounds.Basic

namespace JobQueue

namespace Pending

/-- Each id has one queue, which may be empty; indices wait in increasing order, and none waits in
two queues. -/
structure Tidy (p : Pending) : Prop where
  single : p.ids.Nodup
  sorted : ∀ entry ∈ p, entry.2.Pairwise (· < ·)
  apart : p.Pairwise fun a b => a.2.Disjoint b.2

/-- The queues without an index. -/
def without (i : Nat) (p : Pending) : Pending := p.map fun entry => (entry.1, entry.2.erase i)

variable {p p' order : Pending} {id : String} {i : Nat}

/-! ### Queues as a map -/

theorem queue_of_mem (single : p.ids.Nodup) {entry : String × List Nat} (there : entry ∈ p) :
    p.queue entry.1 = entry.2 := by
  induction p with
  | nil => cases there
  | cons first rest ih =>
      rw [ids_cons, List.nodup_cons] at single
      rcases List.mem_cons.mp there with rfl | later
      · simp [queue_cons]
      · have other : first.1 ≠ entry.1 := fun same =>
          single.1 (same ▸ List.mem_map_of_mem later)
        rw [queue_cons, if_neg other]
        exact ih single.2 later

theorem mem_of_queue (named : id ∈ p.ids) : (id, p.queue id) ∈ p := by
  induction p with
  | nil => cases named
  | cons first rest ih =>
      rw [queue_cons]
      split
      next same => exact same ▸ List.mem_cons_self
      next other =>
        rw [ids_cons, List.mem_cons] at named
        exact List.mem_cons_of_mem _ (ih (named.resolve_left (Ne.symm other)))

theorem mem_iff (single : p.ids.Nodup) {entry : String × List Nat} :
    entry ∈ p ↔ entry.1 ∈ p.ids ∧ p.queue entry.1 = entry.2 := by
  constructor
  · exact fun there => ⟨List.mem_map_of_mem there, queue_of_mem single there⟩
  · rintro ⟨named, same⟩
    exact (Prod.ext rfl same : (entry.1, p.queue entry.1) = entry) ▸ mem_of_queue named

/-- The same queues in another order: the same ids, each with the same queue. -/
theorem perm_iff (single : p.ids.Nodup) (single' : p'.ids.Nodup) :
    p'.Perm p ↔ (∀ id, id ∈ p'.ids ↔ id ∈ p.ids) ∧ ∀ id, p'.queue id = p.queue id := by
  rw [List.perm_ext_iff_of_nodup (.of_map _ single') (.of_map _ single)]
  constructor
  · intro same
    have names : ∀ id, id ∈ p'.ids ↔ id ∈ p.ids := by
      intro id
      simp only [ids, List.mem_map, same]
    refine ⟨names, fun id => ?_⟩
    by_cases named : id ∈ p'.ids
    · exact (queue_of_mem single ((same _).mp (mem_of_queue named))).symm
    · rw [queue_eq_nil_of_notMem named, queue_eq_nil_of_notMem (mt (names id).mpr named)]
  · rintro ⟨names, queues⟩ entry
    rw [mem_iff single, mem_iff single', names, queues]

theorem Tidy.of_perm (tidy : p.Tidy) (perm : order.Perm p) : order.Tidy where
  single := (perm.map _).nodup_iff.mpr tidy.single
  sorted := fun entry there => tidy.sorted entry (perm.subset there)
  apart := (perm.pairwise_iff List.disjoint_symm).mpr tidy.apart

theorem Tidy.once (tidy : p.Tidy) : p.indices.Nodup := by
  rw [indices, List.nodup_flatMap]
  exact ⟨fun entry there => (tidy.sorted entry there).imp Nat.ne_of_lt, tidy.apart⟩

/-! ### The least open index -/

theorem without_of_notMem (absent : i ∉ p.indices) : p.without i = p := by
  induction p with
  | nil => rfl
  | cons first rest ih =>
      rw [indices_cons, List.mem_append, not_or] at absent
      have kept : (first.1, first.2.erase i) = first :=
        Prod.ext rfl (List.erase_of_not_mem absent.1)
      rw [without, List.map_cons, kept]
      exact congrArg (first :: ·) (ih absent.2)

/-- Closing an index for an id leaves the queues without that index. -/
theorem takeFor_eq_without (once : p.indices.Nodup) (taken : p.takeFor id = some (i, p')) :
    p' = p.without i := by
  induction p generalizing p' with
  | nil => simp [takeFor] at taken
  | cons first rest ih =>
      obtain ⟨k, waiting⟩ := first
      rw [indices_cons, List.nodup_append] at once
      obtain ⟨_, onceLater, apart⟩ := once
      by_cases same : k = id
      · cases waiting with
        | nil => simp [takeFor, same] at taken
        | cons front more =>
            simp only [takeFor, same, if_true, Option.some.injEq, Prod.mk.injEq] at taken
            obtain ⟨rfl, rfl⟩ := taken
            have absent : front ∉ indices rest := fun there =>
              apart front List.mem_cons_self front there rfl
            have kept : without front rest = rest := without_of_notMem absent
            simp only [without] at kept
            simp [without, same, kept]
      · simp only [takeFor, same, if_false, Option.map_eq_some_iff, Prod.mk.injEq] at taken
        obtain ⟨⟨index, rest'⟩, found, rfl, rfl⟩ := taken
        have there : index ∈ indices rest :=
          (takeFor_eq_some found).2.2.2.mem_iff.mpr List.mem_cons_self
        have absent : index ∉ waiting := fun here => apart index here index there rfl
        rw [ih onceLater found]
        simp [without, List.erase_of_not_mem absent]

/-- In tidy queues the least front is the least of all open indices. -/
theorem Tidy.isLeast_of_takeFirst (tidy : p.Tidy) (taken : p.takeFirst = some (i, p')) :
    IsLeast {j | j ∈ p.indices} i ∧ p' = p.without i := by
  obtain ⟨⟨id, closed⟩, fronts⟩ := takeFirst_eq_some tidy.single taken
  refine ⟨⟨?_, fun j waits => ?_⟩, takeFor_eq_without tidy.once closed⟩
  · exact (takeFor_eq_some closed).2.2.2.mem_iff.mpr List.mem_cons_self
  · obtain ⟨a, waits⟩ := (mem_indices_iff tidy.single).mp waits
    cases queued : p.queue a with
    | nil => simp [queued] at waits
    | cons front more =>
        have first := fronts a front more queued
        rw [queued] at waits
        have named : a ∈ p.ids := by
          by_contra absent
          simp [queue_eq_nil_of_notMem absent] at queued
        have sorted := tidy.sorted _ (mem_of_queue named)
        simp only [queued] at sorted
        rcases List.mem_cons.mp waits with rfl | behind
        · exact first
        · exact Nat.le_of_lt (Nat.lt_of_le_of_lt first (List.rel_of_pairwise_cons sorted behind))

/-- From tidy queues nothing is taken exactly if all are empty. -/
theorem Tidy.takeFirst_eq_none_iff (tidy : p.Tidy) :
    p.takeFirst = none ↔ ∀ entry ∈ p, entry.2 = [] := by
  rw [Pending.takeFirst_eq_none_iff tidy.single, indices, List.flatMap_eq_nil_iff]

/-- From tidy queues the least open index is taken, and no other. -/
theorem Tidy.takeFirst_eq_some_iff (tidy : p.Tidy) :
    p.takeFirst = some (i, p') ↔ IsLeast {j | j ∈ p.indices} i ∧ p' = p.without i := by
  refine ⟨tidy.isLeast_of_takeFirst, ?_⟩
  rintro ⟨least, rfl⟩
  cases taken : p.takeFirst with
  | none =>
      rw [Pending.takeFirst_eq_none_iff tidy.single] at taken
      exact absurd least.1 (by simp [taken])
  | some found =>
      obtain ⟨j, rest⟩ := found
      obtain ⟨least', rfl⟩ := tidy.isLeast_of_takeFirst taken
      rw [least.unique least']

/-- Of several fronts the least is taken, and an empty queue stays. -/
example : takeFirst [("b", [4]), ("a", [2, 7]), ("c", [])] =
    some (2, [("b", [4]), ("a", [7]), ("c", [])]) := by decide

/-! ### Queues in another order -/

theorem perm_indices (perm : order.Perm p) : order.indices.Perm p.indices :=
  perm.flatMap_right Prod.snd

theorem isLeast_perm (perm : order.Perm p) :
    IsLeast {j | j ∈ order.indices} i ↔ IsLeast {j | j ∈ p.indices} i := by
  simp only [(perm_indices perm).mem_iff]

theorem perm_push (single : p.ids.Nodup) (perm : order.Perm p) :
    (order.push id i).Perm (p.push id i) := by
  have single' : order.ids.Nodup := (perm.map _).nodup_iff.mpr single
  obtain ⟨names, queues⟩ := (perm_iff single single').mp perm
  refine (perm_iff (nodup_ids_push single) (nodup_ids_push single')).mpr ⟨fun a => ?_, fun a => ?_⟩
  · rw [ids_push, ids_push]
    simp only [names]
    split
    · exact names a
    · simp [names]
  · rw [queue_push, queue_push, queues, queues]

/-- Whichever queue comes first, the same index is closed for an id, and the same are left. -/
theorem perm_takeFor (single : p.ids.Nodup) (perm : order.Perm p)
    (taken : p.takeFor id = some (i, p')) :
    ∃ order', order.takeFor id = some (i, order') ∧ order'.Perm p' := by
  have single' : order.ids.Nodup := (perm.map _).nodup_iff.mpr single
  obtain ⟨names, queues⟩ := (perm_iff single single').mp perm
  obtain ⟨front, others, kept, _⟩ := takeFor_eq_some taken
  cases taken' : order.takeFor id with
  | none =>
      rw [takeFor_eq_none_iff, queues, front] at taken'
      cases taken'
  | some found =>
      obtain ⟨j, order'⟩ := found
      obtain ⟨front', others', kept', _⟩ := takeFor_eq_some taken'
      rw [queues, front, List.cons.injEq] at front'
      obtain ⟨rfl, tails⟩ := front'
      refine ⟨order', rfl, (perm_iff (kept ▸ single) (kept' ▸ single')).mpr ⟨?_, fun a => ?_⟩⟩
      · rw [kept, kept']
        exact names
      · by_cases same : a = id
        · rw [same, tails]
        · rw [others' a same, others a same, queues]

end Pending

namespace Ledger

variable {ids : List String} {tried i n : Nat} {l l' l'' : Ledger} {id : String} {r : JobResult}
  {e : JobError} {slots : List (Option JobResult)}

/-! ### Accounts whose queues stand in another order -/

/-- The same accounts, but for the order of their queues. -/
structure Alike (l l' : Ledger) : Prop where
  slots : l'.slots = l.slots
  pending : l'.pending.Perm l.pending
  outstanding : l'.outstanding = l.outstanding

theorem Alike.refl (l : Ledger) : l.Alike l := ⟨rfl, .refl _, rfl⟩

theorem Alike.trans (first : l.Alike l') (second : l'.Alike l'') : l.Alike l'' where
  slots := second.slots.trans first.slots
  pending := second.pending.trans first.pending
  outstanding := second.outstanding.trans first.outstanding

theorem Alike.fill_eq (alike : l.Alike l') : l'.fill i r = l.fill i r := by
  rw [fill, fill, alike.slots]

theorem Alike.finish_eq (alike : l.Alike l') : l'.finish e = l.finish e := by
  rw [finish, finish, alike.slots]

theorem Alike.sent (alike : l.Alike l') (single : l.pending.ids.Nodup) :
    (l.sent id i).Alike (l'.sent id i) where
  slots := alike.slots
  pending := Pending.perm_push single alike.pending
  outstanding := congrArg (· + 1) alike.outstanding

theorem Alike.refused (alike : l.Alike l') : (l.refused i e).Alike (l'.refused i e) where
  slots := alike.fill_eq
  pending := alike.pending
  outstanding := alike.outstanding

theorem Alike.receive (alike : l.Alike l') (single : l.pending.ids.Nodup) :
    (l.receive id r).Alike (l'.receive id r) := by
  unfold Ledger.receive
  cases taken : l.pending.takeFor id with
  | none =>
      have single' : l'.pending.ids.Nodup := (alike.pending.map _).nodup_iff.mpr single
      have queues := ((Pending.perm_iff single single').mp alike.pending).2
      have none : l'.pending.takeFor id = none := by
        rw [Pending.takeFor_eq_none_iff, queues, ← Pending.takeFor_eq_none_iff, taken]
      rw [none]
      exact alike
  | some found =>
      obtain ⟨order', taken', perm⟩ := Pending.perm_takeFor single alike.pending taken
      rw [taken']
      exact ⟨alike.fill_eq, perm, congrArg (· - 1) alike.outstanding⟩

/-- Whichever queue comes first, a wait that runs out is charged to the least open index. -/
theorem Alike.expire_eq (alike : l.Alike l') (tidy : l.pending.Tidy)
    (least : IsLeast {j | j ∈ l.pending.indices} i) :
    l'.pending.takeFirst = some (i, l'.pending.without i) ∧
      l'.expire e = ⟨l.fill i (.error e), l'.pending.without i, l.outstanding - 1⟩ := by
  have least' := (Pending.isLeast_perm alike.pending).mpr least
  have taken := (tidy.of_perm alike.pending).takeFirst_eq_some_iff.mpr ⟨least', rfl⟩
  refine ⟨taken, ?_⟩
  rw [Ledger.expire, taken]
  dsimp only
  rw [alike.fill_eq, alike.outstanding]

theorem Alike.expire (alike : l.Alike l') (tidy : l.pending.Tidy) :
    (l.expire e).Alike (l'.expire e) := by
  cases taken : l.pending.takeFirst with
  | none =>
      have none : l'.pending.takeFirst = none := by
        rw [(tidy.of_perm alike.pending).takeFirst_eq_none_iff]
        exact fun entry there =>
          tidy.takeFirst_eq_none_iff.mp taken entry (alike.pending.subset there)
      rw [Ledger.expire, Ledger.expire, taken, none]
      exact ⟨alike.slots, alike.pending, congrArg (· - 1) alike.outstanding⟩
  | some found =>
      have least := (tidy.isLeast_of_takeFirst taken).1
      rw [((Alike.refl l).expire_eq tidy least).2, (alike.expire_eq tidy least).2]
      exact ⟨rfl, alike.pending.map _, rfl⟩

/-! ### The earliest empty slot -/

/-- The slot is empty and all before it are filled. -/
def IsEarliest (l : Ledger) (i : Nat) : Prop :=
  l.slots[i]? = some none ∧ ∀ j < i, ∃ result, l.slots[j]? = some (some result)

/-- The slots once so many of the empty ones are filled, from the first on. -/
def fillEarliest (r : JobResult) : Nat → List (Option JobResult) → List (Option JobResult)
  | 0, slots => slots
  | _ + 1, [] => []
  | n + 1, none :: rest => some r :: fillEarliest r n rest
  | n + 1, some r' :: rest => some r' :: fillEarliest r (n + 1) rest

@[simp] theorem fillEarliest_zero : fillEarliest r 0 slots = slots := by
  cases slots <;> rfl

@[simp] theorem fillEarliest_nil : fillEarliest r n [] = [] := by
  cases n <;> rfl

@[simp] theorem fillEarliest_some {r' : JobResult} :
    fillEarliest r n (some r' :: slots) = some r' :: fillEarliest r n slots := by
  cases n with
  | zero => simp
  | succ n => rfl

theorem Alike.isEarliest_iff (alike : l.Alike l') : l'.IsEarliest i ↔ l.IsEarliest i := by
  rw [IsEarliest, IsEarliest, alike.slots]

theorem fillEarliest_fillEarliest {m : Nat} :
    fillEarliest r m (fillEarliest r n slots) = fillEarliest r (n + m) slots := by
  induction slots generalizing n with
  | nil => simp
  | cons slot rest ih =>
      cases slot with
      | some r' => simp [ih]
      | none =>
          cases n with
          | zero => simp
          | succ n =>
              rw [Nat.succ_add]
              simp [fillEarliest, ih]

/-- Filling the earliest empty slot. -/
theorem fillEarliest_one (empty : slots[i]? = some none)
    (filled : ∀ j < i, ∃ result, slots[j]? = some (some result)) :
    fillEarliest r 1 slots = slots.set i (some r) := by
  induction slots generalizing i with
  | nil => simp at empty
  | cons slot rest ih =>
      cases i with
      | zero =>
          obtain rfl : slot = none := by simpa using empty
          simp [fillEarliest]
      | succ i =>
          obtain ⟨r', first⟩ := filled 0 (Nat.succ_pos i)
          obtain rfl : slot = some r' := by simpa using first
          rw [fillEarliest_some, List.set_cons_succ, ih (by simpa using empty)]
          exact fun j before => by simpa using filled (j + 1) (Nat.succ_lt_succ before)

theorem map_getD_fillEarliest :
    (fillEarliest r n slots).map (fun slot => slot.getD r) =
      slots.map fun slot => slot.getD r := by
  induction slots generalizing n with
  | nil => simp
  | cons slot rest ih =>
      cases slot with
      | some r' => simp [ih]
      | none =>
          cases n with
          | zero => simp
          | succ n => simp [fillEarliest, ih]

/-- What all empty slots get at the end, some of them may be given before. -/
theorem finish_of_fillEarliest (same : l'.slots = fillEarliest (.error e) n l.slots) :
    l'.finish e = l.finish e := by
  rw [finish, finish, same, map_getD_fillEarliest]

namespace Sound

theorem tidy (sound : l.Sound ids tried) : l.pending.Tidy where
  single := sound.single
  sorted := fun entry there =>
    Pending.queue_of_mem sound.single there ▸ sound.sorted entry.1
  apart := (List.nodup_flatMap.mp sound.once).2

/-- Once all records have been tried, the least open index is the earliest empty slot. -/
theorem isLeast_iff (sound : l.Sound ids ids.length) :
    IsLeast {j | j ∈ l.pending.indices} i ↔ l.IsEarliest i := by
  have inside : ∀ j, l.slots[j]? = some none → j ∈ l.pending.indices := by
    intro j empty
    by_contra closed
    have within : j < ids.length := sound.size ▸ (List.getElem?_eq_some_iff.mp empty).1
    obtain ⟨result, there⟩ := sound.filled j within closed
    cases empty.symm.trans there
  constructor
  · rintro ⟨waits, least⟩
    obtain ⟨tried, empty⟩ := sound.empty i waits
    refine ⟨empty, fun j before => sound.filled j (before.trans tried) fun waits' => ?_⟩
    exact Nat.not_lt.mpr (least waits') before
  · rintro ⟨empty, filled⟩
    refine ⟨inside i empty, fun j waits => Nat.le_of_not_lt fun before => ?_⟩
    obtain ⟨result, there⟩ := filled j before
    cases (sound.empty j waits).2.symm.trans there

/-- While anything is outstanding there is a least open index. -/
theorem exists_least (sound : l.Sound ids tried) (waiting : 0 < l.outstanding) :
    ∃ i, IsLeast {j | j ∈ l.pending.indices} i := by
  obtain ⟨i, pending, _, taken, _⟩ := sound.takeFirst_of_outstanding waiting
  exact ⟨i, (sound.tidy.isLeast_of_takeFirst taken).1⟩

/-- A wait that runs out fills the earliest empty slot. -/
theorem slots_expire (sound : l.Sound ids ids.length) (waiting : 0 < l.outstanding) :
    (l.expire e).slots = fillEarliest (.error e) 1 l.slots := by
  obtain ⟨i, least⟩ := sound.exists_least waiting
  obtain ⟨empty, filled⟩ := sound.isLeast_iff.mp least
  rw [((Alike.refl l).expire_eq sound.tidy least).2, fillEarliest_one empty filled]
  rfl

end Sound

end Ledger

namespace Accounts

variable {s : Submission} {number n : Nat} {timer : Timer} {missing : JobError}
  {happenings : List Happening} {a a' : Accounts}

/-- The accounts of a batch whose records have all been tried. -/
theorem Going.sound_of_sentAll (going : Going s number timer missing happenings a)
    (sentAll : a.batch.unsent = []) :
    a.batch.ledger.Sound (s.records.map JobRecord.id) (s.records.map JobRecord.id).length := by
  have sound := going.sound
  rwa [sentAll, List.length_nil, Nat.sub_zero, ← List.length_map (f := JobRecord.id)] at sound

/-- One wait after another that runs out fills the empty slots, from the first on. -/
theorem Going.timeouts (going : Going s number timer missing happenings a)
    (sentAll : a.batch.unsent = []) (isOpen : a.isClosed = false)
    (happens : a.meetAll (List.replicate n .timeout) = some a') :
    a'.batch.unsent = [] ∧ a'.isClosed = false ∧
      a'.batch.ledger.outstanding + n = a.batch.ledger.outstanding ∧
      a'.batch.ledger.slots =
        Ledger.fillEarliest (.error missing) n a.batch.ledger.slots := by
  induction n generalizing a happenings with
  | zero =>
      cases happens
      exact ⟨sentAll, isOpen, rfl, by simp⟩
  | succ n ih =>
      rw [List.replicate_succ, Accounts.meetAll, Option.bind_eq_some_iff] at happens
      obtain ⟨middle, first, later⟩ := happens
      have next := (going.timeout first).1
      rw [Accounts.meet] at first
      split at first
      next collecting =>
        cases first
        obtain ⟨_, waiting, _⟩ := isCollecting_iff.mp collecting
        have sound := going.sound_of_sentAll sentAll
        obtain ⟨sentAll', isOpen', outstanding, slots⟩ := ih next sentAll isOpen later
        refine ⟨sentAll', isOpen', ?_, ?_⟩
        · have one := sound.outstanding_expire (e := a.missing) waiting
          dsimp only at outstanding
          omega
        · rw [slots]
          dsimp only
          rw [sound.slots_expire waiting, going.constant.2.2.2, Ledger.fillEarliest_fillEarliest,
            Nat.add_comm 1 n]
      next => cases first

end Accounts

end JobQueue
