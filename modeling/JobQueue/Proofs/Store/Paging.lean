/-
Paging through the memory store.

Entries of a memory store may be listed in any order, and anew at any time. Whatever is done to a
store, each of its records stands under its own id (`MemoryStore.Reached.orderly`), and so the order
in which its entries are listed shows on no page: every page is a piece of one list, which names each
record that a scan may take once, the newest first, those of one age by id
(`MemoryStore.paging_of_reached`). Pages of one size, one after another, give that list.
-/

import JobQueue.Proofs.Store.Page
import Mathlib.Data.List.Nodup

namespace JobQueue.MemoryStore

variable {m m' : MemoryStore} {before : Instant}

/-! ### Stores that can come about -/

/-- A change of a store. -/
inductive Edit where
  | insert (r : JobRecord)
  | create (new : NewJobRecord) (id : String) (now : Instant)
  | save (r : JobRecord)
  | delete (r : JobRecord)

/-- The store after a change. -/
def Edit.apply : Edit → MemoryStore → MemoryStore
  | .insert r, m => m.insert r
  | .create new id now, m => (MemoryStore.create new id now m).2
  | .save r, m => (MemoryStore.save r m).2
  | .delete r, m => (MemoryStore.delete r m).2

/-- The stores that changes make of an empty one. The entries may be listed in another order at any
time. -/
inductive Reached : MemoryStore → Prop where
  | empty : Reached .empty
  | edit {m : MemoryStore} (reached : Reached m) (e : Edit) : Reached (e.apply m)
  | reorder {m m' : MemoryStore} (reached : Reached m) (same : m.records.Perm m'.records) :
      Reached m'

theorem Reached.edits (reached : m.Reached) (edits : List Edit) :
    (edits.foldl (fun m e => e.apply m) m).Reached := by
  induction edits generalizing m with
  | nil => exact reached
  | cons e rest ih => exact ih (reached.edit e)

theorem orderly_empty : Orderly .empty where
  keyed := fun _ member => absurd member List.not_mem_nil
  distinct := List.nodup_nil

theorem Orderly.edit (orderly : m.Orderly) (e : Edit) : (e.apply m).Orderly := by
  cases e with
  | insert r => exact orderly.insert
  | create new id now => exact orderly.insert
  | save r => exact orderly.save
  | delete r => exact orderly.delete

theorem Orderly.reorder (orderly : m.Orderly) (same : m.records.Perm m'.records) : m'.Orderly where
  keyed := fun entry member => orderly.keyed entry (same.mem_iff.mpr member)
  distinct := (same.map Prod.fst).nodup_iff.mp orderly.distinct

theorem Reached.orderly (reached : m.Reached) : m.Orderly := by
  induction reached with
  | empty => exact orderly_empty
  | edit _ e ih => exact ih.edit e
  | reorder _ same ih => exact ih.reorder same

/-! ### Pages -/

/-- The order in which the entries of an orderly store are listed does not show in its pages. -/
theorem Orderly.pageList_reorder (orderly : m.Orderly) (same : m.records.Perm m'.records) :
    m'.pageList before = m.pageList before := by
  have listed : (m'.pageList before).Perm (m.pageList before) :=
    (List.mergeSort_perm ..).trans
      ((((same.symm.map Prod.snd).filter _)).trans (List.mergeSort_perm ..).symm)
  exact listed.eq_of_pairwise (fun _ _ _ _ first second => (first.asymm second).elim)
    (orderly.reorder same).pairwise_pageList orderly.pairwise_pageList

/-- The first pages of one size, one after another. Each is read from a store of its own. -/
def pages (order : Nat → MemoryStore) (before : Instant) (size count : Nat) : List JobRecord :=
  (List.range count).flatMap fun i => (order i).available before size (i * size)

/-- Pieces of one length, one after another, are what a list begins with. -/
theorem flatMap_pieces {α : Type} (l : List α) (size count : Nat) :
    (List.range count).flatMap (fun i => (l.drop (i * size)).take size) =
      l.take (count * size) := by
  induction count with
  | zero => simp
  | succ count ih =>
      rw [List.range_succ, List.flatMap_append, ih, List.flatMap_singleton, Nat.succ_mul,
        List.take_add]

/-- However the entries of a store that has come about are listed, a page shows the records from its
offset on, up to its limit, of one list: the records that a scan may take, each of them once, the
newer first and those of one age by id. Pages of one size give that list. -/
theorem paging_of_reached (reached : m.Reached) (before : Instant) :
    m.Orderly ∧ ∃ whole : List JobRecord, whole.Nodup ∧
      (∀ r, r ∈ whole ↔ m.get? r.id = some r ∧ r.isAvailable before = true) ∧
      whole.Pairwise Precedes ∧
      (∀ (m' : MemoryStore) limit offset, m.records.Perm m'.records →
        m'.available before limit offset = (whole.drop offset).take limit) ∧
      ∀ order : Nat → MemoryStore, (∀ i, m.records.Perm (order i).records) →
        (∀ size count, pages order before size count = whole.take (count * size)) ∧
        ∀ size, 1 ≤ size → pages order before size whole.length = whole := by
  have orderly := reached.orderly
  have page (m' : MemoryStore) (limit offset : Nat) (same : m.records.Perm m'.records) :
      m'.available before limit offset = ((m.pageList before).drop offset).take limit := by
    rw [available, orderly.pageList_reorder same]
  refine ⟨orderly, m.pageList before, List.Nodup.of_map _ orderly.nodup_pageList,
    fun r => orderly.mem_pageList_iff, orderly.pairwise_pageList, page, fun order same => ?_⟩
  have tiled (size count : Nat) :
      pages order before size count = (m.pageList before).take (count * size) := by
    rw [pages, ← flatMap_pieces]
    exact List.flatMap_congr fun i _ => page (order i) _ _ (same i)
  refine ⟨tiled, fun size positive => ?_⟩
  rw [tiled, List.take_of_length_le (Nat.le_mul_of_pos_right _ positive)]

/-- A record of a name, made some seconds after the start of 1970. -/
def agedJob (id : String) (seconds : Int) : JobRecord :=
  (⟨"job", "", ""⟩ : NewJobRecord).toRecord id ⟨seconds, 0⟩

/-- Three records of which two were made at one time, and one that has been removed again. -/
def agedJobs : List Edit :=
  [.insert (agedJob "c" 5), .create ⟨"job", "", ""⟩ "a" ⟨5, 0⟩, .insert (agedJob "d" 7),
    .create ⟨"job", "", ""⟩ "b" ⟨9, 0⟩, .delete (agedJob "d" 7),
    .save { agedJob "c" 5 with attempts := 1 }]

/-- The store of the aged jobs. -/
def agedStore : MemoryStore := agedJobs.foldl (fun m e => e.apply m) .empty

/-- The aged jobs that are left come in one order on pages of two, though each page is read from a
listing of its own. -/
theorem paging_of_reached_relisted :
    let order (i : Nat) : MemoryStore := if i = 0 then ⟨agedStore.records.reverse⟩ else agedStore
    (pages order ⟨0, 0⟩ 2 2).map JobRecord.id = ["b", "a", "c"] := by
  intro order
  have reached : agedStore.Reached := Reached.empty.edits agedJobs
  obtain ⟨_, whole, _, _, _, page, tiles⟩ := paging_of_reached reached ⟨0, 0⟩
  have relisted (i : Nat) : agedStore.records.Perm (order i).records := by
    by_cases first : i = 0
    · simp only [order, if_pos first]
      exact (List.reverse_perm _).symm
    · simp only [order, if_neg first, List.Perm.refl]
  -- Listed in the order of the pages, the store need not be sorted.
  let sorted : MemoryStore := ⟨["b", "a", "c"].filterMap fun id =>
    (agedStore.get? id).map fun r => (id, r)⟩
  have listed : agedStore.records.Perm sorted.records := by decide +kernel
  have ordered : ((sorted.records.map Prod.snd).filter fun r => r.isAvailable ⟨0, 0⟩).Pairwise
      fun a b => pageOrder a b = true := by decide +kernel
  have first : sorted.available ⟨0, 0⟩ 4 0 = (whole.drop 0).take (2 * 2) := page sorted 4 0 listed
  rw [(tiles order relisted).1, ← List.drop_zero (l := whole), ← first, available, pageList,
    List.mergeSort_of_pairwise ordered]
  decide +kernel

end JobQueue.MemoryStore
