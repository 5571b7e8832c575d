/-
Pages of the memory store.

A memory store is orderly if each record stands under its own id and no id is named twice, and all
its calls keep it so (`MemoryStore.Orderly`). The first page of an orderly store holds the records
that a scan may take, as many as fit, and of these the newest, those of one age by id
(`MemoryStore.Orderly.isPage_available`), and no other page does (`IsPage.unique`). What a store
loses in size is what is no longer found in it (`MemoryStore.size_add_gone`).
-/

import JobQueue.Proofs.Store.Leases
import JobQueue.Proofs.Time.Lease
import Mathlib.Data.List.Perm.Subperm

namespace JobQueue

variable {W : Type} {r a b : JobRecord} {before : Instant} {limit : Nat}

namespace MemoryStore

variable {m m' : MemoryStore} {id : String} {page page' : List JobRecord}

/-! ### Orderly stores -/

/-- Each record stands under its own id, and no id is named twice. -/
structure Orderly (m : MemoryStore) : Prop where
  keyed : m.Keyed
  distinct : (m.records.map Prod.fst).Nodup

theorem Orderly.insert (orderly : m.Orderly) : (m.insert r).Orderly where
  keyed := orderly.keyed.insert
  distinct := by
    cases stored : m.get? r.id with
    | some old => exact keys_insert stored ▸ orderly.distinct
    | none =>
        have absent : r.id ∉ m.records.map Prod.fst := lookup_eq_none_iff.mp stored
        rw [MemoryStore.insert, put_of_notMem absent, List.map_append]
        refine List.nodup_append.mpr ⟨orderly.distinct, List.pairwise_singleton .., ?_⟩
        rintro id there other new rfl
        have own : id = r.id := List.mem_singleton.mp new
        exact absent (own ▸ there)

theorem Orderly.erase (orderly : m.Orderly) : (m.erase id).Orderly where
  keyed := orderly.keyed.erase
  distinct := (List.filter_sublist.map Prod.fst).nodup orderly.distinct

theorem Orderly.save (orderly : m.Orderly) : (MemoryStore.save r m).2.Orderly := by
  unfold MemoryStore.save
  split
  · exact orderly.insert
  · exact orderly

theorem Orderly.delete (orderly : m.Orderly) : (MemoryStore.delete r m).2.Orderly := by
  unfold MemoryStore.delete
  split
  · exact orderly.erase
  · exact orderly

/-- What stands under an id is found there. -/
theorem Orderly.get?_of_mem (orderly : m.Orderly) (member : (id, r) ∈ m.records) :
    m.get? id = some r := by
  obtain ⟨earlier, later, split⟩ := List.append_of_mem member
  refine List.lookup_eq_some_iff.mpr ⟨earlier, later, split, fun entry inside => ?_⟩
  have distinct := orderly.distinct
  rw [split, List.map_append, List.map_cons, List.nodup_append] at distinct
  exact bne_iff_ne.mpr fun same =>
    distinct.2.2 entry.1 (List.mem_map_of_mem inside) id List.mem_cons_self same.symm

theorem Orderly.stored_iff (orderly : m.Orderly) :
    r ∈ m.records.map Prod.snd ↔ m.get? r.id = some r := by
  constructor
  · intro member
    obtain ⟨⟨id, r⟩, inside, rfl⟩ := List.mem_map.mp member
    exact orderly.keyed _ inside ▸ orderly.get?_of_mem inside
  · exact fun found => List.mem_map.mpr ⟨_, mem_of_get? found, rfl⟩

/-- The shelf of an orderly memory store, in a world that is in order otherwise. -/
def orderlyShelf (place : Part W MemoryStore) (good : W → Prop) : Shelf W JobRecord :=
  { shelf place with Good := fun w => good w ∧ (place.get w).Orderly }

/-- An orderly memory store fails only where no record stands, and stays orderly. -/
theorem orderly_reliable {place : Part W MemoryStore} {nature : Part W Nature} {good : W → Prop}
    (lawful : place.Lawful) (storing : ∀ m w, good w → good (place.set m w)) :
    (orderlyShelf place good).Reliable (recordStore place nature) where
  save := by
    intro r w ⟨fine, orderly⟩
    refine ((reliable lawful).save r w trivial).withGood fun _ => ⟨storing _ w fine, ?_⟩
    have after : place.get ((recordStore place nature).save r w).2 =
        (MemoryStore.save r (place.get w)).2 := lawful _ w
    exact after ▸ orderly.save
  delete := by
    intro r w ⟨fine, orderly⟩
    refine ((reliable lawful).delete r w trivial).withGood fun _ => ⟨storing _ w fine, ?_⟩
    have after : place.get ((recordStore place nature).delete r w).2 =
        (MemoryStore.delete r (place.get w)).2 := lawful _ w
    exact after ▸ orderly.delete
  save_answer := fun r w _ => (reliable lawful).save_answer r w trivial
  delete_answer := fun r w _ => (reliable lawful).delete_answer r w trivial

/-! ### The first page -/

/-- The first record comes before the second on a page: it is newer, or of the same age and has the
lesser id. -/
def Precedes (a b : JobRecord) : Prop :=
  b.created < a.created ∨ a.created = b.created ∧ a.id < b.id

theorem pageOrder_iff : pageOrder a b = true ↔
    b.created < a.created ∨ a.created = b.created ∧ a.id ≤ b.id := by
  rw [pageOrder]
  by_cases newer : b.created < a.created
  · simp [newer]
  · by_cases older : a.created < b.created
    · have differ : a.created ≠ b.created := fun same => Instant.lt_irrefl _ (same ▸ older)
      simp [newer, older, differ]
    · simp [Instant.eq_of_not_lt older newer, Instant.lt_irrefl]

theorem pageOrder_trans (a b c : JobRecord) (first : pageOrder a b = true)
    (second : pageOrder b c = true) : pageOrder a c = true := by
  rw [pageOrder_iff] at *
  rcases first with newer | ⟨same, le⟩ <;> rcases second with newer' | ⟨same', le'⟩
  · exact .inl (Instant.lt_trans newer' newer)
  · exact .inl (same' ▸ newer)
  · exact .inl (same ▸ newer')
  · exact .inr ⟨same.trans same', String.le_trans le le'⟩

theorem pageOrder_total (a b : JobRecord) : (pageOrder a b || pageOrder b a) = true := by
  rw [Bool.or_eq_true, pageOrder_iff, pageOrder_iff]
  by_cases newer : b.created < a.created
  · exact .inl (.inl newer)
  · by_cases older : a.created < b.created
    · exact .inr (.inl older)
    · have same := Instant.eq_of_not_lt older newer
      exact (String.le_total a.id b.id).imp (fun le => .inr ⟨same, le⟩)
        fun le => .inr ⟨same.symm, le⟩

theorem precedes_of_pageOrder (ordered : pageOrder a b = true) (differ : a.id ≠ b.id) :
    Precedes a b := by
  refine (pageOrder_iff.mp ordered).imp_right fun ⟨same, le⟩ => ⟨same, ?_⟩
  exact String.not_le.mp fun back => differ (String.le_antisymm le back)

theorem Precedes.asymm (first : Precedes a b) : ¬ Precedes b a := by
  rintro (newer | ⟨same, less⟩) <;> rcases first with newer' | ⟨same', less'⟩
  · exact Instant.lt_irrefl _ (Instant.lt_trans newer newer')
  · exact Instant.lt_irrefl _ (same' ▸ newer)
  · exact Instant.lt_irrefl _ (same ▸ newer')
  · exact String.lt_irrefl _ (String.lt_trans less less')

/-- A page of a store: some of the records that a scan may take, as many as fit, in their order,
and before all others. -/
structure IsPage (m : MemoryStore) (before : Instant) (limit : Nat) (page : List JobRecord) :
    Prop where
  free : ∀ r ∈ page, m.get? r.id = some r ∧ r.isAvailable before = true
  ordered : page.Pairwise Precedes
  length : page.length = min limit (m.records.countP fun entry => entry.2.isAvailable before)
  first : ∀ r, m.get? r.id = some r → r.isAvailable before = true → r ∉ page →
    ∀ chosen ∈ page, Precedes chosen r

theorem IsPage.nodup (isPage : m.IsPage before limit page) : page.Nodup :=
  isPage.ordered.imp fun precedes same => (same ▸ precedes).asymm (same ▸ precedes)

/-- Of two pages each holds what the other holds. -/
theorem IsPage.subset (isPage : m.IsPage before limit page) (other : m.IsPage before limit page') :
    page ⊆ page' := by
  intro r member
  by_contra absent
  obtain ⟨stored, free⟩ := isPage.free r member
  have later := other.first r stored free absent
  -- As many records are on the other page, so there is one that is not on this one.
  have missing : ¬ page' ⊆ page := fun all => by
    have same : page'.Perm page := (List.subperm_of_subset other.nodup all).perm_of_length_le
      (isPage.length.trans other.length.symm).le
    exact absent (same.symm.subset member)
  obtain ⟨s, member', absent'⟩ := Set.not_subset.mp missing
  obtain ⟨stored', free'⟩ := other.free s member'
  exact (later s member').asymm (isPage.first s stored' free' absent' r member)

/-- A store has only one first page. -/
theorem IsPage.unique (isPage : m.IsPage before limit page) (other : m.IsPage before limit page') :
    page = page' := by
  have same : page.Perm page' := (List.subperm_of_subset isPage.nodup
    (isPage.subset other)).perm_of_length_le (other.length.trans isPage.length.symm).le
  exact same.eq_of_pairwise (fun _ _ _ _ first second => (first.asymm second).elim)
    isPage.ordered other.ordered

theorem Orderly.nodup_pageList (orderly : m.Orderly) :
    ((m.pageList before).map JobRecord.id).Nodup := by
  have keys : (m.records.map Prod.snd).map JobRecord.id = m.records.map Prod.fst := by
    rw [List.map_map]
    exact List.map_congr_left fun entry member => (orderly.keyed entry member).symm
  have sorted : (m.pageList before).Perm
      ((m.records.map Prod.snd).filter fun r => r.isAvailable before) := List.mergeSort_perm ..
  rw [(sorted.map JobRecord.id).nodup_iff]
  refine (List.filter_sublist.map JobRecord.id).nodup ?_
  rw [keys]
  exact orderly.distinct

theorem Orderly.mem_pageList_iff (orderly : m.Orderly) :
    r ∈ m.pageList before ↔ m.get? r.id = some r ∧ r.isAvailable before = true := by
  rw [pageList, List.mem_mergeSort, List.mem_filter, orderly.stored_iff]

theorem Orderly.pairwise_pageList (orderly : m.Orderly) :
    (m.pageList before).Pairwise Precedes := by
  have sorted : (m.pageList before).Pairwise fun a b => pageOrder a b = true :=
    List.pairwise_mergeSort pageOrder_trans pageOrder_total _
  have distinct : (m.pageList before).Pairwise fun a b => a.id ≠ b.id :=
    List.pairwise_map.mp orderly.nodup_pageList
  exact sorted.imp₂ (fun _ _ => precedes_of_pageOrder) distinct

/-- What a store gives as its first page is its first page. -/
theorem Orderly.isPage_available (orderly : m.Orderly) :
    m.IsPage before limit (m.available before limit 0) := by
  have page : m.available before limit 0 = (m.pageList before).take limit := by
    rw [available, List.drop_zero]
  have sorted : (m.pageList before).Pairwise Precedes := orderly.pairwise_pageList
  rw [← List.take_append_drop limit (m.pageList before), List.pairwise_append] at sorted
  rw [page]
  refine ⟨fun r member => orderly.mem_pageList_iff.mp (List.mem_of_mem_take member), sorted.1, ?_,
    fun r stored free absent chosen member => sorted.2.2 chosen member r ?_⟩
  · rw [List.length_take, pageList, List.length_mergeSort, ← List.countP_eq_length_filter,
      List.countP_map]
    rfl
  · have listed := orderly.mem_pageList_iff.mpr ⟨stored, free⟩
    rw [← List.take_append_drop limit (m.pageList before), List.mem_append] at listed
    exact listed.resolve_left absent

/-- No id is named twice on a page. -/
theorem Orderly.nodup_available (orderly : m.Orderly) :
    ((m.available before limit 0).map JobRecord.id).Nodup := by
  rw [available, List.drop_zero]
  exact ((List.take_sublist ..).map JobRecord.id).nodup orderly.nodup_pageList

/-! ### What is gone -/

/-- A store has lost in size as many records as are no longer found in it, if nothing has come
where nothing was. -/
theorem size_add_gone {ids : List String} (orderly : m.Orderly) (orderly' : m'.Orderly)
    (nodup : ids.Nodup) (stored : ∀ id ∈ ids, (m.get? id).isSome = true)
    (others : ∀ id, id ∉ ids → m'.get? id = m.get? id) :
    m'.size + ids.countP (fun id => (m'.get? id).isNone) = m.size := by
  have key_iff : ∀ (m : MemoryStore) (id : String),
      id ∈ m.records.map Prod.fst ↔ (m.get? id).isSome = true := by
    intro m id
    rw [← not_iff_not, ← lookup_eq_none_iff, get?, Bool.not_eq_true, Option.isSome_eq_false_iff,
      Option.isNone_iff_eq_none]
  have keys : (m.records.map Prod.fst).Perm
      (m'.records.map Prod.fst ++ ids.filter fun id => (m'.get? id).isNone) := by
    refine (List.perm_ext_iff_of_nodup orderly.distinct ?_).mpr fun id => ?_
    · refine List.nodup_append.mpr ⟨orderly'.distinct, nodup.filter _, ?_⟩
      rintro id there _ gone rfl
      have kept := (key_iff m' id).mp there
      have none := (List.mem_filter.mp gone).2
      simp_all
    · rw [List.mem_append, key_iff, key_iff, List.mem_filter]
      by_cases named : id ∈ ids
      · simp only [stored id named, named, true_and, true_iff]
        cases m'.get? id <;> simp
      · simp [others id named, named]
  have length := keys.length_eq
  rw [List.length_append, List.length_map, List.length_map] at length
  rw [List.countP_eq_length_filter, size, size]
  exact length.symm

end MemoryStore

end JobQueue
