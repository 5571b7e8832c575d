/-
Groups that are read setting by setting.

A group is read from the fields of a table or from the items of a list. Each setting decides one
part of it and leaves the others as they are (`Reads`), so a part of what is read depends on one
tree alone: on the field of its name, or on the item in its place (`Reads.group`). If there is none,
the part is what it is in the group to start from. The same holds of a part of a group of all
settings (`Reads.asSettings`).
-/

import JobQueue.Proofs.Settings.Layers
import JobQueue.Settings.Reading

namespace JobQueue

variable {α β : Type} {setting : Setting α Tree LayerError}
  {settings : List (Setting α Tree LayerError)} {get : α → β} {read : Tree → Except LayerError β}
  {place : Nat} {name : String} {start a : α} {t u : Tree}

/-! ### Settings and parts -/

namespace Setting

/-- The part of a group that the setting decides is what is read. -/
def Gives (setting : Setting α Tree LayerError) (get : α → β) (read : Tree → Except LayerError β) :
    Prop := ∀ start t next, setting.set start t = .ok next → read t = .ok (get next)

/-- The setting leaves a part of the group as it is. -/
def Spares (setting : Setting α Tree LayerError) (get : α → β) : Prop :=
  ∀ start t next, setting.set start t = .ok next → get next = get start

end Setting

/-- One setting, which has a name and a place among those of a group, decides a part of the group;
the others have other names and leave the part as it is. -/
structure Reads (settings : List (Setting α Tree LayerError)) (place : Nat) (name : String)
    (get : α → β) (read : Tree → Except LayerError β) : Prop where
  own : ∃ setting, settings[place]? = some setting ∧ setting.name = name ∧ setting.Gives get read
  names : ∀ setting ∈ settings.eraseIdx place, setting.name ≠ name
  spares : ∀ setting ∈ settings.eraseIdx place, setting.Spares get

/-- A part of a group is what is read from a tree, or what it was if there is none. -/
def IsRead (get : α → β) (read : Tree → Except LayerError β) (start : α) (a : α) :
    Option Tree → Prop
  | some t => read t = .ok (get a)
  | none => get a = get start

theorem IsRead.spared {source : Option Tree} {next : α} (isRead : IsRead get read next a source)
    (same : get next = get start) : IsRead get read start a source := by
  cases source with
  | none => exact isRead.trans same
  | some t => exact isRead

theorem IsRead.of_same {source : Option Tree} {b : α} (isRead : IsRead get read start b source)
    (same : get a = get b) : IsRead get read start a source := by
  cases source with
  | none => exact same.trans isRead
  | some t => exact isRead.trans (congrArg Except.ok same.symm)

theorem of_bind_mapError {ε ε' γ δ : Type} {first : Except ε γ} {next : γ → Except ε' δ}
    {change : ε → ε'} {d : δ} (done : (first.mapError change >>= next) = .ok d) :
    ∃ c, first = .ok c ∧ next c = .ok d := by
  cases first with
  | error e => cases done
  | ok c => exact ⟨c, rfl, done⟩

theorem of_map_ok {ε γ δ : Type} {first : Except ε γ} {make : γ → δ} {d : δ}
    (done : first.map make = .ok d) : ∃ c, first = .ok c ∧ make c = d := by
  cases first with
  | error e => cases done
  | ok c => exact ⟨c, rfl, Except.ok.inj done⟩

theorem map_ok {ε γ δ : Type} {first : Except ε γ} {c : γ} (done : first = .ok c) (make : γ → δ) :
    first.map make = .ok (make c) := done ▸ rfl

namespace Setting

variable {γ : Type} {reader : Tree → Except LayerError γ} {put : α → γ → α} {wrap : γ → β}

/-- What is read and put into a group gives the part that it is put into. -/
theorem gives_of_put (reads : ∀ t c, reader t = .ok c → read t = .ok (wrap c))
    (gets : ∀ a c, get (put a c) = wrap c) :
    Gives ⟨name, fun a t => (reader t).map (put a)⟩ get read := by
  intro start t next set
  obtain ⟨c, done, rfl⟩ := of_map_ok set
  rw [gets, reads t c done]

/-- What is put into one part of a group spares the others. -/
theorem spares_of_put (same : ∀ a c, get (put a c) = get a) :
    Spares ⟨name, fun a t => (reader t).map (put a)⟩ get := by
  intro start t next set
  obtain ⟨c, _, rfl⟩ := of_map_ok set
  exact same start c

end Setting

/-! ### Lists -/

theorem get_setItems {index : Nat} {items : List Tree}
    (spared : ∀ setting ∈ settings, setting.Spares get)
    (done : Tree.setItems index start settings items = .ok a) : get a = get start := by
  induction settings generalizing index start items with
  | nil =>
      cases done
      rfl
  | cons setting settings ih =>
      obtain ⟨first, others⟩ := List.forall_mem_cons.mp spared
      cases items with
      | nil =>
          cases done
          rfl
      | cons t items =>
          obtain ⟨next, set, later⟩ := of_bind_mapError done
          exact (ih others later).trans (first start t next set)

/-- A part of a group from a list is read from the item in its place. -/
theorem Reads.setItems {index : Nat} {items : List Tree} (reads : Reads settings place name get read)
    (done : Tree.setItems index start settings items = .ok a) :
    IsRead get read start a items[place]? := by
  obtain ⟨⟨own, there, -, gives⟩, -, spares⟩ := reads
  induction settings generalizing index start items place with
  | nil => cases there
  | cons setting settings ih =>
      cases items with
      | nil =>
          cases done
          rfl
      | cons t items =>
          obtain ⟨next, set, later⟩ := of_bind_mapError done
          cases place with
          | zero =>
              cases there
              have kept := get_setItems spares later
              exact (gives start t next set).trans (congrArg Except.ok kept.symm)
          | succ place =>
              rw [List.eraseIdx_cons_succ] at spares
              obtain ⟨first, rest⟩ := List.forall_mem_cons.mp spares
              exact (ih later rest there).spared (first start t next set)

/-! ### Tables -/

theorem of_setFields_cons {key : String} {rest : List (String × Tree)}
    (done : Tree.setFields settings start ((key, t) :: rest) = .ok a) :
    (settings.find? (fun s => s.name == key) = none ∧ Tree.setFields settings start rest = .ok a) ∨
    ∃ setting next, settings.find? (fun s => s.name == key) = some setting ∧
      setting.set start t = .ok next ∧ Tree.setFields settings next rest = .ok a := by
  rw [Tree.setFields] at done
  cases known : settings.find? fun s => s.name == key with
  | none =>
      rw [known] at done
      exact .inl ⟨rfl, done⟩
  | some setting =>
      rw [known] at done
      obtain ⟨next, set, later⟩ := of_bind_mapError done
      exact .inr ⟨setting, next, rfl, set, later⟩

/-- The setting that is found under a name is the one that decides the part, if the name is its own,
and leaves the part as it is, if not. -/
theorem Reads.found {key : String} (reads : Reads settings place name get read)
    (known : settings.find? (fun s => s.name == key) = some setting) :
    key = name ∧ setting.Gives get read ∨ key ≠ name ∧ setting.Spares get := by
  obtain ⟨own, there, named, gives⟩ := reads.own
  have keyed : setting.name = key := beq_iff_eq.mp (List.find?_some known :)
  obtain ⟨i, at_i⟩ := List.mem_iff_getElem?.mp (List.mem_of_find?_eq_some known)
  by_cases here : i = place
  · rw [here, there] at at_i
    cases at_i
    exact .inl ⟨keyed.symm.trans named, gives⟩
  · have other := List.mem_eraseIdx_iff_getElem?.mpr ⟨i, here, at_i⟩
    exact .inr ⟨keyed ▸ reads.names setting other, reads.spares setting other⟩

theorem Reads.find?_ne_none (reads : Reads settings place name get read) :
    settings.find? (fun s => s.name == name) ≠ none := by
  obtain ⟨own, there, named, _⟩ := reads.own
  intro unknown
  exact List.find?_eq_none.mp unknown own (List.mem_of_getElem? there) (beq_iff_eq.mpr named)

/-- A part of a group from a table is read from the field of its name. -/
theorem Reads.setFields {fields : List (String × Tree)} (reads : Reads settings place name get read)
    (distinct : (fields.map Prod.fst).Nodup)
    (done : Tree.setFields settings start fields = .ok a) :
    IsRead get read start a (fields.lookup name) := by
  induction fields generalizing start with
  | nil =>
      cases done
      rfl
  | cons entry fields ih =>
      obtain ⟨key, t⟩ := entry
      obtain ⟨fresh, others⟩ := List.nodup_cons.mp distinct
      rw [Tree.lookup_cons]
      rcases of_setFields_cons done with ⟨unknown, later⟩ | ⟨setting, next, known, set, later⟩
      · have differs : name ≠ key := by
          rintro rfl
          exact reads.find?_ne_none unknown
        rw [if_neg differs]
        exact ih others later
      · rcases reads.found known with ⟨rfl, gives⟩ | ⟨differs, spares⟩
        · -- Names are different, so nothing after this field sets the part again.
          have kept : get a = get next := by
            have absent : fields.lookup key = none := by
              refine List.lookup_eq_none_iff.mpr fun entry member => ?_
              rw [bne_iff_ne]
              rintro rfl
              exact fresh (List.mem_map.mpr ⟨entry, member, rfl⟩)
            have rest := ih others later
            rwa [absent] at rest
          rw [if_pos rfl]
          exact (gives start t next set).trans (congrArg Except.ok kept.symm)
        · rw [if_neg differs.symm]
          exact (ih others later).spared (spares start t next set)

/-! ### Groups -/

/-- What a part of a group is read from: the item in its place, or the field of its name. -/
def Tree.member (place : Nat) (name : String) : Tree → Option Tree
  | .list _ items => items[place]?
  | t => (fieldsOf t).lookup name

theorem Reads.group {label : String} (reads : Reads settings place name get read) (keyed : u.Keyed)
    (done : Tree.group label settings start u = .ok a) :
    IsRead get read start a (u.member place name) := by
  cases u with
  | leaf => cases done
  | list origin items => exact reads.setItems done
  | table fields => exact reads.setFields keyed done

/-- What a part of a group of all settings is read from. -/
def Tree.source (t : Tree) (group : String) (place : Nat) (name : String) : Option Tree :=
  ((fieldsOf t).lookup group).bind (member place name)

/-- A part of a group of all settings is read from its source alone. -/
theorem Reads.asSettings {label group : String} {index : Nat} (proj : Settings → α) {s : Settings}
    (outer : Reads (Settings.settings Tree.leaves Tree.group) index group proj
      fun u => Tree.group label settings (proj .default) u)
    (inner : Reads settings place name get read) (tidy : t.Tidy) (done : t.asSettings = .ok s) :
    IsRead (fun s => get (proj s)) read .default s (t.source group place name) := by
  have whole : Tree.group Settings.groupName (Settings.settings Tree.leaves Tree.group) .default t =
      .ok s := done
  rw [tidy.table] at whole
  have read := outer.setFields tidy.keyed whole
  rw [Tree.source]
  cases found : (Tree.fieldsOf t).lookup group with
  | none =>
      rw [found] at read
      exact congrArg get read
  | some u =>
      rw [found] at read
      have keyed := tidy.groups group u found
      exact inner.group keyed read

end JobQueue
