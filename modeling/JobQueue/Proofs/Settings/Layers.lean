/-
Which layer tells a setting.

The entries of layers are put into one tree, one after another. What an entry says of a setting of a
group can be read off its key and its value alone (`Tree.saying`): it gives the setting a value, it
clears the whole group by something else than a table, or it says nothing. The last entry that says
anything tells the setting: a leaf that stands at the place of the setting in the end is the value
given last, and if nothing stands there, no value was given or the group has been cleared since
(`Tree.tells_layer`).
-/

import JobQueue.Settings.Layer

namespace JobQueue.Tree

variable {t u value : Tree} {old said : Option Tree} {fields fields' : List (String × Tree)}
  {key name group : String} {rest : List Step}

/-! ### Fields of a table -/

theorem lookup_cons : ((key, t) :: fields).lookup name =
    if name = key then some t else fields.lookup name := by
  rw [List.lookup_cons]
  by_cases same : name = key
  · rw [if_pos same, beq_iff_eq.mpr same]
  · rw [if_neg same, beq_eq_false_iff_ne.mpr same]

theorem lookup_put : (put key t fields).lookup name =
    if name = key then some t else fields.lookup name := by
  induction fields with
  | nil => exact lookup_cons
  | cons entry fields ih =>
      obtain ⟨k, u⟩ := entry
      rw [put]
      split
      next here =>
        rw [lookup_cons, lookup_cons, here]
        split <;> rfl
      next elsewhere =>
        rw [lookup_cons, lookup_cons, ih]
        by_cases first : name = k
        · rw [if_pos first, if_pos first, if_neg fun same => elsewhere (first.symm.trans same)]
        · rw [if_neg first, if_neg first]

theorem mem_keys_put {k : String} (member : k ∈ (put key t fields).map Prod.fst) :
    k = key ∨ k ∈ fields.map Prod.fst := by
  induction fields with
  | nil => exact .inl (List.mem_singleton.mp member)
  | cons entry fields ih =>
      obtain ⟨first, u⟩ := entry
      rw [put] at member
      split at member
      · exact (List.mem_cons.mp member).imp_right (List.mem_cons_of_mem _)
      · rcases List.mem_cons.mp member with same | later
        · exact .inr (same ▸ List.mem_cons_self)
        · exact (ih later).imp_right (List.mem_cons_of_mem _)

theorem nodup_put (distinct : (fields.map Prod.fst).Nodup) :
    ((put key t fields).map Prod.fst).Nodup := by
  induction fields with
  | nil => exact List.nodup_cons.mpr ⟨List.not_mem_nil, .nil⟩
  | cons entry fields ih =>
      obtain ⟨fresh, others⟩ := List.nodup_cons.mp distinct
      rw [put]
      split
      next here => exact List.nodup_cons.mpr ⟨here ▸ fresh, others⟩
      next elsewhere =>
        refine List.nodup_cons.mpr ⟨fun member => ?_, ih others⟩
        exact (mem_keys_put member).elim elsewhere fresh

theorem nodup_mergeFields (distinct : (fields.map Prod.fst).Nodup) :
    ((mergeFields fields fields').map Prod.fst).Nodup := by
  induction fields' generalizing fields with
  | nil =>
      rw [mergeFields]
      exact distinct
  | cons entry fields' ih =>
      rw [mergeFields]
      exact ih (nodup_put distinct)

/-- The tree, if it is no table. -/
def scalar? : Tree → Option Tree
  | .table _ => none
  | t => some t

theorem covering_of_scalar (scalar : t.scalar? = some u) : covering old t = u := by
  cases t with
  | leaf | list =>
      cases scalar
      rw [covering] <;> simp
  | table => cases scalar

/-- A table is put over another by the merging of their fields. -/
theorem fieldsOf_covering_table : fieldsOf (covering old (.table fields)) =
    mergeFields (fieldsOf (old.getD (.table []))) fields := by
  cases fields with
  | nil => rw [covering, mergeFields]
  | cons => rw [covering, fieldsOf]

/-- What stands under a field after a value is put where the rest of a path leads to from it. -/
def setUnder (old : Option Tree) : List Step → Tree → Tree
  | [], value => covering old value
  | step :: rest, value => set (step :: rest) value (old.getD nothing)

/-- A path that starts with a field changes that field alone. -/
theorem set_field : set (.field name :: rest) value t =
    .table (put (lowerName name) (setUnder ((fieldsOf t).lookup (lowerName name)) rest value)
      (fieldsOf t)) := by
  cases rest <;> rw [set] <;> simp [setUnder]

theorem fieldsOf_set_item {index : Nat} : fieldsOf (set (.item index :: rest) value t) = [] := by
  cases rest <;> rw [set] <;> simp [fieldsOf]

/-- Where a path goes on, a table or a list is made. -/
theorem set_cons_ne_leaf {step : Step} {origin : Option String} {leaf : Leaf} :
    set (step :: rest) value t ≠ .leaf origin leaf := by
  rcases step with name | index <;> cases rest <;> rw [set] <;> simp

/-! ### Names that stay different -/

/-- The fields of a tree have different names. -/
def Keyed (t : Tree) : Prop := ((fieldsOf t).map Prod.fst).Nodup

/-- A table of groups, all of whose fields have different names, and so have those of each group. -/
structure Tidy (t : Tree) : Prop where
  table : t = .table (fieldsOf t)
  keyed : t.Keyed
  groups : ∀ name u, (fieldsOf t).lookup name = some u → u.Keyed

theorem keyed_of_fieldsOf_eq_nil (none : fieldsOf t = []) : t.Keyed := by
  rw [Keyed, none]
  exact .nil

theorem keyed_getD {other : Tree} (keyed : ∀ u, old = some u → u.Keyed) (none : fieldsOf other = []) :
    (old.getD other).Keyed := by
  cases old with
  | none => exact keyed_of_fieldsOf_eq_nil none
  | some u => exact keyed u rfl

theorem keyed_covering (keyed : ∀ u, old = some u → u.Keyed) : (covering old t).Keyed := by
  cases scalar : t.scalar? with
  | some u =>
      cases t with
      | leaf | list =>
          rw [covering_of_scalar rfl]
          exact .nil
      | table => cases scalar
  | none =>
      cases t with
      | leaf | list => cases scalar
      | table fields =>
          rw [Keyed, fieldsOf_covering_table]
          exact nodup_mergeFields (keyed_getD keyed rfl)

theorem Keyed.set (keyed : t.Keyed) (path : List Step) : (set path value t).Keyed := by
  rcases path with _ | ⟨name | index, rest⟩
  · rw [Tree.set]
    exact keyed_covering fun u same => Option.some.inj same ▸ keyed
  · rw [set_field]
    exact nodup_put keyed
  · exact keyed_of_fieldsOf_eq_nil fieldsOf_set_item

theorem keyed_setUnder (keyed : ∀ u, old = some u → u.Keyed) : (setUnder old rest value).Keyed := by
  cases rest with
  | nil => exact keyed_covering keyed
  | cons step rest => exact (keyed_getD keyed rfl).set _

theorem Tidy.set (tidy : t.Tidy) : (set (.field group :: rest) value t).Tidy where
  table := by rw [set_field, fieldsOf]
  keyed := tidy.keyed.set _
  groups := by
    intro name u found
    rw [set_field, fieldsOf, lookup_put] at found
    split at found
    · cases found
      exact keyed_setUnder (tidy.groups _)
    · exact tidy.groups name u found

/-! ### What stands at the place of a setting -/

/-- The field of a group, if it is there. -/
def within (u : Option Tree) (name : String) : Option Tree :=
  u.bind fun u => (fieldsOf u).lookup name

/-- What stands at the place of a setting of a group. -/
def slot (t : Tree) (group name : String) : Option Tree := within ((fieldsOf t).lookup group) name

/-- What stands at a place agrees with what has been said of it. Tables and lists are left out, since
no setting can be read from them. -/
structure Tells (slot said : Option Tree) : Prop where
  unsaid : slot = none → said = none
  leaf : ∀ origin leaf, slot = some (.leaf origin leaf) → said = some (.leaf origin leaf)

theorem tells_none : Tells none none := ⟨fun _ => rfl, fun _ _ same => by cases same⟩

theorem tells_some : Tells (some t) (some t) := ⟨fun none => (by cases none), fun _ _ same => same⟩

theorem tells_of_ne_leaf (other : ∀ origin leaf, t ≠ .leaf origin leaf) : Tells (some t) said :=
  ⟨fun none => (by cases none), fun _ _ same => absurd (Option.some.inj same) (other _ _)⟩

/-- What is put over a place tells it, if it is no table. -/
theorem Tells.covering {slot : Option Tree} (tells : Tells slot said) :
    Tells (some (covering slot t)) (t.scalar?.or said) := by
  cases scalar : t.scalar? with
  | some u =>
      rw [covering_of_scalar scalar]
      exact tells_some
  | none =>
      rcases t with _ | _ | _ | _
      · cases scalar
      · cases scalar
      · rw [Tree.covering]
        cases slot with
        | none => exact tells_of_ne_leaf fun _ _ same => (by cases same)
        | some u => exact tells
      · rw [Tree.covering]
        exact tells_of_ne_leaf fun _ _ same => (by cases same)

/-- What a field gives under a name, if it is no table. -/
def givenUnder (name : String) (field : String × Tree) : Option Tree :=
  if lowerName field.1 = name then field.2.scalar? else none

/-- What the last of the fields gives that gives something under a name. -/
def lastUnder (name : String) (fields : List (String × Tree)) : Option Tree :=
  fields.reverse.findSome? (givenUnder name)

/-- Fields that are put over others tell the place of a name. -/
theorem Tells.mergeFields (tells : Tells (fields.lookup name) said) :
    Tells ((mergeFields fields fields').lookup name) ((lastUnder name fields').or said) := by
  induction fields' generalizing fields said with
  | nil =>
      rw [Tree.mergeFields]
      exact tells
  | cons entry rest ih =>
      obtain ⟨k, t⟩ := entry
      rw [Tree.mergeFields, lastUnder, List.reverse_cons, List.findSome?_append, Option.or_assoc]
      refine ih ?_
      rw [lookup_put, List.findSome?_singleton, givenUnder]
      by_cases own : lowerName k = name
      · rw [if_pos own.symm, if_pos own, own]
        exact tells.covering
      · rw [if_neg fun same => own same.symm, if_neg own]
        exact tells

/-! ### What an entry says -/

/-- What an entry says of a setting. -/
inductive Saying where
  /-- The setting has this value. -/
  | sets (value : Tree)
  /-- The group of the setting is no table any more. -/
  | clears

/-- What has been said of a setting after an entry that may say something. -/
def Saying.after (said : Option Tree) : Option Saying → Option Tree
  | none => said
  | some (.sets value) => some value
  | some .clears => none

/-- What a value says of a setting that is put where a path leads to from the group of the setting. -/
def sayingWithin (name : String) : List Step → Tree → Option Saying
  | [], .table fields => (lastUnder name fields).map .sets
  | [], _ => some .clears
  | [.field field], value => if lowerName field = name then value.scalar?.map .sets else none
  | .field _ :: _ :: _, _ => none
  | .item _ :: _, _ => some .clears

/-- What a value says of a setting that is put where a path leads to. -/
def saying (group name : String) : List Step → Tree → Option Saying
  | .field field :: rest, value =>
      if lowerName field = group then sayingWithin name rest value else none
  | _, _ => none

theorem after_after {first second : Option Saying} :
    Saying.after (Saying.after said first) second = Saying.after said (second.or first) := by
  cases second with
  | none => rfl
  | some saying => cases saying <;> rfl

theorem after_map_sets {given : Option Tree} :
    Saying.after said (given.map .sets) = given.or said := by
  cases given <;> rfl

/-- A value that is put over the whole group. -/
theorem Tells.covering_group (tells : Tells (within old name) said) :
    Tells ((fieldsOf (Tree.covering old value)).lookup name)
      (Saying.after said (sayingWithin name [] value)) := by
  cases value with
  | table fields =>
      have same : within old name = (fieldsOf (old.getD (.table []))).lookup name := by
        cases old <;> rfl
      rw [fieldsOf_covering_table, sayingWithin, after_map_sets]
      exact (same ▸ tells).mergeFields
  | leaf | list =>
      rw [covering_of_scalar rfl]
      exact tells_none

/-- A value that is put further down. -/
theorem Tells.set_group (tells : Tells ((fieldsOf t).lookup name) said) (step : Step) :
    Tells ((fieldsOf (Tree.set (step :: rest) value t)).lookup name)
      (Saying.after said (sayingWithin name (step :: rest) value)) := by
  cases step with
  | item index =>
      rw [fieldsOf_set_item, sayingWithin]
      exact tells_none
  | field field =>
      rw [set_field, fieldsOf, lookup_put]
      cases rest with
      | nil =>
          rw [sayingWithin]
          by_cases own : lowerName field = name
          · rw [if_pos own.symm, if_pos own, own, after_map_sets]
            exact tells.covering
          · rw [if_neg fun other => own other.symm, if_neg own]
            exact tells
      | cons step rest =>
          rw [sayingWithin]
          split
          · exact tells_of_ne_leaf fun _ _ => set_cons_ne_leaf
          · exact tells

theorem Tells.setUnder (tells : Tells (within old name) said) :
    Tells (within (some (Tree.setUnder old rest value)) name)
      (Saying.after said (sayingWithin name rest value)) := by
  cases rest with
  | nil => exact tells.covering_group
  | cons step rest =>
      have same : within old name = (fieldsOf (old.getD nothing)).lookup name := by
        cases old <;> rfl
      exact (same ▸ tells).set_group step

/-- An entry tells the place of a setting by what it says. -/
theorem Tells.set {field : String} (tells : Tells (slot t group name) said) :
    Tells (slot (Tree.set (.field field :: rest) value t) group name)
      (Saying.after said (saying group name (.field field :: rest) value)) := by
  rw [saying, slot, set_field, fieldsOf, lookup_put]
  by_cases own : lowerName field = group
  · rw [if_pos own.symm, if_pos own, own]
    exact tells.setUnder
  · rw [if_neg fun other => own other.symm, if_neg own]
    exact tells

/-! ### All entries -/

/-- What entries say of a setting: what the last of them says that says anything. -/
def lastSaying (group name : String) (entries : List (String × Tree)) : Option Saying :=
  entries.reverse.findSome? fun entry => saying group name (pathOf entry.1) entry.2

theorem pathOf_eq (key : String) : ∃ field rest, pathOf key = .field field :: rest := by
  rw [pathOf]
  split <;> exact ⟨_, _, rfl⟩

theorem layer_cons {entry : String × Tree} {entries : List (String × Tree)} :
    t.layer (entry :: entries) = (set (pathOf entry.1) entry.2 t).layer entries := rfl

theorem Tells.layer (tells : Tells (slot t group name) said) (entries : List (String × Tree)) :
    Tells (slot (t.layer entries) group name)
      (Saying.after said (lastSaying group name entries)) := by
  induction entries generalizing t said with
  | nil => exact tells
  | cons entry entries ih =>
      obtain ⟨field, rest, path⟩ := pathOf_eq entry.1
      rw [layer_cons, lastSaying, List.reverse_cons, List.findSome?_append,
        List.findSome?_singleton, ← after_after, path]
      exact ih tells.set

/-- Entries that are put into one tree tell each setting by what they say of it. -/
theorem tells_layer (group name : String) (entries : List (String × Tree)) :
    Tells (slot (layer (.table []) entries) group name)
      (Saying.after none (lastSaying group name entries)) := by
  have start : Tells (slot (.table []) group name) none := tells_none
  exact start.layer entries

theorem tidy_layer (entries : List (String × Tree)) : (layer (.table []) entries).Tidy := by
  have all : ∀ {t : Tree}, t.Tidy → (t.layer entries).Tidy := by
    induction entries with
    | nil => exact fun tidy => tidy
    | cons entry entries ih =>
        intro t tidy
        obtain ⟨field, rest, path⟩ := pathOf_eq entry.1
        rw [layer_cons, path]
        exact ih tidy.set
  exact all ⟨rfl, .nil, fun _ _ found => by cases found⟩

/-! ### Groups that are given as tables -/

/-- Whether a value that is put where a path leads to from a group makes something else of the group
than a table. -/
def clearsWithin : List Step → Tree → Bool
  | [], .table _ => false
  | [], _ => true
  | .field _ :: _, _ => false
  | .item _ :: _, _ => true

/-- Whether an entry makes something else of a group than a table. -/
def clears (group : String) (entry : String × Tree) : Bool :=
  match pathOf entry.1 with
  | .field field :: rest => lowerName field == group && clearsWithin rest entry.2
  | _ => false

theorem clearsWithin_of_saying (said : sayingWithin name rest value = some .clears) :
    clearsWithin rest value = true := by
  rcases rest with _ | ⟨_ | _, _ | _⟩
  · cases value with
    | leaf | list => rfl
    | table fields =>
        rw [sayingWithin] at said
        cases given : lastUnder name fields <;> rw [given] at said <;> cases said
  · rw [sayingWithin] at said
    split at said
    · cases given : value.scalar? <;> rw [given] at said <;> cases said
    · cases said
  · cases said
  · rfl
  · rfl

/-- An entry by which no group is cleared says only what value a setting has. -/
theorem saying_ne_clears {entry : String × Tree} (calm : clears group entry = false) :
    saying group name (pathOf entry.1) entry.2 ≠ some .clears := by
  intro said
  obtain ⟨field, rest, path⟩ := pathOf_eq entry.1
  rw [clears, path, Bool.and_eq_false_iff] at calm
  rw [path, saying] at said
  split at said
  next own =>
    rcases calm with other | kept
    · exact beq_eq_false_iff_ne.mp other own
    · rw [clearsWithin_of_saying said] at kept
      cases kept
  next => cases said

/-- The value that is given. -/
def Saying.value? : Saying → Option Tree
  | .sets value => some value
  | .clears => none

/-- What the last of the entries gives that gives a setting a value, whatever is said of the group. -/
def lastValue (group name : String) (entries : List (String × Tree)) : Option Tree :=
  entries.reverse.findSome? fun entry =>
    (saying group name (pathOf entry.1) entry.2).bind Saying.value?

theorem after_none (said : Option Saying) : Saying.after none said = said.bind Saying.value? := by
  rcases said with _ | _ | _ <;> rfl

/-- Where nothing clears the group, the last that is said is the last value that is given. -/
theorem lastValue_eq {entries : List (String × Tree)}
    (calm : ∀ entry ∈ entries, clears group entry = false) :
    Saying.after none (lastSaying group name entries) = lastValue group name entries := by
  have each : ∀ entry ∈ entries.reverse, clears group entry = false :=
    fun entry member => calm entry (List.mem_reverse.mp member)
  rw [after_none, lastSaying, lastValue]
  generalize entries.reverse = entries at each
  induction entries with
  | nil => rfl
  | cons entry entries ih =>
      obtain ⟨first, others⟩ := List.forall_mem_cons.mp each
      rw [List.findSome?_cons, List.findSome?_cons]
      rcases said : saying group name (pathOf entry.1) entry.2 with _ | _ | _
      · exact ih others
      · rfl
      · exact absurd said (saying_ne_clears first)

/-- A group is a table, if it is there. -/
def HasTable (t : Tree) (group : String) : Prop :=
  ∀ u, (fieldsOf t).lookup group = some u → ∃ fields, u = .table fields

theorem exists_table_covering (has : ∀ u, old = some u → ∃ fields, u = .table fields) :
    ∃ fields', covering old (.table fields) = .table fields' := by
  cases fields with
  | cons =>
      rw [covering]
      exact ⟨_, rfl⟩
  | nil =>
      rw [covering]
      cases old with
      | none => exact ⟨[], rfl⟩
      | some u => exact has u rfl

theorem exists_table_setUnder (has : ∀ u, old = some u → ∃ fields, u = .table fields)
    (kept : clearsWithin rest value = false) : ∃ fields, setUnder old rest value = .table fields := by
  rcases rest with _ | ⟨field | index, rest⟩
  · cases value with
    | leaf | list => cases kept
    | table fields => exact exists_table_covering has
  · exact ⟨_, set_field⟩
  · cases kept

theorem HasTable.set {entry : String × Tree} (has : HasTable t group)
    (calm : clears group entry = false) : HasTable (set (pathOf entry.1) entry.2 t) group := by
  obtain ⟨field, rest, path⟩ := pathOf_eq entry.1
  rw [clears, path, Bool.and_eq_false_iff] at calm
  rw [path]
  intro u found
  rw [set_field, fieldsOf, lookup_put] at found
  split at found
  next own =>
    cases found
    rcases calm with other | kept
    · exact absurd own.symm (beq_eq_false_iff_ne.mp other)
    · exact exists_table_setUnder (fun u there => has u (own ▸ there)) kept
  next => exact has u found

/-- A group that no entry clears stays a table. -/
theorem HasTable.layer {entries : List (String × Tree)} (has : HasTable t group)
    (calm : ∀ entry ∈ entries, clears group entry = false) : HasTable (t.layer entries) group := by
  induction entries generalizing t with
  | nil => exact has
  | cons entry entries ih =>
      obtain ⟨first, others⟩ := List.forall_mem_cons.mp calm
      exact ih (has.set first) others

end JobQueue.Tree
