/-
Records read from structured values.

What a record is decoded to depends, part by part, on what the value gives for the field of that
part: on what stands under its name in an object, or in its place in a list (`given?`). A part with
no such field is as in the record to start from (`asRecord_part`). So the fields that a decoded
record is written with are those that the value gives, spelt as the record spells them, with a
default where none is given, and no others (`settled_of_asRecord`).
-/

import JobQueue.Json.Decode
import JobQueue.Proofs.Json.RoundTrip

namespace JobQueue

namespace Json

variable {α β : Type} {decoders : List (FieldDecoder α)} {d : FieldDecoder α} {part : α → β}
  {start record : α} {fields : Fields} {items : List Json} {key name title expected : String}
  {v u : Json} {total seen : Nat}

/-! ### One part of a record -/

/-- A part of a record is left alone by the decoder of a field. -/
def FieldDecoder.Spares (d : FieldDecoder α) (part : α → β) : Prop :=
  ∀ before v after, d.set before v = .ok after → part after = part before

/-- Whether a part of a record is set by the decoder of one field only. -/
def SetBy (decoders : List (FieldDecoder α)) (part : α → β) (name : String) : Prop :=
  ∀ d ∈ decoders, d.name ≠ name → d.Spares part

theorem SetBy.tail {decoders : List (FieldDecoder α)} (setBy : SetBy (d :: decoders) part name) :
    SetBy decoders part name :=
  fun other member => setBy other (List.mem_cons_of_mem _ member)

theorem SetBy.nil : SetBy ([] : List (FieldDecoder α)) part name := nofun

theorem SetBy.own {decoders : List (FieldDecoder α)} (named : d.name = name)
    (others : SetBy decoders part name) : SetBy (d :: decoders) part name :=
  List.forall_mem_cons.mpr ⟨fun other => absurd named other, others⟩

/-- What is made of a decoded value has been made of one. -/
theorem of_map_eq_ok {ε γ : Type} {decoded : Except ε β} {make : β → γ} {c : γ}
    (made : decoded.map make = .ok c) : ∃ b, decoded = .ok b ∧ make b = c := by
  cases decoded with
  | error e => cases made
  | ok b => exact ⟨b, rfl, Except.ok.inj made⟩

theorem of_bind_eq_ok {ε γ : Type} {decoded : Except ε β} {next : β → Except ε γ} {c : γ}
    (done : (decoded >>= next) = .ok c) :
    ∃ b, decoded = .ok b ∧ next b = .ok c := by
  cases decoded with
  | error e => cases done
  | ok b => exact ⟨b, rfl, done⟩

/-- What is read and put into a record leaves alone the parts that it is not put into. -/
theorem SetBy.put {γ : Type} {required : Bool} {reader : Decoder γ} {put : α → γ → α}
    (same : ∀ a c, part (put a c) = part a) (others : SetBy decoders part name) :
    SetBy (⟨key, required, fun a v => (reader v).map (put a)⟩ :: decoders) part name := by
  refine List.forall_mem_cons.mpr ⟨?_, others⟩
  intro _ before v after set
  obtain ⟨c, _, rfl⟩ := of_map_eq_ok set
  exact same before c

/-- An alternative without content is given by its name, or by an object of one field of that name
with nothing in it. -/
theorem of_asVariant {known : List (String × α)} {a : α} (read : asVariant known v = .ok a) :
    ∃ name, known.lookup name = some a ∧ (v = .str name ∨ v = .obj [(name, .null)]) := by
  have of_nameAmong : ∀ {name}, nameAmong known name = .ok a → known.lookup name = some a := by
    intro name found
    rw [nameAmong] at found
    split at found
    next here =>
      cases found
      exact here
    next => cases found
  cases v with
  | str name => exact ⟨name, of_nameAmong read, .inl rfl⟩
  | obj fields =>
      match fields, read with
      | [(name, content)], read =>
          obtain ⟨a', found, rest⟩ := of_bind_eq_ok read
          cases content with
          | null =>
              cases rest
              exact ⟨name, of_nameAmong found, .inr rfl⟩
          | _ => cases rest
  | null | bool | int | double | arr => cases read

/-! ### Fields of an object -/

theorem setFields_cons {rest : Fields} (decoded : setFields decoders start ((key, v) :: rest) =
    .ok record) : (decoders.find? (fun d => d.name == key) = none ∧
      setFields decoders start rest = .ok record) ∨
    ∃ d next, decoders.find? (fun d => d.name == key) = some d ∧ d.set start v = .ok next ∧
      setFields decoders next rest = .ok record := by
  rw [setFields] at decoded
  cases known : decoders.find? fun d => d.name == key with
  | none =>
      rw [known] at decoded
      exact .inl ⟨rfl, decoded⟩
  | some d =>
      rw [known] at decoded
      obtain ⟨next, set, later⟩ := of_bind_eq_ok decoded
      exact .inr ⟨d, next, rfl, set, later⟩

/-- Fields under other keys leave the part as it is. -/
theorem setFields_other (setBy : SetBy decoders part name) (absent : name ∉ fields.map Prod.fst)
    (decoded : setFields decoders start fields = .ok record) : part record = part start := by
  induction fields generalizing start with
  | nil =>
      cases decoded
      rfl
  | cons f rest ih =>
      obtain ⟨key, v⟩ := f
      rw [List.map_cons, List.mem_cons, not_or] at absent
      rcases setFields_cons decoded with ⟨_, later⟩ | ⟨d, next, known, set, later⟩
      · exact ih absent.2 later
      · have named : d.name = key := beq_iff_eq.mp (List.find?_some known :)
        have kept := setBy d (List.mem_of_find?_eq_some known)
          (fun same => absent.1 (same.symm.trans named)) start v next set
        exact (ih absent.2 later).trans kept

/-- The part is what its own field sets it to. -/
theorem setFields_own (part : α → β) (setBy : SetBy decoders part name)
    (own : decoders.find? (fun d => d.name == name) = some d)
    (nodup : (fields.map Prod.fst).Nodup) (here : Fields.get? fields name = some v)
    (decoded : setFields decoders start fields = .ok record) :
    ∃ before after, d.set before v = .ok after ∧ part record = part after := by
  induction fields generalizing start with
  | nil => cases here
  | cons f rest ih =>
      obtain ⟨key, x⟩ := f
      rw [List.map_cons, List.nodup_cons] at nodup
      rw [Fields.get?_cons] at here
      by_cases first : name = key
      · subst first
        rw [if_pos rfl] at here
        cases here
        rcases setFields_cons decoded with ⟨unknown, _⟩ | ⟨d', next, known, set, later⟩
        · rw [own] at unknown
          cases unknown
        · cases own.symm.trans known
          exact ⟨start, next, set, setFields_other setBy nodup.1 later⟩
      · rw [if_neg first] at here
        rcases setFields_cons decoded with ⟨_, later⟩ | ⟨_, _, _, _, later⟩
        · exact ih nodup.2 here later
        · exact ih nodup.2 here later

theorem of_asRecord (decoded : asRecord title decoders start (.obj fields) = .ok record) :
    setFields decoders start fields = .ok record ∧
      decoders.find? (fun d => d.required && (Fields.get? fields d.name).isNone) = none := by
  obtain ⟨own, set, checked⟩ := of_bind_eq_ok decoded
  split at checked
  · cases checked
  next whole =>
    cases checked
    exact ⟨set, whole⟩

/-! ### Items of a list -/

theorem of_setItems_nil (decoded : setItems expected total seen start decoders [] = .ok record) :
    record = start ∧ ∀ d ∈ decoders, d.required = false := by
  induction decoders with
  | nil =>
      cases decoded
      exact ⟨rfl, nofun⟩
  | cons d decoders ih =>
      rw [setItems] at decoded
      cases required : d.required with
      | true =>
          rw [required, if_pos rfl] at decoded
          cases decoded
      | false =>
          rw [required, if_neg nofun] at decoded
          obtain ⟨same, others⟩ := ih decoded
          exact ⟨same, List.forall_mem_cons.mpr ⟨required, others⟩⟩

/-- Items in other places leave the part as it is. -/
theorem setItems_other (spares : ∀ d ∈ decoders, d.Spares part)
    (decoded : setItems expected total seen start decoders items = .ok record) :
    part record = part start := by
  induction decoders generalizing start seen items with
  | nil =>
      cases items with
      | nil =>
          cases decoded
          rfl
      | cons => cases decoded
  | cons d decoders ih =>
      obtain ⟨first, others⟩ := List.forall_mem_cons.mp spares
      cases items with
      | nil => rw [(of_setItems_nil decoded).1]
      | cons v items =>
          obtain ⟨next, set, later⟩ := of_bind_eq_ok decoded
          exact (ih others later).trans (first start v next set)

/-- The part is what the item in the place of its field sets it to. -/
theorem setItems_part (setBy : SetBy decoders part name)
    (names : (decoders.map (·.name)).Nodup)
    (own : decoders.find? (fun d => d.name == name) = some d)
    (decoded : setItems expected total seen start decoders items = .ok record) :
    (items[(decoders.map (·.name)).idxOf name]? = none ∧ d.required = false ∧
      part record = part start) ∨
    ∃ u before after, items[(decoders.map (·.name)).idxOf name]? = some u ∧
      d.set before u = .ok after ∧ part record = part after := by
  induction decoders generalizing start seen items with
  | nil => cases own
  | cons first decoders ih =>
      rw [List.map_cons, List.nodup_cons] at names
      cases items with
      | nil =>
          obtain ⟨same, optional⟩ := of_setItems_nil decoded
          exact .inl ⟨rfl, optional d (List.mem_of_find?_eq_some own), same ▸ rfl⟩
      | cons v items =>
          obtain ⟨next, set, later⟩ := of_bind_eq_ok decoded
          by_cases here : first.name = name
          · have found : (first.name == name) = true := beq_iff_eq.mpr here
            rw [List.find?, found] at own
            cases own
            have spares : ∀ d ∈ decoders, d.Spares part := fun d member =>
              setBy.tail d member fun same =>
                names.1 (List.mem_map.mpr ⟨d, member, same.trans here.symm⟩)
            refine .inr ⟨v, start, next, ?_, set, setItems_other spares later⟩
            rw [List.map_cons, here, List.idxOf_cons_self, List.getElem?_cons_zero]
          · have passed : (first.name == name) = false := beq_eq_false_iff_ne.mpr here
            rw [List.find?, passed] at own
            have kept := setBy first List.mem_cons_self here start v next set
            have place : (first.name :: decoders.map (·.name)).idxOf name =
                (decoders.map (·.name)).idxOf name + 1 := List.idxOf_cons_ne _ here
            rw [List.map_cons, place, List.getElem?_cons_succ, ← kept]
            exact ih setBy.tail names.2 own later

/-! ### Objects and lists alike -/

/-- What a value gives for a field of a record whose fields have these names: what stands under its
name in an object, or in its place in a list. -/
def given? (names : List String) (name : String) : Json → Option Json
  | .obj fields => Fields.get? fields name
  | .arr items => items[names.idxOf name]?
  | _ => none

/-- A part of a decoded record is what the field of its name sets it to. If none is given, then the
field may be missing, and the part is what it was to start with. -/
theorem asRecord_part (setBy : SetBy decoders part name) (names : (decoders.map (·.name)).Nodup)
    (own : decoders.find? (fun d => d.name == name) = some d) (regular : v.Every IsRegular)
    (decoded : asRecord title decoders start v = .ok record) :
    (v.given? (decoders.map (·.name)) name = none ∧ d.required = false ∧
      part record = part start) ∨
    ∃ u before after, v.given? (decoders.map (·.name)) name = some u ∧
      d.set before u = .ok after ∧ part record = part after := by
  cases v with
  | obj fields =>
      obtain ⟨set, whole⟩ := of_asRecord decoded
      rw [given?]
      cases here : Fields.get? fields name with
      | some u =>
          obtain ⟨before, after, own', same⟩ :=
            setFields_own part setBy own regular.self.nodup here set
          exact .inr ⟨u, before, after, rfl, own', same⟩
      | none =>
          have absent : name ∉ fields.map Prod.fst := by
            intro member
            obtain ⟨f, there, rfl⟩ := List.mem_map.mp member
            have := List.lookup_eq_none_iff.mp here f there
            simp at this
          have named : d.name = name := beq_iff_eq.mp (List.find?_some own :)
          have optional := List.find?_eq_none.mp whole d (List.mem_of_find?_eq_some own)
          rw [named, here] at optional
          exact .inl ⟨rfl, by simpa using optional, setFields_other setBy absent set⟩
  | arr items => exact setItems_part setBy names own decoded
  | null | bool | int | double | str => cases decoded

theorem every_of_given? {names : List String} (regular : v.Every IsRegular)
    (given : v.given? names name = some u) : u.Every IsRegular := by
  cases v with
  | obj fields => exact everyField_iff.mp regular.2 _ (Fields.mem_of_get? given)
  | arr items => exact everyItem_iff.mp regular.2 _ (List.mem_of_getElem? given)
  | null | bool | int | double | str => cases given

/-! ### What a decoded record is written with -/

/-- A field that a record is written with: its name, what is written where it may be missing and is,
and how what is given for it is spelt. -/
structure FieldShape where
  name : String
  default : Option Json
  spell : Json → Json

/-- The object of the fields of a shape and no others: what a value gives for each, spelt as the
shape has it, or the default where it gives nothing. -/
def settled (shape : List FieldShape) (v : Json) : Json :=
  .ofFields (shape.filterMap fun f =>
    (((v.given? (shape.map (·.name)) f.name).map f.spell).or f.default).map fun u => (f.name, u))

/-- A field of a shape, with what is written of a record there. -/
structure WrittenField (α : Type) extends FieldShape where
  write : α → Json

/-- What is written in a field is what its decoder has read there, in the field's own spelling, and
no other decoder changes it. The default is what is written of the record to start from. -/
structure WrittenField.Fits (f : WrittenField α) (decoders : List (FieldDecoder α)) (start : α) :
    Prop where
  own : ∃ d, decoders.find? (fun d => d.name == f.name) = some d ∧
    (∀ before u after, u.Every IsRegular → d.set before u = .ok after →
      f.write after = f.spell u) ∧
    f.default = if d.required then none else some (f.write start)
  others : SetBy decoders f.write f.name

/-- A field whose decoder reads a value and puts it into the record fits, if the value is written
there again as the field spells it. -/
theorem WrittenField.Fits.of_put {γ : Type} {f : WrittenField α} {required : Bool}
    {reader : Decoder γ} {put : α → γ → α}
    (own : decoders.find? (fun d => d.name == f.name) =
      some ⟨f.name, required, fun a v => (reader v).map (put a)⟩)
    (reads : ∀ u c, u.Every IsRegular → reader u = .ok c → ∀ a, f.write (put a c) = f.spell u)
    (default : f.default = if required then none else some (f.write start))
    (others : SetBy decoders f.write f.name) : f.Fits decoders start := by
  refine ⟨⟨_, own, ?_, default⟩, others⟩
  intro before u after regular set
  obtain ⟨c, read, rfl⟩ := of_map_eq_ok set
  exact reads u c regular read before

/-- What is written in a field of a decoded record is what the value gives for it, or the default. -/
theorem WrittenField.Fits.settled {f : WrittenField α} (fits : f.Fits decoders start)
    (names : (decoders.map (·.name)).Nodup) (regular : v.Every IsRegular)
    (decoded : asRecord title decoders start v = .ok record) :
    ((v.given? (decoders.map (·.name)) f.name).map f.spell).or f.default =
      some (f.write record) := by
  obtain ⟨d, own, reads, default⟩ := fits.own
  rcases asRecord_part fits.others names own regular decoded with
    ⟨nothing, optional, same⟩ | ⟨u, before, after, given, set, same⟩
  · rw [nothing, default, optional, same]
    rfl
  · rw [given, same, reads before u after (every_of_given? regular given) set]
    rfl

/-- A decoded record is written with what the value gives, spelt as the record spells it, with
defaults where nothing is given, and with nothing else. -/
theorem settled_of_asRecord (written : List (WrittenField α))
    (same : written.map (·.name) = decoders.map (·.name)) (names : (decoders.map (·.name)).Nodup)
    (fits : ∀ f ∈ written, f.Fits decoders start) (regular : v.Every IsRegular)
    (decoded : asRecord title decoders start v = .ok record) :
    v.settled (written.map (·.toFieldShape)) =
      .ofFields (written.map fun f => (f.name, f.write record)) := by
  have shapeNames : (written.map (·.toFieldShape)).map (·.name) = decoders.map (·.name) := by
    rw [List.map_map]
    exact same
  have each : ∀ f ∈ written, (((v.given? (decoders.map (·.name)) f.name).map f.spell).or
      f.default).map (fun u => (f.name, u)) = some (f.name, f.write record) := by
    intro f member
    rw [(fits f member).settled names regular decoded, Option.map_some]
  rw [settled, shapeNames, List.filterMap_map]
  exact congrArg Json.ofFields ((List.filterMap_congr each).trans (congrFun List.filterMap_eq_map _))

end Json

end JobQueue
