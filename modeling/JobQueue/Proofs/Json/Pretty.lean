/-
Reading back structured values written over several lines.

Such a text differs from the compact one by blanks: before each item of a list and each field of an
object, before the bracket that closes it, and between a key and its value. So the lemmas on lists
and objects between blanks serve again, and a text is read as its compact form is (`read_pretty`).
-/

import JobQueue.Proofs.Json.RoundTrip

namespace JobQueue.Json

variable {v : Json} {depth level : Nat} {rest : List Char}

theorem isGap_newLine (level : Nat) : IsGap (newLine level) := by
  intro c member
  rcases List.mem_cons.mp member with rfl | indent
  · rfl
  · rw [(List.mem_replicate.mp indent).2]
    rfl

/-- An item on a line of its own. -/
def prettyItem (level : Nat) (x : Json) : List Char := newLine level ++ prettyChars level x

theorem prettyItems_eq (level : Nat) (items : List Json) :
    prettyItems level items = [','].intercalate (items.map (prettyItem level)) := by
  induction items with
  | nil => rfl
  | cons x items ih =>
      cases items with
      | nil =>
          rw [prettyItems, List.map_singleton, List.intercalate_singleton]
          rfl
      | cons y items =>
          have first : prettyItem level x = newLine level ++ prettyChars level x := rfl
          rw [prettyItems, ih, List.map_cons, List.map_cons, List.map_cons,
            List.intercalate_cons_cons, first]
          simp only [List.append_assoc, List.cons_append, List.nil_append]

theorem prettyFields_eq (level : Nat) (fields : Fields) : prettyFields level fields =
    [','].intercalate (fields.map (fieldChars (newLine level) fun x =>
      ' ' :: prettyChars level x)) := by
  induction fields with
  | nil => rfl
  | cons f fields ih =>
      obtain ⟨k, x⟩ := f
      cases fields with
      | nil =>
          rw [prettyFields, List.map_singleton, List.intercalate_singleton]
          rfl
      | cons g fields =>
          have first : fieldChars (newLine level) (fun x => ' ' :: prettyChars level x) (k, x) =
            newLine level ++ (quote k ++ ':' :: ' ' :: prettyChars level x) := rfl
          rw [prettyFields, ih, List.map_cons, List.map_cons, List.map_cons,
            List.intercalate_cons_cons, first]
          simp only [List.append_assoc, List.cons_append, List.nil_append]

/-- A written list: nothing between its brackets, or its items and a new line. -/
theorem prettyChars_arr (level : Nat) (items : List Json) : ∃ gap, IsGap gap ∧
    prettyChars level (.arr items) =
      '[' :: ([','].intercalate (items.map (prettyItem (level + 1))) ++ (gap ++ [']'])) := by
  cases items with
  | nil => exact ⟨[], isGap_nil, rfl⟩
  | cons x items => exact ⟨_, isGap_newLine level, by rw [prettyChars, prettyItems_eq]⟩

/-- A written object: nothing between its braces, or its fields and a new line. -/
theorem prettyChars_obj (level : Nat) (fields : Fields) : ∃ gap, IsGap gap ∧
    prettyChars level (.obj fields) =
      '\x7b' :: ([','].intercalate (fields.map (fieldChars (newLine (level + 1)) fun x =>
        ' ' :: prettyChars (level + 1) x)) ++ (gap ++ ['\x7d'])) := by
  cases fields with
  | nil => exact ⟨[], isGap_nil, rfl⟩
  | cons f fields => exact ⟨_, isGap_newLine level, by rw [prettyChars, prettyFields_eq]⟩

theorem begins_prettyChars (level : Nat) (v : Json) :
    ∃ c tail, prettyChars level v = c :: tail ∧ Begins c := by
  cases v with
  | arr items =>
      obtain ⟨gap, -, same⟩ := prettyChars_arr level items
      exact ⟨'[', _, same, rfl, by decide⟩
  | obj fields =>
      obtain ⟨gap, -, same⟩ := prettyChars_obj level fields
      exact ⟨'\x7b', _, same, rfl, by decide⟩
  | null => exact begins_compactChars .null
  | bool b => exact begins_compactChars (.bool b)
  | int n => exact begins_compactChars (.int n)
  | double x => exact begins_compactChars (.double x)
  | str s => exact begins_compactChars (.str s)

/-- A value written over several lines is read to its last character, whatever closes it. -/
theorem value?_prettyChars (regular : v.Every IsRegular) (closed : closes rest = true) :
    value? depth (prettyChars level v ++ rest) = (v.reread? depth).map (·, rest) := by
  -- The depth that is left and the depth that has been reached change together inside a value.
  induction v using Json.induction generalizing depth level rest with
  | arr items ih =>
      obtain ⟨gap, blank, same⟩ := prettyChars_arr level items
      rw [same, List.cons_append, List.append_assoc, List.append_assoc, List.singleton_append,
        value?, skipSpace_cons rfl]
      cases depth with
      | zero => rfl
      | succ depth =>
          have spaced (x : Json) (rest : List Char) :
              value? depth (prettyItem (level + 1) x ++ rest) =
                value? depth (prettyChars (level + 1) x ++ rest) := by
            rw [prettyItem, List.append_assoc, ← value?_skipSpace,
              (isGap_newLine _).skipSpace_append, value?_skipSpace]
          refine list?_intercalate value?_skipSpace blank (fun x _ => ?_)
            fun x member rest closed =>
              (spaced x rest).trans (ih x member (everyItem_iff.mp regular.2 x member) closed)
          obtain ⟨c, tail, start, begins⟩ := begins_prettyChars (level + 1) x
          refine ⟨c, tail, ?_, begins⟩
          rw [prettyItem, (isGap_newLine _).skipSpace_append, start, skipSpace_cons begins.ink]
  | obj fields ih =>
      obtain ⟨gap, blank, same⟩ := prettyChars_obj level fields
      rw [same, List.cons_append, List.append_assoc, List.append_assoc, List.singleton_append,
        value?, skipSpace_cons rfl]
      cases depth with
      | zero => rfl
      | succ depth =>
          refine object?_intercalate regular.1 (isGap_newLine _) blank
            fun f member rest closed => ?_
          have space : IsGap [' '] := by simp [IsGap, isSpace]
          have spaced : value? depth (' ' :: (prettyChars (level + 1) f.2 ++ rest)) =
              value? depth (prettyChars (level + 1) f.2 ++ rest) := by
            rw [← value?_skipSpace, ← List.singleton_append, space.skipSpace_append,
              value?_skipSpace]
          exact spaced.trans (ih f member (everyField_iff.mp regular.2 f member) closed)
  | null => exact value?_compactChars regular closed
  | bool b => exact value?_compactChars regular closed
  | int n => exact value?_compactChars regular closed
  | double x => exact value?_compactChars regular closed
  | str s => exact value?_compactChars regular closed

/-- What is read from the text of several lines is what is read from the compact one. -/
theorem read_pretty (regular : v.Every IsRegular) : read v.pretty = v.reread? depthLimit := by
  have whole : value? depthLimit (prettyChars 0 v ++ []) = _ := value?_prettyChars regular rfl
  rw [List.append_nil] at whole
  rw [read, readWithin, pretty, String.toList_ofList, whole]
  cases v.reread? depthLimit <;> rfl

/-- A value without floating-point numbers in which lists and objects do not stand too deep is read
from its text of several lines as it was. -/
theorem read_pretty_of_plain (plain : v.Every IsPlain) (flat : v.depth ≤ depthLimit) :
    read v.pretty = some v := by
  rw [read_pretty (plain.mono fun _ => And.left), reread?_of_plain plain flat]

end JobQueue.Json
