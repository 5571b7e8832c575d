/-
Reading back delimited lines.

A reader of cells between commas takes one character after another and knows where it stands in a
cell (`Reader.step`). It is strict: outside quotes it takes no quote inside a cell and no carriage
return, and after a closing quote nothing but the end of the cell. What it reads from a written cell
is the cell, whatever stands in it (`foldlM_cell`), so a table of lines none of which is without
cells is read back line by line (`read_lines`).

The columns of some rows are their keys in the order in which they first occur
(`firstSeen_columnsOf`). So rows among which there is a key are read back from their delimited form:
their columns, and then one record for each row, with the value of each column in its place
(`read_render_delimited`).
-/

import JobQueue.Export.Format
import Mathlib.Data.List.Forall2
import Mathlib.Data.List.Induction

namespace JobQueue

namespace Delimited

/-! ### The reader -/

/-- Where a reader stands in a cell. -/
inductive Place where
  /-- Before its first character. -/
  | fresh
  /-- In a cell without quotes. -/
  | plain
  /-- Between quotes. -/
  | quoted
  /-- After a quote that either closes the cell or is the first of two. -/
  | doubtful
deriving DecidableEq, Repr

/-- What a reader has read: whole lines, whole cells of the next line, and a part of the next
cell. -/
structure Reader where
  lines : List (List (List Char))
  cells : List (List Char)
  text : List Char
  place : Place
deriving DecidableEq, Repr

namespace Reader

/-- A reader that has read nothing. -/
def start : Reader := ⟨[], [], [], .fresh⟩

/-- A character more in the cell. -/
def take (r : Reader) (c : Char) (place : Place) : Reader :=
  { r with text := r.text ++ [c], place := place }

/-- The end of a cell. -/
def endCell (r : Reader) : Reader := ⟨r.lines, r.cells ++ [r.text], [], .fresh⟩

/-- The end of a line, and of its last cell. -/
def endLine (r : Reader) : Reader := ⟨r.lines ++ [r.cells ++ [r.text]], [], [], .fresh⟩

/-- A character outside quotes, with what is to be done with one that ends nothing. -/
def outside (r : Reader) (c : Char) (other : Option Reader) : Option Reader :=
  if c = ',' then some r.endCell else if c = '\n' then some r.endLine else other

/-- A character of a cell without quotes. -/
def bare (r : Reader) (c : Char) : Option Reader :=
  r.outside c (if c = '"' ∨ c = '\r' then none else some (r.take c .plain))

/-- The next character, if it may stand where the reader is. -/
def step (r : Reader) (c : Char) : Option Reader :=
  match r.place with
  | .fresh => if c = '"' then some { r with place := .quoted } else r.bare c
  | .plain => r.bare c
  | .quoted => some (if c = '"' then { r with place := .doubtful } else r.take c .quoted)
  | .doubtful => if c = '"' then some (r.take c .quoted) else r.outside c none

/-- The lines that have been read, if the last one has come to its end. -/
def finish (r : Reader) : Option (List (List (List Char))) :=
  if r.cells = [] ∧ r.text = [] ∧ r.place = .fresh then some r.lines else none

end Reader

/-- The lines of cells that a text consists of, each ended by a line feed. -/
def read (s : String) : Option (List (List String)) :=
  ((s.toList.foldlM Reader.step Reader.start).bind Reader.finish).map fun lines =>
    lines.map fun line => line.map String.ofList

/-! ### Cells -/

variable {r : Reader} {text : List Char} {texts : List (List Char)} {c : Char}
  {table : List (List (List Char))}

theorem not_special (plain : isSpecial c = false) : c ≠ ',' ∧ c ≠ '"' ∧ c ≠ '\n' ∧ c ≠ '\r' := by
  simp only [isSpecial, Bool.or_eq_false_iff, beq_eq_false_iff_ne] at plain
  exact ⟨plain.1.1.1, plain.1.1.2, plain.1.2, plain.2⟩

theorem step_of_plain (plain : isSpecial c = false) (here : r.place = .fresh ∨ r.place = .plain) :
    r.step c = some (r.take c .plain) := by
  obtain ⟨comma, quote, feed, carriage⟩ := not_special plain
  have taken : r.bare c = some (r.take c .plain) := by
    rw [Reader.bare, Reader.outside, if_neg comma, if_neg feed, if_neg (by simp [quote, carriage])]
  rcases here with here | here
  · rw [Reader.step, here]
    dsimp only
    rw [if_neg quote, taken]
  · rw [Reader.step, here]
    exact taken

/-- Characters that need no quotes are read as they are. -/
theorem foldlM_plain (plain : ∀ c ∈ text, isSpecial c = false)
    (here : r.place = .fresh ∨ r.place = .plain) :
    ∃ place, (place = .fresh ∨ place = .plain) ∧
      text.foldlM Reader.step r = some { r with text := r.text ++ text, place := place } := by
  induction text generalizing r with
  | nil => exact ⟨r.place, here, by simp⟩
  | cons c text ih =>
      have first := step_of_plain (plain c List.mem_cons_self) here
      obtain ⟨place, there, others⟩ := ih (r := r.take c .plain)
        (fun d member => plain d (List.mem_cons_of_mem _ member)) (.inr rfl)
      refine ⟨place, there, ?_⟩
      rw [List.foldlM_cons, first, Option.bind_eq_bind, Option.bind_some, others]
      simp [Reader.take]

/-- Between quotes every text is read as it was before its quotes were doubled. -/
theorem foldlM_doubleQuotes (here : r.place = .quoted) :
    (doubleQuotes text).foldlM Reader.step r = some { r with text := r.text ++ text } := by
  induction text generalizing r with
  | nil => simp [doubleQuotes]
  | cons c text ih =>
      have others := ih (r := r.take c .quoted) rfl
      rw [doubleQuotes]
      split
      next quote =>
        subst quote
        have opened : r.step '"' = some { r with place := .doubtful } := by
          rw [Reader.step, here]
          rfl
        have closed : Reader.step { r with place := .doubtful } '"' = some (r.take '"' .quoted) :=
          rfl
        rw [List.foldlM_cons, opened, Option.bind_eq_bind, Option.bind_some, List.foldlM_cons,
          closed, Option.bind_eq_bind, Option.bind_some, others]
        simp [Reader.take, here]
      next other =>
        have taken : r.step c = some (r.take c .quoted) := by
          rw [Reader.step, here]
          dsimp only
          rw [if_neg other]
        rw [List.foldlM_cons, taken, Option.bind_eq_bind, Option.bind_some, others]
        simp [Reader.take, here]

/-- A written cell is read as its text, and nothing is left open. -/
theorem foldlM_cell (text : List Char) (here : r.place = .fresh) (empty : r.text = []) :
    ∃ place, place ≠ .quoted ∧
      (cell text).foldlM Reader.step r = some { r with text := text, place := place } := by
  rw [cell]
  split
  next =>
    have opened : r.step '"' = some { r with place := .quoted } := by
      rw [Reader.step, here]
      rfl
    refine ⟨.doubtful, by decide, ?_⟩
    rw [List.cons_append, List.foldlM_cons, opened, Option.bind_eq_bind, Option.bind_some,
      List.foldlM_append, foldlM_doubleQuotes rfl, Option.bind_eq_bind, Option.bind_some, empty]
    rfl
  next plain =>
    rw [Bool.not_eq_true, List.any_eq_false] at plain
    have plain' : ∀ c ∈ text, isSpecial c = false :=
      fun c member => Bool.eq_false_iff.mpr (plain c member)
    obtain ⟨place, there, same⟩ := foldlM_plain plain' (.inl here)
    refine ⟨place, ?_, by rw [same, empty, List.nil_append]⟩
    rcases there with rfl | rfl <;> decide

theorem step_comma (closed : r.place ≠ .quoted) : r.step ',' = some r.endCell := by
  unfold Reader.step
  split <;> first | rfl | contradiction

theorem step_feed (closed : r.place ≠ .quoted) : r.step '\n' = some r.endLine := by
  unfold Reader.step
  split <;> first | rfl | contradiction

/-! ### Lines -/

/-- A written line is read as its cells. -/
theorem foldlM_line (there : texts ≠ []) (here : r.place = .fresh) (empty : r.text = []) :
    (line texts).foldlM Reader.step r =
      some ⟨r.lines ++ [r.cells ++ texts], [], [], .fresh⟩ := by
  induction texts generalizing r with
  | nil => exact absurd rfl there
  | cons text texts ih =>
      obtain ⟨place, closed, read⟩ := foldlM_cell text here empty
      cases texts with
      | nil =>
          rw [line, cells, List.foldlM_append, read, Option.bind_eq_bind, Option.bind_some,
            List.foldlM_cons, step_feed closed]
          rfl
      | cons next texts =>
          have others := ih (r := Reader.endCell { r with text := text, place := place })
            (by simp) rfl rfl
          rw [line] at others
          rw [line, cells, List.append_assoc, List.cons_append, List.foldlM_append, read,
            Option.bind_eq_bind, Option.bind_some, List.foldlM_cons, step_comma closed,
            Option.bind_eq_bind, Option.bind_some, others]
          · simp [Reader.endCell]
          · simp

theorem foldlM_lines (there : ∀ texts ∈ table, texts ≠ []) (here : r.place = .fresh)
    (empty : r.text = []) (done : r.cells = []) :
    (lines table).foldlM Reader.step r = some ⟨r.lines ++ table, [], [], .fresh⟩ := by
  induction table generalizing r with
  | nil =>
      obtain ⟨earlier, started, text, place⟩ := r
      cases here
      cases empty
      cases done
      simp [lines]
  | cons texts table ih =>
      have first := foldlM_line (there texts List.mem_cons_self) here empty
      have others := ih (r := ⟨r.lines ++ [r.cells ++ texts], [], [], .fresh⟩)
        (fun next member => there next (List.mem_cons_of_mem _ member)) rfl rfl rfl
      rw [lines] at others
      rw [lines, List.flatMap_cons, List.foldlM_append, first, Option.bind_eq_bind,
        Option.bind_some, others, done]
      simp

/-- Lines that have cells are read back. -/
theorem read_lines (there : ∀ texts ∈ table, texts ≠ []) :
    read (String.ofList (lines table)) =
      some (table.map fun texts => texts.map String.ofList) := by
  rw [read, String.toList_ofList, foldlM_lines there rfl rfl rfl]
  rfl

end Delimited

/-! ### Columns -/

/-- The keys of a list, each once, in the order in which they first occur. -/
structure FirstSeen (keys columns : List String) : Prop where
  mem_iff : ∀ key, key ∈ columns ↔ key ∈ keys
  rising : columns.Pairwise fun first second => keys.idxOf first < keys.idxOf second

variable {keys columns : List String} {key : String} {rows : List Row}

theorem FirstSeen.snoc (seen : FirstSeen keys columns) : FirstSeen (keys ++ [key])
    (if columns.contains key then columns else columns ++ [key]) := by
  have earlier : columns.Pairwise fun first second =>
      (keys ++ [key]).idxOf first < (keys ++ [key]).idxOf second := by
    refine seen.rising.imp_of_mem fun first second less => ?_
    rw [List.idxOf_append_of_mem ((seen.mem_iff _).mp first),
      List.idxOf_append_of_mem ((seen.mem_iff _).mp second)]
    exact less
  split
  next known =>
    rw [List.contains_iff_mem, seen.mem_iff] at known
    refine ⟨fun other => ?_, earlier⟩
    rw [seen.mem_iff, List.mem_append, List.mem_singleton]
    exact ⟨.inl, fun there => there.elim id fun same => same ▸ known⟩
  next new =>
    rw [List.contains_iff_mem, seen.mem_iff] at new
    constructor
    · intro other
      rw [List.mem_append, List.mem_append, seen.mem_iff]
    · rw [List.pairwise_append]
      refine ⟨earlier, List.pairwise_singleton _ _, fun first member second last => ?_⟩
      have there := (seen.mem_iff _).mp member
      rw [List.mem_singleton.mp last, List.idxOf_append_of_mem there,
        List.idxOf_append_of_notMem new]
      exact Nat.lt_add_right _ (List.idxOf_lt_length_of_mem there)

theorem firstSeen_foldl (keys : List String) : FirstSeen keys (keys.foldl
    (fun seen key => if seen.contains key then seen else seen ++ [key]) []) := by
  induction keys using List.reverseRecOn with
  | nil => exact ⟨fun _ => Iff.rfl, .nil⟩
  | append_singleton keys key ih =>
      rw [List.foldl_append]
      exact ih.snoc

/-- The keys of all rows, one row after another. -/
def keysOf (rows : List Row) : List String := rows.flatMap fun row => row.map Prod.fst

/-- The columns of some rows are their keys in the order in which they first occur. -/
theorem firstSeen_columnsOf (rows : List Row) : FirstSeen (keysOf rows) (columnsOf rows) :=
  firstSeen_foldl _

/-! ### Rows -/

/-- How the value of a column, if a row has one, is shown in a field. -/
inductive ShownAs : Option Json → String → Prop where
  | missing : ShownAs none ""
  | null : ShownAs (some .null) ""
  | text (s : String) : ShownAs (some (.str s)) s
  | other {v : Json} (value : v ≠ .null) (noText : ∀ s, v ≠ .str s) : ShownAs (some v) v.compact

theorem shownAs_cellText (v : Option Json) : ShownAs v (cellText v) := by
  cases v with
  | none => exact .missing
  | some v =>
      cases v with
      | null => exact .null
      | str s => exact .text s
      | bool | int | double | arr | obj => exact .other nofun nofun

namespace ExportFormat

/-- Rows among which there is a key are read back from their delimited form: first their columns,
then a record for each row, which shows the value of each column in its place. -/
theorem read_render_delimited (keyed : ∃ row ∈ rows, row ≠ []) :
    ∃ columns records, FirstSeen (keysOf rows) columns ∧
      Delimited.read (delimited.render rows) = some (columns :: records) ∧
      List.Forall₂ (fun row record => List.Forall₂ (fun column field =>
        ShownAs (Fields.get? row column) field) columns record) rows records := by
  have seen := firstSeen_columnsOf rows
  have there : columnsOf rows ≠ [] := by
    obtain ⟨row, member, key⟩ := keyed
    obtain ⟨entry, rest, rfl⟩ := List.exists_cons_of_ne_nil key
    have known : entry.1 ∈ columnsOf rows :=
      (seen.mem_iff _).mpr (List.mem_flatMap.mpr ⟨_, member, by simp⟩)
    exact List.ne_nil_of_mem known
  have nonempty : ∀ texts ∈ table rows, texts ≠ [] := by
    intro texts member
    simp only [table, List.mem_cons, List.mem_map] at member
    rcases member with rfl | ⟨row, _, rfl⟩ <;> simp [cellsOf, there]
  have read := Delimited.read_lines nonempty
  refine ⟨columnsOf rows, rows.map fun row => (columnsOf rows).map fun column =>
    cellText (Fields.get? row column), seen, ?_, ?_⟩
  · rw [render, read]
    simp [table, cellsOf, Function.comp_def]
  · rw [List.forall₂_map_right_iff]
    refine List.forall₂_same.mpr fun row _ => ?_
    rw [List.forall₂_map_right_iff]
    exact List.forall₂_same.mpr fun column _ => shownAs_cellText _

/-- Rows of different shapes, with a comma, quotes and both line breaks in keys and values. -/
def unevenRows : List Row := [
  [("a,b", .str "says \"hi\"\r\n"), ("n", .int 41)],
  [],
  [("\"", .arr [.str ",", .null]), ("a,b", .null)]]

theorem read_render_unevenRows : (∃ row ∈ unevenRows, row ≠ []) ∧
    ∃ columns records, FirstSeen (keysOf unevenRows) columns ∧
      Delimited.read (delimited.render unevenRows) = some (columns :: records) ∧
      List.Forall₂ (fun row record => List.Forall₂ (fun column field =>
        ShownAs (Fields.get? row column) field) columns record) unevenRows records := by
  have keyed : ∃ row ∈ unevenRows, row ≠ [] := ⟨_, List.mem_cons_self, by simp⟩
  exact ⟨keyed, read_render_delimited keyed⟩

end ExportFormat

end JobQueue
