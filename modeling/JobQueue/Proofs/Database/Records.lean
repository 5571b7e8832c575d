/-
The table of queued records, id by id.

A line is found under the text in its first cell. A save changes the lines of its id only and
leaves that cell as it is; a delete removes them (`find?_update`, `find?_erase`). Where the table
has its own columns, a save or a delete fails only if there is no line, or because the database
has been closed (`Database.keeps`, `Database.reliable`).
-/

import JobQueue.Database.Records
import JobQueue.Proofs.Store.Shelf

namespace JobQueue.Database

variable {W : Type} {l : Line} {id other : String} {r : JobRecord} {lines : List Line}

/-- A cell equals a text only if it holds that very text. -/
theorem Cell.same_text {cell : Cell} {s : String} :
    cell.same (.text s) = true ↔ cell = .text s := by
  cases cell with
  | text t =>
      have irrefl : ¬ s < s := String.lt_irrefl s
      simp only [same, isNull, compare, compareText]
      by_cases before : t < s
      · simp only [before, if_true]
        simpa using fun equal : t = s => irrefl (equal ▸ before)
      · by_cases equal : t = s <;> simp [before, equal]
  | null => simp [same, isNull]
  | int n | real x | bytes b => exact iff_of_false Bool.false_ne_true (by simp)

theorem hasId_iff : hasId id l = true ↔ l.at 0 = .text id := Cell.same_text

/-- A line has one id at most. -/
theorem not_hasId (differs : other ≠ id) (there : hasId id l = true) : hasId other l = false := by
  rw [hasId_iff] at there
  refine Bool.eq_false_iff.mpr fun also => differs ?_
  rw [hasId_iff, there, Cell.text.injEq] at also
  exact also.symm

/-- A line of the table of records after a record has been saved to it. -/
def savedLine (r : JobRecord) (l : Line) : Line :=
  { l with cells := (Table.empty recordColumns).keptCells (savedCells r l.cells) }

/-- A save leaves the id of a line as it is. -/
theorem hasId_savedLine (there : hasId r.id l = true) : hasId r.id (savedLine r l) = true := by
  rw [hasId_iff] at there ⊢
  obtain ⟨number, cells⟩ := l
  simp only [Line.at] at there
  simp [savedLine, Table.keptCells, Table.empty, recordColumns, savedCells, Line.at, Column.key,
    Cell.kept, Cell.asText, there]

theorem find?_update (lines : List Line) :
    (lines.map fun l => if hasId r.id l then savedLine r l else l).find? (hasId other) =
      if other = r.id then (lines.find? (hasId r.id)).map (savedLine r)
      else lines.find? (hasId other) := by
  induction lines with
  | nil => simp
  | cons l rest ih =>
      rw [List.map_cons]
      by_cases here : hasId r.id l = true
      · rw [if_pos here]
        by_cases same : other = r.id
        · rw [if_pos same, same, List.find?_cons_of_pos (hasId_savedLine here),
            List.find?_cons_of_pos here, Option.map_some]
        · rw [if_neg same] at ih ⊢
          rw [List.find?_cons_of_neg (by simp [not_hasId same (hasId_savedLine here)]),
            List.find?_cons_of_neg (by simp [not_hasId same here]), ih]
      · rw [if_neg here]
        by_cases same : other = r.id
        · rw [if_pos same] at ih ⊢
          rw [List.find?_cons_of_neg here, ← ih, List.find?_cons_of_neg (by rwa [same])]
        · rw [if_neg same] at ih ⊢
          rw [List.find?_cons, List.find?_cons, ih]

theorem find?_erase (lines : List Line) :
    (lines.filter fun l => !hasId id l).find? (hasId other) =
      if other = id then none else lines.find? (hasId other) := by
  rw [List.find?_filter]
  split
  next same =>
    rw [List.find?_eq_none]
    intro l _
    rw [same]
    simp
  next differs =>
    congr 1
    funext l
    by_cases here : hasId id l = true
    · simp [here, not_hasId differs here]
    · simp [here]

theorem any_hasId : lines.any (hasId id) = (lines.find? (hasId id)).isSome := by
  rw [Bool.eq_iff_iff, List.find?_isSome, List.any_eq_true]

/-- The lines of the table of records under their ids. -/
def shelf (place : Part W Database) : Shelf W Line where
  Good := fun w => (place.get w).records.columns = recordColumns
  cell := fun w id => (place.get w).records.lines.find? (hasId id)
  written := savedLine

/-- The shelf of a database that is open. -/
def openShelf (place : Part W Database) : Shelf W Line :=
  { shelf place with Good := fun w => (shelf place).Good w ∧ (place.get w).isOpen = true }

/-- What comes of a change to the table of records. -/
theorem outcome_changeRecord {place : Part W Database} {change : Table → Table}
    {changed : Line → Option Line} {w : W} (lawful : place.Lawful) (good : (shelf place).Good w)
    (columns : ∀ t, (change t).columns = t.columns)
    (here : ∀ t, t.columns = recordColumns →
      (change t).lines.find? (hasId id) = (t.lines.find? (hasId id)).bind changed)
    (elsewhere : ∀ t other, t.columns = recordColumns → other ≠ id →
      (change t).lines.find? (hasId other) = t.lines.find? (hasId other)) :
    (shelf place).Outcome id changed w (place.answer (changeRecord id change) w) := by
  have unchanged : (shelf place).Same w (place.set (place.get w) w) :=
    ⟨fun good => by simpa [shelf, lawful _ w] using good, fun id => by simp [shelf, lawful _ w]⟩
  have answered : place.answer (changeRecord id change) w =
      ((changeRecord id change (place.get w)).1.mapError Fault.error,
        place.set (changeRecord id change (place.get w)).2 w) := rfl
  rw [answered, changeRecord, write]
  split
  next =>
    rw [any_hasId]
    cases stored : (place.get w).records.lines.find? (hasId id) with
    | none => exact .failed unchanged
    | some l =>
        refine .done stored ?_ ⟨fun _ => ?_, fun other differs => ?_⟩
        · simp [shelf, lawful _ w, here _ good, stored]
        · simpa [shelf, lawful _ w, columns] using good
        · simp [shelf, lawful _ w, elsewhere _ other good differs]
  next => exact .failed unchanged

theorem update_eq {t : Table} (columns : t.columns = recordColumns) :
    (t.update (hasId r.id) (savedCells r)).lines =
      t.lines.map fun l => if hasId r.id l then savedLine r l else l := by
  simp only [Table.update, savedLine, Table.keptCells, Table.empty, columns]

/-- Saves and deletes of a database do what they are asked to, or fail and change nothing. -/
theorem keeps {place : Part W Database} {nature : Part W Nature} (lawful : place.Lawful) :
    (shelf place).Keeps (recordStore place nature) where
  save := by
    intro r w good
    refine outcome_changeRecord lawful good (fun _ => rfl) (fun t columns => ?_)
      fun t other columns differs => ?_
    · rw [update_eq columns, find?_update, if_pos rfl]
      cases t.lines.find? (hasId r.id) <;> rfl
    · rw [update_eq columns, find?_update, if_neg differs]
  delete := by
    intro r w good
    refine outcome_changeRecord lawful good (fun _ => rfl) (fun t _ => ?_)
      fun t other _ differs => ?_
    · rw [Table.erase, find?_erase, if_pos rfl]
      cases t.lines.find? (hasId r.id) <;> rfl
    · rw [Table.erase, find?_erase, if_neg differs]

/-! ### While the database is open -/

theorem isOpen_changeRecord {place : Part W Database} {change : Table → Table} {w : W}
    (lawful : place.Lawful) :
    (place.get (place.answer (changeRecord id change) w).2).isOpen = (place.get w).isOpen := by
  have answered : (place.answer (changeRecord id change) w).2 =
      place.set (changeRecord id change (place.get w)).2 w := rfl
  rw [answered, lawful, changeRecord, write]
  by_cases isOpen : (place.get w).isOpen = true
  · rw [if_pos isOpen]
    cases (place.get w).records.lines.any (hasId id) <;> rfl
  · rw [if_neg isOpen]

/-- A change to the table leaves an open database open. -/
theorem outcome_open {place : Part W Database} {changed : Line → Option Line} {w : W}
    {result : Except (Fault StoreError) Unit × W}
    (outcome : (shelf place).Outcome id changed w result)
    (stays : (place.get result.2).isOpen = (place.get w).isOpen) :
    (openShelf place).Outcome id changed w result :=
  outcome.withGood fun ⟨good, isOpen⟩ => ⟨outcome.elsewhere.good good, stays.trans isOpen⟩

/-- The answer of an open database to a change of the table. -/
theorem changeRecord_answer {place : Part W Database} {change : Table → Table} {w : W}
    (isOpen : (place.get w).isOpen = true) : (place.answer (changeRecord id change) w).1 =
      Shelf.answer id ((shelf place).cell w id) := by
  have answered : (place.answer (changeRecord id change) w).1 =
      (changeRecord id change (place.get w)).1.mapError Fault.error := rfl
  rw [answered, changeRecord, write, if_pos isOpen, any_hasId]
  cases stored : (place.get w).records.lines.find? (hasId id) with
  | none =>
      simp only [shelf, stored, Shelf.answer]
      rfl
  | some line =>
      simp only [shelf, stored, Shelf.answer]
      rfl

/-- Saves and deletes of an open database do what they are asked to, unless there is no line with
the id. -/
theorem reliable {place : Part W Database} {nature : Part W Nature} (lawful : place.Lawful) :
    (openShelf place).Reliable (recordStore place nature) where
  save := fun r w good => outcome_open ((keeps lawful).save r w good.1) (isOpen_changeRecord lawful)
  delete := fun r w good =>
    outcome_open ((keeps lawful).delete r w good.1) (isOpen_changeRecord lawful)
  save_answer := fun _ _ good => changeRecord_answer good.2
  delete_answer := fun _ _ good => changeRecord_answer good.2

end JobQueue.Database
