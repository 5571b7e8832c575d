/-
Sources of rows and stores of export files, as an export sees them.

A catalog tells what a source lists under each name and which entries meet a filter. A source that
follows it gives the rows of just those entries that meet all filters, or nothing
(`Catalog.Follows`). A file shelf tells which files a store keeps; a call that is to make a file
adds the one asked for, or fails and adds none (`FileShelf.Adds`). Both hold in memory and in a
database, and a call of a store that may fail adds files as well (`FileShelf.Adds.mayFail`).
-/

import JobQueue.Proofs.Service.Premises

namespace JobQueue

variable {W L C : Type}

/-! ### Sources of rows -/

/-- What is told of a source of rows. -/
structure Catalog (W L : Type) where
  /-- The entries under a name, in their order. -/
  listed : W → String → Option (List L)
  /-- Whether an entry has the value asked for under a key. -/
  meets : String × Json → L → Bool
  /-- The row that shows an entry. -/
  row : L → Row

namespace Catalog

/-- Whether an entry meets every filter. -/
def passes (catalog : Catalog W L) (filters : Row) (l : L) : Bool :=
  filters.all fun f => catalog.meets f l

/-- The rows of the entries that meet every filter. -/
def select (catalog : Catalog W L) (filters : Row) (entries : List L) : List Row :=
  (entries.filter fun l => catalog.passes filters l).map catalog.row

theorem length_select {catalog : Catalog W L} {filters : Row} {entries : List L} :
    (catalog.select filters entries).length = entries.countP fun l => catalog.passes filters l := by
  rw [select, List.length_map, List.countP_eq_length_filter]

/-- Whether a source gives, if anything, the rows of all entries that meet the filters. -/
def Follows (catalog : Catalog W L) (source : ExportSource W) : Prop :=
  ∀ name filters w rows, (source.fetch name filters w).1 = .ok rows →
    ∃ entries, catalog.listed w name = some entries ∧ rows = catalog.select filters entries

end Catalog

namespace MemorySource

/-- Rows in memory; a missing value counts as null. -/
def catalog (place : Part W MemorySource) : Catalog W Row where
  listed := fun w name => (place.get w).sources.lookup name
  meets := fun f row => Json.same ((Fields.get? row f.1).getD .null) f.2
  row := id

theorem follows (place : Part W MemorySource) :
    (catalog place).Follows (exportSource place) := by
  intro name filters w rows fetched
  have answered : (place.get w).fetch name filters = .ok rows := Part.answer_eq_ok.mp fetched
  rw [fetch] at answered
  split at answered
  next entries listed =>
    cases answered
    exact ⟨entries, listed, (List.map_id _).symm⟩
  next => cases answered

end MemorySource

namespace Database

/-- The tables of a database; a line has the value asked for if the database says so. -/
def catalog (place : Part W Database) : Catalog W (Table × Line) where
  listed := fun w name => ((place.get w).table? name).map fun t => t.lines.map fun l => (t, l)
  meets := fun f entry =>
    match Condition.ofFilter f.1 f.2 with
    | .ok c => c.holds entry.1 entry.2
    | .error _ => false
  row := fun entry => entry.1.toFields entry.2

/-- The conditions of some filters hold of a line if and only if it meets every filter. -/
theorem all_holds (place : Part W Database) (t : Table) (l : Line) {filters : Row}
    {conditions : List Condition}
    (made : (filters.mapM fun (name, value) => Condition.ofFilter name value) = .ok conditions) :
    (conditions.all fun c => c.holds t l) = (catalog place).passes filters (t, l) := by
  induction filters generalizing conditions with
  | nil =>
      cases made
      rfl
  | cons f filters ih =>
      rw [List.mapM_cons, bind_eq_ok] at made
      obtain ⟨c, first, made⟩ := made
      obtain ⟨others, later, same⟩ := bind_eq_ok.mp made
      cases same
      have meets : (catalog place).meets f (t, l) = c.holds t l := by
        simp only [catalog, first]
      rw [List.all_cons, ih later, Catalog.passes, Catalog.passes, List.all_cons, meets]

/-- Rows that are fetched are those of the lines of a table that the filters select. -/
theorem of_fetchRows {db : Database} {name : String} {filters : Row} {rows : List Row}
    (fetched : (fetchRows name filters db).1 = .ok rows) : ∃ t conditions,
      db.table? name = some t ∧
      (filters.mapM fun (name, value) => Condition.ofFilter name value) = .ok conditions ∧
      rows = (Selection.lines ⟨name, conditions⟩ t).map t.toFields := by
  rw [fetchRows] at fetched
  split at fetched
  next =>
    rw [read] at fetched
    dsimp only at fetched
    split at fetched
    next =>
      rw [rowsOf] at fetched
      split at fetched
      next t found =>
        cases selected : Selection.ofFilters name filters with
        | error e =>
            rw [selected] at fetched
            cases fetched
        | ok s =>
            rw [selected] at fetched
            cases fetched
            obtain ⟨conditions, made, same⟩ := bind_eq_ok.mp selected
            cases same
            exact ⟨t, conditions, found, made, rfl⟩
      next => cases fetched
    next => cases fetched
  next => cases fetched

theorem fetchRows_snd {db : Database} {name : String} {filters : Row} :
    (fetchRows name filters db).2 = db := by
  rw [fetchRows]
  split <;> rfl

theorem follows (place : Part W Database) : (catalog place).Follows (exportSource place) := by
  intro name filters w rows fetched
  obtain ⟨t, conditions, found, made, rfl⟩ := of_fetchRows (Part.answer_eq_ok.mp fetched)
  refine ⟨t.lines.map fun l => (t, l), congrArg (Option.map _) found, ?_⟩
  have same (l : Line) := all_holds place t l made
  simp only [Selection.lines, Catalog.select, List.filter_map, List.map_map, Function.comp_def,
    same, catalog]

end Database

/-! ### Stores of files -/

/-- Whether a file is the one that was asked for. Its id and its creation time are the store's own,
and its expiration may be cut to what the store keeps of a time. -/
structure ExportFile.MadeFrom (f : ExportFile) (new : NewExportFile) : Prop where
  jobId : f.jobId = new.jobId
  userId : f.userId = new.userId
  fileName : f.fileName = new.fileName
  content : f.content = new.content
  recordCount : f.recordCount = new.recordCount

theorem NewExportFile.madeFrom_toFile (new : NewExportFile) (id : String) (now : Instant) :
    (new.toFile id now).MadeFrom new := ⟨rfl, rfl, rfl, rfl, rfl⟩

/-- What is told of a store of files. -/
structure FileShelf (W C : Type) where
  /-- Whether the store is in order. -/
  Good : W → Prop
  /-- What is kept, in the order in which it was made. -/
  kept : W → List C
  /-- Whether a file is what is kept in a place. -/
  Holds : C → ExportFile → Prop

namespace FileShelf

variable {shelf : FileShelf W C} {new : NewExportFile} {w w' w₀ : W} {base files : ExportStore W}
  {result : Except (Fault StoreError) ExportFile × W}

/-- The files are as they were. -/
structure Same (shelf : FileShelf W C) (w w' : W) : Prop where
  good : shelf.Good w → shelf.Good w'
  kept : shelf.kept w' = shelf.kept w

theorem Same.refl : shelf.Same w w := ⟨fun good => good, rfl⟩

theorem Same.trans (first : shelf.Same w w₀) (second : shelf.Same w₀ w') : shelf.Same w w' :=
  ⟨fun good => second.good (first.good good), second.kept.trans first.kept⟩

/-- What comes of a call that is to make a file: no change, or one file more. -/
inductive Creation (shelf : FileShelf W C) (new : NewExportFile) (w : W) :
    Except (Fault StoreError) ExportFile × W → Prop where
  | failed {fault : Fault StoreError} {w' : W} (same : shelf.Same w w') :
      Creation shelf new w (.error fault, w')
  | made {f : ExportFile} {c : C} {w' : W} (good : shelf.Good w') (own : f.MadeFrom new)
      (holds : shelf.Holds c f) (added : shelf.kept w' = shelf.kept w ++ [c]) :
      Creation shelf new w (.ok f, w')

theorem Creation.after (creation : shelf.Creation new w₀ result) (same : shelf.Same w w₀) :
    shelf.Creation new w result := by
  cases creation with
  | failed later => exact .failed (same.trans later)
  | made good own holds added => exact .made good own holds (same.kept ▸ added)

/-- Whether a store adds each file that it makes, and nothing else. -/
def Adds (shelf : FileShelf W C) (files : ExportStore W) : Prop :=
  ∀ new w, shelf.Good w → shelf.Creation new w (files.create new w)

/-- A store whose calls may fail adds its files as well. -/
theorem Adds.mayFail (adds : shelf.Adds base)
    (mayFail : ∀ new, StoreCall.MayFail shelf.Same (base.create new) (files.create new)) :
    shelf.Adds files := by
  intro new w good
  rcases mayFail new w with ⟨w₀, same, does⟩ | ⟨fault, w', same, fails⟩
  · exact does ▸ (adds new w₀ (same.good good)).after same
  · exact fails ▸ .failed same

end FileShelf

/-- Files in memory. -/
def MemoryExports.fileShelf (place : Part W MemoryExports) : FileShelf W ExportFile where
  Good := fun _ => True
  kept := fun w => (place.get w).files
  Holds := fun c f => c = f

theorem MemoryExports.adds {place : Part W MemoryExports} {nature : Part W Nature}
    (beside : place.Beside nature) :
    (fileShelf place).Adds (exportStore place nature) := by
  intro new w _
  refine .made trivial (new.madeFrom_toFile _ _) rfl ?_
  simp [fileShelf, beside.first _ _, beside.firstKept]

namespace Database

/-- Files in a database. -/
def fileShelf (place : Part W Database) : FileShelf W Line where
  Good := fun w => (place.get w).files.columns = fileColumns
  kept := fun w => (place.get w).files.lines
  Holds := fun l f => l.cells = fileCells f

theorem madeFrom_storedFile (new : NewExportFile) (id : String) (now : Instant) :
    (storedFile new id now).MadeFrom new := ⟨rfl, rfl, rfl, rfl, rfl⟩

theorem same_files {place : Part W Database} {w w' : W} (kept : place.get w' = place.get w) :
    (fileShelf place).Same w w' := by
  refine ⟨fun good => ?_, congrArg (fun db => db.files.lines) kept⟩
  show (place.get w').files.columns = fileColumns
  rw [kept]
  exact good

/-- A file is written only while the database is open, and only with a record count that a cell
holds. -/
theorem of_createFile {db : Database} {f f' : ExportFile} (made : (createFile f db).1 = .ok f') :
    db.isOpen = true ∧ f.recordCount < countBound := by
  rw [createFile] at made
  split at made
  next held =>
    rw [write] at made
    split at made
    next isOpen =>
      have small : (f.recordCount : Int) < Word.count 63 := by
        simp only [Cell.holds, Word.fits, Bool.and_eq_true, decide_eq_true_eq] at held
        exact held.2
      have wider : Word.count 63 < countBound := by decide
      exact ⟨isOpen, by omega⟩
    next => cases made
  next => cases made

/-- What comes of making a file in a database: the next file stands in a line at the end, or nothing
has changed. -/
theorem create_cases {place : Part W Database} {nature : Part W Nature}
    (beside : place.Beside nature) (new : NewExportFile) {w : W}
    (columns : (place.get w).files.columns = fileColumns) :
    ∃ w', nature.get w' = (nature.get w).spent ∧
      ((∃ l : Line, l.cells = fileCells (nextFile (nature.get w) new) ∧
          (place.get w).isOpen = true ∧ new.recordCount < countBound ∧
          (exportStore place nature).create new w = (.ok (nextFile (nature.get w) new), w') ∧
          place.get w' = { place.get w with files := { (place.get w).files with
            lines := (place.get w).files.lines ++ [l] } }) ∨
        (∃ e, (exportStore place nature).create new w = (.error (.error e), w')) ∧
          place.get w' = place.get w) := by
  obtain ⟨answered, stored, spent⟩ := exportStore_create beside new w
  generalize (exportStore place nature).create new w = called at answered stored spent ⊢
  obtain ⟨answer, w'⟩ := called
  dsimp only at answered stored spent
  refine ⟨w', spent, ?_⟩
  rcases createFile_cases (f := nextFile (nature.get w) new) columns with
    ⟨made, l, cells, grown⟩ | ⟨⟨e, failed⟩, same⟩
  · obtain ⟨isOpen, bounded⟩ := of_createFile made
    rw [made] at answered
    cases answered
    exact .inl ⟨l, cells, isOpen, bounded, rfl, stored.trans grown⟩
  · rw [failed] at answered
    cases answered
    exact .inr ⟨⟨e, rfl⟩, stored.trans same⟩

theorem adds {place : Part W Database} {nature : Part W Nature} (beside : place.Beside nature) :
    (fileShelf place).Adds (exportStore place nature) := by
  intro new w good
  obtain ⟨w', _, ⟨l, cells, _, _, made, grown⟩ | ⟨⟨e, failed⟩, same⟩⟩ :=
    create_cases beside new good
  · rw [made]
    refine .made ?_ (madeFrom_storedFile _ _ _) cells ?_
    · show (place.get w').files.columns = fileColumns
      rw [grown]
      exact good
    · exact congrArg (fun db => db.files.lines) grown
  · rw [failed]
    exact .failed (same_files same)

end Database

end JobQueue
