/-
The stores that a service works with, as archives.

Records and files in memory stand beside each other (`MemoryStore.archive`), in a database they are
two tables of one part (`Database.archive`). In either case new ids come from the nature of the
world, and no id comes twice. Both the store of records and that of files may fail at any call
(`Premises`).
-/

import JobQueue.Database.Exports
import JobQueue.Export.Memory
import JobQueue.Proofs.Store.Archive

namespace JobQueue

variable {W C : Type}

/-! ### Ids -/

namespace Nature

variable {n n' : Nature} {id : String}

/-- Whether an id is still to be made. -/
def ToCome (n : Nature) (id : String) : Prop := ∃ k, n.made ≤ k ∧ n.ids k = id

/-- A nature that may have come out of another one by readings and new ids. -/
structure Follows (n n' : Nature) : Prop where
  ids : n'.ids = n.ids
  made : n.made ≤ n'.made

theorem Follows.refl : n.Follows n := ⟨rfl, Nat.le_refl _⟩

theorem Follows.of_eq (same : n' = n) : n.Follows n' := same ▸ .refl

theorem follows_spent : n.Follows n.spent := ⟨rfl, Nat.le_succ _⟩

theorem Follows.toCome (follows : n.Follows n') (toCome : n'.ToCome id) : n.ToCome id := by
  obtain ⟨k, late, rfl⟩ := toCome
  exact ⟨k, Nat.le_trans follows.made late, by rw [follows.ids]⟩

theorem Follows.injective (follows : n.Follows n') (distinct : Function.Injective n.ids) :
    Function.Injective n'.ids := follows.ids ▸ distinct

theorem toCome_next : n.ToCome (n.ids n.made) := ⟨n.made, Nat.le_refl _, rfl⟩

/-- An id that has been made does not come again. -/
theorem not_toCome_spent (distinct : Function.Injective n.ids) :
    ¬ n.spent.ToCome (n.ids n.made) := by
  rintro ⟨k, late, same⟩
  have own : k = n.made := distinct same
  rw [own] at late
  exact Nat.not_succ_le_self _ late

end Nature

/-- A choice among some things is one of them if each step of it is. -/
theorem isSome_foldl {α : Type} {choose : Option α → α → Option α}
    (each : ∀ best next, (choose best next).isSome = true) {l : List α} {best : Option α}
    (there : best.isSome = true ∨ l ≠ []) : (l.foldl choose best).isSome = true := by
  induction l generalizing best with
  | nil => exact there.resolve_right (by simp)
  | cons next rest ih => exact ih (.inl (each best next))

/-! ### In memory -/

namespace MemoryStore

variable {place : Part W MemoryStore} {files : Part W MemoryExports} {nature : Part W Nature}
  {w w' : W}

/-- Records and files in memory. -/
def archive (place : Part W MemoryStore) (files : Part W MemoryExports) (nature : Part W Nature) :
    Archive W JobRecord where
  toShelf := orderlyShelf place fun _ => True
  payload := JobRecord.payload
  IsTidy := fun w => Function.Injective (nature.get w).ids
  IsFresh := fun w id => (nature.get w).ToCome id
  HasFile := fun w id => ∃ f ∈ (files.get w).files, f.jobId = id

theorem aside_of (follows : (nature.get w).Follows (nature.get w'))
    (kept : (files.get w).files ⊆ (files.get w').files) :
    (archive place files nature).Aside w w' where
  tidy := follows.injective
  fresh := fun _ toCome => follows.toCome toCome
  files := fun _ ⟨f, there, own⟩ => ⟨f, kept there, own⟩

/-- Records in memory are served beside files in memory. -/
theorem serves (records : place.Beside nature) (both : place.Beside files)
    (exports : files.Beside nature) :
    (archive place files nature).Serves (recordStore place nature) where
  toCarries := carries records
  asideCreate := by
    intro new w _
    have filed : files.get ((recordStore place nature).create new w).2 = files.get w := by
      simp [recordStore, Part.use, both.secondKept, exports.firstKept]
    refine aside_of ?_ (filed ▸ List.Subset.refl _)
    rw [(created records new w).2.2]
    exact Nature.follows_spent
  asideFind := fun _ _ _ => .refl
  asideSave := fun _ w _ => aside_of (.of_eq (records.secondKept _ w))
    ((both.secondKept _ w).symm ▸ List.Subset.refl _)
  asideDelete := fun _ w _ => aside_of (.of_eq (records.secondKept _ w))
    ((both.secondKept _ w).symm ▸ List.Subset.refl _)
  asideAvailable := fun _ _ _ _ _ => .refl
  new := by
    intro new w r sound made
    obtain ⟨answered, _, spent⟩ := created records new w
    rw [answered] at made
    cases made
    refine ⟨Nature.toCome_next, ?_⟩
    show ¬ (nature.get _).ToCome _
    rw [spent]
    exact Nature.not_toCome_spent sound.tidy

end MemoryStore

namespace MemoryExports

variable {m : MemoryExports} {place : Part W MemoryStore} {files : Part W MemoryExports}
  {nature : Part W Nature}

theorem isSome_later (best : Option ExportFile) (next : ExportFile) :
    (later best next).isSome = true := by
  cases best with
  | none => rfl
  | some b =>
      rw [later]
      split <;> rfl

theorem not_file_of_find {id : String} (missed : m.find id = none) :
    ¬ ∃ f ∈ m.files, f.jobId = id := by
  rintro ⟨f, there, own⟩
  have listed : (m.files.filter fun f => f.jobId == id) ≠ [] :=
    List.ne_nil_of_mem (List.mem_filter.mpr ⟨there, beq_iff_eq.mpr own⟩)
  have found : (List.foldl later none _).isSome = true := isSome_foldl isSome_later (.inr listed)
  rw [find] at missed
  rw [missed] at found
  cases found

/-- Files in memory are kept beside records in memory. -/
theorem keepsFiles (records : place.Beside nature) (both : place.Beside files)
    (exports : files.Beside nature) :
    (MemoryStore.archive place files nature).KeepsFiles (exportStore files nature) := by
  have kept (new : NewExportFile) (w : W) :
      place.get ((exportStore files nature).create new w).2 = place.get w ∧
      nature.get ((exportStore files nature).create new w).2 = (nature.get w).spent ∧
      ∃ f, f.jobId = new.jobId ∧ (files.get ((exportStore files nature).create new w).2).files =
        (files.get w).files ++ [f] := by
    refine ⟨?_, ?_, new.toFile ((nature.get w).ids (nature.get w).made)
      ((nature.get w).readings (nature.get w).read), rfl, ?_⟩
    · simp [exportStore, Part.use, both.firstKept, records.firstKept]
    · simp [exportStore, Part.use, exports.secondKept, exports.second _ _, Nature.fresh, Nature.now,
        Nature.spent]
    · simp [exportStore, Part.use, exports.first _ _, exports.second _ _, exports.firstKept, create,
        Nature.fresh, Nature.now]
  constructor
  case making =>
    intro new w _
    obtain ⟨stored, spent, f, _, added⟩ := kept new w
    refine ⟨⟨fun good => ?_, fun id => congrArg (·.get? id) stored⟩, MemoryStore.aside_of ?_ ?_⟩
    · exact ⟨trivial, stored ▸ good.2⟩
    · exact spent ▸ Nature.follows_spent
    · exact added ▸ List.subset_append_left _ _
  case made =>
    intro new w _ _ _
    obtain ⟨_, _, f, own, added⟩ := kept new w
    exact ⟨f, added ▸ List.mem_append_right _ List.mem_cons_self, own⟩
  case looking => exact fun _ _ _ => .refl
  case missed =>
    intro id w _ missed
    exact not_file_of_find (Except.ok.inj missed)

end MemoryExports

/-! ### In a database -/

namespace Database

variable {db : Database} {t t' : Table} {place : Part W Database} {nature : Part W Nature}
  {w w' : W} {f : ExportFile} {id : String}

/-- Records and files in one database. -/
def archive (place : Part W Database) (nature : Part W Nature) : Archive W Line where
  toShelf := keyedShelf place
  payload := Line.payload
  IsTidy := fun w =>
    Function.Injective (nature.get w).ids ∧ (place.get w).files.columns = fileColumns
  IsFresh := fun w id => (nature.get w).ToCome id
  HasFile := fun w id => ∃ l ∈ (place.get w).files.lines, l.at 1 = .text id

theorem aside_of (follows : (nature.get w).Follows (nature.get w'))
    (columns : (place.get w').files.columns = (place.get w).files.columns)
    (kept : (place.get w).files.lines ⊆ (place.get w').files.lines) :
    (archive place nature).Aside w w' where
  tidy := fun ⟨distinct, own⟩ => ⟨follows.injective distinct, columns.trans own⟩
  fresh := fun _ toCome => follows.toCome toCome
  files := fun _ ⟨l, there, own⟩ => ⟨l, kept there, own⟩

theorem aside_of_files (follows : (nature.get w).Follows (nature.get w'))
    (same : (place.get w').files = (place.get w).files) : (archive place nature).Aside w w' :=
  aside_of follows (congrArg Table.columns same) (same ▸ List.Subset.refl _)

theorem changeRecord_files {change : Table → Table} :
    (changeRecord id change db).2.files = db.files := by
  rw [changeRecord, write]
  split
  next => cases db.records.lines.any (hasId id) <;> rfl
  next => rfl

/-- Records in a database are served beside its files. -/
theorem serves (beside : place.Beside nature) :
    (archive place nature).Serves (recordStore place nature) where
  toCarries := carries beside
  asideCreate := by
    intro new w sound
    obtain ⟨r, _, _, _, stored, spent⟩ := recordStore_create beside new w
    refine aside_of_files (spent ▸ Nature.follows_spent) ?_
    rw [stored]
    rcases createRecord_cases (r := r) sound.good.1 with ⟨_, _, grown⟩ | ⟨_, same⟩
    · rw [grown]
    · rw [same]
  asideFind := fun _ w _ => aside_of_files (.of_eq (beside.secondKept _ w))
    (congrArg Database.files (beside.first _ w))
  asideSave := fun _ w _ => aside_of_files (.of_eq (beside.secondKept _ w))
    ((congrArg Database.files (beside.first _ w)).trans changeRecord_files)
  asideDelete := fun _ w _ => aside_of_files (.of_eq (beside.secondKept _ w))
    ((congrArg Database.files (beside.first _ w)).trans changeRecord_files)
  asideAvailable := fun _ _ _ w _ => aside_of_files (.of_eq (beside.secondKept _ w))
    (congrArg Database.files (beside.first _ w))
  new := by
    intro new w r sound made
    obtain ⟨r', own, _, answered, _, spent⟩ := recordStore_create beside new w
    rw [answered] at made
    have same : r'.id = r.id := by
      rcases createRecord_cases (r := r') sound.good.1 with ⟨done, _⟩ | ⟨⟨e, failed⟩, _⟩
      · rw [done] at made
        cases made
        rfl
      · rw [failed] at made
        cases made
    rw [← same, own]
    refine ⟨Nature.toCome_next, ?_⟩
    show ¬ (nature.get _).ToCome _
    rw [spent]
    exact Nature.not_toCome_spent sound.tidy.1

/-- What comes of writing a new file. -/
theorem createFile_cases (columns : db.files.columns = fileColumns) :
    ((createFile f db).1 = .ok f ∧ ∃ l : Line, l.cells = fileCells f ∧
      (createFile f db).2 = { db with files := { db.files with
        lines := db.files.lines ++ [l] } }) ∨
    ((∃ e, (createFile f db).1 = .error e) ∧ (createFile f db).2 = db) := by
  rw [createFile]
  split
  next =>
    rw [write]
    split
    next =>
      cases added : db.files.insert (fileCells f) with
      | error e =>
          rw [insertFile, added]
          exact .inr ⟨⟨e, rfl⟩, rfl⟩
      | ok t =>
          rw [insertFile, added]
          rw [Table.insert] at added
          split at added
          · cases added
          · split at added
            · cases added
            · cases added
              refine .inl ⟨rfl, _, ?_, rfl⟩
              rw [Table.keptCells, columns]
              rfl
    next => exact .inr ⟨⟨_, rfl⟩, rfl⟩
  next => exact .inr ⟨⟨_, rfl⟩, rfl⟩

theorem at_jobId_of_cells {l : Line} (cells : l.cells = fileCells f) : l.at 1 = .text f.jobId := by
  rw [Line.at, cells]
  rfl

/-- The file that is stored next. -/
def nextFile (n : Nature) (new : NewExportFile) : ExportFile :=
  storedFile new (n.ids n.made) (n.readings n.read)

theorem nextFile_jobId {n : Nature} {new : NewExportFile} : (nextFile n new).jobId = new.jobId := by
  simp only [nextFile, storedFile, NewExportFile.toFile]

theorem exportStore_create_eq {new : NewExportFile} : (exportStore place nature).create new =
    stamped place nature fun id now => createFile (storedFile new id now) := by
  funext w
  simp only [exportStore, stamped]

/-- What is done to the database when a file is made. -/
theorem exportStore_create (beside : place.Beside nature) (new : NewExportFile) (w : W) :
    ((exportStore place nature).create new w).1 =
        (createFile (nextFile (nature.get w) new) (place.get w)).1.mapError Fault.error ∧
      place.get ((exportStore place nature).create new w).2 =
        (createFile (nextFile (nature.get w) new) (place.get w)).2 ∧
      nature.get ((exportStore place nature).create new w).2 = (nature.get w).spent := by
  rw [exportStore_create_eq]
  obtain ⟨result, does, called⟩ := stamped_spec beside
    (fun id now => createFile (storedFile new id now)) w
  have same : createFile (nextFile (nature.get w) new) (place.get w) = result := does
  rw [same]
  exact called

theorem isSome_laterLine (best : Option Line) (next : Line) :
    (laterLine best next).isSome = true := by
  cases best with
  | none => rfl
  | some b =>
      rw [laterLine]
      split <;> rfl

theorem not_file_of_findFile (missed : (findFile id db).1 = .ok none) :
    ¬ ∃ l ∈ db.files.lines, l.at 1 = .text id := by
  rintro ⟨l, there, own⟩
  have listed : db.files.linesWith 1 (.text id) ≠ [] :=
    List.ne_nil_of_mem (List.mem_filter.mpr ⟨there, Cell.same_text.mpr own⟩)
  have found : (List.foldl laterLine none _).isSome = true :=
    isSome_foldl isSome_laterLine (.inr listed)
  rw [findFile, read] at missed
  dsimp only at missed
  split at missed
  next =>
    rw [latestLine] at missed
    obtain ⟨latest, same⟩ := Option.isSome_iff_exists.mp found
    rw [same] at missed
    dsimp only at missed
    cases held : readFile latest <;> rw [held] at missed <;> cases missed
  next => cases missed

/-- Files in a database are kept beside its records. -/
theorem keepsFiles (beside : place.Beside nature) :
    (archive place nature).KeepsFiles (exportStore place nature) where
  making := by
    intro new w sound
    obtain ⟨_, stored, spent⟩ := exportStore_create beside new w
    generalize (exportStore place nature).create new w = result at stored spent ⊢
    have follows : (nature.get w).Follows (nature.get result.2) := spent ▸ Nature.follows_spent
    rcases createFile_cases (f := nextFile (nature.get w) new) sound.tidy.2 with
      ⟨_, l, _, grown⟩ | ⟨_, same⟩
    · rw [grown] at stored
      refine ⟨same_of_records (by rw [stored]), aside_of follows ?_ ?_⟩
      · rw [stored]
      · rw [stored]
        exact List.subset_append_left _ _
    · rw [same] at stored
      exact ⟨same_of_get stored, aside_of_files follows (congrArg Database.files stored)⟩
  made := by
    intro new w f sound made
    obtain ⟨answered, stored, _⟩ := exportStore_create beside new w
    generalize (exportStore place nature).create new w = result at made answered stored ⊢
    rcases createFile_cases (f := nextFile (nature.get w) new) sound.tidy.2 with
      ⟨_, l, cells, grown⟩ | ⟨⟨e, failed⟩, _⟩
    · rw [grown] at stored
      refine ⟨l, ?_, nextFile_jobId ▸ at_jobId_of_cells cells⟩
      rw [stored]
      exact List.mem_append_right _ List.mem_cons_self
    · rw [answered, failed] at made
      cases made
  looking := fun _ w _ => ⟨same_of_get (beside.first _ w), aside_of_files
    (.of_eq (beside.secondKept _ w)) (congrArg Database.files (beside.first _ w))⟩
  missed := by
    intro id w _ missed
    exact not_file_of_findFile (Part.answer_eq_ok.mp missed)

end Database

/-! ### Stores that may fail -/

/-- A store of files each of whose calls does what that of another does or fails. -/
structure ExportStore.MayFail (harmless : W → W → Prop) (base files : ExportStore W) : Prop where
  create : ∀ new, StoreCall.MayFail harmless (base.create new) (files.create new)
  findByJob : ∀ id, StoreCall.MayFail harmless (base.findByJob id) (files.findByJob id)

theorem ExportStore.MayFail.self {harmless : W → W → Prop} (refl : ∀ w, harmless w w)
    (files : ExportStore W) : ExportStore.MayFail harmless files files :=
  ⟨fun _ => .self refl _, fun _ => .self refl _⟩

theorem Archive.Spared.trans {archive : Archive W C} {w w₀ w' : W} (first : archive.Spared w w₀)
    (second : archive.Spared w₀ w') : archive.Spared w w' :=
  ⟨first.same.trans second.same, first.aside.trans second.aside⟩

/-- A store of files that may fail keeps its files as well. -/
theorem Archive.KeepsFiles.mayFail {archive : Archive W C} {base files : ExportStore W}
    (keeps : archive.KeepsFiles base) (mayFail : ExportStore.MayFail archive.Spared base files) :
    archive.KeepsFiles files where
  making := by
    intro new w sound
    rcases mayFail.create new w with ⟨w₀, spared, does⟩ | ⟨fault, w', spared, fails⟩
    · exact does ▸ spared.trans (keeps.making new w₀ (sound.spared spared))
    · exact fails ▸ spared
  made := by
    intro new w f sound made
    rcases mayFail.create new w with ⟨w₀, spared, does⟩ | ⟨fault, w', spared, fails⟩
    · rw [does] at made ⊢
      exact keeps.made new w₀ f (sound.spared spared) made
    · simp [fails] at made
  looking := by
    intro id w sound
    rcases mayFail.findByJob id w with ⟨w₀, spared, does⟩ | ⟨fault, w', spared, fails⟩
    · exact does ▸ spared.trans (keeps.looking id w₀ (sound.spared spared))
    · exact fails ▸ spared
  missed := by
    intro id w sound missed
    rcases mayFail.findByJob id w with ⟨w₀, spared, does⟩ | ⟨fault, w', spared, fails⟩
    · rw [does] at missed
      exact fun has => keeps.missed id w₀ (sound.spared spared) missed (spared.aside.files id has)
    · simp [fails] at missed

/-- The stores of records and of files of a service: in memory or in a database, and each of their
calls may fail. -/
inductive Premises : {C : Type} → Archive W C → RecordStore W → ExportStore W → Prop where
  | memory {place : Part W MemoryStore} {exports : Part W MemoryExports} {nature : Part W Nature}
      {records : RecordStore W} {files : ExportStore W} (besideNature : place.Beside nature)
      (besideFiles : place.Beside exports) (filesBeside : exports.Beside nature)
      (recordsMayFail : RecordStore.MayFail (MemoryStore.archive place exports nature).Spared
        (MemoryStore.recordStore place nature) records)
      (filesMayFail : ExportStore.MayFail (MemoryStore.archive place exports nature).Spared
        (MemoryExports.exportStore exports nature) files) :
      Premises (MemoryStore.archive place exports nature) records files
  | database {place : Part W Database} {nature : Part W Nature} {records : RecordStore W}
      {files : ExportStore W} (beside : place.Beside nature)
      (recordsMayFail : RecordStore.MayFail (Database.archive place nature).Spared
        (Database.recordStore place nature) records)
      (filesMayFail : ExportStore.MayFail (Database.archive place nature).Spared
        (Database.exportStore place nature) files) :
      Premises (Database.archive place nature) records files

theorem Premises.serves {archive : Archive W C} {records : RecordStore W} {files : ExportStore W}
    (premises : Premises archive records files) : archive.Serves records := by
  cases premises with
  | memory besideNature besideFiles filesBeside mayFail =>
      exact (MemoryStore.serves besideNature besideFiles filesBeside).mayFail mayFail
  | database beside mayFail => exact (Database.serves beside).mayFail mayFail

theorem Premises.keepsFiles {archive : Archive W C} {records : RecordStore W}
    {files : ExportStore W} (premises : Premises archive records files) :
    archive.KeepsFiles files := by
  cases premises with
  | memory besideNature besideFiles filesBeside _ mayFail =>
      exact (MemoryExports.keepsFiles besideNature besideFiles filesBeside).mayFail mayFail
  | database beside _ mayFail => exact (Database.keepsFiles beside).mayFail mayFail

end JobQueue
