/-
Finding the file that has just been made.

After any files have been made one after another, the file made last is the one that is found for
its job unless an earlier one is dated later (`MemoryExports.find_created`). A database finds
its line in the same way, but what it answers depends on the expiration alone: a time of the years 0
to 9999 is read back from its text, and any other one makes the line corrupt
(`Database.created_file_found`). An expiration some days from now can lie past these years, and the
latest of all does (`Database.created_file_lost`).
-/

import JobQueue.Proofs.Database.Mirror
import JobQueue.Proofs.Export.Stores
import JobQueue.Service.Site

namespace JobQueue

variable {W C α : Type}

/-! ### Files made one after another -/

/-- Makes some files, one after another; the files that have been made, in their order. -/
def ExportStore.createAll (files : ExportStore W) : List NewExportFile → W → List ExportFile × W
  | [], w => ([], w)
  | new :: later, w =>
      let (answer, w) := files.create new w
      let (made, w) := files.createAll later w
      (answer.toOption.toList ++ made, w)

/-- A store that adds each file that it makes has them all at its end, in their order. -/
theorem FileShelf.Adds.createAll {shelf : FileShelf W C} {files : ExportStore W}
    (adds : shelf.Adds files) (news : List NewExportFile) {w : W} (good : shelf.Good w) :
    shelf.Good (files.createAll news w).2 ∧
      ∃ added, shelf.kept (files.createAll news w).2 = shelf.kept w ++ added ∧
        List.Forall₂ shelf.Holds added (files.createAll news w).1 := by
  induction news generalizing w with
  | nil => exact ⟨good, [], (List.append_nil _).symm, .nil⟩
  | cons new later ih =>
      have creation := adds new w good
      rw [ExportStore.createAll]
      generalize files.create new w = called at creation ⊢
      cases creation with
      | failed same =>
          obtain ⟨goodAfter, added, kept, holds⟩ := ih (same.good good)
          exact ⟨goodAfter, added, same.kept ▸ kept, holds⟩
      | made goodThen _ held grown =>
          obtain ⟨goodAfter, added, kept, holds⟩ := ih goodThen
          refine ⟨goodAfter, _ :: added, ?_, .cons held holds⟩
          rw [kept, grown, List.append_assoc]
          rfl

/-- What is chosen among some things, each time between the choice so far and the next, is one of
them. -/
theorem mem_of_foldl {choose : Option α → α → Option α}
    (either : ∀ best next, choose best next = best ∨ choose best next = some next) {l : List α}
    {best : Option α} {a : α} (chosen : l.foldl choose best = some a) : best = some a ∨ a ∈ l := by
  induction l generalizing best with
  | nil => exact .inl chosen
  | cons next rest ih =>
      rcases ih chosen with here | there
      · rcases either best next with kept | taken
        · exact .inl (kept.symm.trans here)
        · rw [taken, Option.some.injEq] at here
          exact .inr (here ▸ List.mem_cons_self)
      · exact .inr (List.mem_cons_of_mem _ there)

/-- The last of some things is chosen if it is chosen over each of those before it. -/
theorem foldl_choose_last {choose : Option α → α → Option α}
    (either : ∀ best next, choose best next = best ∨ choose best next = some next) {l : List α}
    {a : α} (alone : choose none a = some a) (wins : ∀ b ∈ l, choose (some b) a = some a) :
    (l ++ [a]).foldl choose none = some a := by
  rw [List.foldl_append, List.foldl_cons, List.foldl_nil]
  cases chosen : l.foldl choose none with
  | none => exact alone
  | some b =>
      rcases mem_of_foldl either chosen with here | listed
      · cases here
      · exact wins b listed

theorem exists_of_mem_forall₂ {β : Type} {R : α → β → Prop} {l : List α} {m : List β} {a : α}
    (related : List.Forall₂ R l m) (there : a ∈ l) : ∃ b ∈ m, R a b := by
  induction related with
  | nil => cases there
  | cons first _ ih =>
      rcases List.mem_cons.mp there with rfl | later
      · exact ⟨_, List.mem_cons_self, first⟩
      · obtain ⟨b, inside, relates⟩ := ih later
        exact ⟨b, List.mem_cons_of_mem _ inside, relates⟩

/-! ### In memory -/

namespace MemoryExports

variable {place : Part W MemoryExports} {nature : Part W Nature}

theorem later_either (best : Option ExportFile) (next : ExportFile) :
    later best next = best ∨ later best next = some next := by
  cases best with
  | none => exact .inr rfl
  | some b =>
      rw [later]
      split
      · exact .inl rfl
      · exact .inr rfl

/-- A file at the end is the one that is found for its job unless one before it is dated later. -/
theorem find_added {f : ExportFile} {before : List ExportFile}
    (latest : ∀ g ∈ before, g.jobId = f.jobId → ¬ f.created < g.created) :
    find ⟨before ++ [f]⟩ f.jobId = some f := by
  have own : [f].filter (fun g => g.jobId == f.jobId) = [f] :=
    List.filter_cons_of_pos (beq_self_eq_true f.jobId)
  rw [find, List.filter_append, own]
  apply foldl_choose_last later_either
  · rfl
  · intro g listed
    obtain ⟨there, same⟩ := List.mem_filter.mp listed
    rw [later, if_neg (latest g there (beq_iff_eq.mp same))]

/-- In memory a file that has just been made is found, whatever its expiration. -/
theorem find_created (beside : place.Beside nature) {w w₁ w₂ : W}
    (start : (place.get w).files = []) (earlier : List NewExportFile) (new : NewExportFile)
    {made : List ExportFile} {f : ExportFile}
    (before : (exportStore place nature).createAll earlier w = (made, w₁))
    (created : (exportStore place nature).create new w₁ = (.ok f, w₂))
    (latest : ∀ g ∈ made, g.jobId = f.jobId → ¬ f.created < g.created) :
    ((exportStore place nature).findByJob f.jobId w₂).1 = .ok (some f) := by
  obtain ⟨_, added, kept, holds⟩ := (adds beside).createAll earlier (w := w) trivial
  have creation := adds beside new w₁ trivial
  rw [before] at kept holds
  rw [created] at creation
  cases creation with
  | made _ _ held grown =>
      have whole : place.get w₂ = ⟨made ++ [f]⟩ := by
        have same : added = made := by rwa [← List.forall₂_eq_eq_eq]
        have files : (place.get w₂).files = (place.get w₁).files ++ [_] := grown
        have first : (place.get w₁).files = (place.get w).files ++ added := kept
        rw [first, start, List.nil_append, same, held] at files
        rw [← files]
      show Except.ok ((place.get w₂).find f.jobId) = _
      rw [whole, find_added latest]

end MemoryExports

/-! ### In a database -/

/-- The expiration some days after a time in no leap second lies in none. -/
theorem plain_expirationFrom {now : Instant} (plain : now.Plain) (days : Nat) :
    (expirationFrom now days).Plain := by
  rw [expirationFrom, Instant.plusDays?, Instant.inCalendar?]
  split
  · exact plain
  · exact (by decide : Instant.latest.Plain)

theorem Instant.micros_toMicro (t : Instant) : t.toMicro.nanos % 1000 = 0 :=
  Nat.mul_mod_left _ _

theorem Instant.Plain.toMicro {t : Instant} (plain : t.Plain) : t.toMicro.Plain :=
  Nat.lt_of_le_of_lt (Nat.div_mul_le_self t.nanos 1000) plain

theorem Instant.hasFourDigitYear_toMicro {t : Instant} :
    t.toMicro.HasFourDigitYear ↔ t.HasFourDigitYear := Iff.rfl

/-- Whether the clock reads times of the years 0 to 9999, and none in a leap second. -/
def Nature.IsOrdinary (n : Nature) : Prop :=
  ∀ k, (n.readings k).Plain ∧ (n.readings k).HasFourDigitYear

namespace Database

variable {place : Part W Database} {nature : Part W Nature} {l : Line} {f : ExportFile}
  {t : Instant} {id column : String}

/-- The error for a stored time that begins with a sign. -/
def unreadTime (id column : String) : StoreError :=
  .corrupt id s!"invalid {column} timestamp: {Time.Fault.invalid.message}"

theorem storedTime_of_far (far : ¬ t.HasFourDigitYear) :
    storedTime id column t.storedText = .error (unreadTime id column) := by
  rw [storedTime, Instant.storedText, Time.readStrict_stamp_of_far far]
  rfl

theorem ok_bind {β : Type} {a : α} {next : α → Except StoreError β} :
    (Except.ok a >>= next) = next a := rfl

/-- What is read from the line of a file: the file with the times that their texts tell. -/
theorem readFile_eq (cells : l.cells = fileCells f) (bounded : f.recordCount < countBound) :
    readFile l =
      (storedTime f.id "expires_at" f.expiresAt.storedText >>= fun expiresAt =>
        storedTime f.id "created" f.created.storedText >>= fun created =>
          .ok { f with expiresAt := expiresAt, created := created }) := by
  have cell (i : Nat) : l.at i = ((fileCells f)[i]?).getD .null := by rw [Line.at, cells]
  have content : l.at 4 = .bytes f.content := cell 4
  rw [readFile, readText_eq_ok.mpr (cell 0), ok_bind, readText_eq_ok.mpr (cell 1), ok_bind,
    readText_eq_ok.mpr (cell 2), ok_bind, readText_eq_ok.mpr (cell 3), ok_bind, content, readBytes,
    ok_bind, readInt_eq_ok.mpr (cell 5), ok_bind, readText_eq_ok.mpr (cell 6), ok_bind,
    readText_eq_ok.mpr (cell 7), ok_bind, countBelow_eq_ok.mpr ⟨rfl, bounded⟩, ok_bind]

/-- What is read from the line of a file: the file, unless four digits do not write the year of its
expiration. -/
theorem readFile_of_cells (cells : l.cells = fileCells f) (bounded : f.recordCount < countBound)
    (created : f.created.Regular) (plain : f.expiresAt.Plain)
    (micros : f.expiresAt.nanos % 1000 = 0) :
    readFile l = if f.expiresAt.HasFourDigitYear then .ok f
      else .error (unreadTime f.id "expires_at") := by
  rw [readFile_eq cells bounded]
  split
  next year =>
    have ends : f.expiresAt.Regular := ⟨plain, micros, year⟩
    rw [storedTime_eq_ok.mpr ends.strict?_storedText, ok_bind,
      storedTime_eq_ok.mpr created.strict?_storedText, ok_bind]
  next far =>
    rw [storedTime_of_far far]
    rfl

/-- A file whose times are told by their texts is read back from its line. -/
theorem readFile_of_exact (cells : l.cells = fileCells f) (bounded : f.recordCount < countBound)
    (created : f.created.Exact) (ends : f.expiresAt.Exact) : readFile l = .ok f := by
  rw [readFile_eq cells bounded, storedTime_eq_ok.mpr ends.strict?_storedText, ok_bind,
    storedTime_eq_ok.mpr created.strict?_storedText, ok_bind]

/-! #### The latest line -/

theorem laterLine_either (best : Option Line) (next : Line) :
    laterLine best next = best ∨ laterLine best next = some next := by
  cases best with
  | none => exact .inr rfl
  | some b =>
      rw [laterLine]
      split
      · exact .inl rfl
      · exact .inr rfl

/-- A line at the end is the latest of its job unless one before it has a greater creation text. -/
theorem latestLine_added {table : Table} {jobId : String} (own : l.at 1 = .text jobId)
    (latest : ∀ b ∈ table.lines, b.at 1 = .text jobId →
      Cell.compare (l.at 7) (b.at 7) ≠ .lt) :
    latestLine jobId { table with lines := table.lines ++ [l] } = some l := by
  have listed : [l].filter (fun b => (b.at 1).same (.text jobId)) = [l] :=
    List.filter_cons_of_pos (Cell.same_text.mpr own)
  rw [latestLine, Table.linesWith, List.filter_append, listed]
  apply foldl_choose_last laterLine_either
  · rfl
  · intro b listed
    obtain ⟨there, same⟩ := List.mem_filter.mp listed
    rw [laterLine, if_neg (latest b there (Cell.same_text.mp same))]

/-- The creation cells of two files compare as their times do. -/
theorem compare_created_of_exact {b : Line} {g : ExportFile} (cells : l.cells = fileCells f)
    (others : b.cells = fileCells g) (first : f.created.Exact) (second : g.created.Exact) :
    Cell.compare (l.at 7) (b.at 7) = .lt ↔ f.created < g.created := by
  have own : l.at 7 = .text f.created.storedText := by
    rw [Line.at, cells]
    rfl
  have other : b.at 7 = .text g.created.storedText := by
    rw [Line.at, others]
    rfl
  rw [own, other, Cell.compare, Cell.compareText, ← first.storedText_lt_storedText_iff second]
  split
  next before => exact iff_of_true rfl before
  next notBefore => exact iff_of_false (by split <;> decide) notBefore

theorem compare_created {b : Line} {g : ExportFile} (cells : l.cells = fileCells f)
    (others : b.cells = fileCells g) (first : f.created.Regular) (second : g.created.Regular) :
    Cell.compare (l.at 7) (b.at 7) = .lt ↔ f.created < g.created :=
  compare_created_of_exact cells others first.exact second.exact

/-! #### What is found -/

/-- The files of a database whose clock reads ordinary times. -/
def datedShelf (place : Part W Database) (nature : Part W Nature) : FileShelf W Line where
  Good := fun w => (place.get w).files.columns = fileColumns ∧ (nature.get w).IsOrdinary
  kept := fun w => (place.get w).files.lines
  Holds := fun l f => l.cells = fileCells f ∧ f.created.Regular

theorem regular_nextFile {n : Nature} (ordinary : n.IsOrdinary) (new : NewExportFile) :
    (nextFile n new).created.Regular :=
  ⟨(ordinary n.read).1.toMicro, Instant.micros_toMicro _, (ordinary n.read).2⟩

theorem adds_dated (beside : place.Beside nature) :
    (datedShelf place nature).Adds (exportStore place nature) := by
  intro new w ⟨columns, ordinary⟩
  obtain ⟨w', spent, ⟨l, cells, _, _, made, grown⟩ | ⟨⟨e, failed⟩, same⟩⟩ :=
    create_cases beside new columns
  · have stays : (nature.get w').IsOrdinary := spent ▸ ordinary
    rw [made]
    refine .made ⟨?_, stays⟩ (madeFrom_storedFile _ _ _) ⟨cells, regular_nextFile ordinary new⟩ ?_
    · rw [grown]
      exact columns
    · exact congrArg (fun db => db.files.lines) grown
  · rw [failed]
    refine .failed ⟨fun _ => ⟨?_, spent ▸ ordinary⟩, congrArg (fun db => db.files.lines) same⟩
    rw [same]
    exact columns

/-- After any files have been made in a new table, a file that has just been made to expire some
days from a time, no earlier one of its job being dated later, is found if its expiration lies in
the years 0 to 9999. If not, its line is corrupt. -/
theorem created_file_found (beside : place.Beside nature) {w w₁ w₂ : W}
    (start : (place.get w).files = .empty fileColumns) (ordinary : (nature.get w).IsOrdinary)
    (earlier : List NewExportFile) (new : NewExportFile) {now : Instant} (plain : now.Plain)
    (days : Nat) {made : List ExportFile} {f : ExportFile}
    (before : (exportStore place nature).createAll earlier w = (made, w₁))
    (created : (exportStore place nature).create (new.expiresInDays now days) w₁ = (.ok f, w₂))
    (latest : ∀ g ∈ made, g.jobId = f.jobId → ¬ f.created < g.created) :
    ((exportStore place nature).findByJob f.jobId w₂).1 =
      if (expirationFrom now days).HasFourDigitYear then .ok (some f)
      else .error (.error (unreadTime f.id "expires_at")) := by
  have columns : (place.get w).files.columns = fileColumns := by rw [start, Table.empty]
  obtain ⟨⟨columns₁, ordinary₁⟩, lines, kept, holds⟩ :=
    (adds_dated beside).createAll earlier ⟨columns, ordinary⟩
  rw [before] at columns₁ ordinary₁ kept holds
  have first : (place.get w₁).files.lines = lines := by
    have whole : (place.get w₁).files.lines = (place.get w).files.lines ++ lines := kept
    rw [whole, start]
    rfl
  obtain ⟨w', _, ⟨l, cells, isOpen, bounded, does, grown⟩ | ⟨⟨e, fails⟩, _⟩⟩ :=
    create_cases beside (new.expiresInDays now days) columns₁
  · rw [does] at created
    cases created
    have regular := regular_nextFile ordinary₁ (new.expiresInDays now days)
    have found := latestLine_added (at_jobId_of_cells cells) fun b there own => by
      obtain ⟨g, isMade, others, dated⟩ := exists_of_mem_forall₂ holds (first ▸ there)
      have same : g.jobId = _ := Cell.text.inj ((at_jobId_of_cells others).symm.trans own)
      exact mt (compare_created cells others regular dated).mp (latest g isMade same)
    have held := readFile_of_cells cells bounded regular (plain_expirationFrom plain days).toMicro
      (Instant.micros_toMicro _)
    show (findFile _ (place.get w₂)).1.mapError Fault.error = _
    rw [findFile, read, grown, if_pos isOpen, found]
    dsimp only
    rw [held]
    have ends : (nextFile (nature.get w₁) (new.expiresInDays now days)).expiresAt =
        (expirationFrom now days).toMicro := rfl
    simp only [ends, Instant.hasFourDigitYear_toMicro]
    split
    · rfl
    · rfl
  · rw [fails] at created
    cases created

/-- A file of the job `job-1`, asked for on a May morning. -/
def mayFile (content : Bytes) : NewExportFile :=
  .start "job-1" "users.csv" content 1 mayMorning

/-- The second file of the job, which lasts thirty days. -/
def secondMayFile : ExportFile :=
  ⟨"a", "job-1", "", "users.csv", "new", 1, ⟨1717149600, 0⟩, mayMorning⟩

theorem site_beside : Site.databasePart.Beside Site.naturePart :=
  ⟨fun _ _ => rfl, fun _ _ => rfl, fun _ _ => rfl, fun _ _ => rfl⟩

/-- Of two files of one job, made at the same time, the second is found. -/
theorem created_file_found_second :
    let files := exportStore Site.databasePart Site.naturePart
    let w₁ := (files.createAll [mayFile "old"] (.start stillNature)).2
    let called := files.create ((mayFile "new").expiresInDays mayMorning 30) w₁
    called.1 = .ok secondMayFile ∧
      (files.findByJob "job-1" called.2).1 = .ok (some secondMayFile) := by
  intro files w₁ called
  have answered : called.1 = .ok secondMayFile := by
    decide +kernel
  have latest : ∀ g ∈ (files.createAll [mayFile "old"] (.start stillNature)).1,
      ¬ secondMayFile.created < g.created := by
    decide +kernel
  have ordinary : (Site.naturePart.get (.start stillNature)).IsOrdinary :=
    fun _ => ⟨mayMorning_regular.plain, mayMorning_regular.year⟩
  have year : (expirationFrom mayMorning 30).HasFourDigitYear := by decide +kernel
  have created : called = (.ok secondMayFile, called.2) :=
    Prod.mk.eta.symm.trans (congrArg (·, called.2) answered)
  have found := created_file_found site_beside rfl ordinary [mayFile "old"] (mayFile "new")
    mayMorning_regular.plain 30 rfl created fun g there _ => latest g there
  rw [if_pos year] at found
  exact ⟨answered, found⟩

/-- The same file, which lasts for the most days that can be asked for. -/
def lastingMayFile : ExportFile :=
  ⟨"", "job-1", "", "users.csv", "new", 1, Instant.latest.toMicro, mayMorning⟩

/-- A database makes a file that lasts for the most days there are and then takes its line for
corrupt; a store in memory finds the file. -/
theorem created_file_lost :
    let new := (mayFile "new").expiresInDays mayMorning (Word.count 32 - 1)
    let files := exportStore Site.databasePart Site.naturePart
    let called := files.create new (.start stillNature)
    let inMemory := MemoryExports.exportStore Site.filesPart Site.naturePart
    called.1 = .ok lastingMayFile ∧
      (files.findByJob "job-1" called.2).1 =
        .error (.error (unreadTime "" "expires_at")) ∧
      (inMemory.findByJob "job-1" (inMemory.create new (.start stillNature)).2).1 =
        .ok (some { lastingMayFile with expiresAt := Instant.latest }) := by
  decide +kernel

end Database

end JobQueue
