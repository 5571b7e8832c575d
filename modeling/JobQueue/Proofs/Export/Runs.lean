/-
Exports are all or nothing.

A run of data processing fails and leaves the files as they were, or it has nothing to export and
leaves them as well, or it adds one file: the rows that pass the filters, in their order and in the
format that the target names (`Exporter.Outcome`, `Exporter.outcome_processData`). The run succeeds
just where each of its links does. A list of objects is read back as the rows.
-/

import JobQueue.Proofs.Export.Stores
import JobQueue.Proofs.Json.Pretty
import JobQueue.Proofs.Payload.Acceptance
import JobQueue.Service.Export
import JobQueue.Service.Site

namespace JobQueue

variable {W L C : Type}

/-! ### Parts of a text -/

namespace Text

variable {mark : Char} {cs part stem : List Char}

theorem splitAtChar_ne_nil (mark : Char) (cs : List Char) : splitAtChar mark cs ≠ [] := by
  cases cs with
  | nil => simp [splitAtChar]
  | cons c cs =>
      rw [splitAtChar]
      split
      · simp
      · split <;> simp

theorem splitAtChar_of_notMem (free : mark ∉ cs) : splitAtChar mark cs = [cs] := by
  induction cs with
  | nil => rfl
  | cons c cs ih =>
      rw [List.mem_cons, not_or] at free
      rw [splitAtChar, ih free.2]
      exact if_neg (Ne.symm free.1)

theorem splitAtChar_append :
    splitAtChar mark (stem ++ mark :: part) = splitAtChar mark stem ++ splitAtChar mark part := by
  induction stem with
  | nil =>
      obtain ⟨first, others, same⟩ := List.exists_cons_of_ne_nil (splitAtChar_ne_nil mark part)
      have whole : splitAtChar mark (mark :: part) = [] :: splitAtChar mark part := by
        rw [splitAtChar, same]
        exact if_pos rfl
      exact whole
  | cons c stem ih =>
      obtain ⟨first, others, same⟩ := List.exists_cons_of_ne_nil (splitAtChar_ne_nil mark stem)
      rw [List.cons_append, splitAtChar, ih, same, splitAtChar, same]
      dsimp only [List.cons_append]
      split <;> rfl

/-- Every text ends with a part in which the mark does not stand. -/
theorem exists_lastPart (mark : Char) (cs : List Char) :
    ∃ last, mark ∉ last ∧ (cs = last ∨ ∃ stem, cs = stem ++ mark :: last) := by
  induction cs with
  | nil => exact ⟨[], List.not_mem_nil, .inl rfl⟩
  | cons c cs ih =>
      obtain ⟨last, free, rfl | ⟨stem, rfl⟩⟩ := ih
      · by_cases own : c = mark
        · exact ⟨cs, free, .inr ⟨[], own ▸ rfl⟩⟩
        · exact ⟨c :: cs, by simp [free, Ne.symm own], .inl rfl⟩
      · exact ⟨last, free, .inr ⟨c :: stem, rfl⟩⟩

/-- The last part of a text is what the text is, or ends with after the mark. -/
theorem getLastD_splitAtChar (free : mark ∉ part) : (splitAtChar mark cs).getLastD [] = part ↔
    cs = part ∨ ∃ stem, cs = stem ++ mark :: part := by
  have ends {last : List Char} (free : mark ∉ last)
      (same : cs = last ∨ ∃ stem, cs = stem ++ mark :: last) :
      (splitAtChar mark cs).getLastD [] = last := by
    rcases same with rfl | ⟨stem, rfl⟩
    · rw [splitAtChar_of_notMem free]
      rfl
    · rw [splitAtChar_append, splitAtChar_of_notMem free, List.getLastD_eq_getLast?,
        List.getLast?_append]
      rfl
  constructor
  · rintro rfl
    obtain ⟨last, free, same⟩ := exists_lastPart mark cs
    rwa [ends free same]
  · exact ends free

end Text

/-! ### What a target names -/

/-- Whether a name ends with a point and an ending. -/
def HasEnding (name ending : String) : Prop := ∃ stem, name = stem ++ "." ++ ending

namespace ExportFormat

/-- Whether a target names a format, in small letters or capitals and whatever blanks are around
it: by the ending of its files, or as a name with that ending. -/
def IsNamedBy (format : ExportFormat) (target : String) : Prop :=
  Text.lower (Text.trim target) = format.fileEnding ∨
    HasEnding (Text.lower (Text.trim target)) format.fileEnding

theorem afterLastPoint_eq_iff {s ending : String} (free : '.' ∉ ending.toList) :
    afterLastPoint s = ending ↔ s = ending ∨ HasEnding s ending := by
  have chars : afterLastPoint s = ending ↔
      (Text.splitAtChar '.' s.toList).getLastD [] = ending.toList := by
    rw [afterLastPoint, ← String.toList_inj, String.toList_ofList]
  rw [chars, Text.getLastD_splitAtChar free, String.toList_inj]
  refine or_congr_right ⟨?_, ?_⟩
  · rintro ⟨stem, same⟩
    refine ⟨String.ofList stem, String.toList_inj.mp ?_⟩
    simp [same]
  · rintro ⟨stem, rfl⟩
    exact ⟨stem.toList, by simp⟩

theorem ofTarget_eq_ok {target : String} {format : ExportFormat} :
    ofTarget target = .ok format ↔ format.IsNamedBy target := by
  have free : ∀ format : ExportFormat, '.' ∉ format.fileEnding.toList := by
    intro format
    cases format <;> decide
  rw [IsNamedBy, ← afterLastPoint_eq_iff (free format), ofTarget]
  generalize afterLastPoint (Text.lower (Text.trim target)) = ending
  split
  next own =>
    subst own
    cases format <;> simp [fileEnding]
  next other =>
    split
    next own =>
      subst own
      cases format <;> simp [fileEnding]
    next other' => cases format <;> simp [other, other']

end ExportFormat

/-! ### Exports -/

/-- Who has asked for some work: whom its options name by a text, or nobody. -/
inductive DataProcessing.AskedBy (d : DataProcessing) : String → Prop where
  | named {user : String} (text : Fields.get? d.options "user_id" = some (.str user)) :
      AskedBy d user
  | nobody (noText : ∀ user, Fields.get? d.options "user_id" ≠ some (.str user)) : AskedBy d ""

theorem DataProcessing.askedBy_requestedBy (d : DataProcessing) : d.AskedBy d.requestedBy := by
  rw [requestedBy]
  split
  next user text => exact .named text
  next noText => exact .nobody noText

/-- Whether a file is the export of some rows in a format. -/
structure ExportFile.IsExport (f : ExportFile) (jobId : String) (d : DataProcessing)
    (format : ExportFormat) (rows : List Row) : Prop where
  jobId : f.jobId = jobId
  userId : d.AskedBy f.userId
  fileName : HasEnding f.fileName format.fileEnding
  recordCount : f.recordCount = rows.length
  content : f.content = .ofText (format.render rows)
  /-- The rows are read back from a list of objects, if they can be. -/
  reread : format = .objects → (Json.arr (rows.map .obj)).Every Json.IsPlain →
    (Json.arr (rows.map .obj)).depth ≤ Json.depthLimit →
      f.content.text?.bind Json.read = some (.arr (rows.map .obj))

namespace Exporter

variable {e : Exporter W} {catalog : Catalog W L} {shelf : FileShelf W C} {jobId : String}
  {d : DataProcessing} {w : W}

/-- The source of an exporter follows a catalog, its store adds files to a shelf, and nothing else
that it does has to do with the files. -/
structure Works (e : Exporter W) (catalog : Catalog W L) (shelf : FileShelf W C) : Prop where
  source : catalog.Follows e.source
  fetching : ∀ name filters w, shelf.Same w (e.source.fetch name filters w).2
  reading : ∀ w, shelf.Same w (e.clock w).2
  files : shelf.Adds e.files

/-- How a run of data processing ends, and what it does to the files. -/
inductive Outcome (catalog : Catalog W L) (shelf : FileShelf W C) (jobId : String)
    (d : DataProcessing) (w : W) : Except (Fault JobError) Unit × W → Prop where
  | failed {fault : Fault JobError} {w' : W} (same : shelf.kept w' = shelf.kept w) :
      Outcome catalog shelf jobId d w (.error fault, w')
  | idle {w' : W} (other : d.operation ≠ .exportRows) (same : shelf.kept w' = shelf.kept w) :
      Outcome catalog shelf jobId d w (.ok (), w')
  /-- The file is the only one that is new. -/
  | exported {w' : W} {format : ExportFormat} {entries : List L} {f : ExportFile} {c : C}
      (asked : d.operation = .exportRows) (named : format.IsNamedBy d.target)
      (listed : catalog.listed w d.source = some entries)
      (file : f.IsExport jobId d format (catalog.select d.filters entries))
      (counted : f.recordCount = entries.countP fun l => catalog.passes d.filters l)
      (holds : shelf.Holds c f) (added : shelf.kept w' = shelf.kept w ++ [c]) :
      Outcome catalog shelf jobId d w (.ok (), w')

/-- Whether each link of an export succeeds: the target names a format, the source gives its rows,
and the store makes the file. -/
def Exports (e : Exporter W) (jobId : String) (d : DataProcessing) (w : W) : Prop :=
  ∃ format rows f, format.IsNamedBy d.target ∧ (e.source.fetch d.source d.filters w).1 = .ok rows ∧
    let read := e.clock (e.source.fetch d.source d.filters w).2
    (e.files.create (fileOf jobId d format rows read.1 e.days) read.2).1 = .ok f

theorem isExport_of_madeFrom {f : ExportFile} {format : ExportFormat} {rows : List Row}
    {now : Instant} (made : f.MadeFrom (fileOf jobId d format rows now e.days)) :
    f.IsExport jobId d format rows where
  jobId := made.jobId
  userId := by
    rw [made.userId]
    exact d.askedBy_requestedBy
  fileName := ⟨d.source ++ "_" ++ jobId, made.fileName⟩
  recordCount := made.recordCount
  content := made.content
  reread := by
    rintro rfl plain flat
    rw [made.content]
    exact (congrArg (Option.bind · Json.read) (Bytes.text?_ofText _)).trans
      (Json.read_pretty_of_plain plain flat)

/-- The links of an export whose target names a format. -/
theorem runAlone_exportRows {format : ExportFormat}
    (named : ExportFormat.ofTarget d.target = .ok format) :
    (e.exportRows jobId d).run.runAlone w =
      match e.source.fetch d.source d.filters w with
      | (.error fault, w₁) => (.error (Fault.ofStore fault), w₁)
      | (.ok rows, w₁) =>
          let read := e.clock w₁
          let made := e.files.create (fileOf jobId d format rows read.1 e.days) read.2
          ((made.1.mapError Fault.ofStore).map fun _ => (), made.2) := by
  rw [exportRows, named, JobTask.runAlone_bind, JobTask.runAlone_ofExcept]
  dsimp only [Except.mapError]
  rw [JobTask.runAlone_bind, JobTask.runAlone_call]
  rcases e.source.fetch d.source d.filters w with ⟨_ | rows, w₁⟩
  · rfl
  · dsimp only [Except.mapError]
    rw [JobTask.runAlone_bind, JobTask.runAlone_perform]
    dsimp only
    rw [JobTask.runAlone_bind, JobTask.runAlone_call]
    generalize e.files.create _ _ = made
    obtain ⟨_ | f, w₃⟩ := made <;> rfl

/-- An export adds its file or leaves the files as they were, and it succeeds just where each of
its links does. -/
theorem outcome_exportRows (jobId : String) (works : e.Works catalog shelf) (good : shelf.Good w)
    (asked : d.operation = .exportRows) :
    Outcome catalog shelf jobId d w ((e.exportRows jobId d).run.runAlone w) ∧
      (((e.exportRows jobId d).run.runAlone w).1 = .ok () ↔ e.Exports jobId d w) := by
  cases named : ExportFormat.ofTarget d.target with
  | error refusal =>
      rw [exportRows, named]
      refine ⟨.failed rfl, iff_of_false nofun ?_⟩
      rintro ⟨format, _, _, own, _⟩
      rw [ExportFormat.ofTarget_eq_ok.mpr own] at named
      cases named
  | ok format =>
      have isNamed := ExportFormat.ofTarget_eq_ok.mp named
      have unique {format' : ExportFormat} (own : format'.IsNamedBy d.target) :
          format' = format := by
        have again := ExportFormat.ofTarget_eq_ok.mpr own
        rw [named] at again
        exact (Except.ok.inj again).symm
      have source := works.source d.source d.filters w
      have fetching := works.fetching d.source d.filters w
      rw [runAlone_exportRows named, Exports]
      generalize e.source.fetch d.source d.filters w = fetched at source fetching ⊢
      obtain ⟨fault | rows, w₁⟩ := fetched
      case error =>
        refine ⟨.failed fetching.kept, iff_of_false nofun ?_⟩
        rintro ⟨_, _, _, _, given, _⟩
        cases given
      case ok =>
        obtain ⟨entries, listed, rfl⟩ := source rows rfl
        have reading := fetching.trans (works.reading w₁)
        dsimp only
        generalize e.clock w₁ = read at reading ⊢
        obtain ⟨now, w₂⟩ := read
        have creation := (works.files (fileOf jobId d format (catalog.select d.filters entries) now
          e.days) w₂ (reading.good good)).after reading
        dsimp only
        generalize made : e.files.create _ w₂ = called at creation ⊢
        cases creation with
        | failed same =>
            refine ⟨.failed same.kept, iff_of_false nofun ?_⟩
            rintro ⟨format', _, _, own, given, done⟩
            cases given
            rw [unique own, made] at done
            cases done
        | @made f _ _ _ own holds added =>
            have file : f.IsExport jobId d format _ := isExport_of_madeFrom own
            have counted := file.recordCount.trans Catalog.length_select
            exact ⟨.exported asked isNamed listed file counted holds added,
              iff_of_true rfl ⟨format, _, f, isNamed, rfl, congrArg Prod.fst made⟩⟩

/-- What is done with data that are in order. -/
theorem runAlone_processData {context : JobContext} {payload : TypedPayload DataProcessing Fields}
    (valid : payload.data.validate = .ok ()) :
    (e.processData.run context payload).run.runAlone w =
      if payload.data.operation = .exportRows then
        (e.exportRows context.correlationId payload.data).run.runAlone w
      else (.ok (), w) := by
  show (JobTask.ofExcept payload.data.validate >>= _ : JobTask W Unit).run.runAlone w = _
  rw [JobTask.runAlone_bind, JobTask.runAlone_ofExcept, valid]
  dsimp only [Except.mapError]
  cases payload.data.operation <;> rfl

/-- Data processing fails and adds no file, or has nothing to export and adds none, or adds one file
with the rows that pass the filters. It succeeds just where the data are in order and, if they ask
for an export, each link of it succeeds. -/
theorem outcome_processData (works : e.Works catalog shelf) (good : shelf.Good w) (job : Job)
    (worker : Option Nat) (payload : TypedPayload DataProcessing Fields) :
    let ended := (e.processData.run (JobContext.ofJob job worker) payload).run.runAlone w
    Outcome catalog shelf job.id payload.data w ended ∧
      (ended.1 = .ok () ↔ payload.data.validate = .ok () ∧
        (payload.data.operation = .exportRows → e.Exports job.id payload.data w)) := by
  intro ended
  cases valid : payload.data.validate with
  | error refusal =>
      have refused : ended = (.error (.error refusal), w) := by
        show (JobTask.ofExcept payload.data.validate >>= _ : JobTask W Unit).run.runAlone w = _
        rw [JobTask.runAlone_bind, JobTask.runAlone_ofExcept, valid]
        rfl
      rw [refused]
      exact ⟨.failed rfl, iff_of_false nofun nofun⟩
  | ok _ =>
      have began : ended = _ := runAlone_processData valid
      by_cases asked : payload.data.operation = .exportRows
      · rw [if_pos asked] at began
        obtain ⟨outcome, succeeds⟩ := outcome_exportRows job.id works good asked
        rw [began]
        exact ⟨outcome, succeeds.trans (by simp [asked])⟩
      · rw [if_neg asked] at began
        rw [began]
        exact ⟨.idle asked rfl, iff_of_true rfl ⟨rfl, fun same => absurd same asked⟩⟩

/-- An exporter of rows in memory to files in memory, where making a file may fail. -/
theorem works_memory {place : Part W MemoryExports} {nature : Part W Nature}
    {sources : Part W MemorySource} {files : ExportStore W} (clock : W → Instant × W) (days : Nat)
    (beside : place.Beside nature) (apart : place.Beside sources)
    (clock_kept : ∀ w, place.get (clock w).2 = place.get w)
    (mayFail : ∀ new, StoreCall.MayFail (MemoryExports.fileShelf place).Same
      ((MemoryExports.exportStore place nature).create new) (files.create new)) :
    Works ⟨MemorySource.exportSource sources, files, clock, days⟩ (MemorySource.catalog sources)
      (MemoryExports.fileShelf place) where
  source := MemorySource.follows sources
  fetching := fun _ _ w => ⟨fun _ => trivial, congrArg MemoryExports.files (apart.firstKept _ w)⟩
  reading := fun w => ⟨fun _ => trivial, congrArg MemoryExports.files (clock_kept w)⟩
  files := (MemoryExports.adds beside).mayFail mayFail

/-- An exporter of the tables of a database to its files, where making a file may fail. -/
theorem works_database {place : Part W Database} {nature : Part W Nature} {files : ExportStore W}
    (clock : W → Instant × W) (days : Nat) (beside : place.Beside nature)
    (clock_kept : ∀ w, place.get (clock w).2 = place.get w)
    (mayFail : ∀ new, StoreCall.MayFail (Database.fileShelf place).Same
      ((Database.exportStore place nature).create new) (files.create new)) :
    Works ⟨Database.exportSource place, files, clock, days⟩ (Database.catalog place)
      (Database.fileShelf place) where
  source := Database.follows place
  fetching := fun _ _ w =>
    Database.same_files ((beside.first _ w).trans Database.fetchRows_snd)
  reading := fun w => Database.same_files (clock_kept w)
  files := (Database.adds beside).mayFail mayFail

/-- Rows in memory of which a filter leaves two. -/
def rosterSite : Site :=
  { Site.start ⟨fun _ => ⟨0, 0⟩, Decimal.natText, 0, 0⟩ with
    sources := ⟨[("users", [[("name", .str "Ann"), ("role", .str "admin")],
      [("name", .str "Bob")], [("name", .str "Cy"), ("role", .str "admin")]])]⟩ }

/-- A job that asks for these rows as objects. -/
def rosterJob : Job where
  id := "job-1"
  name := "roster"
  description := ""
  jobType := dataProcessingJobType
  payload := []
  attempts := 0
  reservedAt := none
  created := ⟨0, 0⟩
  updated := ⟨0, 0⟩

/-- The data of the job. -/
def rosterData : DataProcessing :=
  ⟨.exportRows, "users", " Admins.JSON ", [("role", .str "admin")], [("user_id", .str "u-1")]⟩

theorem outcome_rosterData :
    let exporter : Exporter Site :=
      ⟨Site.memoryStores.source, Site.memoryStores.files, Site.clock, defaultExpirationDays⟩
    ∃ w', (exporter.processData.run (JobContext.ofJob rosterJob none)
        ⟨dataProcessingJobType, rosterData, []⟩).run.runAlone rosterSite = (.ok (), w') ∧
      Outcome (MemorySource.catalog Site.sourcesPart) (MemoryExports.fileShelf Site.filesPart)
        "job-1" rosterData rosterSite (.ok (), w') := by
  have beside : Site.filesPart.Beside Site.naturePart :=
    ⟨fun _ _ => rfl, fun _ _ => rfl, fun _ _ => rfl, fun _ _ => rfl⟩
  have apart : Site.filesPart.Beside Site.sourcesPart :=
    ⟨fun _ _ => rfl, fun _ _ => rfl, fun _ _ => rfl, fun _ _ => rfl⟩
  have works := works_memory Site.clock defaultExpirationDays beside apart (fun _ => rfl)
    fun _ => .self (fun _ => .refl) _
  exact ⟨_, rfl, (outcome_processData works trivial rosterJob none
    ⟨dataProcessingJobType, rosterData, []⟩).1⟩

end Exporter

end JobQueue
