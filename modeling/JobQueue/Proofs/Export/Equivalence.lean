/-
One store of export files in two forms.

Requests to make files and to find the latest one of a job are answered one after another
(`ExportStore.serveAll`). What they are to be answered is told by the ids and the clock alone
(`Answered`): each new file is made under the next id at the next reading, and what is found for a
job is the file with the greatest time among those made for it so far, of one time the last made, and
nothing only if there is none (`IsLatest`). At most one list of answers will do (`Answered.unique`).
Both a store in memory and a database give it, the database if the texts of all times tell them, so
the two are one store (`exports_agree`).
-/

import JobQueue.Proofs.Export.Latest
import Mathlib.Data.List.Induction

namespace JobQueue

/-! ### Requests and answers -/

/-- A call of a store of export files. -/
inductive FileRequest where
  | create (new : NewExportFile)
  | find (jobId : String)

/-- The answer to a request. -/
inductive FileReply where
  | made (f : ExportFile)
  | found (f : Option ExportFile)
  | failed (fault : Fault StoreError)
deriving DecidableEq

/-- The reply for the answer to a call. -/
def FileReply.ofAnswer {α : Type} (reply : α → FileReply) :
    Except (Fault StoreError) α → FileReply
  | .ok a => reply a
  | .error fault => .failed fault

namespace ExportStore

variable {W : Type}

/-- Serves a request. -/
def serve (files : ExportStore W) (request : FileRequest) (w : W) : FileReply × W :=
  match request with
  | .create new => (files.create new w).map (FileReply.ofAnswer .made) id
  | .find jobId => (files.findByJob jobId w).map (FileReply.ofAnswer .found) id

/-- Serves requests one after another. -/
def serveAll (files : ExportStore W) : List FileRequest → W → List FileReply × W
  | [], w => ([], w)
  | request :: rest, w =>
      let (reply, w) := files.serve request w
      let (replies, w) := files.serveAll rest w
      (reply :: replies, w)

end ExportStore

/-- A new file can be stored as it is: the text of its expiration tells it, and its record count has
63 bits. -/
structure NewExportFile.Storable (new : NewExportFile) : Prop where
  expiresAt : new.expiresAt.Exact
  recordCount : new.recordCount < Word.count 63

/-- If the request is for a new file, it can be stored. -/
def FileRequest.Storable : FileRequest → Prop
  | .create new => new.Storable
  | .find _ => True

/-! ### What is to be answered -/

variable {jobId : String} {made : List ExportFile} {f : ExportFile} {found : Option ExportFile}
  {n : Nature} {new : NewExportFile}

/-- What is found for a job among the files made: nothing if there is none of the job, else one than
which none of the job is dated later, and which is dated later than all that were made after it. -/
inductive IsLatest (jobId : String) (made : List ExportFile) : Option ExportFile → Prop where
  | none (missing : ∀ f ∈ made, f.jobId ≠ jobId) : IsLatest jobId made none
  | some {earlier later : List ExportFile} {f : ExportFile} (split : made = earlier ++ f :: later)
      (own : f.jobId = jobId) (before : ∀ g ∈ earlier, g.jobId = jobId → ¬ f.created < g.created)
      (after : ∀ g ∈ later, g.jobId = jobId → g.created < f.created) :
      IsLatest jobId made (some f)

/-- The file that is made next. -/
def Nature.nextFile (n : Nature) (new : NewExportFile) : ExportFile :=
  new.toFile (n.ids n.made) (n.readings n.read)

/-- The files that are made by requests. -/
def Nature.filesOf (n : Nature) : List FileRequest → List ExportFile
  | [] => []
  | .create new :: rest => n.nextFile new :: n.spent.filesOf rest
  | .find _ :: rest => n.filesOf rest

/-- What requests are to be answered, after some files have been made. -/
inductive Answered : Nature → List ExportFile → List FileRequest → List FileReply → Prop where
  | nil {n : Nature} {made : List ExportFile} : Answered n made [] []
  | create {n : Nature} {made : List ExportFile} {new : NewExportFile} {rest : List FileRequest}
      {replies : List FileReply} (onward : Answered n.spent (made ++ [n.nextFile new]) rest replies) :
      Answered n made (.create new :: rest) (.made (n.nextFile new) :: replies)
  | find {n : Nature} {made : List ExportFile} {jobId : String} {found : Option ExportFile}
      {rest : List FileRequest} {replies : List FileReply} (latest : IsLatest jobId made found)
      (onward : Answered n made rest replies) :
      Answered n made (.find jobId :: rest) (.found found :: replies)

/-- Of two files, one made after the other, not both are the latest. -/
theorem IsLatest.not_both {f' : ExportFile} {earlier between rest : List ExportFile}
    (own' : f'.jobId = jobId) (own : f.jobId = jobId)
    (before : ∀ g ∈ earlier ++ f :: between, g.jobId = jobId → ¬ f'.created < g.created)
    (after : ∀ g ∈ between ++ f' :: rest, g.jobId = jobId → g.created < f.created) : False :=
  before f (List.mem_append_right _ List.mem_cons_self) own
    (after f' (List.mem_append_right _ List.mem_cons_self) own')

theorem IsLatest.unique {found' : Option ExportFile} (first : IsLatest jobId made found)
    (second : IsLatest jobId made found') : found = found' := by
  cases first with
  | none missing =>
      cases second with
      | none => rfl
      | some split own =>
          exact absurd own (missing _ (split ▸ List.mem_append_right _ List.mem_cons_self))
  | @some earlier later f split own before after =>
      cases second with
      | none missing =>
          exact absurd own (missing _ (split ▸ List.mem_append_right _ List.mem_cons_self))
      | @some earlier' later' f' split' own' before' after' =>
          -- The two files stand in one place, or one of them before the other.
          rcases List.append_eq_append_iff.mp (split.symm.trans split') with
            ⟨_ | ⟨next, between⟩, front, back⟩ | ⟨_ | ⟨next, between⟩, front, back⟩
          · cases back
            rfl
          · cases back
            exact (IsLatest.not_both own' own (front ▸ before') after).elim
          · cases back
            rfl
          · cases back
            exact (IsLatest.not_both own own' (front ▸ before) after').elim

/-- Requests have at most one list of right answers. -/
theorem Answered.unique {requests : List FileRequest} {replies replies' : List FileReply}
    (first : Answered n made requests replies) (second : Answered n made requests replies') :
    replies = replies' := by
  induction first generalizing replies' with
  | nil =>
      cases second
      rfl
  | create _ ih =>
      cases second with
      | create onward => rw [ih onward]
  | find latest _ ih =>
      cases second with
      | find latest' onward => rw [latest.unique latest', ih onward]

/-! ### Stores that answer so -/

/-- A store answers every request as it is to be, as long as new files can be stored. What it keeps
goes by the nature of the world and by the files made so far. -/
structure ExportStore.Follows {W : Type} (files : ExportStore W)
    (Keeps : Nature → List ExportFile → W → Prop) : Prop where
  create : ∀ {n made new w}, Keeps n made w → new.Storable →
    (files.create new w).1 = .ok (n.nextFile new) ∧
      Keeps n.spent (made ++ [n.nextFile new]) (files.create new w).2
  find : ∀ {n made w} jobId, Keeps n made w →
    ∃ found, (files.findByJob jobId w).1 = .ok found ∧ IsLatest jobId made found ∧
      Keeps n made (files.findByJob jobId w).2

/-- The answers of such a store to requests, and what it keeps after them. -/
theorem ExportStore.Follows.serveAll {W : Type} {files : ExportStore W}
    {Keeps : Nature → List ExportFile → W → Prop} (follows : files.Follows Keeps)
    {requests : List FileRequest} {w : W} (keeps : Keeps n made w)
    (storable : ∀ request ∈ requests, request.Storable) :
    Answered n made requests (files.serveAll requests w).1 ∧
      ∃ n', Keeps n' (made ++ n.filesOf requests) (files.serveAll requests w).2 := by
  induction requests generalizing n made w with
  | nil => exact ⟨.nil, n, (List.append_nil made).symm ▸ keeps⟩
  | cons request rest ih =>
      obtain ⟨first, others⟩ := List.forall_mem_cons.mp storable
      cases request with
      | create new =>
          obtain ⟨answer, kept⟩ := follows.create keeps first
          obtain ⟨answers, n', last⟩ := ih kept others
          have reply : (files.serve (.create new) w).1 = .made (n.nextFile new) :=
            congrArg (FileReply.ofAnswer .made) answer
          refine ⟨?_, n', ?_⟩
          · show Answered n made _ ((files.serve (.create new) w).1 :: _)
            exact reply ▸ .create answers
          · rw [Nature.filesOf, List.append_cons]
            exact last
      | find jobId =>
          obtain ⟨found, answer, latest, kept⟩ := follows.find jobId keeps
          obtain ⟨answers, n', last⟩ := ih kept others
          have reply : (files.serve (.find jobId) w).1 = .found found :=
            congrArg (FileReply.ofAnswer .found) answer
          refine ⟨?_, n', last⟩
          show Answered n made _ ((files.serve (.find jobId) w).1 :: _)
          exact reply ▸ .find latest answers

/-! ### In memory -/

/-- A file of another job changes nothing. -/
theorem IsLatest.other (latest : IsLatest jobId made found) (other : f.jobId ≠ jobId) :
    IsLatest jobId (made ++ [f]) found := by
  cases latest with
  | none missing =>
      refine .none fun g member => ?_
      rcases List.mem_append.mp member with old | last
      · exact missing g old
      · exact List.mem_singleton.mp last ▸ other
  | some split own before after =>
      refine .some (by rw [split, List.append_assoc, List.cons_append]) own before fun g member => ?_
      rcases List.mem_append.mp member with old | last
      · exact after g old
      · exact fun same => absurd (List.mem_singleton.mp last ▸ same) other

/-- A file of the job takes the place of the latest one unless that is dated later. -/
theorem IsLatest.added (latest : IsLatest jobId made found) (own : f.jobId = jobId) :
    IsLatest jobId (made ++ [f]) (MemoryExports.later found f) := by
  cases latest with
  | none missing =>
      exact .some rfl own (fun g member same => absurd same (missing g member)) (by simp)
  | @some earlier later best split owned before after =>
      rw [MemoryExports.later]
      split
      next less =>
        refine .some (by rw [split, List.append_assoc, List.cons_append]) owned before
          fun g member same => ?_
        rcases List.mem_append.mp member with old | last
        · exact after g old same
        · exact List.mem_singleton.mp last ▸ less
      next notLess =>
        refine .some rfl own (fun g member same => ?_) (by simp)
        rw [split] at member
        rcases List.mem_append.mp member with front | back
        · exact fun late => before g front same (Instant.lt_of_not_lt_of_lt notLess late)
        · rcases List.mem_cons.mp back with rfl | behind
          · exact notLess
          · exact fun late => notLess (Instant.lt_trans late (after g behind same))

namespace MemoryExports

variable {W : Type} {place : Part W MemoryExports} {nature : Part W Nature}

/-- What is found in memory is the latest file. -/
theorem isLatest_find (made : List ExportFile) (jobId : String) :
    IsLatest jobId made (find ⟨made⟩ jobId) := by
  induction made using List.reverseRecOn with
  | nil => exact .none (by simp)
  | append_singleton made f ih =>
      rw [find, List.filter_append, List.foldl_append]
      by_cases own : f.jobId = jobId
      · have kept : [f].filter (fun f => f.jobId == jobId) = [f] :=
          List.filter_cons_of_pos (beq_iff_eq.mpr own)
        rw [kept]
        exact ih.added own
      · have left : [f].filter (fun f => f.jobId == jobId) = [] :=
          List.filter_cons_of_neg (mt beq_iff_eq.mp own)
        rw [left]
        exact ih.other own

theorem created (beside : place.Beside nature) (new : NewExportFile) (w : W) :
    let f := (nature.get w).nextFile new
    let called := (exportStore place nature).create new w
    called.1 = .ok f ∧ place.get called.2 = ⟨(place.get w).files ++ [f]⟩ ∧
      nature.get called.2 = (nature.get w).spent := by
  simp [exportStore, Part.use, create, Nature.fresh, Nature.now, beside.first _ _,
    beside.second _ _, beside.firstKept, beside.secondKept, Nature.nextFile, Nature.spent]

theorem follows (beside : place.Beside nature) : (exportStore place nature).Follows
    fun n made w => nature.get w = n ∧ (place.get w).files = made where
  create := by
    rintro n made new w ⟨rfl, rfl⟩ _
    obtain ⟨answer, kept, spent⟩ := created beside new w
    exact ⟨answer, spent, congrArg files kept⟩
  find := by
    rintro n made w jobId ⟨natural, rfl⟩
    exact ⟨_, rfl, isLatest_find _ jobId, natural, rfl⟩

end MemoryExports

/-! ### In a database -/

namespace Database

variable {W : Type} {place : Part W Database} {nature : Part W Nature} {l : Line} {t : Table}
  {lines : List Line}

/-- A line is that of a file whose times are told by their texts. -/
structure WritesFile (f : ExportFile) (l : Line) : Prop where
  cells : l.cells = fileCells f
  recordCount : f.recordCount < Word.count 63
  created : f.created.Exact
  expiresAt : f.expiresAt.Exact

theorem WritesFile.readFile_eq (writes : WritesFile f l) : readFile l = .ok f :=
  readFile_of_exact writes.cells
    (Nat.lt_trans writes.recordCount (by decide : Word.count 63 < countBound)) writes.created
    writes.expiresAt

theorem WritesFile.at_id (writes : WritesFile f l) : l.at 0 = .text f.id := by
  rw [Line.at, writes.cells]
  rfl

/-- The latest line is that of the file that is found in memory. -/
theorem rel_latestLine (written : List.Forall₂ WritesFile made lines) (jobId : String) :
    Option.Rel WritesFile (MemoryExports.find ⟨made⟩ jobId)
      (latestLine jobId { t with lines := lines }) := by
  have own : List.Forall₂ WritesFile (made.filter fun f => f.jobId == jobId)
      (lines.filter fun l => (l.at 1).same (.text jobId)) := by
    refine List.rel_filter (fun f l writes => ?_) written
    show (f.jobId == jobId) = true ↔ (l.at 1).same (.text jobId) = true
    rw [beq_iff_eq, Cell.same_text, at_jobId_of_cells writes.cells, Cell.text.injEq]
  refine List.rel_foldl ?_ .none own
  intro best line alike f l writes
  cases alike with
  | none => exact .some writes
  | @some b k kept =>
      have order := compare_created_of_exact writes.cells kept.cells writes.created kept.created
      rw [MemoryExports.later, laterLine]
      by_cases less : f.created < b.created
      · rw [if_pos less, if_pos (order.mpr less)]
        exact .some kept
      · rw [if_neg less, if_neg (mt order.mp less)]
        exact .some writes

/-- A line is added for a file under an id that no line has. -/
theorem insert_fileCells (columns : t.columns = fileColumns)
    (free : ∀ l ∈ t.lines, l.at 0 ≠ .text f.id) :
    t.insert (fileCells f) = .ok { t with lines := t.lines ++ [⟨t.nextNumber, fileCells f⟩] } := by
  have kept : t.keptCells (fileCells f) = fileCells f := by
    rw [Table.keptCells, columns]
    rfl
  have given : t.lacksValue (fileCells f) = false := by
    rw [Table.lacksValue, columns]
    rfl
  have unique : t.repeatsKey (fileCells f) = false := by
    have first : (t.lines.any fun l => (l.at 0).same (((fileCells f)[0]?).getD .null)) = false :=
      List.any_eq_false.mpr fun l there has => free l there (Cell.same_text.mp has)
    rw [Table.repeatsKey, columns]
    simp only [fileColumns, Column.key, Column.required, Column.identifies_of_exact,
      List.zipIdx_cons, List.zipIdx_nil, List.any_cons, List.any_nil, Bool.true_and, Bool.false_and,
      Bool.or_false, first]
  rw [Table.insert, kept, given, unique]
  rfl

/-- What a database keeps of the files made: a line for each of them, and ids that have been made
before. -/
structure StoresFiles (n : Nature) (made : List ExportFile) (db : Database) : Prop where
  isOpen : db.isOpen = true
  columns : db.files.columns = fileColumns
  lines : List.Forall₂ WritesFile made db.files.lines
  used : ∀ f ∈ made, ∃ k < n.made, f.id = n.ids k
  ids : Function.Injective n.ids
  readings : ∀ k, (n.readings k).Exact

theorem nextFile_eq (reading : (n.readings n.read).Exact) (ends : new.expiresAt.Exact) :
    nextFile n new = n.nextFile new := by
  simp only [nextFile, Nature.nextFile, storedFile, NewExportFile.toFile, reading.toMicro_eq,
    ends.toMicro_eq]

theorem StoresFiles.created {db : Database} (keeps : StoresFiles n made db)
    (storable : new.Storable) :
    (createFile (n.nextFile new) db).1 = .ok (n.nextFile new) ∧
      StoresFiles n.spent (made ++ [n.nextFile new]) (createFile (n.nextFile new) db).2 := by
  have free : ∀ l ∈ db.files.lines, l.at 0 ≠ .text (n.nextFile new).id := by
    intro l there taken
    obtain ⟨f, member, writes⟩ := exists_of_mem_forall₂ (List.Forall₂.flip keeps.lines) there
    obtain ⟨k, earlier, own⟩ := keeps.used f member
    have same : n.ids k = n.ids n.made :=
      own.symm.trans (Cell.text.inj (writes.at_id.symm.trans taken))
    exact absurd (keeps.ids same) (Nat.ne_of_lt earlier)
  have held : Cell.holds (n.nextFile new).recordCount = true := by
    have small : (new.recordCount : Int) < Word.count 63 := Int.ofNat_lt.mpr storable.recordCount
    have negative : -(Word.count 63 : Int) ≤ new.recordCount := by omega
    simp only [Cell.holds, Word.fits, Bool.and_eq_true, decide_eq_true_eq]
    exact ⟨negative, small⟩
  have grown : createFile (n.nextFile new) db = (.ok (n.nextFile new), { db with
      files := { db.files with
        lines := db.files.lines ++ [⟨db.files.nextNumber, fileCells (n.nextFile new)⟩] } }) := by
    rw [createFile, if_pos held, write, if_pos keeps.isOpen, insertFile,
      insert_fileCells keeps.columns free]
    rfl
  rw [grown]
  refine ⟨rfl, keeps.isOpen, keeps.columns, ?_, ?_, keeps.ids, keeps.readings⟩
  · have writes : WritesFile (n.nextFile new) ⟨db.files.nextNumber, fileCells (n.nextFile new)⟩ :=
      ⟨rfl, storable.recordCount, keeps.readings _, storable.expiresAt⟩
    exact List.rel_append keeps.lines (.cons writes .nil)
  · intro f member
    rcases List.mem_append.mp member with old | last
    · obtain ⟨k, earlier, own⟩ := keeps.used f old
      exact ⟨k, Nat.lt_succ_of_lt earlier, own⟩
    · rw [List.mem_singleton.mp last]
      exact ⟨n.made, Nat.lt_succ_self _, rfl⟩

theorem StoresFiles.findFile_eq {db : Database} (keeps : StoresFiles n made db) (jobId : String) :
    findFile jobId db = (.ok (MemoryExports.find ⟨made⟩ jobId), db) := by
  have latest : Option.Rel WritesFile (MemoryExports.find ⟨made⟩ jobId)
      (latestLine jobId db.files) := rel_latestLine keeps.lines jobId
  rw [findFile, read, if_pos keeps.isOpen]
  generalize MemoryExports.find ⟨made⟩ jobId = found at latest
  generalize latestLine jobId db.files = line at latest
  cases latest with
  | none => rfl
  | some writes =>
      simp only [writes.readFile_eq]
      rfl

theorem follows_files (beside : place.Beside nature) : (exportStore place nature).Follows
    fun n made w => nature.get w = n ∧ StoresFiles n made (place.get w) where
  create := by
    rintro n made new w ⟨rfl, keeps⟩ storable
    obtain ⟨answer, stored, spent⟩ := exportStore_create beside new w
    rw [nextFile_eq (keeps.readings _) storable.expiresAt] at answer stored
    obtain ⟨done, kept⟩ := keeps.created storable
    rw [done] at answer
    rw [← stored] at kept
    exact ⟨answer, spent, kept⟩
  find := by
    rintro n made w jobId ⟨rfl, keeps⟩
    have called := keeps.findFile_eq jobId
    have answer : ((exportStore place nature).findByJob jobId w).1 =
        .ok (MemoryExports.find ⟨made⟩ jobId) :=
      congrArg (fun answer => answer.1.mapError Fault.error) called
    have kept : place.get ((exportStore place nature).findByJob jobId w).2 = place.get w :=
      (beside.first _ _).trans (congrArg Prod.snd called)
    exact ⟨_, answer, MemoryExports.isLatest_find made jobId, beside.secondKept _ _, kept ▸ keeps⟩

end Database

/-! ### Both -/

section Both

variable {W₁ W₂ : Type} {place₁ : Part W₁ MemoryExports} {nature₁ : Part W₁ Nature}
  {place₂ : Part W₂ Database} {nature₂ : Part W₂ Nature} {w₁ : W₁} {w₂ : W₂}

/-- A store of files in memory and one in a database are one store. Let both begin empty and be given
the same ids, all different, and the same readings of a clock, which may stand still or go back; let
the times be whole microseconds of the years 0 to 9999, and record counts have 63 bits. Then both
answer requests alike and as they are to be, so that no call fails, and after them both find the same
file for each job: the latest of those made for it, and nothing if none was. -/
theorem exports_agree {requests : List FileRequest} (beside₁ : place₁.Beside nature₁)
    (beside₂ : place₂.Beside nature₂) (empty₁ : place₁.get w₁ = .empty)
    (empty₂ : (place₂.get w₂).files = .empty Database.fileColumns)
    (isOpen : (place₂.get w₂).isOpen = true) (nature : nature₂.get w₂ = nature₁.get w₁)
    (ids : Function.Injective (nature₁.get w₁).ids)
    (readings : ∀ k, ((nature₁.get w₁).readings k).Exact)
    (storable : ∀ request ∈ requests, request.Storable) :
    let inMemory := MemoryExports.exportStore place₁ nature₁
    let inDatabase := Database.exportStore place₂ nature₂
    let first := inMemory.serveAll requests w₁
    let second := inDatabase.serveAll requests w₂
    second.1 = first.1 ∧ Answered (nature₁.get w₁) [] requests first.1 ∧
    ∀ jobId, ∃ found, IsLatest jobId ((nature₁.get w₁).filesOf requests) found ∧
      (inMemory.findByJob jobId first.2).1 = .ok found ∧
      (inDatabase.findByJob jobId second.2).1 = .ok found := by
  intro inMemory inDatabase first second
  have follows₁ := MemoryExports.follows beside₁
  have follows₂ := Database.follows_files beside₂
  have keeps₁ : nature₁.get w₁ = nature₁.get w₁ ∧ (place₁.get w₁).files = [] :=
    ⟨rfl, congrArg MemoryExports.files empty₁⟩
  have keeps₂ : nature₂.get w₂ = nature₁.get w₁ ∧
      Database.StoresFiles (nature₁.get w₁) [] (place₂.get w₂) := by
    refine ⟨nature, isOpen, by rw [empty₂]; rfl, ?_, by simp, ids, readings⟩
    rw [empty₂]
    exact .nil
  obtain ⟨answers₁, n₁, last₁⟩ := follows₁.serveAll keeps₁ storable
  obtain ⟨answers₂, n₂, last₂⟩ := follows₂.serveAll keeps₂ storable
  refine ⟨answers₂.unique answers₁, answers₁, fun jobId => ?_⟩
  obtain ⟨found₁, answer₁, latest₁, _⟩ := follows₁.find jobId last₁
  obtain ⟨found₂, answer₂, latest₂, _⟩ := follows₂.find jobId last₂
  exact ⟨found₁, latest₁, answer₁, latest₂.unique latest₁ ▸ answer₂⟩

end Both

/-! ### An evening with a leap second -/

/-- The last seconds of 2016: half a second before the leap second, and half way through it. -/
def leapEvening : Instant × Instant := (⟨1483228799, 500000000⟩, ⟨1483228799, 1500000000⟩)

/-- A clock that goes back and forth between the two, and ids of more and more letters. -/
def restlessNature : Nature :=
  { stillNature with readings := fun k => if k % 2 = 0 then leapEvening.2 else leapEvening.1 }

/-- A file of a job that lasts until a May morning. -/
def eveningFile (jobId : String) (content : Bytes) : NewExportFile :=
  ⟨jobId, "", "users.csv", content, 1, mayMorning⟩

/-- Three files of one job are made and one of another between them, and both are looked for, and one
that has none. -/
def eveningRequests : List FileRequest :=
  [.create (eveningFile "job-1" "first"), .create (eveningFile "job-2" "other"), .find "job-1",
    .create (eveningFile "job-1" "second"), .create (eveningFile "job-1" "third"), .find "job-1",
    .find "job-2", .find "job-3"]

/-- Of three files of one job the second is found, which is as late as the first and later than the
third. -/
theorem exports_agree_leapEvening :
    let nth (k : Nat) (jobId : String) (content : Bytes) : ExportFile :=
      (eveningFile jobId content).toFile (restlessNature.ids k) (restlessNature.readings k)
    ((Database.exportStore Part.first Part.second).serveAll eveningRequests
        (.new, restlessNature)).1 =
      [.made (nth 0 "job-1" "first"), .made (nth 1 "job-2" "other"),
        .found (some (nth 0 "job-1" "first")), .made (nth 2 "job-1" "second"),
        .made (nth 3 "job-1" "third"), .found (some (nth 2 "job-1" "second")),
        .found (some (nth 1 "job-2" "other")), .found none] := by
  intro nth
  have ids : Function.Injective restlessNature.ids := by
    intro j k same
    have lengths := congrArg (fun s => s.toList.length) same
    simpa [restlessNature, stillNature] using lengths
  have readings : ∀ k, (restlessNature.readings k).Exact := by
    intro k
    rcases Nat.mod_two_eq_zero_or_one k with even | odd
    · have late : restlessNature.readings k = leapEvening.2 := if_pos even
      exact late ▸ ⟨by decide, by decide, by decide +kernel⟩
    · have early : restlessNature.readings k = leapEvening.1 := if_neg (by omega)
      exact early ▸ ⟨by decide, by decide, by decide +kernel⟩
  have storable : ∀ request ∈ eveningRequests, request.Storable := by
    have each : ∀ jobId content, (eveningFile jobId content).Storable := fun _ _ =>
      ⟨mayMorning_regular.exact, (by decide : 1 < Word.count 63)⟩
    simp only [eveningRequests, List.forall_mem_cons]
    exact ⟨each _ _, each _ _, trivial, each _ _, each _ _, trivial, trivial, trivial, by simp⟩
  have empty : Part.first.get (MemoryExports.empty, restlessNature) = .empty := rfl
  have empty' : (Part.first.get (Database.new, restlessNature)).files =
      .empty Database.fileColumns := rfl
  obtain ⟨agree, _⟩ := exports_agree Part.first_beside_second Part.first_beside_second empty empty'
    rfl rfl ids readings storable
  rw [agree]
  decide +kernel

end JobQueue
