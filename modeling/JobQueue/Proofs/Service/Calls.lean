/-
What the calls on a processor assure of an archive.

An archive is attended to by a processor if its attempts are (`Processor.Attends`), and by a
processor with the built-in handlers on stores that may fail (`App.attends_of_processorOf`). A job
that is put in is minded from then on (`Attends.assures_enqueue`), a page shows records that the
store knows (`Attends.assures_fetch`), and a status tells what has been seen of its job since it was
asked for (`Attends.assures_status`). So of a job whose file is wanted it does not tell that it has
failed, and that it has been completed only when it has gone and its file is there
(`Seen.of_minds`); and then nothing else is told of it any more (`Seen.of_delivered`).
-/

import JobQueue.Proofs.Service.Attempts
import JobQueue.Scanner.Scan

namespace JobQueue

variable {W C : Type} {archive : Archive W C} {wanted : String → Prop} {w : W} {id text : String}
  {v : Json}

namespace Processor

variable {p : Processor W} {name description : String}

/-- The attempts of a processor lead an archive onward, and it looks for files where they are
kept. -/
structure Attends (p : Processor W) (archive : Archive W C) (wanted : String → Prop) : Prop where
  executor : p.executor.Attends archive wanted
  files : ∃ files, p.exports = some files ∧ archive.KeepsFiles files

variable (attends : p.Attends archive wanted)

include attends

/-- A job that has been put in is minded. -/
theorem Attends.assures_enqueue : (p.enqueue name description v).Assures (archive.Onward wanted)
    (fun result w => ∀ r, result = .ok r → archive.Minds wanted v.compact w r.id) w := by
  rw [enqueue]
  refine JobTask.assures_ofExcept (fun _ => nofun) fun fields _ => ?_
  refine JobTask.assures_ofExcept (fun _ => nofun) fun _ _ => ?_
  refine JobTask.assures_call fun w since => ?_
  obtain ⟨onward, made⟩ := attends.executor.serves.created since.sound
  refine ⟨onward, ?_⟩
  cases answered : (p.backend.records.create ⟨name, description, v.compact⟩ w).1 with
  | ok r =>
      rintro _ ⟨⟩
      exact made r answered
  | error fault => exact nofun

/-- A page shows records with the payloads that are kept under their ids. -/
theorem Attends.assures_fetch : (Scanner.fetch p).Assures (archive.Onward wanted)
    (fun result w => ∀ page, result = .ok page → ∀ r ∈ page, archive.Knows w r) w := by
  rw [Scanner.fetch]
  refine JobTask.assures_bind (fun _ _ => True) ?clock fun now w _ => ?_
  case clock =>
    exact JobTask.assures_perform fun w since =>
      ⟨attends.executor.ticking.onward since.sound, trivial⟩
  refine JobTask.assures_ofExcept (fun _ => nofun) fun before _ => ?_
  refine JobTask.assures_call fun w since => ?_
  have serves := attends.executor.serves
  have onward : archive.Onward wanted w
      (p.backend.records.available before p.settings.batchSize 0 w).2 :=
    serves.onward_available since.sound
  refine ⟨onward, ?_⟩
  cases answered : (p.backend.records.available before p.settings.batchSize 0 w).1 with
  | error fault => exact nofun
  | ok page =>
      rintro _ ⟨⟩ r member
      have kept := serves.shown before _ _ w page since.sound.good answered r member
      exact (since.sound.knows kept).onward onward

/-! ### The status of a job -/

/-- What stands behind a status: the record was in the store in some world since the status was
asked for, or it had gone, and then there was no file in a later world, if the job is said to have
failed. -/
inductive Seen (archive : Archive W C) (wanted : String → Prop) (id : String) (w : W) :
    JobStatus → W → Prop where
  | there {w₁ w' : W} {status : JobStatus} (since : archive.Onward wanted w w₁)
      (kept : archive.text? w₁ id ≠ none) (waits : status = .queued ∨ status = .processing) :
      Seen archive wanted id w status w'
  | gone {w₁ w' : W} (since : archive.Onward wanted w w₁) (gone : archive.text? w₁ id = none)
      (onward : archive.Onward wanted w₁ w') : Seen archive wanted id w .completed w'
  | unfiled {w₁ w₂ w' : W} (since : archive.Onward wanted w w₁)
      (gone : archive.text? w₁ id = none) (later : archive.Onward wanted w₁ w₂)
      (unfiled : ¬ archive.HasFile w₂ id) : Seen archive wanted id w .failed w'

theorem Attends.assures_statusOfGone {w₀ w₁ : W} (since : archive.Onward wanted w₀ w₁)
    (gone : archive.text? w₁ id = none) (onward : archive.Onward wanted w₁ w) :
    (p.statusOfGone id).Assures (archive.Onward wanted)
      (fun result w => ∀ status, result = .ok status → Seen archive wanted id w₀ status w) w := by
  obtain ⟨files, attached, keeps⟩ := attends.files
  rw [statusOfGone, attached]
  refine JobTask.assures_bind (fun file w =>
    Seen archive wanted id w₀ (if file.isSome then .completed else .failed) w) ?look ?_
  case look =>
    refine JobTask.assures_call fun w₂ more => ?_
    have looked : archive.Onward wanted w₂ (files.findByJob id w₂).2 :=
      .of_spared more.sound (keeps.looking id w₂ more.sound)
    refine ⟨looked, ?_⟩
    cases answered : (files.findByJob id w₂).1 with
    | error fault => exact nofun
    | ok file =>
        cases file with
        | some file => exact .gone since gone ((onward.trans more).trans looked)
        | none =>
            exact .unfiled since gone (onward.trans more) (keeps.missed id w₂ more.sound answered)
  rintro (_ | file) w seen
  · exact JobTask.assures_ok (by rintro _ ⟨⟩; exact seen)
  · exact JobTask.assures_ok (by rintro _ ⟨⟩; exact seen)

/-- A status tells what has been seen since it was asked for. -/
theorem Attends.assures_status : (p.status id).Assures (archive.Onward wanted)
    (fun result w' => ∀ status, result = .ok status → Seen archive wanted id w status w') w := by
  have serves := attends.executor.serves
  rw [status]
  refine JobTask.assures_bind (fun found w' => ∃ w₁, archive.Onward wanted w w₁ ∧
    archive.Onward wanted w₁ w' ∧ (found = none ↔ archive.text? w₁ id = none)) ?find ?_
  case find =>
    refine JobTask.assures_call fun w₁ since => ?_
    have found : archive.Onward wanted w₁ (p.backend.records.find id w₁).2 :=
      serves.onward_find since.sound
    refine ⟨found, ?_⟩
    cases answered : (p.backend.records.find id w₁).1 with
    | error fault => exact nofun
    | ok record =>
        refine ⟨w₁, since, found, ?_⟩
        cases record with
        | none => exact iff_of_true rfl (serves.missed_text since.sound answered)
        | some r =>
            have kept := (serves.found id w₁ r since.sound.good answered).2
            exact iff_of_false nofun fun gone => by cases gone.symm.trans kept
  rintro (_ | r) w₂ ⟨w₁, since, onward, same⟩
  · exact attends.assures_statusOfGone since (same.mp rfl) onward
  · refine JobTask.assures_bind (fun _ _ => True) ?clock fun now w _ => ?_
    case clock =>
      exact JobTask.assures_perform fun w since =>
        ⟨attends.executor.ticking.onward since.sound, trivial⟩
    refine JobTask.assures_ok ?_
    rintro _ ⟨⟩
    refine .there since (fun gone => nomatch same.mpr gone) ?_
    split
    · exact .inr rfl
    · exact .inl rfl

omit attends

/-- Of a job that was minded, with a file wanted, a status does not tell that it has failed, and
that it has been completed only when it has gone and its file is there. -/
theorem Seen.of_minds {w' : W} {status : JobStatus} (seen : Seen archive wanted id w status w')
    (minds : archive.Minds wanted text w id) (want : wanted text) :
    status ≠ .failed ∧ (status = .completed → archive.Delivered w' id) := by
  have delivered : ∀ {w₁}, archive.Onward wanted w w₁ → archive.text? w₁ id = none →
      archive.Delivered w₁ id := by
    intro w₁ since gone
    have minds' := minds.onward since
    refine ⟨minds'.used, gone, ?_⟩
    rcases minds'.there with kept | ⟨_, filed⟩
    · cases gone.symm.trans kept
    · exact filed want
  cases seen with
  | there since kept waits => rcases waits with rfl | rfl <;> exact ⟨nofun, nofun⟩
  | gone since gone onward => exact ⟨nofun, fun _ => (delivered since gone).onward onward⟩
  | unfiled since gone later unfiled =>
      exact absurd ((delivered since gone).onward later).file unfiled

/-- Of a job that had gone and whose file was there a status tells that it has been completed. -/
theorem Seen.of_delivered {w' : W} {status : JobStatus} (seen : Seen archive wanted id w status w')
    (delivered : archive.Delivered w id) : status = .completed := by
  cases seen with
  | there since kept => exact absurd (delivered.onward since).gone kept
  | gone => rfl
  | unfiled since gone later unfiled =>
      exact absurd (delivered.onward (since.trans later)).file unfiled

end Processor

/-! ### The built-in handlers -/

namespace App

variable {settings : JobsSettings} {stores : Stores W} {clock : W → Instant × W}
  {mailer : Mailer W} {sender : String} {overflow : Word.Overflow} {p : Processor W}
  {isPooled : Bool}

/-- The exporter of a service. -/
def exporterOf (settings : JobsSettings) (stores : Stores W) (clock : W → Instant × W) :
    Exporter W := ⟨stores.source, stores.files, clock, settings.expirationDays⟩

/-- A processor with the built-in handlers has these two and no others. -/
theorem processorOf_eq : processorOf settings stores clock mailer sender overflow =
    .ok ⟨settings, ⟨stores.records, clock, overflow⟩, some stores.files,
      ⟨[(emailJobType, (sendEmail mailer sender).toHandler),
        (dataProcessingJobType, (exporterOf settings stores clock).processData.toHandler)]⟩,
      true⟩ := rfl

/-- The surroundings of a service: its stores keep records and files and may fail, and its clock,
its source and its mailer leave the records alone. -/
structure Surroundings (stores : Stores W) (clock : W → Instant × W) (mailer : Mailer W)
    (archive : Archive W C) : Prop where
  kept : Premises archive stores.records stores.files
  ticking : archive.Spares clock
  fetching : ∀ source filters, archive.Spares (stores.source.fetch source filters)
  mailing : ∀ sender email, (mailer sender email).run.KeepsTo fun w w' =>
    archive.Sound w → archive.Spared w w'

variable (around : Surroundings stores clock mailer archive)

include around

theorem Surroundings.mild : (exporterOf settings stores clock).Mild archive :=
  ⟨around.fetching, around.ticking, around.kept.keepsFiles⟩

theorem Surroundings.assures_mailer {email : EmailData} :
    (mailer sender email).Assures (archive.Onward wanted) (fun _ _ => True) w :=
  ⟨(around.mailing sender email).assures (fun _ _ since spared => .of_spared since.sound
    (spared since.sound)) Archive.Onward.trans⟩

/-- A processor with the built-in handlers attends to an archive in which exports want files. -/
theorem Surroundings.attends
    (built : processorOf settings stores clock mailer sender overflow = .ok p) :
    Processor.Attends { p with isPooled := isPooled } archive Payload.IsExport := by
  cases processorOf_eq.symm.trans built
  refine ⟨⟨around.kept.serves, around.ticking, ?_⟩, stores.files, rfl, around.kept.keepsFiles⟩
  intro r job handler read registered worker w _
  obtain ⟨sameId, parsed, valid⟩ := Job.of_ofRecord read
  rw [Registry.get] at registered
  dsimp only [Processor.executor] at registered
  by_cases email : job.jobType = emailJobType
  · rw [email] at registered
    cases registered
    refine (assures_sendEmail fun email => around.assures_mailer).mono fun _ _ _ _ isExport => ?_
    exact absurd (email.symm.trans (isExport.jobType _ _ parsed valid)) (by decide)
  · rw [List.lookup_cons, beq_false_of_ne email] at registered
    by_cases data : job.jobType = dataProcessingJobType
    · rw [data] at registered
      cases registered
      rw [← sameId]
      have exports : ((exporterOf settings stores clock).processData.toHandler.run
          (JobContext.ofJob job worker) job).Assures (archive.Onward Payload.IsExport) _ w :=
        around.mild.assures_processData parsed
      exact exports
    · rw [List.lookup_cons, beq_false_of_ne data] at registered
      cases registered

end App

end JobQueue
