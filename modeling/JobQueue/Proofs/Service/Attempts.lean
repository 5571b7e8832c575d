/-
What the built-in handlers and their attempts do to an archive.

An export makes its file before it succeeds, and an attempt deletes its record only after its
handler has succeeded. So every step of an attempt leads an archive onward, where the payloads that
want a file are those of exports, whatever the steps of others between them (`Attends.assures_run`).
The same goes for a new job (`Serves.assures_enqueue`), a page for a scan (`Attends.assures_fetch`)
and a status, which tells of a job that is minded whether its file is there
(`Attends.assures_status`).
-/

import JobQueue.Proofs.Job.Course
import JobQueue.Proofs.Job.Guarantee
import JobQueue.Proofs.Payload.Exports
import JobQueue.Proofs.Service.Premises
import JobQueue.Service.App

namespace JobQueue

variable {W C : Type} {archive : Archive W C} {wanted : String → Prop} {w : W}

open Payload (IsExport)

namespace Archive

/-- A step that leaves the records of a sound world alone. -/
def Spares {α : Type} (archive : Archive W C) (step : W → α × W) : Prop :=
  ∀ w, archive.Sound w → archive.Spared w (step w).2

theorem Spares.onward {α : Type} {step : W → α × W} (spares : archive.Spares step)
    (sound : archive.Sound w) : archive.Onward wanted w (step w).2 :=
  .of_spared sound (spares w sound)

end Archive

/-! ### The handlers -/

namespace Exporter

variable {e : Exporter W} {jobId text : String} {d : DataProcessing} {job : Job}
  {context : JobContext}

/-- The source and the clock of an exporter leave the records alone, and its files are kept. -/
structure Mild (e : Exporter W) (archive : Archive W C) : Prop where
  fetching : ∀ source filters, archive.Spares (e.source.fetch source filters)
  ticking : archive.Spares e.clock
  files : archive.KeepsFiles e.files

variable (mild : e.Mild archive)

include mild

/-- An export that succeeds has made a file of the job. -/
theorem Mild.assures_exportRows : (e.exportRows jobId d).Assures (archive.Onward wanted)
    (fun result w => result = .ok () → archive.HasFile w jobId) w := by
  rw [exportRows]
  refine JobTask.assures_ofExcept (fun _ => nofun) fun format _ => ?_
  refine JobTask.assures_bind (fun _ _ => True) ?fetch fun rows w _ => ?_
  case fetch =>
    refine JobTask.assures_call fun w since => ⟨(mild.fetching _ _).onward since.sound, ?_⟩
    cases (e.source.fetch d.source d.filters w).1 with
    | ok rows => trivial
    | error fault => exact nofun
  refine JobTask.assures_bind (fun _ _ => True) ?clock fun now w _ => ?_
  case clock =>
    exact JobTask.assures_perform fun w since => ⟨mild.ticking.onward since.sound, trivial⟩
  refine JobTask.assures_bind (fun _ w => archive.HasFile w jobId) ?make
    fun _ w has => JobTask.assures_ok fun _ => has
  case make =>
    refine JobTask.assures_call fun w since => ?_
    have making := mild.files.making (fileOf jobId d format rows now e.days) w since.sound
    have made := mild.files.made (fileOf jobId d format rows now e.days) w
    refine ⟨.of_spared since.sound making, ?_⟩
    cases answered : (e.files.create (fileOf jobId d format rows now e.days) w).1 with
    | ok file => exact made file since.sound answered
    | error fault => exact nofun

/-- A job of data processing that succeeds has a file, if its payload is that of an export. -/
theorem Mild.assures_processData (parsed : Payload.parse text = .ok job.payload) :
    (e.processData.toHandler.run context job).Assures (archive.Onward wanted)
      (fun result w => result = .ok () → IsExport text → archive.HasFile w context.correlationId)
      w := by
  refine TypedHandler.assures_toHandler (fun _ => nofun) fun p decoded => ?_
  refine JobTask.assures_ofExcept (fun _ => nofun) fun _ _ => ?_
  cases operation : p.data.operation with
  | exportRows =>
      have exports : (e.exportRows context.correlationId p.data).Assures
          (archive.Onward wanted) _ w := mild.assures_exportRows
      exact exports.mono fun _ _ filed succeeded _ => filed succeeded
  | importRows | transform | aggregate =>
      refine JobTask.assures_ok fun _ isExport => ?_
      have exports := isExport.operation job.payload p parsed (Job.decode_eq_ok.mp decoded)
      rw [operation] at exports
      cases exports

end Exporter

/-- A job that sends an e-mail does no more than its mailer. -/
theorem assures_sendEmail {mailer : Mailer W} {sender : String} {onward : W → W → Prop}
    (mailing : ∀ email, (mailer sender email).Assures onward (fun _ _ => True) w)
    {context : JobContext} {job : Job} :
    ((sendEmail mailer sender).toHandler.run context job).Assures onward (fun _ _ => True) w :=
  TypedHandler.assures_toHandler (fun _ => trivial) fun p _ =>
    JobTask.assures_ofExcept (fun _ => trivial) fun _ _ => mailing p.data

/-! ### Attempts -/

namespace Executor

variable {x : Executor W} {worker : Option Nat} {r : JobRecord} {records : List JobRecord}

/-- The store of an executor serves, its clock leaves the records alone, and a handler that succeeds
has made a file if the payload of its job wants one. -/
structure Attends (x : Executor W) (archive : Archive W C) (wanted : String → Prop) : Prop where
  serves : archive.Serves x.backend.records
  ticking : archive.Spares x.backend.clock
  handlers : ∀ r job handler, Job.ofRecord r = .ok job →
    x.registry.get job.jobType = .ok handler → ∀ worker w, archive.Sound w →
      (handler.run (JobContext.ofJob job worker) job).Assures (archive.Onward wanted)
        (fun result w => result = .ok () → wanted r.payload → archive.HasFile w r.id) w

variable (attends : x.Attends archive wanted)

include attends

/-- A record may be deleted once its file is there, if it wants one. -/
theorem Attends.assures_complete (knows : archive.Knows w r)
    (filed : wanted r.payload → archive.HasFile w r.id) :
    (x.complete r).Assures (archive.Onward wanted) (fun _ _ => True) w := by
  rw [complete_eq]
  intro w' since
  refine ⟨attends.serves.onward_delete since.sound (knows.onward since) fun want =>
    since.files r.id (filed want), ?_⟩
  dsimp only
  split <;> trivial

theorem Attends.assures_release {cause : JobError} (knows : archive.Knows w r) :
    (x.release r cause).Assures (archive.Onward wanted) (fun _ _ => True) w := by
  rw [release_eq]
  intro w₁ since₁
  have ticked : archive.Onward wanted w₁ (x.backend.clock w₁).2 :=
    attends.ticking.onward since₁.sound
  refine ⟨ticked, ?_⟩
  dsimp only
  split
  · trivial
  · intro w₂ since₂
    have kept := ((knows.onward since₁).onward ticked).onward since₂
    have knows' : archive.Knows w₂ (r.markFailed (x.backend.clock w₁).1) := ⟨kept.used, kept.same⟩
    refine ⟨attends.serves.onward_save since₂.sound knows', ?_⟩
    dsimp only
    split <;> trivial

theorem Attends.assures_execute (sound : archive.Sound w) :
    (x.execute worker r).Assures (archive.Onward wanted)
      (fun result w => result = .ok () → wanted r.payload → archive.HasFile w r.id) w := by
  rw [execute_eq]
  cases found : x.handlerFor r with
  | error e => exact nofun
  | ok entry =>
      obtain ⟨read, registered⟩ := of_handlerFor found
      refine (attends.handlers r entry.2 entry.1 read registered worker w sound).steps.bind ?_
      intro result w' filed succeeded
      refine filed ?_
      cases result with
      | ok _ => rfl
      | error fault => cases fault <;> cases succeeded

/-- Every step of an attempt leads onward. -/
theorem Attends.assures_run (knows : archive.Knows w r) :
    (x.run worker r).Assures (archive.Onward wanted) (fun _ _ => True) w := by
  cases checked : check r with
  | some e =>
      rw [run_of_refused checked]
      trivial
  | none =>
      rw [run_eq checked]
      intro w₁ since₁
      have ticked : archive.Onward wanted w₁ (x.backend.clock w₁).2 :=
        attends.ticking.onward since₁.sound
      refine ⟨ticked, ?_⟩
      dsimp only
      split
      · trivial
      · intro w₂ since₂
        have kept := ((knows.onward since₁).onward ticked).onward since₂
        have knows' : archive.Knows w₂ (r.reserve (x.backend.clock w₁).1) := ⟨kept.used, kept.same⟩
        have saved : archive.Onward wanted w₂ (x.backend.records.save _ w₂).2 :=
          attends.serves.onward_save since₂.sound knows'
        refine ⟨saved, ?_⟩
        dsimp only
        split
        · rw [afterClaim_eq]
          refine ((attends.assures_execute saved.sound).since Archive.Onward.trans
            (Archive.Onward.refl saved.sound)).bind ?_
          rintro result w₃ ⟨since₃, filed⟩
          have knows'' := (knows'.onward saved).onward since₃
          cases result with
          | ok _ => exact attends.assures_complete knows'' (filed rfl)
          | error e => exact attends.assures_release knows''
        · trivial
        · trivial

/-- Every step of attempts one after another leads onward. -/
theorem Attends.assures_runAll (sound : archive.Sound w)
    (knows : ∀ r ∈ records, archive.Knows w r) :
    (x.runAll records).Assures (archive.Onward wanted) (fun _ _ => True) w := by
  induction records generalizing w with
  | nil => trivial
  | cons r rest ih =>
      rw [runAll_cons]
      refine ((attends.assures_run (knows r List.mem_cons_self)).since Archive.Onward.trans
        (Archive.Onward.refl sound)).bind ?_
      rintro ended w' ⟨since, _⟩
      have others := ih since.sound fun s member =>
        (knows s (List.mem_cons_of_mem _ member)).onward since
      split
      · trivial
      · exact others.bind fun _ _ _ => trivial
      · exact others.bind fun _ _ _ => trivial

end Executor

end JobQueue
