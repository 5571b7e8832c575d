/-
Registration of handlers, and which handler a job is given to.

Handlers are registered one after another, some as they are, some for typed payloads. A registry
holds the first handler registered for each type, under the type that the handler itself declares
(`Registry.after_holds`), and nothing that is registered later changes this (`Registry.registers`).
The type that a record is read with stands in its payload, so the handler that runs is the first one
of that type, and a typed handler is never given a payload of another type
(`Executor.registered_dispatched`).
-/

import JobQueue.Proofs.Job.Course
import JobQueue.Proofs.Json.Regular
import JobQueue.Proofs.Payload.Exports
import JobQueue.Service.Site
import Mathlib.Data.List.Induction

namespace JobQueue

/-- A handler that is registered, as it is or with a typed payload. -/
inductive Registration (W : Type) : Type 1 where
  | plain (handler : Handler W)
  | typed {D O : Type} (handler : TypedHandler W D O)

namespace Registration

variable {W : Type}

/-- The handler that is put into the registry. -/
def handler : Registration W → Handler W
  | .plain h => h
  | .typed h => h.toHandler

/-- The type that the handler declares. -/
def jobType (c : Registration W) : String := c.handler.jobType

/-- The first of some registrations for a type. -/
def first? (calls : List (Registration W)) (jobType : String) : Option (Registration W) :=
  calls.find? fun c => c.jobType == jobType

/-- Why a registration is refused after others, if it is. -/
def refusal (before : List (Registration W)) (c : Registration W) : Option JobError :=
  if c.jobType = "" then some (.registration "handler job type cannot be empty")
  else if (first? before c.jobType).isSome then
    some (.registration s!"handler for job type '{c.jobType}' already registered")
  else none

variable {calls before : List (Registration W)} {c : Registration W} {jobType : String}

theorem jobType_of_first? (found : first? calls jobType = some c) : c.jobType = jobType :=
  beq_iff_eq.mp (List.find?_some found :)

theorem refusal_eq_none : refusal before c = none ↔
    c.jobType ≠ "" ∧ first? before c.jobType = none := by
  rw [refusal]
  split
  next empty => exact iff_of_false nofun fun fine => fine.1 empty
  next nonempty =>
    split
    next taken =>
      refine iff_of_false nofun fun fine => ?_
      rw [fine.2] at taken
      cases taken
    next free => exact iff_of_true rfl ⟨nonempty, by simpa using free⟩

theorem first?_snoc : first? (calls ++ [c]) jobType =
    (first? calls jobType).or (if c.jobType = jobType then some c else none) := by
  rw [first?, List.find?_append, List.find?_singleton]
  simp only [beq_iff_eq]
  rfl

/-- A refused registration is not the first of its type. -/
theorem first?_of_refused {e : JobError} (refused : refusal before c = some e)
    (nonempty : jobType ≠ "") : first? (before ++ [c]) jobType = first? before jobType := by
  rw [first?_snoc]
  by_cases own : c.jobType = jobType
  · cases found : first? before jobType with
    | some first => rfl
    | none =>
        rw [refusal_eq_none.mpr ⟨own ▸ nonempty, own ▸ found⟩] at refused
        cases refused
  · rw [if_neg own, Option.or_none]

end Registration

open Registration (first? refusal)

namespace Registry

variable {W : Type} {r : Registry W} {calls : List (Registration W)}
  {c : Registration W} {jobType : String}

/-- What a registration is answered, and the registry after it. -/
def answer (r : Registry W) (c : Registration W) : Except JobError Unit × Registry W :=
  match r.register c.handler with
  | .ok next => (.ok (), next)
  | .error e => (.error e, r)

/-- The registry after some registrations, one after another. -/
def after (calls : List (Registration W)) : Registry W :=
  calls.foldl (fun r c => (r.answer c).2) .empty

theorem after_snoc : after (calls ++ [c]) = ((after calls).answer c).2 := List.foldl_append

/-! ### What a registry holds -/

/-- Whether a registry holds the first handler of each type, under the type that it declares, each
type once and none of them empty. -/
structure Holds (r : Registry W) (calls : List (Registration W)) : Prop where
  declared : ∀ entry ∈ r.handlers, entry.1 ≠ "" ∧ entry.2.jobType = entry.1
  nodup : (r.handlers.map Prod.fst).Nodup
  found : ∀ jobType, r.handlers.lookup jobType =
    if jobType = "" then none else (first? calls jobType).map (·.handler)

theorem holds_empty : (empty : Registry W).Holds [] where
  declared := nofun
  nodup := .nil
  found _ := (ite_self none).symm

theorem Holds.answer_eq (holds : r.Holds calls) : r.answer c =
    match refusal calls c with
    | some e => (.error e, r)
    | none => (.ok (), ⟨r.handlers ++ [(c.jobType, c.handler)]⟩) := by
  have found := holds.found c.jobType
  have declared : c.handler.jobType = c.jobType := rfl
  rw [answer, register, refusal, declared]
  by_cases empty : c.jobType = ""
  · rw [if_pos (String.isEmpty_iff.mpr empty), if_pos empty]
  · rw [if_neg (mt String.isEmpty_iff.mp empty), if_neg empty, found, if_neg empty,
      Option.isSome_map]
    cases first? calls c.jobType <;> rfl

/-- One more registration leads to the registry that holds the first of one more. -/
theorem Holds.answer (holds : r.Holds calls) : (r.answer c).2.Holds (calls ++ [c]) := by
  cases refused : refusal calls c with
  | some e =>
      rw [holds.answer_eq, refused]
      refine ⟨holds.declared, holds.nodup, fun jobType => (holds.found jobType).trans ?_⟩
      by_cases empty : jobType = ""
      · rw [if_pos empty, if_pos empty]
      · rw [Registration.first?_of_refused refused empty]
  | none =>
      obtain ⟨nonempty, free⟩ := Registration.refusal_eq_none.mp refused
      rw [holds.answer_eq, refused]
      have absent : r.handlers.lookup c.jobType = none := by
        rw [holds.found, if_neg nonempty, free]
        rfl
      constructor
      case declared =>
        intro entry member
        rcases List.mem_append.mp member with earlier | new
        · exact holds.declared entry earlier
        · rw [List.mem_singleton.mp new]
          exact ⟨nonempty, rfl⟩
      case nodup =>
        rw [List.map_append]
        refine List.nodup_append.mpr ⟨holds.nodup, List.pairwise_singleton _ _, ?_⟩
        intro key old own new
        obtain ⟨entry, member, rfl⟩ := List.mem_map.mp old
        rw [List.map_singleton, List.mem_singleton] at new
        have apart := List.lookup_eq_none_iff.mp absent entry member
        rw [bne_iff_ne] at apart
        exact new ▸ apart.symm
      case found =>
        intro jobType
        rw [List.lookup_append, Registration.first?_snoc]
        by_cases own : c.jobType = jobType
        · subst own
          rw [absent, free, if_neg nonempty, if_pos rfl, List.lookup_cons_self]
          rfl
        · rw [holds.found, if_neg own, Option.or_none, List.lookup_cons,
            beq_false_of_ne (Ne.symm own)]
          exact Option.or_none

/-- The registry after some registrations holds the first handler of each type. -/
theorem after_holds (calls : List (Registration W)) : (after calls).Holds calls := by
  induction calls using List.reverseRecOn with
  | nil => exact holds_empty
  | append_singleton calls c ih =>
      rw [after_snoc]
      exact ih.answer

theorem Holds.get_eq (holds : r.Holds calls) (nonempty : jobType ≠ "") : r.get jobType =
    match first? calls jobType with
    | some c => .ok c.handler
    | none => .error (.noHandler jobType) := by
  rw [get, holds.found, if_neg nonempty]
  cases first? calls jobType <;> rfl

/-- Of some registrations the first for a type that is not empty is accepted. -/
theorem accepted_of_first? (found : first? calls jobType = some c) (nonempty : jobType ≠ "") :
    ∃ before later, calls = before ++ c :: later ∧
      (after before).answer c = (.ok (), after (before ++ [c])) := by
  obtain ⟨own, before, later, split, others⟩ := List.find?_eq_some_iff_append.mp found
  have own : c.jobType = jobType := beq_iff_eq.mp own
  have free : first? before c.jobType = none := by
    rw [first?, List.find?_eq_none, own]
    simpa using others
  have accepted := Registration.refusal_eq_none.mpr ⟨own ▸ nonempty, free⟩
  refine ⟨before, later, split, ?_⟩
  rw [after_snoc, (after_holds before).answer_eq, accepted]

end Registry

/-! ### Which handler runs -/

theorem Payload.regular_of_parse {text : String} {fields : Fields}
    (parsed : parse text = .ok fields) : (Json.obj fields).Every Json.IsRegular :=
  Json.regular_of_read (parse_eq_ok.mp parsed)

namespace Job

variable {r : JobRecord} {job : Job}

/-- The type of a job is what its payload has under that key. -/
theorem type_of_ofRecord (read : ofRecord r = .ok job) :
    Fields.get? job.payload "type" = some (.str job.jobType) ∧ job.jobType ≠ "" :=
  Payload.of_validate (of_ofRecord read).2.2

/-- The payload of a job is decoded to one of the job's own type. -/
theorem jobType_of_decode {D O : Type} {data : Codec D} {options : Codec O} {noOptions : O}
    {p : TypedPayload D O} (read : ofRecord r = .ok job)
    (decoded : job.decode data options noOptions = .ok p) : p.jobType = job.jobType := by
  have regular := Payload.regular_of_parse (of_ofRecord read).2.1
  have own := TypedPayload.jobType_of_ofJson regular.self.nodup (type_of_ofRecord read).1
    (decode_eq_ok.mp decoded)
  exact (Except.ok.inj own).symm

end Job

/-- A typed handler that is only given payloads of its own type has no need to look. -/
theorem TypedHandler.run_toHandler {W D O : Type} {h : TypedHandler W D O} {job : Job}
    {context : JobContext}
    (own : ∀ p, job.decode h.data h.options h.noOptions = .ok p → p.jobType = h.jobType) :
    h.toHandler.run context job =
      (JobTask.ofExcept (job.decode h.data h.options h.noOptions) >>= h.run context) := by
  show (JobTask.ofExcept _ >>= _) = _
  cases decoded : job.decode h.data h.options h.noOptions with
  | error e => rfl
  | ok p =>
      have same : (p.jobType != h.jobType) = false := by
        rw [own p decoded]
        exact bne_self_eq_false _
      show (if (p.jobType != h.jobType) = true then _ else _) = _
      rw [same]
      rfl

namespace Registry

variable {W : Type}

/-- What becomes of registrations that are made one after another. -/
structure Registers (calls : List (Registration W)) : Prop where
  /-- A registration is refused if its type is empty or has been registered before, and leaves the
  registry as it was then; any other is accepted. -/
  answered before c later : calls = before ++ c :: later → (after before).answer c =
    match refusal before c with
    | some e => (.error e, after before)
    | none => (.ok (), after (before ++ [c]))
  /-- No type is empty or stands there twice, and each is the one that its handler declares. -/
  declared : (∀ entry ∈ (after calls).handlers, entry.1 ≠ "" ∧ entry.2.jobType = entry.1) ∧
    ((after calls).handlers.map Prod.fst).Nodup
  /-- What has been accepted for a type is what is found for it, whatever comes later. -/
  kept before c later : calls = before ++ c :: later → ((after before).answer c).1 = .ok () →
    (after calls).get c.jobType = .ok c.handler
  /-- The first registration for a type that is not empty is accepted. -/
  first jobType c : jobType ≠ "" → first? calls jobType = some c → ∃ before later,
    calls = before ++ c :: later ∧ ((after before).answer c).1 = .ok ()
  /-- Nothing is found for a type that nothing has been accepted for. -/
  missing jobType : (∀ before c later, calls = before ++ c :: later → c.jobType = jobType →
    ((after before).answer c).1 ≠ .ok ()) → (after calls).get jobType = .error (.noHandler jobType)

theorem registers (calls : List (Registration W)) : Registers calls where
  answered before c later _ := by
    rw [(after_holds before).answer_eq, after_snoc, (after_holds before).answer_eq]
    cases refusal before c <;> rfl
  declared := ⟨(after_holds calls).declared, (after_holds calls).nodup⟩
  kept before c later split accepted := by
    subst split
    rw [(after_holds before).answer_eq] at accepted
    cases refused : refusal before c with
    | some e =>
        rw [refused] at accepted
        cases accepted
    | none =>
        obtain ⟨nonempty, free⟩ := Registration.refusal_eq_none.mp refused
        have first : first? (before ++ c :: later) c.jobType = some c := by
          rw [first?, List.find?_append, ← first?, free, Option.none_or]
          exact List.find?_cons_of_pos (beq_self_eq_true _)
        rw [(after_holds _).get_eq nonempty, first]
  first jobType c nonempty found := by
    obtain ⟨before, later, split, accepted⟩ := accepted_of_first? found nonempty
    exact ⟨before, later, split, congrArg Prod.fst accepted⟩
  missing jobType none := by
    by_cases empty : jobType = ""
    · rw [get, (after_holds calls).found, if_pos empty]
    · rw [(after_holds calls).get_eq empty]
      cases found : first? calls jobType with
      | none => rfl
      | some c =>
          obtain ⟨before, later, split, accepted⟩ := accepted_of_first? found empty
          have own := Registration.jobType_of_first? found
          exact absurd (congrArg Prod.fst accepted) (none before c later split own)

end Registry

namespace Executor

variable {W : Type}

/-- How an executor deals with records when its handlers have been registered so. -/
structure Dispatches (x : Executor W) (calls : List (Registration W)) : Prop where
  /-- A record that is read as a job has the type of the job in its payload; it fails if there is no
  handler of that type, and is given to the first one that has been registered if there is. -/
  first worker r job : Job.ofRecord r = .ok job →
    Fields.get? job.payload "type" = some (.str job.jobType) ∧
    x.execute worker r =
      match first? calls job.jobType with
      | none => .done (.error (.noHandler job.jobType))
      | some c => (c.handler.run (.ofJob job worker) job).run.bind fun result =>
          .done (resultOfHandler result)
  /-- If that one is typed, all that the job can be decoded to is of the handler's type, and the
  handler goes on with it. -/
  typed worker r job : Job.ofRecord r = .ok job → ∀ (D O : Type) (h : TypedHandler W D O),
    first? calls job.jobType = some (.typed h) →
      (∀ p, job.decode h.data h.options h.noOptions = .ok p → p.jobType = h.jobType) ∧
      h.toHandler.run (.ofJob job worker) job =
        (JobTask.ofExcept (job.decode h.data h.options h.noOptions) >>= h.run (.ofJob job worker))

variable {x : Executor W} {calls : List (Registration W)}

theorem dispatches (registered : x.registry = Registry.after calls) : x.Dispatches calls where
  first worker r job read := by
    obtain ⟨named, nonempty⟩ := Job.type_of_ofRecord read
    refine ⟨named, ?_⟩
    have given : x.handlerFor r = (x.registry.get job.jobType).map fun handler => (handler, job) := by
      rw [handlerFor, read]
    rw [execute_eq, given, registered, (Registry.after_holds calls).get_eq nonempty]
    cases first? calls job.jobType <;> rfl
  typed worker r job read D O h found := by
    have own : h.jobType = job.jobType := Registration.jobType_of_first? found
    have decoded p (there : job.decode h.data h.options h.noOptions = .ok p) :
        p.jobType = h.jobType := (Job.jobType_of_decode read there).trans own.symm
    exact ⟨decoded, TypedHandler.run_toHandler decoded⟩

/-- Handlers that are registered one after another, and the records that they are given: the first
handler accepted for a type is found for ever, and it is the one that the jobs of the type get. -/
theorem registered_dispatched (registered : x.registry = Registry.after calls) :
    Registry.Registers calls ∧ x.Dispatches calls :=
  ⟨Registry.registers calls, dispatches registered⟩

/-- Registrations of which two are refused: one without a type, and one for a type that has been
registered before. -/
def mailCalls : List (Registration Site) := [
  .plain ⟨"", fun _ _ => pure ()⟩,
  .typed (sendEmail (Site.mailer none) defaultSender),
  .plain ⟨emailJobType, fun _ _ => JobTask.fail (.handlerFailed "second")⟩]

def mailExecutor : Executor Site :=
  ⟨⟨Site.memoryStores.records, Site.clock, .breaksOff⟩, .after mailCalls, .ofSeconds 60⟩

def mailJob : Job where
  id := "r1"
  name := "mail"
  description := ""
  jobType := emailJobType
  payload := [("data", .obj [("subject", .str "Hi"), ("template", .str "t"), ("to", .str "a@b")]),
    ("type", .str emailJobType)]
  attempts := 0
  reservedAt := none
  created := Instant.earliest
  updated := Instant.earliest

def mailRecord : JobRecord where
  id := "r1"
  collection := queueCollection
  name := "mail"
  description := ""
  payload := "\x7b\"type\":\"email\",\"data\":\x7b\"to\":\"a@b\",\"subject\":\"Hi\",\"template\":\"t\"\x7d\x7d"
  attempts := 0
  reservedAt := ""
  created := Instant.earliest
  updated := Instant.earliest

theorem ofRecord_mailRecord : Job.ofRecord mailRecord = .ok mailJob := rfl

theorem registered_dispatched_mail :
    mailExecutor.registry = .after mailCalls ∧
    (Registry.after mailCalls).get emailJobType =
      .ok (sendEmail (Site.mailer none) defaultSender).toHandler ∧
    Job.ofRecord mailRecord = .ok mailJob ∧
    mailExecutor.execute none mailRecord =
      ((sendEmail (Site.mailer none) defaultSender).toHandler.run (.ofJob mailJob none)
        mailJob).run.bind fun result => .done (resultOfHandler result) := by
  obtain ⟨registers, dispatches⟩ :=
    registered_dispatched (rfl : mailExecutor.registry = .after mailCalls)
  have kept := registers.kept [_] (.typed (sendEmail (Site.mailer none) defaultSender)) [_] rfl rfl
  exact ⟨rfl, kept, ofRecord_mailRecord, (dispatches.first none mailRecord mailJob rfl).2⟩

end Executor

end JobQueue
