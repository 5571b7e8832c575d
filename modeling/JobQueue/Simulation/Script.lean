/-
Handlers that follow a script.
-/

import JobQueue.Payload.Email
import JobQueue.Simulation.World

namespace JobQueue.Simulation

/-- What a handler does with a job. -/
inductive Behaviour where
  | succeed
  | fail (text : String)
  /-- Fails with a text that names the job. -/
  | failById
  | endWith (e : JobError)
  | breakOff (c : Crash)
  /-- Fails the first runs and succeeds from then on. -/
  | flaky (times : Nat)
  /-- Removes the job's own record. -/
  | deleteSelf
  /-- Makes another record with the payload given. -/
  | spawn (payload : String)
  /-- Reads an e-mail and checks it. -/
  | decodeEmail
  /-- Fails if the data asks for it. -/
  | obeyData

/-- A handler that keeps an account of its run, pauses, and then does what it is to do. -/
structure Script where
  /-- The number of the handler. -/
  number : Nat
  jobType : String
  pause : Option Nat
  behaviour : Behaviour

/-- Whether data asks for a failure. -/
def asksToFail (data : Option Fields) : Bool :=
  match data.bind fun fields => Fields.get? fields "fail" with
  | some (.bool b) => b
  | _ => false

/-- What a handler does once its pause is over. -/
def Behaviour.run (number : Nat) (job : Job) : Behaviour → JobTask World Unit
  | .succeed => pure ()
  | .fail text => JobTask.fail (.handlerFailed text)
  | .failById => JobTask.fail (.handlerFailed s!"{job.id} refused")
  | .endWith e => JobTask.fail e
  | .breakOff c => JobTask.breakOff c
  | .flaky times => do
      let n ← JobTask.perform (World.count number)
      if n ≤ times then JobTask.fail (.handlerFailed s!"run {Decimal.natText n}")
  | .deleteSelf => do
      match ← JobTask.call (World.records.find job.id) with
      | some r => JobTask.call (World.records.delete r)
      | none => return
  | .spawn payload => do
      let _ ← JobTask.call (World.records.create ⟨"child", "", payload⟩)
  | .decodeEmail => do
      let p ← JobTask.ofExcept (job.decode EmailData.codec Codec.fields [])
      JobTask.ofExcept p.data.validate
  | .obeyData =>
      if asksToFail job.data? then JobTask.fail (.handlerFailed "data asked to fail") else pure ()

/-- The handler of a script. -/
def Script.toHandler (s : Script) : Handler World where
  jobType := s.jobType
  run := fun context job => do
    JobTask.perform fun w => ((), { w with runs := ⟨s.jobType, job, context⟩ :: w.runs })
    match s.pause with
    | some millis => JobTask.sleep millis
    | none => pure ()
    s.behaviour.run s.number job

end JobQueue.Simulation
