/-
What is wrong with settings.

`Settings.problems` finds all problems, in one order, so that a bad setup shows all of them at
once.
-/

import JobQueue.Cron.Schedule
import JobQueue.Settings.Basic

namespace JobQueue

/-- Something that is wrong with settings. -/
inductive Problem where
  | missingUrl
  | noConnections
  | noBatch
  | noWindow
  | badSchedule (expression reason : String)
  | noTime (name : String)
  | expiresTooLate (days : Nat)
deriving DecidableEq, Repr

/-- The wording of a problem. -/
def Problem.message : Problem → String
  | .missingUrl => "Database URL is required"
  | .noConnections => "Database max_connections must be at least 1"
  | .noBatch => "Job batch_size must be greater than 0"
  | .noWindow => "Job reservation_timeout_minutes must be greater than 0"
  | .badSchedule expression reason => s!"Invalid scan schedule '{expression}': {reason}"
  | .noTime name => s!"Timeout '{name}' must be positive"
  | .expiresTooLate days =>
      s!"Job export_file_expiration_days must be at most {Decimal.natText longestExpirationDays}, got {Decimal.natText days}"

/-- A problem that is there in a case. -/
def Problem.when (bad : Bool) (p : Problem) : List Problem := if bad then [p] else []

/-- The problem of a schedule that cannot be read. -/
def scheduleProblems (expression : String) : List Problem :=
  match Cron.Schedule.parse expression with
  | .ok _ => []
  | .error reason => [.badSchedule expression reason]

/-- What is wrong with database settings. -/
def DatabaseSettings.problems (d : DatabaseSettings) : List Problem :=
  Problem.when (Text.isAllBlank d.url) .missingUrl ++
  Problem.when (d.maxConnections == 0) .noConnections

/-- What is wrong with job settings. A send limit of zero is in order: records then only go out
where there is room at once. -/
def JobsSettings.problems (s : JobsSettings) : List Problem :=
  Problem.when (s.batchSize == 0) .noBatch ++
  Problem.when (s.reservationMinutes == 0) .noWindow ++
  scheduleProblems s.scanSchedule ++
  Problem.when (s.resultSeconds == 0) (.noTime "jobs.result_timeout_secs") ++
  Problem.when (s.resultSendSeconds == 0) (.noTime "jobs.result_send_timeout_secs") ++
  Problem.when (s.shutdownSeconds == 0) (.noTime "jobs.shutdown_timeout_secs") ++
  Problem.when (s.expirationDays > longestExpirationDays) (.expiresTooLate s.expirationDays)

/-- What is wrong with settings. -/
def Settings.problems (s : Settings) : List Problem := s.database.problems ++ s.jobs.problems

/-- The settings are in order. -/
def Settings.Valid (s : Settings) : Prop := s.problems = []

instance (s : Settings) : Decidable s.Valid := by
  unfold Settings.Valid; infer_instance

/-- Problems as lines of a list. -/
def problemText (problems : List Problem) : String :=
  Text.joinWith "\n" (problems.map fun p => s!"  - {p.message}")

end JobQueue
