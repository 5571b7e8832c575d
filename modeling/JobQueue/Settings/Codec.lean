/-
Settings as structured values.
-/

import JobQueue.Json.Decode
import JobQueue.Settings.Basic

namespace JobQueue

/-- Structured values as leaves of settings. -/
def jsonLeaves : LeafReader Json DecodeError where
  text := Json.asString
  switch := Json.asBool
  number := fun range => Json.asNatBelow range.bound range.name

/-- Groups from objects, or from lists of their settings in order. -/
def jsonGroup : GroupReader Json DecodeError := fun name settings start =>
  Json.asRecord name (settings.map fun s => ⟨s.name, false, s.set⟩) start

namespace AppDetails

/-- The details as an object. -/
def toJson (d : AppDetails) : Json :=
  .obj [("environment", .str d.environment), ("name", .str d.name), ("version", .str d.version)]

end AppDetails

namespace DatabaseSettings

/-- The database settings as an object. -/
def toJson (d : DatabaseSettings) : Json :=
  .obj [("connect_timeout_secs", .int d.connectSeconds), ("max_connections", .int d.maxConnections),
    ("url", .str d.url)]

/-- Reads database settings. -/
def ofJson : Json.Decoder DatabaseSettings := jsonGroup groupName (settings jsonLeaves) .default

end DatabaseSettings

namespace JobsSettings

/-- The job settings as an object. -/
def toJson (s : JobsSettings) : Json :=
  .obj [
    ("batch_size", .int s.batchSize),
    ("export_file_expiration_days", .int s.expirationDays),
    ("max_workers", .int s.maxWorkers),
    ("reservation_timeout_minutes", .int s.reservationMinutes),
    ("result_send_timeout_secs", .int s.resultSendSeconds),
    ("result_timeout_secs", .int s.resultSeconds),
    ("scan_schedule", .str s.scanSchedule),
    ("send_timeout_secs", .int s.sendSeconds),
    ("shutdown_timeout_secs", .int s.shutdownSeconds)]

/-- Reads job settings. -/
def ofJson : Json.Decoder JobsSettings := jsonGroup groupName (settings jsonLeaves) .default

end JobsSettings

namespace LogSettings

/-- The log settings as an object. -/
def toJson (s : LogSettings) : Json :=
  .obj [("filter", .str s.filter), ("json", .bool s.json), ("service_name", .str s.serviceName)]

/-- Reads log settings. -/
def ofJson : Json.Decoder LogSettings := jsonGroup groupName (settings jsonLeaves) .default

end LogSettings

namespace Settings

/-- All settings as an object. -/
def toJson (s : Settings) : Json :=
  .obj [("app", s.app.toJson), ("database", s.database.toJson), ("jobs", s.jobs.toJson),
    ("telemetry", s.log.toJson)]

/-- Reads all settings. -/
def ofJson : Json.Decoder Settings :=
  jsonGroup groupName (settings jsonLeaves jsonGroup) .default

end Settings

end JobQueue
