import JobQueue.Error.Codec
import JobQueue.Main
import JobQueue.Proofs.Database.Absent
import JobQueue.Proofs.Engine.Shutdown
import JobQueue.Proofs.Export.Delimited
import JobQueue.Proofs.Export.Equivalence
import JobQueue.Proofs.Export.Runs
import JobQueue.Proofs.Job.Exclusion
import JobQueue.Proofs.Job.Outcomes
import JobQueue.Proofs.Job.Tally
import JobQueue.Proofs.Pool.Agreement
import JobQueue.Proofs.Pool.Charges
import JobQueue.Proofs.Pool.Slots
import JobQueue.Proofs.Scanner.Accounting
import JobQueue.Proofs.Scanner.Crew
import JobQueue.Proofs.Scanner.Readiness
import JobQueue.Proofs.Service.Assembly
import JobQueue.Proofs.Service.Clients
import JobQueue.Proofs.Settings.Groups
import JobQueue.Proofs.Settings.Holding
import JobQueue.Proofs.Settings.Loading
import JobQueue.Proofs.Store.DamagedLeases
import JobQueue.Proofs.Store.Equivalence
import JobQueue.Proofs.Store.Paging
import JobQueue.Record.Codec
import JobQueue.Settings.Codec
import JobQueue.Simulation.Masking
import JobQueue.Proofs.Time.Loose
import JobQueue.Proofs.Payload.RoundTrip
import JobQueue.Proofs.Json.Regular
import JobQueue.Proofs.Record.RoundTrip
import JobQueue.Proofs.Job.Dispatch
