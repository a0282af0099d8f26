import ContainerJobs.Assoc
import ContainerJobs.Base64
import ContainerJobs.CommandLine.Invocation
import ContainerJobs.CommandLine.Printout
import ContainerJobs.CommandLine.Words
import ContainerJobs.Config
import ContainerJobs.Container.Listing
import ContainerJobs.Container.State
import ContainerJobs.Container.Store
import ContainerJobs.Double.Basic
import ContainerJobs.Double.Shortest
import ContainerJobs.Engine.Basic
import ContainerJobs.Engine.Dialogue
import ContainerJobs.Engine.InMemory
import ContainerJobs.Engine.Program
import ContainerJobs.Engine.Scripted
import ContainerJobs.Environment
import ContainerJobs.Job.Descriptor
import ContainerJobs.Job.Details
import ContainerJobs.Job.Function
import ContainerJobs.Job.Info
import ContainerJobs.Job.Key
import ContainerJobs.Job.Label
import ContainerJobs.Job.Report
import ContainerJobs.Job.Status
import ContainerJobs.JobError
import ContainerJobs.Json.Basic
import ContainerJobs.Json.Node
import ContainerJobs.Json.Numeral
import ContainerJobs.Json.Parser
import ContainerJobs.Json.Printer
import ContainerJobs.Json.Record
import ContainerJobs.Json.Scanner
import ContainerJobs.Launch.Credential
import ContainerJobs.Launch.Entrypoint
import ContainerJobs.Launch.Layout
import ContainerJobs.Launch.LocalUrl
import ContainerJobs.Launch.Plan
import ContainerJobs.Lock
import ContainerJobs.Main
import ContainerJobs.Proofs.Assoc
import ContainerJobs.Proofs.Base64
import ContainerJobs.Proofs.Container.State
import ContainerJobs.Proofs.Container.Store
import ContainerJobs.Proofs.Engine.Control
import ContainerJobs.Proofs.Engine.Dialogue
import ContainerJobs.Proofs.Engine.History
import ContainerJobs.Proofs.Engine.InMemory
import ContainerJobs.Proofs.Engine.Inspection
import ContainerJobs.Proofs.Engine.Interleaving
import ContainerJobs.Proofs.Engine.Listing
import ContainerJobs.Proofs.Engine.Row
import ContainerJobs.Proofs.Engine.Starting
import ContainerJobs.Proofs.Engine.Stock
import ContainerJobs.Proofs.Job.Collision
import ContainerJobs.Proofs.Job.Descriptor
import ContainerJobs.Proofs.Job.Environment
import ContainerJobs.Proofs.Job.Function
import ContainerJobs.Proofs.Job.Key
import ContainerJobs.Proofs.Job.Label
import ContainerJobs.Proofs.Job.Name
import ContainerJobs.Proofs.Job.Record
import ContainerJobs.Proofs.Job.Report
import ContainerJobs.Proofs.Json.Record
import ContainerJobs.Proofs.Json.Token
import ContainerJobs.Proofs.Json.Tree
import ContainerJobs.Proofs.Json.Value
import ContainerJobs.Proofs.Launch.Arguments
import ContainerJobs.Proofs.Launch.Entrypoint
import ContainerJobs.Proofs.Runner.Agreement
import ContainerJobs.Proofs.Runner.Cleanup
import ContainerJobs.Proofs.Runner.Due
import ContainerJobs.Proofs.Runner.ExclusiveStart
import ContainerJobs.Proofs.Runner.Expiry
import ContainerJobs.Proofs.Runner.FailedStart
import ContainerJobs.Proofs.Runner.HeldNames
import ContainerJobs.Proofs.Runner.Identity
import ContainerJobs.Proofs.Runner.JobTable
import ContainerJobs.Proofs.Runner.ListingProtocol
import ContainerJobs.Proofs.Runner.Operation
import ContainerJobs.Proofs.Runner.ProjectCancel
import ContainerJobs.Proofs.Runner.ProjectListing
import ContainerJobs.Proofs.Runner.Reaping
import ContainerJobs.Proofs.Runner.Refinement
import ContainerJobs.Proofs.Runner.StartProtocol
import ContainerJobs.Proofs.Text.Decimal
import ContainerJobs.Proofs.Text.Field
import ContainerJobs.Proofs.Time.Calendar
import ContainerJobs.Proofs.Time.Listing
import ContainerJobs.Proofs.Time.Reading
import ContainerJobs.Reaper
import ContainerJobs.Runner.Basic
import ContainerJobs.Runner.Inquiry
import ContainerJobs.Runner.Listing
import ContainerJobs.Runner.Start
import ContainerJobs.Runner.Teardown
import ContainerJobs.RunnerInfo
import ContainerJobs.Sha256
import ContainerJobs.Shell.Lexer
import ContainerJobs.Shell.Quote
import ContainerJobs.Shell.Token
import ContainerJobs.SystemError
import ContainerJobs.Task.Directory
import ContainerJobs.Task.Instance
import ContainerJobs.Text.Blank
import ContainerJobs.Text.Decimal
import ContainerJobs.Text.DecimalDigit
import ContainerJobs.Text.Split
import ContainerJobs.Text.Utf8
import ContainerJobs.Time.Calendar
import ContainerJobs.Time.Instant
import ContainerJobs.Time.Reading
import ContainerJobs.Proofs.Launch.Variables
import ContainerJobs.Proofs.Launch.Container
import ContainerJobs.Proofs.Launch.LocalUrl
import ContainerJobs.Proofs.Launch.Workplace
import ContainerJobs.Proofs.Runner.ReapReport
import ContainerJobs.Proofs.Runner.Success
