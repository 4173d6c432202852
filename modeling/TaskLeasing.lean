import TaskLeasing.Encoding.Fields
import TaskLeasing.Encoding.Process
import TaskLeasing.Encoding.Report
import TaskLeasing.Encoding.Task
import TaskLeasing.Engine.Error
import TaskLeasing.Engine.Operations
import TaskLeasing.Engine.State
import TaskLeasing.Engine.Step
import TaskLeasing.Failure
import TaskLeasing.Fault
import TaskLeasing.Host
import TaskLeasing.Json.Basic
import TaskLeasing.Json.Printer
import TaskLeasing.Json.Reader
import TaskLeasing.Log
import TaskLeasing.Log.Setup
import TaskLeasing.Number.Double
import TaskLeasing.Outcome
import TaskLeasing.Process
import TaskLeasing.Proofs.Calendar
import TaskLeasing.Proofs.Course
import TaskLeasing.Proofs.Encoding
import TaskLeasing.Proofs.Engine.Accounts
import TaskLeasing.Proofs.Engine.Atomicity
import TaskLeasing.Proofs.Engine.Commuting
import TaskLeasing.Proofs.Engine.Deadlines
import TaskLeasing.Proofs.Engine.Endings
import TaskLeasing.Proofs.Engine.Exclusion
import TaskLeasing.Proofs.Engine.Histories
import TaskLeasing.Proofs.Engine.Incidents
import TaskLeasing.Proofs.Engine.Instances
import TaskLeasing.Proofs.Engine.Leasing
import TaskLeasing.Proofs.Engine.Lending
import TaskLeasing.Proofs.Engine.Openings
import TaskLeasing.Proofs.Engine.Operations
import TaskLeasing.Proofs.Engine.Orderly
import TaskLeasing.Proofs.Engine.Patches
import TaskLeasing.Proofs.Engine.Progress
import TaskLeasing.Proofs.Engine.Records
import TaskLeasing.Proofs.Engine.Routes
import TaskLeasing.Proofs.Engine.Runs
import TaskLeasing.Proofs.Engine.Soundness
import TaskLeasing.Proofs.Engine.Tending
import TaskLeasing.Proofs.Engine.Thriving
import TaskLeasing.Proofs.Engine.Walk
import TaskLeasing.Proofs.Enrolment
import TaskLeasing.Proofs.Fields
import TaskLeasing.Proofs.Host.Accounting
import TaskLeasing.Proofs.Host.Numbering
import TaskLeasing.Proofs.Keyed
import TaskLeasing.Proofs.Layering
import TaskLeasing.Proofs.Lines
import TaskLeasing.Proofs.Numeral
import TaskLeasing.Proofs.Payload
import TaskLeasing.Proofs.Registry
import TaskLeasing.Proofs.Retry
import TaskLeasing.Proofs.Route
import TaskLeasing.Proofs.System.Actions
import TaskLeasing.Proofs.System.Acts
import TaskLeasing.Proofs.System.Adding
import TaskLeasing.Proofs.System.Agenda
import TaskLeasing.Proofs.System.Answering
import TaskLeasing.Proofs.System.Asking
import TaskLeasing.Proofs.System.Attempts
import TaskLeasing.Proofs.System.Becoming
import TaskLeasing.Proofs.System.Budgets
import TaskLeasing.Proofs.System.Carrying
import TaskLeasing.Proofs.System.Causes
import TaskLeasing.Proofs.System.Committing
import TaskLeasing.Proofs.System.Compensation
import TaskLeasing.Proofs.System.Completion
import TaskLeasing.Proofs.System.Conduct
import TaskLeasing.Proofs.System.Conservation
import TaskLeasing.Proofs.System.Counting
import TaskLeasing.Proofs.System.Coverage
import TaskLeasing.Proofs.System.Custody
import TaskLeasing.Proofs.System.Deferral
import TaskLeasing.Proofs.System.Delaying
import TaskLeasing.Proofs.System.Duties
import TaskLeasing.Proofs.System.Endings
import TaskLeasing.Proofs.System.Expiry
import TaskLeasing.Proofs.System.Finality
import TaskLeasing.Proofs.System.Grounds
import TaskLeasing.Proofs.System.Hosting
import TaskLeasing.Proofs.System.InFlight
import TaskLeasing.Proofs.System.Inquiry
import TaskLeasing.Proofs.System.Issuing
import TaskLeasing.Proofs.System.Keeping
import TaskLeasing.Proofs.System.Leases
import TaskLeasing.Proofs.System.Passage
import TaskLeasing.Proofs.System.Queuing
import TaskLeasing.Proofs.System.Rationing
import TaskLeasing.Proofs.System.Rations
import TaskLeasing.Proofs.System.Readiness
import TaskLeasing.Proofs.System.Recording
import TaskLeasing.Proofs.System.Resolution
import TaskLeasing.Proofs.System.Scoping
import TaskLeasing.Proofs.System.Settlement
import TaskLeasing.Proofs.System.Sources
import TaskLeasing.Proofs.System.Sourcing
import TaskLeasing.Proofs.System.Sweeping
import TaskLeasing.Proofs.System.Tallying
import TaskLeasing.Proofs.System.Thriving
import TaskLeasing.Proofs.System.Timeouts
import TaskLeasing.Proofs.System.Tracking
import TaskLeasing.Proofs.System.Trying
import TaskLeasing.Proofs.System.Turns
import TaskLeasing.Proofs.System.Upkeep
import TaskLeasing.Proofs.System.Watching
import TaskLeasing.Proofs.Timestamp
import TaskLeasing.Proofs.Watchdog
import TaskLeasing.Registration
import TaskLeasing.Registry
import TaskLeasing.Retry
import TaskLeasing.Settings
import TaskLeasing.Settings.Sources
import TaskLeasing.Settings.Value
import TaskLeasing.Simulation.Actions
import TaskLeasing.Simulation.Conversion
import TaskLeasing.Simulation.Machine
import TaskLeasing.Simulation.Naming
import TaskLeasing.Simulation.Scenario
import TaskLeasing.Simulation.Script
import TaskLeasing.Simulation.Threads
import TaskLeasing.Simulation.Timeline
import TaskLeasing.System.Leasing
import TaskLeasing.System.Processing
import TaskLeasing.System.Response
import TaskLeasing.System.State
import TaskLeasing.System.Step
import TaskLeasing.System.Timeout
import TaskLeasing.Task
import TaskLeasing.Text.Blank
import TaskLeasing.Text.Hidden
import TaskLeasing.Text.Numeral
import TaskLeasing.Text.Quoted
import TaskLeasing.Time.Calendar
import TaskLeasing.Time.Instant
import TaskLeasing.Time.Span
import TaskLeasing.Time.Timestamp
import TaskLeasing.Toml.Basic
import TaskLeasing.Toml.Reader
import TaskLeasing.Toml.Scalar
import TaskLeasing.Variables
import TaskLeasing.Watchdog
import TaskLeasing.Yaml.Cursor
import TaskLeasing.Yaml.Node
import TaskLeasing.Yaml.Scalar
import TaskLeasing.Yaml.Token
import TaskLeasing.Yaml.Tokens
