import Vetting.Artifact.Directory
import Vetting.Artifact.Store
import Vetting.Backend.Container
import Vetting.Backend.ContainerCommand
import Vetting.Backend.Job
import Vetting.Backend.JobService
import Vetting.Backend.Remote
import Vetting.Backend.Selection
import Vetting.Builtin.Actions
import Vetting.Builtin.Validators
import Vetting.Command.Assembly
import Vetting.Command.Failure
import Vetting.Command.Grammar
import Vetting.Command.Session
import Vetting.Command.Usage
import Vetting.Configuration.Environment
import Vetting.Configuration.EnvironmentFile
import Vetting.Configuration.Settings
import Vetting.Database.Access
import Vetting.Database.Fault
import Vetting.Database.Retry
import Vetting.Database.Row
import Vetting.Database.Settings
import Vetting.Decimal.Arithmetic
import Vetting.Decimal.Layout
import Vetting.Decimal.Parse
import Vetting.Decimal.Shortest
import Vetting.Dictionary
import Vetting.Digest.Blake3
import Vetting.Digest.Canonical
import Vetting.Digest.Sha256
import Vetting.Document.Path
import Vetting.Execution.Engine
import Vetting.Execution.Lifecycle
import Vetting.Execution.Memory
import Vetting.Execution.Plugin
import Vetting.Execution.Processing
import Vetting.Execution.Program
import Vetting.Execution.Recording
import Vetting.Files.Path
import Vetting.Files.Tree
import Vetting.Finding.Issue
import Vetting.Finding.Severity
import Vetting.Formula.Evaluation
import Vetting.Formula.Fault
import Vetting.Formula.Function
import Vetting.Formula.Token
import Vetting.Formula.Tree
import Vetting.Formula.Value
import Vetting.Json.Documented
import Vetting.Json.Fault
import Vetting.Json.Field
import Vetting.Json.Printer
import Vetting.Json.Reader
import Vetting.Json.Shape
import Vetting.Json.Value
import Vetting.Main
import Vetting.Proofs.Artifact.Containment
import Vetting.Proofs.Artifact.Filing
import Vetting.Proofs.Artifact.ReadBack
import Vetting.Proofs.Backend.Attempts
import Vetting.Proofs.Database.Rows
import Vetting.Proofs.Decimal.Binary
import Vetting.Proofs.Decimal.Nearest
import Vetting.Proofs.Digest.Distinct
import Vetting.Proofs.Digest.Token
import Vetting.Proofs.Document.Grammar
import Vetting.Proofs.Document.Keys
import Vetting.Proofs.Files.Changes
import Vetting.Proofs.Files.Lineage
import Vetting.Proofs.Files.Parents
import Vetting.Proofs.Files.Paths
import Vetting.Proofs.Files.Sharing
import Vetting.Proofs.Files.Walks
import Vetting.Proofs.Finding.Counts
import Vetting.Proofs.Json.Compact
import Vetting.Proofs.Json.Fields
import Vetting.Proofs.Program.Asking
import Vetting.Proofs.Program.Discipline
import Vetting.Proofs.Program.Faltering
import Vetting.Proofs.Program.Interleaving
import Vetting.Proofs.Program.Outside
import Vetting.Proofs.Program.Regime
import Vetting.Proofs.Program.Wavering
import Vetting.Proofs.Rule.Comparing
import Vetting.Proofs.Rule.Outcome
import Vetting.Proofs.Rule.Pass
import Vetting.Proofs.Rule.Questions
import Vetting.Proofs.Run.Agreement
import Vetting.Proofs.Run.Answering
import Vetting.Proofs.Run.Auditing
import Vetting.Proofs.Run.Calling
import Vetting.Proofs.Run.Closing
import Vetting.Proofs.Run.Collecting
import Vetting.Proofs.Run.Concerns
import Vetting.Proofs.Run.Conduct
import Vetting.Proofs.Run.Course
import Vetting.Proofs.Run.Delivery
import Vetting.Proofs.Run.Disclosure
import Vetting.Proofs.Run.Driving
import Vetting.Proofs.Run.Endurance
import Vetting.Proofs.Run.Example
import Vetting.Proofs.Run.Executing
import Vetting.Proofs.Run.Files
import Vetting.Proofs.Run.Filing
import Vetting.Proofs.Run.Grounds
import Vetting.Proofs.Run.History
import Vetting.Proofs.Run.Informed
import Vetting.Proofs.Run.Invocation
import Vetting.Proofs.Run.Judgement
import Vetting.Proofs.Run.Launching
import Vetting.Proofs.Run.Lifetime
import Vetting.Proofs.Run.Neighbours
import Vetting.Proofs.Run.OneWay
import Vetting.Proofs.Run.Operations
import Vetting.Proofs.Run.Order
import Vetting.Proofs.Run.Passage
import Vetting.Proofs.Run.Planning
import Vetting.Proofs.Run.Polling
import Vetting.Proofs.Run.Precedence
import Vetting.Proofs.Run.Recordkeeping
import Vetting.Proofs.Run.Recovery
import Vetting.Proofs.Run.Redelivery
import Vetting.Proofs.Run.Remnant
import Vetting.Proofs.Run.Replay
import Vetting.Proofs.Run.Roles
import Vetting.Proofs.Run.Rounds
import Vetting.Proofs.Run.Setback
import Vetting.Proofs.Run.Sight
import Vetting.Proofs.Run.Stage
import Vetting.Proofs.Run.Staleness
import Vetting.Proofs.Run.Standing
import Vetting.Proofs.Run.Steps
import Vetting.Proofs.Run.Summaries
import Vetting.Proofs.Run.Supersession
import Vetting.Proofs.Run.Taking
import Vetting.Proofs.Run.Tallying
import Vetting.Proofs.Run.Telling
import Vetting.Proofs.Run.Tending
import Vetting.Proofs.Run.Totals
import Vetting.Proofs.Run.Turns
import Vetting.Proofs.Run.Waiting
import Vetting.Proofs.Run.Winding
import Vetting.Proofs.Scope.PathNames
import Vetting.Proofs.Scope.PlaceNames
import Vetting.Proofs.Scope.Places
import Vetting.Proofs.Scope.SignalSpace
import Vetting.Proofs.Scope.Sources
import Vetting.Proofs.Scope.Templates
import Vetting.Proofs.Step.Blame
import Vetting.Proofs.Step.Processing
import Vetting.Proofs.Step.Record
import Vetting.Proofs.Step.Tally
import Vetting.Proofs.Step.Verdict
import Vetting.Proofs.Store.Coherence
import Vetting.Proofs.Store.Elsewhere
import Vetting.Proofs.Store.Notice
import Vetting.Proofs.Store.Places
import Vetting.Proofs.Text.Cutting
import Vetting.Proofs.Workflow.Documents
import Vetting.Rehearsal.Archive
import Vetting.Rehearsal.Container
import Vetting.Rehearsal.Database
import Vetting.Rehearsal.Effect
import Vetting.Rehearsal.Machine
import Vetting.Rehearsal.Record
import Vetting.Rehearsal.Scene
import Vetting.Rehearsal.Script
import Vetting.Rehearsal.Terminal
import Vetting.Rule.Assertion
import Vetting.Rule.Comparison
import Vetting.Rule.Report
import Vetting.Rule.Stage
import Vetting.Scope.Flatten
import Vetting.Scope.Names
import Vetting.Scope.Placeholder
import Vetting.Store.Memory
import Vetting.Store.Request
import Vetting.Table
import Vetting.Text.Blank
import Vetting.Text.CharacterClass
import Vetting.Text.Hexadecimal
import Vetting.Text.Integer
import Vetting.Text.LetterCase
import Vetting.Text.Quoted
import Vetting.Timestamp
import Vetting.Uuid
import Vetting.Web.Host
import Vetting.Web.Percent
import Vetting.Web.Punycode
import Vetting.Web.Url
import Vetting.Width
import Vetting.Workflow.Envelope
import Vetting.Workflow.Event
import Vetting.Workflow.Fault
import Vetting.Workflow.Run
import Vetting.Workflow.Step
import Vetting.Workflow.StepRun
import Vetting.Workflow.Submission
