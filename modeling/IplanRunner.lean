import IplanRunner.Foundation.Calls
import IplanRunner.Foundation.Python
import IplanRunner.Foundation.Runtime
import IplanRunner.Ledger.Store
import IplanRunner.Ledger.Types
import IplanRunner.Validation.Base
import IplanRunner.Validation.LedgerRules
import IplanRunner.Gates.Runner
import IplanRunner.Gates.Totality
import IplanRunner.Handover.Receipt
import IplanRunner.Handover.Completion
import IplanRunner.Intake.Manifest
import IplanRunner.Foundation.Dependencies
import IplanRunner.Executor.Base
import IplanRunner.Orchestrator.State
import IplanRunner.Orchestrator.Topo
import IplanRunner.Orchestrator.Loop
import IplanRunner.Orchestrator.Control
import IplanRunner.Orchestrator.Turn
import IplanRunner.Runs.History
import IplanRunner.Executor.Mock
import IplanRunner.Runs.Script
import IplanRunner.Runs.Commit
import IplanRunner.Runs.Blockers
import IplanRunner.Runs.Fixpoint
import IplanRunner.Runs.Leases
import IplanRunner.Runs.HeldBack
import IplanRunner.Runs.Recovery
import IplanRunner.Runs.View
import IplanRunner.Runs.Pause
import IplanRunner.Security.Signing
import IplanRunner.Orchestrator.Landing
import IplanRunner.Engine.Record
import IplanRunner.Runs.AppendOnly
import IplanRunner.Ledger.Binding
import IplanRunner.Security.Integrity
import IplanRunner.Runs.DepsFirst
import IplanRunner.Runs.Grammar
import IplanRunner.Gates.Verdict
import IplanRunner.Handover.FreshRun
import IplanRunner.Runs.Settling
import IplanRunner.Foundation.Walk
import IplanRunner.Runs.LegalHistory
import IplanRunner.Effectors.Sandbox
import IplanRunner.Effectors.Apply
import IplanRunner.Foundation.Interleaving
import IplanRunner.Ledger.Projection
import IplanRunner.Relay.Store
import IplanRunner.Relay.Reject
import IplanRunner.Relay.Worker
import IplanRunner.Receiver.Service
import IplanRunner.Receiver.Script
import IplanRunner.Receiver.OneRun
import IplanRunner.Relay.InOrder
import IplanRunner.Ledger.Fanout
import IplanRunner.Relay.Separation
import IplanRunner.Receiver.Settled
import IplanRunner.Relay.Outage
import IplanRunner.Relay.Account
import IplanRunner.Foundation.UtcTime
import IplanRunner.Foundation.Table
import IplanRunner.Relay.Outbox
import IplanRunner.Relay.Retention
import IplanRunner.Runs.Reprojection
import IplanRunner.Intake.Usable
import IplanRunner.Evidence.Runner
import IplanRunner.Executor.Actions
import IplanRunner.Executor.Api
import IplanRunner.Executor.HostRuntime
import IplanRunner.Executor.Metered
import IplanRunner.Executor.Escapes
import IplanRunner.Runs.Attempts
import IplanRunner.Runs.Edits
import IplanRunner.Runs.TakenUp
import IplanRunner.Runs.Contained
import IplanRunner.Executor.Workspace
import IplanRunner.Runs.Forbidden
import IplanRunner.Foundation.Plays
import IplanRunner.Foundation.Inodes
import IplanRunner.Orchestrator.Leases
import IplanRunner.Receiver.Disjoint
import IplanRunner.Runs.Aborted
import IplanRunner.Engine.Signed
import IplanRunner.Runs.PlanBound
import IplanRunner.Ledger.Persistence
import IplanRunner.Ledger.AtomicSave
import IplanRunner.Cli.Stored
import IplanRunner.Cli.Stop
import IplanRunner.Intake.Door
import IplanRunner.Foundation.Codecs
import IplanRunner.Receiver.Request
import IplanRunner.Receiver.Door
import IplanRunner.Foundation.Relinked
import IplanRunner.Effectors.Undo
import IplanRunner.Executor.Undone
import IplanRunner.Receiver.Resend
import IplanRunner.Foundation.Ordering
import IplanRunner.Orchestrator.Chain
import IplanRunner.Orchestrator.Gating
import IplanRunner.Validation.Overlaps
import IplanRunner.Validation.ChainRules
import IplanRunner.Orchestrator.Validated
import IplanRunner.Orchestrator.LeaseGuard
import IplanRunner.Orchestrator.LandDocument
import IplanRunner.Handover.Landed
import IplanRunner.Handover.Landings
import IplanRunner.Vcs.Clone
import IplanRunner.Foundation.Documents
import IplanRunner.Validation.WireGrammar
import IplanRunner.Intake.SameManifest
import IplanRunner.Security.CanonicalForm
import IplanRunner.Foundation.Serials
import IplanRunner.Runs.Traceable
import IplanRunner.Executor.Texts
import IplanRunner.Runs.Discreet
import IplanRunner.Effectors.Jail
import IplanRunner.Foundation.StableSort
import IplanRunner.Evidence.Redaction
import IplanRunner.Foundation.Retry
import IplanRunner.Relay.Client
import IplanRunner.Runs.Retries
import IplanRunner.Foundation.FirstServed
import IplanRunner.Orchestrator.Canonical
import IplanRunner.Foundation.Replication
import IplanRunner.Relay.Replica
import IplanRunner.Foundation.Rationed
import IplanRunner.Receiver.Slots
import IplanRunner.Handover.Lifetime
import IplanRunner.Receiver.Lifecycle
import IplanRunner.Foundation.Alone
import IplanRunner.Relay.Converge
import IplanRunner.Foundation.Apart
import IplanRunner.Relay.Apart
import IplanRunner.Runs.Records
import IplanRunner.Runs.Accounted
import IplanRunner.Runs.ChainIds
import IplanRunner.Foundation.LastWord
import IplanRunner.Executor.Books
import IplanRunner.Runs.Files
import IplanRunner.Cli.Run
import IplanRunner.Relay.Learned
import IplanRunner.Foundation.SortedDiff
import IplanRunner.Audit.Report
import IplanRunner.Cli.Handover
import IplanRunner.Foundation.Tally
import IplanRunner.Cli.Status
