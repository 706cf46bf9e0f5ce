import Flowy.Lib.GoMap
import Flowy.Lib.Fencing
import Flowy.Lib.Leased
import Flowy.Lib.Tickets
import Flowy.Lib.Reserve
import Flowy.Lib.Utf8
import Flowy.Lib.Json
import Flowy.Lib.JsonCodec
import Flowy.Lib.Scan
import Flowy.Lib.CivilTime
import Flowy.Lib.Walk
import Flowy.Lib.Keyset
import Flowy.Basic
import Flowy.Contract
import Flowy.Activity.Record
import Flowy.Activity.Schedule
import Flowy.Activity.Backoff
import Flowy.Activity.Choice
import Flowy.Activity.Integrity
import Flowy.Activity.Call
import Flowy.Activity.Resolution
import Flowy.Activity.Protocol
import Flowy.Activity.Invariant
import Flowy.Activity.Dispatch
import Flowy.Activity.AtMostOnce
import Flowy.Encoding
import Flowy.Child.Record
import Flowy.Child.Integrity
import Flowy.Child.Launch
import Flowy.Child.Decision
import Flowy.Child.Advance
import Flowy.Child.Commit
import Flowy.Child.Protocol
import Flowy.Child.Invariant
import Flowy.Child.Loops
import Flowy.Child.Acts
import Flowy.Child.AtMostOnce
import Flowy.Child.History
import Flowy.Child.Cancellation
import Flowy.Child.CancelSafe
import Flowy.Child.PlanOrder
import Flowy.Child.OutcomeReplay
import Flowy.Child.FailFast
import Flowy.Seal
import Flowy.Migration
import Flowy.Lifecycle
import Flowy.Anchors
import Flowy.Store.Basic
import Flowy.Store.Postgres
import Flowy.Store.PostgresRefines
import Flowy.Store.Memory
import Flowy.Store.MemoryRefines
import Flowy.Store.SingleWriter
import Flowy.Store.Loadable
import Flowy.Store.Retention
import Flowy.Store.Selection
import Flowy.Child.Ledger
import Flowy.Child.Plan
import Flowy.Child.Admission
import Flowy.Child.Readmit
import Flowy.Child.Budget
import Flowy.Wait.Record
import Flowy.Wait.Arbitration
import Flowy.Wait.Delivery
import Flowy.Checkpoint
import Flowy.Readmission
import Flowy.Wait.OneWinner
import Flowy.Payloads
import Flowy.MigratedTarget
import Flowy.Store.Candidates
import Flowy.Store.Discovery
import Flowy.Store.Rebuild
import Flowy.Store.Due
import Flowy.Store.Polling
import Flowy.ZeroClock
import Flowy.Activity.Readmit
import Flowy.Graph.Directive
import Flowy.Graph.Builder
import Flowy.Graph.Thread
import Flowy.Graph.Handoff
import Flowy.Graph.HandoffReports
import Flowy.Graph.Execute
import Flowy.Graph.Resume
import Flowy.Graph.Steps
import Flowy.Graph.Runs
import Flowy.Graph.Routing
import Flowy.Graph.RetryBudget
import Flowy.Graph.Patterns
import Flowy.Graph.Capture
import Flowy.Graph.Subgraph
import Flowy.Child.Join
import Flowy.Child.MergeOnce
import Flowy.Activity.NextAttempt
import Flowy.Store.RetryInspection
