import SjgControl.Store.Operation
import SjgControl.Delivery
import SjgControl.Route
import SjgControl.Budget
import SjgControl.Capacity
import SjgControl.Broker
import SjgControl.FileTree
import SjgControl.Submission
import SjgControl.Host.World
import SjgControl.Host.Thread
import SjgControl.Host.System
import SjgControl.Host.Discipline
import SjgControl.Host.Conduct
import SjgControl.Host.Order
import SjgControl.Broker.Revocation
import SjgControl.Broker.Account
import SjgControl.Broker.Finality
import SjgControl.Lease
import SjgControl.Host.Backlog
import SjgControl.Host.Ceiling
import SjgControl.Poll
import SjgControl.Publication
import SjgControl.GitHubSource
import SjgControl.Pagination
import SjgControl.Encoding
import SjgControl.JsonText
import SjgControl.Intake
import SjgControl.Intake.Routing
import SjgControl.Intake.Binding
import SjgControl.Intake.Situation
import SjgControl.Authorize
import SjgControl.GitHubBackend
import SjgControl.Verifier
import SjgControl.Verifier.Marker
import SjgControl.Verifier.Scope
import SjgControl.Verifier.Presence
import SjgControl.GitHubSubmit
import SjgControl.Verifier.Branch
import SjgControl.Verifier.Attestation
import SjgControl.Host.Standing
import SjgControl.Host.Restart
import SjgControl.GitHubWrite
import SjgControl.Stage
import SjgControl.Banner
import SjgControl.GitHubWrite.Bodies
import SjgControl.Attribution
import SjgControl.Ownership
import SjgControl.Governance
import SjgControl.Governance.Sync
import SjgControl.Push
import SjgControl.Policy
import SjgControl.Headroom
import SjgControl.Verifier.Transport
import SjgControl.Governance.Managed
import SjgControl.Capacity.Flight
import SjgControl.Governance.Board
import SjgControl.Lease.Specification
import SjgControl.Ending
import SjgControl.Disk
import SjgControl.Hoare
import SjgControl.Workers
import SjgControl.Workers.Attempt
import SjgControl.Host.Crew
import SjgControl.Workers.Import
import SjgControl.Workers.Posix
import SjgControl.Workers.Calls
import SjgControl.Workers.Review
import SjgControl.Workers.Race
import SjgControl.Workers.Privilege
import SjgControl.Workers.Scope
import SjgControl.Workers.Authority
import SjgControl.WakeRules
import SjgControl.Host.Solvency
import SjgControl.Governance.Apply
import SjgControl.Host.Withdrawal
import SjgControl.Host.Recovery
import SjgControl.Host.Crash
import SjgControl.PathGrammar
import SjgControl.SourceTree
import SjgControl.PolicyDigest
import SjgControl.HostConfig
import SjgControl.Manifest
import SjgControl.Broker.Handle
import SjgControl.Broker.Isolation
import SjgControl.Broker.Serve
import SjgControl.ProcessGroup
import SjgControl.Broker.Retry
import SjgControl.Containment
import SjgControl.Identity
import SjgControl.Chronology
import SjgControl.Clock
import SjgControl.Broker.Framing
import SjgControl.Governance.Blockers
import SjgControl.Governance.Planning
import SjgControl.Governance.Settlement
import SjgControl.Governance.Effect
import SjgControl.Governance.Convergence
import SjgControl.Governance.Reconciled
import SjgControl.Lease.Tick
import SjgControl.Stamp
import SjgControl.Arrival
import SjgControl.Host.Usage
import SjgControl.FileSystem
import SjgControl.Provenance
import SjgControl.Release
import SjgControl.Governance.Verdict
import SjgControl.Provider
