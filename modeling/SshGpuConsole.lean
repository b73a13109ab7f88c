import SshGpuConsole.Transfer.Planner
import SshGpuConsole.Workspace.Inspection
import SshGpuConsole.Lib.Effect
import SshGpuConsole.Lib.PosixPath
import SshGpuConsole.Ssh.FileTransfer
import SshGpuConsole.DirectAuth.RemoteFile
import SshGpuConsole.Lib.Json
import SshGpuConsole.Transfer.LocalRelay
import SshGpuConsole.Transfer.ResumeRuns
import SshGpuConsole.Ssh.Manager
import SshGpuConsole.Ssh.Provenance
import SshGpuConsole.Ssh.FleetShare
import SshGpuConsole.Ssh.Retire
import SshGpuConsole.Ssh.TransferSessions
import SshGpuConsole.DirectAuth.Reasons
import SshGpuConsole.DirectAuth.Service
import SshGpuConsole.DirectAuth.Operations
import SshGpuConsole.DirectAuth.TransientFailures
import SshGpuConsole.DirectAuth.Lines
import SshGpuConsole.DirectAuth.Materials
import SshGpuConsole.DirectAuth.Changes
import SshGpuConsole.DirectAuth.Attempts
import SshGpuConsole.DirectAuth.Rollback
import SshGpuConsole.Transfer.Batch
import SshGpuConsole.Lib.Table
import SshGpuConsole.Lib.Validated
import SshGpuConsole.Workspace.Records
import SshGpuConsole.Workspace.Paths
import SshGpuConsole.Workspace.Repository
import SshGpuConsole.Workspace.Service
import SshGpuConsole.Workspace.Integrity
import SshGpuConsole.Workspace.ProjectReads
import SshGpuConsole.Lib.Fields
import SshGpuConsole.Persistence.JsonStore
import SshGpuConsole.Workspace.Wire
import SshGpuConsole.Servers.Registry
import SshGpuConsole.Persistence.Stores
import SshGpuConsole.Persistence.Loading
import SshGpuConsole.Lib.Interleave
import SshGpuConsole.Workspace.Concurrent
import SshGpuConsole.Workspace.Distribution
import SshGpuConsole.Transfer.Preflight
import SshGpuConsole.Transfer.SyncJobs
import SshGpuConsole.Workspace.SyncPlanner
import SshGpuConsole.Workspace.SyncTargets
import SshGpuConsole.Ssh.Connection
import SshGpuConsole.Ssh.TransferConnections
import SshGpuConsole.Telemetry.State
import SshGpuConsole.Telemetry.Correlation
import SshGpuConsole.Telemetry.Revisions
import SshGpuConsole.Frontend.SyncPlan
import SshGpuConsole.Frontend.ConsoleStore
import SshGpuConsole.Frontend.Realtime
import SshGpuConsole.Frontend.TransferStore
import SshGpuConsole.Telemetry.Memory
import SshGpuConsole.Transfer.Registry
import SshGpuConsole.Transfer.Service
import SshGpuConsole.Transfer.Permits
import SshGpuConsole.Lib.LexicalPath
import SshGpuConsole.Transfer.Locks
import SshGpuConsole.Transfer.Retry
import SshGpuConsole.Telemetry.Scheduler
import SshGpuConsole.Telemetry.Backoff
import SshGpuConsole.Transfer.Stretches
import SshGpuConsole.Telemetry.Workers
import SshGpuConsole.Telemetry.Cadence
import SshGpuConsole.Telemetry.Demand
import SshGpuConsole.DirectAuth.AuthorizedKeys
import SshGpuConsole.Transfer.Layout
import SshGpuConsole.Lib.Fnmatch
import SshGpuConsole.Transfer.TreeWalks
import SshGpuConsole.Transfer.WalkAgreement
import SshGpuConsole.Transfer.TreeRelay
import SshGpuConsole.Transfer.RelayAccounts
import SshGpuConsole.Transfer.Progress
import SshGpuConsole.Servers.Identity
import SshGpuConsole.Workspace.Placements
import SshGpuConsole.Workspace.Components
import SshGpuConsole.Transfer.Excludes
import SshGpuConsole.Telemetry.LatestSamples
import SshGpuConsole.Lib.PySeparators
import SshGpuConsole.Ssh.ConfigResolver
import SshGpuConsole.Ssh.Hops
import SshGpuConsole.Ssh.JumpChains
import SshGpuConsole.Workspace.Suggestions
import SshGpuConsole.Lib.PyShlex
import SshGpuConsole.Ssh.ConfigFile
import SshGpuConsole.Ssh.Includes
import SshGpuConsole.Collectors.Storage
import SshGpuConsole.Collectors.Processes
import SshGpuConsole.Transfer.Wakeups
import SshGpuConsole.Transfer.Deadlock
import SshGpuConsole.Transfer.Ledger
import SshGpuConsole.Transfer.Shutdown
import SshGpuConsole.Telemetry.Convergence
