import DbGuard.GtidParse
import DbGuard.Coop.Contract
import DbGuard.Controller
import DbGuard.Failover
import DbGuard.Switchover
import DbGuard.Rejoin
import DbGuard.Bootstrap
import DbGuard.Manager
import DbGuard.Proofs.Vocabulary
import DbGuard.Proofs.Operations
import DbGuard.Coop.Frame
import DbGuard.Proofs.Discipline
import DbGuard.Proofs.Members
import DbGuard.Proofs.Chronicle
import DbGuard.Proofs.FailoverRun
import DbGuard.Coop.Record
import DbGuard.Proofs.FailoverSafety
import DbGuard.Proofs.FailoverOutcome
import DbGuard.Proofs.GtidReading
import DbGuard.Proofs.GtidAlgebra
import DbGuard.Proofs.GtidGrammar
import DbGuard.Proofs.GtidExact
import DbGuard.Proofs.GtidRoundTrip
import DbGuard.Proofs.Choice
import DbGuard.Proofs.Verdict
import DbGuard.Coop.Trace
import DbGuard.Proofs.RejoinTrace
import DbGuard.Proofs.Unknown
import DbGuard.Proofs.Pending
import DbGuard.Proofs.Targets
import DbGuard.Proofs.Donation
import DbGuard.Machine
import DbGuard.StatusCache
import DbGuard.Proofs.StatusCache
import DbGuard.Keyed
import DbGuard.Osc.Copy
import DbGuard.Proofs.Osc.Copied
import DbGuard.Proofs.Osc.Swap
import DbGuard.Osc.Runner
import DbGuard.Proofs.Osc.Server
import DbGuard.Proofs.Osc.Runner
import DbGuard.Proofs.Osc.Cleanup
import DbGuard.Proofs.Tasks
import DbGuard.Proofs.Ticks
import DbGuard.Proofs.Healthy
import DbGuard.Agent.WakeGuard
import DbGuard.Proofs.Agent.WakeGuard
import DbGuard.Agent.Mysqld
import DbGuard.Agent.Roles
import DbGuard.Proofs.Agent.Words
import DbGuard.Proofs.Agent.Fenced
import DbGuard.Agent.SelfFence
import DbGuard.Proofs.Agent.SelfFence
import DbGuard.Proofs.ColdStart
import DbGuard.Proofs.History
import DbGuard.Agent.Sessions
import DbGuard.Proofs.Agent.RoleLock
import DbGuard.Proofs.Agent.Sessions
import DbGuard.Agent.PrimaryCheck
import DbGuard.Coop.Beside
import DbGuard.Proofs.Agent.Rebuild
import DbGuard.Agent.Clone
import DbGuard.Proofs.Agent.Clone
import DbGuard.Polls
import DbGuard.Proofs.Polls
import DbGuard.Proofs.Degrading
import DbGuard.Agent.GtidCount
import DbGuard.Proofs.GtidSpelling
import DbGuard.Proofs.Agent.GtidCount
import DbGuard.Harness.Gtid
import DbGuard.Proofs.Harness.Gtid
import DbGuard.Osc.Chunks
import DbGuard.Proofs.Osc.Checksum
import DbGuard.Proofs.Osc.Chunks
import DbGuard.Proofs.Osc.Statement
import DbGuard.Proofs.Osc.Sizing
import DbGuard.EventLog
import DbGuard.Proofs.EventLog
import DbGuard.Osc.AlterText
import DbGuard.Proofs.Osc.AlterText
import DbGuard.Proofs.Harness.AckStats
import DbGuard.Agent.Supervisor
import DbGuard.Proofs.Agent.Supervisor
import DbGuard.Harness.Workload
import DbGuard.Proofs.Harness.Workload
import DbGuard.Proofs.Osc.Clauses
import DbGuard.Osc.Reading
import DbGuard.Proofs.Regex
import DbGuard.Proofs.Osc.ClauseKind
import DbGuard.Proofs.Osc.Renames
import DbGuard.Proofs.Agent.Semisync
import DbGuard.Proofs.Evidence
import DbGuard.Ledger
import DbGuard.Fake
import DbGuard.Proofs.Fake
import DbGuard.Coop.Dialog
import DbGuard.Simulation
import DbGuard.Proofs.Simulation
import DbGuard.Proofs.FailoverTrace
import DbGuard.Proofs.Lossless
import DbGuard.Proofs.Quiesced
import DbGuard.Proofs.SwitchoverTrace
import DbGuard.Proofs.Handover
import DbGuard.Watch
import DbGuard.Harness.Checker
import DbGuard.Proofs.Harness.Checker
import DbGuard.Osc.Pacing
import DbGuard.Proofs.Osc.Pacing
import DbGuard.Agent.SessionPool
import DbGuard.Proofs.Agent.SessionPool
