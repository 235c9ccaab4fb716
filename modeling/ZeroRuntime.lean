import ZeroRuntime.Fabric.Terminal
import ZeroRuntime.Fabric.Compensation
import ZeroRuntime.Fabric.Recovered
import ZeroRuntime.Mutation.TokenUse
import ZeroRuntime.Evidence.Tamper
import ZeroRuntime.Journal.Crash
import ZeroRuntime.Missions.Crash
import ZeroRuntime.Execution.Saved
import ZeroRuntime.Patching.Recoverable
import ZeroRuntime.Goals.Kept
import ZeroRuntime.Boundary.Rejected
import ZeroRuntime.Boundary.Rollback
import ZeroRuntime.Coordinator.Conserved
import ZeroRuntime.Coordinator.Valid
import ZeroRuntime.MissionScheduler.Counted
import ZeroRuntime.MissionScheduler.Fenced
import ZeroRuntime.SessionScheduler.Crash
import ZeroRuntime.Recovery.Stranded
import ZeroRuntime.Scopes.Closing
import ZeroRuntime.Boundary.Verified
import ZeroRuntime.EventBus.Delivered
import ZeroRuntime.GoalLog.Finished
import ZeroRuntime.Seal.Provenance
import ZeroRuntime.Replay.Protection
import ZeroRuntime.Status.Path
import ZeroRuntime.Policy.Runs
import ZeroRuntime.Guard.Places
import ZeroRuntime.Queue.Isolation
import ZeroRuntime.Packages.Distinct
import ZeroRuntime.Packages.Replans
import ZeroRuntime.Reviews.Applied
import ZeroRuntime.ExecutionGraph.Ordered
import ZeroRuntime.DependencyGraph.Cycles
import ZeroRuntime.Boundary.Targets
import ZeroRuntime.Queue.Refused
import ZeroRuntime.SessionScheduler.Ready
import ZeroRuntime.Lease.Zombies
import ZeroRuntime.Missions.Propagation
import ZeroRuntime.Transactions.Lifecycle
import ZeroRuntime.Ownership.Authority
import ZeroRuntime.Tasks.Damaged
import ZeroRuntime.AtomicEdit.AllOrNothing
import ZeroRuntime.TaskFile.Lawful
import ZeroRuntime.NativeScheduler.Counted
import ZeroRuntime.Queue.Merged
import ZeroRuntime.Goals.WriteOnce
import ZeroRuntime.ScopeGate.Resolved
import ZeroRuntime.RuntimeGate.Released
import ZeroRuntime.SimpleRunner.Runs
import ZeroRuntime.Replan.Bounded
import ZeroRuntime.CompileFix.Unchanged
