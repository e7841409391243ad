import Sqlery.Runs.Machine
import Sqlery.ReadCommitted.Table
import Sqlery.ReadCommitted.Machine
import Sqlery.ReadCommitted.Logic
import Sqlery.ReadCommitted.Script
import Sqlery.ReadCommitted.Soundness
import Sqlery.ReadCommitted.Steps
import Sqlery.ReadCommitted.Watch
import Sqlery.ReadCommitted.Footprint
import Sqlery.ReadCommitted.Extension
import Sqlery.ReadCommitted.Answers
import Sqlery.ReadCommitted.Rows
import Sqlery.ReadCommitted.Alone
import Sqlery.ReadCommitted.Derivation
import Sqlery.ReadCommitted.Ranked
import Sqlery.ReadCommitted.Drafts
import Sqlery.Calendar.Gregorian
import Sqlery.Calendar.Zone
import Sqlery.Core.Digits
import Sqlery.Core.Job
import Sqlery.Core.Decisions
import Sqlery.Core.Verdicts
import Sqlery.Standalone.Store
import Sqlery.Standalone.Statements
import Sqlery.Standalone.Transitions
import Sqlery.Standalone.Claim
import Sqlery.Standalone.Completion
import Sqlery.Standalone.Enqueue
import Sqlery.Standalone.Worker
import Sqlery.Standalone.Calls
import Sqlery.Standalone.Frames
import Sqlery.Standalone.Moves
import Sqlery.Standalone.Lawful
import Sqlery.Standalone.Rely
import Sqlery.Standalone.Specs
import Sqlery.Standalone.Closing
import Sqlery.Standalone.Moving
import Sqlery.Standalone.Opening
import Sqlery.Standalone.Filing
import Sqlery.Standalone.TransitionSpecs
import Sqlery.Standalone.ClaimSpecs
import Sqlery.Standalone.CompletionSpecs
import Sqlery.Standalone.ReleaseSpecs
import Sqlery.Standalone.EnqueueSpecs
import Sqlery.Standalone.RetrySpecs
import Sqlery.Standalone.Verified
import Sqlery.Standalone.Attempts
import Sqlery.Standalone.Fencing
import Sqlery.Standalone.Reporting
import Sqlery.Standalone.StaleSweep
import Sqlery.Standalone.Chronicle
import Sqlery.Standalone.Retries
import Sqlery.Standalone.Results
import Sqlery.Standalone.UpstreamResults
import Sqlery.Standalone.Sealing
import Sqlery.Standalone.SealedCalls
import Sqlery.Standalone.Orphans
import Sqlery.Standalone.AsyncWorker
import Sqlery.Standalone.Sparing
import Sqlery.Standalone.Rechecks
import Sqlery.Standalone.Finality
import Sqlery.Standalone.WorkerLoop
import Sqlery.Standalone.Footprints
import Sqlery.Standalone.CallFootprints
import Sqlery.Standalone.QueueExclusion
import Sqlery.Standalone.LeftInPlace
import Sqlery.Standalone.WorkerRuns
import Sqlery.Standalone.Dependencies
import Sqlery.Standalone.RetryRules
import Sqlery.Standalone.RetryParity
import Sqlery.Standalone.Liveness
import Sqlery.Standalone.Coverage
import Sqlery.Standalone.Revoke
import Sqlery.Standalone.Revocation
import Sqlery.Standalone.SoleSession
import Sqlery.Standalone.ReleaseWalk
import Sqlery.Standalone.ClaimOrder
import Sqlery.Standalone.ClaimResult
import Sqlery.Standalone.Markers
import Sqlery.Standalone.ReleaseVerdicts
import Sqlery.Lease.Leases
import Sqlery.Lease.Specs
import Sqlery.Lease.Exclusion
import Sqlery.Lease.Daemons
import Sqlery.Lease.Async
import Sqlery.Lease.Renewals
import Sqlery.Lease.Fleet
import Sqlery.Lease.Crew
import Sqlery.Lease.Leadership
import Sqlery.Scheduling.Cron
import Sqlery.Scheduling.NextRun
import Sqlery.Scheduling.Tasks
import Sqlery.Scheduling.Specs
import Sqlery.Scheduling.Advancing
import Sqlery.Scheduling.Processing
import Sqlery.Scheduling.Copies
import Sqlery.Scheduling.Due
import Sqlery.Scheduling.Once
import Sqlery.Scheduling.Repeat
import Sqlery.Scheduling.Limits
import Sqlery.Django.Dependencies
import Sqlery.Django.RunJobs
import Sqlery.Django.RunJobsSpecs
import Sqlery.Django.QueueRuns
import Sqlery.Django.BulkUpdate
import Sqlery.Django.BulkMoves
import Sqlery.Django.PoolWorker
import Sqlery.Django.PoolRules
import Sqlery.Django.PoolFence
import Sqlery.Django.PoolOutcome
import Sqlery.Django.PoolRecords
import Sqlery.Staging.Values
import Sqlery.Staging.Promotion
import Sqlery.Staging.RoundTrip
import Sqlery.Staging.Machine
import Sqlery.Staging.DjangoJobs
import Sqlery.Staging.RetriedJobs
import Sqlery.Staging.Staged
import Sqlery.Staging.StagedRuns
import Sqlery.Staging.StagedOnce
import Sqlery.Canvas.Chain
import Sqlery.History.Rows
import Sqlery.History.RunningState
import Sqlery.History.Backfill
import Sqlery.History.Batches
import Sqlery.History.Migration
import Sqlery.History.Retention
import Sqlery.Network.Text
import Sqlery.Network.Address
import Sqlery.Network.Url
import Sqlery.Network.Frames
import Sqlery.Network.Pipes
import Sqlery.Webhooks.Ssrf
import Sqlery.Workers.Launcher
import Sqlery.Workers.Tracking
import Sqlery.Workers.Deadlines
import Sqlery.Workers.Prefork
import Sqlery.Workers.PreforkReports
import Sqlery.Partitioning.LivePartitions
import Sqlery.Partitioning.Instants
import Sqlery.Partitioning.Coverage
import Sqlery.Partitioning.Bounds
import Sqlery.Partitioning.Reclaim
import Sqlery.Partitioning.Drained
import Sqlery.Partitioning.DrainedRuns
import Sqlery.Partitioning.Harmless
import Sqlery.Rotation.Decisions
import Sqlery.Rotation.Ring
import Sqlery.Rotation.Sound
import Sqlery.Rotation.SoundRuns
import Sqlery.Rotation.Effects
import Sqlery.Rotation.Kept
import Sqlery.Rotation.Fenced
