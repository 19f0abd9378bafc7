import MicroWorkflow.Lib.Table
import MicroWorkflow.Lib.Guarded
import MicroWorkflow.Lib.Machine
import MicroWorkflow.Lib.Closure
import MicroWorkflow.Values
import MicroWorkflow.Shape
import MicroWorkflow.Database
import MicroWorkflow.Membership
import MicroWorkflow.Sessions
import MicroWorkflow.ComponentRecord
import MicroWorkflow.Ownership
import MicroWorkflow.InterruptCommon
import MicroWorkflow.ThreadOverrides
import MicroWorkflow.PendingExecution
import MicroWorkflow.Claims
import MicroWorkflow.Restart
import MicroWorkflow.Terminal
import MicroWorkflow.ClaimVerdicts
import MicroWorkflow.JobFence
import MicroWorkflow.JobPreparation
import MicroWorkflow.Reexecution
import MicroWorkflow.AfterClaims
import MicroWorkflow.GroupedClaims
import MicroWorkflow.ClaimsInTurn
import MicroWorkflow.InterruptObservation
import MicroWorkflow.Lib.Statement
import MicroWorkflow.ComponentExecution
import MicroWorkflow.SessionExit
import MicroWorkflow.ComponentPreparation
import MicroWorkflow.MembershipChange
import MicroWorkflow.ResumePreparation
import MicroWorkflow.MembershipPreparation
import MicroWorkflow.RecordInvariant
import MicroWorkflow.RecordPreservation
import MicroWorkflow.RecordPreparation
import MicroWorkflow.ComponentRecords
import MicroWorkflow.ComponentRuns
import MicroWorkflow.AcceptedRestarts
import MicroWorkflow.RestartReaders
import MicroWorkflow.Lib.Savepoint
import MicroWorkflow.GroupedPermits
import MicroWorkflow.PermitRefinement
import MicroWorkflow.JobPublication
import MicroWorkflow.JobCreation
import MicroWorkflow.JobNumbering
import MicroWorkflow.PublishPlans
import MicroWorkflow.JobNumberingRuns
import MicroWorkflow.JobDeletion
import MicroWorkflow.IdempotencyKeys
import MicroWorkflow.InputPublications
import MicroWorkflow.PreparationAttempts
import MicroWorkflow.NativeCleanup
import MicroWorkflow.ReceiverGuards
import MicroWorkflow.GuardedAttempts
import MicroWorkflow.GuardRuns
import MicroWorkflow.PreparationExecution
import MicroWorkflow.Lib.FileTree
import MicroWorkflow.Lib.Script
import MicroWorkflow.RecoveryTree
import MicroWorkflow.PreparationStaging
import MicroWorkflow.StagingLayout
import MicroWorkflow.StagingRecovery
import MicroWorkflow.StagingDiscard
import MicroWorkflow.StagingSafety
import MicroWorkflow.MutationWriter
import MicroWorkflow.MutationBarrier
import MicroWorkflow.MutationBatches
import MicroWorkflow.Lib.Quotient
import MicroWorkflow.Topology
import MicroWorkflow.Lib.Json
import MicroWorkflow.ShapeText
import MicroWorkflow.Lib.Rounds
import MicroWorkflow.MembershipClosure
import MicroWorkflow.ResumeOutcome
import MicroWorkflow.ResumeRuns
import MicroWorkflow.Lib.Walk
import MicroWorkflow.SelectedScope
import MicroWorkflow.Lib.Transaction
import MicroWorkflow.Clipboard
import MicroWorkflow.ClipboardPaste
import MicroWorkflow.MisalignmentCauses
import MicroWorkflow.ObservedReceivers
import MicroWorkflow.ArrivalMarks
import MicroWorkflow.AutoPublication
import MicroWorkflow.PlansInOrder
import MicroWorkflow.PublicationsInTurn
import MicroWorkflow.ComponentInterval
import MicroWorkflow.Lib.Threads
import MicroWorkflow.ThreadedRunner
import MicroWorkflow.RunnerAccounting
import MicroWorkflow.RunnerCompletion
import MicroWorkflow.CollectedClaims
import MicroWorkflow.TerminalsInTurn
import MicroWorkflow.Lib.Observations
import MicroWorkflow.RuntimeObservations
import MicroWorkflow.ObservationsInTurn
import MicroWorkflow.RuntimeProgress
import MicroWorkflow.AttemptWatches
import MicroWorkflow.DeadlineHeap
import MicroWorkflow.DeadlineRuns
import MicroWorkflow.DeadlineExpiry
import MicroWorkflow.RestartSignals
import MicroWorkflow.RestartPolls
import MicroWorkflow.SessionAdmission
import MicroWorkflow.InterruptAdmission
import MicroWorkflow.OverrideValues
import MicroWorkflow.OverrideMoves
import MicroWorkflow.OverrideAdmissions
import MicroWorkflow.OverrideOwnership
import MicroWorkflow.ApiCapacity
import MicroWorkflow.ComponentReadiness
import MicroWorkflow.ApiPumps
import MicroWorkflow.InterruptPreflight
import MicroWorkflow.RetryLadder
import MicroWorkflow.StageReader
import MicroWorkflow.NodeContinuation
import MicroWorkflow.ContinuationRuns
import MicroWorkflow.ApiLanes
import MicroWorkflow.DagWave
import MicroWorkflow.DagScheduler
import MicroWorkflow.WaveAccounting
import MicroWorkflow.WaveRuns
import MicroWorkflow.Lib.RowTable
import MicroWorkflow.QueueCursor
import MicroWorkflow.QueueSources
import MicroWorkflow.QueueFlow
import MicroWorkflow.QueuePulls
import MicroWorkflow.RestartReceipts
import MicroWorkflow.RestartRounds
import MicroWorkflow.RoundClaims
import MicroWorkflow.SampleSelection
import MicroWorkflow.DeploymentComplete
import MicroWorkflow.AdvisoryLocks
import MicroWorkflow.NetworkPool
import MicroWorkflow.FiberTimers
import MicroWorkflow.ScopeReturn
