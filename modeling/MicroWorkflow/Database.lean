import MicroWorkflow.Lib.Table
import MicroWorkflow.Shape

set_option autoImplicit false

namespace MicroWorkflow

open Lib (Table)

abbrev Timestamp := Nat
abbrev JobAddress := String × Nat

structure Job where
  nodeName : String
  jobId : Nat
  status : JobStatus
  statusJson : Details
  generation : Nat
  activeExecutionId : Option String
  activePid : Option Nat
  activeThreadId : Option Nat
  activeStartedAt : Option Timestamp
  restartRequestedAt : Option Timestamp
  restartRequestedByPid : Option Nat
  restartReason : Option String
  runtimeJson : Option Details
deriving DecidableEq, Repr

structure JobInstance where
  nodeName : String
  jobId : Nat
  instanceId : String
  lastExecutionId : Option String
  createdByExecutionId : Option String
deriving DecidableEq, Repr

structure JobEvent where
  nodeName : String
  jobId : Nat
  time : Timestamp
  event : String
  data : Details
deriving DecidableEq, Repr

structure ExecutionOwner where
  executionId : String
  nodeName : String
  jobId : Nat
  jobInstanceId : String
  generation : Nat
  sessionId : String
  componentKey : Component
  shapeId : Nat
  alignmentGeneration : Nat
  createdByExecutionId : Option String
deriving DecidableEq, Repr

structure NodeRow where
  nodeName : String
  status : Option String
deriving DecidableEq, Repr

inductive SessionKind where
  | main | interrupt
deriving DecidableEq, Repr

inductive SelectionKind where
  | components | jobs
deriving DecidableEq, Repr

inductive SessionStatus where
  | running | terminal
deriving DecidableEq, Repr

structure ExecutionSession where
  sessionId : String
  sessionKind : SessionKind
  command : String
  selectionKind : SelectionKind
  startComponent : Component
  status : SessionStatus
  startedAt : Timestamp
  heartbeatAt : Timestamp
  finishedAt : Option Timestamp
  hostname : String
  pid : Nat
  processIdentity : Option String
  outcome : Option String
  failures : List String
  details : Details
  admittedShapeId : Nat
  partitionRevision : Nat
  scopeAdmitted : Bool
deriving DecidableEq, Repr

structure SessionComponent where
  sessionId : String
  position : Nat
  componentKey : Component
deriving DecidableEq, Repr

structure SessionJob where
  sessionId : String
  position : Nat
  nodeName : String
  jobId : Nat
  jobInstanceId : String
deriving DecidableEq, Repr

structure SessionParent where
  childSessionId : String
  parentSessionId : String
deriving DecidableEq, Repr

structure GraphShape where
  shapeId : Nat
  shapeJson : Shape
deriving DecidableEq, Repr

structure ComponentDefinition where
  componentKey : Component
  shapeId : Nat
deriving DecidableEq, Repr

structure ComponentState where
  componentKey : Component
  shapeId : Nat
  retainedResultShapeId : Option Nat
  retainedResultAlignmentGeneration : Option Nat
  lifecycle : Lifecycle
  stability : Option Stability
  instabilityOrigin : Option String
  misaligned : Bool
  alignmentGeneration : Nat
deriving DecidableEq, Repr

structure ComponentReservation where
  componentKey : Component
  sessionId : String
deriving DecidableEq, Repr

inductive ExecutionKind where
  | full | jobs | resume
deriving DecidableEq, Repr

structure PendingComponentExecution where
  sessionId : String
  componentKey : Component
  shapeId : Nat
  startingShapeId : Nat
  alignmentGeneration : Nat
  completionReady : Bool
  executionKind : ExecutionKind
  startingLifecycle : Lifecycle
  startingMisaligned : Bool
  stability : Stability
  instabilityOrigin : Option String
deriving DecidableEq, Repr

structure ComponentSuccessfulResult where
  componentKey : Component
  shapeId : Nat
  alignmentGeneration : Nat
  lifecycle : Lifecycle
  stability : Stability
  instabilityOrigin : Option String
deriving DecidableEq, Repr

structure ComponentHold where
  sessionId : String
  componentKey : Component
  holdCount : Nat
deriving DecidableEq, Repr

structure ActiveComponent where
  componentKey : Component
  establishedRevision : Nat
deriving DecidableEq, Repr

structure ActiveComponentMember where
  nodeName : String
  componentKey : Component
deriving DecidableEq, Repr

structure PendingNodeThreadOverride where
  nodeName : String
  value : Nat
deriving DecidableEq, Repr

structure NodeThreadOverride where
  nodeName : String
  sessionId : String
  value : Nat
deriving DecidableEq, Repr

inductive AdmissionState where
  | admitted | frozen | settled
deriving DecidableEq, Repr

structure InterruptAdmission where
  sessionId : String
  targetComponentKey : Component
  readinessOverrideRequested : Bool
  readinessOverridden : Option Bool
  state : AdmissionState
  createdAt : Timestamp
  frozenShapeId : Option Nat
  frozenAlignmentGeneration : Option Nat
  frozenStability : Option Stability
  frozenInstabilityOrigin : Option String
  frozenAt : Option Timestamp
  settledAt : Option Timestamp
deriving DecidableEq, Repr

inductive TransferKind where
  | directParent | futureAdmission
deriving DecidableEq, Repr

inductive TransferState where
  | active | returned | released
deriving DecidableEq, Repr

structure InterruptScopeTransfer where
  childSessionId : String
  sourceSessionId : String
  componentKey : Component
  transferKind : TransferKind
  state : TransferState
  createdAt : Timestamp
  finishedAt : Option Timestamp
deriving DecidableEq, Repr

inductive PauseState where
  | requested | acknowledged | released
deriving DecidableEq, Repr

structure InterruptPauseRequest where
  childSessionId : String
  ownerSessionId : String
  componentKey : Component
  state : PauseState
  createdAt : Timestamp
  releasedAt : Option Timestamp
deriving DecidableEq, Repr

structure InterruptPausedExecution where
  childSessionId : String
  ownerSessionId : String
  componentKey : Component
  executionId : String
  nodeName : String
  jobId : Nat
  generation : Nat
  acknowledgedAt : Option Timestamp
deriving DecidableEq, Repr

structure InterruptFrozenParentState where
  childSessionId : String
  componentKey : Component
  shapeId : Nat
  lifecycle : Lifecycle
  stability : Option Stability
  instabilityOrigin : Option String
  misaligned : Bool
  alignmentGeneration : Nat
deriving DecidableEq, Repr

structure PostInterruptFence where
  componentKey : Component
  shapeId : Nat
  alignmentGeneration : Nat
  sourceSessionId : String
  createdAt : Timestamp
deriving DecidableEq, Repr

structure SessionFenceAuthorization where
  sessionId : String
  componentKey : Component
  shapeId : Nat
  alignmentGeneration : Nat
  sourceSessionId : String
  createdAt : Timestamp
deriving DecidableEq, Repr

structure ApiExecutionPermit where
  executionId : String
  nodeName : String
  jobId : Nat
  generation : Nat
  sessionId : String
  acquiredAt : Timestamp
deriving DecidableEq, Repr

structure IdempotencyRow where
  nodeName : String
  keyHash : String
  keyText : String
  jobId : Nat
deriving DecidableEq, Repr

structure JobSequence where
  nodeName : String
  nextJobId : Nat
deriving DecidableEq, Repr

structure ReceiverMutationGuard where
  receiverNode : String
  operationId : String
  sessionId : Option String
  ownerPid : Nat
  processIdentity : String
  hostname : String
deriving DecidableEq, Repr

inductive AffectedKind where
  | managedInput | managedJob
deriving DecidableEq, Repr

structure PreparationEffect where
  receiver : String
  kind : AffectedKind
  path : Option String
  jobId : Option Nat
  jobInstanceId : Option String
  producerExecutionId : Option String
deriving DecidableEq, Repr

structure PreparationManifest where
  receivers : List String
  effects : List PreparationEffect
  membership : Option (List String)
deriving DecidableEq, Repr

structure PreparationIntent where
  operationId : String
  guardId : String
  operation : String
  componentKey : Component
  sessionId : Option String
  manifest : PreparationManifest
deriving DecidableEq, Repr

inductive ReceiptState where
  | prepared | committed | aborted
deriving DecidableEq, Repr

structure ReceiptDecision (Intent : Type) where
  operationId : String
  state : ReceiptState
  intentDigest : Intent
deriving DecidableEq, Repr

-- A digest is modelled by the content it was taken of.
structure FileReceipt (Intent : Type) where
  intent : Intent
  state : ReceiptState
  intentDigest : Intent
  decision : Option (ReceiptDecision Intent)
  decisionDigest : Option (ReceiptDecision Intent)
deriving DecidableEq, Repr

abbrev PreparationReceipt := FileReceipt PreparationIntent

def PreparationReceipt.operationId (row : PreparationReceipt) : String := row.intent.operationId

inductive AttemptState where
  | preparing | interrupted | committed | aborted
deriving DecidableEq, Repr

structure IntendedReceipt where
  operation : String
  componentKey : Component
deriving DecidableEq, Repr

structure PreparationAttempt where
  operationId : String
  state : AttemptState
  sessionId : Option String
  ownerPid : Nat
  processIdentity : String
  hostname : String
  startedAt : Timestamp
  heartbeatAt : Timestamp
  finishedAt : Option Timestamp
  receivers : List String
  affectedNodes : List String
  expectedReceipts : List IntendedReceipt
  membershipRevision : Option Nat
  completedMembershipRevision : Option Nat
deriving DecidableEq, Repr

inductive InputChangeKind where
  | text | bytes | copy | append | delete
deriving DecidableEq, Repr

structure InputEntry where
  relative : String
  kind : InputChangeKind
  existed : Bool
deriving DecidableEq, Repr

structure InputIntent where
  operationId : String
  executionId : String
  receiverNode : String
  changes : List InputEntry
deriving DecidableEq, Repr

abbrev InputPublication := FileReceipt InputIntent

def InputPublication.operationId (row : InputPublication) : String := row.intent.operationId

structure ManagedInputFile where
  receiverNode : String
  relativePath : String
  unownedPredecessor : Bool
deriving DecidableEq, Repr

structure ManagedInputProducer where
  receiverNode : String
  relativePath : String
  executionId : String
deriving DecidableEq, Repr

def ManagedInputFile.key (row : ManagedInputFile) : String × String := (row.receiverNode, row.relativePath)
def ManagedInputProducer.key (row : ManagedInputProducer) : String × String × String :=
  (row.receiverNode, row.relativePath, row.executionId)

def IdempotencyRow.key (row : IdempotencyRow) : String × String := (row.nodeName, row.keyHash)

def Job.address (row : Job) : JobAddress := (row.nodeName, row.jobId)
def JobInstance.address (row : JobInstance) : JobAddress := (row.nodeName, row.jobId)
def JobEvent.address (row : JobEvent) : JobAddress := (row.nodeName, row.jobId)
def ExecutionOwner.address (row : ExecutionOwner) : JobAddress := (row.nodeName, row.jobId)
def SessionComponent.key (row : SessionComponent) : String × Component := (row.sessionId, row.componentKey)
def SessionJob.key (row : SessionJob) : String × JobAddress := (row.sessionId, row.nodeName, row.jobId)
def SessionParent.key (row : SessionParent) : String × String := (row.childSessionId, row.parentSessionId)
def ComponentDefinition.key (row : ComponentDefinition) : Component × Nat := (row.componentKey, row.shapeId)
def PendingComponentExecution.key (row : PendingComponentExecution) : String × Component :=
  (row.sessionId, row.componentKey)
def ComponentSuccessfulResult.key (row : ComponentSuccessfulResult) : Component × Nat × Nat :=
  (row.componentKey, row.shapeId, row.alignmentGeneration)
def ComponentHold.key (row : ComponentHold) : String × Component := (row.sessionId, row.componentKey)
def NodeThreadOverride.key (row : NodeThreadOverride) : String × String := (row.nodeName, row.sessionId)
def InterruptScopeTransfer.key (row : InterruptScopeTransfer) : String × Component :=
  (row.childSessionId, row.componentKey)
def InterruptPauseRequest.key (row : InterruptPauseRequest) : String × String × Component :=
  (row.childSessionId, row.ownerSessionId, row.componentKey)
def InterruptPausedExecution.key (row : InterruptPausedExecution) : String × String :=
  (row.childSessionId, row.executionId)
def InterruptFrozenParentState.key (row : InterruptFrozenParentState) : String × Component :=
  (row.childSessionId, row.componentKey)
def PostInterruptFence.key (row : PostInterruptFence) : Component × Nat × Nat × String :=
  (row.componentKey, row.shapeId, row.alignmentGeneration, row.sourceSessionId)
def SessionFenceAuthorization.key (row : SessionFenceAuthorization) : String × Component × Nat × Nat × String :=
  (row.sessionId, row.componentKey, row.shapeId, row.alignmentGeneration, row.sourceSessionId)

structure Database where
  jobs : Table Job.address
  jobInstances : Table JobInstance.address
  jobEvents : List JobEvent
  jobExecutionOwners : Table ExecutionOwner.executionId
  nodes : Table NodeRow.nodeName
  jobRestartRevision : Nat
  executionSessions : Table ExecutionSession.sessionId
  sessionComponents : Table SessionComponent.key
  sessionJobs : Table SessionJob.key
  executionSessionParents : Table SessionParent.key
  graphShapes : Table GraphShape.shapeId
  componentDefinitions : Table ComponentDefinition.key
  componentStates : Table ComponentState.componentKey
  componentReservations : Table ComponentReservation.componentKey
  pendingComponentExecutions : Table PendingComponentExecution.key
  componentSuccessfulResults : Table ComponentSuccessfulResult.key
  componentHolds : Table ComponentHold.key
  componentPartitionState : Option Nat
  activeComponents : Table ActiveComponent.componentKey
  activeComponentMembers : Table ActiveComponentMember.nodeName
  pendingNodeThreadOverrides : Table PendingNodeThreadOverride.nodeName
  nodeThreadOverrides : Table NodeThreadOverride.key
  interruptAdmissions : Table InterruptAdmission.sessionId
  interruptScopeTransfers : Table InterruptScopeTransfer.key
  interruptPauseRequests : Table InterruptPauseRequest.key
  interruptPausedExecutions : Table InterruptPausedExecution.key
  interruptFrozenParentStates : Table InterruptFrozenParentState.key
  postInterruptFences : Table PostInterruptFence.key
  sessionFenceAuthorizations : Table SessionFenceAuthorization.key
  apiExecutionPermits : Table ApiExecutionPermit.executionId
  apiThreadLimit : Option Nat
  idempotency : Table IdempotencyRow.key
  jobSequences : Table JobSequence.nodeName
  receiverMutationGuards : Table ReceiverMutationGuard.receiverNode
  preparationReceipts : Table PreparationReceipt.operationId
  preparationAttempts : Table PreparationAttempt.operationId
  inputPublications : Table InputPublication.operationId
  managedInputFiles : Table ManagedInputFile.key
  managedInputProducers : Table ManagedInputProducer.key

abbrev Result (α : Type) := Except Error α

def Database.empty : Database where
  jobs := .empty
  jobInstances := .empty
  jobEvents := []
  jobExecutionOwners := .empty
  nodes := .empty
  jobRestartRevision := 0
  executionSessions := .empty
  sessionComponents := .empty
  sessionJobs := .empty
  executionSessionParents := .empty
  graphShapes := .empty
  componentDefinitions := .empty
  componentStates := .empty
  componentReservations := .empty
  pendingComponentExecutions := .empty
  componentSuccessfulResults := .empty
  componentHolds := .empty
  componentPartitionState := none
  activeComponents := .empty
  activeComponentMembers := .empty
  pendingNodeThreadOverrides := .empty
  nodeThreadOverrides := .empty
  interruptAdmissions := .empty
  interruptScopeTransfers := .empty
  interruptPauseRequests := .empty
  interruptPausedExecutions := .empty
  interruptFrozenParentStates := .empty
  postInterruptFences := .empty
  sessionFenceAuthorizations := .empty
  apiExecutionPermits := .empty
  apiThreadLimit := none
  idempotency := .empty
  jobSequences := .empty
  receiverMutationGuards := .empty
  preparationReceipts := .empty
  preparationAttempts := .empty
  inputPublications := .empty
  managedInputFiles := .empty
  managedInputProducers := .empty

section OneNode

def oneNodeShape : Shape := ⟨["a"], [], []⟩

def oneNodeJob (jobId : Nat) : Job := ⟨"a", jobId, .queued, [], 0, none, none, none, none, none, none, none, none⟩

def oneNodeRows : Table NodeRow.nodeName := ⟨[⟨"a", none⟩], by decide⟩

def oneNodeSession : ExecutionSession :=
  ⟨"s", .main, "run", .components, ["a"], .running, 0, 0, none, "host", 1, none, none, [], [], 1, 0, true⟩

def oneNodeProject : Database := { Database.empty with
  jobs := ⟨[oneNodeJob 1], by decide⟩
  jobInstances := ⟨[⟨"a", 1, "00000000000000000000000000000001", none, none⟩], by decide⟩
  executionSessions := ⟨[oneNodeSession], by decide⟩
  sessionComponents := ⟨[⟨"s", 0, ["a"]⟩], by decide⟩
  graphShapes := ⟨[⟨1, oneNodeShape⟩], by decide⟩
  componentDefinitions := ⟨[⟨["a"], 1⟩], by decide⟩
  componentStates := ⟨[⟨["a"], 1, none, none, .queued, none, none, false, 0⟩], by decide⟩
  componentReservations := ⟨[⟨["a"], "s"⟩], by decide⟩
  componentPartitionState := some 0
  activeComponents := ⟨[⟨["a"], 0⟩], by decide⟩
  activeComponentMembers := ⟨[⟨"a", ["a"]⟩], by decide⟩ }

end OneNode

end MicroWorkflow
