import MicroWorkflow.InputPublications
import MicroWorkflow.MembershipPreparation

set_option autoImplicit false

namespace MicroWorkflow

open Lib (require refuse orRaise each thread Table)

section Attempts

def guardsOf (db : Database) (operationId : String) : List ReceiverMutationGuard :=
  (db.receiverMutationGuards.select fun row => row.operationId = operationId).insertionSort
    fun left right => left.receiverNode ≤ right.receiverNode

def attemptReceipts (db : Database) (operationId : String) : List PreparationReceipt :=
  (db.preparationReceipts.select fun row => row.intent.guardId = operationId).insertionSort
    fun left right => left.intent.operationId ≤ right.intent.operationId

def requireAttemptReceipts (db : Database) (operationId : String) : Result (List PreparationReceipt) := do
  each validatePreparationReceipt (attemptReceipts db operationId)
  return attemptReceipts db operationId

def intendedUnit (row : PreparationReceipt) : IntendedReceipt := ⟨row.intent.operation, row.intent.componentKey⟩

def checkReceiptScope (attempt : PreparationAttempt) (row : PreparationReceipt) : Result Unit := do
  require (row.intent.manifest.membership.isSome == attempt.membershipRevision.isSome)
    (.runtime "Preparation receipt has another completion requirement")
  require (row.intent.manifest.receivers.all fun node => node ∈ attempt.affectedNodes)
    (.runtime "Preparation receipt exceeds its intended node scope")

def allCommitted (receipts : List PreparationReceipt) : Bool := receipts.all fun row => row.state == .committed

def checkedAttemptReceipts (db : Database) (attempt : PreparationAttempt) :
    Result (List PreparationReceipt × Bool) := do
  require (attempt.completedMembershipRevision.isNone
      || attempt.completedMembershipRevision == attempt.membershipRevision)
    (.runtime "Invalid preparation membership completion")
  let expected := attempt.expectedReceipts
  require (!expected.isEmpty && expected.all fun item => item.operation != "" && item.componentKey != [])
    (.runtime "Invalid preparation attempt receipt scope")
  require expected.Nodup (.runtime "Duplicate intended preparation unit")
  let receipts ← requireAttemptReceipts db attempt.operationId
  let actual := receipts.map intendedUnit
  require (decide actual.Nodup && (actual.all fun item => item ∈ expected)
      && receipts.all fun row => row.intent.sessionId == attempt.sessionId)
    (.runtime "Preparation receipt disagrees with its intended unit")
  each (checkReceiptScope attempt) receipts
  let complete := expected.all fun item => item ∈ actual
  refuse (attempt.completedMembershipRevision.isSome && !(complete && allCommitted receipts))
    (.runtime "Membership completion lacks its complete committed preparation")
  return (receipts, complete)

def PreparationAttempt.finalized (attempt : PreparationAttempt) : Bool :=
  attempt.membershipRevision.isNone || attempt.completedMembershipRevision.isSome

def attemptOutcome (db : Database) (attempt : PreparationAttempt) : Result AttemptState := do
  let (receipts, complete) ← checkedAttemptReceipts db attempt
  if receipts.any fun row => row.state == .prepared then return .interrupted else
  if attempt.finalized && complete && allCommitted receipts then return .committed else return .aborted

def requireExactAttempt (db : Database) (expected : PreparationAttempt) (guards : List ReceiverMutationGuard) :
    Result Unit :=
  require (db.preparationAttempts.find expected.operationId == some expected
      && guardsOf db expected.operationId == guards)
    (.runtime "Preparation attempt or receiver guards changed")

def requireAttemptCompletion (db : Database) (expected : PreparationAttempt) (guards : List ReceiverMutationGuard) :
    Result PreparationAttempt := do
  let row ← orRaise (db.preparationAttempts.find expected.operationId) (.runtime "Preparation attempt is missing")
  let current := { expected with completedMembershipRevision := row.completedMembershipRevision }
  requireExactAttempt db current guards
  let _ ← checkedAttemptReceipts db current
  return current

def interruptAttempt (db : Database) (expected : PreparationAttempt) (guards : List ReceiverMutationGuard) :
    Result Database := do
  let current ← requireAttemptCompletion db expected guards
  let attempts ← db.preparationAttempts.changeOne expected.operationId (fun row => row.state == .preparing)
    (fun row => { row with state := .interrupted }) (.runtime "Preparation attempt changed before interruption")
  let next := { db with preparationAttempts := attempts }
  requireExactAttempt next { current with state := .interrupted } guards
  return next

def releaseGuards (db : Database) (operationId : String) (guards : List ReceiverMutationGuard) (error : Error) :
    Result Database := do
  let held := fun (row : ReceiverMutationGuard) => decide (row.operationId = operationId)
  require (db.receiverMutationGuards.count held == guards.length) error
  return { db with receiverMutationGuards := db.receiverMutationGuards.delete held }

def releaseSettled (db : Database) (operationId : String) (guards : List ReceiverMutationGuard)
    (outcome : AttemptState) (requestedCommitted : Bool) : Result Database :=
  if outcome = .interrupted then .ok db else do
  refuse (requestedCommitted && outcome != .committed)
    (.runtime "Preparation finished without its complete committed result")
  releaseGuards db operationId guards (.runtime "Preparation receiver guard count changed before release")

def settledTime (outcome : AttemptState) (now : Timestamp) : Option Timestamp :=
  if outcome = .interrupted then none else some now

def settledGuards (outcome : AttemptState) (guards : List ReceiverMutationGuard) : List ReceiverMutationGuard :=
  if outcome = .interrupted then guards else []

def finishAttempt (db : Database) (expected : PreparationAttempt) (guards : List ReceiverMutationGuard)
    (requestedCommitted : Bool) (now : Timestamp) : Result (AttemptState × Database) := do
  let current ← requireAttemptCompletion db expected guards
  let outcome ← attemptOutcome db current
  let released ← releaseSettled db expected.operationId guards outcome requestedCommitted
  let attempts ← released.preparationAttempts.changeOne expected.operationId (fun row => row.state == .preparing)
    (fun row => { row with state := outcome, finishedAt := settledTime outcome now })
    (.runtime "Preparation attempt changed before release")
  let next := { released with preparationAttempts := attempts }
  requireExactAttempt next { current with state := outcome, finishedAt := settledTime outcome now }
    (settledGuards outcome guards)
  return (outcome, next)

structure AttemptRequest where
  operationId : String
  sessionId : Option String
  ownerPid : Nat
  processIdentity : String
  hostname : String
  now : Timestamp
  receivers : List String
  affectedNodes : List String
  expectedReceipts : List IntendedReceipt
  membershipRevision : Option Nat

namespace AttemptRequest

def attempt (request : AttemptRequest) : PreparationAttempt where
  operationId := request.operationId
  state := .preparing
  sessionId := request.sessionId
  ownerPid := request.ownerPid
  processIdentity := request.processIdentity
  hostname := request.hostname
  startedAt := request.now
  heartbeatAt := request.now
  finishedAt := none
  receivers := componentKey request.receivers
  affectedNodes := componentKey request.affectedNodes
  expectedReceipts := request.expectedReceipts
  membershipRevision := request.membershipRevision
  completedMembershipRevision := none

def guards (request : AttemptRequest) : List ReceiverMutationGuard :=
  (componentKey request.receivers).map fun node => ⟨node, request.operationId, request.sessionId, request.ownerPid,
    request.processIdentity, request.hostname⟩

end AttemptRequest

def acquireAttempt (validate afterAcquire : Database → Result Unit) (db : Database) (request : AttemptRequest) :
    Result Database := do
  validate db
  let attempts ← orRaise (db.preparationAttempts.insert request.attempt)
    (.integrity "UNIQUE constraint failed: preparation_attempts.operation_id")
  let guards ← orRaise (db.receiverMutationGuards.insertAll request.guards)
    (.integrity "UNIQUE constraint failed: receiver_mutation_guards.receiver_node")
  let next := { db with preparationAttempts := attempts, receiverMutationGuards := guards }
  let _ ← checkedAttemptReceipts next request.attempt
  afterAcquire next
  requireExactAttempt next request.attempt request.guards
  return next

end Attempts

section Units

structure UnitScope (db next : Database) : Prop where
  live : ∀ place, next.jobs.contains place = true → db.jobs.contains place = true
  guards : next.receiverMutationGuards = db.receiverMutationGuards
  attempts : next.preparationAttempts = db.preparationAttempts
  receipts : next.preparationReceipts = db.preparationReceipts
  publications : next.inputPublications = db.inputPublications

structure UnitWork where
  validate : Database → Result Unit
  complete : Database → Result Database
  bounded : ∀ {db next}, complete db = .ok next → UnitScope db next

structure UnitPreparation where
  intent : PreparationIntent
  excludedNodes : List String
  work : UnitWork
  latched : String → Bool

def validateHeldGuards (db : Database) (receivers : List String) (operationId : String) : Result Unit :=
  each (fun receiver =>
    require ((db.receiverMutationGuards.find receiver).any fun guard => guard.operationId == operationId)
      (.runtime ("Preparation lost receiver " ++ receiver ++ " guard " ++ operationId))) receivers

def validateUnit (db : Database) (unit : UnitPreparation) : Result Unit := do
  validateHeldGuards db unit.excludedNodes unit.intent.guardId
  unit.work.validate db

def prepareUnit (db : Database) (unit : UnitPreparation) : Result Database := do
  each (refuseUnfinishedPreparation db) unit.intent.manifest.receivers
  validateUnit db unit
  let receipts ← insertFileReceipt db.preparationReceipts (preparedReceipt unit.intent)
  return { db with preparationReceipts := receipts }

def changedReceivers (unit : UnitPreparation) : List String :=
  ((unit.intent.manifest.effects.map PreparationEffect.receiver).filter fun node => node ∈ unit.excludedNodes).eraseDups

def markChangedReceivers (causes : ArrivalCauses) (db : Database) (unit : UnitPreparation) : Result Database :=
  thread (fun current receiver => markComponentPreparationChange causes current receiver (unit.latched receiver)) db
    (changedReceivers unit)

def commitUnit (causes : ArrivalCauses) (db : Database) (unit : UnitPreparation) : Result Database := do
  requirePreparedFileReceipt db.preparationReceipts (preparedReceipt unit.intent)
  validateUnit db unit
  let completed ← unit.work.complete db
  let receipts ← finishFileReceipt completed.preparationReceipts (preparedReceipt unit.intent) .committed
  markChangedReceivers causes { completed with preparationReceipts := receipts } unit

def abortUnit (db : Database) (unit : UnitPreparation) (restored : Bool) : Result Database := do
  requirePreparedFileReceipt db.preparationReceipts (preparedReceipt unit.intent)
  require restored (.runtime "Preparation files were not restored")
  let receipts ← finishFileReceipt db.preparationReceipts (preparedReceipt unit.intent) .aborted
  return { db with preparationReceipts := receipts }

def commitCompletion (db : Database) (expected : PreparationAttempt) (guards : List ReceiverMutationGuard)
    (revision : Nat) : Result Database := do
  requireExactAttempt db expected guards
  let (receipts, complete) ← checkedAttemptReceipts db expected
  require (expected.membershipRevision == some revision && complete && allCommitted receipts)
    (.runtime "Membership completion differs from its prepared result")
  let attempts ← db.preparationAttempts.changeOne expected.operationId
    (fun row => row.state == .preparing && row.membershipRevision == some revision
      && row.completedMembershipRevision.isNone)
    (fun row => { row with completedMembershipRevision := some revision })
    (.runtime "Membership completion did not persist")
  let next := { db with preparationAttempts := attempts }
  let completed := { expected with completedMembershipRevision := some revision }
  requireExactAttempt next completed guards
  let (observed, whole) ← checkedAttemptReceipts next completed
  require (whole && observed == receipts) (.runtime "Membership preparation receipts changed during completion")
  return next

def completeMembership (validate : Database → Result Unit) (db : Database) (repair : MembershipRepair)
    (expected : PreparationAttempt) (guards : List ReceiverMutationGuard) : Result Database := do
  requireExactAttempt db expected guards
  let _ ← checkedAttemptReceipts db expected
  validate db
  let (active, replaced) ← replaceActiveComponentClosure db repair.change
  let moved ← movePartitionRevision replaced repair.sessionId repair.change active.revision
  commitCompletion moved expected guards active.revision

end Units

end MicroWorkflow
