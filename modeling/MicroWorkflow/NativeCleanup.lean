import MicroWorkflow.PreparationAttempts
import MicroWorkflow.SessionScope

set_option autoImplicit false

namespace MicroWorkflow

open Lib (require refuse orRaise each Table)

structure OwnerLiveness where
  attempt : PreparationAttempt → Bool
  session : ExecutionSession → Bool

inductive CleanupPlan where
  | preparation (receipt : PreparationReceipt) (attempt : PreparationAttempt) (guards : List ReceiverMutationGuard)
      (session : Option ExecutionSession) (sameGuard : receipt.intent.guardId = attempt.operationId)
  | attempt (attempt : PreparationAttempt) (guards : List ReceiverMutationGuard) (session : Option ExecutionSession)
  | input (receipt : InputPublication) (owner : ExecutionOwner) (session : ExecutionSession)

def requireRecoverableAttempt (db : Database) (live : OwnerLiveness) (attempt : PreparationAttempt)
    (guards : List ReceiverMutationGuard) : Result Unit := do
  let _ ← checkedAttemptReceipts db attempt
  require (db.preparationAttempts.find attempt.operationId == some attempt
      && guardsOf db attempt.operationId == guards)
    (.runtime "Cleanup preparation attempt or guards changed")
  refuse (attempt.state == .preparing && live.attempt attempt)
    (.runtime "Cleanup preparation owner is active again")

def requireEndedSession (db : Database) (live : OwnerLiveness) (session : ExecutionSession) : Result Unit := do
  require (db.executionSessions.find session.sessionId == some session)
    (.runtime "Cleanup session changed after observation")
  if session.status == .running then
    let _ ← requireAdmittedReservationScope db session.sessionId
  refuse (live.session session) (.runtime "Cleanup owning session is still active")

def requireEndedSessions (db : Database) (live : OwnerLiveness) : Option ExecutionSession → Result Unit
  | none => .ok ()
  | some session => requireEndedSession db live session

def requireReceiptUnchanged {Intent : Type} [DecidableEq Intent] {identity : FileReceipt Intent → String}
    (receipts : Table identity) (row : FileReceipt Intent) : Result Unit := do
  require (receipts.find (identity row) == some row) (.runtime ("Cleanup receipt changed: " ++ identity row))
  validateFileReceipt (identity row) row

def requireCleanupUnchanged (db : Database) (live : OwnerLiveness) : CleanupPlan → Result Unit
  | .preparation receipt attempt guards session _ => do
      requireReceiptUnchanged db.preparationReceipts receipt
      requireRecoverableAttempt db live attempt guards
      requireEndedSessions db live session
  | .attempt attempt guards session => do
      require (db.preparationAttempts.find attempt.operationId == some attempt)
        (.runtime ("Cleanup receipt changed: " ++ attempt.operationId))
      requireRecoverableAttempt db live attempt guards
      requireEndedSessions db live session
  | .input receipt owner session => do
      requireReceiptUnchanged db.inputPublications receipt
      require ((← readExecutionOwner db receipt.intent.executionId) == some owner)
        (.runtime "Cleanup input producing owner changed")
      validateInputEdge db owner receipt.intent.receiverNode
      requireEndedSession db live session

def requireRestored (restored : Bool) : Result Unit := require restored (.runtime "Cleanup files were not restored")

def retireAttempt (db : Database) (expected : PreparationAttempt) (guards : List ReceiverMutationGuard)
    (now : Timestamp) : Result Database := do
  let outcome ← attemptOutcome db expected
  let (receipts, _) ← checkedAttemptReceipts db expected
  refuse (outcome == .interrupted) (.runtime "Cleanup attempt still requires prepared file recovery")
  let released ← releaseGuards db expected.operationId guards
    (.runtime "Cleanup receiver guard count changed before release")
  let attempts ← released.preparationAttempts.changeOne expected.operationId
    (fun row => row.state == .preparing || row.state == .interrupted)
    (fun row => { row with state := outcome, finishedAt := some now })
    (.runtime "Cleanup attempt changed before retirement")
  let next := { released with preparationAttempts := attempts }
  let retired := { expected with state := outcome, finishedAt := some now }
  requireExactAttempt next retired []
  let (observed, _) ← checkedAttemptReceipts next retired
  let final ← attemptOutcome next retired
  require (observed == receipts && final == outcome) (.runtime "Cleanup receipts changed during attempt retirement")
  return next

def retireSettled (db : Database) (attempt : PreparationAttempt) (guards : List ReceiverMutationGuard)
    (now : Timestamp) : Result Database :=
  if (attemptReceipts db attempt.operationId).any fun row => row.state == .prepared then .ok db
  else retireAttempt db attempt guards now

def finishCleanupReceipt (live : OwnerLiveness) (db : Database) (plan : CleanupPlan) (restored : Bool)
    (now : Timestamp) : Result Database := do
  requireCleanupUnchanged db live plan
  match plan with
  | .preparation receipt attempt guards _ _ => do
      requireRestored restored
      let receipts ← finishFileReceipt db.preparationReceipts receipt .aborted
      retireSettled { db with preparationReceipts := receipts } attempt guards now
  | .attempt attempt guards _ => retireSettled db attempt guards now
  | .input receipt _ _ => do
      requireRestored restored
      let receipts ← finishFileReceipt db.inputPublications receipt .aborted
      return { db with inputPublications := receipts }

end MicroWorkflow
