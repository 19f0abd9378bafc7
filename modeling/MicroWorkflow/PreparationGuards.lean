import MicroWorkflow.Membership
import MicroWorkflow.Ownership

set_option autoImplicit false

namespace MicroWorkflow

open Lib (require refuse orRaise each Table)

section Receipts

variable {Intent : Type} [DecidableEq Intent]

def validateDecision (operationId : String) (row : FileReceipt Intent) (decision : ReceiptDecision Intent) :
    Result Unit :=
  require (row.state != .prepared && decision.operationId == operationId && decision.state == row.state
      && decision.intentDigest == row.intentDigest && row.decisionDigest == some decision)
    (.runtime ("File operation terminal decision changed: " ++ operationId))

def validateFileReceipt (operationId : String) (row : FileReceipt Intent) : Result Unit := do
  require (validInstance operationId) (.runtime "Invalid file operation identity")
  require (row.intentDigest == row.intent)
    (.runtime ("File operation immutable intent changed: " ++ operationId))
  if row.state == .prepared then
    require (row.decision.isNone && row.decisionDigest.isNone)
      (.runtime ("Prepared file operation has a terminal decision: " ++ operationId))
  else
    let decision ← orRaise row.decision (.runtime ("File operation has no terminal decision: " ++ operationId))
    validateDecision operationId row decision

def preparedReceipt (intent : Intent) : FileReceipt Intent := ⟨intent, .prepared, intent, none, none⟩

def finishedReceipt (operationId : String) (row : FileReceipt Intent) (state : ReceiptState) : FileReceipt Intent :=
  let decision : ReceiptDecision Intent := ⟨operationId, state, row.intentDigest⟩
  { row with state := state, decision := some decision, decisionDigest := some decision }

end Receipts

def validatePreparationReceipt (row : PreparationReceipt) : Result Unit :=
  validateFileReceipt row.operationId row

def refuseUnfinishedPreparation (db : Database) (receiver : String) : Result Unit :=
  each (fun row => do
    validatePreparationReceipt row
    refuse (row.state == .prepared) (.runtime ("Receiver " ++ receiver ++ " has unfinished preparation " ++
      row.operationId ++ " requiring recovery")))
    (db.preparationReceipts.select fun row => receiver ∈ row.intent.manifest.receivers)

def ReceiverMutationGuard.owner (guard : ReceiverMutationGuard) : String :=
  match guard.sessionId.filter fun session => session != "" with
  | some session => session
  | none => "process " ++ toString guard.ownerPid ++ " operation " ++ guard.operationId

def refuseReceiverMutation (db : Database) (receiver : String) : Result Unit :=
  match db.receiverMutationGuards.find receiver with
  | some guard => .error (.runtime ("Receiver " ++ receiver ++ " is guarded by " ++ guard.owner))
  | none => refuseUnfinishedPreparation db receiver

def frozenTarget (db : Database) (sessionId : String) (key : Component) : Bool :=
  (db.interruptAdmissions.find sessionId).any fun admission =>
    admission.targetComponentKey == key && admission.state == .frozen

def publicationOwner (db : Database) : Option String → Result (Option ExecutionOwner)
  | none => .ok none
  | some executionId => readExecutionOwner db executionId

def refuseInterruptHeldPublication (db : Database) (receiver : String) (producerExecutionId : Option String) :
    Result Unit := do
  match ← readActiveComponentForNode db receiver with
  | none => return ()
  | some component =>
      let key := encodeComponentKey component
      let holders := db.componentHolds.select fun hold =>
        hold.componentKey = key && decide (0 < hold.holdCount) && frozenTarget db hold.sessionId key
      match holders with
      | [] => return ()
      | [hold] =>
          let owner ← publicationOwner db producerExecutionId
          require (owner.any fun owner => owner.sessionId == hold.sessionId)
            (.runtime ("Interrupt target hold refuses publication into " ++ receiver))
      | _ => throw (.runtime "Interrupt target has ambiguous component holds")

variable {db : Database} {receiver : String} {guard : ReceiverMutationGuard}

theorem guarded_receiver_refused (guarded : db.receiverMutationGuards.find receiver = some guard) :
    ∃ error, refuseReceiverMutation db receiver = .error error := by
  refine ⟨.runtime ("Receiver " ++ receiver ++ " is guarded by " ++ guard.owner), ?_⟩
  simp only [refuseReceiverMutation, guarded]

theorem receiver_mutation_open (accepted : refuseReceiverMutation db receiver = .ok ()) :
    db.receiverMutationGuards.find receiver = none := by
  cases guarded : db.receiverMutationGuards.find receiver with
  | none => rfl
  | some guard =>
      obtain ⟨error, refused⟩ := guarded_receiver_refused guarded
      rw [refused] at accepted
      exact absurd accepted (by simp)

end MicroWorkflow
