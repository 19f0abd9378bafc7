import MicroWorkflow.InputPublications
import MicroWorkflow.Restart

set_option autoImplicit false

namespace MicroWorkflow

open Lib (require refuse orRaise each collect Table)

structure DatabaseTarget where
  job : Job
  jobInstance : JobInstance
  owner : Option ExecutionOwner
  events : List JobEvent
deriving DecidableEq, Repr

structure RestartManifest where
  request : RestartRequest
  componentPlan : Option RestartPlan
  targets : List RestartTarget
  database : List DatabaseTarget
deriving DecidableEq, Repr

structure RestartIntent where
  operationId : String
  sessionId : Option String
  manifest : RestartManifest
deriving DecidableEq, Repr

abbrev RestartReceipt := FileReceipt RestartIntent

def RestartReceipt.operationId (row : RestartReceipt) : String := row.intent.operationId

abbrev RestartReceipts := Table RestartReceipt.operationId

structure RestartDecision where
  database : List DatabaseTarget
  nodes : List (Option NodeRow)
  previousRestartRevision : Nat
  restartRevision : Nat
deriving DecidableEq, Repr

def targetDisappeared : Error := .runtime "Restart target identity disappeared before receipt preparation"

def ownerRow (db : Database) : Option ExecutionOwner → Result (Option ExecutionOwner)
  | none => .ok none
  | some owner => (orRaise (db.jobExecutionOwners.find owner.executionId) targetDisappeared).map some

def databaseTarget (db : Database) (target : RestartTarget) : Result DatabaseTarget := do
  let job ← orRaise (db.jobs.find target.address) targetDisappeared
  let jobInstance ← orRaise (db.jobInstances.find target.address) targetDisappeared
  let owner ← ownerRow db target.owner
  return ⟨job, jobInstance, owner, db.jobEvents.filter fun event => event.address = target.address⟩

def databaseTargets (db : Database) (targets : List RestartTarget) : Result (List DatabaseTarget) :=
  collect (databaseTarget db) targets

def requireNoPreparedOverlap (receipts : RestartReceipts) (targets : List RestartTarget) : Result Unit :=
  each (fun (row : RestartReceipt) => do
    validateFileReceipt row.operationId row
    refuse (row.intent.manifest.targets.any fun pending => pending.address ∈ targets.map RestartTarget.address)
      (.runtime "Restart target already has an interrupted restart operation"))
    (receipts.select fun row => row.state == .prepared)

def restartDecision (db : Database) (targets : List RestartTarget) (previousRevision : Nat) : Result RestartDecision := do
  let database ← databaseTargets db targets
  return ⟨database, (componentKey (targets.map RestartTarget.node)).map db.nodes.find, previousRevision,
    db.jobRestartRevision⟩

def validateDecidedTarget (request : RestartRequest) (target : RestartTarget) (previous current : DatabaseTarget) :
    Result Unit := do
  require (current.job == restartRow request target previous.job && current.jobInstance == previous.jobInstance
      && current.owner == previous.owner && current.events.length == previous.events.length + 2
      && current.events.take previous.events.length == previous.events)
    (.runtime "Committed restart decision changed its target state")
  require (current.events.drop previous.events.length == restartEvents request true target)
    (.runtime "Committed restart decision has invalid events")

def validateRestartTerminalDecision (manifest : RestartManifest) (details : RestartDecision) : Result Unit := do
  require (details.restartRevision == details.previousRestartRevision + 1
      && details.database.length == manifest.database.length)
    (.runtime "Invalid committed restart decision")
  each (fun entry => validateDecidedTarget manifest.request entry.1 entry.2.1 entry.2.2)
    (manifest.targets.zip (manifest.database.zip details.database))
  require (details.nodes.all fun row => row.bind NodeRow.status == some "running")
    (.runtime "Committed restart decision has invalid node states")

def requireRestartPreState (db : Database) (manifest : RestartManifest) : Result Unit := do
  let current ← databaseTargets db manifest.targets
  require (current == manifest.database) (.runtime "Restart target state changed after receipt preparation")

def prepareReceipt (receipts : RestartReceipts) (intent : RestartIntent) : Result RestartReceipts :=
  insertFileReceipt receipts (preparedReceipt intent)

def commitReceipt (db : Database) (receipts : RestartReceipts) (intent : RestartIntent) (previousRevision : Nat) :
    Result RestartReceipts := do
  let details ← restartDecision db intent.manifest.targets previousRevision
  let finished ← finishFileReceipt receipts (preparedReceipt intent) .committed
  validateRestartTerminalDecision intent.manifest details
  return finished

def abortReceipt (db : Database) (receipts : RestartReceipts) (intent : RestartIntent) (restored : Bool) :
    Result RestartReceipts := do
  requirePreparedFileReceipt receipts (preparedReceipt intent)
  requireRestartPreState db intent.manifest
  require restored (.runtime "Restart did not restore the original output")
  finishFileReceipt receipts (preparedReceipt intent) .aborted

end MicroWorkflow
