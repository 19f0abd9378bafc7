import MicroWorkflow.ApiAdmission
import MicroWorkflow.ComponentExecution
import MicroWorkflow.OverrideTransitions

set_option autoImplicit false

namespace MicroWorkflow

open Lib (require refuse orRaise each collect thread Table)

def readInterruptSessionBoundaries (db : Database) (sessionId : String) : Result (List ExecutionFence) := do
  let boundaries ← collect (readInterruptExecutionFences db sessionId) (selectedKeys db sessionId)
  return boundaries.flatten.eraseDups

def ExecutionFence.text (fence : ExecutionFence) : String :=
  ", ".intercalate (fence.component ++ [toString fence.shapeId, toString fence.alignmentGeneration,
    fence.sourceSessionId])

def boundaryDetails (db : Database) (sessionId outcome : String) : Result (Option Details) :=
  if outcome = "stopped" then do
    let boundaries ← readInterruptSessionBoundaries db sessionId
    if boundaries.isEmpty then return none else
    let session ← orRaise (db.executionSessions.find sessionId) (.runtime "Stopped session lost its running details")
    return some (session.details.set "post_interrupt_boundaries" (.list (boundaries.map ExecutionFence.text)))
  else .ok none

structure ScopeExit where
  returned : Nat
  released : Option Nat
deriving DecidableEq, Repr

def releaseTargetHold (db : Database) (admission : InterruptAdmission) : Result (Table ComponentHold.key) :=
  if admission.state = .frozen then
    db.componentHolds.removeOne (admission.sessionId, admission.targetComponentKey) (fun hold => hold.holdCount == 1)
      (.runtime "Interrupt exit lost its exact target hold")
  else .ok db.componentHolds

def endInterruptAdmission (db : Database) (admission : InterruptAdmission) (finishedAt : Timestamp) :
    Result Database := do
  let holds ← releaseTargetHold db admission
  if admission.state = .settled then return { db with componentHolds := holds } else
  let admissions ← db.interruptAdmissions.changeOne admission.sessionId (fun row => row.state == admission.state)
    (fun row => { row with state := .settled, settledAt := some finishedAt })
    (.runtime "Interrupt admission changed before session exit") (settled_session finishedAt)
  return { db with
    componentHolds := holds
    interruptPauseRequests := releasePauses db admission.sessionId finishedAt
    interruptAdmissions := admissions }

def canReturn (db : Database) (probe : Probe) (transfer : InterruptScopeTransfer) : Bool :=
  match db.executionSessions.find transfer.sourceSessionId with
  | none => false
  | some source =>
      source.status == .running && db.sessionComponents.contains (transfer.sourceSessionId, transfer.componentKey)
        && (executionSessionLiveness probe source).live

def handBack (db : Database) (probe : Probe) (transfer : InterruptScopeTransfer) (error : Error) :
    Result (Table ComponentReservation.componentKey) :=
  let held := fun (row : ComponentReservation) => row.sessionId == transfer.childSessionId
  if canReturn db probe transfer then
    db.componentReservations.changeOne transfer.componentKey held
      (fun row => { row with sessionId := transfer.sourceSessionId }) error
  else db.componentReservations.removeOne transfer.componentKey held error

def finishTransfer (probe : Probe) (finishedAt : Timestamp) (db : Database) (transfer : InterruptScopeTransfer) :
    Result Database := do
  let changed := Error.runtime "Interrupt scope transfer changed before session exit"
  let reservations ← handBack db probe transfer changed
  let transfers ← db.interruptScopeTransfers.changeOne transfer.key (fun row => row.state == .active)
    (fun row => { row with
      state := if canReturn db probe transfer then .returned else .released
      finishedAt := some finishedAt })
    changed
  return { db with componentReservations := reservations, interruptScopeTransfers := transfers }

def activeTransfersInto (db : Database) (child : String) : List InterruptScopeTransfer :=
  (transferRows db child).filter fun row => row.state = .active

def finishInterruptSessionScope (db : Database) (probe : Probe) (sessionId : String) (finishedAt : Timestamp) :
    Result (ScopeExit × Database) :=
  match db.interruptAdmissions.find sessionId with
  | none => .ok (⟨0, none⟩, db)
  | some admission => do
      let ended ← endInterruptAdmission db admission finishedAt
      let transfers := activeTransfersInto ended sessionId
      let next ← thread (finishTransfer probe finishedAt) ended transfers
      let returned := transfers.countP (canReturn ended probe)
      return (⟨returned, some (transfers.length - returned)⟩, next)

def requireTerminalInterruptScope (db : Database) (sessionId : String) : Result Unit :=
  match db.interruptAdmissions.find sessionId with
  | none => .ok ()
  | some admission => do
      require (admission.state == .settled) (.runtime "Terminal interrupt session retains an active admission")
      refuse ((db.interruptScopeTransfers.rows.any fun row => row.childSessionId = sessionId && row.state = .active)
          || db.interruptPauseRequests.rows.any fun row => row.childSessionId = sessionId
            && (row.state = .requested || row.state = .acknowledged))
        (.runtime "Terminal interrupt session retains active scope")

structure SessionSettlement where
  outcome : String
  finishedAt : Timestamp
  failures : List String
  componentOutcomes : List ComponentTerminalOutcome
  failedNodes : List String
deriving DecidableEq, Repr

structure SettledSession where
  released : Nat
  returned : Option Nat
deriving DecidableEq, Repr

def runningOwned (db : Database) (sessionId : String) : List Component :=
  (reservedKeys db sessionId).filter fun key =>
    (db.componentStates.find key).any fun state => state.lifecycle == .running

def requireIdleNode (db : Database) (node : String) : Result Unit :=
  match db.jobs.rows.find? fun row => row.nodeName = node && (row.status = .running || row.activeExecutionId.isSome) with
  | some row => .error (.executionSessionHasActiveJobs ("Session settlement still has active job " ++ address node row.jobId))
  | none => .ok ()

def transferSources (db : Database) (sessionId : String) : List String :=
  sortedDistinct ((activeTransfersInto db sessionId).map InterruptScopeTransfer.sourceSessionId)

def requireSourceScope (db : Database) (source : String) : Result Unit :=
  if sessionRunning db source then do
    let _ ← requireAdmittedReservationScope db source
    return ()
  else .ok ()

def failNodes (db : Database) (failedNodes ownedNodes : List String) : Result (Table NodeRow.nodeName) := do
  require (failedNodes.all fun node => node ∈ ownedNodes)
    (.runtime "Failed nodes are outside the session reserved scope")
  return db.nodes.modify (fun row => row.nodeName ∈ failedNodes) fun row => { row with status := some "failed" }

def terminalSession (settlement : SessionSettlement) (boundaries : Option Details) (row : ExecutionSession) :
    ExecutionSession :=
  { row with
    status := .terminal
    outcome := some settlement.outcome
    finishedAt := some settlement.finishedAt
    failures := settlement.failures
    details := boundaries.getD row.details }

def validateSettlement (db : Database) (sessionId : String) (settlement : SessionSettlement) :
    Result (List ComponentTerminalOutcome × Option Details) := do
  let _ ← requireAdmittedReservationScope db sessionId
  let outcomes ← normalizeComponentTerminalOutcomes settlement.componentOutcomes
  let boundaries ← boundaryDetails db sessionId settlement.outcome
  validateComponentTerminalOutcomes db sessionId outcomes
  let supplied := outcomes.map fun outcome => encodeComponentKey outcome.component
  require ((runningOwned db sessionId).all fun key => key ∈ supplied)
    (.runtime "Terminal settlement omitted an owned running component")
  each (requireIdleNode db) ((reservedKeys db sessionId).flatten.insertionSort (· ≤ ·))
  return (outcomes, boundaries)

def validateTerminalInterrupt (db : Database) (sessionId : String) (released : Option Nat) : Result Unit :=
  match released with
  | none => .ok ()
  | some _ => do
      let _ ← readInterruptAdmission db sessionId
      requireTerminalInterruptScope db sessionId

def closeSession (db : Database) (sessionId : String) (settlement : SessionSettlement) (boundaries : Option Details)
    (reserved : List Component) (scope : ScopeExit) : Result (SettledSession × Database) := do
  let nodes ← failNodes db settlement.failedNodes reserved.flatten
  let sessions ← db.executionSessions.changeOne sessionId (fun row => row.status == .running)
    (terminalSession settlement boundaries) (.runtime "Execution session changed before terminal settlement")
  let released := (reservedKeys db sessionId).length
  let transferred := match scope.released with
    | none => 0
    | some interruptReleased => scope.returned + interruptReleased
  require (released + transferred == reserved.length)
    (.runtime "Execution session reservations changed before terminal settlement")
  let next := clearThreadOverridesForSession { db with
    nodes := nodes
    executionSessions := sessions
    componentReservations := db.componentReservations.delete fun row => row.sessionId = sessionId } sessionId
  validateTerminalInterrupt next sessionId scope.released
  return (⟨released + scope.released.getD 0, scope.released.map fun _ => scope.returned⟩, next)

def settleExecutionSession (db : Database) (probe : Probe) (coverage : SampleCoverage) (sessionId : String)
    (settlement : SessionSettlement) : Result (SettledSession × Database) := do
  let (outcomes, boundaries) ← validateSettlement db sessionId settlement
  let reserved := reservedKeys db sessionId
  let cleared ← clearApiExecutionPermitsForSession db sessionId
  let published ← publishComponentTerminalOutcomes cleared coverage sessionId outcomes settlement.finishedAt
  let (scope, finished) ← finishInterruptSessionScope published probe sessionId settlement.finishedAt
  each (requireSourceScope finished) (transferSources published sessionId)
  closeSession finished sessionId settlement boundaries reserved scope

end MicroWorkflow
