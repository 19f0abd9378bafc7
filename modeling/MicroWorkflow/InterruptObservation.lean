import MicroWorkflow.SessionScope

set_option autoImplicit false

namespace MicroWorkflow

open Lib (require refuse orRaise each collect Table)

def storedInterruptComponent (key : Component) (label : String) : Result Component := do
  require (!key.isEmpty && encodeComponentKey key == key) (.runtime ("Damaged interrupt " ++ label))
  return key

structure FrozenIdentity where
  shapeId : Nat
  alignmentGeneration : Nat
  lineage : Stability × Option String
  frozenAt : Timestamp
deriving DecidableEq, Repr

structure InterruptObservation where
  session : SessionSnapshot
  targetComponent : Component
  readinessOverrideRequested : Bool
  readinessOverridden : Option Bool
  state : AdmissionState
  frozenIdentity : Option FrozenIdentity
  parents : List String
  transfers : List InterruptScopeTransfer
  pauses : List (InterruptPauseRequest × List InterruptPausedExecution)
  frozenParentStates : List ComponentStateSnapshot
  targetHold : Nat
deriving DecidableEq, Repr

def readFrozenIdentity (admission : InterruptAdmission) : Result (Option FrozenIdentity) :=
  match admission.frozenShapeId with
  | none => do
      refuse (admission.state == .frozen) (.runtime "Frozen interrupt admission has no target identity")
      return none
  | some shapeId =>
      match admission.frozenAlignmentGeneration, admission.frozenAt, admission.frozenStability with
      | some generation, some frozenAt, some stability => do
          require (outcomeLineageIsValid (some stability) admission.frozenInstabilityOrigin)
            (.runtime "Interrupt admission has invalid frozen identity")
          return some ⟨shapeId, generation, (stability, admission.frozenInstabilityOrigin), frozenAt⟩
      | _, _, _ => .error (.runtime "Interrupt admission has invalid frozen identity")

def transferRows (db : Database) (child : String) : List InterruptScopeTransfer :=
  (db.interruptScopeTransfers.select fun row => row.childSessionId = child).insertionSort fun left right =>
    left.componentKey ≤ right.componentKey

def readTransfer (selected : List Component) (parents : List String) (transfer : InterruptScopeTransfer) :
    Result InterruptScopeTransfer := do
  let component ← storedInterruptComponent transfer.componentKey "transfer component"
  require (component ∈ selected) (.runtime "Interrupt transfer is outside selected scope")
  refuse (transfer.transferKind == .directParent && transfer.sourceSessionId ∉ parents)
    (.runtime "Direct-parent transfer has no parent relationship")
  return transfer

def pauseRows (db : Database) (child : String) : List InterruptPauseRequest :=
  (db.interruptPauseRequests.select fun row => row.childSessionId = child).insertionSort fun left right =>
    left.ownerSessionId < right.ownerSessionId
      || (left.ownerSessionId == right.ownerSessionId && decide (left.componentKey ≤ right.componentKey))

def capturedExecutions (db : Database) (request : InterruptPauseRequest) : List InterruptPausedExecution :=
  (db.interruptPausedExecutions.select fun row => row.childSessionId = request.childSessionId
    && row.ownerSessionId = request.ownerSessionId && row.componentKey = request.componentKey).insertionSort
    fun left right => left.executionId ≤ right.executionId

def pausedOwnerIsExact (paused : InterruptPausedExecution) (component : Component) (owner : ExecutionOwner) : Bool :=
  owner.sessionId == paused.ownerSessionId && owner.componentKey == component && owner.nodeName == paused.nodeName
    && owner.jobId == paused.jobId && owner.generation == paused.generation

def readPausedExecution (db : Database) (component : Component) (paused : InterruptPausedExecution) : Result Unit := do
  let lost := Error.runtime "Interrupt pause lost its exact execution owner"
  let owner ← orRaise (← readExecutionOwner db paused.executionId) lost
  require (pausedOwnerIsExact paused component owner) lost

def acknowledgementsDisagree (request : InterruptPauseRequest) (executions : List InterruptPausedExecution) : Bool :=
  let all := executions.all fun paused => paused.acknowledgedAt.isSome
  (request.state == .requested && all) || (request.state == .acknowledged && !all)

def readPause (db : Database) (request : InterruptPauseRequest) :
    Result (InterruptPauseRequest × List InterruptPausedExecution) := do
  let component ← storedInterruptComponent request.componentKey "pause component"
  let executions := capturedExecutions db request
  each (readPausedExecution db component) executions
  refuse executions.isEmpty (.runtime "Interrupt pause request has no captured execution")
  refuse (acknowledgementsDisagree request executions)
    (.runtime "Interrupt pause request disagrees with its acknowledgements")
  return (request, executions)

def validFrozenParent (db : Database) (parent : InterruptFrozenParentState) : Bool :=
  let noLineage := parent.stability.isNone && parent.instabilityOrigin.isNone
  let resultLineage := lineageIsValid db parent.stability parent.instabilityOrigin
  match parent.lifecycle with
  | .queued => noLineage && !parent.misaligned
  | .running => noLineage || resultLineage
  | .sampled | .done => resultLineage
  | .failed => noLineage

def frozenParentRows (db : Database) (child : String) : List (InterruptFrozenParentState × GraphShape) :=
  ((db.interruptFrozenParentStates.select fun row => row.childSessionId = child).insertionSort fun left right =>
    left.componentKey ≤ right.componentKey).filterMap fun row =>
      (db.graphShapes.find row.shapeId).map fun shape => (row, shape)

def readFrozenParent (db : Database) (entry : InterruptFrozenParentState × GraphShape) :
    Result ComponentStateSnapshot := do
  let (parent, shape) := entry
  let component ← storedInterruptComponent parent.componentKey "frozen parent component"
  require (validFrozenParent db parent) (.runtime "Invalid component state")
  let producing ← snapshotOr shape.shapeJson (.runtime "Interrupt frozen parent has a damaged shape")
  require (component ∈ producing) (.runtime "Interrupt frozen parent differs from its historical shape")
  return ⟨component, shape.shapeJson, parent.lifecycle, parent.stability, parent.instabilityOrigin, parent.misaligned,
    parent.alignmentGeneration⟩

def holdCount (db : Database) (sessionId : String) (key : Component) : Nat :=
  match db.componentHolds.find (sessionId, key) with
  | some hold => hold.holdCount
  | none => 0

def ownedThroughTransfers (db : Database) (sessionId : String) (key : Component) (error : Error) : Result Unit := do
  let owner ← orRaise (reservationOwner db key) error
  let reached ← descendsFrom db sessionId key owner
  require reached error

def validateOwnedScope (db : Database) (session : SessionSnapshot) : Result Unit := do
  let sessionId := session.row.sessionId
  let owned := reservedKeys db sessionId
  require (owned.all fun key => key ∈ session.selectedComponents)
    (.runtime "Interrupt owns a reservation outside its selected scope")
  match session.row.status with
  | .running =>
      each (fun key => ownedThroughTransfers db sessionId key
          (.runtime "Running interrupt session lost part of its selected reservation"))
        (session.selectedComponents.filter fun key => key ∉ owned)
  | .terminal => require owned.isEmpty (.runtime "Terminal interrupt session retains selected reservations")

def validateTransferOwnership (db : Database) (sessionId : String) (transfer : InterruptScopeTransfer) : Result Unit :=
  if transfer.componentKey ∈ reservedKeys db sessionId then
    require (transfer.state == .active) (.runtime "Finished interrupt transfer still owns its reservation")
  else if transfer.state = .active then
    ownedThroughTransfers db sessionId transfer.componentKey
      (.runtime "Active interrupt transfer lost its child reservation")
  else .ok ()

def validatePauses (state : AdmissionState) (parents : List String)
    (pauses : List (InterruptPauseRequest × List InterruptPausedExecution)) : Result Unit := do
  require (sameElements parents (pauses.map fun entry => entry.1.ownerSessionId))
    (.runtime "Interrupt parents disagree with pause ownership")
  refuse (state != .settled && pauses.any fun entry => entry.1.state == .released)
    (.runtime "Active interrupt admission has a released predecessor pause")
  refuse (state == .settled && pauses.any fun entry => entry.1.state != .released)
    (.runtime "Settled interrupt admission retains a predecessor pause")

def validateFrozenParents (db : Database) (admission : InterruptAdmission) (session : SessionSnapshot)
    (frozen : Option FrozenIdentity) (parents : List ComponentStateSnapshot) : Result Unit := do
  let shape ← validateSessionShapeSnapshot db session.row.admittedShapeId session.row.partitionRevision
    session.selectedComponents
  let direct ← componentPredecessors shape admission.targetComponentKey
  refuse (admission.state == .admitted && !parents.isEmpty)
    (.runtime "Unfrozen interrupt admission retains parent observations")
  refuse (frozen.isSome && !sameElements (parents.map ComponentStateSnapshot.members) direct)
    (.runtime "Interrupt admission lost its exact frozen parent observations")

def validateHold (state : AdmissionState) (hold : Nat) : Result Unit :=
  require ((state == .frozen) == (hold == 1) && hold ≤ 1) (.runtime "Interrupt hold disagrees with admission state")

def readInterruptAdmission (db : Database) (sessionId : String) : Result (Option InterruptObservation) :=
  match db.interruptAdmissions.find sessionId with
  | none => .ok none
  | some admission => do
      let row ← orRaise (db.executionSessions.find sessionId)
        (.runtime "Interrupt admission has no execution session")
      require row.scopeAdmitted (.runtime "Interrupt admission lost its reservation admission marker")
      let session ← executionSessionFromRowSnapshot db row
      require (row.sessionKind == .interrupt) (.runtime "Interrupt admission has an invalid owning session")
      let target ← storedInterruptComponent admission.targetComponentKey "target component"
      require (target ∈ session.selectedComponents) (.runtime "Interrupt target is outside its session scope")
      refuse (admission.readinessOverridden == some true && !admission.readinessOverrideRequested)
        (.runtime "Interrupt admission has invalid readiness metadata")
      let frozen ← readFrozenIdentity admission
      let parents := readSessionParentIds db sessionId
      let transfers ← collect (readTransfer session.selectedComponents parents) (transferRows db sessionId)
      let pauses ← collect (readPause db) (pauseRows db sessionId)
      validatePauses admission.state parents pauses
      let frozenParents ← collect (readFrozenParent db) (frozenParentRows db sessionId)
      validateFrozenParents db admission session frozen frozenParents
      let hold := holdCount db sessionId admission.targetComponentKey
      validateHold admission.state hold
      validateOwnedScope db session
      each (validateTransferOwnership db sessionId) transfers
      return some ⟨session, target, admission.readinessOverrideRequested, admission.readinessOverridden,
        admission.state, frozen, parents, transfers, pauses, frozenParents, hold⟩

end MicroWorkflow
