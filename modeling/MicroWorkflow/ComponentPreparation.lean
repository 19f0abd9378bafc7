import MicroWorkflow.ComponentExecution
import MicroWorkflow.JobPreparation

set_option autoImplicit false

namespace MicroWorkflow

open Lib (require refuse orRaise each collect thread Table)

def runningSessions (db : Database) : List ExecutionSession :=
  db.executionSessions.select fun row => row.status == .running

def refuseLiveSessionsForReset (db : Database) : Result Unit :=
  let live := ((runningSessions db).map ExecutionSession.sessionId).insertionSort (· ≤ ·)
  require live.isEmpty (.runtime ("Reset requires no live execution sessions: " ++ ", ".intercalate live))

def requireResetScope (db : Database) (key : Component) : Result Unit := do
  refuseLiveSessionsForReset db
  require (reservationOwner db key).isNone (.runtime "Reset component retains a reservation")

def requireFreshScope (db : Database) (sessionId : String) (key : Component) : Result Unit := do
  require (sessionRunning db sessionId && db.sessionComponents.contains (sessionId, key))
    (.runtime "Full preparation requires a running selected component owner")
  require (reservationOwner db key == some sessionId)
    (.runtime "Full preparation requires the exact component reservation")
  let roots ← readSessionJobRoots db sessionId
  require roots.isEmpty (.runtime "Selected-job preparation cannot realign a full component")
  requireInterruptFenceAuthority db sessionId key

def authorizedInterruptHold (db : Database) (sessionId : Option String) (key : Component) (holds : List ComponentHold) :
    Bool :=
  match sessionId, holds with
  | some sessionId, [hold] =>
      hold.sessionId == sessionId && hold.holdCount == 1 && match db.interruptAdmissions.find sessionId with
        | some admission => admission.state == .frozen && admission.targetComponentKey == key
        | none => false
  | _, _ => false

def heldOrPending (db : Database) (sessionId : Option String) (key : Component) : Bool :=
  let holds := db.componentHolds.select fun row => row.componentKey = key
  (!holds.isEmpty && !authorizedInterruptHold db sessionId key holds)
    || db.pendingComponentExecutions.rows.any fun row => row.componentKey = key

def requirePreparationScope (db : Database) (sessionId : Option String) (key : Component) : Result Unit :=
  match sessionId with
  | none => requireResetScope db key
  | some sessionId => requireFreshScope db sessionId key

def requirePreparationAdmission (db : Database) (sessionId : Option String) (members : Component) : Result Unit :=
  match sessionId with
  | none => .ok ()
  | some sessionId => requireInterruptComponentAdmission db sessionId members

def readComponentPreparation (db : Database) (sessionId : Option String) (members : Component) (expectedShape : Shape) :
    Result ComponentStateSnapshot := do
  requirePreparationAdmission db sessionId members
  let key := encodeComponentKey members
  requirePreparationScope db sessionId key
  refuse (heldOrPending db sessionId key) (.runtime "Full preparation cannot change a held or pending component")
  refuse (members.any fun node => !(activeJobRows db node).isEmpty)
    (.runtime "Full preparation cannot change active component jobs")
  let state ← readComponentStatesSnapshot db members expectedShape
  refuse (state.lifecycle == .running) (.runtime "Full preparation cannot change a running component")
  return state

structure FullPreparation where
  sessionId : Option String
  component : Component
  expectedState : ComponentStateSnapshot
  targetShape : Option Shape
  jobPreparation : List NodeJobPreparation
  keepTrace : Bool
  eventTime : Timestamp
deriving DecidableEq, Repr

def definedShapeId (db : Database) (key : Component) (shapeJson : Shape) : Option Nat := do
  let row ← findShape db shapeJson
  if db.componentDefinitions.contains (key, row.shapeId) then some row.shapeId else none

def requireAdmittedTarget (db : Database) (sessionId : Option String) (shapeId : Nat) : Result Unit :=
  match sessionId with
  | none => .ok ()
  | some sessionId =>
      require ((db.executionSessions.find sessionId).map ExecutionSession.admittedShapeId == some shapeId)
        (.runtime "Full preparation differs from its admitted graph shape")

def unchangedSnapshot (expected : ComponentStateSnapshot) (row : ComponentState) : Bool :=
  row.lifecycle == expected.lifecycle && row.stability == expected.stability
    && row.instabilityOrigin == expected.instabilityOrigin && row.misaligned == expected.misaligned
    && row.alignmentGeneration == expected.alignmentGeneration

def realigned (shapeId alignmentGeneration : Nat) (row : ComponentState) : ComponentState :=
  { row with
    shapeId := shapeId
    retainedResultShapeId := none
    retainedResultAlignmentGeneration := none
    lifecycle := .queued
    stability := none
    instabilityOrigin := none
    misaligned := false
    alignmentGeneration := alignmentGeneration }

def coversComponent (preparations : List NodeJobPreparation) (members : Component) : Bool :=
  preparations.isEmpty || (preparations.length == members.length
    && sameElements (preparations.map NodeJobPreparation.node) members)

def completeComponentPreparation (db : Database) (request : FullPreparation) : Result (Nat × Database) := do
  let members ← observationComponent request.component
  let expected := request.expectedState
  require (expected.members == members) (.value "Full preparation requires an exact captured component observation")
  let key := encodeComponentKey members
  require (coversComponent request.jobPreparation members)
    (.value "Job preparation must cover the exact full component")
  let state ← readComponentPreparation db request.sessionId members expected.shapeJson
  let changed := Error.runtime "Component changed during full preparation"
  require (state == expected) changed
  let target ← orRaise (definedShapeId db key (request.targetShape.getD expected.shapeJson))
    (.runtime "Full preparation target shape is not registered")
  requireAdmittedTarget db request.sessionId target
  let prepared ← applyJobPreparation db request.jobPreparation request.keepTrace request.eventTime
  let states ← prepared.componentStates.changeOne key (unchangedSnapshot expected)
    (realigned target (expected.alignmentGeneration + 1)) changed
  return (expected.alignmentGeneration + 1, { prepared with componentStates := states })

structure ComponentFailure where
  sessionId : String
  component : Component
  expectedShape : Shape
  expectedAlignmentGeneration : Nat
deriving DecidableEq, Repr

def runningAsRead (row current : ComponentState) : Bool :=
  current.lifecycle == .running && !current.misaligned && current.alignmentGeneration == row.alignmentGeneration
    && current.stability == row.stability && current.instabilityOrigin == row.instabilityOrigin

def failRunningComponent (db : Database) (failure : ComponentFailure) : Result Database := do
  let key ← observationComponent failure.component
  require (sessionRunning db failure.sessionId) (.runtime "Component failure requires an existing running session")
  require (reservationOwner db key == some failure.sessionId)
    (.runtime "Component failure requires the exact component reservation")
  require (db.sessionComponents.contains (failure.sessionId, key))
    (.runtime "Component is outside the session selected scope")
  let row ← orRaise (db.componentStates.find key) (.runtime "Unknown component")
  require (db.componentDefinitions.contains (key, row.shapeId)) (.runtime "Unknown component")
  let shape ← orRaise (db.graphShapes.find row.shapeId)
    (.runtime "Incomplete component state or producing graph shape")
  require (shape.shapeJson == failure.expectedShape)
    (.runtime "Component failure requires the expected producing graph shape")
  require (validLifecycle db row) (.runtime "Invalid component state")
  require (row.lifecycle == .running && !row.misaligned
      && row.alignmentGeneration == failure.expectedAlignmentGeneration)
    (.runtime "Failure requires an aligned running component at the expected generation")
  let states ← db.componentStates.changeOne key (runningAsRead row)
    (fun row => { row with lifecycle := .failed, stability := none, instabilityOrigin := none })
    (.runtime "Component changed before failure")
  return { db with componentStates := states }

-- The first causes of a misaligned component are read from and recorded in their own table; here they only
-- choose the branch and may refuse.
structure ArrivalCauses where
  receivers : Database → ComponentStateSnapshot → Result (List String)
  recorded : Database → String → ComponentStateSnapshot → Result Unit

structure Arrival where
  receiver : String
  state : ComponentStateSnapshot
  latched : Bool
deriving DecidableEq, Repr

def misalignable (state : ComponentStateSnapshot) (row : ComponentState) : Bool :=
  !row.misaligned && row.alignmentGeneration == state.alignmentGeneration
    && (row.lifecycle == .done || row.lifecycle == .sampled || row.lifecycle == .failed)

def misalign (db : Database) (state : ComponentStateSnapshot) : Result Database :=
  if state.misaligned then .ok db else do
  let states ← db.componentStates.changeOne (encodeComponentKey state.members) (misalignable state)
    (fun row => { row with misaligned := true }) (.runtime "Managed arrival receiver changed before publication")
  return { db with componentStates := states }

def markComponentArrival (causes : ArrivalCauses) (db : Database) (arrival : Arrival) : Result Database :=
  let state := arrival.state
  if state.misaligned && arrival.latched then .ok db else do
  let receivers ← causes.receivers db state
  if state.lifecycle == .queued || state.lifecycle == .running then return db else
  if arrival.receiver ∈ receivers then return db else
  let next ← misalign db state
  causes.recorded next arrival.receiver state
  return next

def requireReceiverShape (members : Component) (receiver : String) (expectedShape : Option Shape) : Result Unit :=
  match expectedShape with
  | none => .ok ()
  | some shape => do
      let expected ← componentSnapshotFromShape shape
      require (members ∈ expected && receiver ∈ members)
        (.runtime "Managed receiver membership requires fresh preparation")

def readJobReceiverState (db : Database) (receiver : String) (expectedShape : Option Shape) :
    Result (Option ComponentStateSnapshot) := do
  match ← readActiveComponentForNode db receiver with
  | none => return none
  | some members =>
      requireReceiverShape members receiver expectedShape
      let state ← orRaise (← readComponentStateSnapshot db members)
        (.runtime "Managed receiver component state is missing")
      let snapshot ← componentSnapshotFromShape state.shapeJson
      require (members ∈ snapshot) (.runtime "Managed receiver does not match its producing shape")
      let _ ← readComponentProducingIdentity db members
      return some state

def requireCreator (db : Database) (creator : Option String) : Result Unit :=
  match creator with
  | none => .ok ()
  | some creator => do
      let owner ← readExecutionOwner db creator
      require owner.isSome (.runtime "Managed job producer has no historical execution identity")

def markComponentJobArrival (causes : ArrivalCauses) (db : Database) (receiver : String) (jobId : Nat)
    (expectedShape : Option Shape) (latched : Bool) : Result Database := do
  let identity ← orRaise (db.jobInstances.find (receiver, jobId))
    (.runtime "Managed job arrival requires its inserted instance")
  match ← readJobReceiverState db receiver expectedShape with
  | none => return db
  | some state =>
      requireCreator db identity.createdByExecutionId
      markComponentArrival causes db ⟨receiver, state, latched⟩

def markComponentInputArrival (causes : ArrivalCauses) (db : Database) (receiver : String) (owner : ExecutionOwner)
    (latched : Bool) : Result Database := do
  let shape ← orRaise (db.graphShapes.find owner.shapeId) (.runtime "Managed input producing graph shape is missing")
  let state ← orRaise (← readJobReceiverState db receiver (some shape.shapeJson))
    (.runtime "Managed input receiver has no established membership")
  markComponentArrival causes db ⟨receiver, state, latched⟩

def markComponentPreparationChange (causes : ArrivalCauses) (db : Database) (receiver : String) (latched : Bool) :
    Result Database := do
  match ← readJobReceiverState db receiver none with
  | none => return db
  | some state => markComponentArrival causes db ⟨receiver, state, latched⟩

end MicroWorkflow
