import MicroWorkflow.Ownership

set_option autoImplicit false

namespace MicroWorkflow

open Lib (require refuse orRaise each collect)

def sortedDistinct (texts : List String) : List String := texts.dedup.insertionSort (· ≤ ·)

def pauseBlocks (db : Database) (sessionId : String) (key : Component) (request : InterruptPauseRequest) : Bool :=
  request.ownerSessionId == sessionId && request.componentKey == key
    && (request.state == .requested || request.state == .acknowledged)
    && match db.interruptAdmissions.find request.childSessionId with
      | some admission => admission.state == .admitted || admission.state == .frozen
      | none => false

def sessionRunning (db : Database) (sessionId : String) : Bool :=
  match db.executionSessions.find sessionId with
  | some session => session.status == .running
  | none => false

def transferBlocks (db : Database) (sessionId : String) (key : Component) (transfer : InterruptScopeTransfer) : Bool :=
  transfer.sourceSessionId == sessionId && transfer.componentKey == key && transfer.state == .active
    && sessionRunning db transfer.childSessionId

def readInterruptClaimBlockers (db : Database) (sessionId : String) (component : Component) : List String :=
  let key := encodeComponentKey component
  sortedDistinct (
    ((db.interruptPauseRequests.select (pauseBlocks db sessionId key)).map fun row => row.childSessionId) ++
      (db.interruptScopeTransfers.select (transferBlocks db sessionId key)).map fun row => row.childSessionId)

structure ExecutionFence where
  component : Component
  shapeId : Nat
  alignmentGeneration : Nat
  sourceSessionId : String
deriving DecidableEq, Repr

def fenceAuthorized (db : Database) (sessionId : String) (fence : PostInterruptFence) : Bool :=
  db.sessionFenceAuthorizations.contains
    (sessionId, fence.componentKey, fence.shapeId, fence.alignmentGeneration, fence.sourceSessionId)

def unapprovedFences (db : Database) (sessionId : String) (ancestor : Component) : List ExecutionFence :=
  let key := encodeComponentKey ancestor
  match db.componentStates.find key with
  | none => []
  | some state =>
      match state.retainedResultShapeId, state.retainedResultAlignmentGeneration with
      | some shapeId, some generation =>
          ((db.postInterruptFences.select fun fence =>
              fence.componentKey = key && fence.shapeId = shapeId && fence.alignmentGeneration = generation
                && fence.sourceSessionId != sessionId && !fenceAuthorized db sessionId fence).insertionSort
            fun left right => left.sourceSessionId ≤ right.sourceSessionId).map
            fun fence => ⟨ancestor, shapeId, generation, fence.sourceSessionId⟩
      | _, _ => []

def readInterruptExecutionFences (db : Database) (sessionId : String) (component : Component) :
    Result (List ExecutionFence) := do
  let missing := Error.runtime "Interrupt fence check requires its execution session"
  let session ← orRaise (db.executionSessions.find sessionId) missing
  let shape ← orRaise (db.graphShapes.find session.admittedShapeId) missing
  let ancestors ← componentAncestors shape.shapeJson component
  return ancestors.flatMap (unapprovedFences db sessionId)

def requireInterruptFenceAuthority (db : Database) (sessionId : String) (key : Component) : Result Unit := do
  let fences ← readInterruptExecutionFences db sessionId key
  require fences.isEmpty (.runtime "Post-interrupt fence refuses component admission")

end MicroWorkflow
