import MicroWorkflow.ComponentPreparation
import MicroWorkflow.MembershipChange

set_option autoImplicit false

namespace MicroWorkflow

open Lib (require refuse orRaise each collect thread Table)

structure MembershipRecords where
  history : Database → Result (List HistoricalMembership)
  guarded : Database → String → Bool

def reusable (change : MembershipChange) : Bool :=
  change.historicalMemberships.any HistoricalMembership.hasReusableWork

def requireIdleSession (db : Database) (nodes : List String) (session : ExecutionSession) : Result Unit := do
  let snapshot ← executionSessionFromRowSnapshot db session
  validateExecutionSessionSnapshot snapshot
  refuse (snapshot.selectedComponents.any (meets nodes))
    (.runtime ("Membership changes overlap admitted session " ++ session.sessionId))

def requireIdleMembershipRegion (records : MembershipRecords) (db : Database) (components : List Component) :
    Result Unit := do
  let nodes := components.flatten
  each (requireIdleSession db nodes) (runningSessions db)
  refuse ((db.componentReservations.rows.any fun row => meets nodes row.componentKey)
      || (db.componentHolds.rows.any fun row => meets nodes row.componentKey)
      || db.pendingComponentExecutions.rows.any fun row => meets nodes row.componentKey)
    (.runtime "Membership changes overlap reserved, held, or pending work")
  refuse (nodes.any fun node => records.guarded db node || !(activeJobRows db node).isEmpty)
    (.runtime "Membership changes conflict with active receiver work")

abbrev Projection := List (Component × Nat)

def projectedGeneration (projected : Projection) (component : Component) : Option Nat :=
  (projected.find? fun entry => entry.1 = component).map Prod.snd

def projectTarget (db : Database) (created established : List Component) (change : MembershipChange)
    (projected : Projection) (target : Component) : Result Projection :=
  if target ∈ established ∨ (projectedGeneration projected target).isSome then .ok projected else do
  match ← readComponentStateSnapshot db target with
  | none => return projected ++ [(target, 0)]
  | some state =>
      if target ∈ created then return projected ++ [(target, 0)] else
      let floor := (generationFloor change.historicalMemberships target).getD 0
      return projected ++ [(target, max state.alignmentGeneration floor + 1)]

def projectComponent (db : Database) (active : ActiveComponentPartition) (shape : Shape) (created : List Component)
    (history : List HistoricalMembership) (projected : Projection) (component : Component) : Result Projection := do
  let change ← observeMembershipChange active shape [component] history
  if !change.changesActiveMembership || reusable change then return projected else
  thread (projectTarget db created (active.components.map ActiveComponent.componentKey) change) projected
    change.targetComponents

def readUnproducedComponentStates (records : MembershipRecords) (db : Database) (shape : Shape)
    (created : List Component) : Result Projection := do
  match ← readActiveComponentPartition db with
  | none => return []
  | some active =>
      let history ← records.history db
      thread (projectComponent db active shape created history) [] shape.hoefleinComponents

def realignTarget (shapeId : Nat) (projected : Projection) (db : Database) (target : Component) : Result Database :=
  match projectedGeneration projected target with
  | none => .ok db
  | some generation => do
      let states ← db.componentStates.changeOne (encodeComponentKey target) (fun _ => true)
        (realigned shapeId generation) (.runtime "Automatic membership target state is missing")
      return { db with componentStates := states }

def reconcileComponent (records : MembershipRecords) (shape : Shape) (history : List HistoricalMembership)
    (projected : Projection) (current : ActiveComponentPartition × Database) (component : Component) :
    Result (ActiveComponentPartition × Database) := do
  let (active, db) := current
  let change ← observeMembershipChange active shape [component] history
  if !change.changesActiveMembership || reusable change then return current else
  requireIdleMembershipRegion records db (change.sourceComponents ++ change.targetComponents)
  let row ← orRaise (findShape db shape) (.runtime "Automatic membership target shape is not registered")
  let realigned ← thread (realignTarget row.shapeId projected) db change.targetComponents
  replaceActiveComponentClosure realigned change

def retireRemoved (records : MembershipRecords) (db : Database) (active : ActiveComponentPartition) (shape : Shape) :
    Result Database := do
  let history ← records.history db
  let retirement ← observeRemovedMemberships active shape history
  if !retirement.changesActiveMembership then return db else
  requireIdleMembershipRegion records db retirement.sourceComponents
  let (_, next) ← replaceActiveComponentClosure db retirement
  return next

def reconcileUnproducedMemberships (records : MembershipRecords) (db : Database) (shape : Shape)
    (created : List Component) : Result Database := do
  let active ← orRaise (← readActiveComponentPartition db)
    (.runtime "Membership reconciliation requires an initialized partition")
  let history ← records.history db
  let projected ← readUnproducedComponentStates records db shape created
  let (active, next) ← thread (reconcileComponent records shape history projected) (active, db) shape.hoefleinComponents
  retireRemoved records next active shape

def initializeActiveComponentPartition (db : Database) (components : List Component) : Result Database := do
  require (← readActiveComponentPartition db).isNone (.runtime "Active component membership is already initialized")
  let active ← orRaise (db.activeComponents.insertAll (components.map fun item => ⟨encodeComponentKey item, 0⟩))
    (.integrity "UNIQUE constraint failed: active_components")
  let members ← orRaise (db.activeComponentMembers.insertAll (memberRows components))
    (.integrity "UNIQUE constraint failed: active_component_members")
  let next := { db with
    activeComponents := active
    activeComponentMembers := members
    componentPartitionState := some 0 }
  require (← readActiveComponentPartition next).isSome
    (.runtime "Active component partition disappeared during initialization")
  return next

def existingComponent (db : Database) (component : Component) : Result Bool := do
  match ← readComponentStateSnapshot db component with
  | none => return false
  | some state =>
      let producing ← snapshotOr state.shapeJson (.runtime "Invalid producing component shape")
      require (component ∈ producing) (.runtime "Stored component is outside its producing shape")
      return true

def nextShapeId (db : Database) : Nat := ((db.graphShapes.rows.map GraphShape.shapeId).max?.getD 0) + 1

def insertShape (db : Database) (shape : Shape) : Result (Nat × Table GraphShape.shapeId) :=
  match findShape db shape with
  | some row => .ok (row.shapeId, db.graphShapes)
  | none => do
      let shapes ← orRaise (db.graphShapes.insert ⟨nextShapeId db, shape⟩)
        (.integrity "UNIQUE constraint failed: graph_shapes")
      return (nextShapeId db, shapes)

def defineComponent (shapeId : Nat) (definitions : Table ComponentDefinition.key) (component : Component) :
    Table ComponentDefinition.key :=
  definitions.upsert ⟨encodeComponentKey component, shapeId⟩ id (fun _ => rfl)

def freshState (shapeId : Nat) (component : Component) : ComponentState :=
  ⟨encodeComponentKey component, shapeId, none, none, .queued, none, none, false, 0⟩

def insertTopology (db : Database) (shape : Shape) (created : List Component) : Result Database := do
  let (shapeId, shapes) ← insertShape db shape
  let states ← orRaise (db.componentStates.insertAll (created.map (freshState shapeId)))
    (.integrity "UNIQUE constraint failed: component_states.component_key")
  return { db with
    graphShapes := shapes
    componentDefinitions := shape.hoefleinComponents.foldl (defineComponent shapeId) db.componentDefinitions
    componentStates := states }

def requireCompleteTopology (db : Database) (shape : Shape) : Result Unit :=
  match findShape db shape with
  | none => .ok ()
  | some row =>
      require (sameElements (definitionKeys db row.shapeId) (shape.hoefleinComponents.map encodeComponentKey))
        (.runtime "Incomplete registered component topology")

def initializeWhenMissing (db : Database) (active : Option ActiveComponentPartition) (components : List Component) :
    Result Database :=
  match active with
  | some _ => .ok db
  | none => initializeActiveComponentPartition db components

def registerComponentTopology (records : MembershipRecords) (db : Database) (shape : Shape) : Result Database := do
  let components ← snapshotOr shape (.value "Invalid producing graph shape")
  let active ← readActiveComponentPartition db
  refuse (active.isNone && !db.componentDefinitions.rows.isEmpty)
    (.runtime "Stored components have no active membership partition")
  requireCompleteTopology db shape
  let existing ← collect (existingComponent db) components
  let created := ((components.zip existing).filter fun entry => !entry.2).map Prod.fst
  let inserted ← insertTopology db shape created
  let initialized ← initializeWhenMissing inserted active components
  reconcileUnproducedMemberships records initialized shape created

structure MembershipUnit where
  component : Component
  before : ComponentState
  generationFloor : Option Nat
deriving DecidableEq, Repr

def MembershipUnit.generation (unit : MembershipUnit) : Nat :=
  max unit.before.alignmentGeneration (unit.generationFloor.getD 0) + 1

def requireMembershipSession (db : Database) (sessionId : Option String) (shapeId : Nat) (change : MembershipChange)
    (admitted : List Component) : Result Unit :=
  match sessionId with
  | none => require (runningSessions db).isEmpty (.runtime "Reset requires no live execution sessions")
  | some sessionId => do
      let session ← orRaise ((db.executionSessions.find sessionId).filter fun row => row.status == .running)
        (.runtime "Membership preparation requires its admitted running session")
      let selected ← readSessionComponents db sessionId
      require (selected == admitted && session.admittedShapeId == shapeId
          && session.partitionRevision == change.source.revision)
        (.runtime "Membership preparation differs from its admitted scope")
      require (sameElements (reservedKeys db sessionId) (selected.map encodeComponentKey))
        (.runtime "Membership preparation lost its exact selected reservations")

def requireQuietRegion (db : Database) (sessionId : Option String) (nodes : List String) : Result Unit := do
  refuse ((db.componentHolds.rows.any fun row => meets nodes row.componentKey)
      || db.pendingComponentExecutions.rows.any fun row => meets nodes row.componentKey)
    (.runtime "Membership preparation cannot change held or pending components")
  refuse (db.componentReservations.rows.any fun row => some row.sessionId != sessionId && meets nodes row.componentKey)
    (.runtime "Membership preparation conflicts with another reservation")
  refuse (nodes.any fun node => !(activeJobRows db node).isEmpty)
    (.runtime "Membership preparation cannot change active jobs")

structure MembershipRepair where
  sessionId : Option String
  change : MembershipChange
  admittedComponents : List Component
  unit : MembershipUnit
  jobs : List NodeJobPreparation
  keepTrace : Bool
  eventTime : Timestamp
deriving DecidableEq, Repr

-- The writer of one unit: the shape row never changes, so looking it up here finds the one the repair was
-- planned with.
def completeUnit (db : Database) (repair : MembershipRepair) : Result Database := do
  let unit := repair.unit
  let change := repair.change
  let row ← orRaise (findShape db change.targetShape)
    (.runtime "Membership preparation requires its registered target shape")
  validateMembershipChange db change
  requireMembershipSession db repair.sessionId row.shapeId change repair.admittedComponents
  requireQuietRegion db repair.sessionId (change.sourceComponents ++ change.targetComponents).flatten
  require ((unit.component, unit.generationFloor) ∈ change.preparation && unit.component ∈ change.targetComponents)
    (.key "Membership preparation floor")
  require (db.componentStates.find (encodeComponentKey unit.component) == some unit.before
      && unit.before.lifecycle != .running) (.runtime "Component changed during membership preparation")
  let prepared ← applyJobPreparation db (repair.jobs.filter fun plan => plan.node ∈ unit.component) repair.keepTrace
    repair.eventTime
  let states ← prepared.componentStates.changeOne unit.before.componentKey
    (fun current => current.shapeId == unit.before.shapeId
      && current.alignmentGeneration == unit.before.alignmentGeneration)
    (realigned row.shapeId unit.generation) (.runtime "Membership preparation lost its exact target state")
  return { prepared with componentStates := states }

def movePartitionRevision (db : Database) (sessionId : Option String) (change : MembershipChange) (revision : Nat) :
    Result Database :=
  match sessionId with
  | none => .ok db
  | some sessionId => do
      let sessions ← db.executionSessions.changeOne sessionId
        (fun row => row.status == .running && row.partitionRevision == change.source.revision)
        (fun row => { row with partitionRevision := revision })
        (.runtime "Membership repair lost its admitted session")
      return { db with executionSessions := sessions }

def finishMembershipPreparation (db : Database) (repair : MembershipRepair) : Result Database := do
  let row ← orRaise (findShape db repair.change.targetShape)
    (.runtime "Membership preparation requires its registered target shape")
  requireMembershipSession db repair.sessionId row.shapeId repair.change repair.admittedComponents
  let (active, replaced) ← replaceActiveComponentClosure db repair.change
  movePartitionRevision replaced repair.sessionId repair.change active.revision

end MicroWorkflow
