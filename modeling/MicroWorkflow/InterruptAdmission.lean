import MicroWorkflow.InterruptObservation
import MicroWorkflow.SessionAdmission

set_option autoImplicit false

namespace MicroWorkflow

open Lib (require refuse orRaise each collect thread Table)

structure InterruptRequest extends AdmissionRequest where
  directPredecessors : List (List String)
  readinessOverridden : Bool

structure AdmissionConflicts where
  shapeId : Nat
  partitionRevision : Nat
  parents : List String
  predecessorExecutions : List (Component × ExecutionOwner)
  reservations : List (Component × Option String)
  transfers : List (String × Component × TransferKind)
deriving DecidableEq, Repr

def predecessorExecution (db : Database) (component : Component) (row : Job) : Result (Component × ExecutionOwner) := do
  let damaged := Error.runtime ("Interrupt predecessor has damaged active ownership: " ++ address row.nodeName row.jobId)
  let observed ← orRaise (← readJobOwnerObservation db row.nodeName row.jobId) damaged
  let owner ← orRaise observed.owner damaged
  require (observed.state == .active && owner.componentKey == component
      && (observed.session.any fun session => session.row.status == .running)
      && reservationOwner db (encodeComponentKey component) == some owner.sessionId) damaged
  return (component, owner)

def activePredecessorExecutions (db : Database) (predecessors : List Component) :
    Result (List (Component × ExecutionOwner)) := do
  let found ← collect (fun component => collect (predecessorExecution db component)
    (component.flatMap (activeJobRows db))) predecessors
  return found.flatten

def requireActiveComponent (db : Database) (component : Component) : Result Unit :=
  each (fun node => do
    let active ← readActiveComponentForNode db node
    require (active == some component) (.runtime "Interrupt selection requires exact active component membership"))
    component

def requireIdleTarget (db : Database) (node : String) : Result Unit :=
  match (activeJobRows db node).head? with
  | none => .ok ()
  | some row => do
      let damaged := Error.runtime ("Interrupt target scope has damaged active job " ++ address node row.jobId)
      let observed ← orRaise (← readJobOwnerObservation db node row.jobId) damaged
      let owner ← orRaise observed.owner damaged
      require (observed.state == .active) damaged
      throw (.runtime ("Interrupt target scope has active job " ++ address node row.jobId ++ " owned by session " ++
        owner.sessionId))

def observeReservation (db : Database) (parents : List String) (component : Component) :
    Result (Component × Option String) :=
  let key := encodeComponentKey component
  match db.componentReservations.find key with
  | none => .ok (key, none)
  | some row => do
      let inexact := Error.runtime "Interrupt overlap has no exact running reservation owner"
      let owner ← orRaise (db.executionSessions.find row.sessionId) inexact
      require (owner.status == .running && db.sessionComponents.contains (row.sessionId, key)) inexact
      refuse (owner.sessionKind == .interrupt && row.sessionId ∉ parents)
        (.runtime "Interrupt scope overlaps an independent interrupt reservation")
      return (key, some row.sessionId)

def plannedTransfers (parents : List String) (reservations : List (Component × Option String)) :
    List (String × Component × TransferKind) :=
  reservations.filterMap fun entry => entry.2.map fun source =>
    (source, entry.1, if source ∈ parents then .directParent else .futureAdmission)

def readInterruptAdmissionConflicts (db : Database) (start : Component) (components predecessors : List Component)
    (expectedShape : Shape) : Result AdmissionConflicts := do
  let snapshot ← componentSnapshotFromShape expectedShape
  let (shapeId, revision) ← readAdmissionShape db expectedShape components
  let direct ← componentPredecessors expectedShape start
  require (predecessors == direct) (.runtime "Interrupt direct predecessors changed before admission")
  each (fun component => do
    require (component ∈ snapshot) (.runtime "Interrupt scope is outside its admitted graph shape")
    requireActiveComponent db component) (components ++ predecessors)
  each (requireIdleTarget db) (sortedDistinct components.flatten)
  refuse (db.pendingComponentExecutions.rows.any fun row => row.componentKey ∈ components.map encodeComponentKey)
    (.runtime "Interrupt target scope has a begun component execution")
  let executions ← activePredecessorExecutions db predecessors
  let parents := sortedDistinct (executions.map fun entry => entry.2.sessionId)
  let reservations ← collect (observeReservation db parents) components
  return ⟨shapeId, revision, parents, executions, reservations, plannedTransfers parents reservations⟩

def validateInterruptScope (request : InterruptRequest) : Result (Component × List Component × List Component) := do
  let start ← observationComponent request.startComponent
  let components ← collect observationComponent request.selectedComponents
  require (start ∈ components && decide components.Nodup)
    (.value "Interrupt start must belong to distinct selected components")
  require (disjointMembers components) (.value "Selected components must not overlap")
  let predecessors ← collect observationComponent request.directPredecessors
  require (decide predecessors.Nodup) (.value "Interrupt predecessors must be distinct")
  each (fun (place : JobAddress) => do
    validateNodeName place.1
    validateJobId place.2) request.selectedJobs
  require ((request.selectedJobs.all fun place => place.1 ∈ components.flatten)
      && decide request.selectedJobs.Nodup)
    (.value "Selected interrupt jobs must be distinct members of its scope")
  refuse (request.reservedSample.isSome && (!request.selectedJobs.isEmpty || components != [start]))
    (.value "Reserved interrupt sampling requires one component and no selected jobs")
  return (start, components, predecessors.insertionSort (· ≤ ·))

def insertAdmission (db : Database) (request : InterruptRequest) (start : Component) : Result Database := do
  let admissions ← orRaise (db.interruptAdmissions.insert
      ⟨request.sessionId, encodeComponentKey start, request.readinessOverridden, none, .admitted, request.startedAt,
        none, none, none, none, none, none⟩)
    (.runtime "Interrupt admission was not recorded")
  return { db with interruptAdmissions := admissions }

def takeComponent (probe : Probe) (child : String) (db : Database) (entry : Component × Option String) :
    Result Database := do
  let changed := Error.runtime "Interrupt reservation changed during admission"
  match entry.2 with
  | none =>
      let reservations ← orRaise (db.componentReservations.insert ⟨entry.1, child⟩) changed
      bindPendingThreadOverrides probe child entry.1 { db with componentReservations := reservations }
  | some source =>
      let reservations ← db.componentReservations.changeOne entry.1 (fun row => row.sessionId == source)
        (fun row => { row with sessionId := child }) changed
      transferThreadOverrides { db with componentReservations := reservations } probe source child entry.1

def recordTransfers (db : Database) (child : String) (transfers : List (String × Component × TransferKind))
    (createdAt : Timestamp) : Result Database := do
  let rows ← orRaise (db.interruptScopeTransfers.insertAll
      (transfers.map fun entry => ⟨child, entry.1, entry.2.1, entry.2.2, .active, createdAt, none⟩))
    (.runtime "Interrupt scope transfer was not recorded")
  return { db with interruptScopeTransfers := rows }

def recordPauses (db : Database) (child : String) (executions : List (Component × ExecutionOwner))
    (createdAt : Timestamp) : Result Database := do
  let owners := (executions.map fun entry => (entry.2.sessionId, encodeComponentKey entry.1)).dedup
  let pauses ← orRaise (db.interruptPauseRequests.insertAll
      (owners.map fun entry => ⟨child, entry.1, entry.2, .requested, createdAt, none⟩))
    (.runtime "Interrupt pause request was not recorded")
  let paused ← orRaise (db.interruptPausedExecutions.insertAll
      (executions.map fun entry => ⟨child, entry.2.sessionId, encodeComponentKey entry.1, entry.2.executionId,
        entry.2.nodeName, entry.2.jobId, entry.2.generation, none⟩))
    (.runtime "Interrupt paused executions were not recorded completely")
  return { db with
    interruptPauseRequests := pauses
    interruptPausedExecutions := paused }

def checkInterruptRoot (db : Database) (start : Component) (root : JobRoot) : Result Unit := do
  let changed := Error.runtime ("Sampled job changed after interrupt reservation: " ++ address root.1 root.2.1)
  let observed ← readJobOwnerObservation db root.1 root.2.1
  require (root.1 ∈ start && (observed.any fun observed => observed.jobInstanceId == root.2.2)) changed

def retainInterruptSample (db : Database) (request : InterruptRequest) (start : Component) :
    Result (List JobRoot × Database) :=
  match request.reservedSample with
  | none => .ok ([], db)
  | some sample => retainSample db request.sessionId sample (checkInterruptRoot db start)
      (.value "Reserved sample selection contains duplicate jobs")
      (.runtime "Interrupt sample selection was not retained")

def admitInterruptExecution (db : Database) (probe : Probe) (request : InterruptRequest) :
    Result (SessionSnapshot × Database) := do
  validateSessionTexts request.toAdmissionRequest
  let (start, components, predecessors) ← validateInterruptScope request
  let observed ← readInterruptAdmissionConflicts db start components predecessors request.expectedShape
  let chosen ← selectedRoots db "Selected job does not exist at interrupt admission: " request.selectedJobs
  let created ← insertSession db
    (sessionRow request.toAdmissionRequest .interrupt start observed.shapeId observed.partitionRevision true) components
  let admitted ← insertAdmission created request start
  let taken ← thread (takeComponent probe request.sessionId) admitted observed.reservations
  let moved ← recordTransfers taken request.sessionId observed.transfers request.startedAt
  let related ← recordParents moved request.sessionId observed.parents (.runtime "Interrupt parent was not recorded")
  let paused ← recordPauses related request.sessionId observed.predecessorExecutions request.startedAt
  let (sampled, retained) ← retainInterruptSample paused request start
  let rooted ← recordRoots retained request.sessionId (chosen ++ sampled)
    (.runtime "Interrupt selected jobs were not recorded completely")
  let next ← authorizeInterruptFences rooted request.sessionId components request.startedAt
  each (fun source => do
    let whole ← requireAdmittedReservationScope next source
    require whole (.runtime "Interrupt source reservation admission marker changed"))
    (sortedDistinct (observed.transfers.map Prod.fst))
  let whole ← requireAdmittedReservationScope next request.sessionId
  require whole (.runtime "Interrupt reservation admission marker changed")
  let session ← readAdmittedSession next request.sessionId
  return (session, next)

end MicroWorkflow
