import MicroWorkflow.JobPublication
import MicroWorkflow.OverrideTransitions
import MicroWorkflow.PreparationGuards
import MicroWorkflow.SessionScope

set_option autoImplicit false

namespace MicroWorkflow

open Lib (require refuse orRaise each collect Table)

def sessionText (text field : String) : Result Unit :=
  require (hasText text) (.value (field ++ " must be nonempty text"))

structure SampleSelection where
  roots : List JobRoot
  record : Value
deriving DecidableEq, Repr

structure AdmissionRequest where
  sessionId : String
  command : String
  startComponent : List String
  selectedComponents : List (List String)
  selectedJobs : List JobAddress
  startedAt : Timestamp
  hostname : String
  pid : Nat
  processIdentity : Option String
  details : Details
  expectedShape : Shape
  reservedSample : Option (Database → Result SampleSelection)

structure SessionRequest extends AdmissionRequest where
  sessionKind : SessionKind
  parentSessionIds : List String

def validateSessionTexts (request : AdmissionRequest) : Result Unit := do
  sessionText request.sessionId "session_id"
  sessionText request.command "command"
  sessionText request.hostname "hostname"
  require (decide (1 ≤ request.pid)) (.value "pid must be a positive integer")
  match request.processIdentity with
  | none => return ()
  | some identity => sessionText identity "process_identity"

def validateParentSessions (request : SessionRequest) : Result Unit := do
  each (fun parent => sessionText parent "parent_session_id") request.parentSessionIds
  require (decide request.parentSessionIds.Nodup) (.value "Session parents must be distinct")
  require (request.parentSessionIds.isEmpty
      || (request.sessionKind == .interrupt && request.sessionId ∉ request.parentSessionIds))
    (.value "Only an interrupt session may have distinct parent sessions")

def sessionRow (request : AdmissionRequest) (kind : SessionKind) (start : Component) (shapeId revision : Nat)
    (admitted : Bool) : ExecutionSession where
  sessionId := request.sessionId
  sessionKind := kind
  command := request.command
  selectionKind := if request.selectedJobs.isEmpty then .components else .jobs
  startComponent := encodeComponentKey start
  status := .running
  startedAt := request.startedAt
  heartbeatAt := request.startedAt
  finishedAt := none
  hostname := request.hostname
  pid := request.pid
  processIdentity := request.processIdentity
  outcome := none
  failures := []
  details := request.details
  admittedShapeId := shapeId
  partitionRevision := revision
  scopeAdmitted := admitted

def insertSession (db : Database) (row : ExecutionSession) (components : List Component) : Result Database := do
  let sessions ← orRaise (db.executionSessions.insert row)
    (.integrity "UNIQUE constraint failed: execution_sessions.session_id")
  let selection ← orRaise (db.sessionComponents.insertAll
      (components.zipIdx.map fun entry => ⟨row.sessionId, entry.2, encodeComponentKey entry.1⟩))
    (.integrity "UNIQUE constraint failed: session_components.session_id, session_components.component_key")
  return { db with
    executionSessions := sessions
    sessionComponents := selection }

def selectedRoots (db : Database) (missing : String) (jobs : List JobAddress) : Result (List JobRoot) :=
  collect (fun (place : JobAddress) => do
    let observed ← orRaise (← readJobOwnerObservation db place.1 place.2)
      (.runtime (missing ++ address place.1 place.2))
    return (place.1, place.2, observed.jobInstanceId)) jobs

def recordRoots (db : Database) (sessionId : String) (roots : List JobRoot) (error : Error) : Result Database := do
  let jobs ← orRaise (db.sessionJobs.insertAll
    (roots.zipIdx.map fun entry => ⟨sessionId, entry.2, entry.1.1, entry.1.2.1, entry.1.2.2⟩)) error
  return { db with sessionJobs := jobs }

def retainSample (db : Database) (sessionId : String) (sample : Database → Result SampleSelection)
    (check : JobRoot → Result Unit) (duplicated lost : Error) : Result (List JobRoot × Database) := do
  let selection ← sample db
  refuse selection.roots.isEmpty (.runtime "Sample selected no jobs; no work was started")
  require (decide (selection.roots.map fun root => (root.1, root.2.1)).Nodup) duplicated
  each check selection.roots
  let sessions ← db.executionSessions.changeOne sessionId
    (fun row => row.status == .running && row.selectionKind == .components)
    (fun row => { row with selectionKind := .jobs, details := row.details.set "selection" selection.record }) lost
  return (selection.roots, { db with executionSessions := sessions })

def checkReservedRoot (db : Database) (start : Component) (root : JobRoot) : Result Unit := do
  validateNodeName root.1
  validateJobId root.2.1
  require (root.1 ∈ start) (.value "Reserved selection must stay within its starting component")
  let observed ← orRaise (← readJobOwnerObservation db root.1 root.2.1)
    (.runtime ("Selected job is missing after reservation: " ++ address root.1 root.2.1))
  require (observed.jobInstanceId == root.2.2)
    (.runtime ("Selected job instance changed after observation: " ++ address root.1 root.2.1))

def authorizeInterruptFences (db : Database) (sessionId : String) (components : List Component)
    (createdAt : Timestamp) : Result Database := do
  let boundaries ← collect (readInterruptExecutionFences db sessionId) (components.map encodeComponentKey)
  let authorizations ← orRaise (db.sessionFenceAuthorizations.insertAll
      (boundaries.flatten.eraseDups.map fun fence =>
        ⟨sessionId, encodeComponentKey fence.component, fence.shapeId, fence.alignmentGeneration, fence.sourceSessionId,
          createdAt⟩))
    (.runtime "Interrupt fence authority was not recorded completely")
  return { db with sessionFenceAuthorizations := authorizations }

def recordParents (db : Database) (sessionId : String) (parents : List String) (error : Error) : Result Database := do
  let rows ← orRaise (db.executionSessionParents.insertAll (parents.map fun parent => ⟨sessionId, parent⟩)) error
  return { db with executionSessionParents := rows }

def readAdmittedSession (db : Database) (sessionId : String) : Result SessionSnapshot := do
  let row ← orRaise (db.executionSessions.find sessionId) (.type "missing execution session")
  executionSessionFromRowSnapshot db row

section Reserve

def registeredShape (db : Database) (shapeId : Nat) (key : Component) : Option Shape :=
  if db.componentDefinitions.contains (key, shapeId) then (db.graphShapes.find shapeId).map GraphShape.shapeJson
  else none

def reservationConflicts (db : Database) (sessionId : String) (nodes : List String) : List (Component × String) :=
  ((db.componentReservations.rows.insertionSort fun left right => left.componentKey ≤ right.componentKey).filter
    fun row => row.sessionId != sessionId && row.componentKey.any fun node => node ∈ nodes).map
      fun row => (row.componentKey, row.sessionId)

def admitReservations (db : Database) (probe : Probe) (sessionId : String) (selected : List Component) :
    Result Database := do
  let reservations ← orRaise (db.componentReservations.insertAll (selected.map fun key => ⟨key, sessionId⟩))
    (.integrity "UNIQUE constraint failed: component_reservations.component_key")
  let bound ← bindPendingThreadOverrides probe sessionId selected.flatten
    { db with componentReservations := reservations }
  let sessions ← bound.executionSessions.changeOne sessionId (fun row => row.status == .running && !row.scopeAdmitted)
    (fun row => { row with scopeAdmitted := true }) (.runtime "Session reservation admission was not retained")
  let next := { bound with executionSessions := sessions }
  let admitted ← requireAdmittedReservationScope next sessionId
  require admitted (.runtime "Session reservation admission marker changed")
  return next

def validateReservation (db : Database) (sessionId : String) (expectedShape : Shape) : Result ExecutionSession := do
  let missing := Error.runtime ("Component reservations require an existing running session: " ++ sessionId)
  let session ← orRaise (db.executionSessions.find sessionId) missing
  require (session.status == .running) missing
  let selected := selectedKeys db sessionId
  require (!selected.isEmpty
      && selected.all fun key => registeredShape db session.admittedShapeId key == some expectedShape)
    (.runtime "Session scope does not match registered components in the expected graph shape")
  let active ← readActiveComponentPartition db
  require (active.map ActiveComponentPartition.revision == some session.partitionRevision)
    (.runtime "Active component membership changed during admission")
  each (refuseReceiverMutation db) (sortedDistinct selected.flatten)
  let conflicts := reservationConflicts db sessionId selected.flatten
  require conflicts.isEmpty (.componentReservationConflict conflicts)
  return session

def reserveExecutionComponents (db : Database) (probe : Probe) (sessionId : String) (expectedShape : Shape) :
    Result (Bool × Database) := do
  sessionText sessionId "session_id"
  let session ← validateReservation db sessionId expectedShape
  let selected := selectedKeys db sessionId
  let owned := reservedKeys db sessionId
  if sameElements owned selected then do
    require session.scopeAdmitted (.runtime ("Session reservation admission marker is missing: " ++ sessionId))
    let bound ← bindPendingThreadOverrides probe sessionId selected.flatten db
    let _ ← requireAdmittedReservationScope bound sessionId
    return (false, bound)
  else do
    require owned.isEmpty (.runtime ("Session has a damaged partial reservation: " ++ sessionId))
    refuse session.scopeAdmitted (.runtime ("Admitted session lost its component reservations: " ++ sessionId))
    let next ← admitReservations db probe sessionId selected
    return (true, next)

def releaseExecutionComponents (db : Database) (sessionId : String) : Result (Nat × Database) := do
  sessionText sessionId "session_id"
  return ((reservedKeys db sessionId).length, { db with
    componentReservations := db.componentReservations.delete fun row => row.sessionId = sessionId })

end Reserve

section Create

def validateSelectedJobs (nodes : List String) (jobs : List JobAddress) : Result Unit :=
  each (fun (place : JobAddress) => do
    validateNodeName place.1
    validateJobId place.2
    require (place.1 ∈ nodes) (.value "Selected jobs must belong to selected components")) jobs

def validateSessionScope (request : SessionRequest) : Result (Component × List Component) := do
  let start ← observationComponent request.startComponent
  let components ← collect observationComponent request.selectedComponents
  require (start ∈ components) (.value "The starting component must be selected")
  require (disjointMembers components) (.value "Selected components must not overlap")
  validateSelectedJobs components.flatten request.selectedJobs
  refuse (request.reservedSample.isSome && (!request.selectedJobs.isEmpty || components != [start]))
    (.value "Reserved sample admission requires exactly its starting component and no chosen jobs")
  return (start, components)

def retainReservedSample (db : Database) (probe : Probe) (request : SessionRequest) (start : Component) :
    Result (List JobRoot × Database) :=
  match request.reservedSample with
  | none => .ok ([], db)
  | some sample => do
      let (_, reserved) ← reserveExecutionComponents db probe request.sessionId request.expectedShape
      retainSample reserved request.sessionId sample (checkReservedRoot reserved start)
        (.value "Reserved selection contains duplicate jobs")
        (.runtime "Reserved selection was not retained by its running session")

def createExecutionSession (db : Database) (probe : Probe) (request : SessionRequest) :
    Result (SessionSnapshot × Database) := do
  validateSessionTexts request.toAdmissionRequest
  validateParentSessions request
  let (start, components) ← validateSessionScope request
  let (shapeId, revision) ← readAdmissionShape db request.expectedShape components
  each (fun parent => require (sessionRunning db parent)
    (.runtime ("Session parent must be an existing running session: " ++ parent))) request.parentSessionIds
  let chosen ← selectedRoots db "Selected job does not exist at session admission: " request.selectedJobs
  let created ← insertSession db
    (sessionRow request.toAdmissionRequest request.sessionKind start shapeId revision false) components
  let related ← recordParents created request.sessionId request.parentSessionIds
    (.runtime "Session parents were not recorded completely")
  let (sampled, retained) ← retainReservedSample related probe request start
  let rooted ← recordRoots retained request.sessionId (chosen ++ sampled)
    (.runtime "Session admission did not record every selected job instance")
  let next ← authorizeInterruptFences rooted request.sessionId components request.startedAt
  let session ← readAdmittedSession next request.sessionId
  return (session, next)

end Create

section Finish

def heartbeatExecutionSession (db : Database) (sessionId : String) (heartbeatAt : Timestamp) :
    Result (Bool × Database) := do
  sessionText sessionId "session_id"
  return (sessionRunning db sessionId, { db with
    executionSessions := db.executionSessions.modify
      (fun row => row.sessionId = sessionId && row.status = .running) fun row => { row with heartbeatAt := heartbeatAt } })

def finishExecutionSession (db : Database) (sessionId outcome : String) (finishedAt : Timestamp)
    (failures : List String) : Result (Bool × Database) := do
  sessionText sessionId "session_id"
  require (hasText outcome) (.value "A terminal session needs a nonempty outcome")
  if sessionRunning db sessionId then do
    refuse (db.interruptAdmissions.contains sessionId)
      (.runtime "Explicit interrupt sessions require atomic component and scope settlement")
    let _ ← requireAdmittedReservationScope db sessionId
    return (true, { db with
      executionSessions := db.executionSessions.modify
        (fun row => row.sessionId = sessionId && row.status = .running) fun row => { row with
          status := .terminal
          outcome := some outcome
          finishedAt := some finishedAt
          failures := failures } })
  else return (false, db)

end Finish

end MicroWorkflow
