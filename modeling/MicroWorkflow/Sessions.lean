import MicroWorkflow.Membership

set_option autoImplicit false

namespace MicroWorkflow

open Lib (require refuse orRaise collect each thread)

structure Probe where
  hostname : String
  now : Timestamp
  processIsAlive : Nat → Bool
  processIdentity : Nat → Option String

def oneNodeProbe : Probe := ⟨"host", 0, fun _ => true, fun _ => none⟩

def defaultHeartbeatStale : Nat := 15000

structure Liveness where
  live : Bool
  reason : String
deriving DecidableEq, Repr

def executionSessionLiveness (probe : Probe) (session : ExecutionSession) : Liveness :=
  if session.status != .running then ⟨false, "no running sequence is recorded"⟩ else
  let sameHost := session.hostname == "" || session.hostname == probe.hostname
  let pidLive := sameHost && probe.processIsAlive session.pid
  let heartbeatFresh := probe.now - session.heartbeatAt ≤ defaultHeartbeatStale
  let identityMatches := session.processIdentity.map fun recorded =>
    pidLive && probe.processIdentity session.pid == some recorded
  if pidLive && identityMatches == some true then ⟨true, "the recorded process instance is alive"⟩
  else if pidLive && session.processIdentity.isNone && heartbeatFresh then
    ⟨true, "the recorded PID is alive and its heartbeat is not stale"⟩
  else if !sameHost && heartbeatFresh then ⟨true, "the run belongs to another host and its heartbeat is fresh"⟩
  else if pidLive && identityMatches == some false then
    ⟨false, "the recorded PID belongs to a different process instance"⟩
  else if pidLive && session.processIdentity.isNone then
    ⟨false, "the session heartbeat is stale; PID existence alone is ambiguous"⟩
  else if sameHost then ⟨false, "the recorded process is no longer alive"⟩
  else ⟨false, "the other host heartbeat is stale"⟩

def storedSessionComponent (key : Component) : Result Component := do
  require (!key.isEmpty && encodeComponentKey key == key && key.all validNodeName)
    (.runtime "Damaged selected component declaration")
  return key

def selectionRows (db : Database) (sessionId : String) : List SessionComponent :=
  (db.sessionComponents.select fun row => row.sessionId = sessionId).insertionSort fun left right =>
    left.position ≤ right.position

def jobRootRows (db : Database) (sessionId : String) : List SessionJob :=
  (db.sessionJobs.select fun row => row.sessionId = sessionId).insertionSort fun left right =>
    left.position ≤ right.position

def readSessionComponents (db : Database) (sessionId : String) : Result (List Component) :=
  thread (fun components (entry : SessionComponent × Nat) => do
    let component ← storedSessionComponent entry.1.componentKey
    require (entry.1.position == entry.2 && component.all fun node => node ∉ components.flatten)
      (.runtime "Damaged selected component scope")
    return components ++ [component]) [] (selectionRows db sessionId).zipIdx

abbrev JobRoot := String × Nat × String

def readSessionJobRoots (db : Database) (sessionId : String) : Result (List JobRoot) := do
  let session ← orRaise (db.executionSessions.find sessionId) (.runtime "Damaged selected job scope")
  let rows := jobRootRows db sessionId
  require ((session.selectionKind == .jobs) == !rows.isEmpty) (.runtime "Damaged selected job scope")
  let components ← readSessionComponents db sessionId
  let start ← storedSessionComponent session.startComponent
  require (start ∈ components) (.runtime "Session start is outside selected components")
  collect (fun (entry : SessionJob × Nat) => do
    require (validNodeName entry.1.nodeName) (.runtime "Damaged selected job node")
    require (entry.1.nodeName ∈ components.flatten && entry.1.position == entry.2 && 1 ≤ entry.1.jobId
        && validInstance entry.1.jobInstanceId) (.runtime "Damaged selected job identity")
    return (entry.1.nodeName, entry.1.jobId, entry.1.jobInstanceId)) rows.zipIdx

def readSessionParentIds (db : Database) (sessionId : String) : List String :=
  ((db.executionSessionParents.select fun row => row.childSessionId = sessionId).map fun row =>
    row.parentSessionId).insertionSort (· ≤ ·)

def sameElements {α : Type} [DecidableEq α] (left right : List α) : Bool :=
  left.all (fun item => item ∈ right) && right.all fun item => item ∈ left

def definitionKeys (db : Database) (shapeId : Nat) : List Component :=
  (db.componentDefinitions.select fun row => row.shapeId = shapeId).map fun row => row.componentKey

def findShape (db : Database) (shapeJson : Shape) : Option GraphShape :=
  db.graphShapes.rows.find? fun row => row.shapeJson = shapeJson

def readAdmissionShape (db : Database) (expectedShape : Shape) (components : List Component) :
    Result (Nat × Nat) := do
  let snapshot ← snapshotOr expectedShape (.runtime "Admission requires a valid registered graph shape")
  require (!components.isEmpty && components.all fun component => component ∈ snapshot)
    (.runtime "Session selection is outside its admitted graph shape")
  let row ← orRaise (findShape db expectedShape) (.runtime "Session admission requires its registered graph shape")
  require (sameElements (definitionKeys db row.shapeId) (snapshot.map encodeComponentKey))
    (.runtime "Session admitted shape has incomplete component definitions")
  let active ← orRaise (← readActiveComponentPartition db)
    (.runtime "Session admission requires initialized active membership")
  return (row.shapeId, active.revision)

def validateSessionShapeSnapshot (db : Database) (admittedShapeId partitionRevision : Nat)
    (selectedComponents : List Component) : Result Shape := do
  require (1 ≤ admittedShapeId) (.runtime "Session has an invalid admitted membership identity")
  let shape ← orRaise (db.graphShapes.find admittedShapeId) (.runtime "Session admitted graph shape is missing")
  let (observedId, currentRevision) ← readAdmissionShape db shape.shapeJson selectedComponents
  require (observedId == admittedShapeId && partitionRevision ≤ currentRevision)
    (.runtime "Session admitted membership identity is inconsistent")
  return shape.shapeJson

structure SessionSnapshot where
  row : ExecutionSession
  selectedComponents : List Component
  selectedJobs : List JobAddress
  parentSessionIds : List String
deriving DecidableEq, Repr

def executionSessionFromRowSnapshot (db : Database) (row : ExecutionSession) : Result SessionSnapshot := do
  let _ ← storedSessionComponent row.startComponent
  let selectedComponents ← readSessionComponents db row.sessionId
  let roots ← readSessionJobRoots db row.sessionId
  let _ ← validateSessionShapeSnapshot db row.admittedShapeId row.partitionRevision selectedComponents
  return ⟨row, selectedComponents, roots.map fun root => (root.1, root.2.1), readSessionParentIds db row.sessionId⟩

def validateExecutionSessionSnapshot (session : SessionSnapshot) : Result Unit :=
  let row := session.row
  require (hasText row.sessionId && hasText row.command && hasText row.hostname
    && session.parentSessionIds.all (fun parent => hasText parent && parent != row.sessionId)
    && (session.parentSessionIds.isEmpty || row.sessionKind == .interrupt)
    && 1 ≤ row.pid
    && (match row.processIdentity with | none => true | some identity => hasText identity)
    && (match row.status with
      | .running => row.finishedAt.isNone && row.outcome.isNone && row.failures.isEmpty
      | .terminal => row.finishedAt.isSome &&
          match row.outcome with | none => false | some outcome => hasText outcome))
    (.runtime ("Damaged execution session: " ++ row.sessionId))

end MicroWorkflow
