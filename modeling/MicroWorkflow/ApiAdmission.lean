import MicroWorkflow.Lib.Savepoint
import MicroWorkflow.Lib.Statement
import MicroWorkflow.Ownership

set_option autoImplicit false

namespace MicroWorkflow

open Lib (require refuse orRaise each collect thread Table)

structure ApiExecutionPermitIdentity where
  sessionId : String
  nodeName : String
  jobId : Nat
  generation : Nat
  executionId : String
deriving DecidableEq, Repr

def validateIdentity (identity : ApiExecutionPermitIdentity) : Result Unit := do
  require (hasText identity.sessionId) (.value "API execution permit requires a session ID")
  require (hasText identity.nodeName) (.value "API execution permit requires a node name")
  require (decide (1 ≤ identity.jobId)) (.value "API execution permit job ID must be a positive integer")
  require (validInstance identity.executionId) (.value "API execution permit requires a native execution ID")

def ApiExecutionPermit.identity (row : ApiExecutionPermit) : ApiExecutionPermitIdentity :=
  ⟨row.sessionId, row.nodeName, row.jobId, row.generation, row.executionId⟩

def permitFromRow (row : ApiExecutionPermit) : Result ApiExecutionPermitIdentity := do
  validateIdentity row.identity
  return row.identity

def permitRow (db : Database) (executionId : String) : Option ApiExecutionPermit :=
  db.apiExecutionPermits.find executionId

def ownsPermit (owner : ExecutionOwner) (identity : ApiExecutionPermitIdentity) : Bool :=
  owner.executionId == identity.executionId && owner.sessionId == identity.sessionId
    && owner.nodeName == identity.nodeName && owner.jobId == identity.jobId && owner.generation == identity.generation

def immutableOwnerMismatch : Error := .runtime "API execution permit does not match its immutable owner"

def exactOwnerRequired : Error := .runtime "API permit acquisition requires the exact running job owner"

def runsPermit (observed : JobOwnerObservation) (identity : ApiExecutionPermitIdentity) : Bool :=
  observed.status == .running && observed.generation == identity.generation
    && observed.activeExecutionId == some identity.executionId
    && observed.session.any fun session => session.row.status == .running

def requireScope (db : Database) (identity : ApiExecutionPermitIdentity) (owner : ExecutionOwner) : Result Unit :=
  let key := encodeComponentKey owner.componentKey
  let running := (db.executionSessions.find identity.sessionId).any fun session => session.status == .running
  let reserved := (db.componentReservations.find key).any fun row => row.sessionId == identity.sessionId
  require (running && reserved && db.sessionComponents.contains (identity.sessionId, key))
    (.runtime "API permit acquisition requires the exact session reservation")

def requireImmutableOwner (db : Database) (identity : ApiExecutionPermitIdentity) : Result ExecutionOwner := do
  let owner ← orRaise (← readExecutionOwner db identity.executionId) immutableOwnerMismatch
  require (ownsPermit owner identity) immutableOwnerMismatch
  return owner

def requireOwner (db : Database) (identity : ApiExecutionPermitIdentity) (requireCurrent : Bool) :
    Result ExecutionOwner := do
  let owner ← requireImmutableOwner db identity
  if requireCurrent then
    let observed ← orRaise (← readJobOwnerObservation db identity.nodeName identity.jobId) exactOwnerRequired
    require (runsPermit observed identity && observed.owner == some owner) exactOwnerRequired
    requireScope db identity owner
    return owner
  else return owner

def insertPermit (db : Database) (identity : ApiExecutionPermitIdentity) (acquiredAt : Timestamp) :
    Result (ApiExecutionPermit × Database) := do
  let row : ApiExecutionPermit :=
    ⟨identity.executionId, identity.nodeName, identity.jobId, identity.generation, identity.sessionId, acquiredAt⟩
  let referenced := db.jobExecutionOwners.contains identity.executionId
    && db.executionSessions.contains identity.sessionId && db.nodes.contains identity.nodeName
  require referenced (.integrity "FOREIGN KEY constraint failed")
  let taken := db.apiExecutionPermits.rows.any fun held =>
    held.nodeName == identity.nodeName && held.jobId == identity.jobId && held.generation == identity.generation
  refuse taken (.integrity
    "UNIQUE constraint failed: api_execution_permits.node_name, api_execution_permits.job_id, api_execution_permits.generation")
  let permits ← orRaise (db.apiExecutionPermits.insert row)
    (.integrity "UNIQUE constraint failed: api_execution_permits.execution_id")
  let next := { db with apiExecutionPermits := permits }
  let recorded ← orRaise (permitRow next identity.executionId) (.runtime "API execution permit readback failed")
  let readback ← permitFromRow recorded
  require (readback == identity) (.runtime "API execution permit readback failed")
  require (recorded.acquiredAt == acquiredAt) (.runtime "API execution permit acquisition time changed")
  return (recorded, next)

def recordedPermit (recorded : ApiExecutionPermit) (identity : ApiExecutionPermitIdentity) : Result Bool := do
  let holder ← permitFromRow recorded
  require (holder == identity) (.runtime "API execution permit identity changed")
  return true

def requireLimit (limit : Nat) : Result Unit :=
  require (decide (1 ≤ limit)) (.runtime "Damaged aggregate API admission limit")

def capacityFull (db : Database) : Result Bool :=
  match db.apiThreadLimit with
  | none => .ok false
  | some limit => do
      requireLimit limit
      return decide (limit ≤ db.apiExecutionPermits.rows.length)

def admitPermit (db : Database) (identity : ApiExecutionPermitIdentity) (acquiredAt : Timestamp) :
    Result (Bool × Database) :=
  match permitRow db identity.executionId with
  | some existing => do
      let held ← recordedPermit existing identity
      return (held, db)
  | none => do
      if ← capacityFull db then return (false, db) else
      let (_, next) ← insertPermit db identity acquiredAt
      return (true, next)

def tryAcquireApiExecutionPermit (db : Database) (identity : ApiExecutionPermitIdentity) (acquiredAt : Timestamp) :
    Result (Bool × Database) := do
  validateIdentity identity
  let _ ← requireOwner db identity true
  admitPermit db identity acquiredAt

def permitMissing : Error := .runtime "Exact API execution permit is missing"

def requireRecorded (recorded : Option ApiExecutionPermit) (identity : ApiExecutionPermitIdentity) :
    Result ApiExecutionPermit := do
  let existing ← orRaise recorded permitMissing
  let holder ← permitFromRow existing
  require (holder == identity) permitMissing
  return existing

def removePermit (db : Database) (recorded : ApiExecutionPermit) : Result Database := do
  let changed := Error.runtime "API execution permit changed before release"
  let permits ← db.apiExecutionPermits.removeOne recorded.executionId (fun row => row == recorded) changed
  return { db with apiExecutionPermits := permits }

def withdrawPermit (db : Database) (identity : ApiExecutionPermitIdentity) : Result (Bool × Database) := do
  let existing ← requireRecorded (permitRow db identity.executionId) identity
  let next ← removePermit db existing
  return (true, next)

def releaseApiExecutionPermit (db : Database) (identity : ApiExecutionPermitIdentity) : Result (Bool × Database) := do
  validateIdentity identity
  let _ ← requireOwner db identity false
  withdrawPermit db identity

def clearApiExecutionPermitsForSession (db : Database) (sessionId : String) : Result Database := do
  require (hasText sessionId) (.value "API permit cleanup requires a session ID")
  let identities ← collect permitFromRow (db.apiExecutionPermits.select fun row => row.sessionId = sessionId)
  let next ← thread (fun current identity => do
    let _ ← requireOwner current identity false
    let (_, after) ← releaseApiExecutionPermit current identity
    return after) db identities
  require ((next.apiExecutionPermits.select fun row => row.sessionId = sessionId).isEmpty)
    (.runtime "Session API execution permits were not cleared")
  return next

variable {db next : Database} {identity : ApiExecutionPermitIdentity} {acquiredAt : Timestamp}

theorem require_owner_executed {owner : ExecutionOwner} {requireCurrent : Bool}
    (owned : requireOwner db identity requireCurrent = .ok owner) : requireImmutableOwner db identity = .ok owner := by
  cases requireCurrent with
  | false =>
      simp only [requireOwner, Lib.bind_ok] at owned
      obtain ⟨found, first, same⟩ := owned
      obtain rfl := Except.ok.inj same
      exact first
  | true =>
      simp only [requireOwner, Lib.bind_ok, if_true] at owned
      obtain ⟨found, first, _, _, _, _, _, _, _, _, same⟩ := owned
      obtain rfl := Except.ok.inj same
      exact first

theorem insert_permit_writes {recorded : ApiExecutionPermit}
    (inserted : insertPermit db identity acquiredAt = .ok (recorded, next)) :
    recorded.identity = identity ∧ db.apiExecutionPermits.find identity.executionId = none ∧
      ∃ permits, db.apiExecutionPermits.insert recorded = some permits ∧
        next = { db with apiExecutionPermits := permits } := by
  simp only [insertPermit, permitRow, Lib.bind_ok, Lib.orRaise_ok, Lib.require_ok, Lib.refuse_ok, Lib.pure_ok,
    Prod.mk.injEq] at inserted
  obtain ⟨_, _, _, _, permits, added, _, found, _, _, _, _, _, _, rfl, rfl⟩ := inserted
  have free := (Table.insert_eq_some.mp added).1
  rw [Table.find_insert added, if_pos rfl] at found
  obtain rfl := Option.some.inj found
  exact ⟨rfl, free, permits, added, rfl⟩

theorem remove_permit_writes {recorded : ApiExecutionPermit} (removed : removePermit db recorded = .ok next) :
    ∃ permits, next = { db with apiExecutionPermits := permits } ∧
      (∀ executionId, permits.find executionId =
        if executionId = recorded.executionId then none else db.apiExecutionPermits.find executionId) := by
  simp only [removePermit, Lib.bind_ok, Lib.pure_ok] at removed
  obtain ⟨permits, removed, rfl⟩ := removed
  obtain ⟨_, _, _, gone, others⟩ := Table.remove_one_ok removed
  refine ⟨permits, rfl, fun executionId => ?_⟩
  by_cases same : executionId = recorded.executionId
  · rw [if_pos same, same]
    exact gone
  · rw [if_neg same]
    exact others executionId same

end MicroWorkflow
