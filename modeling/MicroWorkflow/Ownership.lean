import MicroWorkflow.ComponentRecord

set_option autoImplicit false

namespace MicroWorkflow

open Lib (require refuse orRaise each)

def creatorRecorded (db : Database) (creator : Option String) : Bool :=
  match creator with
  | none => true
  | some creator => hasText creator && db.jobExecutionOwners.contains creator

def executionOwnerFromRow (db : Database) (row : ExecutionOwner) : Result ExecutionOwner := do
  let recorded := match db.executionSessions.find row.sessionId with
    | some session => session.admittedShapeId == row.shapeId
    | none => false
  require (recorded && db.sessionComponents.contains (row.sessionId, row.componentKey)
      && db.componentDefinitions.contains (row.componentKey, row.shapeId))
    (.runtime "Execution producing component is outside its recorded session")
  require (encodeComponentKey row.componentKey == row.componentKey) (.runtime "Damaged execution producing component")
  require (validInstance row.jobInstanceId && 1 ≤ row.jobId) (.runtime "Damaged execution job identity")
  let shape ← orRaise (db.graphShapes.find row.shapeId) (.runtime "Damaged execution producing identity")
  let snapshot ← snapshotOr shape.shapeJson (.runtime "Damaged execution producing shape")
  require (row.componentKey ∈ snapshot && row.nodeName ∈ row.componentKey)
    (.runtime "Execution component does not belong to its producing shape")
  require (creatorRecorded db row.createdByExecutionId) (.runtime "Damaged execution job creator")
  return row

def readExecutionOwner (db : Database) (executionId : String) : Result (Option ExecutionOwner) :=
  match db.jobExecutionOwners.find executionId with
  | none => .ok none
  | some row => do
      let owner ← executionOwnerFromRow db row
      return some owner

inductive OwnerState where
  | unclaimed | active | last
deriving DecidableEq, Repr

structure OwnerSession where
  row : ExecutionSession
  parentSessionIds : List String
deriving DecidableEq, Repr

structure JobOwnerObservation where
  jobInstanceId : String
  generation : Nat
  status : JobStatus
  activeExecutionId : Option String
  activePid : Option Nat
  activeStartedAt : Option Timestamp
  state : OwnerState
  owner : Option ExecutionOwner
  session : Option OwnerSession
deriving DecidableEq, Repr

def damagedOwnership (row : Job) : Error :=
  .runtime ("Damaged current execution ownership for " ++ address row.nodeName row.jobId)

def jobOwnerObservationFromRow (db : Database) (row : Job) : Result JobOwnerObservation := do
  let here := address row.nodeName row.jobId
  let identity ← orRaise (db.jobInstances.find row.address)
    (.runtime ("Missing or damaged current job instance for " ++ here))
  require (validInstance identity.instanceId) (.runtime ("Missing or damaged current job instance for " ++ here))
  require (creatorRecorded db identity.createdByExecutionId) (.runtime ("Damaged current job creator for " ++ here))
  let active := row.activeExecutionId
  refuse (active.isSome && active != identity.lastExecutionId)
    (.runtime ("Ambiguous current execution ownership for " ++ here))
  match active.or identity.lastExecutionId with
  | none =>
      return ⟨identity.instanceId, row.generation, row.status, active, row.activePid, row.activeStartedAt,
        .unclaimed, none, none⟩
  | some executionId =>
      let owner ← orRaise (db.jobExecutionOwners.find executionId) (damagedOwnership row)
      let session ← orRaise (db.executionSessions.find owner.sessionId) (damagedOwnership row)
      require (db.sessionComponents.contains (owner.sessionId, owner.componentKey)
          && owner.nodeName == row.nodeName && owner.jobId == row.jobId
          && owner.jobInstanceId == identity.instanceId
          && owner.createdByExecutionId == identity.createdByExecutionId
          && owner.generation ≤ row.generation
          && (active.isNone || owner.generation == row.generation)) (damagedOwnership row)
      require (row.nodeName ∈ owner.componentKey)
        (.runtime ("Damaged current execution component for " ++ here))
      let owner ← executionOwnerFromRow db owner
      return ⟨identity.instanceId, row.generation, row.status, active, row.activePid, row.activeStartedAt,
        if active.isSome then .active else .last, some owner,
        some ⟨session, readSessionParentIds db session.sessionId⟩⟩

def readJobOwnerObservation (db : Database) (node : String) (jobId : Nat) : Result (Option JobOwnerObservation) :=
  match db.jobs.find (node, jobId) with
  | none => .ok none
  | some row => do
      let observed ← jobOwnerObservationFromRow db row
      return some observed

def latestRestartEvent (db : Database) (node : String) (jobId : Nat) : Option JobEvent :=
  db.jobEvents.reverse.find? fun event =>
    event.nodeName = node && event.jobId = jobId && event.event = "restart_requested"

structure OwnedRestart where
  jobInstanceId : String
  generation : Nat
  owner : ExecutionOwner
  restartRequestedAt : Option Timestamp
deriving DecidableEq, Repr

def readOwnedRestart (db : Database) (node : String) (jobId : Nat) (sessionId : String) (component : Component) :
    Result (Option OwnedRestart) := do
  match ← readJobOwnerObservation db node jobId with
  | none => return none
  | some observed =>
      match observed.owner with
      | none => return none
      | some owner =>
          if owner.sessionId != sessionId || owner.componentKey != component || observed.status != .queued
              || observed.activeExecutionId.isSome || observed.generation ≤ owner.generation then
            return none
          else
            let marker := (db.jobs.find (node, jobId)).bind Job.restartRequestedAt
            let recorded := match latestRestartEvent db node jobId with
              | none => false
              | some event =>
                  marker == some event.time
                    && event.data.get "generation" == .int observed.generation
                    && event.data.get "job_instance_id" == .text observed.jobInstanceId
                    && event.data.get "execution_id" == .text owner.executionId
                    && event.data.get "session_id" == .text sessionId
                    && event.data.get "component" == .list component
            require recorded (.runtime "Nested component restart has inconsistent accepted-request metadata")
            return some ⟨observed.jobInstanceId, observed.generation, owner, marker⟩

def requestedExecution (db : Database) (event : JobEvent) : Result (Option ExecutionOwner) :=
  match event.data.get "execution_id" with
  | .text executionId => readExecutionOwner db executionId
  | _ => .ok none

def continuesRequest (event : JobEvent) (observed : JobOwnerObservation) (owner : ExecutionOwner)
    (previous : Option ExecutionOwner) : Bool :=
  match previous with
  | none => false
  | some previous =>
      event.data.get "session_id" == .text owner.sessionId && event.data.get "component" == .list owner.componentKey
        && previous.nodeName == owner.nodeName && previous.jobId == owner.jobId
        && previous.sessionId == owner.sessionId && previous.componentKey == owner.componentKey
        && previous.shapeId == owner.shapeId && previous.alignmentGeneration == owner.alignmentGeneration
        && previous.createdByExecutionId == owner.createdByExecutionId
        && previous.jobInstanceId == observed.jobInstanceId && previous.generation < owner.generation

def isClaimedComponentRestart (db : Database) (observed : JobOwnerObservation) (owner : ExecutionOwner) :
    Result Bool := do
  if owner.generation != observed.generation || observed.generation == 0 then return false else
  match latestRestartEvent db owner.nodeName owner.jobId with
  | none => return false
  | some event =>
      if event.data.get "generation" != .int observed.generation
          || event.data.get "job_instance_id" != .text observed.jobInstanceId then return false else
      let previous ← requestedExecution db event
      require (continuesRequest event observed owner previous)
        (.runtime "Claimed component restart has inconsistent accepted-request metadata")
      return true

def Job.showsActivity (row : Job) : Bool :=
  row.status == .running || row.activeExecutionId.isSome || row.activePid.isSome || row.activeThreadId.isSome
    || row.activeStartedAt.isSome

def activeJobRows (db : Database) (node : String) : List Job :=
  (db.jobs.select fun row => row.nodeName = node && row.showsActivity).insertionSort fun left right =>
    left.jobId ≤ right.jobId

variable {db : Database} {row : Job} {observed : JobOwnerObservation}

theorem observation_row (seen : jobOwnerObservationFromRow db row = .ok observed) :
    observed.generation = row.generation ∧ observed.status = row.status ∧
      observed.activeExecutionId = row.activeExecutionId ∧
      ∃ identity, db.jobInstances.find row.address = some identity ∧ observed.jobInstanceId = identity.instanceId ∧
        creatorRecorded db identity.createdByExecutionId = true := by
  unfold jobOwnerObservationFromRow at seen
  simp only [Lib.bind_ok, Lib.orRaise_ok, Lib.require_ok] at seen
  obtain ⟨identity, found, _, _, _, creator, _, _, seen⟩ := seen
  split at seen
  · simp only [Lib.pure_ok] at seen
    subst seen
    exact ⟨rfl, rfl, rfl, identity, found, rfl, creator⟩
  · simp only [Lib.bind_ok, Lib.pure_ok] at seen
    obtain ⟨_, _, _, _, _, _, _, _, _, _, rfl⟩ := seen
    exact ⟨rfl, rfl, rfl, identity, found, rfl, creator⟩

structure AcceptedRestart (db : Database) (sessionId : String) (component : Component) (row : Job)
    (observed : JobOwnerObservation) (owner : ExecutionOwner) (event : JobEvent) : Prop where
  seen : jobOwnerObservationFromRow db row = .ok observed
  owned : observed.owner = some owner
  session : owner.sessionId = sessionId
  scope : owner.componentKey = component
  queued : row.status = .queued
  inactive : row.activeExecutionId = none
  raised : owner.generation < row.generation
  requested : latestRestartEvent db row.nodeName row.jobId = some event
  generation : event.data.get "generation" = .int row.generation
  jobInstance : event.data.get "job_instance_id" = .text observed.jobInstanceId

theorem read_owned_restart_some {node : String} {jobId : Nat} {sessionId : String} {component : Component}
    {restart : OwnedRestart} (read : readOwnedRestart db node jobId sessionId component = .ok (some restart)) :
    ∃ row observed owner event, db.jobs.find (node, jobId) = some row ∧
      AcceptedRestart db sessionId component row observed owner event := by
  unfold readOwnedRestart readJobOwnerObservation at read
  cases found : db.jobs.find (node, jobId) with
  | none => simp [found, bind, Except.bind, pure, Except.pure] at read
  | some row =>
      simp only [found, Lib.bind_ok, Lib.pure_ok] at read
      obtain ⟨_, ⟨observed, seen, rfl⟩, read⟩ := read
      obtain ⟨generation, status, active, _⟩ := observation_row seen
      have key := Lib.Table.find_key found
      simp only [Job.address, Prod.mk.injEq] at key
      dsimp only at read
      split at read
      · exact absurd read (by simp)
      · rename_i owner owned
        split at read
        · exact absurd read (by simp)
        · rename_i unrefused
          simp only [Bool.or_eq_true, not_or, bne_iff_ne, ne_eq, not_not, decide_eq_true_eq, Bool.not_eq_true,
            Option.isSome_eq_false_iff, Option.isNone_iff_eq_none, Nat.not_le] at unrefused
          obtain ⟨⟨⟨⟨session, scope⟩, queued⟩, inactive⟩, raised⟩ := unrefused
          simp only [Lib.bind_ok, Lib.require_ok, Lib.pure_ok] at read
          obtain ⟨_, recorded, _⟩ := read
          cases requested : latestRestartEvent db node jobId with
          | none => simp [requested] at recorded
          | some event =>
              simp only [requested, Bool.and_eq_true, beq_iff_eq] at recorded
              refine ⟨row, observed, owner, event, rfl, seen, owned, session, scope, status ▸ queued, active ▸ inactive,
                generation ▸ raised, ?_, generation ▸ recorded.1.1.1.1.2, recorded.1.1.1.2⟩
              rw [key.1, key.2]
              exact requested

theorem is_claimed_component_restart_false {owner : ExecutionOwner}
    (unrequested : ∀ event, latestRestartEvent db owner.nodeName owner.jobId = some event → observed.generation ≠ 0 →
      event.data.get "generation" = .int observed.generation →
      event.data.get "job_instance_id" ≠ .text observed.jobInstanceId) :
    isClaimedComponentRestart db observed owner = .ok false := by
  unfold isClaimedComponentRestart
  by_cases current : (owner.generation != observed.generation || observed.generation == 0) = true
  · rw [if_pos current]
    rfl
  · rw [if_neg current]
    simp only [Bool.or_eq_true, not_or, beq_iff_eq] at current
    cases requested : latestRestartEvent db owner.nodeName owner.jobId with
    | none => rfl
    | some event =>
        have apart := unrequested event requested current.2
        by_cases named : event.data.get "generation" = .int observed.generation
        · simp [named, apart named, pure, Except.pure]
        · simp [named, pure, Except.pure]

theorem is_claimed_component_restart_requested {owner : ExecutionOwner} {event : JobEvent}
    (current : owner.generation = observed.generation) (positive : observed.generation ≠ 0)
    (requested : latestRestartEvent db owner.nodeName owner.jobId = some event)
    (generation : event.data.get "generation" = .int observed.generation)
    (jobInstance : event.data.get "job_instance_id" = .text observed.jobInstanceId) :
    isClaimedComponentRestart db observed owner ≠ .ok false := by
  intro unclaimed
  unfold isClaimedComponentRestart at unclaimed
  rw [if_neg (by simp [current, positive]), requested] at unclaimed
  simp only [generation, jobInstance, bne_self_eq_false, Bool.or_self, Bool.false_eq_true, if_false] at unclaimed
  rw [Lib.bind_ok] at unclaimed
  obtain ⟨previous, _, unclaimed⟩ := unclaimed
  rw [Lib.bind_ok] at unclaimed
  obtain ⟨_, _, unclaimed⟩ := unclaimed
  exact absurd unclaimed (by simp)

end MicroWorkflow
