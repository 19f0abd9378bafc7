import MicroWorkflow.PendingExecution
import MicroWorkflow.ThreadOverrides

set_option autoImplicit false

namespace MicroWorkflow

open Lib (require refuse orRaise each collect Table)

structure ExecutionClaimBatch where
  nodeName : String
  jobIds : List Nat
  executionIds : List String
  startedAt : Timestamp
  pid : Nat
  threadId : Nat
  eventTime : Timestamp
  taskStartedData : Option Details
  taskStartedMask : Option (List Bool)
  sessionId : Option String
  component : Option Component
  expectedRestarts : Option (List (Option OwnedRestart))
deriving DecidableEq, Repr

structure ClaimOwnerRow where
  status : SessionStatus
  owner : Option String
  selected : Bool
deriving DecidableEq, Repr

def claimOwnerRow (db : Database) (sessionId : String) (key : Component) : Option ClaimOwnerRow :=
  (db.executionSessions.find sessionId).map fun session =>
    ⟨session.status, reservationOwner db key,
      db.componentReservations.contains key && db.sessionComponents.contains (sessionId, key)⟩

section Cache

variable {κ α : Type} [DecidableEq κ]

def recalled (cache : List (κ × α)) (key : κ) : Option α :=
  (cache.find? fun entry => entry.1 = key).map Prod.snd

def recallOr (cache : List (κ × α)) (key : κ) (compute : Result α) : Result (α × List (κ × α)) :=
  match recalled cache key with
  | some value => .ok (value, cache)
  | none => do
      let value ← compute
      return (value, cache ++ [(key, value)])

end Cache

abbrev ClaimKey := String × Component

structure ClaimCaches where
  checkedOwners : List (ClaimKey × Option ClaimOwnerRow)
  checkedPendingWork : List (ClaimKey × List JobAddress)
  producingIdentities : List (ClaimKey × Result (Nat × Nat))
  selectedJobRoots : List (String × List JobRoot)

def ClaimCaches.empty : ClaimCaches := ⟨[], [], [], []⟩

def claimOwnerRowError (row : Option ClaimOwnerRow) (sessionId : String) (component : Component) : Option Error :=
  match row with
  | none => some (.runtime ("Job claims require an existing running session: " ++ sessionId))
  | some row =>
      if row.status != .running then
        some (.runtime ("Job claims require an existing running session: " ++ sessionId))
      else if row.owner != some sessionId then
        some (.runtime ("Component " ++ reprMembers component ++ " reservation belongs to another session, " ++
          "not claiming session " ++ sessionId))
      else if !row.selected then
        some (.runtime ("Component " ++ reprMembers component ++ " is outside session " ++ sessionId ++
          " selected scope"))
      else none

def Result.error? {α : Type} : Result α → Option Error
  | .ok _ => none
  | .error error => some error

-- A raised error leaves the whole group; a returned one refuses this batch.
def executionClaimOwnerError (db : Database) (probe : Probe) (node sessionId : String) (component : Component)
    (checked : List (ClaimKey × Option ClaimOwnerRow)) :
    Result (Option Error × List (ClaimKey × Option ClaimOwnerRow)) := do
  if node ∉ component then
    return (some (.runtime ("Claimed node " ++ node ++ " is not a member of component " ++ reprMembers component)),
      checked)
  let blockers := readInterruptClaimBlockers db sessionId component
  if !blockers.isEmpty then return (some (.interruptAdmissionPaused blockers), checked)
  let key := (sessionId, encodeComponentKey component)
  let fences ← readInterruptExecutionFences db sessionId key.2
  if !fences.isEmpty then
    return (some (.runtime "Post-interrupt fence refuses component claim"), checked)
  let (row, checked) ← recallOr checked key (pure (claimOwnerRow db key.1 key.2))
  match claimOwnerRowError row sessionId component with
  | some error => return (some error, checked)
  | none => return ((validateThreadOverrideClaim db probe sessionId component).error?, checked)

structure ClaimRow where
  job : Job
  jobInstance : Option JobInstance
deriving DecidableEq, Repr

def claimRow (db : Database) (node : String) (jobId : Nat) : Option ClaimRow :=
  (db.jobs.find (node, jobId)).map fun job => ⟨job, db.jobInstances.find (node, jobId)⟩

def ClaimRow.instanceIsValid (row : ClaimRow) : Bool :=
  match row.jobInstance with
  | none => false
  | some identity => validInstance identity.instanceId

def ClaimRow.hasHistory (row : ClaimRow) : Bool :=
  match row.jobInstance with
  | none => false
  | some identity => identity.lastExecutionId.isSome || identity.createdByExecutionId.isSome

def claimedRows (db : Database) (batch : ExecutionClaimBatch) : Result (List ClaimRow) :=
  collect (fun jobId => orRaise (claimRow db batch.nodeName jobId)
    (.fileNotFound ("Job does not exist: " ++ address batch.nodeName jobId))) batch.jobIds

def validateClaimedRows (db : Database) (batch : ExecutionClaimBatch) (accepted : List JobAddress)
    (rows : List ClaimRow) : Result Unit := do
  require (rows.all ClaimRow.instanceIsValid) (.runtime "Job claims require valid current job instances")
  refuse (rows.any fun row => row.job.activeExecutionId.isSome || row.job.address ∈ accepted)
    (.runtime "Jobs already claimed cannot receive another active execution")
  each (fun (row : ClaimRow) => do
    if row.hasHistory then
      let _ ← readJobOwnerObservation db batch.nodeName row.job.jobId
    else pure ()) rows

def restartStillExpected (db : Database) (node : String) (jobId : Nat) (sessionId : String) (component : Component)
    (expected : OwnedRestart) (observed : Option JobOwnerObservation) : Bool :=
  match observed with
  | none => false
  | some observed =>
      let marker := (db.jobs.find (node, jobId)).bind Job.restartRequestedAt
      observed.owner == some expected.owner
        && observed.jobInstanceId == expected.jobInstanceId && observed.generation == expected.generation
        && observed.status == .queued && observed.activeExecutionId.isNone
        && expected.owner.sessionId == sessionId && expected.owner.componentKey == component
        && marker.isSome && marker == expected.restartRequestedAt

def expectedRestartError (db : Database) (batch : ExecutionClaimBatch) (sessionId : String)
    (component : Component) : List (Nat × Option OwnedRestart) → Result (Option Error)
  | [] => .ok none
  | (_, none) :: rest => expectedRestartError db batch sessionId component rest
  | (jobId, some expected) :: rest => do
      let observed ← readJobOwnerObservation db batch.nodeName jobId
      if restartStillExpected db batch.nodeName jobId sessionId component expected observed then
        expectedRestartError db batch sessionId component rest
      else return some (.restartClaimChanged
        ("Restart target changed before claim: " ++ address batch.nodeName jobId))

def jobDescendsFromSelectedRoot (db : Database) (roots : List JobRoot) (sessionId : String) (component : Component)
    (identity : Nat × Nat) : Nat → List String → Option String → Result Bool
  | _, _, none => .ok false
  | 0, _, some _ => .error (.runtime "Cyclic selected job creation ancestry")
  | fuel + 1, visited, some creator => do
      refuse (creator ∈ visited) (.runtime "Cyclic selected job creation ancestry")
      let owner ← orRaise (← readExecutionOwner db creator) (.runtime "Missing selected job creation ancestry")
      if owner.sessionId != sessionId || owner.componentKey != component
          || (owner.shapeId, owner.alignmentGeneration) != identity then return false
      if (owner.nodeName, owner.jobId, owner.jobInstanceId) ∈ roots then return true
      jobDescendsFromSelectedRoot db roots sessionId component identity fuel (creator :: visited)
        owner.createdByExecutionId

def selectedJobsInScope (db : Database) (roots : List JobRoot) (sessionId : String) (component : Component)
    (identity : Nat × Nat) (rows : List ClaimRow) : Result Unit :=
  each (fun (row : ClaimRow) => do
    let instanceId := (row.jobInstance.map JobInstance.instanceId).getD ""
    if (row.job.nodeName, row.job.jobId, instanceId) ∈ roots then pure () else
    let inside ← jobDescendsFromSelectedRoot db roots sessionId component identity
      (db.jobExecutionOwners.rows.length + 1) [] (row.jobInstance.bind JobInstance.createdByExecutionId)
    require inside
      (.runtime ("Job " ++ address row.job.nodeName row.job.jobId ++ " is outside selected job causal scope"))) rows

def selectedJobClaimError (db : Database) (sessionId : String) (component : Component) (identity : Nat × Nat)
    (rows : List ClaimRow) (checked : List (String × List JobRoot)) :
    Option Error × List (String × List JobRoot) :=
  match recallOr checked sessionId (readSessionJobRoots db sessionId) with
  | .error error => (some error, checked)
  | .ok (roots, checked) =>
      if roots.isEmpty then (none, checked)
      else ((selectedJobsInScope db roots sessionId component identity rows).error?, checked)

def claimsOwnedRestarts (db : Database) (batch : ExecutionClaimBatch) (sessionId : String) (component : Component) :
    Result Bool := do
  let restarts ← collect (fun jobId => readOwnedRestart db batch.nodeName jobId sessionId component) batch.jobIds
  if restarts.all Option.isSome then
    let identity ← readComponentProducingIdentity db component
    require (restarts.all fun restart => match restart with
        | some restart => (restart.owner.shapeId, restart.owner.alignmentGeneration) == identity
        | none => true)
      (.runtime "Restart producing component changed before claim")
    return true
  else return false

def unfinishedError (unfinished : List JobAddress) : Option Error :=
  match unfinished with
  | [] => none
  | (node, jobId) :: _ => some (.componentExecutionIncomplete
      ("Ordinary admission waits for unfinished component job " ++ address node jobId))

def componentClaimError (db : Database) (batch : ExecutionClaimBatch) (sessionId : String) (component : Component)
    (checked : List (ClaimKey × List JobAddress)) : Option Error × List (ClaimKey × List JobAddress) :=
  let key := encodeComponentKey component
  match requireInterruptFenceAuthority db sessionId key with
  | .error error => (some error, checked)
  | .ok _ =>
      if !db.pendingComponentExecutions.contains (sessionId, key) then (none, checked) else
      match claimsOwnedRestarts db batch sessionId component with
      | .error error => (some error, checked)
      | .ok true => (none, checked)
      | .ok false =>
          match recallOr checked (sessionId, component) (readPendingComponentWork db sessionId component) with
          | .error error => (some error, checked)
          | .ok (unfinished, checked) => (unfinishedError unfinished, checked)

structure ClaimedJob where
  owner : ExecutionOwner
  previousStatus : JobStatus
  recordTaskStarted : Bool
deriving DecidableEq, Repr

def maskAt (mask : Option (List Bool)) (index : Nat) : Bool :=
  match mask with
  | none => true
  | some flags => flags.getD index false

def claimedJob (batch : ExecutionClaimBatch) (sessionId : String) (component : Component) (identity : Nat × Nat)
    (entry : (ClaimRow × String) × Nat) : ClaimedJob where
  owner := {
    executionId := entry.1.2
    nodeName := batch.nodeName
    jobId := entry.1.1.job.jobId
    jobInstanceId := (entry.1.1.jobInstance.map JobInstance.instanceId).getD ""
    generation := entry.1.1.job.generation
    sessionId := sessionId
    componentKey := encodeComponentKey component
    shapeId := identity.1
    alignmentGeneration := identity.2
    createdByExecutionId := entry.1.1.jobInstance.bind JobInstance.createdByExecutionId }
  previousStatus := entry.1.1.job.status
  recordTaskStarted := batch.taskStartedData.isSome && maskAt batch.taskStartedMask entry.2

def claimedJobs (batch : ExecutionClaimBatch) (sessionId : String) (component : Component) (identity : Nat × Nat)
    (rows : List ClaimRow) : List ClaimedJob :=
  (rows.zip batch.executionIds).zipIdx.map (claimedJob batch sessionId component identity)

abbrev Claims := List (Nat × String)
abbrev Accepted := List (ExecutionClaimBatch × ClaimedJob)

abbrev Verdict := Result (List ClaimedJob)

def restartIdentityChanged (batch : ExecutionClaimBatch) (identity : Nat × Nat) : Bool :=
  (batch.expectedRestarts.getD []).any fun expected => match expected with
    | some restart => (restart.owner.shapeId, restart.owner.alignmentGeneration) != identity
    | none => false

def maskMatches (batch : ExecutionClaimBatch) : Bool :=
  match batch.taskStartedMask with
  | none => true
  | some mask => mask.length == batch.jobIds.length

def judgeRows (db : Database) (batch : ExecutionClaimBatch) (sessionId : String) (component : Component)
    (accepted : List JobAddress) (caches : ClaimCaches) : Result (Verdict × ClaimCaches) := do
  match claimedRows db batch with
  | .error error => return (.error error, caches)
  | .ok rows =>
  match validateClaimedRows db batch accepted rows with
  | .error error => return (.error error, caches)
  | .ok _ =>
  match ← expectedRestartError db batch sessionId component
      (batch.jobIds.zip (batch.expectedRestarts.getD [])) with
  | some error => return (.error error, caches)
  | none =>
  let (identity, identities) ← recallOr caches.producingIdentities (sessionId, component)
    (pure (readComponentProducingIdentity db component))
  let caches := { caches with producingIdentities := identities }
  match identity with
  | .error error => return (.error error, caches)
  | .ok identity =>
  let (selectionError, roots) := selectedJobClaimError db sessionId component identity rows caches.selectedJobRoots
  let caches := { caches with selectedJobRoots := roots }
  match selectionError with
  | some error => return (.error error, caches)
  | none =>
  if restartIdentityChanged batch identity then
    return (.error (.restartClaimChanged "Restart producing component changed before claim"), caches)
  let (admissionError, pendingWork) := componentClaimError db batch sessionId component caches.checkedPendingWork
  let caches := { caches with checkedPendingWork := pendingWork }
  match admissionError with
  | some error => return (.error error, caches)
  | none =>
  if maskMatches batch then return (.ok (claimedJobs batch sessionId component identity rows), caches)
  else return (.error (.value "task_started_mask length mismatch"), caches)

def judgeBatch (db : Database) (probe : Probe) (batch : ExecutionClaimBatch) (accepted : List JobAddress)
    (caches : ClaimCaches) : Result (Verdict × ClaimCaches) :=
  match batch.sessionId, batch.component with
  | some sessionId, some component => do
      let (ownerError, owners) ← executionClaimOwnerError db probe batch.nodeName sessionId component
        caches.checkedOwners
      let caches := { caches with checkedOwners := owners }
      match ownerError with
      | some error => return (.error error, caches)
      | none => judgeRows db batch sessionId component accepted caches
  | _, _ => .ok (.error (.runtime "Job claims require explicit session_id and component"), caches)

def acceptedAddresses (batch : ExecutionClaimBatch) : List JobAddress :=
  batch.jobIds.map fun jobId => (batch.nodeName, jobId)

def judgeBatches (db : Database) (probe : Probe) : List ExecutionClaimBatch → List JobAddress → ClaimCaches →
    Result (List Verdict)
  | [], _, _ => .ok []
  | batch :: rest, accepted, caches => do
      let (verdict, caches) ← judgeBatch db probe batch accepted caches
      let accepted := match verdict with
        | .ok _ => accepted ++ acceptedAddresses batch
        | .error _ => accepted
      let verdicts ← judgeBatches db probe rest accepted caches
      return verdict :: verdicts

def acceptedJobs (batches : List ExecutionClaimBatch) (verdicts : List Verdict) : Accepted :=
  (batches.zip verdicts).flatMap fun entry => match entry.2 with
    | .ok jobs => jobs.map fun job => (entry.1, job)
    | .error _ => []

def statusExtra (batch : ExecutionClaimBatch) (claimed : ClaimedJob) : Details :=
  [("started_at", .int batch.startedAt), ("generation", .int claimed.owner.generation),
    ("execution_id", .text claimed.owner.executionId), ("pid", .int batch.pid)]

def claimGuard (entry : ExecutionClaimBatch × ClaimedJob) (row : Job) : Bool :=
  row.address = entry.2.owner.address && row.generation = entry.2.owner.generation && row.activeExecutionId.isNone

def claimUpdate (entry : ExecutionClaimBatch × ClaimedJob) (row : Job) : Job :=
  { row with
    activeExecutionId := some entry.2.owner.executionId
    activePid := some entry.1.pid
    activeThreadId := some entry.1.threadId
    activeStartedAt := some entry.1.startedAt
    restartRequestedAt := none
    restartRequestedByPid := none
    restartReason := none
    runtimeJson := none
    status := .running
    statusJson := statusExtra entry.1 entry.2 }

def claimEvents (entry : ExecutionClaimBatch × ClaimedJob) : List JobEvent :=
  let batch := entry.1
  let claimed := entry.2
  let started : JobEvent := {
    nodeName := batch.nodeName
    jobId := claimed.owner.jobId
    time := batch.eventTime
    event := "started"
    data := Details.merge [("previous_status", .text claimed.previousStatus.text), ("status", .text "running")]
      (statusExtra batch claimed ++
        [("session_id", .text claimed.owner.sessionId), ("component", .list (batch.component.getD []))]) }
  let taskStarted : JobEvent :=
    ⟨batch.nodeName, claimed.owner.jobId, batch.eventTime, "task_started", batch.taskStartedData.getD []⟩
  if claimed.recordTaskStarted then [started, taskStarted] else [started]

def instanceGuard (entry : ExecutionClaimBatch × ClaimedJob) (row : JobInstance) : Bool :=
  row.address = entry.2.owner.address

def instanceUpdate (entry : ExecutionClaimBatch × ClaimedJob) (row : JobInstance) : JobInstance :=
  { row with lastExecutionId := some entry.2.owner.executionId }

def writeClaims (db : Database) (claimed : Accepted) : Result Database := do
  if claimed.isEmpty then return db
  let (jobs, changed) := db.jobs.updateEach claimGuard claimUpdate claimed
  require (changed == claimed.length) (.runtime "Job claim could not acquire every requested active execution")
  let owners ← orRaise (db.jobExecutionOwners.insertAll (claimed.map fun entry => entry.2.owner))
    (.integrity "UNIQUE constraint failed: job_execution_owners.execution_id")
  let (jobInstances, changed) := db.jobInstances.updateEach instanceGuard instanceUpdate claimed
  require (changed == claimed.length) (.runtime "Job claims require a current job instance for every owner")
  return { db with
    jobs := jobs
    jobExecutionOwners := owners
    jobInstances := jobInstances
    jobEvents := db.jobEvents ++ claimed.flatMap claimEvents }

def claimResults (verdict : Verdict) : Result Claims :=
  match verdict with
  | .ok jobs => .ok (jobs.map fun job => (job.owner.generation, job.owner.executionId))
  | .error error => .error error

def applyExecutionClaimBatches (db : Database) (probe : Probe) (batches : List ExecutionClaimBatch) :
    Result (List (Result Claims) × Database) := do
  let verdicts ← judgeBatches db probe batches [] .empty
  let next ← writeClaims db (acceptedJobs batches verdicts)
  return (verdicts.map claimResults, next)

end MicroWorkflow
