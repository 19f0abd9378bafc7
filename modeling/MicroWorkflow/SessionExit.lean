import MicroWorkflow.SessionSettlement

set_option autoImplicit false

namespace MicroWorkflow

open Lib (require refuse orRaise each collect thread Table)

structure RestartAttempt where
  nodeName : String
  jobId : Nat
  generation : Nat
  executionId : String
deriving DecidableEq, Repr

abbrev Successors := List (JobAddress × OwnedRestart)

structure ExitRequest where
  outcome : String
  finishedAt : Timestamp
  failures : List String
  restartAttempts : List RestartAttempt
  rejectedRestarts : Successors
  exhaustedRestarts : Successors
  failedNodes : List String
  componentOutcomes : List ComponentTerminalOutcome
deriving DecidableEq, Repr

def lookup {κ α : Type} [DecidableEq κ] (entries : List (κ × α)) (key : κ) : Option α :=
  (entries.find? fun entry => entry.1 = key).map Prod.snd

def record {κ α : Type} [DecidableEq κ] (entries : List (κ × α)) (key : κ) (value : α) : List (κ × α) :=
  if entries.any fun entry => entry.1 = key then
    entries.map fun entry => if entry.1 = key then (key, value) else entry
  else entries ++ [(key, value)]

def ExitRequest.previous (request : ExitRequest) (place : JobAddress) : Option OwnedRestart :=
  (lookup request.rejectedRestarts place).or (lookup request.exhaustedRestarts place)

def validateExitRequest (request : ExitRequest) : Result (List ComponentTerminalOutcome) := do
  require (hasText request.outcome) (.value "outcome must be nonempty text")
  each validateNodeName request.failedNodes
  refuse (!request.failedNodes.isEmpty && request.outcome != "failed")
    (.value "Failed node publication requires a failed session outcome")
  let outcomes ← normalizeComponentTerminalOutcomes request.componentOutcomes
  refuse ((outcomes.any fun outcome => outcome.lifecycle == .failed) && request.outcome != "failed")
    (.value "Failed component publication requires a failed session outcome")
  return outcomes

-- A claim of previously selected work under another session counts as settled only while that session runs
-- and reserves the component.
def ownedElsewhere (db : Database) (row : Job) : Result Bool :=
  match readJobOwnerObservation db row.nodeName row.jobId with
  | .error error => if error.runtimeOrValue then .ok false else .error error
  | .ok none => .error (.type "missing job row")
  | .ok (some observed) =>
      match observed.owner, observed.session with
      | some owner, some session =>
          .ok (reservationOwner db (encodeComponentKey owner.componentKey) == some owner.sessionId
            && session.row.status == .running)
      | _, _ => .error (.type "missing execution owner")

def activeOwner (db : Database) (row : Job) : Option String :=
  (row.activeExecutionId.bind db.jobExecutionOwners.find).map ExecutionOwner.sessionId

def isUnsettled (db : Database) (sessionId : String) (ownedNodes selectedNodes : List String) (row : Job) :
    Result Bool :=
  if activeOwner db row = some sessionId ∨ row.nodeName ∈ ownedNodes then .ok true
  else if row.nodeName ∈ selectedNodes then do
    let elsewhere ← ownedElsewhere db row
    return !elsewhere
  else .ok false

def requireSettledActivity (db : Database) (sessionId : String) (ownedNodes selectedNodes : List String) (row : Job) :
    Result Unit := do
  let unsettled ← isUnsettled db sessionId ownedNodes selectedNodes row
  refuse unsettled (.executionSessionHasActiveJobs ("Execution session " ++ sessionId ++ " still owns active job " ++
    address row.nodeName row.jobId ++ ", generation " ++ toString row.generation ++ ", execution " ++
    row.activeExecutionId.getD "None" ++ "; recovery is required"))

def activeRows (db : Database) : List Job := db.jobs.select fun row => row.activeExecutionId.isSome

-- A root can catch a nested child's failure; its accepted successor is still owned work.
def rootSuccessor (db : Database) (sessionId : String) (row : Job) : Option RestartAttempt := do
  let identity ← db.jobInstances.find row.address
  let executionId ← identity.lastExecutionId
  let owner ← db.jobExecutionOwners.find executionId
  if owner.sessionId = sessionId && row.status == .queued && row.activeExecutionId.isNone
      && row.restartRequestedAt.isSome then
    some ⟨row.nodeName, row.jobId, owner.generation, owner.executionId⟩
  else none

def jobLe (left right : Job) : Bool :=
  left.nodeName < right.nodeName || (left.nodeName == right.nodeName && left.jobId ≤ right.jobId)

def exitCandidates (db : Database) (sessionId : String) (roots : List JobRoot) (attempts : List RestartAttempt) :
    List RestartAttempt :=
  let scanned := if roots.isEmpty then []
    else (db.jobs.rows.insertionSort fun left right => jobLe left right).filterMap (rootSuccessor db sessionId)
  (attempts ++ scanned).eraseDups

structure Decision where
  replacements : Successors
  knownAttempts : List JobAddress
deriving DecidableEq, Repr

def isSuccessor (sessionId : String) (attempt : RestartAttempt) (observed : JobOwnerObservation)
    (owner : ExecutionOwner) : Bool :=
  owner.sessionId == sessionId && owner.executionId == attempt.executionId && owner.generation == attempt.generation
    && decide (attempt.generation < observed.generation) && observed.status == .queued
    && observed.activeExecutionId.isNone

def requireSelectedSuccessor (db : Database) (sessionId : String) (roots : List JobRoot) (attempt : RestartAttempt)
    (owner : ExecutionOwner) : Result Unit :=
  if roots.isEmpty then .ok () else do
    let identity ← readComponentProducingIdentity db owner.componentKey
    let inside ← jobDescendsFromSelectedRoot db roots sessionId owner.componentKey identity
      (db.jobExecutionOwners.rows.length + 1) [] (some attempt.executionId)
    require inside (.runtime "Owned restart is outside selected job causal scope")
    let restart ← readOwnedRestart db attempt.nodeName attempt.jobId sessionId owner.componentKey
    require restart.isSome (.runtime "Selected job restart lost its accepted owner")

-- A rejected claim or an exhausted retry needs a later accepted request, whose event, generation, owner and
-- marker agree.
def acceptedSince (db : Database) (sessionId : String) (attempt : RestartAttempt) (observed : JobOwnerObservation)
    (owner : ExecutionOwner) (marker : Option Timestamp) (previous : OwnedRestart) : Bool :=
  observed.jobInstanceId == previous.jobInstanceId && owner == previous.owner
    && decide (previous.generation < observed.generation)
    && match latestRestartEvent db attempt.nodeName attempt.jobId with
      | none => false
      | some event =>
          some event.time == marker && event.data.get "generation" == .int observed.generation
            && event.data.get "job_instance_id" == .text observed.jobInstanceId
            && event.data.get "execution_id" == .text attempt.executionId
            && event.data.get "session_id" == .text sessionId
            && event.data.get "component" == .list owner.componentKey

def Decision.replace (decision : Decision) (place : JobAddress) (observed : JobOwnerObservation)
    (owner : ExecutionOwner) (marker : Option Timestamp) : Decision :=
  match marker with
  | none => decision
  | some requestedAt =>
      let successor : OwnedRestart := ⟨observed.jobInstanceId, observed.generation, owner, some requestedAt⟩
      { decision with replacements := record decision.replacements place successor }

def considerSuccessor (db : Database) (sessionId : String) (roots : List JobRoot) (request : ExitRequest)
    (decision : Decision) (attempt : RestartAttempt) (observed : JobOwnerObservation) (owner : ExecutionOwner) :
    Result Decision := do
  requireSelectedSuccessor db sessionId roots attempt owner
  let place := (attempt.nodeName, attempt.jobId)
  let known := { decision with knownAttempts := place :: decision.knownAttempts }
  require (reservationOwner db (encodeComponentKey owner.componentKey) == some sessionId)
    (.runtime "Restart owner no longer holds its component reservation")
  let marker := (db.jobs.find place).bind Job.restartRequestedAt
  match request.previous place with
  | none => return known.replace place observed owner marker
  | some previous =>
      if acceptedSince db sessionId attempt observed owner marker previous then
        return known.replace place observed owner marker
      else return known

def considerAttempt (db : Database) (sessionId : String) (roots : List JobRoot) (request : ExitRequest)
    (decision : Decision) (attempt : RestartAttempt) : Result Decision := do
  match ← readJobOwnerObservation db attempt.nodeName attempt.jobId with
  | none => return decision
  | some observed =>
      match observed.owner with
      | none => return decision
      | some owner =>
          if isSuccessor sessionId attempt observed owner then
            considerSuccessor db sessionId roots request decision attempt observed owner
          else return decision

def ownedPending (db : Database) (sessionId : String) : List (PendingComponentExecution × Shape) :=
  (db.pendingComponentExecutions.select fun row => row.sessionId = sessionId
    && reservationOwner db row.componentKey == some sessionId).filterMap fun row =>
      (db.graphShapes.find row.shapeId).map fun shape => (row, shape.shapeJson)

structure NestedDecision where
  replacements : Successors
  nestedComponents : List (JobAddress × ComponentTerminalOutcome)
deriving DecidableEq, Repr

def pendingProposal (pending : PendingComponentExecution) (shapeJson : Shape) : ComponentTerminalOutcome :=
  ⟨pending.componentKey, shapeJson, pending.alignmentGeneration, .done, some pending.stability,
    pending.instabilityOrigin⟩

def sameAsBefore (expected previous : OwnedRestart) : Bool :=
  expected.jobInstanceId != previous.jobInstanceId || expected.owner != previous.owner
    || decide (expected.generation ≤ previous.generation)

def owedRestart (db : Database) (sessionId : String) (accepted : Option OwnedRestart) (component : Component)
    (place : JobAddress) : Result (Option OwnedRestart) :=
  match accepted with
  | some restart => .ok (some restart)
  | none => readOwnedRestart db place.1 place.2 sessionId component

def owes (request : ExitRequest) (component : Component) (place : JobAddress) (expected : OwnedRestart) : Bool :=
  encodeComponentKey expected.owner.componentKey == component
    && match request.previous place with
      | none => true
      | some previous => !sameAsBefore expected previous

def Error.isRuntime : Error → Bool
  | .value _ => false
  | error => error.runtimeOrValue

-- An accepted job is repaired first; the next exit still refuses a damaged result.
def nestedVerdict (db : Database) (sessionId : String) (proposal : ComponentTerminalOutcome) (accepted : Bool) :
    Result Bool :=
  match validateComponentTerminalOutcomes db sessionId [proposal] with
  | .ok () => .ok true
  | .error error => if error.isRuntime && accepted then .ok false else .error error

def considerPendingJob (db : Database) (sessionId : String) (roots : List JobRoot) (request : ExitRequest)
    (known : List JobAddress) (pending : PendingComponentExecution) (shapeJson : Shape) (decision : NestedDecision)
    (row : Job) : Result NestedDecision := do
  let place := row.address
  let accepted := if roots.isEmpty then none else lookup decision.replacements place
  if place ∈ known && accepted.isNone then return decision else
  match ← owedRestart db sessionId accepted pending.componentKey place with
  | none => return decision
  | some expected =>
      if owes request pending.componentKey place expected then do
        let proposal := pendingProposal pending shapeJson
        let valid ← nestedVerdict db sessionId proposal accepted.isSome
        if valid then
          return ⟨record decision.replacements place expected, record decision.nestedComponents place proposal⟩
        else return decision
      else return decision

def queuedRestarts (db : Database) (component : Component) : List Job :=
  component.flatMap fun node => db.jobs.select fun row =>
    row.nodeName = node && row.status = .queued && row.activeExecutionId.isNone && row.restartRequestedAt.isSome

def considerPending (db : Database) (sessionId : String) (roots : List JobRoot) (request : ExitRequest)
    (known : List JobAddress) (decision : NestedDecision) (entry : PendingComponentExecution × Shape) :
    Result NestedDecision :=
  thread (considerPendingJob db sessionId roots request known entry.1 entry.2) decision
    (queuedRestarts db entry.1.componentKey)

def settledOutcome (outcomes : List ComponentTerminalOutcome) (component : Component) : Option ComponentTerminalOutcome :=
  outcomes.find? fun outcome => outcome.component = component

def setOutcome (outcomes : List ComponentTerminalOutcome) (outcome : ComponentTerminalOutcome) :
    List ComponentTerminalOutcome :=
  if outcomes.any fun other => other.component = outcome.component then
    outcomes.map fun other => if other.component = outcome.component then outcome else other
  else outcomes ++ [outcome]

def differsFromStart (supplied : Option ComponentTerminalOutcome) (recorded : ComponentTerminalOutcome) : Bool :=
  match supplied with
  | none => false
  | some supplied =>
      supplied.expectedShape != recorded.expectedShape
        || supplied.expectedAlignmentGeneration != recorded.expectedAlignmentGeneration

def fullOutcome (db : Database) (pending : PendingComponentExecution) (shapeJson : Shape) : ComponentTerminalOutcome :=
  let successful := pending.completionReady && jobsFinished db pending.componentKey
  ⟨pending.componentKey, shapeJson, pending.alignmentGeneration, if successful then .done else .failed,
    if successful then some pending.stability else none, if successful then pending.instabilityOrigin else none⟩

def settleFullPending (db : Database) (request : ExitRequest) (pending : PendingComponentExecution) (shapeJson : Shape)
    (settled : List ComponentTerminalOutcome) : Result (List ComponentTerminalOutcome) := do
  let component := pending.componentKey
  refuse (pending.completionReady && request.outcome != "failed" && !jobsFinished db component)
    (.runtime "Deferred component completion has unfinished jobs")
  let recorded := fullOutcome db pending shapeJson
  let supplied := settledOutcome settled component
  refuse (differsFromStart supplied recorded) (.runtime "Component outcome differs from its recorded start")
  return if supplied.isSome then settled else settled ++ [recorded]

def settleSelectedPending (db : Database) (coverage : SampleCoverage) (sessionId : String)
    (pending : PendingComponentExecution) (shapeJson : Shape) (settled : List ComponentTerminalOutcome) :
    Result (List ComponentTerminalOutcome) := do
  let recorded ← selectedComponentResult db coverage sessionId pending shapeJson pending.completionReady
  refuse (differsFromStart (settledOutcome settled pending.componentKey) recorded)
    (.runtime "Selected outcome differs from its recorded start")
  return setOutcome settled recorded

def settlePending (db : Database) (coverage : SampleCoverage) (sessionId : String) (request : ExitRequest)
    (settled : List ComponentTerminalOutcome) (entry : PendingComponentExecution × Shape) :
    Result (List ComponentTerminalOutcome) := do
  let (pending, shapeJson) := entry
  validatePendingComponentRow db pending
  refuse ((settledOutcome settled pending.componentKey).isNone && request.outcome != "failed"
      && !pending.completionReady) (.runtime "Session completion omitted a running component")
  if pending.executionKind = .jobs then
    settleSelectedPending db coverage sessionId pending shapeJson settled
  else settleFullPending db request pending shapeJson settled

inductive ExitDecision where
  | restarts (successors : Successors) (components : List (JobAddress × ComponentTerminalOutcome))
  | ended (settled : SettledSession)
deriving DecidableEq, Repr

def decideRestarts (db : Database) (sessionId : String) (roots : List JobRoot) (request : ExitRequest) :
    Result NestedDecision := do
  let decision ← thread (considerAttempt db sessionId roots request) ⟨[], []⟩
    (exitCandidates db sessionId roots request.restartAttempts)
  thread (considerPending db sessionId roots request decision.knownAttempts) ⟨decision.replacements, []⟩
    (ownedPending db sessionId)

def requireJoined (db : Database) (sessionId : String) (components : List Component) : Result Unit :=
  let owned := components.filter fun component => encodeComponentKey component ∈ reservedKeys db sessionId
  each (requireSettledActivity db sessionId owned.flatten components.flatten) (activeRows db)

def endSession (db : Database) (probe : Probe) (coverage : SampleCoverage) (sessionId : String) (request : ExitRequest)
    (outcomes : List ComponentTerminalOutcome) : Result (ExitDecision × Database) := do
  let settled ← thread (settlePending db coverage sessionId request) outcomes (ownedPending db sessionId)
  let (result, next) ← settleExecutionSession db probe coverage sessionId
    ⟨request.outcome, request.finishedAt, request.failures, settled, request.failedNodes⟩
  return (.ended result, next)

def decideExecutionSessionExit (db : Database) (probe : Probe) (coverage : SampleCoverage) (sessionId : String)
    (request : ExitRequest) : Result (ExitDecision × Database) := do
  let outcomes ← validateExitRequest request
  require (sessionRunning db sessionId)
    (.runtime ("Execution session " ++ sessionId ++ " is missing or already terminal"))
  let components ← readSessionComponents db sessionId
  let roots ← readSessionJobRoots db sessionId
  requireJoined db sessionId components
  let decision ← decideRestarts db sessionId roots request
  if decision.replacements.isEmpty then endSession db probe coverage sessionId request outcomes
  else return (.restarts decision.replacements decision.nestedComponents, db)

end MicroWorkflow
