import MicroWorkflow.ComponentPreparation
import MicroWorkflow.Terminal

set_option autoImplicit false

namespace MicroWorkflow

open Lib (require refuse orRaise each collect thread Table)

structure ResumePreparation where
  sessionId : String
  expectedStates : List (Component × ComponentStateSnapshot)
  expectedParents : List (Component × ComponentStateSnapshot)
  successfulResults : List (Component × Option SuccessfulResultObservation)
  expectedAdmittedShape : Shape
  clearTraceNodes : List String
  captured : List (String × List PreparationJob)
  recovered : List TerminalUpdate
  requestedAt : Timestamp
  requester : Nat
deriving DecidableEq, Repr

def capturedJobs (request : ResumePreparation) (node : String) : List PreparationJob :=
  ((request.captured.find? fun entry => entry.1 = node).map Prod.snd).getD []

def readResumeSuccessfulResult (db : Database) (component : Component) (state : ComponentStateSnapshot) :
    Result (Option SuccessfulResultObservation) := do
  let changed := Error.runtime "Component changed during retained-result observation"
  let recorded ← orRaise (← readComponentStateRecord db component true) changed
  require (recorded.snapshot == state) changed
  observeCurrentSuccess db recorded

def frozenForResume (db : Database) (sessionId : String) (key : Component) : Bool :=
  match db.interruptAdmissions.find sessionId, db.executionSessions.find sessionId with
  | some admission, some session =>
      admission.targetComponentKey == key && admission.state == .frozen && session.status == .running
        && resumeCommand session.command
  | _, _ => false

def requireResumeComponentAvailable (db : Database) (key : Component) (sessionId : String) : Result Unit := do
  refuse (db.pendingComponentExecutions.rows.any fun row => row.componentKey = key)
    (.runtime "Resume requires recovery of a pending component")
  let holds := db.componentHolds.select fun row => row.componentKey = key
  require (holds.isEmpty || (frozenForResume db sessionId key && holds.length == 1
      && holds.all fun hold => hold.sessionId == sessionId && hold.holdCount == 1))
    (.runtime "Resume requires recovery of a held component")

def abandonedOwner (observed : JobOwnerObservation) (job : PreparationJob) : Option ExecutionOwner :=
  match observed.owner, observed.session with
  | some owner, some session =>
      if session.row.status = .terminal ∧ job.activeExecutionId = some owner.executionId then some owner else none
  | _, _ => none

def validateRunningResumeJob (db : Database) (node : String) (job : PreparationJob) (component : Component)
    (observed : JobOwnerObservation) : Result Unit := do
  require (job.activeExecutionId.isSome && job.activePid.isSome && job.activeThreadId.isSome
      && job.activeStartedAt.isSome)
    (.runtime ("Resume requires complete active metadata for " ++ address node job.jobId))
  let owner ← orRaise (abandonedOwner observed job)
    (.runtime ("Resume requires an abandoned exact owner: " ++ address node job.jobId))
  let identity ← readComponentProducingIdentity db component
  require (owner.componentKey == component && (owner.shapeId, owner.alignmentGeneration) == identity)
    (.runtime ("Resume owner has a different producing component: " ++ address node job.jobId))

def validateResumeJob (db : Database) (node : String) (component : Component) (job : PreparationJob) : Result Unit := do
  let observed ← orRaise (← readJobOwnerObservation db node job.jobId) (.type "missing job row")
  refuse (job.status == .failed && observed.owner.isNone)
    (.runtime ("Resume requires an exact owner for failed job " ++ address node job.jobId))
  refuse ((job.status == .failed || job.status == .cancelled) && match observed.owner with
      | some owner => owner.componentKey != component
      | none => false)
    (.runtime ("Resume owner has a different producing component: " ++ address node job.jobId))
  if job.status = .running then validateRunningResumeJob db node job component observed
  else refuse job.isActive (.runtime ("Resume cannot change active job " ++ address node job.jobId))

def validateResumeComponent (db : Database) (request : ResumePreparation)
    (entry : Component × ComponentStateSnapshot) : Result Unit := do
  let (component, state) := entry
  let _ ← readAdmittedComponentShape db request.sessionId component request.expectedAdmittedShape
  let roots ← readSessionJobRoots db request.sessionId
  require roots.isEmpty (.runtime "Resume requires its exact full component owner and reservation")
  let current ← readComponentStateSnapshot db component
  require (current == some state && !state.misaligned && state.lifecycle != .running)
    (.runtime "Component changed before resume preparation")
  let retained ← readResumeSuccessfulResult db component state
  require ((request.successfulResults.find? fun result => result.1 = component) == some (component, retained))
    (.runtime "Retained component result changed before resume preparation")
  requireResumeComponentAvailable db (encodeComponentKey component) request.sessionId

def validateResumeNode (db : Database) (request : ResumePreparation) (component : Component) (node : String) :
    Result Unit := do
  let jobs := readJobs db node
  require (jobs == capturedJobs request node) (.runtime ("Jobs changed before resume preparation: " ++ node))
  each (validateResumeJob db node component) jobs

def unfinishedSuccess (request : ResumePreparation) (entry : Component × ComponentStateSnapshot) : Bool :=
  entry.2.lifecycle == .done && entry.1.any fun node => (capturedJobs request node).any fun job =>
    job.status != .done && job.status != .skipped

def validateResume (db : Database) (request : ResumePreparation) : Result Unit := do
  each (validateResumeComponent db request) request.expectedStates
  requireParents db request.expectedParents (.runtime "Component parent changed before resume preparation")
  each (fun (entry : Component × ComponentStateSnapshot) => each (validateResumeNode db request entry.1) entry.1)
    request.expectedStates
  refuse (request.expectedStates.any (unfinishedSuccess request))
    (.runtime "Successful component contains unfinished work")

def recoveredUpdate (request : ResumePreparation) (node : String) (jobId : Nat) : Option TerminalUpdate :=
  request.recovered.find? fun update => update.address = (node, jobId)

def statusAfterRecovery (request : ResumePreparation) (node : String) (job : PreparationJob) : JobStatus :=
  match recoveredUpdate request node job.jobId with
  | some update => update.status.status
  | none => job.status

def needsRestart (request : ResumePreparation) (node : String) (job : PreparationJob) : Bool :=
  match statusAfterRecovery request node job with
  | .failed | .cancelled | .running => true
  | .queued | .done | .skipped => false

def resumedRow (request : ResumePreparation) (row : Job) : Job :=
  { row with
    status := .queued
    statusJson := []
    runtimeJson := none
    generation := row.generation + 1
    activeExecutionId := none
    activePid := none
    activeThreadId := none
    activeStartedAt := none
    restartRequestedAt := some request.requestedAt
    restartRequestedByPid := some request.requester
    restartReason := some "resume unsuccessful job" }

def resumeEvents (request : ResumePreparation) (node : String) (job : PreparationJob) : List JobEvent :=
  [⟨node, job.jobId, request.requestedAt, "queued",
      [("previous_status", .text (statusAfterRecovery request node job).text), ("status", .text "queued")]⟩,
    ⟨node, job.jobId, request.requestedAt, "restart_requested",
      [("previous_generation", .int job.generation), ("generation", .int (job.generation + 1)),
        ("reason", .text "resume unsuccessful job"), ("requested_by_pid", .int request.requester)]⟩]

def resumeJob (request : ResumePreparation) (db : Database) (entry : String × PreparationJob) : Result Database := do
  let (node, job) := entry
  let jobs ← db.jobs.changeOne (node, job.jobId) (fun row => row.generation == job.generation) (resumedRow request)
    (.runtime ("Job changed before resume: " ++ address node job.jobId))
  return { db with
    jobs := jobs
    jobEvents := db.jobEvents ++ resumeEvents request node job }

def restoredResult (retained : Option SuccessfulResultObservation) : Option SuccessfulResultObservation :=
  retained.filter fun result => result.lifecycle == .sampled

def resumedState (retained : Option SuccessfulResultObservation) (row : ComponentState) : ComponentState :=
  match restoredResult retained with
  | some restored => { row with
      lifecycle := restored.lifecycle
      stability := some restored.stability
      instabilityOrigin := restored.instabilityOrigin
      retainedResultShapeId := some restored.identity.shapeId
      retainedResultAlignmentGeneration := some restored.identity.alignmentGeneration }
  | none => { row with
      lifecycle := .queued
      stability := none
      instabilityOrigin := none
      retainedResultShapeId := none
      retainedResultAlignmentGeneration := none }

theorem resumed_state_key (retained : Option SuccessfulResultObservation) (row : ComponentState) :
    (resumedState retained row).componentKey = row.componentKey := by
  unfold resumedState
  split <;> rfl

def failedAsRead (shapeId : Nat) (state : ComponentStateSnapshot) (retained : Option SuccessfulResultObservation)
    (row : ComponentState) : Bool :=
  row.lifecycle == .failed && row.shapeId == shapeId && !row.misaligned
    && row.alignmentGeneration == state.alignmentGeneration && row.stability.isNone && row.instabilityOrigin.isNone
    && row.retainedResultShapeId == retained.map (fun result => result.identity.shapeId)
    && row.retainedResultAlignmentGeneration == retained.map fun result => result.identity.alignmentGeneration

def resumeFailedState (request : ResumePreparation) (db : Database) (component : Component)
    (state : ComponentStateSnapshot) : Result Database :=
  if state.lifecycle = .failed then do
    let changed := Error.runtime "Component changed before resume"
    let retained := ((request.successfulResults.find? fun result => result.1 = component).bind Prod.snd)
    let current ← orRaise (← readComponentStateRecord db component true) changed
    require (current.snapshot == state) changed
    let states ← db.componentStates.changeOne (encodeComponentKey component)
      (failedAsRead current.identity.shapeId state retained) (resumedState retained) changed (resumed_state_key retained)
    return { db with componentStates := states }
  else .ok db

def queuedNodes (request : ResumePreparation) (entry : Component × ComponentStateSnapshot) : List String :=
  entry.1.filter fun node => entry.2.lifecycle == .failed
    || (capturedJobs request node).any fun job => job.status == .queued

def resumeComponent (request : ResumePreparation) (db : Database) (entry : Component × ComponentStateSnapshot) :
    Result Database := do
  let next ← resumeFailedState request db entry.1 entry.2
  return { next with
    nodes := next.nodes.modify (fun row => row.nodeName ∈ queuedNodes request entry)
      (fun row => { row with status := some "queued" }) queued_node_name }

def restartedJobs (request : ResumePreparation) : List (String × PreparationJob) :=
  (request.expectedStates.flatMap Prod.fst).flatMap fun node =>
    ((capturedJobs request node).filter (needsRestart request node)).map fun job => (node, job)

def withoutTraces (db : Database) (nodes : List String) : Database :=
  { db with jobEvents := db.jobEvents.filter fun event => event.nodeName ∉ nodes }

def raiseRefused (outcomes : List TerminalOutcome) : Result Unit :=
  each (fun outcome => match outcome with
    | .refused error => .error error
    | .settled => .ok ()) outcomes

def bumpRestarts (db : Database) (changed : Nat) : Database :=
  if changed = 0 then db else { db with jobRestartRevision := db.jobRestartRevision + 1 }

def prepareResumeComponents (db : Database) (request : ResumePreparation) : Result (Nat × Database) := do
  refuse request.expectedStates.isEmpty (.value "Resume requires a nonempty component selection")
  require (request.clearTraceNodes.all fun node => node ∈ request.expectedStates.flatMap Prod.fst)
    (.value "Resume trace selection must belong to the admitted components")
  validateResume db request
  let (outcomes, settled) ← applyTerminalUpdates (withoutTraces db request.clearTraceNodes) request.requestedAt
    request.recovered
  raiseRefused outcomes
  let restarted := restartedJobs request
  let requeued ← thread (resumeJob request) settled restarted
  let resumed ← thread (resumeComponent request) requeued request.expectedStates
  return (restarted.length, bumpRestarts resumed restarted.length)

end MicroWorkflow
