import MicroWorkflow.InterruptObservation
import MicroWorkflow.Claims
import MicroWorkflow.Lib.Statement

set_option autoImplicit false

namespace MicroWorkflow

open Lib (require refuse orRaise each collect Table)

structure ComponentTaskParent where
  nodeName : String
  jobId : Nat
  generation : Nat
  executionId : String
  sessionId : String
  component : Component
deriving DecidableEq, Repr

def taskParentIsActive (db : Database) (sessionId : String) (parent : ComponentTaskParent)
    (observed : Option JobOwnerObservation) : Bool :=
  match observed with
  | none => false
  | some observed =>
      match observed.owner with
      | none => false
      | some owner =>
          parent.sessionId == sessionId && owner.sessionId == sessionId && owner.componentKey == parent.component
            && observed.generation == parent.generation && observed.activeExecutionId == some parent.executionId
            && owner.executionId == parent.executionId && observed.status == .running
            && reservationOwner db (encodeComponentKey parent.component) == some sessionId

def validateComponentTaskParent (db : Database) (sessionId : String) (taskParent : Option ComponentTaskParent) :
    Result Unit :=
  match taskParent with
  | none => .ok ()
  | some parent => do
      let observed ← readJobOwnerObservation db parent.nodeName parent.jobId
      require (taskParentIsActive db sessionId parent observed)
        (.runtime "Component task parent is no longer the active owner")

def requireInterruptComponentAdmission (db : Database) (sessionId : String) (component : Component) : Result Unit :=
  let blockers := readInterruptClaimBlockers db sessionId component
  require blockers.isEmpty (.interruptAdmissionPaused blockers)

def validateInterruptComponentStart (db : Database) (sessionId : String) (component : Component) (lineage : Lineage) :
    Result Unit := do
  let key := encodeComponentKey component
  requireInterruptFenceAuthority db sessionId key
  match db.interruptAdmissions.find sessionId with
  | none => return ()
  | some admission =>
      if admission.targetComponentKey = key then
        require (admission.state == .frozen && holdCount db sessionId key == 1)
          (.runtime "Interrupt target must be frozen before component start")
        require (lineage == (admission.frozenStability, admission.frozenInstabilityOrigin))
          (.runtime "Interrupt target start differs from its frozen successful lineage")

def requireParents (db : Database) (parents : List (Component × ComponentStateSnapshot)) (error : Error) : Result Unit :=
  each (fun (parent : Component × ComponentStateSnapshot) => do
    let observed ← readComponentStateSnapshot db parent.1
    require (observed == some parent.2) error) parents

structure ComponentStart where
  sessionId : String
  component : Component
  expectedShape : Shape
  expectedAlignmentGeneration : Nat
  successfulLineage : Option Lineage
  expectedParentStates : List (Component × ComponentStateSnapshot)
  taskParent : Option ComponentTaskParent
  startingLifecycle : Lifecycle
deriving DecidableEq, Repr

def startProposal (start : ComponentStart) : Result (Option ComponentTerminalOutcome) :=
  match start.successfulLineage with
  | none => .ok none
  | some lineage => do
      let proposal ← normalizeComponentTerminalOutcome
        ⟨start.component, start.expectedShape, start.expectedAlignmentGeneration, .done, lineage.1, lineage.2⟩
      return some proposal

def resumeCommand (command : String) : Bool :=
  command == "resume" || command == "resumefrom" || command == "resumebetween"

def isNestedStart (start : ComponentStart) (key : Component) (state : ComponentStateRecord) : Bool :=
  state.lifecycle == .running && match start.taskParent with
    | some parent => encodeComponentKey parent.component == key
    | none => false

def requireNestedStart (db : Database) (start : ComponentStart) (key : Component) (state : ComponentStateRecord)
    (admitted : AdmittedComponentShape) : Result Unit := do
  let missing := Error.runtime "Nested component execution has no matching recorded start"
  let (pending, shapeJson) ← orRaise (pendingWithShape db start.sessionId key) missing
  require (shapeJson == start.expectedShape && pending.shapeId == admitted.shapeId
      && pending.alignmentGeneration == state.identity.alignmentGeneration
      && state.identity == ⟨admitted.shapeId, start.expectedAlignmentGeneration⟩) missing
  validatePendingComponentRow db pending

def startedPending (start : ComponentStart) (key : Component) (state : ComponentStateRecord) (shapeId : Nat)
    (stability : Stability) (origin : Option String) : PendingComponentExecution where
  sessionId := start.sessionId
  componentKey := key
  shapeId := shapeId
  startingShapeId := state.identity.shapeId
  alignmentGeneration := start.expectedAlignmentGeneration
  completionReady := false
  executionKind := if start.startingLifecycle = .sampled then .resume else .full
  startingLifecycle := start.startingLifecycle
  startingMisaligned := false
  stability := stability
  instabilityOrigin := origin

def unchangedState (state : ComponentStateRecord) (row : ComponentState) : Bool :=
  row.shapeId == state.identity.shapeId && row.lifecycle == state.lifecycle && row.misaligned == state.misaligned
    && row.alignmentGeneration == state.identity.alignmentGeneration && row.stability == state.stability
    && row.instabilityOrigin == state.instabilityOrigin
    && row.retainedResultShapeId == state.retainedResultIdentity.map ComponentGenerationIdentity.shapeId
    && row.retainedResultAlignmentGeneration ==
      state.retainedResultIdentity.map ComponentGenerationIdentity.alignmentGeneration

def validateRetainedStart (db : Database) (start : ComponentStart) (state : ComponentStateRecord)
    (proposal : ComponentTerminalOutcome) : Result Unit := do
  let retainedLineage : Lineage := (state.stability, state.instabilityOrigin)
  refuse (start.startingLifecycle == .queued && retainedLineage != (none, none))
    (.runtime "Queued component start cannot retain successful lineage")
  let retained ← observeCurrentSuccess db state
  refuse (start.startingLifecycle == .sampled
      && (retained.map SuccessfulResultObservation.result != some (.sampled, retainedLineage.1, retainedLineage.2)
        || retainedLineage != (proposal.stability, proposal.instabilityOrigin)))
    (.runtime "Sampled resume cannot replace retained successful result")

def beginComponentExecution (db : Database) (start : ComponentStart) : Result (Bool × Database) := do
  let members ← observationComponent start.component
  let key := encodeComponentKey members
  let proposal ← startProposal start
  requireInterruptComponentAdmission db start.sessionId start.component
  validateComponentTaskParent db start.sessionId start.taskParent
  let admitted ← readAdmittedComponentShape db start.sessionId start.component start.expectedShape
  let owner ← orRaise (db.executionSessions.find start.sessionId) (.type "Missing execution session")
  refuse (start.startingLifecycle == .sampled && !resumeCommand owner.command)
    (.runtime "Sampled component execution requires a resume session")
  let state ← orRaise (← readComponentStateRecord db start.component true) (.runtime "Unknown component")
  if isNestedStart start key state then
    requireNestedStart db start key state admitted
    return (false, db)
  else
    require (state.lifecycle == start.startingLifecycle && !state.misaligned
        && state.identity.alignmentGeneration == start.expectedAlignmentGeneration)
      (.runtime "Start requires an aligned component at the expected generation")
    let proposal ← orRaise proposal (.value "Component start requires its calculated successful lineage")
    let stability ← orRaise proposal.stability (.value "Component start requires its calculated successful lineage")
    validateInterruptComponentStart db start.sessionId proposal.component
      (proposal.stability, proposal.instabilityOrigin)
    validateRetainedStart db start state proposal
    let pending := startedPending start key state admitted.shapeId stability proposal.instabilityOrigin
    validatePendingComponentRow db pending
    requireParents db start.expectedParentStates (.runtime "Component parent changed before start")
    let states ← db.componentStates.changeOne key (unchangedState state)
      (fun row => { row with shapeId := admitted.shapeId, lifecycle := .running })
      (.runtime "Component changed before start")
    let pendings ← orRaise (db.pendingComponentExecutions.insert pending)
      (.integrity "UNIQUE constraint failed: pending_component_executions")
    return (true, { db with componentStates := states, pendingComponentExecutions := pendings })

def requireSelectedPreparationRoots (db : Database) (sessionId : String) (component : Component) (roots : List JobRoot) :
    Result Unit := do
  require (!roots.isEmpty && decide roots.Nodup) (.value "Selected preparation requires distinct exact job roots")
  let components ← readSessionComponents db sessionId
  require (components == [component]) (.runtime "Selected preparation requires one exact component")
  let recorded ← readSessionJobRoots db sessionId
  require (recorded == roots) (.runtime "Selected preparation roots changed after admission")
  each (fun (root : JobRoot) => do
    validateNodeName root.1
    let present := (db.jobs.find (root.1, root.2.1)).isSome
    let stored := (db.jobInstances.find (root.1, root.2.1)).map JobInstance.instanceId
    require (root.1 ∈ component && present && stored == some root.2.2 && validInstance root.2.2)
      (.runtime ("Selected preparation job instance changed: " ++ address root.1 root.2.1))) roots

def readComponentStatesSnapshot (db : Database) (component : Component) (expectedShape : Shape) :
    Result ComponentStateSnapshot := do
  let members ← observationComponent component
  let snapshot ← snapshotOr expectedShape (.runtime "Component observations require a valid current graph shape")
  require (members ∈ snapshot) (.runtime "Component observations require current graph membership")
  let state ← orRaise (← readComponentStateRecord db members true)
    (.runtime "Component observations require initialized current state")
  return state.snapshot

def isSelectedJob (db : Database) (roots : List JobRoot) (sessionId : String) (component : Component)
    (identity : Nat × Nat) (row : Job) : Result Bool :=
  match db.jobInstances.find row.address with
  | none => .ok false
  | some jobInstance =>
      if (row.nodeName, row.jobId, jobInstance.instanceId) ∈ roots then .ok true
      else jobDescendsFromSelectedRoot db roots sessionId component identity (db.jobExecutionOwners.rows.length + 1) []
        jobInstance.createdByExecutionId

def readSelectedExecutionJobs (db : Database) (sessionId : String) (component : Component) (shape : Shape)
    (roots : List JobRoot) (expectedIdentity : Nat × Nat) : Result (List Job) := do
  requireSelectedPreparationRoots db sessionId component roots
  let _ ← readComponentStatesSnapshot db component shape
  require (sessionRunning db sessionId && reservationOwner db (encodeComponentKey component) == some sessionId)
    (.runtime "Selected execution no longer owns its captured component")
  let identity ← readComponentProducingIdentity db component
  require (identity == expectedIdentity) (.runtime "Selected execution lost its captured component alignment")
  let inside := db.jobs.select fun row => row.nodeName ∈ component
  let chosen ← collect (fun row => do
    let selected ← isSelectedJob db roots sessionId component identity row
    return (row, selected)) inside
  return (chosen.filter Prod.snd).map Prod.fst

structure SelectedStart where
  sessionId : String
  component : Component
  shape : Shape
  roots : List JobRoot
  expectedIdentity : Nat × Nat
  expectedState : ComponentStateSnapshot
  expectedParentStates : List (Component × ComponentStateSnapshot)
  successfulLineage : Lineage
deriving DecidableEq, Repr

def selectedPending (start : SelectedStart) (key : Component) (state : ComponentStateRecord) (shapeId : Nat)
    (stability : Stability) (origin : Option String) : PendingComponentExecution where
  sessionId := start.sessionId
  componentKey := key
  shapeId := shapeId
  startingShapeId := state.identity.shapeId
  alignmentGeneration := state.identity.alignmentGeneration
  completionReady := false
  executionKind := .jobs
  startingLifecycle := state.lifecycle
  startingMisaligned := state.misaligned
  stability := stability
  instabilityOrigin := origin

def priorLineage (prior : Option SuccessfulResultObservation) : Lineage :=
  match prior with
  | none => (none, none)
  | some prior => prior.lineage

def validateSelectedPrior (state : ComponentStateRecord) (prior : Option SuccessfulResultObservation)
    (lineage : Lineage) : Result Unit := do
  refuse (state.lifecycle == .queued && prior.isSome)
    (.runtime "Queued component unexpectedly retains successful history")
  require (match prior with
      | none => true
      | some prior => prior.lineage == lineage)
    (.runtime "Selected execution cannot combine incompatible successful lineage")

def beginSelectedComponentExecution (db : Database) (start : SelectedStart) :
    Result ((ComponentTerminalOutcome × Nat × Nat) × Database) := do
  let proposal ← normalizeComponentTerminalOutcome ⟨start.component, start.shape,
    start.expectedState.alignmentGeneration, .done, start.successfulLineage.1, start.successfulLineage.2⟩
  let stability ← orRaise proposal.stability (.value "Invalid terminal component lineage")
  requireInterruptComponentAdmission db start.sessionId start.component
  let observedIdentity ← componentGenerationIdentity start.expectedIdentity.1 start.expectedIdentity.2
  let admitted ← readAdmittedComponentShape db start.sessionId start.component start.shape
  let _ ← readSelectedExecutionJobs db start.sessionId start.component start.shape start.roots start.expectedIdentity
  let key := encodeComponentKey start.component
  let changed := Error.runtime "Selected component changed before its captured start"
  let state ← orRaise (← readComponentStateRecord db start.component true) changed
  require (state.snapshot == start.expectedState && state.identity == observedIdentity && state.lifecycle != .running)
    changed
  refuse (db.pendingComponentExecutions.rows.any fun row => row.componentKey = key)
    (.runtime "Selected component already has a pending execution")
  validateInterruptComponentStart db start.sessionId start.component start.successfulLineage
  requireParents db start.expectedParentStates (.runtime "Selected component parent changed before start")
  let prior ← observeCurrentSuccess db state
  validateSelectedPrior state prior start.successfulLineage
  let pending := selectedPending start key state admitted.shapeId stability start.successfulLineage.2
  validatePendingComponentRow db pending
  let states ← db.componentStates.changeOne key (unchangedState state)
    (fun row => { row with
      shapeId := admitted.shapeId
      lifecycle := .running
      stability := (priorLineage prior).1
      instabilityOrigin := (priorLineage prior).2 })
    (.runtime "Selected component changed before start")
  let pendings ← orRaise (db.pendingComponentExecutions.insert pending)
    (.integrity "UNIQUE constraint failed: pending_component_executions")
  return ((proposal, admitted.shapeId, state.identity.alignmentGeneration),
    { db with componentStates := states, pendingComponentExecutions := pendings })

abbrev SampleCoverage := Database → String → Component → Shape → Result Bool

def drewSample (session : ExecutionSession) : Bool :=
  session.command == "run sample" || session.details.any fun entry => entry.1 = "selection"

def jobsFinished (db : Database) (component : Component) : Bool :=
  (db.jobs.select fun row => row.nodeName ∈ component).all fun row =>
    (row.status == .done || row.status == .skipped) && row.activeExecutionId.isNone

def selectedLifecycle (db : Database) (coverage : SampleCoverage) (session : ExecutionSession) (component : Component)
    (shapeJson : Shape) (prior : Option SuccessfulResultObservation) : Result Lifecycle :=
  if drewSample session then do
    let full ← coverage db session.sessionId component shapeJson
    return if full then .done else .sampled
  else
    return if jobsFinished db component || prior.map SuccessfulResultObservation.lifecycle == some .done then .done
      else .sampled

def validateSelectedRetained (pending : PendingComponentExecution) (prior : Option SuccessfulResultObservation) :
    Result Unit := do
  refuse (pending.startingLifecycle == .queued && prior.isSome)
    (.runtime "Queued selected execution cannot have a retained successful result")
  refuse ((pending.startingLifecycle == .sampled || pending.startingLifecycle == .done)
      && prior.map SuccessfulResultObservation.lifecycle != some pending.startingLifecycle)
    (.runtime "Selected execution lost its retained successful result")
  require (match prior with
      | none => true
      | some prior => prior.lineage == (some pending.stability, pending.instabilityOrigin))
    (.runtime "Selected pending lineage differs from its retained success")

def selectedComponentResult (db : Database) (coverage : SampleCoverage) (sessionId : String)
    (pending : PendingComponentExecution) (shapeJson : Shape) (successful : Bool) : Result ComponentTerminalOutcome := do
  let component ← storedSessionComponent pending.componentKey
  let identity := (pending.shapeId, pending.alignmentGeneration)
  let roots ← readSessionJobRoots db sessionId
  let frontier ← readSelectedExecutionJobs db sessionId component shapeJson roots identity
  refuse (successful && frontier.any fun row => row.status != .done && row.status != .skipped)
    (.componentExecutionIncomplete "Selected completion has unfinished causal work")
  let state ← orRaise (← readComponentStateRecord db component true)
    (.runtime "Selected execution lost its admitted component identity")
  require (state.identity == ⟨pending.shapeId, pending.alignmentGeneration⟩)
    (.runtime "Selected execution lost its admitted component identity")
  let prior ← readRetainedSuccessfulResult db state
  validateSelectedRetained pending prior
  let session ← orRaise (db.executionSessions.find sessionId) (.runtime "Selected execution lost its session")
  let lifecycle ← selectedLifecycle db coverage session component shapeJson prior
  return ⟨component, shapeJson, pending.alignmentGeneration, if successful then lifecycle else .failed,
    if successful then some pending.stability else none, if successful then pending.instabilityOrigin else none⟩

def releasePauses (db : Database) (child : String) (releasedAt : Timestamp) : Table InterruptPauseRequest.key :=
  db.interruptPauseRequests.modify
    (fun row => row.childSessionId == child && (row.state == .requested || row.state == .acknowledged))
    fun row => { row with state := .released, releasedAt := some releasedAt }

def leavesFence (admission : InterruptAdmission) (outcome : ComponentTerminalOutcome) : Bool :=
  outcome.lifecycle != .failed && (admission.readinessOverridden == some true || outcome.lifecycle == .sampled)

def recordPostInterruptFence (db : Database) (key : Component) (sessionId : String) (settledAt : Timestamp) :
    Result (Table PostInterruptFence.key) :=
  match (db.componentStates.find key).bind ComponentState.retainedResultShapeId,
      (db.componentStates.find key).bind ComponentState.retainedResultAlignmentGeneration with
  | some shapeId, some generation =>
      orRaise (db.postInterruptFences.insert ⟨key, shapeId, generation, sessionId, settledAt⟩)
        (.integrity "UNIQUE constraint failed: post_interrupt_fences")
  | _, _ => .error (.runtime "Interrupt target has no exact successful result for its fence")

def settledFences (db : Database) (admission : InterruptAdmission) (outcome : ComponentTerminalOutcome)
    (settledAt : Timestamp) : Result (Table PostInterruptFence.key) :=
  if leavesFence admission outcome then
    recordPostInterruptFence db admission.targetComponentKey admission.sessionId settledAt
  else .ok db.postInterruptFences

theorem settled_session (settledAt : Timestamp) (row : InterruptAdmission) :
    ({ row with state := .settled, settledAt := some settledAt } : InterruptAdmission).sessionId = row.sessionId := rfl

def settleInterruptTarget (db : Database) (admission : InterruptAdmission) (outcome : ComponentTerminalOutcome)
    (settledAt : Timestamp) : Result Database := do
  let sessionId := admission.sessionId
  let key := admission.targetComponentKey
  require (admission.state == .frozen) (.runtime "Interrupt target settlement requires its frozen admission")
  let holds ← db.componentHolds.removeOne (sessionId, key) (fun hold => hold.holdCount == 1)
    (.runtime "Interrupt target lost its exact hold before settlement")
  let fences ← settledFences db admission outcome settledAt
  let admissions ← db.interruptAdmissions.changeOne sessionId (fun row => row.state == .frozen)
    (fun row => { row with state := .settled, settledAt := some settledAt })
    (.runtime "Interrupt admission changed before target settlement") (settled_session settledAt)
  let next := { db with
    componentHolds := holds
    interruptPauseRequests := releasePauses db sessionId settledAt
    postInterruptFences := fences
    interruptAdmissions := admissions }
  let _ ← readInterruptAdmission next sessionId
  return next

def settleInterruptComponent (db : Database) (sessionId : String) (outcome : ComponentTerminalOutcome)
    (settledAt : Timestamp) : Result Database :=
  match db.interruptAdmissions.find sessionId with
  | none => .ok db
  | some admission =>
      if admission.targetComponentKey = encodeComponentKey outcome.component then
        settleInterruptTarget db admission outcome settledAt
      else .ok db

def requireSettledJob (outcome : ComponentTerminalOutcome) (selected : Bool) (row : Job) : Result Unit := do
  refuse (row.status == .running || row.activeExecutionId.isSome)
    (.executionSessionHasActiveJobs ("Component settlement still has active job " ++ address row.nodeName row.jobId))
  refuse (!selected && outcome.lifecycle == .done && row.status != .done && row.status != .skipped)
    (.componentExecutionIncomplete ("Component completion has unfinished job " ++ address row.nodeName row.jobId))

def requireCalculatedOutcome (db : Database) (coverage : SampleCoverage) (sessionId : String)
    (pending : PendingComponentExecution) (shapeJson : Shape) (outcome : ComponentTerminalOutcome) : Result Unit := do
  let calculated ← selectedComponentResult db coverage sessionId pending shapeJson (outcome.lifecycle != .failed)
  require (calculated == outcome && (outcome.lifecycle == .failed || pending.completionReady))
    (.runtime "Selected outcome does not match its joined causal coverage")

def requireSelectedOutcome (db : Database) (coverage : SampleCoverage) (sessionId : String)
    (pending : PendingComponentExecution) (shapeJson : Shape) (outcome : ComponentTerminalOutcome) : Result Unit :=
  if pending.executionKind = .jobs then requireCalculatedOutcome db coverage sessionId pending shapeJson outcome
  else .ok ()

def publishedResults (db : Database) (pending : PendingComponentExecution) (outcome : ComponentTerminalOutcome)
    (stability : Stability) : Table ComponentSuccessfulResult.key :=
  db.componentSuccessfulResults.upsert
    ⟨encodeComponentKey outcome.component, pending.shapeId, outcome.expectedAlignmentGeneration, outcome.lifecycle,
      stability, outcome.instabilityOrigin⟩
    fun row => { row with
      lifecycle := outcome.lifecycle
      stability := stability
      instabilityOrigin := outcome.instabilityOrigin }

def recordResult (db : Database) (pending : PendingComponentExecution) (outcome : ComponentTerminalOutcome) :
    Result (Table ComponentSuccessfulResult.key) :=
  match outcome.lifecycle, outcome.stability with
  | .failed, _ => .ok db.componentSuccessfulResults
  | _, some stability => .ok (publishedResults db pending outcome stability)
  | _, none => .error (.integrity "NOT NULL constraint failed: component_successful_results.stability")

def publishedState (pending : PendingComponentExecution) (outcome : ComponentTerminalOutcome) (row : ComponentState) :
    ComponentState :=
  if outcome.lifecycle = .failed then
    { row with
      lifecycle := .failed
      stability := outcome.stability
      instabilityOrigin := outcome.instabilityOrigin }
  else
    { row with
      lifecycle := outcome.lifecycle
      stability := outcome.stability
      instabilityOrigin := outcome.instabilityOrigin
      retainedResultShapeId := some pending.shapeId
      retainedResultAlignmentGeneration := some outcome.expectedAlignmentGeneration }

def awaitsOutcome (pending : PendingComponentExecution) (outcome : ComponentTerminalOutcome) (row : ComponentState) :
    Bool :=
  row.shapeId == pending.shapeId && row.lifecycle == .running && row.misaligned == pending.startingMisaligned
    && row.alignmentGeneration == outcome.expectedAlignmentGeneration

theorem published_state_key (pending : PendingComponentExecution) (outcome : ComponentTerminalOutcome)
    (row : ComponentState) : (publishedState pending outcome row).componentKey = row.componentKey := by
  unfold publishedState
  split <;> rfl

def publishComponentTerminalOutcome (coverage : SampleCoverage) (sessionId : String) (settledAt : Timestamp)
    (db : Database) (outcome : ComponentTerminalOutcome) : Result Database := do
  let key := encodeComponentKey outcome.component
  let (pending, shapeJson) ← orRaise (pendingWithShape db sessionId key) (.type "Missing pending execution")
  requireSelectedOutcome db coverage sessionId pending shapeJson outcome
  each (requireSettledJob outcome (pending.executionKind == .jobs))
    (db.jobs.select fun row => row.nodeName ∈ outcome.component)
  let results ← recordResult db pending outcome
  let states ← db.componentStates.changeOne key (awaitsOutcome pending outcome) (publishedState pending outcome)
    (.runtime "Component changed before settlement") (published_state_key pending outcome)
  let pendings ← db.pendingComponentExecutions.removeOne (sessionId, key) (fun _ => true)
    (.runtime "Component pending execution was not removed")
  settleInterruptComponent { db with
    componentSuccessfulResults := results
    componentStates := states
    pendingComponentExecutions := pendings } sessionId outcome settledAt

def publishComponentTerminalOutcomes (db : Database) (coverage : SampleCoverage) (sessionId : String)
    (outcomes : List ComponentTerminalOutcome) (settledAt : Timestamp) : Result Database :=
  Lib.thread (publishComponentTerminalOutcome coverage sessionId settledAt) db outcomes

def markReady (db : Database) (sessionId : String) (component : Component) : Result Database := do
  let pendings ← db.pendingComponentExecutions.changeOne (sessionId, encodeComponentKey component) (fun _ => true)
    (fun row => { row with completionReady := true }) (.runtime "Deferred component completion was not recorded")
  return { db with pendingComponentExecutions := pendings }

def finishSuccessfulComponentExecution (db : Database) (coverage : SampleCoverage) (sessionId : String)
    (outcome : ComponentTerminalOutcome) (taskParent : Option ComponentTaskParent) (settledAt : Timestamp) :
    Result (Bool × Database) := do
  let outcomes ← normalizeComponentTerminalOutcomes [outcome]
  require (outcomes.all fun outcome => outcome.lifecycle == .done)
    (.value "Intermediate component completion requires a successful result")
  validateComponentTaskParent db sessionId taskParent
  validateComponentTerminalOutcomes db sessionId outcomes
  if taskParent.map ComponentTaskParent.component = outcomes.head?.map ComponentTerminalOutcome.component then
    let next ← markReady db sessionId outcome.component
    return (false, next)
  else
    let next ← publishComponentTerminalOutcomes db coverage sessionId outcomes settledAt
    return (true, next)

def markSelectedComponentExecutionReady (db : Database) (coverage : SampleCoverage) (sessionId : String)
    (proposal : ComponentTerminalOutcome) : Result Database := do
  validateComponentTerminalOutcomes db sessionId [proposal]
  let (pending, shapeJson) ← orRaise (pendingWithShape db sessionId (encodeComponentKey proposal.component))
    (.type "Missing pending execution")
  require (pending.executionKind == .jobs) (.runtime "Selected completion requires its selected pending attempt")
  let _ ← selectedComponentResult db coverage sessionId pending shapeJson true
  markReady db sessionId proposal.component

structure Published (db : Database) (sessionId : String) (settledAt : Timestamp) (outcome : ComponentTerminalOutcome)
    (pending : PendingComponentExecution) (results : Table ComponentSuccessfulResult.key)
    (states : Table ComponentState.componentKey) (pendings : Table PendingComponentExecution.key) (next : Database) :
    Prop where
  found : db.pendingComponentExecutions.find (sessionId, encodeComponentKey outcome.component) = some pending
  joined : ∀ row ∈ db.jobs.rows, row.nodeName ∈ outcome.component →
    requireSettledJob outcome (pending.executionKind == .jobs) row = .ok ()
  recorded : recordResult db pending outcome = .ok results
  changed : db.componentStates.changeOne (encodeComponentKey outcome.component) (awaitsOutcome pending outcome)
    (publishedState pending outcome) (Error.runtime "Component changed before settlement")
    (published_state_key pending outcome) = .ok states
  removed : db.pendingComponentExecutions.removeOne (sessionId, encodeComponentKey outcome.component) (fun _ => true)
    (Error.runtime "Component pending execution was not removed") = .ok pendings
  settled : settleInterruptComponent { db with
    componentSuccessfulResults := results
    componentStates := states
    pendingComponentExecutions := pendings } sessionId outcome settledAt = .ok next

theorem pending_with_shape_found {db : Database} {sessionId : String} {key : Component}
    {pending : PendingComponentExecution} {shapeJson : Shape}
    (found : pendingWithShape db sessionId key = some (pending, shapeJson)) :
    db.pendingComponentExecutions.find (sessionId, key) = some pending := by
  simp only [pendingWithShape, Option.bind_eq_bind, Option.bind_eq_some_iff, Option.pure_def, Option.some.injEq,
    Prod.mk.injEq] at found
  obtain ⟨row, here, _, _, rfl, _⟩ := found
  exact here

theorem publish_component_terminal_outcome_ok {db next : Database} {coverage : SampleCoverage} {sessionId : String}
    {settledAt : Timestamp} {outcome : ComponentTerminalOutcome}
    (published : publishComponentTerminalOutcome coverage sessionId settledAt db outcome = .ok next) :
    ∃ pending results states pendings,
      Published db sessionId settledAt outcome pending results states pendings next := by
  simp only [publishComponentTerminalOutcome, Lib.bind_ok, Lib.orRaise_ok, Lib.each_ok, Table.mem_select,
    decide_eq_true_eq, and_imp] at published
  obtain ⟨⟨pending, shapeJson⟩, found, _, _, _, joined, results, recorded, states, changed, pendings, removed, settled⟩ :=
    published
  exact ⟨pending, results, states, pendings, pending_with_shape_found found, joined, recorded, changed, removed, settled⟩

end MicroWorkflow
