import MicroWorkflow.InputPublications
import MicroWorkflow.Lib.Transaction

set_option autoImplicit false

namespace MicroWorkflow

open Lib (require refuse orRaise each thread inspect statement transaction Table)

structure DefaultJobSpec where
  nodeName : String
  specKey : String
  startJobId : Nat
  number : Nat
  paramsSignature : String
deriving DecidableEq, Repr

structure MisalignmentCause where
  receiverNode : String
  alignmentGeneration : Nat
  componentKey : Component
  shapeId : Nat
  producerExecutionId : Option String
  arrivalKind : Option AffectedKind
  relativePath : Option String
  receiverJobId : Option Nat
  receiverJobInstanceId : Option String
  preparationKind : Option String
  operation : Option String
  action : Option String
  affectedKind : Option AffectedKind
  preparationId : Option String
deriving DecidableEq, Repr

structure EventRow where
  eventId : Nat
  event : JobEvent
deriving DecidableEq, Repr

def DefaultJobSpec.key (row : DefaultJobSpec) : String × String := (row.nodeName, row.specKey)
def MisalignmentCause.key (row : MisalignmentCause) : String × Nat := (row.receiverNode, row.alignmentGeneration)

structure PeerWork where
  nodes : List NodeRow
  jobs : List Job
  instances : List JobInstance
  events : List EventRow
  idempotency : List IdempotencyRow
  defaultJobs : List DefaultJobSpec
  sequences : List JobSequence
  managedInputs : List ManagedInputFile
  managedProducers : List ManagedInputProducer
deriving DecidableEq, Repr

structure ClipboardData where
  nodeRow : Option NodeRow
  jobs : List Job
  instances : List JobInstance
  events : List EventRow
  idempotency : List IdempotencyRow
  defaultJobs : List DefaultJobSpec
  sequence : Option JobSequence
  managedInputs : List ManagedInputFile
  managedProducers : List ManagedInputProducer
  owners : List ExecutionOwner
  preparationReceipts : List PreparationReceipt
  preparationAttempts : List PreparationAttempt
  componentState : ComponentState
  retainedResult : Option ComponentSuccessfulResult
  misalignmentCauses : List MisalignmentCause
  peerWork : PeerWork
deriving DecidableEq, Repr

structure ClipboardObservation where
  projectId : String
  node : String
  component : Component
  data : ClipboardData
deriving DecidableEq, Repr

inductive ClipboardOperation where
  | copy | paste
deriving DecidableEq, Repr

inductive ClipboardAttemptState where
  | allocating | prepared | committed | aborted
deriving DecidableEq, Repr

structure ClipboardAttempt where
  operationId : String
  operation : ClipboardOperation
  nodeName : String
  projectId : String
  state : ClipboardAttemptState
  ownerPid : Nat
  processIdentity : String
  hostname : String
  startedAt : Timestamp
  finishedAt : Option Timestamp
  observation : ClipboardObservation
  manifest : String
deriving DecidableEq, Repr

structure ClipboardIntent where
  operationId : String
  operation : ClipboardOperation
  nodeName : String
  manifest : String
deriving DecidableEq, Repr

abbrev ClipboardReceipt := FileReceipt ClipboardIntent

def ClipboardReceipt.operationId (row : ClipboardReceipt) : String := row.intent.operationId

structure ClipboardStore where
  db : Database
  eventIds : List Nat
  defaultJobSpecs : Table DefaultJobSpec.key
  misalignmentCauses : Table MisalignmentCause.key
  clipboardAttempts : Table ClipboardAttempt.operationId
  clipboardReceipts : Table ClipboardReceipt.operationId

namespace ClipboardStore

def eventRows (store : ClipboardStore) : List EventRow := store.eventIds.zipWith EventRow.mk store.db.jobEvents

def withEvents (store : ClipboardStore) (rows : List EventRow) : ClipboardStore :=
  { store with
    eventIds := rows.map EventRow.eventId
    db := { store.db with jobEvents := rows.map EventRow.event } }

end ClipboardStore

section Support

def storedExactly {ρ : Type} [DecidableEq ρ] (stored : String → Option ρ) (id : ρ → String) (expected : List ρ)
    (error : Error) : Result Unit :=
  each (fun row => require (stored (id row) == some row) error) expected

def jobIsIdle (job : Job) : Bool :=
  job.status != .running && job.activeExecutionId.isNone && job.activePid.isNone && job.activeThreadId.isNone
    && job.activeStartedAt.isNone

def validateClipboardSupport (store : ClipboardStore) (saved current : ClipboardObservation) : Result Unit := do
  require (saved.projectId == current.projectId && saved.node == current.node)
    (.runtime "Clipboard snapshot belongs to another project or node")
  require (saved.component == current.component) (.runtime "Clipboard node belongs to another active component")
  require (saved.data.peerWork == current.data.peerWork)
    (.runtime "Clipboard node cannot coexist with current peer work")
  storedExactly store.db.jobExecutionOwners.find ExecutionOwner.executionId saved.data.owners
    (.runtime "Clipboard supporting execution history changed")
  storedExactly store.db.preparationReceipts.find PreparationReceipt.operationId saved.data.preparationReceipts
    (.runtime "Clipboard supporting preparation history changed")
  storedExactly store.db.preparationAttempts.find PreparationAttempt.operationId saved.data.preparationAttempts
    (.runtime "Clipboard supporting preparation history changed")
  match saved.data.retainedResult with
  | none => pure ()
  | some result =>
      require (store.db.componentSuccessfulResults.find result.key == some result)
        (.runtime "Clipboard retained successful history changed")
  require (saved.data.jobs.all jobIsIdle) (.runtime "Clipboard snapshot contains active job work")

def anyOverlaps (component : Component) : List Component → Result Bool
  | [] => .ok false
  | candidate :: rest => do
      require (!candidate.isEmpty && candidate.all (fun node => node != "") && encodeComponentKey candidate == candidate)
        (.runtime "Clipboard observed an invalid component identity")
      if candidate.any fun node => node ∈ component then return true else anyOverlaps component rest

def readRunningSessionsSnapshot (db : Database) : Result (List SessionSnapshot) :=
  Lib.collect (fun row => do
      let session ← executionSessionFromRowSnapshot db row
      validateExecutionSessionSnapshot session
      return session)
    ((db.executionSessions.select fun row => row.status = .running).insertionSort fun left right =>
      left.sessionId ≤ right.sessionId)

def requireIdleClipboardComponent (store : ClipboardStore) (observation : ClipboardObservation)
    (allowedGuard : Option String) : Result Unit := do
  let component := observation.component
  let state ← orRaise (← readComponentStateRecord store.db component false)
    (.type "'NoneType' object has no attribute 'lifecycle'")
  refuse (state.lifecycle == .running) (.runtime "Clipboard copy/paste requires the component to finish or stop first")
  let sessions ← readRunningSessionsSnapshot store.db
  each (fun (session : SessionSnapshot) =>
    refuse (session.row.scopeAdmitted && session.selectedComponents.any fun selected =>
        selected.any fun node => node ∈ component)
      (.runtime ("Clipboard copy/paste requires admitted component session " ++ session.row.sessionId ++
        " to finish or stop first"))) sessions
  each (fun keys => do
      let overlaps ← anyOverlaps component (keys.insertionSort (· ≤ ·))
      refuse overlaps (.runtime "Clipboard copy/paste requires an idle component"))
    [store.db.componentReservations.rows.map ComponentReservation.componentKey,
      store.db.componentHolds.rows.map ComponentHold.componentKey,
      store.db.pendingComponentExecutions.rows.map PendingComponentExecution.componentKey]
  refuse (store.db.apiExecutionPermits.rows.any fun permit => permit.nodeName ∈ component)
    (.runtime "Clipboard copy/paste requires active API work to finish or stop first")
  each (fun member =>
    match store.db.jobs.rows.find? fun job => job.nodeName = member && !jobIsIdle job with
    | some job => .error (.runtime ("Clipboard copy/paste requires active job " ++ address member job.jobId ++
        " to finish or stop first"))
    | none => .ok ()) component
  refuse (store.db.receiverMutationGuards.rows.any fun guard =>
      guard.receiverNode ∈ component && some guard.operationId != allowedGuard)
    (.runtime "Clipboard component is guarded by another operation")

end Support

section Replacement

def causesOf (store : ClipboardStore) (key : Component) (generation : Nat) : List MisalignmentCause :=
  (store.misalignmentCauses.select fun row => row.componentKey = key && row.alignmentGeneration = generation).insertionSort
    fun left right => left.receiverNode ≤ right.receiverNode

def recordedGenerations (store : ClipboardStore) (component : Component) : List Nat :=
  let key := encodeComponentKey component
  ((store.db.componentStates.select fun row => row.componentKey = key).map ComponentState.alignmentGeneration) ++
    ((store.db.componentSuccessfulResults.select fun row => row.componentKey = key).map
      ComponentSuccessfulResult.alignmentGeneration) ++
    ((store.db.jobExecutionOwners.select fun row => row.componentKey = key).map ExecutionOwner.alignmentGeneration) ++
    ((store.misalignmentCauses.select fun row => row.receiverNode ∈ component).map MisalignmentCause.alignmentGeneration)

def clipboardGenerationFloor (store : ClipboardStore) (component : Component) : Nat :=
  ((recordedGenerations store component).map (· + 1)).foldr max 0

section Statements

variable (node : String)

def clearIdempotency (store : ClipboardStore) : Result ClipboardStore :=
  .ok { store with db := { store.db with idempotency := store.db.idempotency.delete fun row => row.nodeName = node } }

def clearDefaultJobs (store : ClipboardStore) : Result ClipboardStore :=
  .ok { store with defaultJobSpecs := store.defaultJobSpecs.delete fun row => row.nodeName = node }

def clearEvents (store : ClipboardStore) : Result ClipboardStore :=
  .ok (store.withEvents (store.eventRows.filter fun row => row.event.nodeName ≠ node))

def clearManagedInputs (store : ClipboardStore) : Result ClipboardStore :=
  .ok { store with db := { store.db with
    managedInputFiles := store.db.managedInputFiles.delete fun row => row.receiverNode = node
    managedInputProducers := store.db.managedInputProducers.delete fun row =>
      row.receiverNode = node && store.db.managedInputFiles.contains (row.receiverNode, row.relativePath) } }

def clearJobs (store : ClipboardStore) : Result ClipboardStore :=
  .ok { store with db := { store.db with
    jobs := store.db.jobs.delete fun row => row.nodeName = node
    jobInstances := store.db.jobInstances.delete fun row => row.nodeName = node && store.db.jobs.contains row.address } }

def clearJobSequence (store : ClipboardStore) : Result ClipboardStore :=
  .ok { store with db := { store.db with jobSequences := store.db.jobSequences.delete fun row => row.nodeName = node } }

def hasThreadSettings (db : Database) : Bool :=
  db.pendingNodeThreadOverrides.contains node || db.nodeThreadOverrides.rows.any fun row => row.nodeName = node

def restoreNodeRow (saved current : Option NodeRow) (store : ClipboardStore) : Result ClipboardStore :=
  match saved, current with
  | none, none => .ok store
  | none, some _ => do
      refuse (hasThreadSettings node store.db)
        (.runtime "Clipboard cannot remove a node with retained thread settings")
      return { store with db := { store.db with nodes := store.db.nodes.delete fun row => row.nodeName = node } }
  | some row, none => do
      let nodes ← orRaise (store.db.nodes.insert row) (.integrity "UNIQUE constraint failed: nodes.node_name")
      return { store with db := { store.db with nodes := nodes } }
  | some row, some _ => do
      let nodes ← store.db.nodes.changeOne node (fun _ => true) (fun stored => { stored with status := row.status })
        (.runtime "Clipboard node summary was not restored")
      return { store with db := { store.db with nodes := nodes } }

end Statements

def restoreJobRow (fresh : JobAddress → String) (db : Database) (job : Job) : Result Database := do
  let jobs ← orRaise (db.jobs.insert job) (.integrity "UNIQUE constraint failed: jobs.node_name, jobs.job_id")
  refuse (db.jobInstances.rows.any fun row => row.instanceId = fresh job.address)
    (.integrity "UNIQUE constraint failed: job_instances.instance_id")
  let jobInstances ← orRaise (db.jobInstances.insert ⟨job.nodeName, job.jobId, fresh job.address, none, none⟩)
    (.integrity "UNIQUE constraint failed: job_instances.node_name, job_instances.job_id")
  return { db with jobs := jobs, jobInstances := jobInstances }

def executionRecorded (db : Database) (execution : Option String) : Bool :=
  match execution with
  | none => true
  | some execution => db.jobExecutionOwners.contains execution

def restoreInstance (node : String) (db : Database) (saved : JobInstance) : Result Database := do
  let jobInstances ← db.jobInstances.changeOne (node, saved.jobId) (fun _ => true)
    (fun row => { row with
      instanceId := saved.instanceId
      lastExecutionId := saved.lastExecutionId
      createdByExecutionId := saved.createdByExecutionId })
    (.runtime "Clipboard job identity was not restored")
  refuse (db.jobInstances.rows.any fun row => row.instanceId = saved.instanceId && row.address ≠ (node, saved.jobId))
    (.integrity "UNIQUE constraint failed: job_instances.instance_id")
  require (executionRecorded db saved.lastExecutionId && executionRecorded db saved.createdByExecutionId)
    (.integrity "FOREIGN KEY constraint failed")
  return { db with jobInstances := jobInstances }

section Rows

variable (data : ClipboardData)

def restoreJobs (fresh : JobAddress → String) (store : ClipboardStore) : Result ClipboardStore := do
  let db ← thread (restoreJobRow fresh) store.db data.jobs
  return { store with db := db }

def restoreInstances (node : String) (store : ClipboardStore) : Result ClipboardStore := do
  let db ← thread (restoreInstance node) store.db data.instances
  return { store with db := db }

def restoreEvents (store : ClipboardStore) : Result ClipboardStore := do
  require (decide ((store.eventRows ++ data.events).map EventRow.eventId).Nodup)
    (.integrity "UNIQUE constraint failed: job_events.event_id")
  return store.withEvents (store.eventRows ++ data.events)

def restoreIdempotency (store : ClipboardStore) : Result ClipboardStore := do
  let idempotency ← orRaise (store.db.idempotency.insertAll data.idempotency)
    (.integrity "UNIQUE constraint failed: idempotency.node_name, idempotency.key_hash")
  return { store with db := { store.db with idempotency := idempotency } }

def restoreDefaultJobs (store : ClipboardStore) : Result ClipboardStore := do
  let specs ← orRaise (store.defaultJobSpecs.insertAll data.defaultJobs)
    (.integrity "UNIQUE constraint failed: default_job_specs.node_name, default_job_specs.spec_key")
  return { store with defaultJobSpecs := specs }

def restoreSequence (store : ClipboardStore) : Result ClipboardStore := do
  let sequences ← orRaise (store.db.jobSequences.insertAll data.sequence.toList)
    (.integrity "UNIQUE constraint failed: job_sequences.node_name")
  return { store with db := { store.db with jobSequences := sequences } }

def restoreManagedInputs (store : ClipboardStore) : Result ClipboardStore := do
  let files ← orRaise (store.db.managedInputFiles.insertAll data.managedInputs)
    (.integrity "UNIQUE constraint failed: managed_input_files.receiver_node, managed_input_files.relative_path")
  return { store with db := { store.db with managedInputFiles := files } }

def restoreManagedProducers (store : ClipboardStore) : Result ClipboardStore := do
  require (data.managedProducers.all fun row => store.db.jobExecutionOwners.contains row.executionId
      && store.db.managedInputFiles.contains (row.receiverNode, row.relativePath))
    (.integrity "FOREIGN KEY constraint failed")
  let producers ← orRaise (store.db.managedInputProducers.insertAll data.managedProducers)
    (.integrity "UNIQUE constraint failed: managed_input_producers")
  return { store with db := { store.db with managedInputProducers := producers } }

end Rows

def restoreRetainedResult (key : Component) (shapeId generation : Nat) (retained : Option ComponentSuccessfulResult)
    (store : ClipboardStore) : Result ClipboardStore :=
  match retained with
  | none => .ok store
  | some retained => do
      let expected : ComponentSuccessfulResult :=
        ⟨key, shapeId, generation, retained.lifecycle, retained.stability, retained.instabilityOrigin⟩
      require (store.db.componentDefinitions.contains (key, shapeId)
          && match retained.instabilityOrigin with
            | none => true
            | some origin => store.db.executionSessions.contains origin)
        (.integrity "FOREIGN KEY constraint failed")
      let results ← orRaise (store.db.componentSuccessfulResults.insert expected)
        (.integrity "UNIQUE constraint failed: component_successful_results")
      require (results.find (key, shapeId, generation) == some expected)
        (.runtime "Clipboard retained result changed during restoration")
      return { store with db := { store.db with componentSuccessfulResults := results } }

def restoredState (shapeId generation : Nat) (retained : Option ComponentSuccessfulResult) (saved : ComponentState)
    (row : ComponentState) : ComponentState where
  componentKey := row.componentKey
  shapeId := shapeId
  retainedResultShapeId := retained.map fun _ => shapeId
  retainedResultAlignmentGeneration := retained.map fun _ => generation
  lifecycle := saved.lifecycle
  stability := saved.stability
  instabilityOrigin := saved.instabilityOrigin
  misaligned := saved.misaligned
  alignmentGeneration := generation

def restoreComponentState (key : Component) (shapeId generation : Nat) (data : ClipboardData) (store : ClipboardStore) :
    Result ClipboardStore := do
  let states ← store.db.componentStates.changeOne key (fun _ => true)
    (restoredState shapeId generation data.retainedResult data.componentState)
    (.runtime "Clipboard component state was not restored")
  require ((states.find key).any fun row =>
      row == restoredState shapeId generation data.retainedResult data.componentState { row with componentKey := key })
    (.runtime "Clipboard component state changed during restoration")
  return { store with db := { store.db with componentStates := states } }

def clonedCauses (shapeId generation : Nat) (causes : List MisalignmentCause) : List MisalignmentCause :=
  causes.map fun cause => { cause with shapeId := shapeId, alignmentGeneration := generation }

def restoreCauses (key : Component) (shapeId generation : Nat) (causes : List MisalignmentCause) (store : ClipboardStore) :
    Result ClipboardStore := do
  let cloned := clonedCauses shapeId generation causes
  require (cloned.all fun cause => store.db.componentDefinitions.contains (cause.componentKey, cause.shapeId)
      && executionRecorded store.db cause.producerExecutionId
      && match cause.preparationId with
        | none => true
        | some preparation => store.db.preparationReceipts.contains preparation)
    (.integrity "FOREIGN KEY constraint failed")
  let stored ← orRaise (store.misalignmentCauses.insertAll cloned)
    (.integrity "UNIQUE constraint failed: component_misalignment_causes")
  let next := { store with misalignmentCauses := stored }
  require (causesOf next key generation == cloned)
    (.runtime "Clipboard misalignment history changed during restoration")
  return next

structure NodeRows where
  nodes : List NodeRow
  jobs : List Job
  instances : List JobInstance
  events : List EventRow
  idempotency : List IdempotencyRow
  defaultJobs : List DefaultJobSpec
  sequences : List JobSequence
  managedInputs : List ManagedInputFile
  managedProducers : List ManagedInputProducer
deriving DecidableEq, Repr

def ClipboardStore.rowsOf (store : ClipboardStore) (node : String) : NodeRows where
  nodes := store.db.nodes.select fun row => row.nodeName = node
  jobs := (store.db.jobs.select fun row => row.nodeName = node).insertionSort fun left right => left.jobId ≤ right.jobId
  instances := (store.db.jobInstances.select fun row => row.nodeName = node).insertionSort fun left right =>
    left.jobId ≤ right.jobId
  events := (store.eventRows.filter fun row => row.event.nodeName = node).insertionSort fun left right =>
    left.eventId ≤ right.eventId
  idempotency := (store.db.idempotency.select fun row => row.nodeName = node).insertionSort fun left right =>
    left.keyHash ≤ right.keyHash
  defaultJobs := (store.defaultJobSpecs.select fun row => row.nodeName = node).insertionSort fun left right =>
    left.specKey ≤ right.specKey
  sequences := store.db.jobSequences.select fun row => row.nodeName = node
  managedInputs := (store.db.managedInputFiles.select fun row => row.receiverNode = node).insertionSort
    fun left right => left.relativePath ≤ right.relativePath
  managedProducers := (store.db.managedInputProducers.select fun row => row.receiverNode = node).insertionSort
    fun left right => left.relativePath < right.relativePath ∨
      (left.relativePath = right.relativePath ∧ left.executionId ≤ right.executionId)

def ClipboardData.rows (data : ClipboardData) : NodeRows :=
  ⟨data.nodeRow.toList, data.jobs, data.instances, data.events, data.idempotency, data.defaultJobs,
    data.sequence.toList, data.managedInputs, data.managedProducers⟩

def requireRows {ρ : Type} [DecidableEq ρ] (table : String) (actual expected : List ρ) : Result Unit :=
  require (actual == expected) (.runtime ("Clipboard restored " ++ table ++ " rows changed"))

def requireRestoredRows (actual expected : NodeRows) : Result Unit := do
  requireRows "nodes" actual.nodes expected.nodes
  requireRows "jobs" actual.jobs expected.jobs
  requireRows "job_instances" actual.instances expected.instances
  requireRows "job_events" actual.events expected.events
  requireRows "idempotency" actual.idempotency expected.idempotency
  requireRows "default_job_specs" actual.defaultJobs expected.defaultJobs
  requireRows "job_sequences" actual.sequences expected.sequences
  requireRows "managed_input_files" actual.managedInputs expected.managedInputs
  requireRows "managed_input_producers" actual.managedProducers expected.managedProducers

def requireRestoredState (saved : ClipboardObservation) (before : ComponentStateRecord) (generation : Nat)
    (store : ClipboardStore) : Result Unit := do
  let changed := Error.runtime "Clipboard component observation changed during restoration"
  let state ← orRaise (← readComponentStateRecord store.db saved.component false) changed
  let row := saved.data.componentState
  require (state.snapshot == ⟨saved.component, before.shapeJson, row.lifecycle, row.stability, row.instabilityOrigin,
    row.misaligned, generation⟩) changed

def clearNode (node : String) : EStateM Error ClipboardStore Unit := do
  statement (clearIdempotency node)
  statement (clearDefaultJobs node)
  statement (clearEvents node)
  statement (clearManagedInputs node)
  statement (clearJobs node)
  statement (clearJobSequence node)

def restoreNode (fresh : JobAddress → String) (saved current : ClipboardObservation) :
    EStateM Error ClipboardStore Unit := do
  statement (restoreNodeRow saved.node saved.data.nodeRow current.data.nodeRow)
  statement (restoreJobs saved.data fresh)
  statement (restoreInstances saved.data saved.node)
  statement (restoreEvents saved.data)
  statement (restoreIdempotency saved.data)
  statement (restoreDefaultJobs saved.data)
  statement (restoreSequence saved.data)
  statement (restoreManagedInputs saved.data)
  statement (restoreManagedProducers saved.data)

def restoreComponent (saved : ClipboardObservation) : EStateM Error ClipboardStore Nat := do
  let key := encodeComponentKey saved.component
  let generation ← inspect fun store => .ok (clipboardGenerationFloor store saved.component)
  let before ← inspect fun store => do
    orRaise (← readComponentStateRecord store.db saved.component false)
      (.type "'NoneType' object has no attribute 'identity'")
  let shapeId := before.identity.shapeId
  statement (restoreRetainedResult key shapeId generation saved.data.retainedResult)
  statement (restoreComponentState key shapeId generation saved.data)
  statement (restoreCauses key shapeId generation saved.data.misalignmentCauses)
  inspect (requireRestoredState saved before generation)
  return generation

def replaceClipboardNodeState (fresh : JobAddress → String) (saved current : ClipboardObservation)
    (operationId : String) : EStateM Error ClipboardStore Nat := do
  inspect fun store => validateClipboardSupport store saved current
  inspect fun store => requireIdleClipboardComponent store current (some operationId)
  clearNode saved.node
  restoreNode fresh saved current
  let generation ← restoreComponent saved
  inspect fun store => requireRestoredRows (store.rowsOf saved.node) saved.data.rows
  return generation

end Replacement

section Commit

structure PasteCommit where
  expected : ClipboardAttempt
  guards : List ReceiverMutationGuard
  receipt : ClipboardReceipt
  finishedAt : Timestamp
  saved : Option ClipboardObservation
deriving DecidableEq, Repr

def clipboardGuards (store : ClipboardStore) (operationId : String) : List ReceiverMutationGuard :=
  (store.db.receiverMutationGuards.select fun row => row.operationId = operationId).insertionSort fun left right =>
    left.receiverNode ≤ right.receiverNode

def requireExactClipboardAttempt (expected : ClipboardAttempt) (guards : List ReceiverMutationGuard) (store : ClipboardStore) :
    Result Unit :=
  require (store.clipboardAttempts.find expected.operationId == some expected
      && clipboardGuards store expected.operationId == guards)
    (.runtime "Clipboard attempt or receiver guards changed")

def finishClipboardReceipt (receipt : ClipboardReceipt) (store : ClipboardStore) : Result ClipboardStore := do
  let receipts ← finishFileReceipt store.clipboardReceipts receipt .committed
  return { store with clipboardReceipts := receipts }

def releaseClipboardGuards (operationId : String) (guards : List ReceiverMutationGuard) (store : ClipboardStore) :
    Result ClipboardStore := do
  let held := store.db.receiverMutationGuards.count fun row => row.operationId = operationId
  require (held == guards.length) (.runtime "Clipboard receiver guard count changed before commit")
  return { store with db := { store.db with
    receiverMutationGuards := store.db.receiverMutationGuards.delete fun row => row.operationId = operationId } }

def terminalAttempt (expected : ClipboardAttempt) (finishedAt : Timestamp) : ClipboardAttempt :=
  { expected with state := .committed, finishedAt := some finishedAt }

def finishClipboardAttempt (operationId : String) (finishedAt : Timestamp) (store : ClipboardStore) :
    Result ClipboardStore := do
  let attempts ← store.clipboardAttempts.changeOne operationId (fun row => row.state == .prepared)
    (fun row => { row with state := .committed, finishedAt := some finishedAt })
    (.runtime "Clipboard attempt changed before commit")
  return { store with clipboardAttempts := attempts }

def requireTerminalReceipt (receipt : ClipboardReceipt) (store : ClipboardStore) : Result Unit := do
  let stored ← readFileReceipt store.clipboardReceipts receipt.operationId
  require (stored == some (finishedReceipt receipt.operationId receipt .committed))
    (.runtime "Clipboard terminal receipt changed before commit")

def commitClipboard (observe : ClipboardStore → String → Result ClipboardObservation) (published : Result Unit)
    (fresh : JobAddress → String) (request : PasteCommit) : EStateM Error ClipboardStore (Option Nat) := do
  let expected := request.expected
  inspect (requireExactClipboardAttempt expected request.guards)
  inspect fun store => requirePreparedFileReceipt store.clipboardReceipts request.receipt
  inspect fun _ => published
  let current ← inspect fun store => observe store expected.nodeName
  inspect fun _ => require (current == expected.observation)
    (.runtime "Clipboard state changed before its writer decision")
  let result ← match request.saved with
    | none => pure none
    | some saved => do
        let generation ← replaceClipboardNodeState fresh saved current expected.operationId
        pure (some generation)
  let post ← inspect fun store => observe store expected.nodeName
  inspect fun _ => require (result.all fun generation => generation == post.data.componentState.alignmentGeneration)
    (.runtime "Clipboard paste generation changed before commit")
  statement (finishClipboardReceipt request.receipt)
  statement (releaseClipboardGuards expected.operationId request.guards)
  statement (finishClipboardAttempt expected.operationId request.finishedAt)
  inspect (requireExactClipboardAttempt (terminalAttempt expected request.finishedAt) [])
  inspect (requireTerminalReceipt request.receipt)
  return result

end Commit

end MicroWorkflow
