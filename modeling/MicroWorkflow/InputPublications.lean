import MicroWorkflow.JobPublication

set_option autoImplicit false

namespace MicroWorkflow

open Lib (require refuse orRaise each collect thread Table)

section Receipts

variable {Intent : Type} [DecidableEq Intent] {identity : FileReceipt Intent → String}

def insertFileReceipt (receipts : Table identity) (row : FileReceipt Intent) : Result (Table identity) := do
  validateFileReceipt (identity row) row
  orRaise (receipts.insert row) (.integrity "UNIQUE constraint failed: operation_id")

def readFileReceipt (receipts : Table identity) (operationId : String) : Result (Option (FileReceipt Intent)) :=
  match receipts.find operationId with
  | none => .ok none
  | some row => do
      validateFileReceipt operationId row
      return some row

def requirePreparedFileReceipt (receipts : Table identity) (expected : FileReceipt Intent) : Result Unit := do
  let actual ← readFileReceipt receipts (identity expected)
  require (actual == some expected && expected.state == .prepared)
    (.runtime ("File operation lost its exact prepared receipt: " ++ identity expected))

def finishFileReceipt (receipts : Table identity) (expected : FileReceipt Intent) (state : ReceiptState)
    (keep : ∀ row, identity (finishedReceipt (identity expected) row state) = identity row := by intro row; rfl) :
    Result (Table identity) := do
  refuse (state == .prepared) (.value "File operation requires a terminal decision")
  requirePreparedFileReceipt receipts expected
  receipts.changeOne (identity expected)
    (fun row => row.state == .prepared && row.intentDigest == expected.intentDigest)
    (fun row => finishedReceipt (identity expected) row state)
    (.runtime "File operation lost its prepared receipt before settlement") keep

variable {receipts next : Table identity} {row expected : FileReceipt Intent} {state : ReceiptState}

theorem insert_file_receipt_ok (inserted : insertFileReceipt receipts row = .ok next) :
    receipts.find (identity row) = none ∧ ∀ other, other ∈ next.rows ↔ other ∈ receipts.rows ∨ other = row := by
  simp only [insertFileReceipt, Lib.bind_ok, Lib.orRaise_ok] at inserted
  obtain ⟨_, _, added⟩ := inserted
  exact ⟨(Table.insert_eq_some.mp added).1, fun other => Table.mem_insert added⟩

theorem required_prepared (prepared : requirePreparedFileReceipt receipts expected = .ok ()) :
    expected ∈ receipts.rows ∧ expected.state = .prepared := by
  simp only [requirePreparedFileReceipt, Lib.bind_ok, Lib.require_ok, Bool.and_eq_true, beq_iff_eq] at prepared
  obtain ⟨actual, read, rfl, state⟩ := prepared
  refine ⟨?_, state⟩
  unfold readFileReceipt at read
  split at read
  · exact absurd read (by simp)
  · rename_i row found
    simp only [Lib.bind_ok, Lib.pure_ok, Option.some.injEq] at read
    obtain ⟨_, _, rfl⟩ := read
    exact Table.find_mem found

theorem finish_file_receipt_ok {keep : ∀ row, identity (finishedReceipt (identity expected) row state) = identity row}
    (finished : finishFileReceipt receipts expected state keep = .ok next) :
    expected ∈ receipts.rows ∧ expected.state = .prepared ∧ state ≠ .prepared ∧
      ∀ other, other ∈ next.rows ↔ (other ∈ receipts.rows ∧ identity other ≠ identity expected) ∨
        other = finishedReceipt (identity expected) expected state := by
  simp only [finishFileReceipt, Lib.bind_ok, Lib.refuse_ok, beq_eq_false_iff_ne] at finished
  obtain ⟨_, ended, _, prepared, changed⟩ := finished
  obtain ⟨member, state⟩ := required_prepared prepared
  refine ⟨member, state, ended, fun other => ?_⟩
  rw [Table.mem_change_one changed]
  constructor
  · rintro (kept | ⟨row, here, same, rfl⟩)
    · exact .inl kept
    · exact .inr (by rw [Table.rows_inj here member same])
  · rintro (kept | rfl)
    · exact .inl kept
    · exact .inr ⟨expected, member, rfl, rfl⟩

end Receipts

section Ownership

def requireSettledInputPublications (db : Database) (receiver : String) : Result Unit :=
  each (fun row => do
    validateFileReceipt row.intent.operationId row
    refuse (row.state == .prepared)
      (.runtime "Managed input receiver has an unfinished publication requiring recovery"))
    (db.inputPublications.select fun row => row.intent.receiverNode = receiver)

def producerPart (relative : String) : String := (relative.splitOn "/").headD ""

def validateInputEdge (db : Database) (owner : ExecutionOwner) (receiver : String) : Result Unit := do
  let shape ← orRaise (db.graphShapes.find owner.shapeId) (.runtime "Managed input producing graph shape is missing")
  require shape.shapeJson.nodes.Nodup (.runtime "Distinct raw node names share filesystem storage")
  require ((owner.nodeName, receiver) ∈ shape.shapeJson.edges)
    (.runtime "Managed input receiver is outside the producing graph edge")

def readInputClaimant (db : Database) (receiver relative : String) (claimant : ManagedInputProducer) :
    Result ExecutionOwner := do
  let damaged := Error.runtime "Damaged managed input producing execution"
  let owner ← orRaise (← readExecutionOwner db claimant.executionId) damaged
  require (producerPart relative == owner.nodeName) damaged
  validateInputEdge db owner receiver
  return owner

def readInputOwnership (db : Database) (receiver relative : String) : Result (Option (Bool × List ExecutionOwner)) :=
  let claimants := db.managedInputProducers.select fun row =>
    row.receiverNode = receiver && row.relativePath = relative
  match db.managedInputFiles.find (receiver, relative) with
  | none => do
      require claimants.isEmpty (.runtime "Damaged managed input ownership: orphan producers")
      return none
  | some row => do
      refuse claimants.isEmpty (.runtime "Damaged managed input ownership")
      let owners ← collect (readInputClaimant db receiver relative) claimants
      return some (row.unownedPredecessor, owners)

end Ownership

section Publication

structure InputPublish where
  node : String
  jobId : Nat
  generation : Nat
  executionId : String
  receiver : String
  operationId : String
  changes : List InputEntry
  forwarded : List (Option (Details × Nat))
  eventTime : Timestamp
  latched : Bool

namespace InputPublish

def intent (request : InputPublish) : InputIntent :=
  ⟨request.operationId, request.executionId, request.receiver, request.changes⟩

def forwardedData (request : InputPublish) (entry : InputEntry) (data : Details) (size : Nat) : Details :=
  data ++ [("target_node", .text request.receiver), ("path", .text (request.receiver ++ "/input/" ++ entry.relative))]
    ++ if entry.kind = .copy then [("size", .int size)] else []

def forwardedEvents (request : InputPublish) : List JobEvent :=
  (request.changes.zip request.forwarded).filterMap fun pair => pair.2.map fun data =>
    ⟨request.node, request.jobId, request.eventTime, "input_forwarded", request.forwardedData pair.1 data.1 data.2⟩

end InputPublish

def validateInputProducer (db : Database) (request : InputPublish) : Result ExecutionOwner := do
  let inexact := Error.runtime "Managed input publication requires its exact active producer execution"
  let observed ← orRaise (← readJobOwnerObservation db request.node request.jobId) inexact
  let owner ← orRaise observed.owner inexact
  require (observed.status == .running && observed.activeExecutionId == some request.executionId
      && owner.executionId == request.executionId && owner.generation == request.generation) inexact
  require ((observed.session.any fun session => session.row.status == .running)
      && reservationOwner db (encodeComponentKey owner.componentKey) == some owner.sessionId)
    (.runtime "Managed input producer no longer owns its execution component")
  let identity ← readComponentProducingIdentity db owner.componentKey
  require (identity == (owner.shapeId, owner.alignmentGeneration))
    (.runtime "Managed input producing component changed before publication")
  validateInputEdge db owner request.receiver
  return owner

def changesInput (pair : InputEntry × Option (Bool × List ExecutionOwner)) : Bool :=
  pair.1.kind != .delete || pair.1.existed || pair.2.isSome

def validateInputPublication (db : Database) (request : InputPublish) : Result (ExecutionOwner × Option String) := do
  refuseReceiverMutation db request.receiver
  refuseInterruptHeldPublication db request.receiver (some request.executionId)
  let owner ← validateInputProducer db request
  let ownerships ← collect (fun entry => readInputOwnership db request.receiver entry.relative) request.changes
  return (owner, ((request.changes.zip ownerships).find? changesInput).map fun pair => pair.1.relative)

def prepareInputs (db : Database) (request : InputPublish) : Result Database := do
  let _ ← validateInputPublication db request
  requireSettledInputPublications db request.receiver
  let receipts ← insertFileReceipt db.inputPublications (preparedReceipt request.intent)
  return { db with inputPublications := receipts }

def recordEntry (receiver executionId : String) (db : Database) (entry : InputEntry) : Database :=
  if entry.kind = .delete then
    { db with
      managedInputFiles := db.managedInputFiles.delete fun row => row.key = (receiver, entry.relative)
      managedInputProducers := db.managedInputProducers.delete fun row =>
        row.receiverNode = receiver && row.relativePath = entry.relative }
  else
    { db with
      managedInputFiles := db.managedInputFiles.upsert ⟨receiver, entry.relative, entry.existed⟩ id
      managedInputProducers := db.managedInputProducers.upsert ⟨receiver, entry.relative, executionId⟩ id }

def markChangedInput (causes : ArrivalCauses) (db : Database) (receiver : String) (owner : ExecutionOwner)
    (latched : Bool) : Option String → Result Database
  | none => .ok db
  | some _ => markComponentInputArrival causes db receiver owner latched

def appendForwarded (db : Database) (request : InputPublish) : Result Database := do
  let exact := (db.jobs.find (request.node, request.jobId)).any fun row =>
    row.generation == request.generation && row.activeExecutionId == some request.executionId
  require (request.forwardedEvents.isEmpty || exact) (.jobRestarted ("Job " ++ address request.node request.jobId ++
    " generation " ++ toString request.generation ++ " was restarted"))
  return { db with jobEvents := db.jobEvents ++ request.forwardedEvents }

def commitInputs (causes : ArrivalCauses) (db : Database) (request : InputPublish) (published : Bool) :
    Result Database := do
  requirePreparedFileReceipt db.inputPublications (preparedReceipt request.intent)
  require published (.runtime "Managed input publication is incomplete")
  let (owner, changed) ← validateInputPublication db request
  let recorded := request.changes.foldl (recordEntry request.receiver request.executionId) db
  let marked ← markChangedInput causes recorded request.receiver owner request.latched changed
  let appended ← appendForwarded marked request
  let receipts ← finishFileReceipt appended.inputPublications (preparedReceipt request.intent) .committed
  return { appended with inputPublications := receipts }

def abortInputs (db : Database) (request : InputPublish) (restored : Bool) : Result Database := do
  requirePreparedFileReceipt db.inputPublications (preparedReceipt request.intent)
  require restored (.runtime "Managed input restoration did not preserve the original")
  let receipts ← finishFileReceipt db.inputPublications (preparedReceipt request.intent) .aborted
  return { db with inputPublications := receipts }

end Publication

section Effects

variable {causes : ArrivalCauses} {db next : Database} {request : InputPublish}

structure InputsOnly (db next : Database) : Prop where
  jobs : next.jobs = db.jobs
  guards : next.receiverMutationGuards = db.receiverMutationGuards
  receipts : next.preparationReceipts = db.preparationReceipts
  attempts : next.preparationAttempts = db.preparationAttempts

theorem valid_publication_open {answer : ExecutionOwner × Option String}
    (valid : validateInputPublication db request = .ok answer) :
    db.receiverMutationGuards.find request.receiver = none := by
  simp only [validateInputPublication, Lib.bind_ok] at valid
  obtain ⟨_, opened, _⟩ := valid
  exact receiver_mutation_open opened

theorem prepare_inputs_ok (prepared : prepareInputs db request = .ok next) :
    db.receiverMutationGuards.find request.receiver = none ∧ InputsOnly db next ∧
      ∀ row, row ∈ next.inputPublications.rows ↔
        row ∈ db.inputPublications.rows ∨ row = preparedReceipt request.intent := by
  simp only [prepareInputs, Lib.bind_ok, Lib.pure_ok] at prepared
  obtain ⟨_, valid, _, _, receipts, inserted, rfl⟩ := prepared
  exact ⟨valid_publication_open valid, ⟨rfl, rfl, rfl, rfl⟩, (insert_file_receipt_ok inserted).2⟩

theorem record_entries_only (db : Database) (receiver executionId : String) (changes : List InputEntry) :
    let next := changes.foldl (recordEntry receiver executionId) db
    InputsOnly db next ∧ next.inputPublications = db.inputPublications := by
  induction changes generalizing db with
  | nil => exact ⟨⟨rfl, rfl, rfl, rfl⟩, rfl⟩
  | cons entry rest ih =>
      obtain ⟨⟨jobs, guards, receipts, attempts⟩, publications⟩ := ih (recordEntry receiver executionId db entry)
      have here : InputsOnly db (recordEntry receiver executionId db entry) ∧
          (recordEntry receiver executionId db entry).inputPublications = db.inputPublications := by
        unfold recordEntry
        by_cases deletes : entry.kind = .delete
        · rw [if_pos deletes]
          exact ⟨⟨rfl, rfl, rfl, rfl⟩, rfl⟩
        · rw [if_neg deletes]
          exact ⟨⟨rfl, rfl, rfl, rfl⟩, rfl⟩
      exact ⟨⟨jobs.trans here.1.jobs, guards.trans here.1.guards, receipts.trans here.1.receipts,
        attempts.trans here.1.attempts⟩, publications.trans here.2⟩

theorem mark_changed_input_only {receiver : String} {owner : ExecutionOwner} {latched : Bool} {changed : Option String}
    (marked : markChangedInput causes db receiver owner latched changed = .ok next) : StatesOnly db next := by
  cases changed with
  | none => exact Except.ok.inj marked ▸ rfl
  | some relative =>
      simp only [markChangedInput, markComponentInputArrival, Lib.bind_ok] at marked
      obtain ⟨_, _, _, _, _, _, arrived⟩ := marked
      exact mark_component_arrival_only arrived

theorem commit_inputs_ok {published : Bool} (committed : commitInputs causes db request published = .ok next) :
    db.receiverMutationGuards.find request.receiver = none ∧ InputsOnly db next ∧ published = true ∧
      preparedReceipt request.intent ∈ db.inputPublications.rows ∧
      ∀ row, row ∈ next.inputPublications.rows ↔
        (row ∈ db.inputPublications.rows ∧ row.intent.operationId ≠ request.operationId) ∨
          row = finishedReceipt request.operationId (preparedReceipt request.intent) .committed := by
  simp only [commitInputs, Lib.bind_ok, Lib.require_ok, Lib.pure_ok] at committed
  obtain ⟨_, prepared, _, done, ⟨owner, changed⟩, valid, marked, arrived, appended, events, receipts, finished, rfl⟩ :=
    committed
  have recorded := record_entries_only db request.receiver request.executionId request.changes
  have states := mark_changed_input_only arrived
  simp only [appendForwarded, Lib.bind_ok, Lib.require_ok, Lib.pure_ok] at events
  obtain ⟨_, _, rfl⟩ := events
  obtain ⟨_, _, _, rows⟩ := finish_file_receipt_ok finished
  have publications : marked.inputPublications = db.inputPublications := by rw [states, recorded.2]
  refine ⟨valid_publication_open valid, ?_, done, (required_prepared prepared).1, ?_⟩
  · constructor
    · exact (by rw [states] : marked.jobs = _).trans recorded.1.jobs
    · exact (by rw [states] : marked.receiverMutationGuards = _).trans recorded.1.guards
    · exact (by rw [states] : marked.preparationReceipts = _).trans recorded.1.receipts
    · exact (by rw [states] : marked.preparationAttempts = _).trans recorded.1.attempts
  · intro row
    rw [rows row]
    simp only [publications]
    rfl

theorem abort_inputs_ok {restored : Bool} (aborted : abortInputs db request restored = .ok next) :
    InputsOnly db next ∧ ∀ row, row ∈ next.inputPublications.rows ↔
      (row ∈ db.inputPublications.rows ∧ row.intent.operationId ≠ request.operationId) ∨
        row = finishedReceipt request.operationId (preparedReceipt request.intent) .aborted := by
  simp only [abortInputs, Lib.bind_ok, Lib.require_ok, Lib.pure_ok] at aborted
  obtain ⟨_, _, _, _, receipts, finished, rfl⟩ := aborted
  exact ⟨⟨rfl, rfl, rfl, rfl⟩, (finish_file_receipt_ok finished).2.2.2⟩

end Effects

end MicroWorkflow
