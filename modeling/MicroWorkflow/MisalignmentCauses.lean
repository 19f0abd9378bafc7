import Mathlib.Logic.Function.Basic
import MicroWorkflow.Clipboard

set_option autoImplicit false

namespace MicroWorkflow

open Lib (require refuse orRaise each Table)

section Decoding

abbrev ReceiptProducer :=
  Table GraphShape.shapeId → Table ComponentDefinition.key → PreparationReceipt → ExecutionOwner → Result Unit

def windowsAbsolute (text : String) : Bool :=
  match text.toList with
  | drive :: ':' :: slash :: _ => drive.isAlpha && (slash == '/' || slash == '\\')
  | _ => false

def relativeFileParts (text : String) : Option (List String) :=
  if text.startsWith "/" || text.startsWith "\\" || windowsAbsolute text then none else
  let parts := ((text.map fun c => if c == '\\' then '/' else c).splitOn "/").filter fun part =>
    part != "" && part != "."
  if ".." ∈ parts || parts.isEmpty then none else some parts

def ownedPath (row : MisalignmentCause) (parts : List String) (owner : ExecutionOwner) : Bool :=
  decide (2 ≤ parts.length) && row.receiverJobId.isNone && row.receiverJobInstanceId.isNone
    && parts.head? == some owner.nodeName && some ("/".intercalate parts) == row.relativePath

def decodeComponentInputCause (db : Database) (row : MisalignmentCause) : Result Unit := do
  let producer ← publicationOwner db row.producerExecutionId
  let parts ← orRaise (row.relativePath.bind relativeFileParts) (.runtime "Damaged component misalignment path")
  let damaged := Error.runtime "Damaged component misalignment producer or path"
  let owner ← orRaise producer damaged
  require (ownedPath row parts owner) damaged
  validateInputEdge db owner row.receiverNode

def namedJob (row : MisalignmentCause) : Option (Nat × String) :=
  match row.relativePath, row.receiverJobId, row.receiverJobInstanceId with
  | none, some jobId, some identity => if decide (1 ≤ jobId) && validInstance identity then some (jobId, identity) else none
  | _, _, _ => none

def requireCauseCreator (db : Database) (row : MisalignmentCause) : Result Unit :=
  match row.producerExecutionId with
  | none => .ok ()
  | some execution => do
      let owner ← readExecutionOwner db execution
      require owner.isSome (.runtime "Damaged component misalignment job producer")

def creatorAgrees (db : Database) (row : MisalignmentCause) (jobId : Nat) (identity : String) : Bool :=
  match db.jobInstances.find (row.receiverNode, jobId) with
  | none => true
  | some current => current.instanceId != identity || current.createdByExecutionId == row.producerExecutionId

def decodeComponentJobCause (db : Database) (row : MisalignmentCause) : Result Unit := do
  let (jobId, identity) ← orRaise (namedJob row) (.runtime "Damaged component misalignment receiving job")
  requireCauseCreator db row
  require (creatorAgrees db row jobId identity)
    (.runtime "Component misalignment job creator disagrees with its instance")

def preparationReceipt (db : Database) : Option String → Result (Option PreparationReceipt)
  | none => .ok none
  | some operationId => readFileReceipt db.preparationReceipts operationId

def removalCause (row : MisalignmentCause) (receipt : PreparationReceipt) : Bool :=
  row.arrivalKind.isNone && row.preparationKind == some "preparation-removal" && row.action == some "delete"
    && row.affectedKind.isSome && receipt.state == .committed && row.operation == some receipt.intent.operation

def removedInput (db : Database) (row : MisalignmentCause) (owner : ExecutionOwner) : Result PreparationEffect := do
  let parts ← orRaise (row.relativePath.bind relativeFileParts) (.runtime "Damaged preparation input path")
  require (ownedPath row parts owner) (.runtime "Damaged preparation input producer or path")
  validateInputEdge db owner row.receiverNode
  return ⟨row.receiverNode, .managedInput, row.relativePath, none, none, row.producerExecutionId⟩

def removedWork (db : Database) (row : MisalignmentCause) (owner : ExecutionOwner) : Result PreparationEffect :=
  match row.affectedKind with
  | some .managedInput => removedInput db row owner
  | _ => do
      let (jobId, identity) ← orRaise (namedJob row) (.runtime "Damaged preparation receiving job")
      return ⟨row.receiverNode, .managedJob, none, some jobId, some identity, row.producerExecutionId⟩

def decodeComponentPreparationCause (membership : ReceiptProducer) (db : Database) (row : MisalignmentCause) :
    Result Unit := do
  let damaged := Error.runtime "Damaged component preparation cause"
  let producer ← publicationOwner db row.producerExecutionId
  let stored ← preparationReceipt db row.preparationId
  let owner ← orRaise producer damaged
  let receipt ← orRaise stored damaged
  require (removalCause row receipt) damaged
  membership db.graphShapes db.componentDefinitions receipt owner
  let effect ← removedWork db row owner
  require (effect ∈ receipt.intent.manifest.effects)
    (.runtime "Preparation cause disagrees with its recorded mutation")

def decodeComponentArrivalCause (membership : ReceiptProducer) (db : Database) (state : ComponentStateSnapshot)
    (row : MisalignmentCause) : Result Unit := do
  let damaged := Error.runtime "Damaged component misalignment cause"
  require (row.componentKey == encodeComponentKey state.members && row.receiverNode ∈ state.members
    && row.alignmentGeneration == state.alignmentGeneration) damaged
  let shape ← orRaise (db.graphShapes.find row.shapeId) damaged
  let snapshot ← componentSnapshotFromShape shape.shapeJson
  require (state.members ∈ snapshot) (.runtime "Misalignment cause has a different historical receiver component")
  if row.preparationKind.isSome then decodeComponentPreparationCause membership db row else
  require (row.arrivalKind.isSome && row.operation.isNone && row.action.isNone && row.affectedKind.isNone
    && row.preparationId.isNone) (.runtime "Damaged component misalignment arrival")
  if row.arrivalKind == some .managedJob then decodeComponentJobCause db row else decodeComponentInputCause db row

abbrev CauseTable := Table MisalignmentCause.key

def currentCauses (causes : CauseTable) (state : ComponentStateSnapshot) : List MisalignmentCause :=
  (causes.select fun row =>
    row.componentKey = encodeComponentKey state.members && row.alignmentGeneration = state.alignmentGeneration).insertionSort
    fun left right => left.receiverNode ≤ right.receiverNode

def readComponentArrivalCauses (membership : ReceiptProducer) (db : Database) (causes : CauseTable)
    (state : ComponentStateSnapshot) : Result (List MisalignmentCause) := do
  let rows := currentCauses causes state
  each (decodeComponentArrivalCause membership db state) rows
  require ((!rows.isEmpty) == state.misaligned)
    (.runtime "Component misalignment and current first causes disagree")
  return rows

end Decoding

section Arrival

structure ArrivalIdentity where
  shapeId : Nat
  members : Component
  alignmentGeneration : Nat
deriving DecidableEq, Repr

structure PublicationStore where
  db : Database
  causes : CauseTable
  latches : String → Option ArrivalIdentity
  directories : List (JobAddress × NewJob)

structure ObservedReceiver where
  shapeId : Nat
  state : ComponentStateSnapshot
deriving DecidableEq, Repr

def ObservedReceiver.identity (observed : ObservedReceiver) : ArrivalIdentity :=
  ⟨observed.shapeId, observed.state.members, observed.state.alignmentGeneration⟩

def observeJobReceiver (db : Database) (receiver : String) (expectedShape : Option Shape) :
    Result (Option ObservedReceiver) := do
  match ← readJobReceiverState db receiver expectedShape with
  | none => return none
  | some state =>
      let (shapeId, _) ← readComponentProducingIdentity db state.members
      return some ⟨shapeId, state⟩

def jobCause (receiver : String) (observed : ObservedReceiver) (instance_ : JobInstance) : MisalignmentCause :=
  ⟨receiver, observed.state.alignmentGeneration, encodeComponentKey observed.state.members, observed.shapeId,
    instance_.createdByExecutionId, some .managedJob, none, some instance_.jobId, some instance_.instanceId, none, none,
    none, none, none⟩

def recordCause (causes : CauseTable) (row : MisalignmentCause) : CauseTable := (causes.insert row).getD causes

def latched (store : PublicationStore) (receiver : String) (observed : ObservedReceiver) : Bool :=
  observed.state.misaligned && store.latches receiver == some observed.identity

def idle (state : ComponentStateSnapshot) : Bool := state.lifecycle == .queued || state.lifecycle == .running

def markJobCause (membership : ReceiptProducer) (store : PublicationStore) (receiver : String)
    (observed : ObservedReceiver) (instance_ : JobInstance) : Result (Option ArrivalIdentity × PublicationStore) := do
  let state := observed.state
  if latched store receiver observed then return (some observed.identity, store) else
  let causes ← readComponentArrivalCauses membership store.db store.causes state
  if idle state then return (none, { store with latches := Function.update store.latches receiver none }) else
  if causes.any fun row => row.receiverNode == receiver then return (some observed.identity, store) else
  let db ← misalign store.db state
  let recorded := recordCause store.causes (jobCause receiver observed instance_)
  let row ← orRaise (recorded.find (receiver, state.alignmentGeneration))
    (.runtime "Managed arrival receiver lost its first cause")
  decodeComponentArrivalCause membership db state row
  return (some observed.identity, { store with db := db, causes := recorded })

def markJobArrival (membership : ReceiptProducer) (store : PublicationStore) (place : JobAddress)
    (expectedShape : Option Shape) : Result (Option ArrivalIdentity × PublicationStore) := do
  let identity ← orRaise (store.db.jobInstances.find place)
    (.runtime "Managed job arrival requires its inserted instance")
  match ← observeJobReceiver store.db place.1 expectedShape with
  | none => return (none, store)
  | some observed =>
      requireCreator store.db identity.createdByExecutionId
      markJobCause membership store place.1 observed identity

end Arrival

end MicroWorkflow
