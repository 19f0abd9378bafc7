import MicroWorkflow.GroupedClaims
import MicroWorkflow.JobFence
import MicroWorkflow.RestartReceipts

set_option autoImplicit false

namespace MicroWorkflow

open Lib (require refuse orRaise each collect Table Run)

inductive RoundStage where
  | requested | preflighted | prepared | staged | committed | failed | ended
deriving DecidableEq, Repr

structure RestartRound where
  operationId : String
  targets : List RestartTarget
  componentPlan : Option RestartPlan
  request : RestartRequest
  stage : RoundStage
  expected : Option RestartIntent

def RestartRound.ordered (round : RestartRound) : List RestartTarget := sortTargets round.targets

def RestartRound.sessionId (round : RestartRound) : Option String :=
  round.ordered.head?.bind fun target => target.owner.map ExecutionOwner.sessionId

def openRound (operationId : String) (targets : List RestartTarget) (plan : Option RestartPlan)
    (request : RestartRequest) : Result RestartRound := do
  require ((targets.map fun target => target.owner.map ExecutionOwner.sessionId).dedup.length == 1)
    (.runtime "Restart selection must have one owning session")
  require (1 ≤ request.requester) (.value "requested_by_pid must be an integer >= 1")
  return ⟨operationId, targets, plan, request, .requested, none⟩

def requestOwnedJobRestarts (db : Database) (probe : Probe) (operationId : String) (targets : List RestartTarget)
    (plan : Option RestartPlan) (request : RestartRequest) : Result (Option RestartRound) := do
  require (decide (targets.map RestartTarget.address).Nodup) (.value "Restart selection contains duplicate jobs")
  if targets.isEmpty then (validateRestartPlan db probe plan []).map fun _ => none
  else (openRound operationId targets plan request).map some

def validateRound (db : Database) (probe : Probe) (round : RestartRound) : Result Unit := do
  validateRestartPlan db probe round.componentPlan round.ordered
  let current ← collect (fun (target : RestartTarget) => readOwnedRestartTarget db probe target.node target.jobId)
    round.ordered
  require (current == round.ordered) (.runtime "Restart ownership or state changed after preflight")

def prepareIntent (db : Database) (receipts : RestartReceipts) (probe : Probe) (round : RestartRound) :
    Result RestartIntent := do
  validateRound db probe round
  requireNoPreparedOverlap receipts round.ordered
  let database ← databaseTargets db round.ordered
  return ⟨round.operationId, round.sessionId, ⟨round.request, round.componentPlan, round.ordered, database⟩⟩

def commitRound (db : Database) (receipts : RestartReceipts) (probe : Probe) (staged : Bool) (round : RestartRound) :
    Result (Database × RestartReceipts) := do
  let intent ← orRaise round.expected (.runtime "File operation has no prepared intent")
  requirePreparedFileReceipt receipts (preparedReceipt intent)
  require staged (.runtime "Restart output was not staged exactly")
  validateRound db probe round
  let next ← applyTargets db round.ordered round.request true
  let finished ← commitReceipt next receipts intent db.jobRestartRevision
  return (next, finished)

def RestartRound.fencing (round : RestartRound) : Bool :=
  match round.stage with
  | .preflighted | .prepared | .staged | .failed => true
  | .requested | .committed | .ended => false

structure RestartWorld where
  db : Database
  receipts : RestartReceipts
  rounds : Table RestartRound.operationId

def RestartWorld.fencesFree (world : RestartWorld) (round : RestartRound) : Bool :=
  world.rounds.rows.all fun other => !other.fencing ||
    other.targets.all fun held => held.address ∉ round.targets.map RestartTarget.address

def RestartWorld.setRound (world : RestartWorld) (operationId : String) (stage : RoundStage)
    (expected : Option RestartIntent) : RestartWorld :=
  { world with rounds := world.rounds.modify (fun round => round.operationId = operationId) fun round =>
      { round with stage := stage, expected := expected } }

inductive RoundMove where
  | request | preflight | prepare | stage | commit | raise | abort | drop | recover
deriving DecidableEq, Repr

inductive RoundLabel where
  | round (operationId : String) (move : RoundMove)
  | claim (batches : List ExecutionClaimBatch) (outcomes : List (Result Claims))
  | write (write : JobWrite)
  | elsewhere

def JobWrite.outside : JobWrite → Bool
  | .claim _ _ => false
  | .ownedRestart _ _ _ _ => false
  | .terminal _ _ => true
  | .release _ _ _ _ _ => true
  | .cancel _ _ _ _ => true
  | .independentRestart _ _ _ => true

def RoundStage.open : RoundStage → Bool
  | .requested | .preflighted | .prepared | .staged => true
  | .committed | .failed | .ended => false

inductive RoundStep : RestartWorld → RoundLabel → RestartWorld → Prop where
  | opened {world : RestartWorld} {probe : Probe} {operationId : String} {targets : List RestartTarget}
      {plan : Option RestartPlan} {request : RestartRequest} {round : RestartRound}
      {rounds : Table RestartRound.operationId}
      (accepted : requestOwnedJobRestarts world.db probe operationId targets plan request = .ok (some round))
      (inserted : world.rounds.insert round = some rounds) :
      RoundStep world (.round operationId .request) { world with rounds := rounds }
  -- Refused, or an empty selection.
  | answered {world : RestartWorld} {probe : Probe} {operationId : String} {targets : List RestartTarget}
      {plan : Option RestartPlan} {request : RestartRequest}
      (closed : ∀ round, requestOwnedJobRestarts world.db probe operationId targets plan request ≠ .ok (some round)) :
      RoundStep world (.round operationId .request) world
  | preflighted {world : RestartWorld} {probe : Probe} {operationId : String} {round : RestartRound}
      (found : world.rounds.find operationId = some round) (stage : round.stage = .requested)
      (free : world.fencesFree round = true) (valid : validateRound world.db probe round = .ok ()) :
      RoundStep world (.round operationId .preflight) (world.setRound operationId .preflighted none)
  | prepared {world : RestartWorld} {probe : Probe} {operationId : String} {round : RestartRound}
      {intent : RestartIntent} {receipts : RestartReceipts}
      (found : world.rounds.find operationId = some round) (stage : round.stage = .preflighted)
      (intended : prepareIntent world.db world.receipts probe round = .ok intent)
      (recorded : prepareReceipt world.receipts intent = .ok receipts) :
      RoundStep world (.round operationId .prepare)
        ({ world with receipts := receipts }.setRound operationId .prepared (some intent))
  -- The outputs have moved beside their jobs.
  | staged {world : RestartWorld} {operationId : String} {round : RestartRound}
      (found : world.rounds.find operationId = some round) (stage : round.stage = .prepared) :
      RoundStep world (.round operationId .stage) (world.setRound operationId .staged round.expected)
  | committed {world : RestartWorld} {probe : Probe} {operationId : String} {round : RestartRound} {next : Database}
      {receipts : RestartReceipts}
      (found : world.rounds.find operationId = some round) (stage : round.stage = .staged)
      (applied : commitRound world.db world.receipts probe true round = .ok (next, receipts)) :
      RoundStep world (.round operationId .commit)
        ({ world with db := next, receipts := receipts }.setRound operationId .committed round.expected)
  -- A check, a file operation or the writer raised before the commit.
  | raised {world : RestartWorld} {operationId : String} {round : RestartRound}
      (found : world.rounds.find operationId = some round) (stage : round.stage.open = true) :
      RoundStep world (.round operationId .raise) (world.setRound operationId .failed round.expected)
  | aborted {world : RestartWorld} {operationId : String} {round : RestartRound} {intent : RestartIntent}
      {receipts : RestartReceipts}
      (found : world.rounds.find operationId = some round) (stage : round.stage = .failed)
      (expected : round.expected = some intent)
      (finished : abortReceipt world.db world.receipts intent true = .ok receipts) :
      RoundStep world (.round operationId .abort)
        ({ world with receipts := receipts }.setRound operationId .ended round.expected)
  -- It had no receipt yet, its restoration raised, or its process ended.
  | dropped {world : RestartWorld} {operationId : String} {round : RestartRound}
      (found : world.rounds.find operationId = some round) (stage : round.stage ≠ .committed) :
      RoundStep world (.round operationId .drop) (world.setRound operationId .ended round.expected)
  -- The recovery of what an ended process left prepared.
  | recovered {world : RestartWorld} {operationId : String} {round : RestartRound} {intent : RestartIntent}
      {receipts : RestartReceipts}
      (found : world.rounds.find operationId = some round) (stage : round.stage = .ended)
      (expected : round.expected = some intent)
      (finished : abortReceipt world.db world.receipts intent true = .ok receipts) :
      RoundStep world (.round operationId .recover) { world with receipts := receipts }
  | claimed {world : RestartWorld} {probe : Probe} {batches : List ExecutionClaimBatch}
      {outcomes : List (Result Claims)} {next : Database} (built : ∀ batch ∈ batches, BuiltBatch batch)
      (applied : applyExecutionClaimBatches world.db probe batches = .ok (outcomes, next)) :
      RoundStep world (.claim batches outcomes) { world with db := next }
  | written {world : RestartWorld} {write : JobWrite} {next : Database} (outside : write.outside = true)
      (applied : write.apply world.db = .ok next) : RoundStep world (.write write) { world with db := next }
  | elsewhere {world : RestartWorld} {next : Database} (jobs : next.jobs = world.db.jobs)
      (instances : next.jobInstances = world.db.jobInstances)
      (owners : next.jobExecutionOwners = world.db.jobExecutionOwners)
      (events : next.jobEvents = world.db.jobEvents) : RoundStep world .elsewhere { world with db := next }

end MicroWorkflow
