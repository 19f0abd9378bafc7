import Mathlib.Data.List.SplitBy
import MicroWorkflow.ApiAdmission

set_option autoImplicit false

namespace MicroWorkflow

open Lib (require refuse orRaise Table inTurn attempt)

inductive PermitAction where
  | acquire | release
deriving DecidableEq, Repr

structure ApiExecutionPermitMutation where
  action : PermitAction
  identity : ApiExecutionPermitIdentity
deriving DecidableEq, Repr

structure PermitRequest extends ApiExecutionPermitMutation where
  now : Timestamp
deriving DecidableEq, Repr

abbrev PermitOutcome := Except Error Bool

def acquireOne (db : Database) (request : PermitRequest) : Result (Bool × Database) :=
  tryAcquireApiExecutionPermit db request.identity request.now

def releaseOne (db : Database) (request : PermitRequest) : Result (Bool × Database) :=
  releaseApiExecutionPermit db request.identity

def applyOne (db : Database) (request : PermitRequest) : Result (Bool × Database) :=
  match request.action with
  | .acquire => acquireOne db request
  | .release => releaseOne db request

def rowsByExecution (db : Database) (executionIds : List String) : List ApiExecutionPermit :=
  db.apiExecutionPermits.select fun row => row.executionId ∈ executionIds

def recordedFor (existing : List ApiExecutionPermit) (executionId : String) : Option ApiExecutionPermit :=
  existing.find? fun row => row.executionId = executionId

def currentOwner (db : Database) (identity : ApiExecutionPermitIdentity) : Result ExecutionOwner := do
  let observed ← orRaise (← readJobOwnerObservation db identity.nodeName identity.jobId) immutableOwnerMismatch
  let owner ← orRaise observed.owner immutableOwnerMismatch
  require (ownsPermit owner identity) immutableOwnerMismatch
  require (runsPermit observed identity) exactOwnerRequired
  return owner

def plannedOwner (db : Database) (identity : ApiExecutionPermitIdentity) : Result ExecutionOwner := do
  validateIdentity identity
  currentOwner db identity

abbrev ScopeResults := List ((String × Component) × Result Unit)

def scopeVerdicts (db : Database) :
    ScopeResults → List (ApiExecutionPermitIdentity × Result ExecutionOwner) → List (Result Unit)
  | _, [] => []
  | known, (_, .error error) :: rest => .error error :: scopeVerdicts db known rest
  | known, (identity, .ok owner) :: rest =>
      let scopeKey := (identity.sessionId, encodeComponentKey owner.componentKey)
      match known.lookup scopeKey with
      | some verdict => verdict :: scopeVerdicts db known rest
      | none =>
          let verdict := requireScope db identity owner
          verdict :: scopeVerdicts db ((scopeKey, verdict) :: known) rest

def validExecutions (planned : List (PermitRequest × Result Unit)) : List String :=
  (planned.filter fun entry => entry.2.isOk).map fun entry => entry.1.identity.executionId

def plannedOutcome (existing : List ApiExecutionPermit) (request : PermitRequest) : Result Unit → Option PermitOutcome
  | .error error => some (.error error)
  | .ok () => (recordedFor existing request.identity.executionId).map (recordedPermit · request.identity)

def availablePlaces (db : Database) (pending : Nat) : Result Nat :=
  match db.apiThreadLimit with
  | none => .ok pending
  | some limit => do
      requireLimit limit
      return limit - db.apiExecutionPermits.rows.length

def grantPending (db : Database) (existing : List ApiExecutionPermit) (available : Nat) :
    List (PermitRequest × Option PermitOutcome) → List PermitOutcome × Database
  | [] => ([], db)
  | (_, some outcome) :: rest =>
      let later := grantPending db existing available rest
      (outcome :: later.1, later.2)
  | (request, none) :: rest =>
      match recordedFor existing request.identity.executionId with
      | some recorded =>
          let later := grantPending db existing available rest
          (recordedPermit recorded request.identity :: later.1, later.2)
      | none =>
          if available = 0 then
            let later := grantPending db existing available rest
            (.ok false :: later.1, later.2)
          else
            match insertPermit db request.identity request.now with
            | .error error =>
                let later := grantPending db existing available rest
                (.error error :: later.1, later.2)
            | .ok (recorded, next) =>
                let later := grantPending next (recorded :: existing) (available - 1) rest
                (.ok true :: later.1, later.2)

def planAcquisitions (db : Database) (requests : List PermitRequest) : List PermitOutcome × Database :=
  let identities := requests.map fun request => request.identity
  let verdicts := scopeVerdicts db [] (identities.zip (identities.map (plannedOwner db)))
  let existing := rowsByExecution db (validExecutions (requests.zip verdicts))
  let planned := (requests.zip verdicts).map fun entry => (entry.1, plannedOutcome existing entry.1 entry.2)
  match availablePlaces db (planned.countP fun entry => entry.2.isNone) with
  | .error error => (planned.map fun entry => entry.2.getD (.error error), db)
  | .ok available => grantPending db existing available planned

def applyAcquisitions (db : Database) (requests : List PermitRequest) : List PermitOutcome × Database :=
  if requests.length ≤ 1 then inTurn acquireOne db requests else planAcquisitions db requests

def plannedRelease (db : Database) (identity : ApiExecutionPermitIdentity) : Result Unit := do
  validateIdentity identity
  let _ ← requireOwner db identity false

def releaseRecorded (db : Database) (existing : List ApiExecutionPermit) :
    List (PermitRequest × Result Unit) → List PermitOutcome × Database
  | [] => ([], db)
  | (_, .error error) :: rest =>
      let later := releaseRecorded db existing rest
      (.error error :: later.1, later.2)
  | (request, .ok ()) :: rest =>
      match requireRecorded (recordedFor existing request.identity.executionId) request.identity with
      | .error error =>
          let later := releaseRecorded db existing rest
          (.error error :: later.1, later.2)
      | .ok recorded =>
          match removePermit db recorded with
          | .error error =>
              let later := releaseRecorded db existing rest
              (.error error :: later.1, later.2)
          | .ok next =>
              let left := existing.filter fun row => row.executionId != request.identity.executionId
              let later := releaseRecorded next left rest
              (.ok true :: later.1, later.2)

def planReleases (db : Database) (requests : List PermitRequest) : List PermitOutcome × Database :=
  let planned := requests.map fun request => (request, plannedRelease db request.identity)
  releaseRecorded db (rowsByExecution db (validExecutions planned)) planned

def applyReleases (db : Database) (requests : List PermitRequest) : List PermitOutcome × Database :=
  if requests.length ≤ 1 then inTurn releaseOne db requests else planReleases db requests

def applyRun (db : Database) (run : List PermitRequest) : List PermitOutcome × Database :=
  match run with
  | [] => ([], db)
  | request :: _ =>
      match request.action with
      | .acquire => applyAcquisitions db run
      | .release => applyReleases db run

def applyRuns (db : Database) : List (List PermitRequest) → List PermitOutcome × Database
  | [] => ([], db)
  | run :: rest =>
      let first := applyRun db run
      let later := applyRuns first.2 rest
      (first.1 ++ later.1, later.2)

def applyApiExecutionPermitMutations (db : Database) (requests : List PermitRequest) : List PermitOutcome × Database :=
  applyRuns db (requests.splitBy fun left right => left.action == right.action)

def applyInTurn (db : Database) (requests : List PermitRequest) : List PermitOutcome × Database :=
  inTurn applyOne db requests

end MicroWorkflow
