import MicroWorkflow.JobDeletion
import MicroWorkflow.PreparationAttempts

set_option autoImplicit false

namespace MicroWorkflow

open Lib (require refuse orRaise each thread Table)

structure PreparedInput where
  receiver : String
  relative : String
  owners : List ExecutionOwner
deriving DecidableEq, Repr

structure PreparationUnit where
  component : Component
  jobs : List NodeJobPreparation
  inputs : List PreparedInput
  excludedNodes : List String
deriving DecidableEq, Repr

namespace PreparationUnit

def inputEffect (item : PreparedInput) : PreparationEffect :=
  ⟨item.receiver, .managedInput, some item.relative, none, none, item.owners.head?.map ExecutionOwner.executionId⟩

def deletedJobs (plan : NodeJobPreparation) : List PreparationJob :=
  plan.jobs.filter fun job => job.jobId ∈ plan.deleteIds

def jobEffect (plan : NodeJobPreparation) (job : PreparationJob) : PreparationEffect :=
  ⟨plan.node, .managedJob, none, some job.jobId, job.identity.map fun identity => identity.1,
    job.identity.bind fun identity => identity.2.2⟩

def effects (unit : PreparationUnit) : List PreparationEffect :=
  unit.inputs.map inputEffect ++ unit.jobs.flatMap fun plan => (deletedJobs plan).map (jobEffect plan)

def receivers (unit : PreparationUnit) : List String :=
  componentKey (unit.jobs.map NodeJobPreparation.node ++ unit.inputs.map PreparedInput.receiver)

def selected (unit : PreparationUnit) : List NodeJobPreparation := unit.jobs.filter fun plan => plan.node ∈ unit.component

def outside (unit : PreparationUnit) : List NodeJobPreparation := unit.jobs.filter fun plan => plan.node ∉ unit.component

end PreparationUnit

def sortedOwners (owners : List ExecutionOwner) : List ExecutionOwner :=
  owners.insertionSort fun left right => left.executionId ≤ right.executionId

def validatePreparedInput (db : Database) (item : PreparedInput) : Result Unit := do
  requireSettledInputPublications db item.receiver
  let ownership ← readInputOwnership db item.receiver item.relative
  require (ownership.any fun found => !found.1 && sortedOwners found.2 == item.owners)
    (.runtime ("Managed input changed during preparation: " ++ item.receiver ++ "/" ++ item.relative))

def validatePreparedInputs (db : Database) (inputs : List PreparedInput) : Result Unit :=
  each (validatePreparedInput db) inputs

def deletePreparedInput (db : Database) (item : PreparedInput) : Result Database := do
  let files ← db.managedInputFiles.removeOne (item.receiver, item.relative) (fun _ => true)
    (.runtime ("Prepared input deletion was not applied: " ++ item.receiver ++ "/" ++ item.relative))
  return { db with
    managedInputFiles := files
    managedInputProducers := db.managedInputProducers.delete fun row =>
      row.receiverNode = item.receiver && row.relativePath = item.relative }

def finishUnit (db : Database) (unit : PreparationUnit) (keepTrace : Bool) (eventTime : Timestamp)
    (queued : List String) : Result Database := do
  let applied ← applyJobPreparation db unit.outside keepTrace eventTime
  thread deletePreparedInput { applied with nodes := queued.foldl queuePreparedNode applied.nodes } unit.inputs

structure FullUnit where
  unit : PreparationUnit
  expected : ComponentStateSnapshot
  sessionId : Option String
  keepTrace : Bool
  targetShape : Option Shape
  eventTime : Timestamp

namespace FullUnit

def validate (request : FullUnit) (db : Database) : Result Unit := do
  let observed ← readComponentPreparation db request.sessionId request.unit.component request.expected.shapeJson
  require (observed == request.expected) (.runtime "Component changed during full preparation")
  validateJobPreparation db request.unit.jobs
  validatePreparedInputs db request.unit.inputs

def complete (request : FullUnit) (db : Database) : Result Database := do
  let (_, prepared) ← completeComponentPreparation db ⟨request.sessionId, request.unit.component, request.expected,
    request.targetShape, request.unit.selected, request.keepTrace, request.eventTime⟩
  finishUnit prepared request.unit request.keepTrace request.eventTime []

end FullUnit

structure SelectedUnit where
  unit : PreparationUnit
  rootNodes : List String
  sessionId : Option String
  operation : String
  keepTrace : Bool
  eventTime : Timestamp

def SelectedUnit.complete (request : SelectedUnit) (db : Database) : Result Database := do
  let applied ← applyJobPreparation db request.unit.selected request.keepTrace request.eventTime
  finishUnit applied request.unit request.keepTrace request.eventTime
    (if request.sessionId.isNone && request.operation == "reset" then componentKey request.rootNodes else [])

structure RepairUnit where
  unit : PreparationUnit
  repair : MembershipRepair

def RepairUnit.complete (request : RepairUnit) (db : Database) : Result Database := do
  let completed ← completeUnit db { request.repair with jobs := request.unit.jobs }
  finishUnit completed request.unit request.repair.keepTrace request.repair.eventTime []

section Scope

variable {db next last : Database}

theorem UnitScope.refl (db : Database) : UnitScope db db := ⟨fun _ there => there, rfl, rfl, rfl, rfl⟩

theorem UnitScope.trans (first : UnitScope db next) (second : UnitScope next last) : UnitScope db last :=
  ⟨fun place there => first.live place (second.live place there), second.guards.trans first.guards,
    second.attempts.trans first.attempts, second.receipts.trans first.receipts,
    second.publications.trans first.publications⟩

theorem apply_job_preparation_scope {preparations : List NodeJobPreparation} {keepTrace : Bool} {eventTime : Timestamp}
    (applied : applyJobPreparation db preparations keepTrace eventTime = .ok next) : UnitScope db next := by
  simp only [applyJobPreparation, Lib.bind_ok] at applied
  obtain ⟨_, _, threaded⟩ := applied
  refine Lib.thread_invariant (motive := UnitScope db) (UnitScope.refl db) ?_ threaded
  intro current after plan _ before step
  have deleted := node_preparation_deleted step
  simp only [applyNodePreparation, Lib.bind_ok, Lib.pure_ok] at step
  obtain ⟨_, _, _, _, _, _, rfl⟩ := step
  refine before.trans ⟨fun place there => ?_, rfl, rfl, rfl, rfl⟩
  rw [deleted.live, Bool.and_eq_true] at there
  exact there.1

theorem delete_prepared_inputs_scope {inputs : List PreparedInput}
    (deleted : thread deletePreparedInput db inputs = .ok next) : UnitScope db next := by
  refine Lib.thread_invariant (motive := UnitScope db) (UnitScope.refl db) ?_ deleted
  intro current after item _ before step
  simp only [deletePreparedInput, Lib.bind_ok, Lib.pure_ok] at step
  obtain ⟨_, _, rfl⟩ := step
  exact before.trans ⟨fun _ there => there, rfl, rfl, rfl, rfl⟩

theorem finish_unit_scope {unit : PreparationUnit} {keepTrace : Bool} {eventTime : Timestamp} {queued : List String}
    (finished : finishUnit db unit keepTrace eventTime queued = .ok next) : UnitScope db next := by
  simp only [finishUnit, Lib.bind_ok] at finished
  obtain ⟨applied, prepared, deleted⟩ := finished
  have outside := apply_job_preparation_scope prepared
  have inputs := delete_prepared_inputs_scope deleted
  exact outside.trans ⟨inputs.live, inputs.guards, inputs.attempts, inputs.receipts, inputs.publications⟩

theorem full_unit_scope {request : FullUnit} (done : request.complete db = .ok next) : UnitScope db next := by
  simp only [FullUnit.complete, completeComponentPreparation, Lib.bind_ok, Lib.pure_ok] at done
  obtain ⟨_, ⟨_, _, _, _, _, _, _, _, _, _, _, _, _, _, prepared, applied, states, _, rfl⟩, finished⟩ := done
  have first := apply_job_preparation_scope applied
  have rest := finish_unit_scope finished
  exact first.trans ⟨rest.live, rest.guards, rest.attempts, rest.receipts, rest.publications⟩

theorem selected_unit_scope {request : SelectedUnit} (done : request.complete db = .ok next) : UnitScope db next := by
  simp only [SelectedUnit.complete, Lib.bind_ok] at done
  obtain ⟨applied, prepared, finished⟩ := done
  exact (apply_job_preparation_scope prepared).trans (finish_unit_scope finished)

theorem repair_unit_scope {request : RepairUnit} (done : request.complete db = .ok next) : UnitScope db next := by
  simp only [RepairUnit.complete, completeUnit, Lib.bind_ok, Lib.pure_ok] at done
  obtain ⟨_, ⟨_, _, _, _, _, _, _, _, _, _, _, _, prepared, applied, states, _, rfl⟩, finished⟩ := done
  have first := apply_job_preparation_scope applied
  have rest := finish_unit_scope finished
  exact first.trans ⟨rest.live, rest.guards, rest.attempts, rest.receipts, rest.publications⟩

def UnitWork.full (request : FullUnit) : UnitWork := ⟨request.validate, request.complete, full_unit_scope⟩

def UnitWork.selected (validate : Database → Result Unit) (request : SelectedUnit) : UnitWork :=
  ⟨validate, request.complete, selected_unit_scope⟩

def UnitWork.repair (validate : Database → Result Unit) (request : RepairUnit) : UnitWork :=
  ⟨validate, request.complete, repair_unit_scope⟩

def PreparationUnit.staged (unit : PreparationUnit) (operationId guardId operation : String) (sessionId : Option String)
    (membership : Option (List String)) (work : UnitWork) (latched : String → Bool) : UnitPreparation :=
  ⟨⟨operationId, guardId, operation, encodeComponentKey unit.component, sessionId,
    ⟨unit.receivers, unit.effects, membership⟩⟩, unit.excludedNodes, work, latched⟩

end Scope

end MicroWorkflow
