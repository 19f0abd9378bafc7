import MicroWorkflow.JobSequences
import MicroWorkflow.Ownership

set_option autoImplicit false

namespace MicroWorkflow

open Lib (require refuse orRaise Table)

structure PreparationJob where
  jobId : Nat
  status : JobStatus
  generation : Nat
  activeExecutionId : Option String
  identity : Option (String × Option String × Option String)
  activePid : Option Nat
  activeThreadId : Option Nat
  activeStartedAt : Option Timestamp
deriving DecidableEq, Repr

structure NodeJobPreparation where
  node : String
  jobs : List PreparationJob
  orphanCreations : List (Nat × Details)
  deleteIds : List Nat
  resetIds : List Nat
  orphanIds : List Nat
  markQueued : Bool
deriving DecidableEq, Repr

def preparationJob (db : Database) (row : Job) : PreparationJob :=
  ⟨row.jobId, row.status, row.generation, row.activeExecutionId,
    (db.jobInstances.find row.address).map fun identity =>
      (identity.instanceId, identity.lastExecutionId, identity.createdByExecutionId),
    row.activePid, row.activeThreadId, row.activeStartedAt⟩

def readJobs (db : Database) (node : String) : List PreparationJob :=
  ((db.jobs.select fun row => row.nodeName = node).insertionSort fun left right => left.jobId ≤ right.jobId).map
    (preparationJob db)

theorem mem_read_jobs {db : Database} {node : String} {job : PreparationJob} :
    job ∈ readJobs db node ↔ ∃ row ∈ db.jobs.rows, row.nodeName = node ∧ preparationJob db row = job := by
  simp only [readJobs, List.mem_map, List.mem_insertionSort, Table.mem_select, decide_eq_true_eq, and_assoc]

theorem read_jobs_unique {db : Database} {node : String} {left right : PreparationJob} (one : left ∈ readJobs db node)
    (other : right ∈ readJobs db node) (same : left.jobId = right.jobId) : left = right := by
  obtain ⟨row, member, here, rfl⟩ := mem_read_jobs.mp one
  obtain ⟨row', member', here', rfl⟩ := mem_read_jobs.mp other
  have single : row = row' := by
    refine Table.rows_inj member member' ?_
    simp only [Job.address, Prod.mk.injEq]
    exact ⟨here.trans here'.symm, same⟩
  rw [single]

def readOrphanCreations (db : Database) (node : String) : List (Nat × Details) :=
  let created := db.jobEvents.filter fun event =>
    event.nodeName = node && event.event = "created" && !db.jobs.contains event.address
  ((created.map JobEvent.jobId).dedup.insertionSort (· ≤ ·)).filterMap fun jobId =>
    (created.reverse.find? fun event => event.jobId = jobId).map fun event => (jobId, event.data)

def NodeJobPreparation.affects (plan : NodeJobPreparation) (jobId : Nat) : Bool :=
  jobId ∈ plan.deleteIds || jobId ∈ plan.resetIds

def NodeJobPreparation.touches (plan : NodeJobPreparation) (place : JobAddress) : Bool :=
  place.1 = plan.node && plan.affects place.2

def PreparationJob.isActive (job : PreparationJob) : Bool :=
  job.activeExecutionId.isSome || job.status == .running || job.activePid.isSome || job.activeThreadId.isSome
    || job.activeStartedAt.isSome

def validateNodePreparation (db : Database) (plan : NodeJobPreparation) : Result Unit := do
  let considered := fun (job : PreparationJob) => plan.markQueued || plan.affects job.jobId
  let orphaned := fun (row : Nat × Details) => plan.markQueued || row.1 ∈ plan.orphanIds
  require ((readJobs db plan.node).filter considered == plan.jobs.filter considered
      && (readOrphanCreations db plan.node).filter orphaned == plan.orphanCreations.filter orphaned)
    (.runtime ("Jobs changed during full preparation: " ++ plan.node))
  refuse (plan.jobs.any fun job => plan.affects job.jobId && job.isActive)
    (.runtime ("Preparation cannot change active jobs: " ++ plan.node))

def validateJobPreparation (db : Database) (preparations : List NodeJobPreparation) : Result Unit :=
  Lib.each (validateNodePreparation db) preparations

def resetRow (row : Job) : Job :=
  { row with
    status := .queued
    statusJson := []
    runtimeJson := none
    activeExecutionId := none
    activePid := none
    activeThreadId := none
    activeStartedAt := none
    restartRequestedAt := none
    restartRequestedByPid := none
    restartReason := none }

def resetEvent (eventTime : Timestamp) (plan : NodeJobPreparation) (jobId : Nat) : Result JobEvent := do
  let job ← orRaise (plan.jobs.find? fun job => job.jobId = jobId) (.key (toString jobId))
  return ⟨plan.node, jobId, eventTime, "queued",
    [("previous_status", .text job.status.text), ("status", .text "queued")]⟩

theorem queued_node_name (row : NodeRow) : ({ row with status := some "queued" } : NodeRow).nodeName = row.nodeName := rfl

def queuePreparedNode (nodes : Table NodeRow.nodeName) (node : String) : Table NodeRow.nodeName :=
  nodes.upsert ⟨node, some "queued"⟩ (fun row => { row with status := some "queued" }) queued_node_name

def applyNodePreparation (keepTrace : Bool) (eventTime : Timestamp) (db : Database) (plan : NodeJobPreparation) :
    Result Database := do
  let events := if keepTrace then db.jobEvents else db.jobEvents.filter fun event =>
    !(event.nodeName = plan.node && (plan.affects event.jobId || event.jobId ∈ plan.orphanIds))
  let deleted := fun (place : JobAddress) => decide (place.1 = plan.node ∧ place.2 ∈ plan.deleteIds)
  let reset := fun (place : JobAddress) => decide (place.1 = plan.node ∧ place.2 ∈ plan.resetIds)
  require (db.jobs.count (fun row => deleted row.address) == plan.deleteIds.length)
    (.runtime ("Prepared job deletion was not applied: " ++ plan.node))
  let jobs := db.jobs.delete fun row => deleted row.address
  let instances := db.jobInstances.delete fun row => deleted row.address
  require (plan.resetIds.all fun jobId =>
      jobs.contains (plan.node, jobId) && instances.contains (plan.node, jobId))
    (.runtime ("Prepared job reset was not applied: " ++ plan.node))
  let queued ← Lib.collect (resetEvent eventTime plan) plan.resetIds
  return { db with
    jobs := jobs.modify (fun row => reset row.address) resetRow
    jobInstances := instances.modify (fun row => reset row.address) fun row => { row with lastExecutionId := none }
    jobEvents := events ++ queued
    idempotency := db.idempotency.delete fun row => row.nodeName = plan.node && row.jobId ∈ plan.deleteIds
    jobSequences := if plan.deleteIds.isEmpty then db.jobSequences
      else setSequence db.jobSequences plan.node (tailJobId jobs plan.node)
    nodes := if plan.markQueued then queuePreparedNode db.nodes plan.node else db.nodes }

def applyJobPreparation (db : Database) (preparations : List NodeJobPreparation) (keepTrace : Bool)
    (eventTime : Timestamp) : Result Database := do
  validateJobPreparation db preparations
  Lib.thread (applyNodePreparation keepTrace eventTime) db preparations

structure JobsPrepared (db next : Database) (touched : JobAddress → Bool) : Prop where
  kept : ∀ place, touched place = false →
    next.jobs.find place = db.jobs.find place ∧ next.jobInstances.find place = db.jobInstances.find place
  requeued : ∀ place row, touched place = true → next.jobs.find place = some row →
    row.status = .queued ∧ row.activeExecutionId = none
  owners : next.jobExecutionOwners = db.jobExecutionOwners

variable {db next : Database}

theorem apply_node_preparation_ok {keepTrace : Bool} {eventTime : Timestamp} {plan : NodeJobPreparation}
    (applied : applyNodePreparation keepTrace eventTime db plan = .ok next) : JobsPrepared db next plan.touches := by
  simp only [applyNodePreparation, Lib.bind_ok, Lib.pure_ok] at applied
  obtain ⟨_, _, _, _, queued, _, rfl⟩ := applied
  constructor
  · intro place untouched
    simp only [NodeJobPreparation.touches, NodeJobPreparation.affects, Bool.and_eq_false_iff, decide_eq_false_iff_not,
      Bool.or_eq_false_iff] at untouched
    have spared : ∀ found : JobAddress, found = place →
        decide (found.1 = plan.node ∧ found.2 ∈ plan.deleteIds) = false ∧
          decide (found.1 = plan.node ∧ found.2 ∈ plan.resetIds) = false := by
      rintro _ rfl
      simp only [decide_eq_false_iff_not, not_and]
      exact ⟨fun here => (untouched.resolve_left (not_not_intro here)).1,
        fun here => (untouched.resolve_left (not_not_intro here)).2⟩
    dsimp only
    rw [Table.find_modify, Table.find_delete, Table.find_modify, Table.find_delete]
    constructor
    · cases found : db.jobs.find place with
      | none => rfl
      | some row =>
          obtain ⟨alive, unreset⟩ := spared row.address (Table.find_key found)
          simp only [Option.filter, alive, unreset, Bool.not_false, if_true, Option.map_some, Bool.false_eq_true,
            if_false]
    · cases found : db.jobInstances.find place with
      | none => rfl
      | some row =>
          obtain ⟨alive, unreset⟩ := spared row.address (Table.find_key found)
          simp only [Option.filter, alive, unreset, Bool.not_false, if_true, Option.map_some, Bool.false_eq_true,
            if_false]
  · intro place row touched found
    dsimp only at found
    rw [Table.find_modify, Table.find_delete] at found
    obtain ⟨stored, here, same⟩ := Option.map_eq_some_iff.mp found
    rw [Option.filter_eq_some_iff] at here
    have key := Table.find_key here.1
    simp only [key, Bool.not_eq_true', decide_eq_false_iff_not] at here
    simp only [NodeJobPreparation.touches, NodeJobPreparation.affects, Bool.and_eq_true, Bool.or_eq_true,
      decide_eq_true_eq] at touched
    have reset : place.2 ∈ plan.resetIds := touched.2.resolve_left fun gone => here.2 ⟨touched.1, gone⟩
    rw [if_pos (by simp [key, touched.1, reset])] at same
    exact same ▸ ⟨rfl, rfl⟩
  · rfl

theorem JobsPrepared.trans {last : Database} {first second : JobAddress → Bool} (before : JobsPrepared db next first)
    (after : JobsPrepared next last second) : JobsPrepared db last fun place => first place || second place := by
  constructor
  · intro place untouched
    rw [Bool.or_eq_false_iff] at untouched
    obtain ⟨jobs, instances⟩ := before.kept place untouched.1
    obtain ⟨laterJobs, laterInstances⟩ := after.kept place untouched.2
    exact ⟨laterJobs.trans jobs, laterInstances.trans instances⟩
  · intro place row touched found
    cases again : second place with
    | true => exact after.requeued place row again found
    | false =>
        rw [again, Bool.or_false] at touched
        rw [(after.kept place again).1] at found
        exact before.requeued place row touched found
  · exact after.owners.trans before.owners

theorem apply_job_preparation_ok {preparations : List NodeJobPreparation} {keepTrace : Bool} {eventTime : Timestamp}
    (applied : applyJobPreparation db preparations keepTrace eventTime = .ok next) :
    JobsPrepared db next fun place => preparations.any fun plan => plan.touches place := by
  simp only [applyJobPreparation, Lib.bind_ok] at applied
  obtain ⟨_, valid, threaded⟩ := applied
  clear valid
  induction preparations generalizing db with
  | nil =>
      simp only [Lib.thread, Except.ok.injEq] at threaded
      subst threaded
      exact ⟨fun _ _ => ⟨rfl, rfl⟩, fun _ _ touched => absurd touched (by simp), rfl⟩
  | cons plan rest ih =>
      rw [Lib.thread_cons, Lib.bind_ok] at threaded
      obtain ⟨middle, first, later⟩ := threaded
      have whole := (apply_node_preparation_ok first).trans (ih later)
      simpa only [List.any_cons] using whole

end MicroWorkflow
