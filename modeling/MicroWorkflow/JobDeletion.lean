import MicroWorkflow.JobNumberingRuns

set_option autoImplicit false

namespace MicroWorkflow

open Lib (each Table)

def deleteJobRows (gone : JobAddress → Bool) (preserveEvents : Bool) (db : Database) : Database :=
  { db with
    idempotency := db.idempotency.delete fun row => gone (row.nodeName, row.jobId)
    jobEvents := if preserveEvents then db.jobEvents else db.jobEvents.filter fun event => !gone event.address
    jobs := db.jobs.delete fun row => gone row.address
    jobInstances := db.jobInstances.delete fun row => gone row.address }

def ofNode (node : String) (place : JobAddress) : Bool := place.1 == node

def amongIds (node : String) (ids : List Nat) (place : JobAddress) : Bool := place.1 == node && decide (place.2 ∈ ids)

def deleteJob (db : Database) (node : String) (jobId : Nat) (preserveEvents : Bool) : Result (Bool × Database) := do
  validateJobId jobId
  return (db.jobs.contains (node, jobId), deleteJobRows (amongIds node [jobId]) preserveEvents db)

def batchTargets (listed jobIds : List Nat) : List Nat := listed.filter fun jobId => decide (jobId ∈ jobIds)

def batchDeletes (node : String) (listed jobIds : List Nat) : JobAddress → Bool :=
  if (batchTargets listed jobIds).isEmpty then fun _ => false
  else if batchTargets listed jobIds == listed then ofNode node
  else amongIds node (batchTargets listed jobIds)

def deleteJobsBatch (db : Database) (listed : List Nat) (node : String) (jobIds : List Nat) (preserveEvents : Bool) :
    Result (Nat × Database) := do
  validateNodeName node
  each validateJobId jobIds
  if (batchTargets listed jobIds).isEmpty then return (0, db) else
  return ((batchTargets listed jobIds).length, deleteJobRows (batchDeletes node listed jobIds) preserveEvents db)

def deleteNodeJobs (db : Database) (node : String) (preserveEvents : Bool) : Database :=
  let deleted := deleteJobRows (ofNode node) preserveEvents db
  { deleted with jobSequences := setSequence deleted.jobSequences node 1 }

def deleteNodeState (db : Database) (node : String) : Result Database := do
  validateNodeName node
  refuseReceiverMutation db node
  let deleted := deleteJobRows (ofNode node) false db
  return { deleted with
    jobSequences := deleted.jobSequences.delete fun row => row.nodeName == node
    nodes := deleted.nodes.delete fun row => row.nodeName == node }

structure JobsDeleted (db next : Database) (gone : JobAddress → Bool) : Prop where
  live : ∀ place, next.jobs.contains place = (db.jobs.contains place && !gone place)
  keys : ∀ row, row ∈ next.idempotency.rows ↔ row ∈ db.idempotency.rows ∧ gone (row.nodeName, row.jobId) = false

variable {db next : Database} {node : String}

theorem delete_job_rows_deleted (gone : JobAddress → Bool) (preserveEvents : Bool) :
    JobsDeleted db (deleteJobRows gone preserveEvents db) gone := by
  refine ⟨fun place => contains_delete gone, fun row => ?_⟩
  unfold deleteJobRows
  rw [Table.mem_delete]

theorem delete_job_deleted {jobId : Nat} {preserveEvents existed : Bool}
    (done : deleteJob db node jobId preserveEvents = .ok (existed, next)) :
    JobsDeleted db next (amongIds node [jobId]) := by
  simp only [deleteJob, Lib.bind_ok, Lib.pure_ok, Prod.mk.injEq] at done
  obtain ⟨_, _, _, rfl⟩ := done
  exact delete_job_rows_deleted _ _

theorem delete_jobs_batch_deleted {listed jobIds : List Nat} {preserveEvents : Bool} {count : Nat}
    (done : deleteJobsBatch db listed node jobIds preserveEvents = .ok (count, next)) :
    JobsDeleted db next (batchDeletes node listed jobIds) := by
  simp only [deleteJobsBatch, Lib.bind_ok] at done
  obtain ⟨_, _, _, _, done⟩ := done
  split at done
  · simp only [Lib.pure_ok, Prod.mk.injEq] at done
    obtain ⟨_, rfl⟩ := done
    have spared : batchDeletes node listed jobIds = fun _ => false := if_pos ‹_›
    rw [spared]
    exact ⟨fun place => by simp, fun row => by simp⟩
  · simp only [Lib.pure_ok, Prod.mk.injEq] at done
    obtain ⟨_, rfl⟩ := done
    exact delete_job_rows_deleted _ _

theorem delete_node_jobs_deleted (preserveEvents : Bool) :
    JobsDeleted db (deleteNodeJobs db node preserveEvents) (ofNode node) := by
  have deleted : JobsDeleted db (deleteJobRows (ofNode node) preserveEvents db) (ofNode node) :=
    delete_job_rows_deleted _ _
  exact ⟨deleted.live, deleted.keys⟩

theorem delete_node_state_deleted (done : deleteNodeState db node = .ok next) : JobsDeleted db next (ofNode node) := by
  simp only [deleteNodeState, Lib.bind_ok, Lib.pure_ok] at done
  obtain ⟨_, _, _, _, rfl⟩ := done
  have deleted : JobsDeleted db (deleteJobRows (ofNode node) false db) (ofNode node) := delete_job_rows_deleted _ _
  exact ⟨deleted.live, deleted.keys⟩

theorem JobsDeleted.trans {middle : Database} {first second : JobAddress → Bool} (earlier : JobsDeleted db middle first)
    (later : JobsDeleted middle next second) : JobsDeleted db next fun place => first place || second place := by
  constructor
  · intro place
    rw [later.live, earlier.live, Bool.not_or, Bool.and_assoc]
  · intro row
    rw [later.keys, earlier.keys, Bool.or_eq_false_iff, and_assoc]

theorem node_preparation_deleted {keepTrace : Bool} {eventTime : Timestamp} {plan : NodeJobPreparation}
    (applied : applyNodePreparation keepTrace eventTime db plan = .ok next) : JobsDeleted db next plan.deletes := by
  refine ⟨(node_preparation_rewound applied).kept, fun row => ?_⟩
  simp only [applyNodePreparation, Lib.bind_ok, Lib.pure_ok] at applied
  obtain ⟨_, _, _, _, _, _, rfl⟩ := applied
  rw [Table.mem_delete]
  have same : (decide (row.nodeName = plan.node) && decide (row.jobId ∈ plan.deleteIds)) =
      plan.deletes (row.nodeName, row.jobId) := by
    simp only [NodeJobPreparation.deletes, beq_eq_decide, eq_comm]
  rw [same]

theorem preparation_deleted {preparations : List NodeJobPreparation} {keepTrace : Bool} {eventTime : Timestamp}
    (applied : applyJobPreparation db preparations keepTrace eventTime = .ok next) :
    JobsDeleted db next (deletedBy preparations) := by
  simp only [applyJobPreparation, Lib.bind_ok] at applied
  obtain ⟨_, valid, threaded⟩ := applied
  clear valid
  induction preparations generalizing db with
  | nil =>
      obtain rfl := Except.ok.inj threaded
      exact ⟨fun place => by simp [deletedBy], fun row => by simp [deletedBy]⟩
  | cons plan rest ih =>
      rw [Lib.thread_cons, Lib.bind_ok] at threaded
      obtain ⟨middle, first, later⟩ := threaded
      have whole := (node_preparation_deleted first).trans (ih later)
      exact ⟨whole.live, whole.keys⟩

end MicroWorkflow
