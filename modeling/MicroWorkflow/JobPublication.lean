import MicroWorkflow.ComponentPreparation
import MicroWorkflow.PreparationGuards

set_option autoImplicit false

namespace MicroWorkflow

open Lib (require refuse orRaise each collect thread Table)

structure NewJob where
  jobId : Nat
  nodeName : String
  parent : Value
  producerComponent : Option Component
  jobKind : Option String
  instanceId : String
deriving DecidableEq, Repr

def NewJob.address (job : NewJob) : JobAddress := (job.nodeName, job.jobId)

def NewJob.row (job : NewJob) : Job :=
  ⟨job.nodeName, job.jobId, .queued, [], 0, none, none, none, none, none, none, none, none⟩

def NewJob.instance (job : NewJob) (creator : Option String) : JobInstance :=
  ⟨job.nodeName, job.jobId, job.instanceId, none, creator⟩

def validateJobId (jobId : Nat) : Result Unit :=
  require (decide (1 ≤ jobId)) (.value "job_id must be an integer >= 1")

-- A hash of key texts; two texts with one hash are reported as a collision.
abbrev KeyHash := String → String

def idempotencyKeyHash (hash : KeyHash) (key : String) : Result String := do
  require (hasText key) (.value "idempotency_key must be a non-empty string")
  return hash key

def expectedKind (job : NewJob) (owner : ExecutionOwner) : String :=
  if job.nodeName ∈ owner.componentKey then "component" else "dag"

def exactProducerRequired : Error := .runtime "Job creation requires its exact active producer execution"

def requireActiveProducer (db : Database) (job : NewJob) (executionId : String) (observed : JobOwnerObservation) :
    Result Unit := do
  let owner ← orRaise observed.owner exactProducerRequired
  require (observed.activeExecutionId == some executionId && observed.status == .running
      && owner.executionId == executionId && some owner.componentKey == job.producerComponent) exactProducerRequired
  require ((observed.session.any fun session => session.row.status == .running)
      && reservationOwner db (encodeComponentKey owner.componentKey) == some owner.sessionId)
    (.runtime "Job producer no longer owns its execution component")
  let identity ← readComponentProducingIdentity db owner.componentKey
  require (identity == (owner.shapeId, owner.alignmentGeneration))
    (.runtime "Job producing component changed before creation")
  require (job.jobKind == some (expectedKind job owner))
    (.runtime "Created job kind does not match its producing component")

def validateJobProducer (db : Database) (job : NewJob) : Option String → Result Unit
  | none => .ok ()
  | some executionId => do
      require (hasText executionId) (.value "producer execution must be nonempty text")
      let producer ← orRaise (db.jobExecutionOwners.find executionId)
        (.runtime "Job creation has no recorded producer execution")
      let observed ← orRaise (← readJobOwnerObservation db producer.nodeName producer.jobId) exactProducerRequired
      requireActiveProducer db job executionId observed

def insertJob (db : Database) (job : NewJob) : Result Database := do
  let jobs ← orRaise (db.jobs.insert job.row)
    (.integrity "UNIQUE constraint failed: jobs.node_name, jobs.job_id")
  let instances ← orRaise (db.jobInstances.insert (job.instance none))
    (.integrity "UNIQUE constraint failed: job_instances.node_name, job_instances.job_id")
  return { db with jobs := jobs, jobInstances := instances }

def insertJobs (db : Database) (jobs : List NewJob) : Result Database := thread insertJob db jobs

def recordJobProducer (db : Database) (place : JobAddress) : Option String → Result Database
  | none => .ok db
  | some executionId => do
      let instances ← db.jobInstances.changeOne place (fun row => row.createdByExecutionId.isNone)
        (fun row => { row with createdByExecutionId := some executionId })
        (.runtime "Job creation did not record its exact producer")
      return { db with jobInstances := instances }

def recordJobProducers (db : Database) (jobs : List NewJob) (executionId : Option String) : Result Database :=
  thread (fun current job => recordJobProducer current job.address executionId) db jobs

def createdEventOrigin (data : Details) : Value × Value × Value :=
  (data.get "parent", (match data.get "producer_component" with
    | .list items => .list items
    | _ => .list []), data.get "job_kind")

def createdEvent (eventTime : Timestamp) (job : NewJob) : JobEvent :=
  ⟨job.nodeName, job.jobId, eventTime, "created",
    [("status", .text "queued"), ("parent", job.parent), ("producer_component", .list (job.producerComponent.getD [])),
      ("job_kind", .ofOption job.jobKind)]⟩

def originChangedEvent (event : JobEvent) (previous current : Value × Value × Value) : JobEvent :=
  { event with
    event := "origin_changed"
    data := [("previous_origin.parent", previous.1), ("previous_origin.producer_component", previous.2.1),
      ("previous_origin.job_kind", previous.2.2), ("current_origin.parent", current.1),
      ("current_origin.producer_component", current.2.1), ("current_origin.job_kind", current.2.2)] }

def createdEvents (recorded : List JobEvent) (event : JobEvent) : List JobEvent :=
  match recorded.reverse.find? fun prior => prior.address = event.address && prior.event = "created" with
  | none => [event]
  | some prior =>
      let previous := createdEventOrigin prior.data
      let current := createdEventOrigin event.data
      if previous = current then [event] else [originChangedEvent event previous current, event]

def insertJobCreatedEvents (db : Database) (eventTime : Timestamp) (jobs : List NewJob) : Database :=
  { db with jobEvents := db.jobEvents ++ (jobs.map (createdEvent eventTime)).flatMap (createdEvents db.jobEvents) }

def markJobArrivals (causes : ArrivalCauses) (db : Database) (arrivals : List (JobAddress × Option Shape × Bool)) :
    Result Database :=
  thread (fun current arrival =>
    markComponentJobArrival causes current arrival.1.1 arrival.1.2 arrival.2.1 arrival.2.2) db arrivals

def insertIdempotency (db : Database) (rows : List IdempotencyRow) : Result Database := do
  let keys ← orRaise (db.idempotency.insertAll rows)
    (.integrity "UNIQUE constraint failed: idempotency.node_name, idempotency.key_hash")
  return { db with idempotency := keys }

-- SELECT .. FROM idempotency JOIN jobs: only a row whose job is live is found.
def lookupKey (db : Database) (node keyHash : String) : Option (String × Nat) :=
  match db.idempotency.find (node, keyHash) with
  | some row => if db.jobs.contains (node, row.jobId) then some (row.keyText, row.jobId) else none
  | none => none

def keyCollision (node : String) : Error := .runtime ("idempotency hash collision for node '" ++ node ++ "'")

def jobExists (node : String) (jobId : Nat) : Error := .value ("Job " ++ address node jobId ++ " already exists")

variable {db next : Database} {job : NewJob} {jobs : List NewJob}

structure JobsInserted (db next : Database) (jobs : List NewJob) : Prop where
  rows : next.jobs.rows = db.jobs.rows ++ jobs.map NewJob.row
  others : next = { db with jobs := next.jobs, jobInstances := next.jobInstances }

theorem insert_job_inserted (inserted : insertJob db job = .ok next) : JobsInserted db next [job] := by
  simp only [insertJob, Lib.bind_ok, Lib.orRaise_ok, Lib.pure_ok] at inserted
  obtain ⟨_, added, _, _, rfl⟩ := inserted
  exact ⟨(Table.insert_eq_some.mp added).2, rfl⟩

theorem insert_jobs_inserted (inserted : insertJobs db jobs = .ok next) : JobsInserted db next jobs := by
  unfold insertJobs at inserted
  induction jobs generalizing db with
  | nil =>
      obtain rfl := Except.ok.inj inserted
      exact ⟨by simp, rfl⟩
  | cons job rest ih =>
      rw [Lib.thread_cons, Lib.bind_ok] at inserted
      obtain ⟨middle, first, later⟩ := inserted
      have one := insert_job_inserted first
      have more := ih later
      refine ⟨?_, ?_⟩
      · rw [more.rows, one.rows]
        simp
      · have others := more.others
        rw [one.others] at others
        exact others

def InstancesOnly (db next : Database) : Prop := next = { db with jobInstances := next.jobInstances }

theorem record_job_producers_only {executionId : Option String}
    (recorded : recordJobProducers db jobs executionId = .ok next) : InstancesOnly db next := by
  refine Lib.thread_invariant (motive := InstancesOnly db) (show InstancesOnly db db from rfl) ?_ recorded
  intro current after job _ only step
  cases executionId with
  | none =>
      obtain rfl := Except.ok.inj step
      exact only
  | some execution =>
      simp only [recordJobProducer, Lib.bind_ok, Lib.pure_ok] at step
      obtain ⟨_, _, rfl⟩ := step
      rw [InstancesOnly, only]

def StatesOnly (db next : Database) : Prop := next = { db with componentStates := next.componentStates }

theorem StatesOnly.trans {later : Database} (first : StatesOnly db next) (second : StatesOnly next later) :
    StatesOnly db later := by
  unfold StatesOnly at first second ⊢
  rw [second, first]

theorem mark_component_arrival_only {causes : ArrivalCauses} {arrival : Arrival}
    (marked : markComponentArrival causes db arrival = .ok next) : StatesOnly db next := by
  unfold markComponentArrival at marked
  dsimp only at marked
  split at marked
  · obtain rfl := Except.ok.inj marked
    rfl
  simp only [Lib.bind_ok] at marked
  obtain ⟨_, _, marked⟩ := marked
  split at marked
  · obtain rfl := Except.ok.inj marked
    rfl
  split at marked
  · obtain rfl := Except.ok.inj marked
    rfl
  simp only [Lib.bind_ok, Lib.pure_ok] at marked
  obtain ⟨_, written, _, _, rfl⟩ := marked
  unfold misalign at written
  split at written
  · obtain rfl := Except.ok.inj written
    rfl
  · simp only [Lib.bind_ok, Lib.pure_ok] at written
    obtain ⟨_, _, rfl⟩ := written
    rfl

theorem mark_component_job_arrival_only {causes : ArrivalCauses} {receiver : String} {jobId : Nat}
    {shape : Option Shape} {latched : Bool}
    (marked : markComponentJobArrival causes db receiver jobId shape latched = .ok next) : StatesOnly db next := by
  simp only [markComponentJobArrival, Lib.bind_ok] at marked
  obtain ⟨_, _, state, _, marked⟩ := marked
  cases state with
  | none =>
      obtain rfl := Except.ok.inj marked
      rfl
  | some state =>
      simp only [Lib.bind_ok] at marked
      obtain ⟨_, _, marked⟩ := marked
      exact mark_component_arrival_only marked

theorem mark_job_arrivals_only {causes : ArrivalCauses} {arrivals : List (JobAddress × Option Shape × Bool)}
    (marked : markJobArrivals causes db arrivals = .ok next) : StatesOnly db next := by
  refine Lib.thread_invariant (motive := StatesOnly db) (show StatesOnly db db from rfl) ?_ marked
  intro current after arrival _ only step
  exact only.trans (mark_component_job_arrival_only step)

end MicroWorkflow
