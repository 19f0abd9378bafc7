import MicroWorkflow.JobPreparation
import MicroWorkflow.JobPublication

set_option autoImplicit false

namespace MicroWorkflow

open Lib (require refuse orRaise each collect thread Table)

structure JobStore where
  db : Database
  directories : List JobAddress

section Reservation

def reserveJobIds (db : Database) (node : String) (count : Nat) (producerExecutionId : Option String) :
    Result (List Nat × Database) := do
  require (decide (1 ≤ count)) (.value "count must be a positive integer")
  validateNodeName node
  refuseReceiverMutation db node
  refuseInterruptHeldPublication db node producerExecutionId
  let start := nextJobId db node
  return ((List.range count).map (start + ·),
    { db with jobSequences := setSequence db.jobSequences node (start + count) })

end Reservation

section Single

structure SingleCreation where
  job : NewJob
  idempotencyKey : Option String
  producerExecutionId : Option String
  expectedShape : Option Shape
  latched : Bool
  eventTime : Timestamp

def resolveKey (hash : KeyHash) (db : Database) (node : String) : Option String → Result (Option Nat)
  | none => .ok none
  | some key =>
      match lookupKey db node (hash key) with
      | none => .ok none
      | some (text, jobId) => do
          require (text == key) (keyCollision node)
          return some jobId

def keyRows (hash : KeyHash) (node : String) (jobId : Nat) : Option String → List IdempotencyRow
  | none => []
  | some key => [⟨node, hash key, key, jobId⟩]

def admitPublication (db : Database) (request : SingleCreation) : Result Unit := do
  refuse (db.jobs.contains request.job.address) (jobExists request.job.nodeName request.job.jobId)
  refuseReceiverMutation db request.job.nodeName
  refuseInterruptHeldPublication db request.job.nodeName request.producerExecutionId

def publishSingle (hash : KeyHash) (causes : ArrivalCauses) (db : Database) (request : SingleCreation) :
    Result Database := do
  let job := request.job
  let inserted ← insertJob db job
  let produced ← recordJobProducer inserted job.address request.producerExecutionId
  let marked ← markComponentJobArrival causes produced job.nodeName job.jobId request.expectedShape request.latched
  let keyed ← insertIdempotency (insertJobCreatedEvents marked request.eventTime [job])
    (keyRows hash job.nodeName job.jobId request.idempotencyKey)
  return { keyed with
    nodes := queuePreparedNode keyed.nodes job.nodeName
    jobSequences := raiseSequence keyed.jobSequences job.nodeName (job.jobId + 1) }

def checkKey (hash : KeyHash) : Option String → Result Unit
  | none => .ok ()
  | some key => do
      let _ ← idempotencyKeyHash hash key

def commitSingleJob (hash : KeyHash) (causes : ArrivalCauses) (store : JobStore) (request : SingleCreation)
    (withInput : Bool) : Result ((Bool × Nat) × JobStore) := do
  let job := request.job
  validateJobId job.jobId
  checkKey hash request.idempotencyKey
  validateJobProducer store.db job request.producerExecutionId
  match ← resolveKey hash store.db job.nodeName request.idempotencyKey with
  | some jobId => return ((false, jobId), store)
  | none =>
      admitPublication store.db request
      refuse (withInput && decide (job.address ∈ store.directories)) (.fileExists (address job.nodeName job.jobId))
      let next ← publishSingle hash causes store.db request
      return ((true, job.jobId), ⟨next, if withInput then store.directories ++ [job.address] else store.directories⟩)

def createJob (hash : KeyHash) (causes : ArrivalCauses) (store : JobStore) (request : SingleCreation) :
    Result (Nat × JobStore) := do
  let job := request.job
  validateJobId job.jobId
  refuse (store.db.jobs.contains job.address) (jobExists job.nodeName job.jobId)
  let _ ← readJobReceiverState store.db job.nodeName request.expectedShape
  let ((_, jobId), next) ← commitSingleJob hash causes store request true
  return (jobId, next)

end Single

section Batch

structure BatchCommit where
  nodeName : String
  jobs : List NewJob
  idempotencyKeys : List (Option String)
  producerExecutionId : Option String
  expectedShape : Option Shape
  latched : Bool
  eventTime : Timestamp

def BatchCommit.entries (batch : BatchCommit) : List (NewJob × Option String) :=
  batch.jobs.zip batch.idempotencyKeys

def sameNode (batch : BatchCommit) : Bool := batch.jobs.all fun job => job.nodeName == batch.nodeName

def prepareJobsBatch (directories : List JobAddress) (node : String) (ids : List Nat) : Result (List JobAddress) := do
  require ids.Nodup (.value "batch contains duplicate job ids")
  each validateJobId ids
  match ids.find? fun jobId => (node, jobId) ∈ directories with
  | some jobId => throw (.fileExists (address node jobId))
  | none => return directories ++ ids.map fun jobId => (node, jobId)

def discardPreparedJobs (store : JobStore) (node : String) (ids retained : List Nat) : JobStore :=
  let removed := fun (place : JobAddress) => decide (place.1 = node ∧ place.2 ∈ ids ∧ place.2 ∉ retained)
    && !store.db.jobs.contains place
  { store with directories := store.directories.filter fun place => !removed place }

def batchKeyHashes (hash : KeyHash) (keys : List (Option String)) : Result (List String) :=
  collect (idempotencyKeyHash hash) (keys.filterMap id)

def batchKeyRows (hash : KeyHash) (entries : List (NewJob × Option String)) : List IdempotencyRow :=
  entries.flatMap fun entry => keyRows hash entry.1.nodeName entry.1.jobId entry.2

def existingByKey (hash : KeyHash) (db : Database) (node : String) (keys : List (Option String)) :
    Result (List (String × Nat)) := do
  let found ← collect (fun key => do
    let jobId ← resolveKey hash db node (some key)
    return jobId.map fun jobId => (key, jobId)) (keys.filterMap id)
  return found.filterMap id

def publishBatch (hash : KeyHash) (causes : ArrivalCauses) (db : Database) (batch : BatchCommit)
    (entries : List (NewJob × Option String)) : Result Database := do
  let jobs := entries.map Prod.fst
  let inserted ← insertJobs db jobs
  let produced ← recordJobProducers inserted jobs batch.producerExecutionId
  let marked ← markJobArrivals causes produced
    (jobs.head?.toList.map fun job => (job.address, batch.expectedShape, batch.latched))
  let keyed ← insertIdempotency (insertJobCreatedEvents marked batch.eventTime jobs) (batchKeyRows hash entries)
  return { keyed with nodes := queuePreparedNode keyed.nodes batch.nodeName }

def commitPreparedJobsBatchResolvingIdempotency (hash : KeyHash) (causes : ArrivalCauses) (db : Database)
    (batch : BatchCommit) : Result ((List NewJob × List (String × Nat)) × Database) := do
  if batch.jobs.isEmpty then return (([], []), db) else
  require (batch.idempotencyKeys.length == batch.jobs.length) (.value "idempotency_keys must match jobs length")
  require (sameNode batch) (.value "batch commit requires jobs for one node")
  let hashes ← batchKeyHashes hash batch.idempotencyKeys
  require hashes.Nodup (.value "batch contains duplicate idempotency keys")
  each (fun job => validateJobProducer db job batch.producerExecutionId) batch.jobs
  let existing ← existingByKey hash db batch.nodeName batch.idempotencyKeys
  let entries := batch.entries.filter fun entry => !(entry.2.any fun key => key ∈ existing.map Prod.fst)
  let jobs := entries.map Prod.fst
  each (fun job => validateJobId job.jobId) jobs
  require (jobs.map NewJob.jobId).Nodup (.value "batch contains duplicate job ids")
  each (fun job => refuse (db.jobs.contains job.address) (jobExists batch.nodeName job.jobId)) jobs
  if jobs.isEmpty then return (([], existing), db) else
  refuseReceiverMutation db batch.nodeName
  refuseInterruptHeldPublication db batch.nodeName batch.producerExecutionId
  let next ← publishBatch hash causes db batch entries
  return ((jobs, existing), next)

def upsertKeys (keys : Table IdempotencyRow.key) (rows : List IdempotencyRow) : Table IdempotencyRow.key :=
  rows.foldl (fun current row => current.upsert row fun prior =>
    { prior with keyText := row.keyText, jobId := row.jobId }) keys

def commitPreparedJobsBatch (hash : KeyHash) (causes : ArrivalCauses) (db : Database) (batch : BatchCommit) :
    Result (List NewJob × Database) := do
  if batch.jobs.isEmpty then return ([], db) else
  require (sameNode batch) (.value "commit_prepared_jobs_batch requires jobs for one node")
  require (batch.idempotencyKeys.length == batch.jobs.length) (.value "idempotency_keys must match jobs length")
  each (fun job => validateJobId job.jobId) batch.jobs
  require (batch.jobs.map NewJob.jobId).Nodup (.value "batch contains duplicate job ids")
  each (fun job => refuse (db.jobs.contains job.address) (jobExists batch.nodeName job.jobId)) batch.jobs
  let hashes ← batchKeyHashes hash batch.idempotencyKeys
  require hashes.Nodup (.value "batch contains duplicate idempotency keys")
  each (fun job => validateJobProducer db job batch.producerExecutionId) batch.jobs
  refuseReceiverMutation db batch.nodeName
  refuseInterruptHeldPublication db batch.nodeName batch.producerExecutionId
  let inserted ← insertJobs db batch.jobs
  let produced ← recordJobProducers inserted batch.jobs batch.producerExecutionId
  let marked ← markJobArrivals causes produced
    (batch.jobs.head?.toList.map fun job => (job.address, batch.expectedShape, batch.latched))
  let evented := insertJobCreatedEvents marked batch.eventTime batch.jobs
  return (batch.jobs, { evented with
    idempotency := upsertKeys evented.idempotency (batchKeyRows hash batch.entries)
    nodes := queuePreparedNode evented.nodes batch.nodeName
    jobSequences := raiseSequence evented.jobSequences batch.nodeName
      ((batch.jobs.map NewJob.jobId).foldr max 0 + 1) })

end Batch

section Automatic

structure AutoJobPublish where
  provisional : NewJob
  idempotencyKey : Option String
  producerExecutionId : Option String
  expectedShape : Option Shape
  latched : Bool
  eventTime : Timestamp
  -- The job whose task publishes, and its record of the published job.
  parentEvent : Option (JobAddress × (Nat → Details))

inductive PublishPlan where
  | refused (error : Error)
  | existing (jobId : Nat)
  | created (jobId : Nat)

def AutoJobPublish.numbered (item : AutoJobPublish) (jobId : Nat) : NewJob := { item.provisional with jobId := jobId }

abbrev KeyIndex := List (String × (String × Nat))

def existingByHash (hash : KeyHash) (db : Database) (node : String) (items : List AutoJobPublish) : KeyIndex :=
  (items.filterMap AutoJobPublish.idempotencyKey).filterMap fun key =>
    (lookupKey db node (hash key)).map fun found => (hash key, found)

def admitItem (db : Database) (node : String) (item : AutoJobPublish) : Result Unit := do
  refuseReceiverMutation db node
  refuseInterruptHeldPublication db node item.producerExecutionId

def resolvedKey (hash : KeyHash) (resolved : KeyIndex) (item : AutoJobPublish) : Option (String × Nat) :=
  item.idempotencyKey.bind fun key => resolved.lookup (hash key)

def planNode (hash : KeyHash) (db : Database) (node : String) (resolved : KeyIndex) (next : Nat) :
    List AutoJobPublish → Result (List PublishPlan)
  | [] => .ok []
  | item :: rest =>
      match resolvedKey hash resolved item with
      | some (text, jobId) => do
          require (some text == item.idempotencyKey) (keyCollision node)
          let later ← planNode hash db node resolved next rest
          return .existing jobId :: later
      | none =>
          match admitItem db node item with
          | .error error => do
              let later ← planNode hash db node resolved next rest
              return .refused error :: later
          | .ok () => do
              let known := match item.idempotencyKey with
                | some key => (hash key, (key, next)) :: resolved
                | none => resolved
              let later ← planNode hash db node known (next + 1) rest
              return .created next :: later

def planNodes (hash : KeyHash) (db : Database) (items : List (Nat × AutoJobPublish)) :
    Result (List ((Nat × AutoJobPublish) × PublishPlan)) := do
  let nodes := (items.map fun entry => entry.2.provisional.nodeName).eraseDups
  let planned ← collect (fun node => do
    let group := items.filter fun entry => entry.2.provisional.nodeName == node
    let publishes := group.map Prod.snd
    let plans ← planNode hash db node (existingByHash hash db node publishes) (nextJobId db node) publishes
    return group.zip plans) nodes
  return planned.flatten

def pendingItem (entry : (Nat × AutoJobPublish) × PublishPlan) : Option (AutoJobPublish × Nat) :=
  match entry.2 with
  | .created jobId => some (entry.1.2, jobId)
  | _ => none

def pendingKeyRows (hash : KeyHash) (pending : List (AutoJobPublish × Nat)) : List IdempotencyRow :=
  pending.flatMap fun entry => keyRows hash entry.1.provisional.nodeName entry.2 entry.1.idempotencyKey

def setSequences (sequences : Table JobSequence.nodeName) (allocated : List JobAddress) : Table JobSequence.nodeName :=
  allocated.foldl (fun current place => setSequence current place.1 (place.2 + 1)) sequences

def queueNodes (nodes : Table NodeRow.nodeName) (names : List String) : Table NodeRow.nodeName :=
  names.foldl queuePreparedNode nodes

def publishPending (hash : KeyHash) (causes : ArrivalCauses) (db : Database) (pending : List (AutoJobPublish × Nat)) :
    Result Database := do
  let jobs := pending.map fun entry => entry.1.numbered entry.2
  let inserted ← insertJobs db jobs
  let produced ← thread (fun current entry =>
    recordJobProducer current (AutoJobPublish.numbered entry.1 entry.2).address entry.1.producerExecutionId)
    inserted pending
  let marked ← markJobArrivals causes produced
    (pending.map fun entry => ((entry.1.numbered entry.2).address, entry.1.expectedShape, entry.1.latched))
  let events := pending.flatMap fun entry =>
    createdEvents marked.jobEvents (createdEvent entry.1.eventTime (entry.1.numbered entry.2))
  let keyed ← insertIdempotency { marked with jobEvents := marked.jobEvents ++ events } (pendingKeyRows hash pending)
  return { keyed with
    jobSequences := setSequences keyed.jobSequences (jobs.map NewJob.address)
    nodes := queueNodes keyed.nodes (jobs.map NewJob.nodeName) }

def planOutcome : PublishPlan → Result (Bool × Nat)
  | .refused error => .error error
  | .existing jobId => .ok (false, jobId)
  | .created jobId => .ok (true, jobId)

def publishOutcome (validated : Result Unit) (index : Nat) (planned : List ((Nat × AutoJobPublish) × PublishPlan)) :
    Result (Bool × Nat) :=
  match validated with
  | .error error => .error error
  | .ok () =>
      match planned.find? fun entry => entry.1.1 = index with
      | some entry => planOutcome entry.2
      | none => .error (.runtime "auto-job publish group lost an outcome")

def parentEvents (entries : List (AutoJobPublish × Result (Bool × Nat))) : List JobEvent :=
  entries.filterMap fun entry =>
    match entry.1.parentEvent, entry.2 with
    | some (place, data), .ok (_, jobId) => some ⟨place.1, place.2, entry.1.eventTime, "jobs_created", data jobId⟩
    | _, _ => none

def applyAutoJobPublishes (hash : KeyHash) (causes : ArrivalCauses) (store : JobStore)
    (publishes : List AutoJobPublish) : Result (List (Result (Bool × Nat)) × JobStore) := do
  let validated := publishes.map fun item => validateJobProducer store.db item.provisional item.producerExecutionId
  let indexed := publishes.zipIdx.map fun entry => (entry.2, entry.1)
  let items := ((indexed.zip validated).filter fun entry => entry.2.isOk).map Prod.fst
  let planned ← planNodes hash store.db items
  let pending := planned.filterMap pendingItem
  let places := pending.map fun entry => (entry.1.numbered entry.2).address
  match places.find? fun place => place ∈ store.directories with
  | some place => throw (.fileExists (address place.1 place.2))
  | none =>
      let next ← if pending.isEmpty then pure store.db else publishPending hash causes store.db pending
      let outcomes := validated.zipIdx.map fun entry => publishOutcome entry.1 entry.2 planned
      let evented := { next with jobEvents := next.jobEvents ++ parentEvents (publishes.zip outcomes) }
      return (outcomes, ⟨evented, store.directories ++ places⟩)

end Automatic

section Effects

structure JobsPublished (db next : Database) (jobs : List NewJob) (keys : List IdempotencyRow) : Prop where
  jobs : next.jobs.rows = db.jobs.rows ++ jobs.map NewJob.row
  keys : next.idempotency.rows = db.idempotency.rows ++ keys
  guards : next.receiverMutationGuards = db.receiverMutationGuards
  receipts : next.preparationReceipts = db.preparationReceipts
  attempts : next.preparationAttempts = db.preparationAttempts
  inputs : next.inputPublications = db.inputPublications

variable {hash : KeyHash} {causes : ArrivalCauses} {db next : Database} {jobs : List NewJob}

theorem insert_idempotency_rows {keys : List IdempotencyRow} (inserted : insertIdempotency db keys = .ok next) :
    next.idempotency.rows = db.idempotency.rows ++ keys ∧ next = { db with idempotency := next.idempotency } := by
  simp only [insertIdempotency, Lib.bind_ok, Lib.orRaise_ok, Lib.pure_ok] at inserted
  obtain ⟨_, added, rfl⟩ := inserted
  exact ⟨Table.insertAll_rows added, rfl⟩

theorem published_steps {inserted produced marked : Database} {events : List JobEvent} {keys : List IdempotencyRow}
    (rows : JobsInserted db inserted jobs) (creators : InstancesOnly inserted produced)
    (arrivals : StatesOnly produced marked)
    (keyed : insertIdempotency { marked with jobEvents := events } keys = .ok next) :
    JobsPublished db next jobs keys ∧ next.jobSequences = db.jobSequences := by
  obtain ⟨added, only⟩ := insert_idempotency_rows keyed
  have others := rows.others
  refine ⟨⟨?_, ?_, ?_, ?_, ?_, ?_⟩, ?_⟩
  · rw [only, ← rows.rows, arrivals, creators]
  · rw [added, arrivals, creators, others]
  · rw [only, arrivals, creators, others]
  · rw [only, arrivals, creators, others]
  · rw [only, arrivals, creators, others]
  · rw [only, arrivals, creators, others]
  · rw [only, arrivals, creators, others]

theorem publish_single_published {request : SingleCreation}
    (published : publishSingle hash causes db request = .ok next) :
    JobsPublished db next [request.job] (keyRows hash request.job.nodeName request.job.jobId request.idempotencyKey) ∧
      next.jobSequences = raiseSequence db.jobSequences request.job.nodeName (request.job.jobId + 1) := by
  simp only [publishSingle, Lib.bind_ok, Lib.pure_ok] at published
  obtain ⟨inserted, rows, produced, creators, marked, arrivals, keyed, keys, rfl⟩ := published
  have one : recordJobProducers inserted [request.job] request.producerExecutionId = .ok produced := by
    simp only [recordJobProducers, Lib.thread, creators]
  have only := record_job_producers_only one
  obtain ⟨written, sequences⟩ :=
    published_steps (insert_job_inserted rows) only (mark_component_job_arrival_only arrivals) keys
  exact ⟨⟨written.jobs, written.keys, written.guards, written.receipts, written.attempts, written.inputs⟩, by rw [sequences]⟩

theorem publish_batch_published {batch : BatchCommit} {entries : List (NewJob × Option String)}
    (published : publishBatch hash causes db batch entries = .ok next) :
    JobsPublished db next (entries.map Prod.fst) (batchKeyRows hash entries) ∧
      next.jobSequences = db.jobSequences := by
  simp only [publishBatch, Lib.bind_ok, Lib.pure_ok] at published
  obtain ⟨inserted, rows, produced, creators, marked, arrivals, keyed, keys, rfl⟩ := published
  obtain ⟨written, sequences⟩ := published_steps (insert_jobs_inserted rows) (record_job_producers_only creators)
    (mark_job_arrivals_only arrivals) keys
  exact ⟨⟨written.jobs, written.keys, written.guards, written.receipts, written.attempts, written.inputs⟩, sequences⟩

theorem publish_pending_published {pending : List (AutoJobPublish × Nat)}
    (published : publishPending hash causes db pending = .ok next) :
    JobsPublished db next (pending.map fun entry => entry.1.numbered entry.2) (pendingKeyRows hash pending) ∧
      next.jobSequences = setSequences db.jobSequences (pending.map fun entry => (entry.1.numbered entry.2).address) := by
  simp only [publishPending, Lib.bind_ok, Lib.pure_ok] at published
  obtain ⟨inserted, rows, produced, creators, marked, arrivals, keyed, keys, rfl⟩ := published
  have only : InstancesOnly inserted produced := by
    refine Lib.thread_invariant (motive := InstancesOnly inserted) (show InstancesOnly inserted inserted from rfl) ?_
      creators
    intro current after entry _ only step
    have one : recordJobProducers current [entry.1.numbered entry.2] entry.1.producerExecutionId = .ok after := by
      simp only [recordJobProducers, Lib.thread, step]
    have more := record_job_producers_only one
    unfold InstancesOnly at only more ⊢
    rw [more, only]
  obtain ⟨written, sequences⟩ :=
    published_steps (insert_jobs_inserted rows) only (mark_job_arrivals_only arrivals) keys
  have places : (pending.map fun entry => entry.1.numbered entry.2).map NewJob.address =
      pending.map fun entry => (entry.1.numbered entry.2).address := List.map_map
  exact ⟨⟨written.jobs, written.keys, written.guards, written.receipts, written.attempts, written.inputs⟩,
    by rw [sequences, ← places]⟩

theorem commit_single_cases {store stored : JobStore} {request : SingleCreation} {withInput : Bool}
    {answer : Bool × Nat} (done : commitSingleJob hash causes store request withInput = .ok (answer, stored)) :
    (∃ jobId, resolveKey hash store.db request.job.nodeName request.idempotencyKey = .ok (some jobId) ∧
        answer = (false, jobId) ∧ stored = store) ∨
      (resolveKey hash store.db request.job.nodeName request.idempotencyKey = .ok none ∧
        admitPublication store.db request = .ok () ∧ publishSingle hash causes store.db request = .ok stored.db ∧
        answer = (true, request.job.jobId) ∧ (withInput = true → request.job.address ∉ store.directories) ∧
        stored.directories = if withInput then store.directories ++ [request.job.address] else store.directories) := by
  simp only [commitSingleJob, Lib.bind_ok] at done
  obtain ⟨_, _, _, _, _, _, resolved, found, done⟩ := done
  cases resolved with
  | some jobId =>
      simp only [Lib.pure_ok, Prod.mk.injEq] at done
      obtain ⟨rfl, rfl⟩ := done
      exact .inl ⟨jobId, found, rfl, rfl⟩
  | none =>
      simp only [Lib.bind_ok, Lib.refuse_ok, Lib.pure_ok, Prod.mk.injEq] at done
      obtain ⟨_, admitted, _, apart, next, published, rfl, rfl⟩ := done
      refine .inr ⟨found, admitted, published, rfl, ?_, rfl⟩
      intro input
      simpa [input] using apart

theorem create_job_cases {store stored : JobStore} {request : SingleCreation} {jobId : Nat}
    (done : createJob hash causes store request = .ok (jobId, stored)) :
    store.db.jobs.contains request.job.address = false ∧
      ∃ created, commitSingleJob hash causes store request true = .ok ((created, jobId), stored) := by
  simp only [createJob, Lib.bind_ok, Lib.refuse_ok, Lib.pure_ok] at done
  obtain ⟨_, _, _, absent, _, _, ⟨⟨created, found⟩, next⟩, committed, same⟩ := done
  obtain ⟨rfl, rfl⟩ := Prod.mk.inj same
  exact ⟨absent, created, committed⟩

def newEntries (batch : BatchCommit) (existing : List (String × Nat)) : List (NewJob × Option String) :=
  batch.entries.filter fun entry => !(entry.2.any fun key => key ∈ existing.map Prod.fst)

theorem commit_batch_cases {batch : BatchCommit} {answer : List NewJob × List (String × Nat)}
    (done : commitPreparedJobsBatchResolvingIdempotency hash causes db batch = .ok (answer, next)) :
    (batch.jobs = [] ∧ answer = ([], []) ∧ next = db) ∨
      ∃ hashes, batchKeyHashes hash batch.idempotencyKeys = .ok hashes ∧ hashes.Nodup ∧ sameNode batch = true ∧
        batch.idempotencyKeys.length = batch.jobs.length ∧
        existingByKey hash db batch.nodeName batch.idempotencyKeys = .ok answer.2 ∧
        answer.1 = (newEntries batch answer.2).map Prod.fst ∧
        ((answer.1 = [] ∧ next = db) ∨ publishBatch hash causes db batch (newEntries batch answer.2) = .ok next) := by
  unfold commitPreparedJobsBatchResolvingIdempotency at done
  split at done
  · simp only [Lib.pure_ok, Prod.mk.injEq] at done
    obtain ⟨rfl, rfl⟩ := done
    exact .inl ⟨List.isEmpty_iff.mp ‹_›, rfl, rfl⟩
  · simp only [Lib.bind_ok, Lib.require_ok] at done
    obtain ⟨_, sized, _, node, hashes, keys, _, distinct, _, _, existing, found, _, _, _, _, _, _, done⟩ := done
    refine .inr ⟨hashes, keys, by simpa using distinct, node, by simpa using sized, ?_⟩
    split at done
    · simp only [Lib.pure_ok, Prod.mk.injEq] at done
      obtain ⟨rfl, rfl⟩ := done
      exact ⟨found, (List.isEmpty_iff.mp ‹_›).symm, .inl ⟨rfl, rfl⟩⟩
    · simp only [Lib.bind_ok, Lib.pure_ok, Prod.mk.injEq] at done
      obtain ⟨_, _, _, _, middle, published, rfl, rfl⟩ := done
      exact ⟨found, rfl, .inr published⟩

theorem commit_explicit_published {batch : BatchCommit} {answer : List NewJob}
    (done : commitPreparedJobsBatch hash causes db batch = .ok (answer, next)) :
    (batch.jobs = [] ∧ next = db) ∨
      (next.jobs.rows = db.jobs.rows ++ batch.jobs.map NewJob.row ∧ sameNode batch = true ∧
        next.jobSequences = raiseSequence db.jobSequences batch.nodeName
          ((batch.jobs.map NewJob.jobId).foldr max 0 + 1)) := by
  unfold commitPreparedJobsBatch at done
  split at done
  · simp only [Lib.pure_ok, Prod.mk.injEq] at done
    obtain ⟨_, rfl⟩ := done
    exact .inl ⟨List.isEmpty_iff.mp ‹_›, rfl⟩
  · simp only [Lib.bind_ok, Lib.require_ok, Lib.pure_ok, Prod.mk.injEq] at done
    obtain ⟨_, node, _, _, _, _, _, _, _, _, _, _, _, _, _, _, _, _, _, _, inserted, rows, produced, creators, marked,
      arrivals, _, rfl⟩ := done
    have added := insert_jobs_inserted rows
    have others := added.others
    have only := record_job_producers_only creators
    have states := mark_job_arrivals_only arrivals
    refine .inr ⟨?_, node, ?_⟩
    · simp only [insertJobCreatedEvents]
      rw [states, only]
      exact added.rows
    · simp only [insertJobCreatedEvents]
      rw [states, only, others]

theorem auto_publishes_published {store stored : JobStore} {publishes : List AutoJobPublish}
    {outcomes : List (Result (Bool × Nat))}
    (done : applyAutoJobPublishes hash causes store publishes = .ok (outcomes, stored)) :
    ∃ items planned, planNodes hash store.db items = .ok planned ∧
      JobsPublished store.db stored.db ((planned.filterMap pendingItem).map fun entry => entry.1.numbered entry.2)
        (pendingKeyRows hash (planned.filterMap pendingItem)) ∧
      stored.db.jobSequences = setSequences store.db.jobSequences
        ((planned.filterMap pendingItem).map fun entry => (entry.1.numbered entry.2).address) ∧
      stored.directories = store.directories ++
        (planned.filterMap pendingItem).map fun entry => (entry.1.numbered entry.2).address := by
  simp only [applyAutoJobPublishes, Lib.bind_ok] at done
  obtain ⟨planned, plans, done⟩ := done
  split at done
  · exact absurd done Lib.throw_ok
  refine ⟨_, planned, plans, ?_⟩
  split at done
  · simp only [Lib.bind_ok, Lib.pure_ok, Prod.mk.injEq] at done
    obtain ⟨_, rfl, _, rfl⟩ := done
    have none := List.isEmpty_iff.mp ‹_›
    rw [none]
    exact ⟨⟨by simp, by simp [pendingKeyRows], rfl, rfl, rfl, rfl⟩, rfl, by simp⟩
  · simp only [Lib.bind_ok, Lib.pure_ok, Prod.mk.injEq] at done
    obtain ⟨next, published, _, rfl⟩ := done
    obtain ⟨written, sequences⟩ := publish_pending_published published
    exact ⟨⟨written.jobs, written.keys, written.guards, written.receipts, written.attempts, written.inputs⟩, sequences, rfl⟩

end Effects

end MicroWorkflow
