import MicroWorkflow.JobDeletion
import MicroWorkflow.PublishPlans

set_option autoImplicit false

namespace MicroWorkflow

open Lib (Table Run collect)

structure KeyState where
  store : JobStore
  owners : List (JobAddress × String)

def KeyState.db (state : KeyState) : Database := state.store.db

def singleOwners (request : SingleCreation) (created : Bool) : List (JobAddress × String) :=
  if created then request.idempotencyKey.toList.map fun key => (request.job.address, key) else []

def batchOwners (batch : BatchCommit) (existing : List (String × Nat)) : List (JobAddress × String) :=
  (newEntries batch existing).flatMap fun entry => entry.2.toList.map fun key => (entry.1.address, key)

def publishOwner (item : AutoJobPublish) : Result (Bool × Nat) → List (JobAddress × String)
  | .ok (true, jobId) => item.idempotencyKey.toList.map fun key => ((item.provisional.nodeName, jobId), key)
  | _ => []

def automaticOwners (publishes : List AutoJobPublish) (outcomes : List (Result (Bool × Nat))) :
    List (JobAddress × String) :=
  (publishes.zip outcomes).flatMap fun entry => publishOwner entry.1 entry.2

def ownersLeft (owners : List (JobAddress × String)) (gone : JobAddress → Bool) : List (JobAddress × String) :=
  owners.filter fun entry => !gone entry.1

variable (hash : KeyHash) (causes : ArrivalCauses)

inductive KeyOperation where
  | create (request : SingleCreation)
  | register (request : SingleCreation)
  | automatic (publishes : List AutoJobPublish)
  | commit (batch : BatchCommit)
  | deleteJob (node : String) (jobId : Nat) (preserveEvents : Bool)
  | deleteJobsBatch (listed : List Nat) (node : String) (jobIds : List Nat) (preserveEvents : Bool)
  | deleteNodeJobs (node : String) (preserveEvents : Bool)
  | deleteNodeState (node : String)
  | preparation (preparations : List NodeJobPreparation) (keepTrace : Bool) (eventTime : Timestamp)
  | elsewhere

structure KeyFrame (store next : JobStore) : Prop where
  keys : next.db.idempotency = store.db.idempotency
  live : ∀ place, store.db.jobs.contains place = true → next.db.jobs.contains place = true

inductive KeyStep : KeyState → KeyOperation → KeyState → Prop where
  | create {store next : JobStore} {owners : List (JobAddress × String)} {request : SingleCreation} {created : Bool}
      {jobId : Nat} (absent : store.db.jobs.contains request.job.address = false)
      (shaped : ∃ state, readJobReceiverState store.db request.job.nodeName request.expectedShape = .ok state)
      (done : commitSingleJob hash causes store request true = .ok ((created, jobId), next)) :
      KeyStep ⟨store, owners⟩ (.create request) ⟨next, owners ++ singleOwners request created⟩
  | register {store next : JobStore} {owners : List (JobAddress × String)} {request : SingleCreation} {created : Bool}
      {jobId : Nat} (done : commitSingleJob hash causes store request false = .ok ((created, jobId), next)) :
      KeyStep ⟨store, owners⟩ (.register request) ⟨next, owners ++ singleOwners request created⟩
  | automatic {store next : JobStore} {owners : List (JobAddress × String)} {publishes : List AutoJobPublish}
      {outcomes : List (Result (Bool × Nat))}
      (checked : ∀ item ∈ publishes, checkKey hash item.idempotencyKey = .ok ())
      (done : applyAutoJobPublishes hash causes store publishes = .ok (outcomes, next)) :
      KeyStep ⟨store, owners⟩ (.automatic publishes) ⟨next, owners ++ automaticOwners publishes outcomes⟩
  | commit {store : JobStore} {owners : List (JobAddress × String)} {batch : BatchCommit} {jobs : List NewJob}
      {existing : List (String × Nat)} {next : Database}
      (done : commitPreparedJobsBatchResolvingIdempotency hash causes store.db batch = .ok ((jobs, existing), next)) :
      KeyStep ⟨store, owners⟩ (.commit batch) ⟨{ store with db := next }, owners ++ batchOwners batch existing⟩
  | deleteJob {store : JobStore} {owners : List (JobAddress × String)} {node : String} {jobId : Nat}
      {preserveEvents existed : Bool} {next : Database}
      (done : deleteJob store.db node jobId preserveEvents = .ok (existed, next)) :
      KeyStep ⟨store, owners⟩ (.deleteJob node jobId preserveEvents)
        ⟨{ store with db := next }, ownersLeft owners (amongIds node [jobId])⟩
  | deleteJobsBatch {store : JobStore} {owners : List (JobAddress × String)} {listed : List Nat} {node : String}
      {jobIds : List Nat} {preserveEvents : Bool} {count : Nat} {next : Database}
      (done : deleteJobsBatch store.db listed node jobIds preserveEvents = .ok (count, next)) :
      KeyStep ⟨store, owners⟩ (.deleteJobsBatch listed node jobIds preserveEvents)
        ⟨{ store with db := next }, ownersLeft owners (batchDeletes node listed jobIds)⟩
  | deleteNodeJobs {store : JobStore} {owners : List (JobAddress × String)} {node : String} {preserveEvents : Bool} :
      KeyStep ⟨store, owners⟩ (.deleteNodeJobs node preserveEvents)
        ⟨{ store with db := deleteNodeJobs store.db node preserveEvents }, ownersLeft owners (ofNode node)⟩
  | deleteNodeState {store : JobStore} {owners : List (JobAddress × String)} {node : String} {next : Database}
      (done : deleteNodeState store.db node = .ok next) :
      KeyStep ⟨store, owners⟩ (.deleteNodeState node) ⟨{ store with db := next }, ownersLeft owners (ofNode node)⟩
  | preparation {store : JobStore} {owners : List (JobAddress × String)} {preparations : List NodeJobPreparation}
      {keepTrace : Bool} {eventTime : Timestamp} {next : Database}
      (done : applyJobPreparation store.db preparations keepTrace eventTime = .ok next) :
      KeyStep ⟨store, owners⟩ (.preparation preparations keepTrace eventTime)
        ⟨{ store with db := next }, ownersLeft owners (deletedBy preparations)⟩
  | elsewhere {store next : JobStore} {owners : List (JobAddress × String)} (frame : KeyFrame store next) :
      KeyStep ⟨store, owners⟩ .elsewhere ⟨next, owners⟩

structure KeysInvariant (state : KeyState) : Prop where
  rows : ∀ row ∈ state.db.idempotency.rows,
    row.keyHash = hash row.keyText ∧ ((row.nodeName, row.jobId), row.keyText) ∈ state.owners
  live : ∀ entry ∈ state.owners, state.db.jobs.contains entry.1 = true
  texts : ∀ entry ∈ state.owners, hasText entry.2 = true
  recorded : ∀ entry ∈ state.owners, ∃ row ∈ state.db.idempotency.rows,
    (row.nodeName, row.jobId) = entry.1 ∧ row.keyText = entry.2

variable {hash : KeyHash} {causes : ArrivalCauses} {state after : KeyState} {db next : Database}
  {store stored : JobStore} {owners added : List (JobAddress × String)} {node key : String} {place : JobAddress}

section Preservation

structure KeysAdded (hash : KeyHash) (jobs : List NewJob) (keys : List IdempotencyRow)
    (added : List (JobAddress × String)) : Prop where
  rows : ∀ row ∈ keys, row.keyHash = hash row.keyText ∧ ((row.nodeName, row.jobId), row.keyText) ∈ added
  jobs : ∀ entry ∈ added, entry.1 ∈ jobs.map NewJob.address
  texts : ∀ entry ∈ added, hasText entry.2 = true
  recorded : ∀ entry ∈ added, ∃ row ∈ keys, (row.nodeName, row.jobId) = entry.1 ∧ row.keyText = entry.2

theorem keys_published {jobs : List NewJob} {keys : List IdempotencyRow}
    (before : KeysInvariant hash ⟨store, owners⟩) (written : JobsPublished store.db stored.db jobs keys)
    (agree : KeysAdded hash jobs keys added) : KeysInvariant hash ⟨stored, owners ++ added⟩ := by
  have rows := written.keys
  constructor
  · intro row member
    rw [KeyState.db, rows] at member
    rcases List.mem_append.mp member with old | new
    · obtain ⟨hashed, owned⟩ := before.rows row old
      exact ⟨hashed, List.mem_append_left _ owned⟩
    · obtain ⟨hashed, owned⟩ := agree.rows row new
      exact ⟨hashed, List.mem_append_right _ owned⟩
  · intro entry member
    rw [KeyState.db, contains_iff, written.jobs]
    rcases List.mem_append.mp member with old | new
    · obtain ⟨row, present, address⟩ := contains_iff.mp (before.live entry old)
      exact ⟨row, List.mem_append_left _ present, address⟩
    · obtain ⟨job, listed, address⟩ := List.mem_map.mp (agree.jobs entry new)
      exact ⟨job.row, List.mem_append_right _ (List.mem_map_of_mem listed), address⟩
  · intro entry member
    rcases List.mem_append.mp member with old | new
    · exact before.texts entry old
    · exact agree.texts entry new
  · intro entry member
    rw [KeyState.db, rows]
    rcases List.mem_append.mp member with old | new
    · obtain ⟨row, present, found⟩ := before.recorded entry old
      exact ⟨row, List.mem_append_left _ present, found⟩
    · obtain ⟨row, present, found⟩ := agree.recorded entry new
      exact ⟨row, List.mem_append_right _ present, found⟩

theorem keys_deleted {gone : JobAddress → Bool} (before : KeysInvariant hash ⟨store, owners⟩)
    (deleted : JobsDeleted store.db stored.db gone) : KeysInvariant hash ⟨stored, ownersLeft owners gone⟩ := by
  constructor
  · intro row member
    obtain ⟨old, kept⟩ := (deleted.keys row).mp member
    obtain ⟨hashed, owned⟩ := before.rows row old
    exact ⟨hashed, List.mem_filter.mpr ⟨owned, by simp [kept]⟩⟩
  · intro entry member
    obtain ⟨owned, kept⟩ := List.mem_filter.mp member
    have live : store.db.jobs.contains entry.1 = true := before.live entry owned
    rw [KeyState.db, deleted.live, live, kept, Bool.and_self]
  · exact fun entry member => before.texts entry (List.mem_filter.mp member).1
  · intro entry member
    obtain ⟨owned, kept⟩ := List.mem_filter.mp member
    obtain ⟨row, present, address, text⟩ := before.recorded entry owned
    refine ⟨row, (deleted.keys row).mpr ⟨present, ?_⟩, address, text⟩
    rw [address]
    simpa using kept

theorem single_keys_added (request : SingleCreation) (checked : checkKey hash request.idempotencyKey = .ok ()) :
    KeysAdded hash [request.job] (keyRows hash request.job.nodeName request.job.jobId request.idempotencyKey)
      (singleOwners request true) := by
  cases named : request.idempotencyKey with
  | none =>
      rw [singleOwners, named]
      exact ⟨fun row member => absurd member (by simp [keyRows]), fun entry member => absurd member (by simp),
        fun entry member => absurd member (by simp), fun entry member => absurd member (by simp)⟩
  | some key =>
      rw [named] at checked
      simp only [checkKey, idempotencyKeyHash, Lib.bind_ok, Lib.require_ok, Lib.pure_ok] at checked
      obtain ⟨_, ⟨_, text, _⟩, _⟩ := checked
      rw [singleOwners, named]
      refine ⟨?_, ?_, ?_, ?_⟩
      · intro row member
        obtain rfl := List.mem_singleton.mp member
        exact ⟨rfl, List.mem_singleton_self _⟩
      · intro entry member
        obtain rfl := List.mem_singleton.mp member
        exact List.mem_singleton_self _
      · intro entry member
        obtain rfl := List.mem_singleton.mp member
        exact text
      · intro entry member
        obtain rfl := List.mem_singleton.mp member
        exact ⟨_, List.mem_singleton_self _, rfl, rfl⟩

theorem KeysAdded.nil : KeysAdded hash [] [] [] :=
  ⟨fun _ member => absurd member (by simp), fun _ member => absurd member (by simp),
    fun _ member => absurd member (by simp), fun _ member => absurd member (by simp)⟩

theorem KeysAdded.append {jobs more : List NewJob} {keys later : List IdempotencyRow}
    {extra : List (JobAddress × String)} (first : KeysAdded hash jobs keys added)
    (second : KeysAdded hash more later extra) :
    KeysAdded hash (jobs ++ more) (keys ++ later) (added ++ extra) := by
  constructor
  · intro row member
    rcases List.mem_append.mp member with left | right
    · exact ⟨(first.rows row left).1, List.mem_append_left _ (first.rows row left).2⟩
    · exact ⟨(second.rows row right).1, List.mem_append_right _ (second.rows row right).2⟩
  · intro entry member
    rw [List.map_append]
    rcases List.mem_append.mp member with left | right
    · exact List.mem_append_left _ (first.jobs entry left)
    · exact List.mem_append_right _ (second.jobs entry right)
  · intro entry member
    rcases List.mem_append.mp member with left | right
    · exact first.texts entry left
    · exact second.texts entry right
  · intro entry member
    rcases List.mem_append.mp member with left | right
    · obtain ⟨row, present, found⟩ := first.recorded entry left
      exact ⟨row, List.mem_append_left _ present, found⟩
    · obtain ⟨row, present, found⟩ := second.recorded entry right
      exact ⟨row, List.mem_append_right _ present, found⟩

def entryOwners (entry : NewJob × Option String) : List (JobAddress × String) :=
  entry.2.toList.map fun key => (entry.1.address, key)

theorem entries_keys_added {entries : List (NewJob × Option String)}
    (checked : ∀ entry ∈ entries, checkKey hash entry.2 = .ok ()) :
    KeysAdded hash (entries.map Prod.fst) (batchKeyRows hash entries) (entries.flatMap entryOwners) := by
  induction entries with
  | nil => exact .nil
  | cons entry rest ih =>
      have one := single_keys_added ⟨entry.1, entry.2, none, none, false, 0⟩
        (checked entry List.mem_cons_self)
      exact one.append (ih fun other member => checked other (List.mem_cons_of_mem _ member))

theorem KeysAdded.congr {jobs : List NewJob} {keys : List IdempotencyRow} {others : List (JobAddress × String)}
    (agree : KeysAdded hash jobs keys added) (same : ∀ entry, entry ∈ others ↔ entry ∈ added) :
    KeysAdded hash jobs keys others :=
  ⟨fun row member => ⟨(agree.rows row member).1, (same _).mpr (agree.rows row member).2⟩,
    fun entry member => agree.jobs entry ((same entry).mp member),
    fun entry member => agree.texts entry ((same entry).mp member),
    fun entry member => agree.recorded entry ((same entry).mp member)⟩

theorem single_keys_kept {request : SingleCreation} {withInput created : Bool} {jobId : Nat}
    (before : KeysInvariant hash ⟨store, owners⟩)
    (done : commitSingleJob hash causes store request withInput = .ok ((created, jobId), stored)) :
    KeysInvariant hash ⟨stored, owners ++ singleOwners request created⟩ := by
  have checked : checkKey hash request.idempotencyKey = .ok () := by
    simp only [commitSingleJob, Lib.bind_ok] at done
    exact done.choose_spec.2.choose_spec.1
  rcases commit_single_cases done with ⟨_, _, answer, rfl⟩ | ⟨_, _, published, answer, _, _⟩
  · obtain ⟨rfl, _⟩ := Prod.mk.inj answer
    have none : singleOwners request false = [] := rfl
    rw [none, List.append_nil]
    exact before
  · obtain ⟨rfl, _⟩ := Prod.mk.inj answer
    exact keys_published before (publish_single_published published).1 (single_keys_added request checked)

theorem batch_keys_checked {keys : List (Option String)} {hashes : List String}
    (hashed : batchKeyHashes hash keys = .ok hashes) : ∀ found ∈ keys, checkKey hash found = .ok () := by
  intro found member
  cases found with
  | none => rfl
  | some key =>
      have named : key ∈ keys.filterMap id := List.mem_filterMap.mpr ⟨_, member, rfl⟩
      obtain ⟨_, _, accepted⟩ := (Lib.mem_of_collect hashed).2 key named
      simp only [checkKey, accepted]
      rfl

theorem commit_keys_kept {batch : BatchCommit} {jobs : List NewJob} {existing : List (String × Nat)}
    (before : KeysInvariant hash ⟨store, owners⟩)
    (done : commitPreparedJobsBatchResolvingIdempotency hash causes store.db batch = .ok ((jobs, existing), next)) :
    KeysInvariant hash ⟨{ store with db := next }, owners ++ batchOwners batch existing⟩ := by
  rcases commit_batch_cases done with ⟨empty, answer, rfl⟩ | ⟨hashes, hashed, _, _, _, _, answer, committed⟩
  · obtain ⟨_, rfl⟩ := Prod.mk.inj answer
    have none : batchOwners batch [] = [] := by
      simp [batchOwners, newEntries, BatchCommit.entries, empty]
    rw [none, List.append_nil]
    exact before
  · rcases committed with ⟨empty, rfl⟩ | published
    · have none : batchOwners batch existing = [] := by
        have nothing : newEntries batch existing = [] := List.map_eq_nil_iff.mp (answer.symm.trans empty)
        rw [batchOwners, nothing]
        rfl
      rw [none, List.append_nil]
      exact before
    · refine keys_published before (publish_batch_published published).1 (entries_keys_added ?_)
      intro entry member
      have zipped : entry ∈ batch.jobs.zip batch.idempotencyKeys := (List.mem_filter.mp member).1
      exact batch_keys_checked hashed entry.2 (List.of_mem_zip zipped).2

def pendingOwners (pending : List (AutoJobPublish × Nat)) : List (JobAddress × String) :=
  pending.flatMap fun entry => publishOwner entry.1 (.ok (true, entry.2))

theorem pending_keys_added {pending : List (AutoJobPublish × Nat)}
    (checked : ∀ entry ∈ pending, checkKey hash entry.1.idempotencyKey = .ok ()) :
    KeysAdded hash (pending.map fun entry => entry.1.numbered entry.2) (pendingKeyRows hash pending)
      (pendingOwners pending) := by
  have added : KeysAdded hash ((pending.map fun entry => (entry.1.numbered entry.2, entry.1.idempotencyKey)).map Prod.fst)
      (batchKeyRows hash (pending.map fun entry => (entry.1.numbered entry.2, entry.1.idempotencyKey)))
      ((pending.map fun entry => (entry.1.numbered entry.2, entry.1.idempotencyKey)).flatMap entryOwners) := by
    apply entries_keys_added
    intro _ member
    obtain ⟨entry, listed, rfl⟩ := List.mem_map.mp member
    exact checked entry listed
  rw [List.map_map, batchKeyRows, List.flatMap_map, List.flatMap_map] at added
  exact added

theorem automatic_keys_kept {publishes : List AutoJobPublish} {outcomes : List (Result (Bool × Nat))}
    (before : KeysInvariant hash ⟨store, owners⟩) (checked : ∀ item ∈ publishes, checkKey hash item.idempotencyKey = .ok ())
    (done : applyAutoJobPublishes hash causes store publishes = .ok (outcomes, stored)) :
    KeysInvariant hash ⟨stored, owners ++ automaticOwners publishes outcomes⟩ := by
  obtain ⟨planned, plans, written, answered⟩ := auto_publishes_outcomes done
  have listed : ∀ item jobId, (item, jobId) ∈ planned.filterMap pendingItem ↔
      (item, .ok (true, jobId)) ∈ publishes.zip outcomes := fun item jobId =>
    (pending_iff_created plans).trans (answered item (.ok (true, jobId))).symm
  refine keys_published before written ((pending_keys_added ?_).congr ?_)
  · rintro ⟨item, jobId⟩ member
    exact checked item (List.of_mem_zip ((listed item jobId).mp member)).1
  · intro owner
    simp only [automaticOwners, pendingOwners, List.mem_flatMap, Prod.exists]
    constructor
    · rintro ⟨item, outcome, member, owned⟩
      cases outcome with
      | error error => exact absurd owned (by simp [publishOwner])
      | ok answer =>
          obtain ⟨created, jobId⟩ := answer
          cases created with
          | false => exact absurd owned (by simp [publishOwner])
          | true => exact ⟨item, jobId, (listed item jobId).mpr member, owned⟩
    · rintro ⟨item, jobId, member, owned⟩
      exact ⟨item, _, (listed item jobId).mp member, owned⟩

theorem key_step_kept {operation : KeyOperation} (before : KeysInvariant hash state)
    (step : KeyStep hash causes state operation after) : KeysInvariant hash after := by
  cases step with
  | create absent shaped done => exact single_keys_kept before done
  | register done => exact single_keys_kept before done
  | automatic checked done => exact automatic_keys_kept before checked done
  | commit done => exact commit_keys_kept before done
  | deleteJob done => exact keys_deleted before (delete_job_deleted done)
  | deleteJobsBatch done => exact keys_deleted before (delete_jobs_batch_deleted done)
  | deleteNodeJobs => exact keys_deleted before (delete_node_jobs_deleted _)
  | deleteNodeState done => exact keys_deleted before (delete_node_state_deleted done)
  | preparation done => exact keys_deleted before (preparation_deleted done)
  | elsewhere frame =>
      refine ⟨fun row member => before.rows row ?_, fun entry member => frame.live _ (before.live entry member),
        before.texts, fun entry member => ?_⟩
      · exact frame.keys ▸ member
      · obtain ⟨row, present, found⟩ := before.recorded entry member
        exact ⟨row, frame.keys.symm ▸ present, found⟩

end Preservation

section Calls

theorem owner_row (kept : KeysInvariant hash state) (owned : (place, key) ∈ state.owners) :
    ∃ row, state.db.idempotency.find (place.1, hash key) = some row ∧ row.jobId = place.2 ∧ row.keyText = key := by
  obtain ⟨row, present, address, text⟩ := kept.recorded _ owned
  obtain ⟨here, number⟩ := Prod.mk.inj address
  refine ⟨row, Table.find_eq_some.mpr ⟨present, ?_⟩, number, text⟩
  rw [IdempotencyRow.key, (kept.rows row present).1, text, here]

theorem owner_lookup (kept : KeysInvariant hash state) (owned : (place, key) ∈ state.owners) :
    lookupKey state.db place.1 (hash key) = some (key, place.2) := by
  obtain ⟨row, found, number, text⟩ := owner_row kept owned
  have live := kept.live _ owned
  rw [lookupKey, found]
  simp only [number, text]
  rw [if_pos live]

theorem owner_resolves (kept : KeysInvariant hash state) (owned : (place, key) ∈ state.owners) :
    resolveKey hash state.db place.1 (some key) = .ok (some place.2) := by
  simp only [resolveKey, owner_lookup kept owned, beq_self_eq_true, Lib.require]
  rfl

theorem owners_unique {other : JobAddress} (kept : KeysInvariant hash state) (owned : (place, key) ∈ state.owners)
    (again : (other, key) ∈ state.owners) (same : place.1 = other.1) : place = other := by
  have first := owner_lookup kept owned
  have second := owner_lookup kept again
  rw [same, second] at first
  exact Prod.ext same (Prod.mk.inj (Option.some.inj first)).2.symm

theorem owner_checked (kept : KeysInvariant hash state) (owned : (place, key) ∈ state.owners) :
    checkKey hash (some key) = .ok () := by
  have text : hasText key = true := kept.texts _ owned
  simp only [checkKey, idempotencyKeyHash, text, Lib.require, if_true]
  rfl

structure KeyAnswered (hash : KeyHash) (causes : ArrivalCauses) (store : JobStore) (place : JobAddress) (key : String) :
    Prop where
  single : ∀ (request : SingleCreation) (withInput : Bool), request.job.nodeName = place.1 →
    request.idempotencyKey = some key → validateJobId request.job.jobId = .ok () →
    validateJobProducer store.db request.job request.producerExecutionId = .ok () →
      commitSingleJob hash causes store request withInput = .ok ((false, place.2), store)
  automatic : ∀ publishes outcomes next, applyAutoJobPublishes hash causes store publishes = .ok (outcomes, next) →
    ∀ item outcome, (item, outcome) ∈ publishes.zip outcomes → item.provisional.nodeName = place.1 →
      item.idempotencyKey = some key → validProducer store.db item = .ok () → outcome = .ok (false, place.2)
  alone : ∀ item : AutoJobPublish, item.provisional.nodeName = place.1 → item.idempotencyKey = some key →
    validProducer store.db item = .ok () →
      ∃ next, applyAutoJobPublishes hash causes store [item] = .ok ([.ok (false, place.2)], next) ∧
        next.db.jobs = store.db.jobs ∧ next.directories = store.directories
  batch : ∀ batch jobs existing next,
    commitPreparedJobsBatchResolvingIdempotency hash causes store.db batch = .ok ((jobs, existing), next) →
      batch.nodeName = place.1 → ∀ entry ∈ batch.entries, entry.2 = some key →
        (key, place.2) ∈ existing ∧ (∀ jobId, (key, jobId) ∈ existing → jobId = place.2) ∧
          entry ∉ newEntries batch existing

theorem single_answered (kept : KeysInvariant hash state) (owned : (place, key) ∈ state.owners)
    {request : SingleCreation} {withInput : Bool} (here : request.job.nodeName = place.1)
    (named : request.idempotencyKey = some key) (numbered : validateJobId request.job.jobId = .ok ())
    (valid : validateJobProducer state.db request.job request.producerExecutionId = .ok ()) :
    commitSingleJob hash causes state.store request withInput = .ok ((false, place.2), state.store) := by
  have resolved := owner_resolves kept owned
  rw [← here, ← named] at resolved
  have checked := owner_checked kept owned
  rw [← named] at checked
  simp only [KeyState.db] at valid resolved
  simp only [commitSingleJob, numbered, checked, valid, resolved, bind, Except.bind]
  rfl

theorem automatic_answered (kept : KeysInvariant hash state) (owned : (place, key) ∈ state.owners)
    {publishes : List AutoJobPublish} {planned : List ((Nat × AutoJobPublish) × PublishPlan)} {item : AutoJobPublish}
    {index : Nat} (plans : planNodes hash state.db (validItems state.db publishes) = .ok planned)
    (listed : publishes[index]? = some item) (here : item.provisional.nodeName = place.1)
    (named : item.idempotencyKey = some key) (valid : validProducer state.db item = .ok ()) :
    publishOutcome (validProducer state.db item) index planned = .ok (false, place.2) := by
  obtain ⟨plan, member, outcome⟩ := planned_answer plans listed valid
  have found : lookupKey state.db item.provisional.nodeName (hash key) = some (key, place.2) := by
    rw [here]
    exact owner_lookup kept owned
  rw [outcome, planned_existing plans member named found]
  rfl

theorem alone_answered (kept : KeysInvariant hash state) (owned : (place, key) ∈ state.owners) {item : AutoJobPublish}
    (here : item.provisional.nodeName = place.1) (named : item.idempotencyKey = some key)
    (valid : validProducer state.db item = .ok ()) :
    ∃ next, applyAutoJobPublishes hash causes state.store [item] = .ok ([.ok (false, place.2)], next) ∧
      next.db.jobs = state.db.jobs ∧ next.directories = state.store.directories := by
  have found : lookupKey state.db item.provisional.nodeName (hash key) = some (key, place.2) := by
    rw [here]
    exact owner_lookup kept owned
  have plans : planNodes hash state.db [(0, item)] = .ok [((0, item), .existing place.2)] := by
    have resolved : resolvedKey hash (existingByHash hash state.db item.provisional.nodeName [item]) item =
        some (key, place.2) := by
      rw [resolvedKey, named]
      exact (existing_lookup hash state.db _ (List.mem_singleton_self item) named).trans found
    have one : ∀ start, planNode hash state.db item.provisional.nodeName
        (existingByHash hash state.db item.provisional.nodeName [item]) start [item] = .ok [.existing place.2] := by
      intro start
      unfold planNode
      rw [resolved]
      simp only [named, beq_self_eq_true, Lib.require, planNode, bind, Except.bind, if_true]
      rfl
    have single : ([(0, item)].map fun entry => entry.2.provisional.nodeName).eraseDups = [item.provisional.nodeName] := rfl
    unfold planNodes
    rw [single]
    simp only [collect, List.filter_cons, beq_self_eq_true, if_true, List.filter_nil, List.map_cons, List.map_nil, one,
      bind, Except.bind]
    rfl
  have ready : validateJobProducer state.db item.provisional item.producerExecutionId = .ok () := valid
  simp only [KeyState.db] at plans ready
  let events := state.store.db.jobEvents ++ parentEvents [(item, .ok (false, place.2))]
  refine ⟨⟨{ state.store.db with jobEvents := events }, state.store.directories⟩, ?_, rfl, rfl⟩
  simp only [applyAutoJobPublishes, List.map_cons, List.map_nil, List.zipIdx_cons, List.zipIdx_nil, ready,
    List.zip_cons_cons, List.zip_nil_right, List.filter_cons, Except.isOk, Except.toBool, List.filter_nil, plans,
    bind, Except.bind, if_true, List.filterMap_cons, pendingItem, List.filterMap_nil, List.find?_nil, List.isEmpty_nil,
    publishOutcome, List.find?_cons, decide_true, planOutcome, pure, Except.pure, List.append_nil]
  rfl

theorem batch_answered (kept : KeysInvariant hash state) (owned : (place, key) ∈ state.owners) {batch : BatchCommit}
    {jobs : List NewJob} {existing : List (String × Nat)}
    (done : commitPreparedJobsBatchResolvingIdempotency hash causes state.db batch = .ok ((jobs, existing), next))
    (here : batch.nodeName = place.1) {entry : NewJob × Option String} (member : entry ∈ batch.entries)
    (named : entry.2 = some key) :
    (key, place.2) ∈ existing ∧ (∀ jobId, (key, jobId) ∈ existing → jobId = place.2) ∧
      entry ∉ newEntries batch existing := by
  rcases commit_batch_cases done with ⟨empty, _, _⟩ | ⟨_, _, _, _, _, found, _, _⟩
  · exact absurd member (by simp [BatchCommit.entries, empty])
  · have resolved := owner_resolves kept owned
    rw [← here] at resolved
    simp only [existingByKey, Lib.bind_ok, Lib.pure_ok] at found
    obtain ⟨answers, collected, listed⟩ := found
    obtain ⟨back, forth⟩ := Lib.mem_of_collect collected
    have requested : key ∈ batch.idempotencyKeys.filterMap id :=
      List.mem_filterMap.mpr ⟨_, (List.of_mem_zip member).2, named⟩
    have known : (key, place.2) ∈ existing := by
      obtain ⟨answer, inside, step⟩ := forth key requested
      rw [resolved] at step
      obtain rfl := Except.ok.inj step
      exact listed ▸ List.mem_filterMap.mpr ⟨_, inside, rfl⟩
    refine ⟨known, ?_, ?_⟩
    · intro jobId again
      rw [← listed] at again
      obtain ⟨answer, inside, same⟩ := List.mem_filterMap.mp again
      obtain ⟨other, _, step⟩ := back answer inside
      simp only [Lib.bind_ok, Lib.pure_ok] at step
      obtain ⟨number, read, rfl⟩ := step
      simp only [id, Option.map_eq_some_iff, Prod.mk.injEq] at same
      obtain ⟨_, rfl, rfl, rfl⟩ := same
      exact Option.some.inj (Except.ok.inj (read.symm.trans resolved))
    · intro fresh
      have away := (List.mem_filter.mp fresh).2
      simp only [named, Option.any_some, Bool.not_eq_true', decide_eq_false_iff_not] at away
      exact away (List.mem_map_of_mem known)

theorem key_answered (kept : KeysInvariant hash state) (owned : (place, key) ∈ state.owners) :
    KeyAnswered hash causes state.store place key := by
  constructor
  · exact fun request withInput here named numbered valid => single_answered kept owned here named numbered valid
  · intro publishes outcomes next done item outcome member here named valid
    obtain ⟨planned, plans, _, answered⟩ := auto_publishes_outcomes done
    obtain ⟨index, listed, rfl⟩ := (answered item outcome).mp member
    exact automatic_answered kept owned plans listed here named valid
  · exact fun item here named valid => alone_answered kept owned here named valid
  · exact fun batch jobs existing next done here entry member named => batch_answered kept owned done here member named

theorem create_answered_iff (kept : KeysInvariant hash state) (owned : (place, key) ∈ state.owners)
    {request : SingleCreation} (here : request.job.nodeName = place.1) (named : request.idempotencyKey = some key)
    (numbered : validateJobId request.job.jobId = .ok ())
    (valid : validateJobProducer state.db request.job request.producerExecutionId = .ok ())
    (shaped : ∃ receiver, readJobReceiverState state.db request.job.nodeName request.expectedShape = .ok receiver) :
    createJob hash causes state.store request = .ok (place.2, state.store) ↔
      state.db.jobs.contains request.job.address = false := by
  constructor
  · exact fun done => (create_job_cases done).1
  · intro absent
    obtain ⟨receiver, read⟩ := shaped
    have answered : commitSingleJob hash causes state.store request true = .ok ((false, place.2), state.store) :=
      single_answered kept owned here named numbered valid
    simp only [KeyState.db] at absent read
    simp only [createJob, numbered, absent, read, answered, Lib.refuse, bind, Except.bind]
    rfl

theorem deleted_key_free (kept : KeysInvariant hash state) (owned : (place, key) ∈ state.owners)
    {gone : JobAddress → Bool} (deleted : JobsDeleted state.db next gone) (removed : gone place = true) :
    resolveKey hash next place.1 (some key) = .ok none ∧
      ∀ jobId, ∃ keyed, insertIdempotency next (keyRows hash place.1 jobId (some key)) = .ok keyed := by
  obtain ⟨row, found, number, _⟩ := owner_row kept owned
  have absent : next.idempotency.find (place.1, hash key) = none := by
    rw [Table.find_none_iff]
    intro other member same
    obtain ⟨present, spared⟩ := (deleted.keys other).mp member
    have again : state.db.idempotency.find (place.1, hash key) = some other := same ▸ Table.find_of_mem present
    obtain rfl := Option.some.inj (found.symm.trans again)
    have keyed := Table.find_key found
    have here : row.nodeName = place.1 := (Prod.mk.inj keyed).1
    rw [here, number] at spared
    exact absurd (spared.symm.trans removed) (by simp)
  refine ⟨by simp only [resolveKey, lookupKey, absent], fun jobId => ?_⟩
  have fresh : ∀ added ∈ keyRows hash place.1 jobId (some key), next.idempotency.find added.key = none := by
    intro added member
    obtain rfl := List.mem_singleton.mp member
    exact absent
  obtain ⟨keys, inserted⟩ := Table.insertAll_some fresh (by simp [keyRows])
  exact ⟨{ next with idempotency := keys }, by simp only [insertIdempotency, inserted]; rfl⟩

def KeyState.Empty (state : KeyState) : Prop := state.db.idempotency.rows = [] ∧ state.owners = []

theorem empty_keys (empty : state.Empty) : KeysInvariant hash state := by
  obtain ⟨rows, owned⟩ := empty
  refine ⟨?_, ?_, ?_, ?_⟩
  · rw [rows]
    exact fun _ member => absurd member (by simp)
  · rw [owned]
    exact fun _ member => absurd member (by simp)
  · rw [owned]
    exact fun _ member => absurd member (by simp)
  · rw [owned]
    exact fun _ member => absurd member (by simp)

theorem idempotency_keys_resolve {initial final : KeyState} {operations : List KeyOperation} (empty : initial.Empty)
    (run : Run (KeyStep hash causes) initial operations final) :
    (∀ first second key, (first, key) ∈ final.owners → (second, key) ∈ final.owners → first.1 = second.1 →
        first = second) ∧
      (∀ row ∈ final.db.idempotency.rows, ((row.nodeName, row.jobId), row.keyText) ∈ final.owners) ∧
      (∀ entry ∈ final.owners, final.db.jobs.contains entry.1 = true) ∧
      ∀ place key, (place, key) ∈ final.owners →
        KeyAnswered hash causes final.store place key ∧
          (∀ request : SingleCreation, request.job.nodeName = place.1 → request.idempotencyKey = some key →
            validateJobId request.job.jobId = .ok () →
            validateJobProducer final.db request.job request.producerExecutionId = .ok () →
            (∃ receiver, readJobReceiverState final.db request.job.nodeName request.expectedShape = .ok receiver) →
              (createJob hash causes final.store request = .ok (place.2, final.store) ↔
                final.db.jobs.contains request.job.address = false)) ∧
          ∀ gone next, JobsDeleted final.db next gone → gone place = true →
            resolveKey hash next place.1 (some key) = .ok none ∧
              ∀ jobId, ∃ keyed, insertIdempotency next (keyRows hash place.1 jobId (some key)) = .ok keyed := by
  have kept : KeysInvariant hash final := run.invariant (empty_keys empty) fun before step => key_step_kept before step
  refine ⟨?_, ?_, kept.live, ?_⟩
  · exact fun first second key owned again same => owners_unique kept owned again same
  · exact fun row member => (kept.rows row member).2
  · intro place key owned
    refine ⟨key_answered kept owned, ?_, ?_⟩
    · exact fun request here named numbered valid shaped => create_answered_iff kept owned here named numbered valid shaped
    · exact fun gone next deleted removed => deleted_key_free kept owned deleted removed

def keyedJob (node instanceId key : String) (jobId : Nat) : SingleCreation :=
  { explicitJob node instanceId jobId with idempotencyKey := some key }

def keyedOnce : JobStore := (Lib.valueOr (createJob id noCauses emptyProject.store
  (keyedJob "b" "00000000000000000000000000000001" "k" 1)) (0, emptyProject.store)).2

theorem keyed_once : Run (KeyStep id noCauses) ⟨emptyProject.store, []⟩
    [.create (keyedJob "b" "00000000000000000000000000000001" "k" 1)] ⟨keyedOnce, [(("b", 1), "k")]⟩ := by
  have created : KeyStep id noCauses ⟨emptyProject.store, []⟩
      (.create (keyedJob "b" "00000000000000000000000000000001" "k" 1))
      ⟨keyedOnce, [] ++ singleOwners (keyedJob "b" "00000000000000000000000000000001" "k" 1) true⟩ :=
    .create rfl ⟨_, rfl⟩ rfl
  exact .snoc (.nil _) created

-- Another explicit id under the key gives job 1.
theorem idempotency_keys_resolve_keyed :
    createJob id noCauses keyedOnce (keyedJob "b" "00000000000000000000000000000002" "k" 2) = .ok (1, keyedOnce) :=
  (((idempotency_keys_resolve ⟨rfl, rfl⟩ keyed_once).2.2.2 ("b", 1) "k" (by decide)).2.1
    (keyedJob "b" "00000000000000000000000000000002" "k" 2) rfl rfl rfl rfl ⟨_, rfl⟩).mpr (by decide)

-- The same call again is refused: its explicit id is that of the job it asks for.
theorem create_refuses_its_own_job :
    Run (KeyStep id noCauses) ⟨emptyProject.store, []⟩
        [.create (keyedJob "b" "00000000000000000000000000000001" "k" 1)] ⟨keyedOnce, [(("b", 1), "k")]⟩ ∧
      lookupKey keyedOnce.db "b" "k" = some ("k", 1) ∧
      createJob id noCauses keyedOnce (keyedJob "b" "00000000000000000000000000000001" "k" 1) =
        .error (.value "Job b/1 already exists") := by
  refine ⟨keyed_once, ?_, ?_⟩
  · decide
  · rfl

end Calls

end MicroWorkflow
