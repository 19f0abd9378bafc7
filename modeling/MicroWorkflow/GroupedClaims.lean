import MicroWorkflow.AfterClaims

set_option autoImplicit false

namespace MicroWorkflow

open Lib (require refuse orRaise each collect Table)

def groupedClaims (db : Database) (probe : Probe) (batches : List ExecutionClaimBatch) :
    List (Result Claims) × Database :=
  match applyExecutionClaimBatches db probe batches with
  | .ok answer => answer
  | .error error => (batches.map fun _ => .error error, db)

def claimsInTurn (db : Database) (probe : Probe) : List ExecutionClaimBatch → List (Result Claims) × Database
  | [] => ([], db)
  | batch :: rest =>
      let first := groupedClaims db probe [batch]
      let later := claimsInTurn first.2 probe rest
      (first.1 ++ later.1, later.2)

def claimedBy (outcomes : List (Result Claims)) : List (Option Claims) := outcomes.map Except.toOption

structure BuiltBatch (batch : ExecutionClaimBatch) : Prop where
  distinct : batch.jobIds.Nodup
  identified : batch.executionIds.length = batch.jobIds.length
  positive : ∀ jobId ∈ batch.jobIds, 1 ≤ jobId
  pid : 1 ≤ batch.pid
  thread : 1 ≤ batch.threadId

structure BuiltBatches (db : Database) (batches : List ExecutionClaimBatch) : Prop where
  built : ∀ batch ∈ batches, BuiltBatch batch
  distinct : (batches.flatMap ExecutionClaimBatch.executionIds).Nodup
  unused : ∀ executionId ∈ batches.flatMap ExecutionClaimBatch.executionIds, Unused db executionId

def restartRecorded (db : Database) (node : String) (jobId : Nat) : Bool :=
  match db.jobs.find (node, jobId), db.jobInstances.find (node, jobId), latestRestartEvent db node jobId with
  | some row, some identity, some event =>
      row.generation != 0 && event.data.get "generation" == .int row.generation
        && event.data.get "job_instance_id" == .text identity.instanceId
  | _, _, _ => false

def FencesReadable (db : Database) (batch : ExecutionClaimBatch) : Prop :=
  ∀ sessionId component, batch.sessionId = some sessionId → batch.component = some component →
    batch.nodeName ∈ component → readInterruptClaimBlockers db sessionId component = [] →
      ∃ fences, readInterruptExecutionFences db sessionId (encodeComponentKey component) = .ok fences

def RecordedShape (db : Database) (sessionId : String) (component : Component) : Prop :=
  ∀ session identity, db.executionSessions.find sessionId = some session →
    readComponentProducingIdentity db component = .ok identity → session.admittedShapeId = identity.1

-- Wherever a claim of `scope` looks at the active jobs around one of its nodes and meets jobs of the batch,
-- it can read them as jobs of its own component.
def Joins (db : Database) (batch : ExecutionClaimBatch) (scope : Component) : Prop :=
  ∀ sessionId component node active, batch.sessionId = some sessionId → batch.component = some component →
    node ∈ scope → readActiveComponentForNode db node = .ok active → batch.nodeName ∈ active.getD [node] →
      active = some scope ∧ component = scope ∧ RecordedShape db sessionId component

def OrdinaryWork (db : Database) (batch : ExecutionClaimBatch) (sessionId : String) (component : Component) : Prop :=
  db.pendingComponentExecutions.contains (sessionId, component) = true ∧
    claimsOwnedRestarts db batch sessionId component ≠ .ok true

structure LeavesAlone (db : Database) (earlier later : ExecutionClaimBatch) : Prop where
  joins : earlier.jobIds ≠ [] → ∀ component, later.component = some component → Joins db earlier component
  unrequested : ∀ sessionId component, later.sessionId = some sessionId → later.component = some component →
    OrdinaryWork db later sessionId component → earlier.nodeName ∈ component →
      ∀ jobId ∈ earlier.jobIds, restartRecorded db earlier.nodeName jobId = false

def claimable (db : Database) (probe : Probe) (batch : ExecutionClaimBatch) : Bool :=
  match batchVerdict db probe batch [] with
  | .ok (.ok _) => true
  | _ => false

def takenBatches (db : Database) (probe : Probe) : List ExecutionClaimBatch → List JobAddress → List ExecutionClaimBatch
  | [], _ => []
  | batch :: rest, accepted =>
      if claimable db probe batch && (acceptedAddresses batch).all (· ∉ accepted) then
        batch :: takenBatches db probe rest (accepted ++ acceptedAddresses batch)
      else takenBatches db probe rest accepted

def SeparableBatches (db : Database) (probe : Probe) (batches : List ExecutionClaimBatch) : Prop :=
  batches.length ≤ 1 ∨ (∀ batch ∈ batches, claimable db probe batch = false) ∨
    ((∀ batch ∈ batches, FencesReadable db batch) ∧ (takenBatches db probe batches []).Pairwise (LeavesAlone db))

structure ClaimedEntry (db : Database) (probe : Probe) (entry : ExecutionClaimBatch × ClaimedJob) (sessionId : String)
    (component : Component) (identity : Nat × Nat) : Prop where
  built : BuiltBatch entry.1
  accepted : ∃ before rows, AcceptedClaim db probe entry.1 before sessionId component rows identity ∧
    entry.2 ∈ claimedJobs entry.1 sessionId component identity rows

variable {db mid : Database} {probe : Probe} {claimed : Accepted} {entry : ExecutionClaimBatch × ClaimedJob}
  {sessionId : String} {component : Component} {identity : Nat × Nat} {row : Job}

theorem claimed_jobs_owner {batch : ExecutionClaimBatch} {rows : List ClaimRow} {job : ClaimedJob}
    (member : job ∈ claimedJobs batch sessionId component identity rows) :
    job.owner.sessionId = sessionId ∧ job.owner.componentKey = encodeComponentKey component ∧
      job.owner.shapeId = identity.1 ∧ job.owner.alignmentGeneration = identity.2 ∧
      job.owner.executionId ∈ batch.executionIds := by
  obtain ⟨⟨⟨read, executionId⟩, index⟩, inside, rfl⟩ := List.mem_map.mp member
  have zipped : (read, executionId) ∈ rows.zip batch.executionIds :=
    (List.mem_zipIdx inside).2.2 ▸ List.getElem_mem _
  exact ⟨rfl, rfl, rfl, rfl, (List.of_mem_zip zipped).2⟩

theorem has_history_observed {batch : ExecutionClaimBatch} {accepted : List JobAddress} {rows : List ClaimRow}
    {read : ClaimRow} (claimable : validateClaimedRows db batch accepted rows = .ok ()) (member : read ∈ rows)
    (history : read.hasHistory = true) :
    ∃ observed, readJobOwnerObservation db batch.nodeName read.job.jobId = .ok observed := by
  simp only [validateClaimedRows, Lib.bind_ok] at claimable
  obtain ⟨_, _, _, _, checked⟩ := claimable
  have one := Lib.each_ok.mp checked read member
  simp only [history, if_true, Lib.bind_ok, Lib.pure_ok] at one
  obtain ⟨observed, seen, _⟩ := one
  exact ⟨observed, seen⟩

theorem observation_creator {observed : JobOwnerObservation} {instanceRow : JobInstance}
    (seen : jobOwnerObservationFromRow db row = .ok observed)
    (found : db.jobInstances.find row.address = some instanceRow) :
    creatorRecorded db instanceRow.createdByExecutionId = true := by
  unfold jobOwnerObservationFromRow at seen
  simp only [found, Lib.orRaise_some_bind] at seen
  rw [Lib.bind_ok] at seen
  obtain ⟨_, _, seen⟩ := seen
  rw [Lib.bind_ok] at seen
  obtain ⟨_, recorded, _⟩ := seen
  exact Lib.require_ok.mp recorded

theorem ClaimedEntry.read (claim : ClaimedEntry db probe entry sessionId component identity) :
    ∃ stored instanceRow, ClaimRead db entry.2 stored instanceRow ∧
      creatorRecorded db instanceRow.createdByExecutionId = true ∧ stored.nodeName = entry.1.nodeName ∧
      stored.jobId ∈ entry.1.jobIds ∧ entry.1.nodeName ∈ component := by
  obtain ⟨before, rows, accepted, job⟩ := claim.accepted
  obtain ⟨read, member, instanceRow, located, observed, node, jobId⟩ := mem_claimed_jobs accepted job
  have inside := (claim_owner_error_none.mp accepted.unrefused).1
  have here := Table.find_key observed.job
  simp only [Job.address, ExecutionOwner.address, Prod.mk.injEq] at here
  refine ⟨read.job, instanceRow, observed, ?_, here.1.trans node, ?_, inside⟩
  · cases created : instanceRow.createdByExecutionId with
    | none => rfl
    | some creator =>
        have history : read.hasHistory = true := by simp [ClaimRow.hasHistory, located, created]
        obtain ⟨seen, reading⟩ := has_history_observed accepted.claimable member history
        have found : db.jobs.find (entry.1.nodeName, read.job.jobId) = some read.job := by
          have same := observed.job
          rw [ExecutionOwner.address, node, jobId] at same
          exact same
        simp only [readJobOwnerObservation, found, Lib.bind_ok, Lib.pure_ok] at reading
        obtain ⟨observation, made, _⟩ := reading
        have instanceFound : db.jobInstances.find read.job.address = some instanceRow := by
          rw [Job.address, here.1, here.2]
          exact observed.instanceRow
        exact created ▸ observation_creator made instanceFound
  · obtain ⟨presented, there, taken⟩ := (Lib.mem_of_collect accepted.found).1 read member
    simp only [Lib.orRaise_ok, claimRow, Option.map_eq_some_iff] at taken
    obtain ⟨stored, found, rfl⟩ := taken
    have key := Table.find_key found
    simp only [Job.address, Prod.mk.injEq] at key
    exact key.2 ▸ there

theorem AcceptedClaim.canonical {batch : ExecutionClaimBatch} {accepted : List JobAddress} {rows : List ClaimRow}
    (claim : AcceptedClaim db probe batch accepted sessionId component rows identity) :
    encodeComponentKey component = component := by
  obtain ⟨_, _, _, inside, _⟩ := read_component_producing_identity_ok claim.producing
  exact hoeflein_component_canonical inside

theorem claim_reserved (canonical : encodeComponentKey component = component)
    (owned : claimOwnerRowError (claimOwnerRow db sessionId (encodeComponentKey component)) sessionId component = none) :
    reservationOwner db component = some sessionId := by
  have row := claim_owner_row_error_none.mp owned
  simp only [canonical, claimOwnerRow, Option.map_eq_some_iff, ClaimOwnerRow.mk.injEq] at row
  obtain ⟨_, _, _, reserved, _⟩ := row
  exact reserved

theorem AcceptedClaim.owned {batch : ExecutionClaimBatch} {accepted : List JobAddress} {rows : List ClaimRow}
    (claim : AcceptedClaim db probe batch accepted sessionId component rows identity) :
    ∃ session, db.executionSessions.find sessionId = some session ∧ session.status = .running ∧
      db.sessionComponents.contains (sessionId, component) = true ∧ reservationOwner db component = some sessionId := by
  obtain ⟨_, _, _, owned, _⟩ := claim_owner_error_none.mp claim.unrefused
  have row := claim_owner_row_error_none.mp owned
  simp only [claim.canonical, claimOwnerRow, Option.map_eq_some_iff, ClaimOwnerRow.mk.injEq, Bool.and_eq_true] at row
  obtain ⟨session, found, running, reserved, _, selected⟩ := row
  exact ⟨session, found, running, selected, reserved⟩

theorem ClaimedEntry.bound (claim : ClaimedEntry db probe entry sessionId component identity) :
    ∃ active held, BoundNode db probe sessionId entry.1.nodeName active held := by
  obtain ⟨before, rows, accepted, _⟩ := claim.accepted
  obtain ⟨inside, _, _, _, threads⟩ := claim_owner_error_none.mp accepted.unrefused
  exact read_thread_override_iff.mp (validate_thread_override_claim_ok.mp threads _ inside)

theorem ClaimedEntry.taken (claim : ClaimedEntry db probe entry sessionId component identity) (member : row ∈ db.jobs.rows)
    (here : row.address = claimedAddress entry) :
    ∃ instanceRow, ClaimRead db entry.2 row instanceRow ∧ row.nodeName = entry.1.nodeName ∧ row.jobId ∈ entry.1.jobIds := by
  obtain ⟨stored, instanceRow, read, _, node, jobId, _⟩ := claim.read
  have same : stored = row := by
    have found := Table.find_of_mem member
    rw [here] at found
    exact Option.some.inj (read.job.symm.trans found)
  exact ⟨instanceRow, same ▸ read, same ▸ node, same ▸ jobId⟩

theorem ClaimedEntry.quiet (claim : ClaimedEntry db probe entry sessionId component identity) (member : row ∈ db.jobs.rows)
    (here : row.address = claimedAddress entry) : row.showsActivity = false := by
  obtain ⟨instanceRow, read, node, _⟩ := claim.taken member here
  obtain ⟨active, held, bound⟩ := claim.bound
  have owners := bound.owners
  cases active with
  | none => exact owners row member node
  | some around =>
      have inside : row.nodeName ∈ around := node ▸ (read_active_component_for_node_ok bound.component).1
      by_contra shows
      obtain ⟨owner, judged, _⟩ := owners row member inside (by simpa using shows)
      simp [activeJobSession, read.inactive, require, bind, Except.bind] at judged

theorem ClaimedEntry.observation (claim : ClaimedEntry db probe entry sessionId component identity)
    (recorded : RecordedShape db sessionId component) (written : ClaimsWritten db mid claimed)
    (unused : claimed.Unused db) (listed : entry ∈ claimed)
    {stored : Job} {instanceRow : JobInstance} (read : ClaimRead db entry.2 stored instanceRow) :
    ∃ observed, jobOwnerObservationFromRow mid (claimUpdate entry stored) = .ok observed ∧
      observed.owner = some entry.2.owner ∧ observed.activeExecutionId = some entry.2.owner.executionId ∧
      observed.generation = stored.generation ∧ observed.status = .running ∧
      observed.jobInstanceId = instanceRow.instanceId := by
  obtain ⟨other, otherInstance, again, creator, node, jobId, inside⟩ := claim.read
  have sameRow : other = stored := Option.some.inj (again.job.symm.trans read.job)
  have sameInstance : otherInstance = instanceRow := Option.some.inj (again.instanceRow.symm.trans read.instanceRow)
  subst sameRow sameInstance
  obtain ⟨before, rows, accepted, job⟩ := claim.accepted
  have canonical := accepted.canonical
  obtain ⟨session, running, _, selected, _⟩ := accepted.owned
  have admitted := recorded session identity running accepted.producing
  obtain ⟨ownerSession, ownerKey, ownerShape, _, _⟩ := claimed_jobs_owner job
  obtain ⟨shape, shapeRow, formed, member, defined⟩ := read_component_producing_identity_ok accepted.producing
  have here := Table.find_key read.job
  simp only [Job.address, ExecutionOwner.address, Prod.mk.injEq] at here
  have address : other.address = claimedAddress entry := by
    rw [Job.address, claimedAddress, ExecutionOwner.address, here.1, here.2]
  have instanceFound : mid.jobInstances.find other.address = some (instanceUpdate entry otherInstance) := by
    rw [written.instances, address, claimedAddress, read.instanceRow, Option.map_some]
    exact congrArg some (Table.rewritten_mem written.distinct listed)
  have ownerFound : mid.jobExecutionOwners.find entry.2.owner.executionId = some entry.2.owner := by
    refine Table.find_of_mem ?_
    rw [Table.insertAll_rows written.owners]
    exact List.mem_append_right _ (List.mem_map_of_mem listed)
  have instanceMember := Table.find_mem read.instanceRow
  have creators : creatorRecorded mid otherInstance.createdByExecutionId = true := by
    rw [written.creator fun item taken => (unused item taken).created otherInstance instanceMember]
    exact creator
  have key : entry.2.owner.componentKey = component := ownerKey.trans canonical
  have nodeInside : entry.2.owner.nodeName ∈ component := by
    rw [← here.1, node]
    exact inside
  have readBack : executionOwnerFromRow mid entry.2.owner = .ok entry.2.owner := by
    have snapshot : snapshotOr shape.shapeJson (.runtime "Damaged execution producing shape") =
        .ok shape.shapeJson.hoefleinComponents := snapshot_or_ok.mpr ⟨rfl, formed⟩
    have positive : 1 ≤ entry.2.owner.jobId := here.2 ▸ claim.built.positive _ jobId
    have valid : validInstance entry.2.owner.jobInstanceId = true := read.instanceId ▸ read.valid
    rw [← read.creator] at creators
    simp [executionOwnerFromRow, written.sessions, written.scopes, written.definitions, written.shapes, ownerSession,
      running, admitted, ownerShape, key, canonical, selected, defined, valid, positive, shapeRow, Lib.orRaise,
      snapshot, member, nodeInside, creators, require, bind, Except.bind, pure, Except.pure]
  refine ⟨⟨otherInstance.instanceId, other.generation, .running, some entry.2.owner.executionId, some entry.1.pid,
    some entry.1.startedAt, .active, some entry.2.owner, some ⟨session, readSessionParentIds mid session.sessionId⟩⟩,
    ?_, rfl, rfl, rfl, rfl, rfl⟩
  have sameAddress : (claimUpdate entry other).address = other.address := rfl
  unfold jobOwnerObservationFromRow
  simp only [sameAddress, instanceFound, Lib.orRaise_some_bind]
  simp [claimUpdate, instanceUpdate, read.valid, creators, ownerFound, ownerSession, written.sessions, running,
    written.scopes, key, selected, here.1, here.2, read.instanceId, read.creator, read.generation, readBack, nodeInside,
    Lib.orRaise, refuse, require, bind, Except.bind, pure, Except.pure]

theorem ClaimedEntry.observed (claim : ClaimedEntry db probe entry sessionId component identity)
    (written : ClaimsWritten db mid claimed) (listed : entry ∈ claimed) {stored : Job} {observed : JobOwnerObservation}
    (seen : jobOwnerObservationFromRow mid (claimUpdate entry stored) = .ok observed) :
    RecordedShape db sessionId component ∧ observed.owner = some entry.2.owner := by
  obtain ⟨before, rows, accepted, job⟩ := claim.accepted
  obtain ⟨ownerSession, _, ownerShape, _, _⟩ := claimed_jobs_owner job
  have ownerFound : mid.jobExecutionOwners.find entry.2.owner.executionId = some entry.2.owner := by
    refine Table.find_of_mem ?_
    rw [Table.insertAll_rows written.owners]
    exact List.mem_append_right _ (List.mem_map_of_mem listed)
  have active : (claimUpdate entry stored).activeExecutionId = some entry.2.owner.executionId := rfl
  simp only [jobOwnerObservationFromRow, active, Option.some_or, ownerFound, Lib.bind_ok, Lib.orRaise_ok,
    Option.some.injEq, exists_eq_left', Lib.pure_ok] at seen
  obtain ⟨_, _, _, _, _, _, _, _, _, _, _, _, _, _, owner, readBack, rfl⟩ := seen
  simp only [executionOwnerFromRow, Lib.bind_ok, Lib.require_ok, Lib.pure_ok, Bool.and_eq_true] at readBack
  obtain ⟨_, ⟨⟨recorded, _⟩, _⟩, _, _, _, _, _, _, _, _, _, _, _, _, rfl⟩ := readBack
  refine ⟨fun session other found producing => ?_, rfl⟩
  rw [accepted.producing, Except.ok.injEq] at producing
  rw [written.sessions, ownerSession, found, ownerShape, beq_iff_eq] at recorded
  rw [recorded, producing]

theorem reservation_owner_mem {key : Component} (reserved : reservationOwner db key = some sessionId) :
    (⟨key, sessionId⟩ : ComponentReservation) ∈ db.componentReservations.rows := by
  obtain ⟨row, found, rfl⟩ := Option.map_eq_some_iff.mp reserved
  have same := Table.find_key found
  exact same ▸ Table.find_mem found

theorem ClaimedEntry.active_session_iff (claim : ClaimedEntry db probe entry sessionId component identity)
    (written : ClaimsWritten db mid claimed) (unused : claimed.Unused db) (listed : entry ∈ claimed) {stored : Job}
    (member : stored ∈ db.jobs.rows) (here : stored.address = claimedAddress entry) {around : Component}
    {answer : Option String} :
    activeJobSession mid probe around false (claimUpdate entry stored) = .ok answer ↔
      RecordedShape db sessionId component ∧ component = around ∧ answer = some sessionId := by
  obtain ⟨instanceRow, read, _⟩ := claim.taken member here
  obtain ⟨_, _, accepted, job⟩ := claim.accepted
  obtain ⟨ownerSession, ownerKey, _, _, _⟩ := claimed_jobs_owner job
  have key : entry.2.owner.componentKey = component := ownerKey.trans accepted.canonical
  obtain ⟨_, held, bound⟩ := claim.bound
  obtain ⟨session, live, found⟩ := (reservation_for_node_ok bound.reservation).1
  rw [bound.session] at found
  have running := override_session_running found
  constructor
  · intro judged
    simp only [activeJobSession, Lib.bind_ok, Lib.require_ok] at judged
    obtain ⟨_, _, observed, seen, judged⟩ := judged
    obtain ⟨recorded, owned⟩ := claim.observed written listed seen
    simp only [owned, Lib.orRaise_ok, Option.some.injEq, exists_eq_left', ownerSession, written.overrideSession, found,
      Except.ok.injEq, running, if_true, Lib.pure_ok, Bool.and_eq_true, beq_iff_eq, key] at judged
    obtain ⟨_, ⟨_, scope⟩, rfl⟩ := judged
    exact ⟨recorded, scope, rfl⟩
  · rintro ⟨recorded, rfl, rfl⟩
    obtain ⟨observed, seen, owner, active, _, _, _⟩ := claim.observation recorded written unused listed read
    simp only [activeJobSession, seen]
    simp [owner, active, claimUpdate, claim.built.pid, claim.built.thread, key,
      ownerSession, written.overrideSession, found, running, require, Lib.orRaise, bind, Except.bind, pure, Except.pure]

theorem spared_active_session (written : ClaimsWritten db mid claimed) (unused : claimed.Unused db)
    (member : row ∈ db.jobs.rows) (spared : claimed.Spares row.address) (allowTerminal : Bool) :
    activeJobSession mid probe component allowTerminal row = activeJobSession db probe component allowTerminal row := by
  unfold activeJobSession
  simp only [written.spared_observation unused member spared, written.overrideSession]

def Unrequested (db : Database) (claimed : Accepted) (component : Component) : Prop :=
  ∀ entry ∈ claimed, entry.1.nodeName ∈ component →
    restartRecorded db entry.1.nodeName entry.2.owner.jobId = false

def ClaimedEntries (db : Database) (probe : Probe) (claimed : Accepted) : Prop :=
  ∀ entry ∈ claimed, ∃ sessionId scope identity, ClaimedEntry db probe entry sessionId scope identity

section Overrides

variable {node : String} {active : Option Component} {held : NodeReservation}

theorem ClaimedEntries.untouched (entries : ClaimedEntries db probe claimed) (member : row ∈ db.jobs.rows)
    (shows : row.showsActivity = true) : claimed.Spares row.address := by
  intro entry listed here
  obtain ⟨_, _, _, claim⟩ := entries entry listed
  rw [claim.quiet member here.symm] at shows
  cases shows

theorem active_jobs_around_after (written : ClaimsWritten db mid claimed) (unused : claimed.Unused db)
    (entries : ClaimedEntries db probe claimed) :
    ActiveJobsAround mid probe node held active ↔ ActiveJobsAround db probe node held active ∧
      ∀ entry ∈ claimed, entry.1.nodeName ∈ active.getD [node] → ∀ other scope identity,
        ClaimedEntry db probe entry other scope identity →
          active = some scope ∧ RecordedShape db other scope ∧ other = held.sessionId ∧ held.component = scope := by
  cases active with
  | none =>
      constructor
      · intro quiet
        refine ⟨fun row member named => ?_, fun entry listed inside other scope identity claim => ?_⟩
        · by_contra shows
          have active : row.showsActivity = true := by simpa using shows
          exact shows (quiet row (written.spared_row member (entries.untouched member active)) named)
        · obtain ⟨stored, _, read, _, named, _⟩ := claim.read
          have there : entry.1.nodeName = node := List.mem_singleton.mp inside
          cases quiet _ (written.claimed_row listed (Table.find_mem read.job) (Table.find_key read.job)) (named.trans there)
      · intro ⟨quiet, joins⟩ row member named
        rcases written.row_cases member with ⟨old, _⟩ | ⟨entry, listed, stored, old, here, rfl⟩
        · exact quiet row old named
        · obtain ⟨_, _, _, claim⟩ := entries entry listed
          obtain ⟨_, _, there, _⟩ := claim.taken old here
          cases (joins entry listed (List.mem_singleton.mpr (there.symm.trans named)) _ _ _ claim).1
  | some around =>
      constructor
      · intro owned
        refine ⟨fun row member inside shows => ?_, fun entry listed inside other scope identity claim => ?_⟩
        · have spared := entries.untouched member shows
          have kept := owned row (written.spared_row member spared) inside shows
          rwa [spared_active_session written unused member spared] at kept
        · obtain ⟨stored, _, read, _, named, _⟩ := claim.read
          have member := Table.find_mem read.job
          have here : stored.address = claimedAddress entry := Table.find_key read.job
          have there : stored.nodeName ∈ around := named ▸ inside
          obtain ⟨owner, judged, mine⟩ := owned _ (written.claimed_row listed member here) there rfl
          obtain ⟨recorded, rfl, rfl⟩ := (claim.active_session_iff written unused listed member here).mp judged
          exact ⟨rfl, recorded, mine other rfl⟩
      · intro ⟨owned, joins⟩ row member inside shows
        rcases written.row_cases member with ⟨old, spared⟩ | ⟨entry, listed, stored, old, here, rfl⟩
        · rw [spared_active_session written unused old spared]
          exact owned row old inside shows
        · obtain ⟨other, scope, identity, claim⟩ := entries entry listed
          obtain ⟨_, _, named, _⟩ := claim.taken old here
          have around : entry.1.nodeName ∈ around := named ▸ inside
          obtain ⟨same, recorded, mine, holds⟩ := joins entry listed around _ _ _ claim
          cases same
          refine ⟨some other, (claim.active_session_iff written unused listed old here).mpr ⟨recorded, rfl, rfl⟩, ?_⟩
          exact fun name same => ⟨(Option.some.inj same).symm.trans mine, holds⟩

theorem BoundNode.before (written : ClaimsWritten db mid claimed) (bound : BoundNode mid probe sessionId node active held)
    (owners : ActiveJobsAround db probe node held active) : BoundNode db probe sessionId node active held where
  name := bound.name
  component := (written.activeComponent node).symm.trans bound.component
  reservation := (written.reservation probe node).symm.trans bound.reservation
  live := bound.live
  session := bound.session
  overrides := written.nodeOverrides probe node ▸ bound.overrides
  owners := owners

theorem BoundNode.later (written : ClaimsWritten db mid claimed) (bound : BoundNode db probe sessionId node active held)
    (owners : ActiveJobsAround mid probe node held active) : BoundNode mid probe sessionId node active held where
  name := bound.name
  component := (written.activeComponent node).trans bound.component
  reservation := (written.reservation probe node).trans bound.reservation
  live := bound.live
  session := bound.session
  overrides := (written.nodeOverrides probe node).symm ▸ bound.overrides
  owners := owners

theorem bound_node_scope (bound : BoundNode db probe sessionId node active held)
    (reserved : reservationOwner db component = some sessionId) (inside : node ∈ component) : held.component = component :=
  ((reservation_for_node_ok bound.reservation).2 _ (reservation_owner_mem reserved) inside).1.symm

theorem thread_override_claim_after (written : ClaimsWritten db mid claimed) (unused : claimed.Unused db)
    (entries : ClaimedEntries db probe claimed) (reserved : reservationOwner db component = some sessionId) :
    validateThreadOverrideClaim mid probe sessionId component = .ok () ↔
      validateThreadOverrideClaim db probe sessionId component = .ok () ∧ ∀ entry ∈ claimed, Joins db entry.1 component := by
  simp only [validate_thread_override_claim_ok, read_thread_override_iff]
  constructor
  · intro bound
    refine ⟨fun node inside => ?_, fun entry listed other scope node active session named inside here around => ?_⟩
    · obtain ⟨active, held, after⟩ := bound node inside
      exact ⟨active, held, after.before written ((active_jobs_around_after written unused entries).mp after.owners).1⟩
    · obtain ⟨found, held, after⟩ := bound node inside
      obtain ⟨owners, joins⟩ := (active_jobs_around_after written unused entries).mp after.owners
      have before := after.before written owners
      obtain rfl : found = active := Except.ok.inj (before.component.symm.trans here)
      obtain ⟨mine, component', identity, claim⟩ := entries entry listed
      obtain ⟨_, _, accepted, _⟩ := claim.accepted
      obtain rfl : mine = other := Option.some.inj (accepted.session.symm.trans session)
      obtain rfl : component' = scope := Option.some.inj (accepted.scope.symm.trans named)
      obtain ⟨found, recorded, _, holds⟩ := joins entry listed around _ _ _ claim
      have same : component' = component := holds.symm.trans (bound_node_scope before reserved inside)
      exact ⟨found.trans (congrArg some same), same, recorded⟩
  · intro ⟨bound, joins⟩ node inside
    obtain ⟨active, held, before⟩ := bound node inside
    refine ⟨active, held, before.later written ((active_jobs_around_after written unused entries).mpr ⟨before.owners, ?_⟩)⟩
    intro entry listed around other scope identity claim
    obtain ⟨_, _, accepted, _⟩ := claim.accepted
    obtain ⟨found, rfl, recorded⟩ := joins entry listed other scope node active accepted.session accepted.scope inside
      before.component around
    obtain ⟨_, _, _, _, owned⟩ := accepted.owned
    have mine : other = sessionId := Option.some.inj (owned.symm.trans reserved)
    exact ⟨found, recorded, mine.trans before.session.symm, bound_node_scope before reserved inside⟩

end Overrides

theorem ClaimedEntry.joined {other : String} {scope : Component} (claim : ClaimedEntry db probe entry other scope identity)
    (joins : Joins db entry.1 component) (bound : validateThreadOverrideClaim db probe sessionId component = .ok ())
    (reserved : reservationOwner db component = some sessionId) (inside : entry.1.nodeName ∈ component) :
    scope = component ∧ other = sessionId ∧ RecordedShape db other scope := by
  obtain ⟨_, _, accepted, _⟩ := claim.accepted
  obtain ⟨active, held, node⟩ := read_thread_override_iff.mp (validate_thread_override_claim_ok.mp bound _ inside)
  have around : entry.1.nodeName ∈ active.getD [entry.1.nodeName] := by
    cases active with
    | none => exact List.mem_singleton_self _
    | some found => exact (read_active_component_for_node_ok node.component).1
  obtain ⟨_, rfl, recorded⟩ := joins other scope _ active accepted.session accepted.scope inside node.component around
  obtain ⟨_, _, _, _, owned⟩ := accepted.owned
  exact ⟨rfl, Option.some.inj (owned.symm.trans reserved), recorded⟩

theorem shared_entry (entries : ClaimedEntries db probe claimed) (joins : ∀ entry ∈ claimed, Joins db entry.1 component)
    (bound : validateThreadOverrideClaim db probe sessionId component = .ok ())
    (reserved : reservationOwner db component = some sessionId) (listed : entry ∈ claimed) (member : row ∈ db.jobs.rows)
    (here : row.address = claimedAddress entry) (inside : row.nodeName ∈ component) :
    ∃ identity instanceRow, ClaimedEntry db probe entry sessionId component identity ∧
      RecordedShape db sessionId component ∧ ClaimRead db entry.2 row instanceRow ∧ row.nodeName = entry.1.nodeName ∧
        row.jobId ∈ entry.1.jobIds := by
  obtain ⟨other, scope, identity, claim⟩ := entries entry listed
  obtain ⟨instanceRow, read, node, jobId⟩ := claim.taken member here
  obtain ⟨rfl, rfl, recorded⟩ := claim.joined (joins entry listed) bound reserved (node ▸ inside)
  exact ⟨identity, instanceRow, claim, recorded, read, node, jobId⟩

theorem spared_unfinished_job (written : ClaimsWritten db mid claimed) (unused : claimed.Unused db)
    (member : row ∈ db.jobs.rows) (spared : claimed.Spares row.address) :
    unfinishedJob mid sessionId component row = unfinishedJob db sessionId component row := by
  have place : claimed.Spares (row.nodeName, row.jobId) := spared
  unfold unfinishedJob
  simp only [written.spared_observation unused member spared, written.claimed_restart unused,
    written.spared_restart unused place]

theorem restart_recorded_iff {node : String} {jobId : Nat} {instanceRow : JobInstance}
    (found : db.jobs.find (node, jobId) = some row) (located : db.jobInstances.find (node, jobId) = some instanceRow) :
    restartRecorded db node jobId = true ↔ row.generation ≠ 0 ∧ ∃ event, latestRestartEvent db node jobId = some event ∧
      event.data.get "generation" = .int row.generation ∧ event.data.get "job_instance_id" = .text instanceRow.instanceId := by
  unfold restartRecorded
  rw [found, located]
  cases latestRestartEvent db node jobId with
  | none => simp
  | some event => simp [and_assoc]

theorem ClaimedEntry.unfinished_iff (claim : ClaimedEntry db probe entry sessionId component identity)
    (recorded : RecordedShape db sessionId component) (written : ClaimsWritten db mid claimed)
    (unused : claimed.Unused db) (listed : entry ∈ claimed) {stored : Job} {instanceRow : JobInstance}
    (read : ClaimRead db entry.2 stored instanceRow) :
    unfinishedJob mid sessionId component (claimUpdate entry stored) = .ok none ↔
      restartRecorded db stored.nodeName stored.jobId = false := by
  obtain ⟨observed, seen, owner, active, generation, _, jobInstance⟩ :=
    claim.observation recorded written unused listed read
  obtain ⟨_, _, accepted, job⟩ := claim.accepted
  obtain ⟨ownerSession, ownerKey, _, _, _⟩ := claimed_jobs_owner job
  have scope : entry.2.owner.componentKey = component := ownerKey.trans accepted.canonical
  have judged : unfinishedJob mid sessionId component (claimUpdate entry stored) = .ok none ↔
      isClaimedComponentRestart db observed entry.2.owner = .ok false := by
    have running : (claimUpdate entry stored).status = .running := rfl
    unfold unfinishedJob
    simp only [seen, owner, ownerSession, scope, running, written.claimed_restart unused, bind, Except.bind]
    cases isClaimedComponentRestart db observed entry.2.owner with
    | error error => simp
    | ok continued => cases continued <;> simp [pure, Except.pure]
  have address := Table.find_key read.job
  simp only [Job.address, ExecutionOwner.address, Prod.mk.injEq] at address
  have found : db.jobs.find (stored.nodeName, stored.jobId) = some stored := Table.find_of_mem (Table.find_mem read.job)
  have located : db.jobInstances.find (stored.nodeName, stored.jobId) = some instanceRow := by
    rw [address.1, address.2]
    exact read.instanceRow
  rw [judged, ← Bool.not_eq_true, restart_recorded_iff found located]
  constructor
  · rintro quiet ⟨positive, event, requested, raised, named⟩
    rw [address.1, address.2] at requested
    refine is_claimed_component_restart_requested ?_ ?_ requested ?_ ?_ quiet
    · rw [generation, read.generation]
    · rw [generation]
      exact positive
    · rw [generation]
      exact raised
    · rw [jobInstance]
      exact named
  · intro unrequested
    refine is_claimed_component_restart_false fun event requested positive raised named => ?_
    rw [generation] at positive raised
    rw [jobInstance] at named
    rw [← address.1, ← address.2] at requested
    exact unrequested ⟨positive, event, requested, raised, named⟩

theorem ClaimedEntry.owned_restart {batch : ExecutionClaimBatch} {jobId : Nat}
    (owned : claimsOwnedRestarts db batch sessionId component = .ok true) (presented : jobId ∈ batch.jobIds) :
    ∃ restart, readOwnedRestart db batch.nodeName jobId sessionId component = .ok (some restart) := by
  unfold claimsOwnedRestarts at owned
  rw [Lib.bind_ok] at owned
  obtain ⟨restarts, collected, owned⟩ := owned
  obtain ⟨restart, member, read⟩ := (Lib.mem_of_collect collected).2 jobId presented
  split at owned
  · rename_i all
    obtain ⟨value, rfl⟩ := Option.isSome_iff_exists.mp (List.all_eq_true.mp all restart member)
    exact ⟨value, read⟩
  · exact absurd owned (by simp)

theorem admission_error_none {batch : ExecutionClaimBatch} :
    admissionError db batch sessionId component = none ↔
      requireInterruptFenceAuthority db sessionId (encodeComponentKey component) = .ok () ∧
        (db.pendingComponentExecutions.contains (sessionId, encodeComponentKey component) = true →
          claimsOwnedRestarts db batch sessionId component = .ok true ∨
            (claimsOwnedRestarts db batch sessionId component = .ok false ∧
              readPendingComponentWork db sessionId component = .ok [])) := by
  unfold admissionError
  cases requireInterruptFenceAuthority db sessionId (encodeComponentKey component) with
  | error error => simp
  | ok _ =>
      by_cases begun : db.pendingComponentExecutions.contains (sessionId, encodeComponentKey component) = true
      · simp only [begun, Bool.not_true, Bool.false_eq_true, if_false, forall_const, true_and]
        cases claimsOwnedRestarts db batch sessionId component with
        | error error => simp
        | ok owned =>
            cases owned with
            | true => simp
            | false =>
                cases readPendingComponentWork db sessionId component with
                | error error => simp
                | ok unfinished => cases unfinished <;> simp [unfinishedError]
      · simp [begun]

theorem owned_restart_recorded {batch : ExecutionClaimBatch} {instanceRow : JobInstance}
    (owned : claimsOwnedRestarts db batch sessionId component = .ok true) (node : row.nodeName = batch.nodeName)
    (presented : row.jobId ∈ batch.jobIds) (found : db.jobs.find (row.nodeName, row.jobId) = some row)
    (located : db.jobInstances.find (row.nodeName, row.jobId) = some instanceRow) :
    restartRecorded db row.nodeName row.jobId = true := by
  obtain ⟨restart, waiting⟩ := ClaimedEntry.owned_restart owned presented
  obtain ⟨other, observed, owner, event, here, request⟩ := read_owned_restart_some waiting
  have same : other = row := by
    rw [node, here] at found
    exact Option.some.inj found
  subst same
  obtain ⟨_, _, _, identityRow, instanceFound, instanceId, _⟩ := observation_row request.seen
  have sameInstance : identityRow = instanceRow := Option.some.inj (instanceFound.symm.trans located)
  have raised := request.raised
  refine (restart_recorded_iff found located).mpr ⟨by omega, event, request.requested, request.generation, ?_⟩
  rw [← sameInstance, ← instanceId]
  exact request.jobInstance

theorem pending_work_after (written : ClaimsWritten db mid claimed) (unused : claimed.Unused db)
    (entries : ClaimedEntries db probe claimed) (joins : ∀ entry ∈ claimed, Joins db entry.1 component)
    (bound : validateThreadOverrideClaim db probe sessionId component = .ok ())
    (reserved : reservationOwner db component = some sessionId) (canonical : encodeComponentKey component = component)
    (begun : db.pendingComponentExecutions.contains (sessionId, component) = true) :
    readPendingComponentWork mid sessionId component = .ok [] ↔
      readPendingComponentWork db sessionId component = .ok [] ∧ Unrequested db claimed component := by
  rw [read_pending_component_work_nil]
  simp only [written.pending, written.shapes, written.outcomes]
  constructor
  · intro after
    have quiet : Unrequested db claimed component := by
      intro entry listed inside
      obtain ⟨_, _, _, claim⟩ := entries entry listed
      obtain ⟨stored, instanceRow, read, _, node, _⟩ := claim.read
      have member := Table.find_mem read.job
      have here : stored.address = claimedAddress entry := Table.find_key read.job
      obtain ⟨_, _, claim, recorded, _⟩ := shared_entry entries joins bound reserved listed member here (node ▸ inside)
      have jobId : stored.jobId = entry.2.owner.jobId := congrArg Prod.snd here
      rw [← node, ← jobId]
      by_cases fresh : stored.generation = 0
      · have found : db.jobs.find (stored.nodeName, stored.jobId) = some stored := Table.find_of_mem member
        have located : db.jobInstances.find (stored.nodeName, stored.jobId) = some instanceRow := by
          rw [show (stored.nodeName, stored.jobId) = claimedAddress entry from here]
          exact read.instanceRow
        rw [← Bool.not_eq_true, restart_recorded_iff found located]
        exact fun requested => requested.1 fresh
      · obtain ⟨pending, found⟩ := Option.isSome_iff_exists.mp begun
        obtain ⟨_, _, _, idle⟩ := after pending (by rwa [canonical])
        have owes : mayOweWork (claimUpdate entry stored) = true := by
          simp [mayOweWork, claimUpdate, Nat.pos_of_ne_zero fresh]
        exact (claim.unfinished_iff recorded written unused listed read).mp
          (idle _ (written.claimed_row listed member here) (node ▸ inside) owes)
    refine ⟨read_pending_component_work_nil.mpr fun pending found => ?_, quiet⟩
    obtain ⟨shape, here, valid, idle⟩ := after pending found
    refine ⟨shape, here, valid, fun row member inside owes => ?_⟩
    by_cases spared : claimed.Spares row.address
    · rw [← spared_unfinished_job written unused member spared]
      exact idle row (written.spared_row member spared) inside owes
    · -- the claim that took this job was ordinary and has seen nothing unfinished itself
      simp only [Accepted.Spares, not_forall, not_not] at spared
      obtain ⟨entry, listed, at_⟩ := spared
      obtain ⟨identity, instanceRow, claim, recorded, read, node, presented⟩ :=
        shared_entry entries joins bound reserved listed member at_.symm inside
      obtain ⟨_, _, accepted, _⟩ := claim.accepted
      rcases (admission_error_none.mp accepted.admitted).2 (by rwa [canonical]) with owned | ⟨_, nothing⟩
      · have stored : db.jobs.find (row.nodeName, row.jobId) = some row := Table.find_of_mem member
        have located : db.jobInstances.find (row.nodeName, row.jobId) = some instanceRow := by
          rw [show (row.nodeName, row.jobId) = claimedAddress entry from at_.symm]
          exact read.instanceRow
        have requested := owned_restart_recorded owned node presented stored located
        have jobId : row.jobId = entry.2.owner.jobId := congrArg Prod.snd at_.symm
        rw [node, jobId, quiet entry listed (node ▸ inside)] at requested
        cases requested
      · obtain ⟨_, _, _, idle⟩ := read_pending_component_work_nil.mp nothing pending found
        exact idle row member inside owes
  · rintro ⟨before, unrequested⟩ pending found
    obtain ⟨shape, here, valid, idle⟩ := read_pending_component_work_nil.mp before pending found
    refine ⟨shape, here, valid, fun row member inside owes => ?_⟩
    rcases written.row_cases member with ⟨old, spared⟩ | ⟨entry, listed, stored, old, at_, rfl⟩
    · rw [spared_unfinished_job written unused old spared]
      exact idle row old inside owes
    · obtain ⟨identity, instanceRow, claim, recorded, read, node, _⟩ :=
        shared_entry entries joins bound reserved listed old at_ inside
      have jobId : stored.jobId = entry.2.owner.jobId := congrArg Prod.snd at_
      refine (claim.unfinished_iff recorded written unused listed read).mpr ?_
      rw [node, jobId]
      exact unrequested entry listed (node ▸ inside)

section Batch

variable {batch : ExecutionClaimBatch} (written : ClaimsWritten db mid claimed) (unused : claimed.Unused db)
  (spared : ∀ jobId ∈ batch.jobIds, claimed.Spares (batch.nodeName, jobId))
include written spared

theorem claimed_rows_after : claimedRows mid batch = claimedRows db batch := by
  unfold claimedRows
  apply Lib.collect_congr
  intro jobId presented
  simp only [claimRow, written.spared_job (spared jobId presented), written.spared_instance (spared jobId presented)]

include unused

theorem owned_restarts_after :
    claimsOwnedRestarts mid batch sessionId component = claimsOwnedRestarts db batch sessionId component := by
  unfold claimsOwnedRestarts
  have same : collect (fun jobId => readOwnedRestart mid batch.nodeName jobId sessionId component) batch.jobIds =
      collect (fun jobId => readOwnedRestart db batch.nodeName jobId sessionId component) batch.jobIds :=
    Lib.collect_congr fun jobId presented => written.spared_restart unused (spared jobId presented) sessionId component
  rw [same]
  simp only [written.producing]

theorem expected_restart_after {expected : List (Nat × Option OwnedRestart)}
    (presented : ∀ entry ∈ expected, entry.1 ∈ batch.jobIds) :
    expectedRestartError mid batch sessionId component expected =
      expectedRestartError db batch sessionId component expected := by
  induction expected with
  | nil => rfl
  | cons entry rest ih =>
      obtain ⟨jobId, restart⟩ := entry
      have later := ih fun entry member => presented entry (List.mem_cons_of_mem _ member)
      cases restart with
      | none => exact later
      | some restart =>
          have here := spared jobId (presented _ List.mem_cons_self)
          have still : ∀ observed,
              restartStillExpected mid batch.nodeName jobId sessionId component restart observed =
                restartStillExpected db batch.nodeName jobId sessionId component restart observed := by
            intro observed
            unfold restartStillExpected
            rw [written.spared_job here]
          simp only [expectedRestartError, written.spared_read unused here, later, still]

omit spared in
theorem selection_error_after {rows : List ClaimRow} (found : claimedRows db batch = .ok rows)
    (identity : Nat × Nat) :
    selectionError mid sessionId component identity rows = selectionError db sessionId component identity rows := by
  unfold selectionError
  rw [written.jobRoots]
  cases readSessionJobRoots db sessionId with
  | error error => rfl
  | ok roots =>
      have same : selectedJobsInScope mid roots sessionId component identity rows =
          selectedJobsInScope db roots sessionId component identity rows := by
        unfold selectedJobsInScope
        apply Lib.each_congr
        intro read member
        have old : ∀ entry ∈ claimed,
            read.jobInstance.bind JobInstance.createdByExecutionId ≠ some entry.2.owner.executionId := by
          intro entry listed created
          obtain ⟨instanceRow, located, creator⟩ := Option.bind_eq_some_iff.mp created
          rw [(mem_claimed_rows found member).2] at located
          exact (unused entry listed).created instanceRow (Table.find_mem located) creator
        have fuel : mid.jobExecutionOwners.rows.length + 1 =
            db.jobExecutionOwners.rows.length + 1 + claimed.length := by
          rw [Table.insertAll_rows written.owners, List.length_append, List.length_map]
          omega
        have walk := fun creator => @descends_fuel db roots sessionId component identity
          (db.jobExecutionOwners.rows.length + 1) claimed.length [] creator List.nodup_nil
          (fun _ absent => absurd absent List.not_mem_nil) (by simp)
        simp only [fuel, written.descends unused old, walk]
      simp only [same]

theorem admission_after (entries : ClaimedEntries db probe claimed)
    (joins : ∀ entry ∈ claimed, Joins db entry.1 component)
    (bound : validateThreadOverrideClaim db probe sessionId component = .ok ())
    (reserved : reservationOwner db component = some sessionId) (canonical : encodeComponentKey component = component) :
    admissionError mid batch sessionId component = none ↔ admissionError db batch sessionId component = none ∧
      (OrdinaryWork db batch sessionId component → Unrequested db claimed component) := by
  rw [admission_error_none, admission_error_none, owned_restarts_after written unused spared, written.pending,
    canonical]
  have authority : requireInterruptFenceAuthority mid sessionId component =
      requireInterruptFenceAuthority db sessionId component := by
    unfold requireInterruptFenceAuthority
    rw [written.fences]
  have work := fun begun => pending_work_after written unused entries joins bound reserved canonical begun
  rw [authority]
  constructor
  · intro ⟨allowed, after⟩
    refine ⟨⟨allowed, fun begun => ?_⟩, fun ⟨begun, ordinary⟩ => ?_⟩
    · rcases after begun with owned | ⟨ordinary, nothing⟩
      · exact .inl owned
      · exact .inr ⟨ordinary, ((work begun).mp nothing).1⟩
    · rcases after begun with owned | ⟨_, nothing⟩
      · exact absurd owned ordinary
      · exact ((work begun).mp nothing).2
  · intro ⟨⟨allowed, before⟩, unrequested⟩
    refine ⟨allowed, fun begun => ?_⟩
    rcases before begun with owned | ⟨ordinary, nothing⟩
    · exact .inl owned
    · exact .inr ⟨ordinary, (work begun).mpr ⟨nothing, unrequested ⟨begun, by simp [ordinary]⟩⟩⟩

end Batch

theorem owner_error_after {node : String} (written : ClaimsWritten db mid claimed) (unused : claimed.Unused db)
    (entries : ClaimedEntries db probe claimed) (canonical : encodeComponentKey component = component) :
    claimOwnerError mid probe node sessionId component = .ok none ↔
      claimOwnerError db probe node sessionId component = .ok none ∧ ∀ entry ∈ claimed, Joins db entry.1 component := by
  rw [claim_owner_error_none, claim_owner_error_none, written.blockers, written.fences, written.ownerRow]
  simp only [and_assoc]
  refine and_congr_right fun inside => and_congr_right fun _ => and_congr_right fun _ => and_congr_right fun owned => ?_
  exact thread_override_claim_after written unused entries (claim_reserved canonical owned)

theorem claimed_rows_jobs {batch : ExecutionClaimBatch} {rows : List ClaimRow}
    (found : claimedRows db batch = .ok rows) : rows.map (fun read => read.job.jobId) = batch.jobIds := by
  have related := Lib.collect_ok.mp found
  clear found
  generalize batch.jobIds = jobIds at related
  induction related with
  | nil => rfl
  | cons step _ ih =>
      simp only [Lib.orRaise_ok, claimRow, Option.map_eq_some_iff] at step
      obtain ⟨job, here, rfl⟩ := step
      have key := Table.find_key here
      simp only [Job.address, Prod.mk.injEq] at key
      rw [List.map_cons, ih, key.2]

theorem claimable_after {batch : ExecutionClaimBatch} {accepted : List JobAddress} {rows : List ClaimRow}
    (written : ClaimsWritten db mid claimed) (unused : claimed.Unused db)
    (spared : ∀ jobId ∈ batch.jobIds, claimed.Spares (batch.nodeName, jobId))
    (apart : ∀ jobId ∈ batch.jobIds, (batch.nodeName, jobId) ∉ accepted)
    (found : claimedRows db batch = .ok rows) :
    validateClaimedRows mid batch [] rows = .ok () ↔ validateClaimedRows db batch accepted rows = .ok () := by
  have jobs := claimed_rows_jobs found
  have presented : ∀ read ∈ rows, read.job.jobId ∈ batch.jobIds := fun read member =>
    jobs ▸ List.mem_map_of_mem member
  have free : (rows.any fun read => read.job.activeExecutionId.isSome || decide (read.job.address ∈ ([] : List JobAddress)))
      = rows.any fun read => read.job.activeExecutionId.isSome || decide (read.job.address ∈ accepted) := by
    rw [Bool.eq_iff_iff, List.any_eq_true, List.any_eq_true]
    refine exists_congr fun read => and_congr_right fun member => ?_
    have address := Table.find_key (mem_claimed_rows found member).1
    have outside := apart _ (presented read member)
    rw [← address] at outside
    simp [outside]
  unfold validateClaimedRows
  rw [free]
  have same : ∀ read ∈ rows, (if read.hasHistory = true then do
        let _ ← readJobOwnerObservation mid batch.nodeName read.job.jobId
      else pure () : Result Unit) = (if read.hasHistory = true then do
        let _ ← readJobOwnerObservation db batch.nodeName read.job.jobId
      else pure () : Result Unit) := fun read member => by
    rw [written.spared_read unused (spared _ (presented read member))]
  have each := Lib.each_congr same
  simp only [Lib.bind_ok, each]

theorem accepted_claim_after {batch : ExecutionClaimBatch} {accepted : List JobAddress} {rows : List ClaimRow}
    (written : ClaimsWritten db mid claimed) (unused : claimed.Unused db) (entries : ClaimedEntries db probe claimed)
    (spared : ∀ jobId ∈ batch.jobIds, claimed.Spares (batch.nodeName, jobId))
    (apart : ∀ jobId ∈ batch.jobIds, (batch.nodeName, jobId) ∉ accepted) :
    AcceptedClaim mid probe batch [] sessionId component rows identity ↔
      AcceptedClaim db probe batch accepted sessionId component rows identity ∧
        (∀ entry ∈ claimed, Joins db entry.1 component) ∧
        (OrdinaryWork db batch sessionId component → Unrequested db claimed component) := by
  have reads := claimed_rows_after written spared
  have listed : ∀ entry ∈ batch.jobIds.zip (batch.expectedRestarts.getD []), entry.1 ∈ batch.jobIds :=
    fun entry member => (List.of_mem_zip member).1
  have expected := @expected_restart_after _ _ _ sessionId component batch written unused spared _ listed
  have owners := fun canonical =>
    @owner_error_after _ _ probe _ sessionId component batch.nodeName written unused entries canonical
  have admitted : encodeComponentKey component = component →
      claimOwnerError db probe batch.nodeName sessionId component = .ok none →
      (∀ entry ∈ claimed, Joins db entry.1 component) →
      (admissionError mid batch sessionId component = none ↔ admissionError db batch sessionId component = none ∧
        (OrdinaryWork db batch sessionId component → Unrequested db claimed component)) := by
    intro canonical unrefused joins
    obtain ⟨_, _, _, owned, bound⟩ := claim_owner_error_none.mp unrefused
    exact admission_after written unused spared entries joins bound (claim_reserved canonical owned) canonical
  constructor
  · intro claim
    obtain ⟨unrefused, joins⟩ := (owners claim.canonical).mp claim.unrefused
    have found := reads ▸ claim.found
    have ⟨allowed, unrequested⟩ := (admitted claim.canonical unrefused joins).mp claim.admitted
    exact ⟨⟨claim.session, claim.scope, unrefused, found, (claimable_after written unused spared apart found).mp
      claim.claimable, expected ▸ claim.expected, written.producing component ▸ claim.producing,
      selection_error_after written unused found identity ▸ claim.selected, claim.unchanged, allowed, claim.masked⟩,
      joins, unrequested⟩
  · intro ⟨claim, joins, unrequested⟩
    have found := claim.found
    exact ⟨claim.session, claim.scope, (owners claim.canonical).mpr ⟨claim.unrefused, joins⟩, reads.trans found,
      (claimable_after written unused spared apart found).mpr claim.claimable, expected.trans claim.expected,
      (written.producing component).trans claim.producing,
      (selection_error_after written unused found identity).trans claim.selected, claim.unchanged,
      (admitted claim.canonical claim.unrefused joins).mpr ⟨claim.admitted, unrequested⟩, claim.masked⟩

theorem AcceptedClaim.presented {batch : ExecutionClaimBatch} {accepted : List JobAddress} {rows : List ClaimRow}
    {jobId : Nat} (claim : AcceptedClaim db probe batch accepted sessionId component rows identity)
    (member : jobId ∈ batch.jobIds) :
    (∃ row, db.jobs.find (batch.nodeName, jobId) = some row ∧ row.activeExecutionId = none) ∧
      (batch.nodeName, jobId) ∉ accepted := by
  rw [← claimed_rows_jobs claim.found] at member
  obtain ⟨read, inside, rfl⟩ := List.mem_map.mp member
  have located := (mem_claimed_rows claim.found inside).1
  have claimable := claim.claimable
  simp only [validateClaimedRows, Lib.bind_ok, Lib.refuse_ok, List.any_eq_false, Bool.or_eq_true, not_or,
    decide_eq_true_eq] at claimable
  obtain ⟨_, _, _, free, _⟩ := claimable
  obtain ⟨inactive, outside⟩ := free read inside
  rw [Table.find_key located] at outside
  exact ⟨⟨read.job, located, by simpa using inactive⟩, outside⟩

theorem accepted_apart {batch : ExecutionClaimBatch} {accepted : List JobAddress} {rows : List ClaimRow}
    (apart : ∀ jobId ∈ batch.jobIds, (batch.nodeName, jobId) ∉ accepted) :
    AcceptedClaim db probe batch [] sessionId component rows identity ↔
      AcceptedClaim db probe batch accepted sessionId component rows identity := by
  have written : ClaimsWritten db db [] := write_claims_ok rfl
  rw [accepted_claim_after written (fun _ listed => nomatch listed) (fun _ listed => nomatch listed)
    (fun _ _ _ listed => nomatch listed) apart]
  have nothing : (∀ entry ∈ ([] : Accepted), Joins db entry.1 component) ∧
      (OrdinaryWork db batch sessionId component → Unrequested db [] component) :=
    ⟨fun _ listed => (nomatch listed), fun _ _ listed => (nomatch listed)⟩
  exact and_iff_left nothing

theorem verdict_after {batch : ExecutionClaimBatch} {accepted : List JobAddress} {jobs : List ClaimedJob}
    (written : ClaimsWritten db mid claimed) (unused : claimed.Unused db) (entries : ClaimedEntries db probe claimed)
    (addresses : ∀ place, place ∈ accepted ↔ ¬ claimed.Spares place) :
    batchVerdict mid probe batch [] = .ok (.ok jobs) ↔ batchVerdict db probe batch accepted = .ok (.ok jobs) ∧
      ∀ sessionId component, batch.sessionId = some sessionId → batch.component = some component →
        (∀ entry ∈ claimed, Joins db entry.1 component) ∧
        (OrdinaryWork db batch sessionId component → Unrequested db claimed component) := by
  rw [batch_verdict_ok, batch_verdict_ok]
  constructor
  · rintro ⟨sessionId, component, rows, identity, claim, rfl⟩
    have spared : ∀ jobId ∈ batch.jobIds, claimed.Spares (batch.nodeName, jobId) := by
      intro jobId member entry listed here
      obtain ⟨⟨row, found, inactive⟩, _⟩ := claim.presented member
      rw [written.jobs, ← here, Option.map_eq_some_iff] at found
      obtain ⟨stored, _, same⟩ := found
      rw [Table.rewritten_mem written.distinct listed] at same
      rw [← same] at inactive
      exact absurd inactive (by simp [claimUpdate])
    have apart : ∀ jobId ∈ batch.jobIds, (batch.nodeName, jobId) ∉ accepted := fun jobId member inside =>
      (addresses _).mp inside (spared jobId member)
    obtain ⟨before, alone⟩ := (accepted_claim_after written unused entries spared apart).mp claim
    refine ⟨⟨sessionId, component, rows, identity, before, rfl⟩, fun other scope session named => ?_⟩
    obtain rfl : sessionId = other := Option.some.inj (claim.session.symm.trans session)
    obtain rfl : component = scope := Option.some.inj (claim.scope.symm.trans named)
    exact alone
  · rintro ⟨⟨sessionId, component, rows, identity, claim, rfl⟩, alone⟩
    have apart : ∀ jobId ∈ batch.jobIds, (batch.nodeName, jobId) ∉ accepted := fun jobId member =>
      (claim.presented member).2
    have spared : ∀ jobId ∈ batch.jobIds, claimed.Spares (batch.nodeName, jobId) := fun jobId member =>
      not_not.mp (mt (addresses _).mpr (apart jobId member))
    exact ⟨sessionId, component, rows, identity, (accepted_claim_after written unused entries spared apart).mpr
      ⟨claim, alone sessionId component claim.session claim.scope⟩, rfl⟩

end MicroWorkflow
