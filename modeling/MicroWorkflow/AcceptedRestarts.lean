import MicroWorkflow.Reexecution
import MicroWorkflow.ReadableJobs

set_option autoImplicit false

namespace MicroWorkflow

open Lib (Table Run)

def Names (event : JobEvent) (row : Job) (identity : JobInstance) : Prop :=
  event.data.get "generation" = .int row.generation ∧ event.data.get "job_instance_id" = .text identity.instanceId

structure InForce (db : Database) (row : Job) (identity : JobInstance) (event : JobEvent) : Prop where
  raised : 0 < row.generation
  latest : latestRestartEvent db row.nodeName row.jobId = some event
  names : Names event row identity

structure Recorded (db : Database) (row : Job) (identity : JobInstance) (event : JobEvent)
    (previous : ExecutionOwner) : Prop where
  execution : event.data.get "execution_id" = .text previous.executionId
  session : event.data.get "session_id" = .text previous.sessionId
  scope : event.data.get "component" = .list previous.componentKey
  stored : db.jobExecutionOwners.find previous.executionId = some previous
  place : previous.address = row.address
  jobInstance : previous.jobInstanceId = identity.instanceId
  creator : previous.createdByExecutionId = identity.createdByExecutionId
  before : previous.generation < row.generation
  readable : executionOwnerFromRow db previous = .ok previous

structure Continues (owner previous : ExecutionOwner) : Prop where
  session : previous.sessionId = owner.sessionId
  scope : previous.componentKey = owner.componentKey
  shape : previous.shapeId = owner.shapeId
  alignment : previous.alignmentGeneration = owner.alignmentGeneration

structure RequestsReadable (db : Database) (row : Job) (identity : JobInstance) : Prop where
  numbered : 1 ≤ row.jobId
  stored : ∀ executionId, identity.lastExecutionId = some executionId →
    ∃ owner, db.jobExecutionOwners.find executionId = some owner ∧ owner.generation ≤ row.generation
  readable : 0 < row.generation → ReadableJob db row identity
  recorded : ∀ event, InForce db row identity event → ∃ previous, Recorded db row identity event previous
  owed : ∀ owner, lastOwner db identity = some owner → sessionRunning db owner.sessionId = true →
    owner.generation < row.generation → ∃ event, InForce db row identity event ∧
      event.data.get "execution_id" = .text owner.executionId ∧
      (row.status = .queued → row.restartRequestedAt = some event.time)
  continued : ∀ owner event previous, lastOwner db identity = some owner → owner.generation = row.generation →
    InForce db row identity event → Recorded db row identity event previous → Continues owner previous

def RestartsReadable (db : Database) : Prop :=
  ∀ row ∈ db.jobs.rows, ∃ identity, db.jobInstances.find row.address = some identity ∧
    RequestsReadable db row identity

structure ScopesPersist (db next : Database) : Prop where
  sessions : ∀ sessionId session, db.executionSessions.find sessionId = some session →
    ∃ later, next.executionSessions.find sessionId = some later ∧ later.admittedShapeId = session.admittedShapeId ∧
      (later.status = .running → session.status = .running)
  components : ∀ key, db.sessionComponents.contains key = true → next.sessionComponents.contains key = true
  definitions : ∀ key, db.componentDefinitions.contains key = true → next.componentDefinitions.contains key = true
  shapes : ∀ shapeId row, db.graphShapes.find shapeId = some row → next.graphShapes.find shapeId = some row
  owners : ∀ executionId owner, db.jobExecutionOwners.find executionId = some owner →
    next.jobExecutionOwners.find executionId = some owner

variable {db next : Database} {row : Job} {identity : JobInstance} {owner previous : ExecutionOwner} {event : JobEvent}

section Persistence

theorem scopes_persist_of_eq (sessions : next.executionSessions = db.executionSessions)
    (components : next.sessionComponents = db.sessionComponents)
    (definitions : next.componentDefinitions = db.componentDefinitions) (shapes : next.graphShapes = db.graphShapes)
    (owners : ∀ executionId owner, db.jobExecutionOwners.find executionId = some owner →
      next.jobExecutionOwners.find executionId = some owner) : ScopesPersist db next := by
  refine ⟨fun sessionId session found => ⟨session, ?_, rfl, id⟩, ?_, ?_, ?_, owners⟩
  · rw [sessions, found]
  · rw [components]
    exact fun _ => id
  · rw [definitions]
    exact fun _ => id
  · rw [shapes]
    exact fun _ _ => id

theorem ScopesPersist.running {sessionId : String} (persist : ScopesPersist db next)
    (known : db.executionSessions.contains sessionId = true) (running : sessionRunning next sessionId = true) :
    sessionRunning db sessionId = true := by
  obtain ⟨session, found⟩ := Option.isSome_iff_exists.mp known
  obtain ⟨later, there, _, ended⟩ := persist.sessions sessionId session found
  simp only [sessionRunning, there, beq_iff_eq] at running
  simp only [sessionRunning, found, beq_iff_eq]
  exact ended running

theorem creator_recorded_persists {creator : Option String} (persist : ScopesPersist db next)
    (recorded : creatorRecorded db creator = true) : creatorRecorded next creator = true := by
  cases creator with
  | none => rfl
  | some creator =>
      simp only [creatorRecorded, Bool.and_eq_true] at recorded ⊢
      obtain ⟨owner, found⟩ := Option.isSome_iff_exists.mp recorded.2
      refine ⟨recorded.1, ?_⟩
      rw [Table.contains, persist.owners creator owner found]
      rfl

theorem execution_owner_persists (persist : ScopesPersist db next)
    (read : executionOwnerFromRow db owner = .ok owner) : executionOwnerFromRow next owner = .ok owner := by
  simp only [executionOwnerFromRow, Lib.bind_ok, Lib.pure_ok, Lib.require_ok, Lib.orRaise_ok, Bool.and_eq_true] at read ⊢
  obtain ⟨_, ⟨⟨recorded, selected⟩, defined⟩, _, canonical, _, valid, shape, found, snapshot, formed, _, inside, _,
    creator, _⟩ := read
  refine ⟨(), ⟨⟨?_, persist.components _ selected⟩, persist.definitions _ defined⟩, (), canonical, (), valid, shape,
    persist.shapes _ _ found, snapshot, formed, (), inside, (), creator_recorded_persists persist creator, trivial⟩
  cases known : db.executionSessions.find owner.sessionId with
  | none => simp [known] at recorded
  | some session =>
      obtain ⟨later, there, admitted, _⟩ := persist.sessions _ _ known
      rw [known] at recorded
      simp only [there, admitted]
      exact recorded

theorem ReadableJob.persist (persist : ScopesPersist db next)
    (found : next.jobInstances.find row.address = some identity) (readable : ReadableJob db row identity) :
    ReadableJob next row identity := by
  refine ⟨found, readable.valid, creator_recorded_persists persist readable.creator, readable.active, ?_⟩
  intro executionId last
  obtain ⟨owner, stored, execution⟩ := readable.last executionId last
  obtain ⟨session, known⟩ := Option.isSome_iff_exists.mp execution.session
  obtain ⟨later, there, _, _⟩ := persist.sessions _ _ known
  refine ⟨owner, persist.owners _ _ stored, ?_, persist.components _ execution.selected, execution.place,
    execution.jobInstance, execution.creator, execution.reached, execution.current, execution.member,
    execution_owner_persists persist execution.readable⟩
  rw [Table.contains, there]
  rfl

theorem Recorded.persist (persist : ScopesPersist db next) (recorded : Recorded db row identity event previous) :
    Recorded next row identity event previous :=
  { recorded with
    stored := persist.owners _ _ recorded.stored
    readable := execution_owner_persists persist recorded.readable }

theorem Recorded.unique {other : ExecutionOwner} (recorded : Recorded db row identity event previous)
    (same : Recorded db row identity event other) : other = previous := by
  have named := same.execution.symm.trans recorded.execution
  simp only [Value.text.injEq] at named
  have stored := same.stored
  rw [named, recorded.stored, Option.some.injEq] at stored
  exact stored.symm

theorem last_owner_persists (persist : ScopesPersist db next) (state : RequestsReadable db row identity) :
    lastOwner next identity = lastOwner db identity := by
  unfold lastOwner
  cases last : identity.lastExecutionId with
  | none => rfl
  | some executionId =>
      obtain ⟨owner, stored, _⟩ := state.stored executionId last
      simp only [Option.bind_some, stored, persist.owners _ _ stored]

end Persistence

section Settling

structure Settles (row later : Job) : Prop where
  address : later.address = row.address
  generation : later.generation = row.generation
  marker : later.restartRequestedAt = row.restartRequestedAt
  active : ∀ executionId, later.activeExecutionId = some executionId → row.activeExecutionId = some executionId
  queued : later.status = .queued → row.status = .queued ∨ row.activeExecutionId.isSome = true

theorem Settles.refl (row : Job) : Settles row row := ⟨rfl, rfl, rfl, fun _ => id, .inl⟩

theorem Settles.readable {later : Job} (settles : Settles row later) (readable : ReadableJob db row identity) :
    ReadableJob db later identity := by
  refine ⟨settles.address ▸ readable.found, readable.valid, readable.creator,
    fun executionId active => readable.active executionId (settles.active executionId active), ?_⟩
  intro executionId last
  obtain ⟨owner, stored, execution⟩ := readable.last executionId last
  have node : later.nodeName = row.nodeName := congrArg Prod.fst settles.address
  refine ⟨owner, stored, execution.session, execution.selected, execution.place.trans settles.address.symm,
    execution.jobInstance, execution.creator, ?_, ?_, node ▸ execution.member, execution.readable⟩
  · rw [settles.generation]
    exact execution.reached
  · intro active
    obtain ⟨other, named⟩ := Option.isSome_iff_exists.mp active
    rw [settles.generation]
    exact execution.current (by rw [settles.active other named]; rfl)

theorem active_owner_current (readable : ReadableJob db row identity) (active : row.activeExecutionId.isSome = true)
    (last : lastOwner db identity = some owner) : owner.generation = row.generation := by
  obtain ⟨executionId, named⟩ := Option.isSome_iff_exists.mp active
  have same := readable.active executionId named
  obtain ⟨stored, found, execution⟩ := readable.last executionId same
  rw [lastOwner, same, Option.bind_some, found, Option.some.injEq] at last
  exact last ▸ execution.current active

theorem last_owner_known (readable : ReadableJob db row identity) (last : lastOwner db identity = some owner) :
    db.executionSessions.contains owner.sessionId = true := by
  obtain ⟨executionId, named, found⟩ := Option.bind_eq_some_iff.mp last
  obtain ⟨stored, here, execution⟩ := readable.last executionId named
  rw [found, Option.some.injEq] at here
  exact here ▸ execution.session

theorem requests_readable_settled {later : Job} (persist : ScopesPersist db next) (settles : Settles row later)
    (state : RequestsReadable db row identity) (found : next.jobInstances.find row.address = some identity)
    (latest : latestRestartEvent next row.nodeName row.jobId = latestRestartEvent db row.nodeName row.jobId) :
    RequestsReadable next later identity := by
  have node : later.nodeName = row.nodeName := congrArg Prod.fst settles.address
  have job : later.jobId = row.jobId := congrArg Prod.snd settles.address
  have before : ∀ event, InForce next later identity event → InForce db row identity event := by
    intro event force
    have raised := force.raised
    have named := force.latest
    rw [settles.generation] at raised
    rw [node, job, latest] at named
    refine ⟨raised, named, ?_⟩
    have names := force.names
    rwa [Names, settles.generation] at names
  have after : ∀ event, InForce db row identity event → InForce next later identity event := by
    intro event force
    refine ⟨settles.generation ▸ force.raised, ?_, ?_⟩
    · rw [node, job, latest]
      exact force.latest
    · rw [Names, settles.generation]
      exact force.names
  have moved : ∀ event previous, Recorded db row identity event previous → Recorded next later identity event previous :=
    fun event previous recorded => { recorded.persist persist with
      place := recorded.place.trans settles.address.symm
      before := settles.generation ▸ recorded.before }
  have owners : lastOwner next identity = lastOwner db identity := last_owner_persists persist state
  refine ⟨job ▸ state.numbered, ?_, ?_, ?_, ?_, ?_⟩
  · intro executionId last
    obtain ⟨owner, stored, reached⟩ := state.stored executionId last
    exact ⟨owner, persist.owners _ _ stored, settles.generation ▸ reached⟩
  · intro raised
    rw [settles.generation] at raised
    exact settles.readable ((state.readable raised).persist persist found)
  · intro event force
    obtain ⟨previous, recorded⟩ := state.recorded event (before event force)
    exact ⟨previous, moved event previous recorded⟩
  · intro owner last running superseded
    rw [owners] at last
    rw [settles.generation] at superseded
    have readable := state.readable (by omega)
    obtain ⟨event, force, named, marker⟩ :=
      state.owed owner last (persist.running (last_owner_known readable last) running) superseded
    refine ⟨event, after event force, named, fun queued => ?_⟩
    rw [settles.marker]
    rcases settles.queued queued with waiting | active
    · exact marker waiting
    · -- The row gave up its execution, which held the present generation.
      have current := active_owner_current readable active last
      omega
  · intro owner event previous last current force recorded
    rw [owners] at last
    rw [settles.generation] at current
    obtain ⟨other, known⟩ := state.recorded event (before event force)
    have same := recorded.unique (moved event other known)
    exact same ▸ state.continued owner event other last current (before event force) known

theorem latest_restart_appended {events : List JobEvent} {node : String} {jobId : Nat}
    (added : next.jobEvents = db.jobEvents ++ events)
    (others : ∀ event ∈ events, event.nodeName = node → event.jobId = jobId → event.event ≠ "restart_requested") :
    latestRestartEvent next node jobId = latestRestartEvent db node jobId := by
  have absent : events.reverse.find? (fun event => event.nodeName = node && event.jobId = jobId
      && event.event = "restart_requested") = none := by
    rw [List.find?_eq_none]
    intro event member asks
    simp only [Bool.and_eq_true, decide_eq_true_eq] at asks
    exact others event (List.mem_reverse.mp member) asks.1.1 asks.1.2 asks.2
  rw [latestRestartEvent, added, List.reverse_append, List.find?_append, absent, Option.none_or]
  rfl

theorem restarts_readable_settled {events : List JobEvent} (persist : ScopesPersist db next)
    (instances : next.jobInstances = db.jobInstances) (added : next.jobEvents = db.jobEvents ++ events)
    (others : ∀ event ∈ events, event.event ≠ "restart_requested")
    (rows : ∀ later ∈ next.jobs.rows, ∃ row ∈ db.jobs.rows, Settles row later) (readable : RestartsReadable db) :
    RestartsReadable next := by
  intro later member
  obtain ⟨row, inside, settles⟩ := rows later member
  obtain ⟨identity, found, state⟩ := readable row inside
  have located : next.jobInstances.find row.address = some identity := by rw [instances, found]
  exact ⟨identity, settles.address ▸ located, requests_readable_settled persist settles state located
    (latest_restart_appended added fun event listed _ _ => others event listed)⟩

theorem terminal_restarts_readable {eventTime : Timestamp} {updates : List TerminalUpdate}
    {outcomes : List TerminalOutcome} (readable : RestartsReadable db)
    (applied : applyTerminalUpdates db eventTime updates = .ok (outcomes, next)) : RestartsReadable next := by
  obtain ⟨accepted, written⟩ := apply_terminal_updates_ok applied
  have persist : ScopesPersist db next := by
    rw [written.others]
    exact scopes_persist_of_eq rfl rfl rfl rfl fun _ _ => id
  refine restarts_readable_settled persist (by rw [written.others]) written.events ?_ ?_ readable
  · intro event listed
    obtain ⟨entry, _, rfl⟩ := List.mem_map.mp listed
    simp only [terminalEvent]
    cases entry.1.status <;> decide
  · intro later member
    rcases rows_rewritten written.jobs member with kept | ⟨entry, _, stored, inside, rfl, _⟩
    · exact ⟨later, kept, Settles.refl later⟩
    · refine ⟨stored, inside, rfl, rfl, rfl, fun _ active => absurd active (by simp [terminalUpdateRow]), ?_⟩
      simp only [terminalUpdateRow]
      cases entry.1.status <;> intro queued <;> exact absurd queued (by decide)

theorem release_restarts_readable (eventTime : Timestamp) (node : String) (jobId generation : Nat)
    (executionId : String) (readable : RestartsReadable db) :
    RestartsReadable (releaseUnstartedJobExecution db eventTime node jobId generation executionId).2 := by
  unfold releaseUnstartedJobExecution
  dsimp only
  split
  · exact readable
  · refine restarts_readable_settled (?_ : ScopesPersist db _) rfl rfl ?_ ?_ readable
    · exact scopes_persist_of_eq rfl rfl rfl rfl fun _ _ => id
    · intro event listed
      rw [List.mem_singleton.mp listed]
      exact (by decide : "queued" ≠ "restart_requested")
    · intro later member
      dsimp only at member
      obtain ⟨stored, inside, same⟩ := Table.mem_modify.mp member
      split at same
      · rename_i guarded
        simp only [releaseGuard, Bool.and_eq_true, decide_eq_true_eq] at guarded
        refine ⟨stored, inside, same ▸ ⟨rfl, rfl, rfl, fun _ active => absurd active (by simp [releaseRow]), ?_⟩⟩
        exact fun _ => .inr (by rw [guarded.2]; rfl)
      · exact ⟨stored, inside, same ▸ Settles.refl stored⟩

theorem cancel_restarts_readable {eventTime : Timestamp} {node : String} {jobId : Nat} {extra : Details}
    (readable : RestartsReadable db) (applied : setJobStatus db eventTime node jobId .cancelled extra = .ok next) :
    RestartsReadable next := by
  simp only [setJobStatus, Lib.bind_ok, Lib.pure_ok] at applied
  obtain ⟨row, _, rfl⟩ := applied
  have rows : ∀ later ∈ (db.jobs.modify (fun row => row.address = (node, jobId)) (setStatusRow .cancelled extra)
      (set_status_row_address .cancelled extra)).rows, ∃ row ∈ db.jobs.rows, Settles row later := by
    intro later member
    obtain ⟨stored, inside, same⟩ := Table.mem_modify.mp member
    split at same
    · refine ⟨stored, inside, same ▸ ⟨rfl, rfl, rfl, ?_, ?_⟩⟩
      · exact fun _ active => absurd active (by simp [setStatusRow, JobStatus.terminal])
      · exact fun queued => absurd queued (by simp [setStatusRow, JobStatus.terminal])
    · exact ⟨stored, inside, same ▸ Settles.refl stored⟩
  have persist : ∀ {jobs events}, ScopesPersist db { db with jobs := jobs, jobEvents := events } := fun {_ _} =>
    scopes_persist_of_eq rfl rfl rfl rfl fun _ _ => id
  by_cases recorded : (row.status != .cancelled || !extra.isEmpty) = true
  · rw [if_pos recorded]
    refine restarts_readable_settled (persist : ScopesPersist db _) rfl rfl (fun event listed => ?_) rows readable
    rw [List.mem_singleton.mp listed]
    exact (by decide : "cancelled" ≠ "restart_requested")
  · rw [if_neg recorded]
    exact restarts_readable_settled persist rfl (List.append_nil _).symm
      (fun _ listed => absurd listed List.not_mem_nil) rows readable

end Settling

section Restarting

variable {targets : List RestartTarget} {target : RestartTarget} {request : RestartRequest} {owned : Bool}

def requestEvent (request : RestartRequest) (owned : Bool) (target : RestartTarget) : JobEvent :=
  ⟨target.node, target.jobId, request.requestedAt, "restart_requested", ownerData target owned ++
    [("previous_generation", .int target.generation), ("generation", .int (target.generation + 1)),
      ("reason", .text request.reason), ("requested_by_pid", .int request.requester)]⟩

theorem mem_restart_events (member : event ∈ restartEvents request owned target) :
    event.address = target.address ∧ (event.event = "restart_requested" → event = requestEvent request owned target) := by
  simp only [restartEvents, List.mem_cons, List.not_mem_nil, or_false] at member
  rcases member with rfl | rfl
  · exact ⟨rfl, fun asked => absurd asked (by decide : "queued" ≠ "restart_requested")⟩
  · exact ⟨rfl, fun _ => rfl⟩

theorem latest_restart_of_target (distinct : (targets.map RestartTarget.address).Nodup)
    (written : RestartsWritten db next targets request owned) (inside : target ∈ targets) :
    latestRestartEvent next target.node target.jobId = some (requestEvent request owned target) := by
  let asks : JobEvent → Bool := fun event =>
    event.nodeName = target.node && event.jobId = target.jobId && event.event = "restart_requested"
  have listed : requestEvent request owned target ∈ (targets.flatMap (restartEvents request owned)).reverse := by
    rw [List.mem_reverse, List.mem_flatMap]
    exact ⟨target, inside, List.mem_cons_of_mem _ List.mem_cons_self⟩
  have present : (targets.flatMap (restartEvents request owned)).reverse.find? asks ≠ none := by
    rw [ne_eq, List.find?_eq_none]
    intro none
    exact none _ listed (by simp [asks, requestEvent])
  obtain ⟨event, chosen⟩ := Option.ne_none_iff_exists'.mp present
  have asked := List.find?_some chosen
  simp only [asks, Bool.and_eq_true, decide_eq_true_eq] at asked
  obtain ⟨other, among, written'⟩ := List.mem_flatMap.mp (List.mem_reverse.mp (List.mem_of_find?_eq_some chosen))
  obtain ⟨place, requested⟩ := mem_restart_events written'
  have same : other = target := by
    refine List.inj_on_of_nodup_map distinct among inside (place.symm.trans ?_)
    exact Prod.ext asked.1.1 asked.1.2
  rw [latestRestartEvent, written.events, List.reverse_append, List.find?_append, chosen, Option.some_or,
    requested asked.2, same]

theorem latest_restart_elsewhere (written : RestartsWritten db next targets request owned) {place : JobAddress}
    (absent : ∀ target ∈ targets, target.address ≠ place) :
    latestRestartEvent next place.1 place.2 = latestRestartEvent db place.1 place.2 := by
  refine latest_restart_appended written.events fun event listed node job _ => ?_
  obtain ⟨target, inside, member⟩ := List.mem_flatMap.mp listed
  exact absent target inside ((mem_restart_events member).1.symm.trans (Prod.ext node job))

theorem restarts_persist (written : RestartsWritten db next targets request owned) : ScopesPersist db next := by
  rw [written.others]
  exact scopes_persist_of_eq rfl rfl rfl rfl fun _ _ => id

structure Restarted (db : Database) (target : RestartTarget) (row : Job) (identity : JobInstance) : Prop where
  found : db.jobs.find target.address = some row
  readable : ReadableJob db row identity
  jobInstance : target.jobInstanceId = identity.instanceId
  generation : target.generation = row.generation
  owner : target.owner = lastOwner db identity

theorem restarted_readable (persist : ScopesPersist db next) (instances : next.jobInstances = db.jobInstances)
    (read : Restarted db target row identity) : ReadableJob next (restartRow request target row) identity := by
  have found : next.jobInstances.find row.address = some identity := instances ▸ read.readable.found
  have readable := read.readable.persist persist found
  refine ⟨found, readable.valid, readable.creator, fun _ active => absurd active (by simp [restartRow]), ?_⟩
  intro executionId last
  obtain ⟨owner, stored, execution⟩ := readable.last executionId last
  refine ⟨owner, stored, execution.session, execution.selected, execution.place, execution.jobInstance,
    execution.creator, ?_, fun active => absurd active (by simp [restartRow]), execution.member, execution.readable⟩
  have reached := execution.reached
  simp only [restartRow, read.generation]
  omega

theorem restarted_request (distinct : (targets.map RestartTarget.address).Nodup)
    (written : RestartsWritten db next targets request owned) (inside : target ∈ targets)
    (read : Restarted db target row identity) : ReadableJob next (restartRow request target row) identity ∧
      latestRestartEvent next row.nodeName row.jobId = some (requestEvent request owned target) := by
  have instances : next.jobInstances = db.jobInstances := by rw [written.others]
  refine ⟨restarted_readable (restarts_persist written) instances read, ?_⟩
  have place := Table.find_key read.found
  rw [show row.nodeName = target.node from congrArg Prod.fst place,
    show row.jobId = target.jobId from congrArg Prod.snd place]
  exact latest_restart_of_target distinct written inside

theorem owned_request_readable (distinct : (targets.map RestartTarget.address).Nodup)
    (written : RestartsWritten db next targets request true) (inside : target ∈ targets)
    (numbered : 1 ≤ row.jobId) (read : Restarted db target row identity) (owner : ExecutionOwner)
    (owns : target.owner = some owner) : RequestsReadable next (restartRow request target row) identity := by
  have persist := restarts_persist written
  obtain ⟨later, latest⟩ := restarted_request distinct written inside read
  have last : lastOwner db identity = some owner := read.owner ▸ owns
  obtain ⟨executionId, named, found⟩ := Option.bind_eq_some_iff.mp last
  obtain ⟨stored, here, execution⟩ := later.last executionId named
  have before : owner.generation ≤ row.generation := by
    obtain ⟨held, there, known⟩ := read.readable.last executionId named
    rw [found, Option.some.injEq] at there
    exact there ▸ known.reached
  have kept := persist.owners executionId owner found
  obtain rfl : owner = stored := Option.some.inj (kept.symm.trans here)
  have keyed : owner.executionId = executionId := Table.find_key found
  have raised : (restartRow request target row).generation = row.generation + 1 := by
    simp only [restartRow, read.generation]
  refine ⟨numbered, ?_, fun _ => later, ?_, ?_, ?_⟩
  · intro other other_last
    obtain ⟨known, there, reached⟩ := later.last other other_last
    exact ⟨known, there, reached.reached⟩
  · intro event force
    obtain rfl := Option.some.inj (force.latest.symm.trans latest)
    refine ⟨owner, ?_, ?_, ?_, keyed ▸ kept, execution.place, execution.jobInstance, execution.creator, ?_,
      execution.readable⟩
    · simp [requestEvent, ownerData, owns, Details.get]
    · simp [requestEvent, ownerData, owns, Details.get]
    · simp [requestEvent, ownerData, owns, Details.get]
    · omega
  · intro other other_last _ _
    have same : lastOwner next identity = some owner := by rw [lastOwner, named, Option.bind_some, kept]
    obtain rfl := Option.some.inj (same.symm.trans other_last)
    refine ⟨requestEvent request true target, ⟨by omega, latest, ?_, ?_⟩, ?_, fun _ => rfl⟩
    · simp [requestEvent, ownerData, owns, Details.get, restartRow]
    · simp [requestEvent, ownerData, owns, Details.get, read.jobInstance]
    · simp [requestEvent, ownerData, owns, Details.get]
  · intro other event previous other_last current _ _
    have same : lastOwner next identity = some owner := by rw [lastOwner, named, Option.bind_some, kept]
    obtain rfl := Option.some.inj (same.symm.trans other_last)
    omega

theorem independent_request_readable (distinct : (targets.map RestartTarget.address).Nodup)
    (written : RestartsWritten db next targets request false) (inside : target ∈ targets) (numbered : 1 ≤ row.jobId)
    (read : Restarted db target row identity)
    (ended : ∀ owner, lastOwner db identity = some owner → sessionRunning db owner.sessionId = false) :
    RequestsReadable next (restartRow request target row) identity := by
  have persist := restarts_persist written
  obtain ⟨later, latest⟩ := restarted_request distinct written inside read
  have forceless : ∀ event, ¬InForce next (restartRow request target row) identity event := by
    intro event force
    obtain rfl := Option.some.inj (force.latest.symm.trans latest)
    have named := force.names.2
    simp [requestEvent, ownerData, Details.get] at named
  refine ⟨numbered, ?_, fun _ => later, fun event force => absurd force (forceless event), ?_,
    fun _ event _ _ _ force _ => absurd force (forceless event)⟩
  · intro executionId last
    obtain ⟨known, there, reached⟩ := later.last executionId last
    exact ⟨known, there, reached.reached⟩
  · intro owner last running _
    obtain ⟨executionId, named, found⟩ := Option.bind_eq_some_iff.mp last
    obtain ⟨stored, here, execution⟩ := read.readable.last executionId named
    obtain rfl : owner = stored := Option.some.inj (found.symm.trans (persist.owners _ _ here))
    have still := persist.running execution.session running
    have gone := ended owner (by rw [lastOwner, named, Option.bind_some, here])
    exact absurd (still.symm.trans gone) (by decide)

theorem restarts_written_readable (readable : RestartsReadable db)
    (written : RestartsWritten db next targets request owned)
    (restarted : ∀ target ∈ targets, ∀ row, db.jobs.find target.address = some row → 1 ≤ row.jobId → ∃ identity,
      next.jobInstances.find row.address = some identity ∧
        RequestsReadable next (restartRow request target row) identity) : RestartsReadable next := by
  have persist := restarts_persist written
  have instances : next.jobInstances = db.jobInstances := by rw [written.others]
  intro later member
  have found := Table.find_of_mem member
  rw [written.jobs, Option.map_eq_some_iff] at found
  obtain ⟨row, here, same⟩ := found
  have keyed := Table.find_key here
  rcases Table.rewritten_cases RestartTarget.address (restartRow request) targets later.address row with
    ⟨untouched, absent⟩ | ⟨target, inside, addressed, rewritten⟩
  · rw [untouched] at same
    subst same
    obtain ⟨identity, located, state⟩ := readable row (Table.find_mem here)
    have there : next.jobInstances.find row.address = some identity := by rw [instances, located]
    have latest : latestRestartEvent next row.nodeName row.jobId = latestRestartEvent db row.nodeName row.jobId :=
      latest_restart_elsewhere written absent
    exact ⟨identity, there, requests_readable_settled persist (Settles.refl row) state there latest⟩
  · rw [rewritten] at same
    subst same
    rw [← addressed] at here
    obtain ⟨_, _, before⟩ := readable row (Table.find_mem here)
    obtain ⟨identity, located, state⟩ := restarted target inside row here before.numbered
    exact ⟨identity, located, state⟩

theorem read_observation_some {node : String} {jobId : Nat} {observed : JobOwnerObservation}
    (read : readJobOwnerObservation db node jobId = .ok (some observed)) :
    ∃ row identity, db.jobs.find (node, jobId) = some row ∧ ReadableJob db row identity ∧
      Observes db row identity observed := by
  unfold readJobOwnerObservation at read
  cases found : db.jobs.find (node, jobId) with
  | none => rw [found] at read; exact absurd read (by simp)
  | some row =>
      simp only [found, Lib.bind_ok, Lib.pure_ok, Option.some.injEq] at read
      obtain ⟨_, seen, rfl⟩ := read
      obtain ⟨identity, readable, observes⟩ := observation_readable seen
      exact ⟨row, identity, rfl, readable, observes⟩

theorem owned_target_read {probe : Probe} (read : readOwnedRestartTarget db probe target.node target.jobId = .ok target) :
    ∃ row identity owner, Restarted db target row identity ∧ target.owner = some owner := by
  simp only [readOwnedRestartTarget, Lib.bind_ok, Lib.orRaise_ok, Lib.require_ok, Lib.pure_ok] at read
  obtain ⟨_, seen, observed, rfl, owner, owned, _, _, _, _, _, _, mode, _, same⟩ := read
  obtain ⟨row, identity, found, readable, observes⟩ := read_observation_some seen
  refine ⟨row, identity, owner, ⟨found, readable, ?_, ?_, ?_⟩, ?_⟩
  · rw [← same]
    exact observes.jobInstance
  · rw [← same]
    exact observes.generation
  · rw [← same]
    exact owned.symm.trans observes.owner
  · rw [← same]

theorem independent_target_read {probe : Probe}
    (read : independentTarget db probe target.node target.jobId = .ok target) :
    ∃ row identity, Restarted db target row identity := by
  simp only [independentTarget, Lib.bind_ok, Lib.orRaise_ok] at read
  obtain ⟨_, seen, observed, rfl, _, _, read⟩ := read
  obtain ⟨row, identity, found, readable, observes⟩ := read_observation_some seen
  have same : (⟨target.node, target.jobId, .independent, observed.owner, observed.jobInstanceId, observed.generation,
      observed.status, observed.activeExecutionId⟩ : RestartTarget) = target := by
    split at read
    · simp only [Lib.bind_ok, Lib.pure_ok] at read
      obtain ⟨_, _, same⟩ := read
      exact same
    · simp only [Lib.bind_ok, Lib.pure_ok] at read
      obtain ⟨_, _, same⟩ := read
      exact same
  refine ⟨row, identity, found, readable, ?_, ?_, ?_⟩
  · rw [← same]
    exact observes.jobInstance
  · rw [← same]
    exact observes.generation
  · rw [← same]
    exact observes.owner

theorem owned_restarts_readable {probe : Probe} {plan : Option RestartPlan} (readable : RestartsReadable db)
    (applied : applyOwnedRestarts db probe targets request plan = .ok next) : RestartsReadable next := by
  obtain ⟨distinct, outcome⟩ := apply_owned_restarts_ok applied
  rcases outcome with ⟨_, rfl⟩ | ⟨read, written⟩
  · exact readable
  have sorted : (sortTargets targets).Perm targets := List.perm_insertionSort _ _
  have apart : ((sortTargets targets).map RestartTarget.address).Nodup := (sorted.map _).nodup_iff.mpr distinct
  refine restarts_written_readable readable written fun target inside row found numbered => ?_
  obtain ⟨other, identity, owner, restarted, owns⟩ := owned_target_read (read target (sorted.mem_iff.mp inside))
  obtain rfl := Option.some.inj (found.symm.trans restarted.found)
  refine ⟨identity, ?_, owned_request_readable apart written inside numbered restarted owner owns⟩
  rw [written.others]
  exact restarted.readable.found

theorem independent_restart_readable {probe : Probe} (readable : RestartsReadable db)
    (ended : ∀ identity owner, db.jobInstances.find target.address = some identity →
      lastOwner db identity = some owner → sessionRunning db owner.sessionId = false)
    (applied : applyIndependentRestart db probe target request = .ok next) : RestartsReadable next := by
  obtain ⟨read, written⟩ := apply_independent_restart_ok applied
  refine restarts_written_readable readable written fun other inside row found numbered => ?_
  obtain rfl := List.mem_singleton.mp inside
  obtain ⟨stored, identity, restarted⟩ := independent_target_read read
  obtain rfl := Option.some.inj (found.symm.trans restarted.found)
  have located := restarted.readable.found
  refine ⟨identity, ?_, independent_request_readable (by simp) written inside numbered restarted fun owner last => ?_⟩
  · rw [written.others]
    exact located
  · rw [Table.find_key found] at located
    exact ended identity owner located last

end Restarting

section Claiming

def ClaimContinues (db : Database) (batch : ExecutionClaimBatch) : Prop :=
  ∀ sessionId component producing, batch.sessionId = some sessionId → batch.component = some component →
    readComponentProducingIdentity db component = .ok producing → ∀ jobId ∈ batch.jobIds, ∀ row identity,
      db.jobs.find (batch.nodeName, jobId) = some row → db.jobInstances.find (batch.nodeName, jobId) = some identity →
      0 < row.generation →
        (∀ session, db.executionSessions.find sessionId = some session → session.admittedShapeId = producing.1) ∧
        ∀ event previous, InForce db row identity event →
          event.data.get "execution_id" = .text previous.executionId →
          db.jobExecutionOwners.find previous.executionId = some previous →
            previous.sessionId = sessionId ∧ previous.componentKey = component ∧
              (previous.shapeId, previous.alignmentGeneration) = producing

variable {probe : Probe} {batch : ExecutionClaimBatch} {accepted : List JobAddress} {sessionId : String}
  {component : Component} {rows : List ClaimRow} {producing : Nat × Nat} {claimed : ClaimedJob}

structure ClaimScope (batch : ExecutionClaimBatch) (sessionId : String) (component : Component) (producing : Nat × Nat)
    (owner : ExecutionOwner) : Prop where
  node : owner.nodeName = batch.nodeName
  job : owner.jobId ∈ batch.jobIds
  session : owner.sessionId = sessionId
  scope : owner.componentKey = encodeComponentKey component
  shape : (owner.shapeId, owner.alignmentGeneration) = producing

theorem claimed_job_scope (found : claimedRows db batch = .ok rows)
    (member : claimed ∈ claimedJobs batch sessionId component producing rows) :
    ClaimScope batch sessionId component producing claimed.owner := by
  unfold claimedJobs at member
  obtain ⟨⟨⟨row, executionId⟩, index⟩, inside, rfl⟩ := List.mem_map.mp member
  have zipped : (row, executionId) ∈ rows.zip batch.executionIds :=
    (List.mem_zipIdx inside).2.2 ▸ List.getElem_mem _
  obtain ⟨jobId, requested, read⟩ := (Lib.mem_of_collect found).1 row (List.of_mem_zip zipped).1
  simp only [Lib.orRaise_ok, claimRow, Option.map_eq_some_iff] at read
  obtain ⟨job, here, rfl⟩ := read
  have keyed : job.jobId = jobId := congrArg Prod.snd (Table.find_key here)
  exact ⟨rfl, keyed ▸ requested, rfl, rfl, rfl⟩

structure ClaimSession (db : Database) (batch : ExecutionClaimBatch) (sessionId : String) (component : Component)
    (producing : Nat × Nat) : Prop where
  member : batch.nodeName ∈ component
  session : db.executionSessions.contains sessionId = true
  selected : db.sessionComponents.contains (sessionId, component) = true
  defined : db.componentDefinitions.contains (component, producing.1) = true
  canonical : encodeComponentKey component = component
  shape : ∃ shape, db.graphShapes.find producing.1 = some shape ∧ shape.shapeJson.wellFormed = true ∧
    component ∈ shape.shapeJson.hoefleinComponents

theorem accepted_claim_session (claim : AcceptedClaim db probe batch accepted sessionId component rows producing) :
    ClaimSession db batch sessionId component producing := by
  obtain ⟨member, _, _, owned, _⟩ := claim_owner_error_none.mp claim.unrefused
  obtain ⟨session, known, same⟩ := Option.map_eq_some_iff.mp (claim_owner_row_error_none.mp owned)
  simp only [ClaimOwnerRow.mk.injEq, Bool.and_eq_true] at same
  obtain ⟨shape, found, formed, inside, defined⟩ := read_component_producing_identity_ok claim.producing
  have canonical : encodeComponentKey component = component := hoeflein_component_canonical inside
  refine ⟨member, ?_, ?_, defined, canonical, shape, found, formed, inside⟩
  · rw [Table.contains, known]
    rfl
  · rw [← canonical]
    exact same.2.2.2

theorem claimed_owner_readable (scope : ClaimScope batch sessionId component producing owner)
    (session : ClaimSession db batch sessionId component producing)
    (admitted : ∀ session, db.executionSessions.find sessionId = some session → session.admittedShapeId = producing.1)
    (valid : validInstance owner.jobInstanceId = true) (numbered : 1 ≤ owner.jobId)
    (creator : creatorRecorded db owner.createdByExecutionId = true) : executionOwnerFromRow db owner = .ok owner := by
  obtain ⟨shape, found, formed, inside⟩ := session.shape
  obtain ⟨running, known⟩ := Option.isSome_iff_exists.mp session.session
  have sameComponent : owner.componentKey = component := scope.scope.trans session.canonical
  have shaped : owner.shapeId = producing.1 := congrArg Prod.fst scope.shape
  simp only [executionOwnerFromRow, Lib.bind_ok, Lib.pure_ok, Lib.require_ok, Lib.orRaise_ok, Bool.and_eq_true]
  refine ⟨(), ⟨⟨?_, ?_⟩, ?_⟩, (), ?_, (), ⟨valid, decide_eq_true numbered⟩, shape, ?_, _, snapshot_or_ok.mpr ⟨rfl, formed⟩,
    (), ?_, (), creator, trivial⟩
  · simp [scope.session, known, admitted running known, shaped]
  · rw [scope.session, sameComponent]
    exact session.selected
  · rw [sameComponent, shaped]
    exact session.defined
  · rw [sameComponent, session.canonical, beq_self_eq_true]
  · rw [shaped, found]
  · rw [sameComponent, scope.node]
    exact ⟨decide_eq_true inside, decide_eq_true session.member⟩

theorem claimed_request_readable {entry : ExecutionClaimBatch × ClaimedJob} (persist : ScopesPersist db next)
    (state : RequestsReadable db row identity) (read : ClaimRead db entry.2 row identity)
    (scope : ClaimScope entry.1 sessionId component producing entry.2.owner)
    (session : ClaimSession db entry.1 sessionId component producing) (presented : entry.1.sessionId = some sessionId)
    (taken : entry.1.component = some component) (producingNow : readComponentProducingIdentity db component = .ok producing)
    (continues : ClaimContinues db entry.1)
    (located : next.jobInstances.find row.address = some (instanceUpdate entry identity))
    (stored : next.jobExecutionOwners.find entry.2.owner.executionId = some entry.2.owner)
    (latest : latestRestartEvent next row.nodeName row.jobId = latestRestartEvent db row.nodeName row.jobId) :
    RequestsReadable next (claimUpdate entry row) (instanceUpdate entry identity) := by
  have place : entry.2.owner.address = row.address := (Table.find_key read.job).symm
  have allowed := fun raised : 0 < row.generation => by
    have jobFound := read.job
    have instanceFound := read.instanceRow
    rw [show entry.2.owner.address = (entry.1.nodeName, entry.2.owner.jobId) from Prod.ext scope.node rfl]
      at jobFound instanceFound
    exact continues sessionId component producing presented taken producingNow entry.2.owner.jobId scope.job row identity
      jobFound instanceFound raised
  have sameComponent : entry.2.owner.componentKey = component := scope.scope.trans session.canonical
  have last : lastOwner next (instanceUpdate entry identity) = some entry.2.owner := stored
  have back : ∀ event, InForce next (claimUpdate entry row) (instanceUpdate entry identity) event →
      InForce db row identity event := by
    intro event force
    exact ⟨force.raised, latest ▸ force.latest, force.names⟩
  have moved : ∀ event previous, Recorded db row identity event previous →
      Recorded next (claimUpdate entry row) (instanceUpdate entry identity) event previous := by
    intro event previous recorded
    have there := recorded.persist persist
    exact ⟨there.execution, there.session, there.scope, there.stored, there.place, there.jobInstance, there.creator,
      there.before, there.readable⟩
  refine ⟨state.numbered, ?_, fun raised => ?_, ?_, ?_, ?_⟩
  · intro executionId named
    obtain rfl := Option.some.inj named
    exact ⟨entry.2.owner, stored, le_of_eq read.generation⟩
  · have readable := state.readable raised
    have creator : creatorRecorded db entry.2.owner.createdByExecutionId = true := by
      rw [read.creator]
      exact readable.creator
    have valid : validInstance entry.2.owner.jobInstanceId = true := by
      rw [read.instanceId]
      exact read.valid
    have numbered : 1 ≤ entry.2.owner.jobId := by
      rw [show entry.2.owner.jobId = row.jobId from congrArg Prod.snd place]
      exact state.numbered
    have owned := claimed_owner_readable scope session (allowed raised).1 valid numbered creator
    obtain ⟨running, known⟩ := Option.isSome_iff_exists.mp session.session
    obtain ⟨later, there, _, _⟩ := persist.sessions _ _ known
    refine ⟨located, read.valid, creator_recorded_persists persist readable.creator, fun _ active => active, ?_⟩
    intro executionId named
    obtain rfl := Option.some.inj named
    refine ⟨entry.2.owner, stored, ?_, ?_, place, read.instanceId, read.creator, le_of_eq read.generation,
      fun _ => read.generation, ?_, execution_owner_persists persist owned⟩
    · rw [scope.session, Table.contains, there]
      rfl
    · rw [scope.session, sameComponent]
      exact persist.components _ session.selected
    · have node : row.nodeName = entry.1.nodeName := (congrArg Prod.fst place).symm.trans scope.node
      rw [sameComponent, show (claimUpdate entry row).nodeName = entry.1.nodeName from node]
      exact session.member
  · intro event force
    obtain ⟨previous, recorded⟩ := state.recorded event (back event force)
    exact ⟨previous, moved event previous recorded⟩
  · intro owner named _ superseded
    obtain rfl := Option.some.inj (last.symm.trans named)
    have current := read.generation
    have below : entry.2.owner.generation < row.generation := superseded
    omega
  · intro owner event previous named _ force recorded
    obtain rfl := Option.some.inj (last.symm.trans named)
    obtain ⟨other, known⟩ := state.recorded event (back event force)
    obtain rfl := recorded.unique (moved event other known)
    obtain ⟨sameSession, sameScope, sameShape⟩ :=
      (allowed force.raised).2 event other (back event force) known.execution known.stored
    have shapes := sameShape.trans scope.shape.symm
    simp only [Prod.mk.injEq] at shapes
    exact ⟨sameSession.trans scope.session.symm, sameScope.trans sameComponent.symm, shapes.1, shapes.2⟩

theorem claim_events_started {entry : ExecutionClaimBatch × ClaimedJob} (member : event ∈ claimEvents entry) :
    event.event ≠ "restart_requested" := by
  simp only [claimEvents] at member
  split at member
  · rcases List.mem_cons.mp member with rfl | more
    · exact (by decide : "started" ≠ "restart_requested")
    · rw [List.mem_singleton.mp more]
      exact (by decide : "task_started" ≠ "restart_requested")
  · rw [List.mem_singleton.mp member]
    exact (by decide : "started" ≠ "restart_requested")

theorem claim_restarts_readable {batches : List ExecutionClaimBatch} {outcomes : List (Result Claims)}
    (readable : RestartsReadable db) (continues : ∀ batch ∈ batches, ClaimContinues db batch)
    (applied : applyExecutionClaimBatches db probe batches = .ok (outcomes, next)) : RestartsReadable next := by
  obtain ⟨verdicts, judged, _, written⟩ := apply_execution_claim_batches_ok applied
  have inserted := Table.insertAll_rows written.owners
  have persist : ScopesPersist db next := by
    have owners : ∀ executionId owner, db.jobExecutionOwners.find executionId = some owner →
        next.jobExecutionOwners.find executionId = some owner := by
      intro executionId owner found
      rw [← Table.find_key found]
      exact Table.find_of_mem (inserted ▸ List.mem_append_left _ (Table.find_mem found))
    refine scopes_persist_of_eq ?_ ?_ ?_ ?_ owners
    all_goals rw [written.others]
  have latest : ∀ node jobId, latestRestartEvent next node jobId = latestRestartEvent db node jobId := by
    intro node jobId
    refine latest_restart_appended written.events fun event listed _ _ => ?_
    obtain ⟨entry, _, member⟩ := List.mem_flatMap.mp listed
    exact claim_events_started member
  intro later member
  have found := Table.find_of_mem member
  rw [written.jobs, Option.map_eq_some_iff] at found
  obtain ⟨row, here, same⟩ := found
  have instances := written.instances later.address
  rcases Table.rewritten_cases claimedAddress claimUpdate (acceptedJobs batches verdicts) later.address row with
    ⟨untouched, absent⟩ | ⟨entry, inside, addressed, rewritten⟩
  · rw [untouched] at same
    subst same
    obtain ⟨identity, located, state⟩ := readable row (Table.find_mem here)
    have there : next.jobInstances.find row.address = some identity := by
      rw [instances, located, Option.map_some, Table.rewritten_absent absent]
    exact ⟨identity, there, requests_readable_settled persist (Settles.refl row) state there (latest _ _)⟩
  · rw [rewritten] at same
    subst same
    obtain ⟨_, sessionId, component, rows, producing, among, claim, job⟩ := mem_accepted_jobs judged inside
    obtain ⟨read, _, identity, _, observed, _, _⟩ := mem_claimed_jobs claim job
    have scope := claimed_job_scope claim.found job
    have same : row = read.job := by
      have located := observed.job
      rw [← claimedAddress, addressed] at located
      exact Option.some.inj (here.symm.trans located)
    subst same
    obtain ⟨other, located, state⟩ := readable read.job (Table.find_mem here)
    have place : entry.2.owner.address = read.job.address := (Table.find_key observed.job).symm
    obtain rfl : other = identity := Option.some.inj (located.symm.trans (place ▸ observed.instanceRow))
    have there : next.jobInstances.find read.job.address = some (instanceUpdate entry other) := by
      rw [← place, written.instances, observed.instanceRow, Option.map_some]
      exact congrArg some (Table.rewritten_mem written.distinct inside)
    have stored : next.jobExecutionOwners.find entry.2.owner.executionId = some entry.2.owner :=
      Table.find_of_mem (inserted ▸ List.mem_append_right _ (List.mem_map_of_mem inside))
    exact ⟨instanceUpdate entry other, there, claimed_request_readable persist state observed scope
      (accepted_claim_session claim) claim.session claim.scope claim.producing (continues _ among) there stored
      (latest _ _)⟩

end Claiming

end MicroWorkflow
