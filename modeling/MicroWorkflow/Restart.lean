import MicroWorkflow.PendingExecution

set_option autoImplicit false

namespace MicroWorkflow

open Lib (require refuse orRaise collect Table)

inductive RestartMode where
  | running | failed | independent
deriving DecidableEq, Repr

structure RestartTarget where
  node : String
  jobId : Nat
  mode : RestartMode
  owner : Option ExecutionOwner
  jobInstanceId : String
  generation : Nat
  status : JobStatus
  activeExecutionId : Option String
deriving DecidableEq, Repr

def RestartTarget.address (target : RestartTarget) : JobAddress := (target.node, target.jobId)

def overlaps (component other : Component) : Bool := component.any fun node => node ∈ other

def readOwnedRestartTarget (db : Database) (probe : Probe) (node : String) (jobId : Nat) : Result RestartTarget := do
  let here := address node jobId
  let observed ← orRaise (← readJobOwnerObservation db node jobId) (.runtime ("Job does not exist: " ++ here))
  let owner ← orRaise observed.owner (.runtime ("Job " ++ here ++ " has no recorded execution owner"))
  let session ← orRaise observed.session (.runtime ("Job " ++ here ++ " has no recorded execution owner"))
  let liveness := executionSessionLiveness probe session.row
  require liveness.live (.runtime ("Job " ++ here ++ " belongs to session " ++ owner.sessionId ++
    ", which cannot accept restart: " ++ liveness.reason))
  require ((db.componentReservations.select fun row => overlaps owner.componentKey row.componentKey)
      == [⟨encodeComponentKey owner.componentKey, owner.sessionId⟩])
    (.runtime ("Job " ++ here ++ " has no unambiguous reservation for its owning session " ++ owner.sessionId))
  let mode ← orRaise
    (if observed.status == .running && observed.activeExecutionId.isSome then some .running
      else if (observed.status == .failed || observed.status == .cancelled) && observed.activeExecutionId.isNone then
        some .failed
      else none)
    (.runtime ("Job " ++ here ++ " has status " ++ reprText observed.status.text ++ ". Restart requires " ++
      "an active running execution or failed/cancelled work with no active execution."))
  return ⟨node, jobId, mode, some owner, observed.jobInstanceId, observed.generation, observed.status,
    observed.activeExecutionId⟩

structure RestartPlan where
  node : String
  component : Component
  sessionId : String
  failedOnly : Bool
  targets : List RestartTarget
deriving DecidableEq, Repr

def componentJobRows (db : Database) (component : Component) : List Job :=
  (db.jobs.select fun row => row.nodeName ∈ component).insertionSort fun left right =>
    left.nodeName < right.nodeName ∨ (left.nodeName = right.nodeName ∧ left.jobId ≤ right.jobId)

def readComponentRestartPlan (db : Database) (probe : Probe) (node : String) (failedOnly : Bool) :
    Result RestartPlan := do
  match db.componentReservations.select fun row => node ∈ row.componentKey with
  | [row] =>
      require (db.sessionComponents.contains (row.sessionId, row.componentKey)
          && (db.componentReservations.select fun other => overlaps row.componentKey other.componentKey).length == 1)
        (.runtime ("Node " ++ node ++ " has damaged component reservation ownership"))
      let session ← orRaise (db.executionSessions.find row.sessionId)
        (.runtime ("Session " ++ row.sessionId ++ " cannot accept restart: no running sequence is recorded"))
      let liveness := executionSessionLiveness probe session
      require liveness.live (.runtime ("Session " ++ row.sessionId ++ " cannot accept restart: " ++ liveness.reason))
      let eligible := (componentJobRows db row.componentKey).filter fun job =>
        job.status == .failed || job.status == .cancelled || (!failedOnly && job.status == .running)
      let targets ← collect (fun (job : Job) => readOwnedRestartTarget db probe job.nodeName job.jobId) eligible
      require (targets.all fun target => match target.owner with
          | some owner => owner.sessionId == row.sessionId && owner.componentKey == row.componentKey
          | none => false)
        (.runtime "Restart component contains jobs with another recorded owner")
      return ⟨node, row.componentKey, row.sessionId, failedOnly, targets⟩
  | _ => throw (.runtime ("Node " ++ node ++ " has no unambiguous component reservation"))

def independentTarget (db : Database) (probe : Probe) (node : String) (jobId : Nat) : Result RestartTarget := do
  let here := address node jobId
  let observed ← orRaise (← readJobOwnerObservation db node jobId) (.fileNotFound ("Job does not exist: " ++ here))
  let ownerLive := match observed.session with
    | some session => (executionSessionLiveness probe session.row).live
    | none => false
  refuse (ownerLive && (observed.status == .running || observed.status == .failed || observed.status == .cancelled))
    (.runtime ("Job " ++ here ++ " owning-session restart state changed"))
  if observed.status == .running then
    require (match observed.owner with
        | some owner => observed.activeExecutionId == some owner.executionId
        | none => false)
      (.runtime ("Job " ++ here ++ " has damaged abandoned execution ownership"))
  else
    refuse observed.activeExecutionId.isSome
      (.runtime ("Job " ++ here ++ " has inconsistent active execution ownership"))
  return ⟨node, jobId, .independent, observed.owner, observed.jobInstanceId, observed.generation, observed.status,
    observed.activeExecutionId⟩

structure RestartRequest where
  requestedAt : Timestamp
  requester : Nat
  reason : String
deriving DecidableEq, Repr

def runtimeAfterRestart (raw : Option Details) (request : RestartRequest) (previous generation : Nat) :
    Option Details :=
  match raw with
  | none => none
  | some [] => some []
  | some runtime => some (Details.merge runtime
      [("state", .text "restarted"), ("updated_at", .int request.requestedAt),
        ("restart_reason", .text request.reason), ("previous_generation", .int previous),
        ("generation", .int generation)])

def restartGuard (db : Database) (target : RestartTarget) (row : Job) : Bool :=
  row.address = target.address && row.generation = target.generation && row.status = target.status
    && row.activeExecutionId = target.activeExecutionId
    && match db.jobInstances.find target.address with
      | some identity => identity.instanceId = target.jobInstanceId
          && identity.lastExecutionId = target.owner.map ExecutionOwner.executionId
      | none => false

def restartRow (request : RestartRequest) (target : RestartTarget) (row : Job) : Job :=
  { row with
    generation := target.generation + 1
    activeExecutionId := none
    activePid := none
    activeThreadId := none
    activeStartedAt := none
    restartRequestedAt := some request.requestedAt
    restartRequestedByPid := some request.requester
    restartReason := some request.reason
    status := .queued
    statusJson := []
    runtimeJson := runtimeAfterRestart row.runtimeJson request target.generation (target.generation + 1) }

def ownerData (target : RestartTarget) (owned : Bool) : Details :=
  match owned, target.owner with
  | true, some owner => [("session_id", .text owner.sessionId), ("execution_id", .text owner.executionId),
      ("job_instance_id", .text target.jobInstanceId), ("component", .list owner.componentKey)]
  | _, _ => []

def restartEvents (request : RestartRequest) (owned : Bool) (target : RestartTarget) : List JobEvent :=
  [⟨target.node, target.jobId, request.requestedAt, "queued", ownerData target owned ++
      [("previous_status", .text target.status.text), ("status", .text "queued")]⟩,
    ⟨target.node, target.jobId, request.requestedAt, "restart_requested", ownerData target owned ++
      [("previous_generation", .int target.generation), ("generation", .int (target.generation + 1)),
        ("reason", .text request.reason), ("requested_by_pid", .int request.requester)]⟩]

def applyTarget (request : RestartRequest) (owned : Bool) (db : Database) (target : RestartTarget) :
    Result Database := do
  require (db.jobs.count (restartGuard db target) == 1)
    (.runtime ("Restart state changed for " ++ address target.node target.jobId))
  return { db with
    jobs := db.jobs.modify (restartGuard db target) (restartRow request target)
    jobEvents := db.jobEvents ++ restartEvents request owned target }

def markNodeRunning (nodes : Table NodeRow.nodeName) (node : String) : Table NodeRow.nodeName :=
  nodes.upsert ⟨node, some "running"⟩ fun row => { row with status := some "running" }

def applyTargets (db : Database) (targets : List RestartTarget) (request : RestartRequest) (owned : Bool) :
    Result Database := do
  let db ← Lib.thread (applyTarget request owned) db targets
  return { db with
    nodes := if owned then (componentKey (targets.map RestartTarget.node)).foldl markNodeRunning db.nodes else db.nodes
    jobRestartRevision := db.jobRestartRevision + 1 }

def sortTargets (targets : List RestartTarget) : List RestartTarget :=
  targets.insertionSort fun left right =>
    left.node < right.node ∨ (left.node = right.node ∧ left.jobId ≤ right.jobId)

def validateRestartPlan (db : Database) (probe : Probe) (plan : Option RestartPlan) (expected : List RestartTarget) :
    Result Unit :=
  match plan with
  | none => .ok ()
  | some plan => do
      let current ← readComponentRestartPlan db probe plan.node plan.failedOnly
      require (current == plan && (expected.isEmpty || sortTargets current.targets == expected))
        (.runtime "Restart component selection or ownership changed after preflight")

-- The commit of `apply_owned_restarts`: the captured selection is read again and has to be the same before
-- any row changes.
def applyOwnedRestarts (db : Database) (probe : Probe) (targets : List RestartTarget) (request : RestartRequest)
    (componentPlan : Option RestartPlan) : Result Database := do
  require (decide (targets.map RestartTarget.address).Nodup) (.value "Restart selection contains duplicate jobs")
  let expected := sortTargets targets
  if targets.isEmpty then
    validateRestartPlan db probe componentPlan expected
    return db
  else
    require ((targets.map fun target => target.owner.map ExecutionOwner.sessionId).dedup.length == 1)
      (.runtime "Restart selection must have one owning session")
    require (1 ≤ request.requester) (.value "requested_by_pid must be an integer >= 1")
    validateRestartPlan db probe componentPlan expected
    let current ← collect (fun (target : RestartTarget) => readOwnedRestartTarget db probe target.node target.jobId)
      expected
    require (current == expected) (.runtime "Restart ownership or state changed after preflight")
    applyTargets db expected request true

def applyIndependentRestart (db : Database) (probe : Probe) (expected : RestartTarget) (request : RestartRequest) :
    Result Database := do
  require (1 ≤ request.requester) (.value "requested_by_pid must be an integer >= 1")
  let current ← independentTarget db probe expected.node expected.jobId
  require (current == expected)
    (.runtime ("Restart state changed for " ++ address expected.node expected.jobId))
  applyTargets db [expected] request false

theorem restart_guard_address {db : Database} {target : RestartTarget} {row : Job}
    (guarded : restartGuard db target row = true) : row.address = target.address := by
  simp only [restartGuard, Bool.and_eq_true, decide_eq_true_eq] at guarded
  exact guarded.1.1.1.1

structure RestartsWritten (db next : Database) (targets : List RestartTarget) (request : RestartRequest)
    (owned : Bool) : Prop where
  met : ∀ target ∈ targets, ∃ row, db.jobs.find target.address = some row ∧ restartGuard db target row = true
  jobs : ∀ place, next.jobs.find place =
    (db.jobs.find place).map (Table.rewritten RestartTarget.address (restartRow request) targets place)
  events : next.jobEvents = db.jobEvents ++ targets.flatMap (restartEvents request owned)
  others : next = { db with
    jobs := next.jobs
    jobEvents := next.jobEvents
    nodes := next.nodes
    jobRestartRevision := next.jobRestartRevision }

variable {db next : Database} {target : RestartTarget} {targets : List RestartTarget} {request : RestartRequest}
  {owned : Bool}

theorem apply_target_ok (applied : applyTarget request owned db target = .ok next) :
    RestartsWritten db next [target] request owned := by
  simp only [applyTarget, Lib.bind_ok, Lib.require_ok, Lib.pure_ok, beq_iff_eq] at applied
  obtain ⟨_, changed, rfl⟩ := applied
  have addressed : ∀ row, restartGuard db target row = true → row.address = target.address :=
    fun _ => restart_guard_address
  rw [Table.count_one_key addressed] at changed
  have met : (db.jobs.find target.address).any (restartGuard db target) = true := by
    by_contra missed
    rw [if_neg missed] at changed
    omega
  obtain ⟨row, found, guarded⟩ := (Option.any_eq_true _ _).mp met
  refine ⟨?_, ?_, by simp, rfl⟩
  · intro other member
    rw [List.mem_singleton.mp member]
    exact ⟨row, found, guarded⟩
  · intro place
    dsimp only
    rw [Table.find_modify]
    cases here : db.jobs.find place with
    | none => rfl
    | some other =>
        simp only [Option.map_some, Option.some.injEq]
        by_cases same : target.address = place
        · rw [← same, found] at here
          rw [← Option.some.inj here, if_pos guarded]
          simp [Table.rewritten, same]
        · have missed : restartGuard db target other = false := by
            by_contra hit
            have key := addressed other (by simpa using hit)
            exact same (key.symm.trans (Table.find_key here))
          simp [Table.rewritten, same, missed]

theorem apply_target_thread (distinct : (targets.map RestartTarget.address).Nodup)
    (applied : Lib.thread (applyTarget request owned) db targets = .ok next) :
    RestartsWritten db next targets request owned := by
  induction targets generalizing db with
  | nil =>
      simp only [Lib.thread, Except.ok.injEq] at applied
      subst applied
      exact ⟨by simp, by simp, by simp, rfl⟩
  | cons target rest ih =>
      rw [Lib.thread_cons, Lib.bind_ok] at applied
      obtain ⟨middle, first, later⟩ := applied
      simp only [List.map_cons, List.nodup_cons] at distinct
      have head := apply_target_ok first
      have tail := ih distinct.2 later
      have fresh : ∀ other ∈ rest, other.address ≠ target.address := fun other member same =>
        distinct.1 (same ▸ List.mem_map_of_mem member)
      have instances : middle.jobInstances = db.jobInstances := by rw [head.others]
      constructor
      · intro other member
        rcases List.mem_cons.mp member with rfl | inside
        · exact head.met other (by simp)
        · obtain ⟨row, found, guarded⟩ := tail.met other inside
          rw [head.jobs, Option.map_eq_some_iff] at found
          obtain ⟨stored, here, same⟩ := found
          rw [Table.rewritten_absent (by simpa using (fresh other inside).symm)] at same
          refine ⟨row, same ▸ here, ?_⟩
          simpa only [restartGuard, instances] using guarded
      · intro place
        rw [tail.jobs, head.jobs, Option.map_map]
        cases db.jobs.find place with
        | none => rfl
        | some row =>
            simp only [Option.map_some, Function.comp, Option.some.injEq]
            by_cases same : target.address = place
            · have absent : ∀ other ∈ rest, other.address ≠ place := same ▸ fresh
              rw [Table.rewritten_absent absent]
              simp [Table.rewritten, same]
            · simp [Table.rewritten, same]
      · rw [tail.events, head.events]
        simp
      · rw [tail.others, head.others]

theorem apply_targets_ok (distinct : (targets.map RestartTarget.address).Nodup)
    (applied : applyTargets db targets request owned = .ok next) : RestartsWritten db next targets request owned := by
  simp only [applyTargets, Lib.bind_ok, Lib.pure_ok] at applied
  obtain ⟨middle, threaded, rfl⟩ := applied
  have written := apply_target_thread distinct threaded
  exact ⟨written.met, written.jobs, written.events, by rw [written.others]⟩

theorem apply_owned_restarts_ok {probe : Probe} {plan : Option RestartPlan}
    (applied : applyOwnedRestarts db probe targets request plan = .ok next) :
    (targets.map RestartTarget.address).Nodup ∧
      ((targets = [] ∧ next = db) ∨
        ((∀ target ∈ targets, readOwnedRestartTarget db probe target.node target.jobId = .ok target) ∧
          RestartsWritten db next (sortTargets targets) request true)) := by
  simp only [applyOwnedRestarts, Lib.bind_ok, Lib.require_ok, decide_eq_true_eq] at applied
  obtain ⟨_, distinct, applied⟩ := applied
  refine ⟨distinct, ?_⟩
  split at applied
  · rename_i nothing
    rw [List.isEmpty_iff] at nothing
    simp only [Lib.bind_ok, Lib.pure_ok] at applied
    obtain ⟨_, _, same⟩ := applied
    exact .inl ⟨nothing, same.symm⟩
  · simp only [Lib.bind_ok, Lib.require_ok, beq_iff_eq] at applied
    obtain ⟨_, _, _, _, _, _, current, collected, _, same, applied⟩ := applied
    subst same
    have sorted : (sortTargets targets).Perm targets := List.perm_insertionSort _ _
    refine .inr ⟨fun target member => ?_, apply_targets_ok ((sorted.map _).nodup_iff.mpr distinct) applied⟩
    have related := Lib.collect_ok.mp collected
    rw [List.forall₂_same] at related
    exact related target (sorted.mem_iff.mpr member)

theorem apply_independent_restart_ok {probe : Probe}
    (applied : applyIndependentRestart db probe target request = .ok next) :
    independentTarget db probe target.node target.jobId = .ok target ∧
      RestartsWritten db next [target] request false := by
  simp only [applyIndependentRestart, Lib.bind_ok, Lib.require_ok, beq_iff_eq] at applied
  obtain ⟨_, _, current, read, _, same, applied⟩ := applied
  exact ⟨same ▸ read, apply_targets_ok (by simp) applied⟩

end MicroWorkflow
