import MicroWorkflow.JobFence
import MicroWorkflow.JobPreparation

set_option autoImplicit false

namespace MicroWorkflow

open Lib (Table Run)

structure JobLease where
  node : String
  jobId : Nat
  generation : Nat
  executionId : String
deriving DecidableEq, Repr

def jobExecutionIsCurrent (db : Database) (lease : JobLease) : Bool :=
  match db.jobs.find (lease.node, lease.jobId) with
  | none => false
  | some row => row.generation == lease.generation && row.activeExecutionId == some lease.executionId

-- The job controller loop: once its lease is superseded it claims the job anew, with no restart expected.
structure ControllerRetry where
  lease : JobLease
  executionId : String
  startedAt : Timestamp
  pid : Nat
  threadId : Nat
  eventTime : Timestamp
  sessionId : String
  component : Component
deriving DecidableEq, Repr

def ControllerRetry.batch (request : ControllerRetry) : ExecutionClaimBatch :=
  ⟨request.lease.node, [request.lease.jobId], [request.executionId], request.startedAt, request.pid, request.threadId,
    request.eventTime, none, none, some request.sessionId, some request.component, none⟩

inductive ControllerLabel where
  | write (label : FenceLabel)
  | retry (probe : Probe) (request : ControllerRetry)
  | prepare (preparations : List NodeJobPreparation) (keepTrace : Bool) (eventTime : Timestamp)

inductive ControllerStep : Database → ControllerLabel → Database → Prop where
  | write {db next : Database} {label : FenceLabel} : FenceStep db label next → ControllerStep db (.write label) next
  | retry {db next : Database} {probe : Probe} {request : ControllerRetry} :
      jobExecutionIsCurrent db request.lease = false → (JobWrite.claim probe [request.batch]).apply db = .ok next →
      ControllerStep db (.retry probe request) next
  | prepare {db next : Database} {preparations : List NodeJobPreparation} {keepTrace : Bool} {eventTime : Timestamp} :
      applyJobPreparation db preparations keepTrace eventTime = .ok next →
      ControllerStep db (.prepare preparations keepTrace eventTime) next

def ControllerLabel.prepares (place : JobAddress) : ControllerLabel → Bool
  | .prepare preparations _ _ => preparations.any fun plan => plan.touches place
  | _ => false

def FenceLabel.batches : FenceLabel → List ExecutionClaimBatch
  | .applied (.claim _ batches) => batches
  | _ => []

def ControllerLabel.batches : ControllerLabel → List ExecutionClaimBatch
  | .write label => label.batches
  | .retry _ request => [request.batch]
  | .prepare _ _ _ => []

def presentsEndedJob (db : Database) (batch : ExecutionClaimBatch) : Bool :=
  batch.jobIds.any fun jobId => (db.jobs.find (batch.nodeName, jobId)).any fun row => row.status.terminal

-- The claiming session is not the component's running owner, or the component still owes it work; either
-- refuses the batch whatever jobs it presents.
def heldBack (db : Database) (batch : ExecutionClaimBatch) : Bool :=
  match batch.sessionId, batch.component with
  | some sessionId, some component =>
      claimOwnerRow db sessionId (encodeComponentKey component) != some ⟨.running, some sessionId, true⟩ ||
        match readPendingComponentWork db sessionId component with
        | .ok unfinished => !unfinished.isEmpty
        | .error _ => true
  | _, _ => true

def EndedJobsHeldBack (db : Database) (label : ControllerLabel) : Prop :=
  ∀ batch ∈ label.batches, presentsEndedJob db batch = true → heldBack db batch = true

def HeldBackStep (db : Database) (label : ControllerLabel) (next : Database) : Prop :=
  ControllerStep db label next ∧ EndedJobsHeldBack db label

def Claims.takes (db next : Database) (place : JobAddress) : Prop :=
  ∃ executionId, (next.jobs.find place).bind Job.activeExecutionId = some executionId ∧
    (db.jobs.find place).bind Job.activeExecutionId ≠ some executionId

def ClaimsJob (db : Database) (label : ControllerLabel) (next : Database) (place : JobAddress) : Prop :=
  label.batches ≠ [] ∧ Claims.takes db next place

def RecordsResult (db next : Database) (place : JobAddress) (generation : Nat) (executionId : String) : Prop :=
  ∃ row now, db.jobs.find place = some row ∧ row.generation = generation ∧
    row.activeExecutionId = some executionId ∧ next.jobs.find place = some now ∧ now.generation = generation ∧
    now.status.terminal = true

def Ended (generation : Nat) (place : JobAddress) (db : Database) : Prop :=
  ∃ now, db.jobs.find place = some now ∧
    (generation < now.generation ∨ (now.generation = generation ∧ now.status.terminal = true))

variable {db next : Database} {place : JobAddress}

theorem claims_owned_restarts_queued {batch : ExecutionClaimBatch} {sessionId : String} {component : Component}
    {jobId : Nat} {row : Job} (owned : claimsOwnedRestarts db batch sessionId component = .ok true)
    (presented : jobId ∈ batch.jobIds) (found : db.jobs.find (batch.nodeName, jobId) = some row) :
    row.status = .queued := by
  unfold claimsOwnedRestarts at owned
  rw [Lib.bind_ok] at owned
  obtain ⟨restarts, collected, owned⟩ := owned
  obtain ⟨restart, member, read⟩ := (Lib.mem_of_collect collected).2 jobId presented
  split at owned
  · rename_i all
    have accepted := List.all_eq_true.mp all restart member
    obtain ⟨value, rfl⟩ := Option.isSome_iff_exists.mp accepted
    obtain ⟨other, _, _, _, here, waiting⟩ := read_owned_restart_some read
    rw [found, Option.some.injEq] at here
    exact here ▸ waiting.queued
  · exact absurd owned (by simp)

theorem held_back_refused {probe : Probe} {batch : ExecutionClaimBatch} {accepted : List JobAddress}
    {sessionId : String} {component : Component} {rows : List ClaimRow} {identity : Nat × Nat}
    (held : heldBack db batch = true) (ended : presentsEndedJob db batch = true)
    (claim : AcceptedClaim db probe batch accepted sessionId component rows identity) : False := by
  obtain ⟨_, _, _, row, _⟩ := claim_owner_error_none.mp claim.unrefused
  have owner := claim_owner_row_error_none.mp row
  simp only [heldBack, claim.session, claim.scope, owner, bne_self_eq_false, Bool.false_or] at held
  obtain ⟨jobId, presented, status⟩ := List.any_eq_true.mp ended
  obtain ⟨job, found, terminal⟩ := (Option.any_eq_true _ _).mp status
  have admitted := claim.admitted
  unfold admissionError at admitted
  split at admitted
  · exact absurd admitted (by simp)
  split at admitted
  · -- without a pending execution the component owes no work at all
    rename_i unbegun
    have missing : db.pendingComponentExecutions.find (sessionId, encodeComponentKey component) = none := by
      simpa [Table.contains] using unbegun
    have idle : readPendingComponentWork db sessionId component = .ok [] := by
      simp [readPendingComponentWork, missing]
    rw [idle] at held
    exact absurd held (by decide)
  split at admitted
  · exact absurd admitted (by simp)
  · rename_i owned
    have queued := claims_owned_restarts_queued owned presented found
    rw [queued] at terminal
    exact absurd terminal (by decide)
  · split at admitted
    · exact absurd admitted (by simp)
    · rename_i unfinished work
      rw [work] at held
      cases unfinished with
      | nil => exact absurd held (by decide)
      | cons item rest => exact absurd admitted (by simp [unfinishedError])

def KeepsEnded (db next : Database) : Prop :=
  ∀ place row now, db.jobs.find place = some row → row.status.terminal = true → next.jobs.find place = some now →
    now.generation = row.generation → now.status.terminal = true

theorem ended_inactive {row : Job} (fenced : ExecutionsFenced db) (member : row ∈ db.jobs.rows)
    (ended : row.status.terminal = true) : row.activeExecutionId = none := by
  have running := (fenced row member).running
  cases active : row.activeExecutionId with
  | none => rfl
  | some executionId =>
      rw [active] at running
      rw [running.mpr rfl] at ended
      exact absurd ended (by decide)

theorem claim_keeps_ended {probe : Probe} {batches : List ExecutionClaimBatch} {outcomes : List (Result Claims)}
    (met : ∀ batch ∈ batches, presentsEndedJob db batch = true → heldBack db batch = true)
    (applied : applyExecutionClaimBatches db probe batches = .ok (outcomes, next)) : KeepsEnded db next := by
  intro place row now found ended after _
  obtain ⟨verdicts, judged, _, written⟩ := apply_execution_claim_batches_ok applied
  rw [written.jobs, found, Option.map_some, Option.some.injEq] at after
  rcases Table.rewritten_cases claimedAddress claimUpdate (acceptedJobs batches verdicts) place row with
    ⟨untouched, _⟩ | ⟨entry, inside, at_, _⟩
  · rw [untouched] at after
    exact after ▸ ended
  · obtain ⟨before, sessionId, component, rows, identity, listed, claim, job⟩ := mem_accepted_jobs judged inside
    obtain ⟨read, member, _, _, observed, node, jobId⟩ := mem_claimed_jobs claim job
    obtain ⟨presented, there, taken⟩ := (Lib.mem_of_collect claim.found).1 read member
    have same : (entry.1.nodeName, presented) = place := by
      simp only [Lib.orRaise_ok, claimRow, Option.map_eq_some_iff] at taken
      obtain ⟨stored, here, rfl⟩ := taken
      have key := Table.find_key here
      simp only [Job.address, Prod.mk.injEq] at key
      rw [← at_, claimedAddress, ExecutionOwner.address, node, jobId, key.2]
    have ended : presentsEndedJob db entry.1 = true := by
      refine List.any_eq_true.mpr ⟨presented, there, ?_⟩
      rw [same, found]
      exact ended
    exact (held_back_refused (met entry.1 listed ended) ended claim).elim

theorem terminal_keeps_ended {eventTime : Timestamp} {updates : List TerminalUpdate} {outcomes : List TerminalOutcome}
    (applied : applyTerminalUpdates db eventTime updates = .ok (outcomes, next)) : KeepsEnded db next := by
  intro place row now found ended after _
  obtain ⟨accepted, written⟩ := apply_terminal_updates_ok applied
  rw [written.jobs, found, Option.map_some, Option.some.injEq] at after
  rcases Table.rewritten_cases acceptedAddress terminalUpdateRow accepted place row with
    ⟨untouched, _⟩ | ⟨entry, _, _, rewritten⟩
  · rw [untouched] at after
    exact after ▸ ended
  · rw [rewritten] at after
    subst after
    simp only [terminalUpdateRow]
    cases entry.1.status <;> rfl

theorem release_keeps_ended (fenced : ExecutionsFenced db) (eventTime : Timestamp) (node : String)
    (jobId generation : Nat) (executionId : String) :
    KeepsEnded db (releaseUnstartedJobExecution db eventTime node jobId generation executionId).2 := by
  intro place row now found ended after _
  have inactive := ended_inactive fenced (Table.find_mem found) ended
  unfold releaseUnstartedJobExecution at after
  dsimp only at after
  split at after
  · rw [found, Option.some.injEq] at after
    exact after ▸ ended
  · dsimp only at after
    rw [Table.find_modify, found, Option.map_some, Option.some.injEq, if_neg (by simp [releaseGuard, inactive])] at after
    exact after ▸ ended

theorem cancel_keeps_ended {eventTime : Timestamp} {node : String} {jobId : Nat} {extra : Details}
    (applied : setJobStatus db eventTime node jobId .cancelled extra = .ok next) : KeepsEnded db next := by
  intro place row now found ended after _
  simp only [setJobStatus, Lib.bind_ok, Lib.pure_ok] at applied
  obtain ⟨_, _, rfl⟩ := applied
  dsimp only at after
  rw [Table.find_modify, found, Option.map_some, Option.some.injEq] at after
  subst after
  split
  · rfl
  · exact ended

theorem restart_keeps_ended {targets : List RestartTarget} {request : RestartRequest} {owned : Bool}
    (written : RestartsWritten db next targets request owned) : KeepsEnded db next := by
  intro place row now found ended after same
  rw [written.jobs, found, Option.map_some, Option.some.injEq] at after
  rcases Table.rewritten_cases RestartTarget.address (restartRow request) targets place row with
    ⟨untouched, _⟩ | ⟨target, inside, at_, rewritten⟩
  · rw [untouched] at after
    exact after ▸ ended
  · obtain ⟨stored, here, guarded⟩ := written.met target inside
    rw [at_, found, Option.some.injEq] at here
    subst here
    simp only [restartGuard, Bool.and_eq_true, decide_eq_true_eq] at guarded
    have raised : now.generation = target.generation + 1 := by
      rw [← after, rewritten]
      rfl
    omega

theorem fence_step_keeps_ended {label : FenceLabel} (fenced : ExecutionsFenced db) (step : FenceStep db label next)
    (met : ∀ batch ∈ label.batches, presentsEndedJob db batch = true → heldBack db batch = true) :
    KeepsEnded db next := by
  have unchanged : next.jobs = db.jobs → KeepsEnded db next := by
    intro same place row now found ended after _
    rw [same, found, Option.some.injEq] at after
    exact after ▸ ended
  cases step with
  | refused _ => exact unchanged rfl
  | elsewhere jobs _ _ _ => exact unchanged jobs
  | @applied _ write applied =>
      cases write with
      | claim probe batches =>
          obtain ⟨⟨outcomes, after⟩, done, rfl⟩ := Lib.map_ok.mp applied
          exact claim_keeps_ended met done
      | terminal eventTime updates =>
          obtain ⟨⟨outcomes, after⟩, done, rfl⟩ := Lib.map_ok.mp applied
          exact terminal_keeps_ended done
      | release eventTime node jobId generation executionId =>
          exact Except.ok.inj applied ▸ release_keeps_ended fenced eventTime node jobId generation executionId
      | cancel eventTime node jobId extra => exact cancel_keeps_ended applied
      | ownedRestart probe targets request plan =>
          rcases (apply_owned_restarts_ok applied).2 with ⟨_, rfl⟩ | ⟨_, written⟩
          · exact unchanged rfl
          · exact restart_keeps_ended written
      | independentRestart probe target request => exact restart_keeps_ended (apply_independent_restart_ok applied).2

def ControllerLabel.fence : ControllerLabel → FenceLabel
  | .write label => label
  | .retry probe request => .applied (.claim probe [request.batch])
  | .prepare _ _ _ => .elsewhere

theorem controller_step_cases {label : ControllerLabel} (step : ControllerStep db label next) :
    (FenceStep db label.fence next ∧ label.fence.batches = label.batches) ∨
      (JobsPrepared db next fun place => label.prepares place) := by
  cases step with
  | write fence => exact .inl ⟨fence, rfl⟩
  | retry _ applied => exact .inl ⟨.applied applied, rfl⟩
  | prepare applied => exact .inr (apply_job_preparation_ok applied)

theorem prepare_fenced {touched : JobAddress → Bool} (fenced : ExecutionsFenced db)
    (prepared : JobsPrepared db next touched) : ExecutionsFenced next := by
  intro row member
  have found := Table.find_of_mem member
  cases chosen : touched row.address with
  | true =>
      obtain ⟨queued, inactive⟩ := prepared.requeued row.address row chosen found
      constructor
      · rw [queued, inactive]
        decide
      · intro executionId active
        rw [inactive] at active
        exact absurd active (by simp)
  | false =>
      obtain ⟨jobs, instances⟩ := prepared.kept row.address chosen
      obtain ⟨running, owned⟩ := fenced row (Table.find_mem (jobs ▸ found))
      refine ⟨running, fun executionId active => ?_⟩
      obtain ⟨identity, owner, held⟩ := owned executionId active
      exact ⟨identity, owner, instances ▸ held.instanceRow, held.last, prepared.owners ▸ held.ownerRow, held.place,
        held.jobInstance, held.generation⟩

theorem controller_step_fenced {label : ControllerLabel} (fenced : ExecutionsFenced db)
    (step : ControllerStep db label next) : ExecutionsFenced next := by
  rcases controller_step_cases step with ⟨fence, _⟩ | prepared
  · exact fence_step_fenced fenced fence
  · exact prepare_fenced fenced prepared

theorem held_back_step_ended {label : ControllerLabel} {generation : Nat} (fenced : ExecutionsFenced db)
    (ended : Ended generation place db) (step : HeldBackStep db label next) (unprepared : label.prepares place = false) :
    Ended generation place next := by
  obtain ⟨row, found, outcome⟩ := ended
  rcases controller_step_cases step.1 with ⟨fence, batches⟩ | prepared
  · have rise := (fence_step_generations fence).1 place
    rw [found, Option.map_some, Option.map_eq_some_iff] at rise
    obtain ⟨now, after, generations⟩ := rise
    refine ⟨now, after, ?_⟩
    rcases outcome with restarted | ⟨same, terminal⟩
    · exact .inl (by omega)
    · by_cases raised : generation < now.generation
      · exact .inl raised
      · have level : now.generation = row.generation := by omega
        refine .inr ⟨by omega, ?_⟩
        exact fence_step_keeps_ended fenced fence (batches ▸ step.2) place row now found terminal after level
  · rw [← (prepared.kept place unprepared).1] at found
    exact ⟨row, found, outcome⟩

theorem held_back_run_ended {labels : List ControllerLabel} {generation : Nat} (fenced : ExecutionsFenced db)
    (ended : Ended generation place db) (run : Run HeldBackStep db labels next)
    (unprepared : ∀ label ∈ labels, label.prepares place = false) :
    ExecutionsFenced next ∧ Ended generation place next := by
  induction run with
  | nil => exact ⟨fenced, ended⟩
  | snoc _ last ih =>
      obtain ⟨before, kept⟩ := ih fun label member => unprepared label (List.mem_append_left _ member)
      have spared := unprepared _ (List.mem_append_right _ (List.mem_singleton_self _))
      exact ⟨controller_step_fenced before last.1, held_back_step_ended before kept last spared⟩

theorem held_back_claim_after_end {label : ControllerLabel} {generation : Nat} {now : Job}
    (fenced : ExecutionsFenced db) (ended : Ended generation place db) (step : HeldBackStep db label next)
    (claims : ClaimsJob db label next place) (found : db.jobs.find place = some now) :
    generation < now.generation := by
  obtain ⟨row, here, outcome⟩ := ended
  rw [found, Option.some.injEq] at here
  subst here
  rcases outcome with restarted | ⟨same, terminal⟩
  · exact restarted
  · obtain ⟨claimed, executionId, active, _⟩ := claims
    have quiet : label.prepares place = false ∧ label.fence.restarts place = 0 := by
      cases label with
      | write label =>
          refine ⟨rfl, ?_⟩
          cases label with
          | applied write => cases write <;> first | rfl | exact absurd rfl claimed
          | refused write => rfl
          | elsewhere => rfl
      | retry probe request => exact ⟨rfl, rfl⟩
      | prepare preparations keepTrace eventTime => exact absurd rfl claimed
    obtain ⟨after, there, _⟩ := held_back_step_ended fenced ⟨now, found, .inr ⟨same, terminal⟩⟩ step quiet.1
    rcases controller_step_cases step.1 with ⟨fence, batches⟩ | prepared
    · have rise := (fence_step_generations fence).1 place
      simp only [found, there, Option.map_some, quiet.2, Option.some.injEq, Nat.add_zero] at rise
      have still := fence_step_keeps_ended fenced fence (batches ▸ step.2) place now after found terminal there rise
      rw [there, Option.bind_some, ended_inactive (controller_step_fenced fenced step.1) (Table.find_mem there) still]
        at active
      exact absurd active (by simp)
    · rw [(prepared.kept place quiet.1).1, found, Option.bind_some,
        ended_inactive fenced (Table.find_mem found) terminal] at active
      exact absurd active (by simp)

structure FinishedWorkRests (db : Database) : Prop where
  rests : ∀ place row labels last, db.jobs.find place = some row → row.status.terminal = true →
    Run HeldBackStep db labels last → (∀ label ∈ labels, label.prepares place = false) →
    Ended row.generation place last ∧
      ∀ label next now, HeldBackStep last label next → ClaimsJob last label next place →
        last.jobs.find place = some now → row.generation < now.generation
  once : ∀ place generation executionId other label next labels later final last, HeldBackStep db label next →
    RecordsResult db next place generation executionId →
    Run HeldBackStep next labels later → (∀ label ∈ labels, label.prepares place = false) →
    HeldBackStep later final last → ¬ RecordsResult later last place generation other

theorem finished_work_rests {start : Database} {labels : List ControllerLabel} (fresh : FreshJobs start)
    (run : Run HeldBackStep start labels db) : FinishedWorkRests db := by
  have fenced : ExecutionsFenced db :=
    run.invariant (fresh_executions_fenced fresh) fun kept step => controller_step_fenced kept step.1
  constructor
  · intro place row labels last found terminal later unprepared
    obtain ⟨lastFenced, ended⟩ := held_back_run_ended fenced ⟨row, found, .inr ⟨rfl, terminal⟩⟩ later unprepared
    exact ⟨ended, fun _ _ _ step claims here => held_back_claim_after_end lastFenced ended step claims here⟩
  · intro place generation executionId other label next labels later final last first recorded between unprepared _ again
    obtain ⟨_, now, _, _, _, after, same, terminal⟩ := recorded
    have nextFenced := controller_step_fenced fenced first.1
    obtain ⟨laterFenced, ended⟩ := held_back_run_ended nextFenced ⟨now, after, .inr ⟨same, terminal⟩⟩ between unprepared
    obtain ⟨row, _, found, under, active, _⟩ := again
    obtain ⟨current, here, outcome⟩ := ended
    rw [found, Option.some.injEq] at here
    subst here
    rcases outcome with restarted | ⟨_, stopped⟩
    · omega
    · rw [ended_inactive laterFenced (Table.find_mem found) stopped] at active
      exact absurd active (by simp)

section OneNode

def oneNodeBegun : Database := { oneNodeProject with
  componentStates := ⟨[⟨["a"], 1, none, none, .running, none, none, false, 0⟩], by decide⟩
  pendingComponentExecutions := ⟨[⟨"s", ["a"], 1, 1, 0, false, .full, .queued, false, .stable, none⟩], by decide⟩ }

def oneNodeStep (write : JobWrite) : ControllerLabel := .write (.applied write)

theorem after_controller_step {write : JobWrite} (accepted : (write.apply db).isOk = true) :
    ControllerStep db (oneNodeStep write) (write.after db) := .write (after_step accepted)

def oneNodeClaimed : Database := (oneNodeClaim "e1").after oneNodeBegun
def oneNodeFinished : Database := (oneNodeDone "e1").after oneNodeClaimed
def oneNodeReclaimed : Database := (oneNodeClaim "e2").after oneNodeFinished
def oneNodeRefinished : Database := (oneNodeDone "e2").after oneNodeReclaimed

theorem one_node_begun_fresh : FreshJobs oneNodeBegun := one_node_fresh

-- A done job presented to another claim is executed a second time under its generation.
theorem done_job_executed_again :
    FreshJobs oneNodeBegun ∧
    Run ControllerStep oneNodeBegun [oneNodeStep (oneNodeClaim "e1"), oneNodeStep (oneNodeDone "e1")] oneNodeFinished ∧
    RecordsResult oneNodeClaimed oneNodeFinished ("a", 1) 0 "e1" ∧
    ControllerStep oneNodeFinished (oneNodeStep (oneNodeClaim "e2")) oneNodeReclaimed ∧
    ClaimsJob oneNodeFinished (oneNodeStep (oneNodeClaim "e2")) oneNodeReclaimed ("a", 1) ∧
    ControllerStep oneNodeReclaimed (oneNodeStep (oneNodeDone "e2")) oneNodeRefinished ∧
    RecordsResult oneNodeReclaimed oneNodeRefinished ("a", 1) 0 "e2" := by
  refine ⟨one_node_begun_fresh, .snoc (.snoc (.nil _) (after_controller_step ?_)) (after_controller_step ?_), ?_,
    after_controller_step ?_, ⟨by decide, "e2", ?_, ?_⟩, after_controller_step ?_, ?_⟩
  · decide
  · decide
  · exact ⟨_, _, rfl, rfl, rfl, rfl, rfl, rfl⟩
  · decide
  · decide
  · decide
  · decide
  · exact ⟨_, _, rfl, rfl, rfl, rfl, rfl, rfl⟩

theorem finished_work_rests_one_node : FinishedWorkRests oneNodeFinished := by
  have claimed : HeldBackStep oneNodeBegun (oneNodeStep (oneNodeClaim "e1")) oneNodeClaimed := by
    refine ⟨after_controller_step (by decide), fun batch member ended => ?_⟩
    rw [List.mem_singleton.mp member] at ended
    exact absurd ended (by decide)
  have finished : HeldBackStep oneNodeClaimed (oneNodeStep (oneNodeDone "e1")) oneNodeFinished :=
    ⟨after_controller_step (by decide), fun batch member => absurd member List.not_mem_nil⟩
  exact finished_work_rests one_node_begun_fresh (.snoc (.snoc (.nil _) claimed) finished)

end OneNode

end MicroWorkflow
