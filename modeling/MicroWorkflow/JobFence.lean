import MicroWorkflow.ClaimVerdicts
import MicroWorkflow.Terminal
import MicroWorkflow.Restart
import MicroWorkflow.Lib.Machine

set_option autoImplicit false

namespace MicroWorkflow

open Lib (Table Run)

inductive JobWrite where
  | claim (probe : Probe) (batches : List ExecutionClaimBatch)
  | terminal (eventTime : Timestamp) (updates : List TerminalUpdate)
  | release (eventTime : Timestamp) (node : String) (jobId generation : Nat) (executionId : String)
  | cancel (eventTime : Timestamp) (node : String) (jobId : Nat) (extra : Details)
  | ownedRestart (probe : Probe) (targets : List RestartTarget) (request : RestartRequest) (plan : Option RestartPlan)
  | independentRestart (probe : Probe) (target : RestartTarget) (request : RestartRequest)

def JobWrite.apply (db : Database) : JobWrite → Result Database
  | .claim probe batches => (applyExecutionClaimBatches db probe batches).map Prod.snd
  | .terminal eventTime updates => (applyTerminalUpdates db eventTime updates).map Prod.snd
  | .release eventTime node jobId generation executionId =>
      .ok (releaseUnstartedJobExecution db eventTime node jobId generation executionId).2
  | .cancel eventTime node jobId extra => setJobStatus db eventTime node jobId .cancelled extra
  | .ownedRestart probe targets request plan => applyOwnedRestarts db probe targets request plan
  | .independentRestart probe target request => applyIndependentRestart db probe target request

inductive FenceLabel where
  | applied (write : JobWrite)
  | refused (write : JobWrite)
  | elsewhere

inductive FenceStep : Database → FenceLabel → Database → Prop where
  | applied {db next : Database} {write : JobWrite} :
      write.apply db = .ok next → FenceStep db (.applied write) next
  | refused {db : Database} {write : JobWrite} {error : Error} :
      write.apply db = .error error → FenceStep db (.refused write) db
  | elsewhere {db next : Database} : next.jobs = db.jobs → next.jobInstances = db.jobInstances →
      next.jobExecutionOwners = db.jobExecutionOwners → next.jobEvents = db.jobEvents →
      FenceStep db .elsewhere next

def JobWrite.restarts (place : JobAddress) : JobWrite → Nat
  | .ownedRestart _ targets _ _ => (targets.map RestartTarget.address).count place
  | .independentRestart _ target _ => if target.address = place then 1 else 0
  | _ => 0

def FenceLabel.restarts (place : JobAddress) : FenceLabel → Nat
  | .applied write => write.restarts place
  | _ => 0

def FreshJob (db : Database) (row : Job) : Prop :=
  row.status = .queued ∧ row.generation = 0 ∧ row.activeExecutionId = none ∧
    ∃ identity, db.jobInstances.find row.address = some identity ∧ identity.lastExecutionId = none

def FreshJobs (db : Database) : Prop := ∀ row ∈ db.jobs.rows, FreshJob db row

structure OwnedBy (db : Database) (row : Job) (executionId : String) (identity : JobInstance)
    (owner : ExecutionOwner) : Prop where
  instanceRow : db.jobInstances.find row.address = some identity
  last : identity.lastExecutionId = some executionId
  ownerRow : db.jobExecutionOwners.find executionId = some owner
  place : owner.address = row.address
  jobInstance : owner.jobInstanceId = identity.instanceId
  generation : owner.generation = row.generation

structure Fenced (db : Database) (row : Job) : Prop where
  running : row.status = .running ↔ row.activeExecutionId.isSome = true
  owned : ∀ executionId, row.activeExecutionId = some executionId →
    ∃ identity owner, OwnedBy db row executionId identity owner

def ExecutionsFenced (db : Database) : Prop := ∀ row ∈ db.jobs.rows, Fenced db row

def GenerationsRise (db next : Database) (rise : JobAddress → Nat) : Prop :=
  ∀ place, (next.jobs.find place).map Job.generation = (db.jobs.find place).map fun row => row.generation + rise place

variable {db next : Database} {row : Job}

theorem fresh_executions_fenced (fresh : FreshJobs db) : ExecutionsFenced db := by
  intro row member
  obtain ⟨queued, _, inactive, _⟩ := fresh row member
  constructor
  · rw [queued, inactive]
    decide
  · intro executionId active
    rw [inactive] at active
    exact absurd active (by simp)

theorem fenced_of_ended (fenced : ExecutionsFenced db) (instances : next.jobInstances = db.jobInstances)
    (owners : next.jobExecutionOwners = db.jobExecutionOwners)
    (rows : ∀ row ∈ next.jobs.rows, row ∈ db.jobs.rows ∨ (row.activeExecutionId = none ∧ row.status ≠ .running)) :
    ExecutionsFenced next := by
  intro row member
  rcases rows row member with kept | ⟨inactive, stopped⟩
  · obtain ⟨running, owned⟩ := fenced row kept
    refine ⟨running, fun executionId active => ?_⟩
    obtain ⟨identity, owner, held⟩ := owned executionId active
    exact ⟨identity, owner, instances ▸ held.instanceRow, held.last, owners ▸ held.ownerRow, held.place,
      held.jobInstance, held.generation⟩
  · constructor
    · rw [inactive]
      simp [stopped]
    · intro executionId active
      rw [inactive] at active
      exact absurd active (by simp)

theorem rows_rewritten {ι : Type} {items : List ι} {addr : ι → JobAddress} {f : ι → Job → Job}
    (jobs : ∀ place, next.jobs.find place = (db.jobs.find place).map (Table.rewritten addr f items place))
    (member : row ∈ next.jobs.rows) :
    row ∈ db.jobs.rows ∨ ∃ item ∈ items, ∃ stored ∈ db.jobs.rows, row = f item stored ∧ addr item = row.address := by
  have found := Table.find_of_mem member
  rw [jobs, Option.map_eq_some_iff] at found
  obtain ⟨stored, here, same⟩ := found
  rcases Table.rewritten_cases addr f items row.address stored with ⟨untouched, _⟩ | ⟨item, inside, at_, rewritten⟩
  · rw [untouched] at same
    exact .inl (same ▸ Table.find_mem here)
  · rw [rewritten] at same
    exact .inr ⟨item, inside, stored, Table.find_mem here, same.symm, at_⟩

theorem claim_fenced {probe : Probe} {batches : List ExecutionClaimBatch} {outcomes : List (Result Claims)}
    (fenced : ExecutionsFenced db) (applied : applyExecutionClaimBatches db probe batches = .ok (outcomes, next)) :
    ExecutionsFenced next := by
  obtain ⟨verdicts, judged, _, written⟩ := apply_execution_claim_batches_ok applied
  have inserted := Table.insertAll_rows written.owners
  intro row member
  have found := Table.find_of_mem member
  rw [written.jobs, Option.map_eq_some_iff] at found
  obtain ⟨stored, here, same⟩ := found
  have instances := written.instances row.address
  rcases Table.rewritten_cases claimedAddress claimUpdate (acceptedJobs batches verdicts) row.address stored with
    ⟨untouched, absent⟩ | ⟨entry, inside, at_, rewritten⟩
  · rw [untouched] at same
    subst same
    obtain ⟨running, owned⟩ := fenced stored (Table.find_mem here)
    refine ⟨running, fun executionId active => ?_⟩
    obtain ⟨identity, owner, held⟩ := owned executionId active
    refine ⟨identity, owner, ?_, held.last, ?_, held.place, held.jobInstance, held.generation⟩
    · rw [instances, held.instanceRow, Option.map_some, Table.rewritten_absent absent]
    · have key := Table.find_key held.ownerRow
      rw [← key]
      exact Table.find_of_mem (inserted ▸ List.mem_append_left _ (Table.find_mem held.ownerRow))
  · rw [rewritten] at same
    subst same
    obtain ⟨_, _, _, _, _, _, claim, job⟩ := mem_accepted_jobs judged inside
    obtain ⟨read, _, identity, _, observed, _, _⟩ := mem_claimed_jobs claim job
    have owners : entry.2.owner ∈ next.jobExecutionOwners.rows :=
      inserted ▸ List.mem_append_right _ (List.mem_map_of_mem inside)
    refine ⟨by simp [claimUpdate], fun executionId active => ?_⟩
    simp only [claimUpdate, Option.some.injEq] at active
    subst active
    refine ⟨instanceUpdate entry identity, entry.2.owner, ?_, rfl, Table.find_of_mem owners, at_, observed.instanceId, ?_⟩
    · rw [instances, ← at_, claimedAddress, observed.instanceRow, Option.map_some]
      exact congrArg some (Table.rewritten_mem written.distinct inside)
    · have same : stored = read.job := by
        have located := observed.job
        rw [← claimedAddress, at_, here] at located
        exact Option.some.inj located
      exact observed.generation.trans (same ▸ rfl)

theorem terminal_fenced {eventTime : Timestamp} {updates : List TerminalUpdate} {outcomes : List TerminalOutcome}
    (fenced : ExecutionsFenced db) (applied : applyTerminalUpdates db eventTime updates = .ok (outcomes, next)) :
    ExecutionsFenced next := by
  obtain ⟨accepted, written⟩ := apply_terminal_updates_ok applied
  refine fenced_of_ended fenced (by rw [written.others]) (by rw [written.others]) fun row member => ?_
  rcases rows_rewritten written.jobs member with kept | ⟨entry, _, stored, _, rfl, _⟩
  · exact .inl kept
  · refine .inr ⟨rfl, ?_⟩
    simp only [terminalUpdateRow]
    cases entry.1.status <;> decide

theorem release_fenced (eventTime : Timestamp) (node : String) (jobId generation : Nat) (executionId : String)
    (fenced : ExecutionsFenced db) :
    ExecutionsFenced (releaseUnstartedJobExecution db eventTime node jobId generation executionId).2 := by
  unfold releaseUnstartedJobExecution
  dsimp only
  split
  · exact fenced
  · refine fenced_of_ended fenced rfl rfl fun row member => ?_
    dsimp only at member
    obtain ⟨stored, inside, same⟩ := Table.mem_modify.mp member
    split at same
    · exact .inr (same ▸ ⟨rfl, by simp [releaseRow]⟩)
    · exact .inl (same ▸ inside)

theorem cancel_fenced {eventTime : Timestamp} {node : String} {jobId : Nat} {extra : Details}
    (fenced : ExecutionsFenced db) (applied : setJobStatus db eventTime node jobId .cancelled extra = .ok next) :
    ExecutionsFenced next := by
  simp only [setJobStatus, Lib.bind_ok, Lib.pure_ok] at applied
  obtain ⟨_, _, rfl⟩ := applied
  refine fenced_of_ended fenced rfl rfl fun row member => ?_
  dsimp only at member
  obtain ⟨stored, inside, same⟩ := Table.mem_modify.mp member
  split at same
  · exact .inr (same ▸ ⟨rfl, by simp [setStatusRow, JobStatus.terminal]⟩)
  · exact .inl (same ▸ inside)

theorem restart_fenced {targets : List RestartTarget} {request : RestartRequest} {owned : Bool}
    (fenced : ExecutionsFenced db) (written : RestartsWritten db next targets request owned) :
    ExecutionsFenced next := by
  refine fenced_of_ended fenced (by rw [written.others]) (by rw [written.others]) fun row member => ?_
  rcases rows_rewritten written.jobs member with kept | ⟨target, _, stored, _, rfl, _⟩
  · exact .inl kept
  · exact .inr ⟨rfl, by simp [restartRow]⟩

theorem generations_rise_of_rows {ι : Type} {items : List ι} {addr : ι → JobAddress} {f : ι → Job → Job}
    (jobs : ∀ place, next.jobs.find place = (db.jobs.find place).map (Table.rewritten addr f items place))
    (same : ∀ item row, (f item row).generation = row.generation) : GenerationsRise db next fun _ => 0 := by
  intro place
  rw [jobs, Option.map_map]
  cases db.jobs.find place with
  | none => rfl
  | some row =>
      simp only [Option.map_some, Function.comp, Nat.add_zero, Option.some.injEq]
      rcases Table.rewritten_cases addr f items place row with ⟨untouched, _⟩ | ⟨item, _, _, rewritten⟩
      · rw [untouched]
      · rw [rewritten, same]

theorem restart_generations {targets : List RestartTarget} {request : RestartRequest} {owned : Bool}
    (distinct : (targets.map RestartTarget.address).Nodup)
    (written : RestartsWritten db next targets request owned) :
    GenerationsRise db next (targets.map RestartTarget.address).count := by
  intro place
  rw [written.jobs, Option.map_map]
  cases found : db.jobs.find place with
  | none => rfl
  | some row =>
      simp only [Option.map_some, Function.comp, Option.some.injEq]
      rcases Table.rewritten_cases RestartTarget.address (restartRow request) targets place row with
        ⟨untouched, absent⟩ | ⟨target, inside, at_, rewritten⟩
      · have never : place ∉ targets.map RestartTarget.address := by simpa using absent
        rw [untouched, List.count_eq_zero_of_not_mem never, Nat.add_zero]
      · have once : (targets.map RestartTarget.address).count place = 1 :=
          List.count_eq_one_of_mem distinct (at_ ▸ List.mem_map_of_mem inside)
        obtain ⟨stored, here, guarded⟩ := written.met target inside
        rw [at_, found] at here
        simp only [restartGuard, Bool.and_eq_true, decide_eq_true_eq] at guarded
        rw [rewritten, once, Option.some.inj here]
        simp only [restartRow, guarded.1.1.1.2]

theorem job_write_fenced {write : JobWrite} (fenced : ExecutionsFenced db) (applied : write.apply db = .ok next) :
    ExecutionsFenced next := by
  cases write with
  | claim probe batches =>
      obtain ⟨⟨outcomes, after⟩, done, rfl⟩ := Lib.map_ok.mp applied
      exact claim_fenced fenced done
  | terminal eventTime updates =>
      obtain ⟨⟨outcomes, after⟩, done, rfl⟩ := Lib.map_ok.mp applied
      exact terminal_fenced fenced done
  | release eventTime node jobId generation executionId =>
      exact Except.ok.inj applied ▸ release_fenced eventTime node jobId generation executionId fenced
  | cancel eventTime node jobId extra => exact cancel_fenced fenced applied
  | ownedRestart probe targets request plan =>
      rcases (apply_owned_restarts_ok applied).2 with ⟨_, rfl⟩ | ⟨_, written⟩
      · exact fenced
      · exact restart_fenced fenced written
  | independentRestart probe target request =>
      exact restart_fenced fenced (apply_independent_restart_ok applied).2

theorem release_generations (eventTime : Timestamp) (node : String) (jobId generation : Nat) (executionId : String) :
    GenerationsRise db (releaseUnstartedJobExecution db eventTime node jobId generation executionId).2 fun _ => 0 := by
  intro place
  unfold releaseUnstartedJobExecution
  dsimp only
  split
  · simp
  · dsimp only
    rw [Table.find_modify, Option.map_map]
    congr 1
    funext row
    simp only [Function.comp]
    split <;> rfl

theorem cancel_generations {eventTime : Timestamp} {node : String} {jobId : Nat} {extra : Details}
    (applied : setJobStatus db eventTime node jobId .cancelled extra = .ok next) :
    GenerationsRise db next fun _ => 0 := by
  simp only [setJobStatus, Lib.bind_ok, Lib.pure_ok] at applied
  obtain ⟨_, _, rfl⟩ := applied
  intro place
  dsimp only
  rw [Table.find_modify, Option.map_map]
  congr 1
  funext row
  simp only [Function.comp]
  split <;> rfl

theorem job_write_generations {write : JobWrite} (applied : write.apply db = .ok next) :
    GenerationsRise db next (fun place => write.restarts place) ∧ ∀ place, write.restarts place ≤ 1 := by
  cases write with
  | claim probe batches =>
      obtain ⟨⟨outcomes, after⟩, done, rfl⟩ := Lib.map_ok.mp applied
      obtain ⟨verdicts, _, _, written⟩ := apply_execution_claim_batches_ok done
      exact ⟨generations_rise_of_rows written.jobs fun _ _ => rfl, fun _ => Nat.zero_le _⟩
  | terminal eventTime updates =>
      obtain ⟨⟨outcomes, after⟩, done, rfl⟩ := Lib.map_ok.mp applied
      obtain ⟨accepted, written⟩ := apply_terminal_updates_ok done
      exact ⟨generations_rise_of_rows written.jobs fun _ _ => rfl, fun _ => Nat.zero_le _⟩
  | release eventTime node jobId generation executionId =>
      exact ⟨Except.ok.inj applied ▸ release_generations eventTime node jobId generation executionId,
        fun _ => Nat.zero_le _⟩
  | cancel eventTime node jobId extra => exact ⟨cancel_generations applied, fun _ => Nat.zero_le _⟩
  | ownedRestart probe targets request plan =>
      obtain ⟨distinct, outcome⟩ := apply_owned_restarts_ok applied
      refine ⟨?_, fun place => List.nodup_iff_count_le_one.mp distinct place⟩
      rcases outcome with ⟨rfl, rfl⟩ | ⟨_, written⟩
      · intro place
        simp [JobWrite.restarts]
      · have sorted : ((sortTargets targets).map RestartTarget.address).Perm (targets.map RestartTarget.address) :=
          (List.perm_insertionSort _ _).map _
        have rise := restart_generations (sorted.nodup_iff.mpr distinct) written
        intro place
        rw [rise]
        simp only [JobWrite.restarts, sorted.count_eq]
  | independentRestart probe target request =>
      have rise := restart_generations (by simp) (apply_independent_restart_ok applied).2
      refine ⟨fun place => ?_, fun place => ?_⟩
      · rw [rise]
        simp [JobWrite.restarts, List.count_singleton, beq_iff_eq]
      · simp only [JobWrite.restarts]
        split <;> omega

theorem fence_step_fenced {label : FenceLabel} (fenced : ExecutionsFenced db) (step : FenceStep db label next) :
    ExecutionsFenced next := by
  cases step with
  | applied applied => exact job_write_fenced fenced applied
  | refused _ => exact fenced
  | elsewhere jobs instances owners _ =>
      exact fenced_of_ended fenced instances owners fun row member => .inl (jobs ▸ member)

theorem fence_step_generations {label : FenceLabel} (step : FenceStep db label next) :
    GenerationsRise db next (fun place => label.restarts place) ∧ ∀ place, label.restarts place ≤ 1 := by
  cases step with
  | applied applied => exact job_write_generations applied
  | refused _ => exact ⟨fun place => by simp [FenceLabel.restarts], fun _ => Nat.zero_le _⟩
  | elsewhere jobs _ _ _ => exact ⟨fun place => by simp [FenceLabel.restarts, jobs], fun _ => Nat.zero_le _⟩

def restartsOf (labels : List FenceLabel) (place : JobAddress) : Nat :=
  (labels.map fun label => label.restarts place).sum

theorem GenerationsRise.trans {last : Database} {first second : JobAddress → Nat}
    (before : GenerationsRise db next first) (after : GenerationsRise next last second) :
    GenerationsRise db last fun place => first place + second place := by
  intro place
  have left := before place
  have right := after place
  cases here : db.jobs.find place with
  | none =>
      rw [here, Option.map_none, Option.map_eq_none_iff] at left
      rw [left, Option.map_none] at right
      rw [right, Option.map_none]
  | some row =>
      rw [here, Option.map_some, Option.map_eq_some_iff] at left
      obtain ⟨middle, found, same⟩ := left
      rw [found, Option.map_some, same] at right
      rw [right, Option.map_some, Nat.add_assoc]

theorem fence_run_generations {labels : List FenceLabel} (run : Run FenceStep db labels next) :
    GenerationsRise db next (restartsOf labels) := by
  induction run with
  | nil => exact fun place => by simp [restartsOf]
  | snoc _ last ih =>
      intro place
      rw [ih.trans (fence_step_generations last).1 place]
      simp only [restartsOf, List.map_append, List.map_cons, List.map_nil, List.sum_append, List.sum_singleton]

def terminalEventNames : List String := ["done", "failed", "cancelled", "skipped"]

structure StaleWritesVanish (db : Database) : Prop where
  single : ∀ eventTime update outcomes next, currentExecution db update = false →
    applyTerminalUpdates db eventTime [update] = .ok (outcomes, next) → next = db
  grouped : ∀ eventTime updates outcomes next, applyTerminalUpdates db eventTime updates = .ok (outcomes, next) →
    ∃ others, applyTerminalUpdates db eventTime (updates.filter (currentExecution db)) = .ok (others, next)
  released : ∀ eventTime node jobId generation executionId,
    (db.jobs.find (node, jobId)).any (releaseGuard node jobId generation executionId) = false →
      releaseUnstartedJobExecution db eventTime node jobId generation executionId = (false, db)

def TerminalsRecorded (db : Database) : Prop :=
  ∀ eventTime updates outcomes next, applyTerminalUpdates db eventTime updates = .ok (outcomes, next) →
    ∃ added, next.jobEvents = db.jobEvents ++ added ∧ (∀ event ∈ added, event.event ∈ terminalEventNames) ∧
      ∀ place, (added.map JobEvent.address).count place = if next.jobs.find place = db.jobs.find place then 0 else 1

theorem stale_writes_vanish (db : Database) : StaleWritesVanish db := by
  have grouped : ∀ eventTime updates outcomes next,
      applyTerminalUpdates db eventTime updates = .ok (outcomes, next) →
      ∃ others, applyTerminalUpdates db eventTime (updates.filter (currentExecution db)) = .ok (others, next) :=
    fun _ _ _ _ applied => apply_terminal_updates_stale applied
  refine ⟨fun eventTime update outcomes next stale applied => ?_, grouped, ?_⟩
  · obtain ⟨others, empty⟩ := grouped eventTime [update] outcomes next applied
    rw [List.filter_cons_of_neg (by simp [stale]), List.filter_nil] at empty
    simp only [applyTerminalUpdates, Lib.thread, Lib.bind_ok, Except.ok.injEq, Lib.pure_ok, Prod.mk.injEq] at empty
    obtain ⟨_, rfl, _, rfl⟩ := empty
    simp [Table.updateEach]
  · intro eventTime node jobId generation executionId stale
    have addressed : ∀ row, releaseGuard node jobId generation executionId row = true → row.address = (node, jobId) := by
      intro row guarded
      simp only [releaseGuard, Bool.and_eq_true, decide_eq_true_eq] at guarded
      exact guarded.1.1
    have none : db.jobs.count (releaseGuard node jobId generation executionId) = 0 := by
      rw [Table.count_one_key addressed, stale]
      rfl
    unfold releaseUnstartedJobExecution
    dsimp only
    rw [if_pos none]

theorem terminals_recorded (db : Database) : TerminalsRecorded db := by
  intro eventTime updates outcomes next applied
  obtain ⟨accepted, written⟩ := apply_terminal_updates_ok applied
  refine ⟨accepted.map (terminalEvent eventTime), written.events, ?_, fun place => ?_⟩
  · intro event member
    obtain ⟨entry, _, rfl⟩ := List.mem_map.mp member
    simp only [terminalEvent, terminalEventNames]
    cases entry.1.status <;> decide
  · have addresses : (accepted.map (terminalEvent eventTime)).map JobEvent.address = accepted.map acceptedAddress := by
      rw [List.map_map]
      rfl
    rw [addresses, written.jobs]
    by_cases inside : place ∈ accepted.map acceptedAddress
    · rw [List.count_eq_one_of_mem written.distinct inside, if_neg]
      obtain ⟨entry, member, rfl⟩ := List.mem_map.mp inside
      obtain ⟨_, row, found, guarded, _⟩ := written.current entry member
      rw [acceptedAddress, found, Option.map_some, Option.some.injEq]
      have ended : Table.rewritten acceptedAddress terminalUpdateRow accepted entry.1.address row =
          terminalUpdateRow entry row := Table.rewritten_mem written.distinct member
      rw [ended]
      intro same
      simp only [terminalStatusGuard, Bool.and_eq_true, decide_eq_true_eq] at guarded
      rw [← same] at guarded
      exact absurd guarded.2 (by simp [terminalUpdateRow])
    · rw [List.count_eq_zero_of_not_mem inside, if_pos]
      have absent : ∀ entry ∈ accepted, acceptedAddress entry ≠ place := by simpa using inside
      cases db.jobs.find place with
      | none => rfl
      | some row => rw [Option.map_some, Table.rewritten_absent absent]

theorem job_execution_fence {start db : Database} {labels : List FenceLabel} (fresh : FreshJobs start)
    (run : Run FenceStep start labels db) :
    (∀ row ∈ db.jobs.rows, ∀ executionId, row.activeExecutionId = some executionId →
      ∃ identity owner, OwnedBy db row executionId identity owner) ∧
    (∀ row ∈ db.jobs.rows, row.status = .running ↔ row.activeExecutionId.isSome = true) ∧
    GenerationsRise start db (restartsOf labels) ∧
    (∀ label next, FenceStep db label next →
      GenerationsRise db next (fun place => label.restarts place) ∧ ∀ place, label.restarts place ≤ 1) ∧
    StaleWritesVanish db ∧ TerminalsRecorded db := by
  have fenced : ExecutionsFenced db := run.invariant (fresh_executions_fenced fresh) fence_step_fenced
  exact ⟨fun row member => (fenced row member).owned, fun row member => (fenced row member).running,
    fence_run_generations run, fun _ _ step => fence_step_generations step, stale_writes_vanish db,
    terminals_recorded db⟩

section OneNode

def oneNodeClaim (executionId : String) : JobWrite :=
  .claim oneNodeProbe [⟨"a", [1], [executionId], 1, 7, 1, 1, none, none, some "s", some ["a"], none⟩]

def oneNodeDone (executionId : String) : JobWrite := .terminal 2 [⟨"a", 1, 0, executionId, .done, [], none⟩]

def oneNodeOwner : ExecutionOwner := ⟨"e1", "a", 1, "00000000000000000000000000000001", 0, "s", ["a"], 1, 0, none⟩

def oneNodeRestart : JobWrite :=
  .ownedRestart oneNodeProbe
    [⟨"a", 1, .running, some oneNodeOwner, "00000000000000000000000000000001", 0, .running, some "e1"⟩]
    ⟨3, 9, "second-terminal restart"⟩ none

def JobWrite.after (db : Database) (write : JobWrite) : Database := Lib.valueOr (write.apply db) db

theorem after_step {write : JobWrite} (accepted : (write.apply db).isOk = true) :
    FenceStep db (.applied write) (write.after db) := .applied (Lib.ok_valueOr accepted)

theorem one_node_fresh : FreshJobs oneNodeProject := by
  intro row member
  rw [List.mem_singleton.mp member]
  exact ⟨rfl, rfl, rfl, ⟨"a", 1, "00000000000000000000000000000001", none, none⟩, by decide, rfl⟩

def oneNodeWrites : List JobWrite := [oneNodeClaim "e1", oneNodeRestart, oneNodeClaim "e2"]

def oneNodeFenced : Database := oneNodeWrites.foldl JobWrite.after oneNodeProject

theorem one_node_fence_run : Run FenceStep oneNodeProject (oneNodeWrites.map .applied) oneNodeFenced :=
  .snoc (.snoc (.snoc (.nil _) (after_step (by decide))) (after_step (by decide))) (after_step (by decide))

-- The second execution owns the job in its raised generation, and the end of the first one writes nothing.
theorem job_execution_fence_one_node :
    ∃ row ∈ oneNodeFenced.jobs.rows, row.activeExecutionId = some "e2" ∧ row.generation = 1 ∧ row.status = .running ∧
      (∃ identity owner, OwnedBy oneNodeFenced row "e2" identity owner) ∧
      ∀ eventTime outcomes next,
        applyTerminalUpdates oneNodeFenced eventTime [⟨"a", 1, 0, "e1", .done, [], none⟩] = .ok (outcomes, next) →
          next = oneNodeFenced := by
  obtain ⟨owned, running, rises, _, stale, _⟩ := job_execution_fence one_node_fresh one_node_fence_run
  obtain ⟨row, found, active⟩ : ∃ row, oneNodeFenced.jobs.find ("a", 1) = some row ∧ row.activeExecutionId = some "e2" :=
    ⟨_, rfl, by decide⟩
  have member := Table.find_mem found
  have raised := rises ("a", 1)
  rw [found] at raised
  refine ⟨row, member, active, Option.some.inj raised, (running row member).mpr (by simp [active]),
    owned row member "e2" active, fun eventTime outcomes next applied => ?_⟩
  exact stale.single eventTime _ outcomes next (by decide) applied

end OneNode

end MicroWorkflow
