import MicroWorkflow.AcceptedRestarts
import MicroWorkflow.SessionExit

set_option autoImplicit false

namespace MicroWorkflow

open Lib (Table Run)

variable {db next : Database} {row : Job} {identity : JobInstance} {owner : ExecutionOwner}

section Readers

structure ReadersAnswer (db : Database) (row : Job) (owner : ExecutionOwner) : Prop where
  observation : ∃ observed, readJobOwnerObservation db row.nodeName row.jobId = .ok (some observed) ∧
    observed.owner = some owner ∧ ∃ claimed, isClaimedComponentRestart db observed owner = .ok claimed
  ownedRestart : ∀ sessionId component, ∃ restart,
    readOwnedRestart db row.nodeName row.jobId sessionId component = .ok restart
  pendingWork : ∀ sessionId component, ∃ unfinished, unfinishedJob db sessionId component row = .ok unfinished
  pendingExit : ∀ roots request known pending shapeJson decision,
    validateComponentTerminalOutcomes db owner.sessionId [pendingProposal pending shapeJson] = .ok () →
      ∃ next, considerPendingJob db owner.sessionId roots request known pending shapeJson decision row = .ok next
  attempts : ∀ (roots : List JobRoot) request decision attempt, (attempt.nodeName, attempt.jobId) = row.address →
    reservationOwner db (encodeComponentKey owner.componentKey) = some owner.sessionId →
    (roots ≠ [] → ∃ producing, readComponentProducingIdentity db owner.componentKey = .ok producing ∧
      jobDescendsFromSelectedRoot db roots owner.sessionId owner.componentKey producing
        (db.jobExecutionOwners.rows.length + 1) [] (some attempt.executionId) = .ok true) →
      ∃ next, considerAttempt db owner.sessionId roots request decision attempt = .ok next

variable {observed : JobOwnerObservation}

theorem read_observation_readable (member : row ∈ db.jobs.rows) (readable : ReadableJob db row identity) :
    ∃ observed, readJobOwnerObservation db row.nodeName row.jobId = .ok (some observed) ∧
      jobOwnerObservationFromRow db row = .ok observed ∧ Observes db row identity observed := by
  obtain ⟨observed, seen, observes⟩ := readable_observation readable
  refine ⟨observed, ?_, seen, observes⟩
  have found : db.jobs.find (row.nodeName, row.jobId) = some row := Table.find_of_mem member
  simp only [readJobOwnerObservation, found, seen, bind, Except.bind, pure, Except.pure]

theorem last_owner_place (readable : ReadableJob db row identity) (last : lastOwner db identity = some owner) :
    owner.address = row.address ∧ db.jobExecutionOwners.find owner.executionId = some owner ∧
      owner.createdByExecutionId = identity.createdByExecutionId := by
  obtain ⟨executionId, named, found⟩ := Option.bind_eq_some_iff.mp last
  obtain ⟨stored, here, execution⟩ := readable.last executionId named
  obtain rfl : owner = stored := Option.some.inj (found.symm.trans here)
  have keyed : owner.executionId = executionId := Table.find_key found
  exact ⟨execution.place, keyed ▸ found, execution.creator⟩

theorem owned_restart_answers (member : row ∈ db.jobs.rows) (state : RequestsReadable db row identity)
    (raised : 0 < row.generation) (last : lastOwner db identity = some owner)
    (running : sessionRunning db owner.sessionId = true) (sessionId : String) (component : Component) :
    ∃ restart, readOwnedRestart db row.nodeName row.jobId sessionId component = .ok restart ∧
      (sessionId = owner.sessionId → component = owner.componentKey → row.status = .queued →
        row.activeExecutionId = none → owner.generation < row.generation → restart.isSome = true) := by
  obtain ⟨observed, read, _, observes⟩ := read_observation_readable member (state.readable raised)
  have found : db.jobs.find (row.nodeName, row.jobId) = some row := Table.find_of_mem member
  have owned := observes.owner.trans last
  simp only [readOwnedRestart, read, owned, bind, Except.bind]
  by_cases waiting : (owner.sessionId != sessionId || owner.componentKey != component || observed.status != .queued
      || observed.activeExecutionId.isSome || decide (observed.generation ≤ owner.generation)) = true
  · rw [if_pos waiting]
    refine ⟨none, rfl, ?_⟩
    rintro rfl rfl queued inactive superseded
    simp [observes.status, observes.active, observes.generation, queued, inactive] at waiting
    omega
  · simp only [Bool.or_eq_true, not_or, bne_iff_ne, ne_eq, not_not, Bool.not_eq_true, Option.isSome_eq_false_iff,
      Option.isNone_iff_eq_none, decide_eq_true_eq, Nat.not_le] at waiting
    obtain ⟨⟨⟨⟨rfl, rfl⟩, queued⟩, inactive⟩, superseded⟩ := waiting
    rw [observes.generation] at superseded
    obtain ⟨event, force, named, marker⟩ := state.owed owner last running superseded
    obtain ⟨previous, recorded⟩ := state.recorded event force
    have same : previous.executionId = owner.executionId := by
      have both := recorded.execution.symm.trans named
      simpa using both
    have stored := (last_owner_place (state.readable raised) last).2.1
    obtain rfl : previous = owner := by
      have other := recorded.stored
      rw [same, stored, Option.some.injEq] at other
      exact other.symm
    refine ⟨some ⟨observed.jobInstanceId, observed.generation, previous, row.restartRequestedAt⟩, ?_,
      fun _ _ _ _ _ => rfl⟩
    have requestedAt := marker (observes.status ▸ queued)
    rw [if_neg]
    · simp [found, force.latest, requestedAt, force.names.1, force.names.2, observes.generation, observes.jobInstance,
        recorded.execution, recorded.session, recorded.scope, Lib.require, pure, Except.pure]
    · simp [queued, inactive, observes.generation]
      omega

theorem claimed_restart_answers (state : RequestsReadable db row identity) (raised : 0 < row.generation)
    (last : lastOwner db identity = some owner) (observes : Observes db row identity observed) :
    ∃ claimed, isClaimedComponentRestart db observed owner = .ok claimed := by
  have readable := state.readable raised
  obtain ⟨place, _, creator⟩ := last_owner_place readable last
  have node : owner.nodeName = row.nodeName := congrArg Prod.fst place
  have job : owner.jobId = row.jobId := congrArg Prod.snd place
  unfold isClaimedComponentRestart
  by_cases other : (owner.generation != observed.generation || observed.generation == 0) = true
  · rw [if_pos other]
    exact ⟨false, rfl⟩
  · rw [if_neg other, node, job]
    simp only [Bool.or_eq_true, not_or, bne_iff_ne, ne_eq, not_not, beq_iff_eq] at other
    cases requested : latestRestartEvent db row.nodeName row.jobId with
    | none => exact ⟨false, rfl⟩
    | some event =>
        by_cases apart : (event.data.get "generation" != .int observed.generation
            || event.data.get "job_instance_id" != .text observed.jobInstanceId) = true
        · refine ⟨false, ?_⟩
          dsimp only
          rw [if_pos apart]
          rfl
        · dsimp only
          rw [if_neg apart]
          simp only [Bool.or_eq_true, not_or, bne_iff_ne, ne_eq, not_not, observes.generation,
            observes.jobInstance] at apart
          have current : owner.generation = row.generation := other.1.trans observes.generation
          have force : InForce db row identity event := ⟨raised, requested, apart⟩
          obtain ⟨previous, recorded⟩ := state.recorded event force
          have continues := state.continued owner event previous last current force recorded
          have read : requestedExecution db event = .ok (some previous) := by
            simp only [requestedExecution, recorded.execution, readExecutionOwner, recorded.stored, recorded.readable,
              bind, Except.bind, pure, Except.pure]
          have before := recorded.before
          have previousPlace := recorded.place
          simp only [ExecutionOwner.address, Job.address, Prod.mk.injEq] at previousPlace
          have matched : continuesRequest event observed owner (some previous) = true := by
            simp [continuesRequest, recorded.session, recorded.scope, continues.session, continues.scope,
              continues.shape, continues.alignment, previousPlace, node, job, recorded.creator, creator,
              recorded.jobInstance, observes.jobInstance]
            omega
          refine ⟨true, ?_⟩
          simp only [read, matched, Lib.require, bind, Except.bind, if_true, pure, Except.pure]

theorem unfinished_job_answers (member : row ∈ db.jobs.rows) (fenced : Fenced db row)
    (state : RequestsReadable db row identity) (raised : 0 < row.generation)
    (last : lastOwner db identity = some owner) (running : sessionRunning db owner.sessionId = true)
    (sessionId : String) (component : Component) :
    ∃ unfinished, unfinishedJob db sessionId component row = .ok unfinished := by
  obtain ⟨observed, _, seen, observes⟩ := read_observation_readable member (state.readable raised)
  obtain ⟨claimed, answer⟩ := claimed_restart_answers state raised last observes
  obtain ⟨restart, owed, _⟩ := owned_restart_answers member state raised last running sessionId component
  have owned := observes.owner.trans last
  simp only [unfinishedJob, seen, owned, bind, Except.bind]
  by_cases foreign : (owner.sessionId != sessionId || owner.componentKey != component) = true
  · rw [if_pos foreign]
    exact ⟨none, rfl⟩
  rw [if_neg foreign]
  by_cases live : (row.status == .queued || row.status == .running) = true
  · rw [if_pos live, answer]
    cases claimed with
    | true => exact ⟨some row.address, rfl⟩
    | false =>
        by_cases busy : (row.status == .running) = true
        · simp only [busy, if_true]
          exact ⟨none, rfl⟩
        · have queued : row.status = .queued := by simpa [busy] using live
          have inactive : row.activeExecutionId.isSome = false := by
            rw [Bool.eq_false_iff]
            exact fun active => absurd (fenced.running.mpr active) (by simp [queued])
          simp [queued, observes.active, inactive, owed, Lib.refuse, pure, Except.pure]
  · rw [if_neg live]
    simp only [Bool.or_eq_true, not_or, beq_iff_eq] at live
    have inactive : row.activeExecutionId.isSome = false := by
      rw [Bool.eq_false_iff]
      exact fun active => live.2 (fenced.running.mpr active)
    simp [live.1, live.2, observes.active, inactive, Lib.refuse, pure, Except.pure]

theorem pending_exit_answers (member : row ∈ db.jobs.rows) (state : RequestsReadable db row identity)
    (raised : 0 < row.generation) (last : lastOwner db identity = some owner)
    (running : sessionRunning db owner.sessionId = true) (roots : List JobRoot) (request : ExitRequest)
    (known : List JobAddress) (pending : PendingComponentExecution) (shapeJson : Shape) (decision : NestedDecision)
    (valid : validateComponentTerminalOutcomes db owner.sessionId [pendingProposal pending shapeJson] = .ok ()) :
    ∃ next, considerPendingJob db owner.sessionId roots request known pending shapeJson decision row = .ok next := by
  have answers : ∀ accepted, ∃ expected,
      owedRestart db owner.sessionId accepted pending.componentKey row.address = .ok expected := by
    intro accepted
    cases accepted with
    | some restart => exact ⟨some restart, rfl⟩
    | none =>
        obtain ⟨restart, read, _⟩ := owned_restart_answers member state raised last running owner.sessionId
          pending.componentKey
        exact ⟨restart, read⟩
  have verdict : ∀ accepted, nestedVerdict db owner.sessionId (pendingProposal pending shapeJson) accepted = .ok true := by
    intro accepted
    rw [nestedVerdict, valid]
  unfold considerPendingJob
  dsimp only
  generalize (if roots.isEmpty then none else lookup decision.replacements row.address) = accepted
  split
  · exact ⟨decision, rfl⟩
  · obtain ⟨expected, read⟩ := answers accepted
    rw [read]
    cases expected with
    | none => exact ⟨decision, rfl⟩
    | some expected =>
        simp only [bind, Except.bind, verdict, if_true]
        split
        · exact ⟨_, rfl⟩
        · exact ⟨decision, rfl⟩

theorem attempt_answers (member : row ∈ db.jobs.rows) (state : RequestsReadable db row identity)
    (raised : 0 < row.generation) (last : lastOwner db identity = some owner)
    (running : sessionRunning db owner.sessionId = true) (roots : List JobRoot) (request : ExitRequest)
    (decision : Decision) (attempt : RestartAttempt) (place : (attempt.nodeName, attempt.jobId) = row.address)
    (reserved : reservationOwner db (encodeComponentKey owner.componentKey) = some owner.sessionId)
    (selected : roots ≠ [] → ∃ producing, readComponentProducingIdentity db owner.componentKey = .ok producing ∧
      jobDescendsFromSelectedRoot db roots owner.sessionId owner.componentKey producing
        (db.jobExecutionOwners.rows.length + 1) [] (some attempt.executionId) = .ok true) :
    ∃ next, considerAttempt db owner.sessionId roots request decision attempt = .ok next := by
  obtain ⟨observed, read, _, observes⟩ := read_observation_readable member (state.readable raised)
  have owned := observes.owner.trans last
  have node : attempt.nodeName = row.nodeName := congrArg Prod.fst place
  have job : attempt.jobId = row.jobId := congrArg Prod.snd place
  simp only [considerAttempt, node, job, read, owned, bind, Except.bind]
  by_cases successor : isSuccessor owner.sessionId attempt observed owner = true
  · rw [if_pos successor]
    simp only [isSuccessor, Bool.and_eq_true, beq_iff_eq, decide_eq_true_eq, Option.isNone_iff_eq_none] at successor
    obtain ⟨⟨⟨⟨⟨_, _⟩, generation⟩, superseded⟩, queued⟩, inactive⟩ := successor
    rw [observes.generation, ← generation] at superseded
    have inside : requireSelectedSuccessor db owner.sessionId roots attempt owner = .ok () := by
      unfold requireSelectedSuccessor
      by_cases whole : roots.isEmpty = true
      · rw [if_pos whole]
      · rw [if_neg whole]
        have some : roots ≠ [] := by simpa using whole
        obtain ⟨producing, identified, descends⟩ := selected some
        obtain ⟨restart, accepted, waits⟩ := owned_restart_answers member state raised last running owner.sessionId
          owner.componentKey
        have present := waits rfl rfl (observes.status ▸ queued) (observes.active ▸ inactive) superseded
        simp only [identified, descends, node, job, accepted, present, Lib.require, bind, Except.bind, if_true]
    unfold considerSuccessor
    simp only [inside, reserved, beq_self_eq_true, Lib.require, if_true, bind, Except.bind]
    split
    · exact ⟨_, rfl⟩
    · split
      · exact ⟨_, rfl⟩
      · exact ⟨_, rfl⟩
  · rw [if_neg successor]
    exact ⟨decision, rfl⟩

theorem readers_answer (member : row ∈ db.jobs.rows) (fenced : Fenced db row)
    (state : RequestsReadable db row identity) (raised : 0 < row.generation)
    (last : lastOwner db identity = some owner) (running : sessionRunning db owner.sessionId = true) :
    ReadersAnswer db row owner := by
  obtain ⟨observed, read, _, observes⟩ := read_observation_readable member (state.readable raised)
  refine ⟨⟨observed, read, observes.owner.trans last, claimed_restart_answers state raised last observes⟩, ?_, ?_, ?_, ?_⟩
  · intro sessionId component
    obtain ⟨restart, answer, _⟩ := owned_restart_answers member state raised last running sessionId component
    exact ⟨restart, answer⟩
  · exact unfinished_job_answers member fenced state raised last running
  · exact pending_exit_answers member state raised last running
  · exact attempt_answers member state raised last running

end Readers

section Runs

-- What the writers outside the execution path do to one job: nothing, delete, create, prepare, or requeue
-- it under the next generation.
inductive JobChange (db next : Database) (requeued : List JobAddress) (place : JobAddress) : Prop where
  | kept : next.jobs.find place = db.jobs.find place → next.jobInstances.find place = db.jobInstances.find place →
      latestRestartEvent next place.1 place.2 = latestRestartEvent db place.1 place.2 →
      JobChange db next requeued place
  | deleted : next.jobs.find place = none → JobChange db next requeued place
  | created {row : Job} : next.jobs.find place = some row → FreshJob next row → 1 ≤ row.jobId →
      JobChange db next requeued place
  | prepared {row : Job} {identity : JobInstance} : db.jobs.find place = some row →
      db.jobInstances.find place = some identity → next.jobs.find place = some (resetRow row) →
      next.jobInstances.find place = some { identity with lastExecutionId := none } →
      (latestRestartEvent next place.1 place.2 = latestRestartEvent db place.1 place.2 ∨
        latestRestartEvent next place.1 place.2 = none) → JobChange db next requeued place
  | requeued {row later : Job} {identity : JobInstance} : place ∈ requeued → db.jobs.find place = some row →
      ReadableJob db row identity → next.jobs.find place = some later → later.generation = row.generation + 1 →
      later.status = .queued → later.activeExecutionId = none → next.jobInstances.find place = some identity →
      (∀ event, latestRestartEvent next place.1 place.2 = some event → ¬Names event later identity) →
      JobChange db next requeued place

inductive RestartLabel where
  | write (write : JobWrite)
  | elsewhere (requeued : List JobAddress)

inductive RestartStep : Database → RestartLabel → Database → Prop where
  | write {db next : Database} {write : JobWrite} : write.apply db = .ok next → RestartStep db (.write write) next
  | elsewhere {db next : Database} {requeued : List JobAddress} : ScopesPersist db next →
      (∀ place, JobChange db next requeued place) → RestartStep db (.elsewhere requeued) next

def LastSessionEnded (db : Database) (place : JobAddress) : Prop :=
  ∀ identity owner, db.jobInstances.find place = some identity → lastOwner db identity = some owner →
    sessionRunning db owner.sessionId = false

-- No request without its owner's data is accepted for a running session's job, and no claim takes a request
-- away from where it was made.
def RequestsKept (db : Database) : RestartLabel → Prop
  | .write (.independentRestart _ target _) => LastSessionEnded db target.address
  | .write (.claim _ batches) => ∀ batch ∈ batches, ClaimContinues db batch
  | .write _ => True
  | .elsewhere requeued => ∀ place ∈ requeued, LastSessionEnded db place

def KeptStep (db : Database) (label : RestartLabel) (next : Database) : Prop :=
  RestartStep db label next ∧ RequestsKept db label

def NumberedJobs (db : Database) : Prop := ∀ row ∈ db.jobs.rows, 1 ≤ row.jobId

theorem fresh_job_readable (fresh : FreshJob db row) (numbered : 1 ≤ row.jobId) :
    ∃ identity, db.jobInstances.find row.address = some identity ∧ RequestsReadable db row identity := by
  obtain ⟨_, unraised, _, identity, found, unclaimed⟩ := fresh
  have forceless : ∀ event, ¬InForce db row identity event := by
    intro event force
    have raised := force.raised
    omega
  have ownerless : ∀ owner, lastOwner db identity ≠ some owner := by
    intro owner last
    rw [lastOwner, unclaimed] at last
    exact absurd last (by simp)
  refine ⟨identity, found, numbered, ?_, fun raised => ?_, fun event force => absurd force (forceless event),
    fun owner last => absurd last (ownerless owner), fun owner _ _ last => absurd last (ownerless owner)⟩
  · intro executionId last
    rw [unclaimed] at last
    exact absurd last (by simp)
  · omega

theorem prepared_job_readable (persist : ScopesPersist db next) (state : RequestsReadable db row identity)
    (found : next.jobInstances.find row.address = some { identity with lastExecutionId := none })
    (latest : latestRestartEvent next row.nodeName row.jobId = latestRestartEvent db row.nodeName row.jobId ∨
      latestRestartEvent next row.nodeName row.jobId = none) :
    RequestsReadable next (resetRow row) { identity with lastExecutionId := none } := by
  have back : ∀ event, InForce next (resetRow row) { identity with lastExecutionId := none } event →
      InForce db row identity event := by
    intro event force
    rcases latest with same | gone
    · exact ⟨force.raised, same.symm.trans force.latest, force.names⟩
    · exact absurd (gone.symm.trans force.latest) (by simp)
  refine ⟨state.numbered, fun _ last => absurd last (by simp), fun raised => ?_, fun event force => ?_,
    fun _ last => absurd last (by simp [lastOwner]), fun _ _ _ last => absurd last (by simp [lastOwner])⟩
  · have readable := state.readable raised
    exact ⟨found, readable.valid, creator_recorded_persists persist readable.creator,
      fun _ active => absurd active (by simp [resetRow]), fun _ last => absurd last (by simp)⟩
  · obtain ⟨previous, recorded⟩ := state.recorded event (back event force)
    have there := recorded.persist persist
    exact ⟨previous, there.execution, there.session, there.scope, there.stored, there.place, there.jobInstance,
      there.creator, there.before, there.readable⟩

theorem requeued_job_readable {later : Job} {place : JobAddress} (persist : ScopesPersist db next)
    (at_ : db.jobs.find place = some row) (numbered : 1 ≤ row.jobId) (readable : ReadableJob db row identity)
    (ended : LastSessionEnded db place) (there : next.jobs.find place = some later)
    (raised : later.generation = row.generation + 1) (inactive : later.activeExecutionId = none)
    (located : next.jobInstances.find place = some identity)
    (unnamed : ∀ event, latestRestartEvent next place.1 place.2 = some event → ¬Names event later identity) :
    RequestsReadable next later identity := by
  have before := Table.find_key at_
  have after := Table.find_key there
  have same : later.address = row.address := after.trans before.symm
  have node : later.nodeName = row.nodeName := congrArg Prod.fst same
  have forceless : ∀ event, ¬InForce next later identity event := by
    intro event force
    have latest := force.latest
    rw [show later.nodeName = place.1 from congrArg Prod.fst after,
      show later.jobId = place.2 from congrArg Prod.snd after] at latest
    exact unnamed event latest force.names
  have readableNow : ReadableJob next later identity := by
    have still := readable.persist persist (before ▸ located)
    refine ⟨after ▸ located, still.valid, still.creator, fun _ active => ?_, ?_⟩
    · rw [inactive] at active
      exact absurd active (by simp)
    · intro executionId last
      obtain ⟨owner, stored, execution⟩ := still.last executionId last
      have reached := execution.reached
      refine ⟨owner, stored, execution.session, execution.selected, execution.place.trans same.symm,
        execution.jobInstance, execution.creator, by omega, fun active => ?_, node ▸ execution.member,
        execution.readable⟩
      rw [inactive] at active
      exact absurd active (by simp)
  refine ⟨?_, ?_, fun _ => readableNow, fun event force => absurd force (forceless event), ?_,
    fun _ event _ _ _ force _ => absurd force (forceless event)⟩
  · rw [show later.jobId = row.jobId from congrArg Prod.snd same]
    exact numbered
  · intro executionId last
    obtain ⟨owner, stored, execution⟩ := readableNow.last executionId last
    exact ⟨owner, stored, execution.reached⟩
  · intro owner last running _
    obtain ⟨executionId, named, found⟩ := Option.bind_eq_some_iff.mp last
    obtain ⟨stored, here, execution⟩ := readable.last executionId named
    obtain rfl : owner = stored := Option.some.inj (found.symm.trans (persist.owners _ _ here))
    have still := persist.running execution.session running
    have gone := ended identity owner (before ▸ readable.found) (by rw [lastOwner, named, Option.bind_some, here])
    exact absurd (still.symm.trans gone) (by decide)

theorem job_changes_readable {requeued : List JobAddress} (persist : ScopesPersist db next)
    (changes : ∀ place, JobChange db next requeued place) (kept : ∀ place ∈ requeued, LastSessionEnded db place)
    (readable : RestartsReadable db) : RestartsReadable next := by
  intro later member
  have there : next.jobs.find later.address = some later := Table.find_of_mem member
  cases changes later.address with
  | kept jobs instances latest =>
      rw [jobs] at there
      obtain ⟨identity, found, state⟩ := readable later (Table.find_mem there)
      have located := instances.trans found
      exact ⟨identity, located, requests_readable_settled persist (Settles.refl later) state located latest⟩
  | deleted gone => exact absurd (gone.symm.trans there) (by simp)
  | created found fresh numbered =>
      obtain rfl := Option.some.inj (there.symm.trans found)
      exact fresh_job_readable fresh numbered
  | @prepared row identity before instanceBefore after instanceAfter latest =>
      obtain rfl := Option.some.inj (there.symm.trans after)
      obtain ⟨other, found, state⟩ := readable row (Table.find_mem before)
      obtain rfl := Option.some.inj (found.symm.trans instanceBefore)
      exact ⟨_, instanceAfter, prepared_job_readable persist state instanceAfter latest⟩
  | @requeued row other identity listed before read after raised _ inactive located unnamed =>
      obtain rfl := Option.some.inj (there.symm.trans after)
      obtain ⟨_, _, state⟩ := readable row (Table.find_mem before)
      exact ⟨identity, located, requeued_job_readable persist before state.numbered read (kept _ listed) after raised
        inactive located unnamed⟩

theorem job_changes_fenced {requeued : List JobAddress} (persist : ScopesPersist db next)
    (changes : ∀ place, JobChange db next requeued place) (fenced : ExecutionsFenced db) : ExecutionsFenced next := by
  intro later member
  have there : next.jobs.find later.address = some later := Table.find_of_mem member
  have resting : later.status = .queued → later.activeExecutionId = none → Fenced next later := by
    intro queued inactive
    refine ⟨by simp [queued, inactive], fun executionId active => ?_⟩
    rw [inactive] at active
    exact absurd active (by simp)
  cases changes later.address with
  | kept jobs instances _ =>
      rw [jobs] at there
      obtain ⟨running, owned⟩ := fenced later (Table.find_mem there)
      refine ⟨running, fun executionId active => ?_⟩
      obtain ⟨identity, owner, held⟩ := owned executionId active
      exact ⟨identity, owner, instances.trans held.instanceRow, held.last, persist.owners _ _ held.ownerRow, held.place,
        held.jobInstance, held.generation⟩
  | deleted gone => exact absurd (gone.symm.trans there) (by simp)
  | created found fresh _ =>
      obtain rfl := Option.some.inj (there.symm.trans found)
      exact resting fresh.1 fresh.2.2.1
  | prepared _ _ after _ _ =>
      obtain rfl := Option.some.inj (there.symm.trans after)
      exact resting rfl rfl
  | requeued _ _ _ after _ queued inactive _ _ =>
      obtain rfl := Option.some.inj (there.symm.trans after)
      exact resting queued inactive

theorem kept_step_readable {label : RestartLabel} (readable : RestartsReadable db)
    (step : KeptStep db label next) : RestartsReadable next := by
  obtain ⟨taken, kept⟩ := step
  cases taken with
  | elsewhere persist changes => exact job_changes_readable persist changes kept readable
  | @write _ write applied =>
      cases write with
      | claim probe batches =>
          obtain ⟨⟨outcomes, after⟩, done, rfl⟩ := Lib.map_ok.mp applied
          exact claim_restarts_readable readable kept done
      | terminal eventTime updates =>
          obtain ⟨⟨outcomes, after⟩, done, rfl⟩ := Lib.map_ok.mp applied
          exact terminal_restarts_readable readable done
      | release eventTime node jobId generation executionId =>
          exact Except.ok.inj applied ▸ release_restarts_readable eventTime node jobId generation executionId readable
      | cancel eventTime node jobId extra => exact cancel_restarts_readable readable applied
      | ownedRestart probe targets request plan => exact owned_restarts_readable readable applied
      | independentRestart probe target request => exact independent_restart_readable readable kept applied

theorem kept_step_fenced {label : RestartLabel} (fenced : ExecutionsFenced db) (step : KeptStep db label next) :
    ExecutionsFenced next := by
  cases step.1 with
  | elsewhere persist changes => exact job_changes_fenced persist changes fenced
  | write applied => exact job_write_fenced fenced applied

theorem accepted_restarts_stay_readable {start db : Database} {labels : List RestartLabel} (fresh : FreshJobs start)
    (numbered : NumberedJobs start) (run : Run KeptStep start labels db) :
    ∀ row ∈ db.jobs.rows, 0 < row.generation → ∀ identity owner, db.jobInstances.find row.address = some identity →
      lastOwner db identity = some owner → sessionRunning db owner.sessionId = true → ReadersAnswer db row owner := by
  have initial : RestartsReadable start := fun row member => fresh_job_readable (fresh row member) (numbered row member)
  have readable : RestartsReadable db := run.invariant initial kept_step_readable
  have fenced : ExecutionsFenced db := run.invariant (fresh_executions_fenced fresh) kept_step_fenced
  intro row member raised identity owner located last running
  obtain ⟨other, found, state⟩ := readable row member
  obtain rfl := Option.some.inj (found.symm.trans located)
  exact readers_answer member (fenced row member) state raised last running

end Runs

section OneNode

def oneNodeRetry : JobWrite :=
  .independentRestart oneNodeProbe
    ⟨"a", 1, .independent,
      some ⟨"e1", "a", 1, "00000000000000000000000000000001", 0, "s", ["a"], 1, 0, none⟩,
      "00000000000000000000000000000001", 0, .done, none⟩ ⟨3, 9, "manual restart"⟩

def oneNodeRetried : Database := oneNodeRetry.after oneNodeFinished

def oneNodeExit : ExitRequest := ⟨"finished", 4, [], [], [], [], [], []⟩

theorem after_restart_step {write : JobWrite} (accepted : (write.apply db).isOk = true) :
    RestartStep db (.write write) (write.after db) := .write (Lib.ok_valueOr accepted)

-- The accepted retry of a done job stops every later claim and exit of its session.
theorem done_job_retry_unreadable :
    FreshJobs oneNodeBegun ∧
    (∃ labels, Run RestartStep oneNodeBegun labels oneNodeRetried) ∧
    oneNodeRetried.executionSessions.find "s" = some oneNodeSession ∧
    (executionSessionLiveness oneNodeProbe oneNodeSession).live = true ∧
    readOwnedRestart oneNodeRetried "a" 1 "s" ["a"] =
      .error (.runtime "Nested component restart has inconsistent accepted-request metadata") ∧
    readPendingComponentWork oneNodeRetried "s" ["a"] =
      .error (.runtime "Nested component restart has inconsistent accepted-request metadata") ∧
    ∀ coverage, decideExecutionSessionExit oneNodeRetried oneNodeProbe coverage "s" oneNodeExit =
      .error (.runtime "Nested component restart has inconsistent accepted-request metadata") := by
  refine ⟨one_node_begun_fresh, ⟨_, .snoc (.snoc (.snoc (.nil _) (after_restart_step ?_)) (after_restart_step ?_))
    (after_restart_step ?_)⟩, by decide, by decide, by decide, by decide, fun coverage => ?_⟩
  · decide
  · decide
  · decide
  · rfl

theorem one_node_begun_numbered : NumberedJobs oneNodeBegun := by
  intro row member
  rw [List.mem_singleton.mp member]
  decide

def oneNodeRequeued : Database := oneNodeRestart.after oneNodeClaimed

theorem accepted_restarts_stay_readable_one_node :
    ∃ row ∈ oneNodeRequeued.jobs.rows, 0 < row.generation ∧ ReadersAnswer oneNodeRequeued row oneNodeOwner := by
  have claimed : KeptStep oneNodeBegun (.write (oneNodeClaim "e1")) oneNodeClaimed := by
    refine ⟨after_restart_step (by decide), fun batch _ sessionId component producing _ _ _ jobId _ row identity found _
      raised => ?_⟩
    rw [List.mem_singleton.mp (Table.find_mem found)] at raised
    exact absurd raised (by decide)
  have restarted : KeptStep oneNodeClaimed (.write oneNodeRestart) oneNodeRequeued :=
    ⟨after_restart_step (by decide), trivial⟩
  have run : Run KeptStep oneNodeBegun _ oneNodeRequeued := .snoc (.snoc (.nil _) claimed) restarted
  obtain ⟨row, found, raised⟩ : ∃ row, oneNodeRequeued.jobs.find ("a", 1) = some row ∧ 0 < row.generation :=
    ⟨_, rfl, by decide⟩
  have member := Table.find_mem found
  have keyed := Table.find_key found
  refine ⟨row, member, raised, ?_⟩
  exact accepted_restarts_stay_readable one_node_begun_fresh one_node_begun_numbered run row member raised
    ⟨"a", 1, "00000000000000000000000000000001", some "e1", none⟩ oneNodeOwner (keyed ▸ by decide) (by decide) (by decide)

end OneNode

end MicroWorkflow
