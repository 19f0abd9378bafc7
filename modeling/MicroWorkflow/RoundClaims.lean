import MicroWorkflow.ClaimsInTurn
import MicroWorkflow.RestartReaders
import MicroWorkflow.RoundOutcomes

set_option autoImplicit false

namespace MicroWorkflow

open Lib (require refuse orRaise each collect Table Run)

def restartExpectation (request : RestartRequest) (target : RestartTarget) (owner : ExecutionOwner) : OwnedRestart :=
  ⟨target.jobInstanceId, target.generation + 1, owner, some request.requestedAt⟩

def batchRestarts (batch : ExecutionClaimBatch) : List (JobAddress × OwnedRestart) :=
  (batch.jobIds.zip (batch.expectedRestarts.getD [])).filterMap fun entry =>
    entry.2.map fun expected => ((batch.nodeName, entry.1), expected)

def claimedRestarts (batches : List ExecutionClaimBatch) (outcomes : List (Result Claims)) :
    List (JobAddress × OwnedRestart) :=
  (batches.zip outcomes).flatMap fun entry => match entry.2 with
    | .ok _ => batchRestarts entry.1
    | .error _ => []

def RoundLabel.claims (place : JobAddress) (expected : OwnedRestart) : RoundLabel → Nat
  | .claim batches outcomes => (claimedRestarts batches outcomes).count (place, expected)
  | _ => 0

structure ExpectationMet (db : Database) (batch : ExecutionClaimBatch) (place : JobAddress) (expected : OwnedRestart) :
    Prop where
  session : batch.sessionId = some expected.owner.sessionId
  scope : batch.component = some expected.owner.componentKey
  producing : readComponentProducingIdentity db expected.owner.componentKey =
    .ok (expected.owner.shapeId, expected.owner.alignmentGeneration)
  job : ∃ row, db.jobs.find place = some row ∧ row.generation = expected.generation ∧ row.status = .queued ∧
    row.activeExecutionId = none ∧ row.restartRequestedAt = expected.restartRequestedAt
  marked : expected.restartRequestedAt.isSome = true
  owner : ∃ identity, db.jobInstances.find place = some identity ∧ identity.instanceId = expected.jobInstanceId ∧
    lastOwner db identity = some expected.owner

inductive RequestChange (row later : Job) : Prop where
  | kept : later.generation = row.generation → later.restartRequestedAt = row.restartRequestedAt →
      RequestChange row later
  | taken : later.generation = row.generation → later.restartRequestedAt = none → RequestChange row later
  | replaced : row.generation < later.generation → RequestChange row later

def RequestsChange (db next : Database) : Prop :=
  ∀ place later, next.jobs.find place = some later → ∃ row, db.jobs.find place = some row ∧ RequestChange row later

def Spent (db : Database) (place : JobAddress) (expected : OwnedRestart) : Prop :=
  ∀ row, db.jobs.find place = some row →
    expected.generation < row.generation ∨ (row.generation = expected.generation ∧ row.restartRequestedAt = none)

variable {db next : Database} {probe : Probe} {batch : ExecutionClaimBatch} {batches : List ExecutionClaimBatch}
  {place : JobAddress} {expected : OwnedRestart}

section Expectations

theorem expected_restart_none {sessionId : String} {component : Component}
    {pairs : List (Nat × Option OwnedRestart)} {jobId : Nat}
    (unchanged : expectedRestartError db batch sessionId component pairs = .ok none)
    (member : (jobId, some expected) ∈ pairs) :
    ∃ observed, readJobOwnerObservation db batch.nodeName jobId = .ok observed ∧
      restartStillExpected db batch.nodeName jobId sessionId component expected observed = true := by
  induction pairs with
  | nil => exact absurd member (by simp)
  | cons pair rest ih =>
      obtain ⟨other, restart⟩ := pair
      cases restart with
      | none =>
          rw [expectedRestartError] at unchanged
          rcases List.mem_cons.mp member with same | later
          · exact absurd (congrArg Prod.snd same) (by simp)
          · exact ih unchanged later
      | some restart =>
          rw [expectedRestartError, Lib.bind_ok] at unchanged
          obtain ⟨observed, seen, answered⟩ := unchanged
          by_cases still : restartStillExpected db batch.nodeName other sessionId component restart observed = true
          · rw [if_pos still] at answered
            rcases List.mem_cons.mp member with same | later
            · simp only [Prod.mk.injEq, Option.some.injEq] at same
              obtain ⟨rfl, rfl⟩ := same
              exact ⟨observed, seen, still⟩
            · exact ih answered later
          · rw [if_neg still] at answered
            exact absurd answered (by simp [pure, Except.pure])

theorem accepted_expectation {sessionId : String} {component : Component} {accepted : List JobAddress}
    {rows : List ClaimRow} {identity : Nat × Nat}
    (claim : AcceptedClaim db probe batch accepted sessionId component rows identity)
    (member : (place, expected) ∈ batchRestarts batch) : ExpectationMet db batch place expected := by
  simp only [batchRestarts, List.mem_filterMap, Option.map_eq_some_iff, Prod.mk.injEq] at member
  obtain ⟨⟨jobId, restart⟩, pair, _, rfl, rfl, rfl⟩ := member
  obtain ⟨observed, seen, still⟩ := expected_restart_none claim.expected pair
  cases observed with
  | none => exact absurd still (by simp [restartStillExpected])
  | some observed =>
      obtain ⟨row, located, found, readable, observes⟩ := read_observation_some seen
      simp only [restartStillExpected, found, Option.bind_some, Bool.and_eq_true, beq_iff_eq,
        Option.isNone_iff_eq_none] at still
      obtain ⟨⟨⟨⟨⟨⟨⟨⟨owner, jobInstance⟩, generation⟩, queued⟩, inactive⟩, session⟩, scope⟩, marked⟩, marker⟩ := still
      have unchanged := claim.unchanged
      simp only [restartIdentityChanged, List.any_eq_false] at unchanged
      have identified := unchanged _ (List.of_mem_zip pair).2
      simp only [bne_iff_ne, ne_eq, not_not] at identified
      constructor
      · rw [claim.session, session]
      · rw [claim.scope, scope]
      · rw [scope, identified]
        exact claim.producing
      · exact ⟨row, found, observes.generation.symm.trans generation, observes.status.symm.trans queued,
          observes.active.symm.trans inactive, marker⟩
      · rw [← marker]
        exact marked
      · have keyed := Table.find_key found
        exact ⟨located, keyed ▸ readable.found, observes.jobInstance.symm.trans jobInstance,
          observes.owner.symm.trans owner⟩

end Expectations

section Requests

theorem requests_change_same (jobs : next.jobs = db.jobs) : RequestsChange db next := by
  intro place later found
  exact ⟨later, jobs ▸ found, .kept rfl rfl⟩

theorem requests_change_of_rows {ι : Type} {items : List ι} {addr : ι → JobAddress} {f : ι → Job → Job}
    (jobs : ∀ place, next.jobs.find place = (db.jobs.find place).map (Table.rewritten addr f items place))
    (changes : ∀ item ∈ items, ∀ row, db.jobs.find (addr item) = some row → RequestChange row (f item row)) :
    RequestsChange db next := by
  intro place later found
  rw [jobs, Option.map_eq_some_iff] at found
  obtain ⟨row, here, same⟩ := found
  refine ⟨row, here, ?_⟩
  rcases Table.rewritten_cases addr f items place row with ⟨untouched, _⟩ | ⟨item, inside, addressed, rewritten⟩
  · rw [← same, untouched]
    exact .kept rfl rfl
  · rw [← same, rewritten]
    exact changes item inside row (addressed ▸ here)

theorem requests_change_of_modify (p : Job → Bool) (f : Job → Job)
    (jobs : ∀ place, next.jobs.find place = (db.jobs.find place).map fun row => if p row = true then f row else row)
    (changes : ∀ row, (f row).generation = row.generation ∧ (f row).restartRequestedAt = row.restartRequestedAt) :
    RequestsChange db next := by
  intro place later found
  rw [jobs, Option.map_eq_some_iff] at found
  obtain ⟨row, here, same⟩ := found
  refine ⟨row, here, ?_⟩
  by_cases chosen : p row = true
  · rw [if_pos chosen] at same
    exact same ▸ .kept (changes row).1 (changes row).2
  · rw [if_neg chosen] at same
    exact same ▸ .kept rfl rfl

theorem restart_requests {targets : List RestartTarget} {request : RestartRequest} {owned : Bool}
    (written : RestartsWritten db next targets request owned) : RequestsChange db next := by
  refine requests_change_of_rows written.jobs fun target inside row found => .replaced ?_
  obtain ⟨stored, here, guarded⟩ := written.met target inside
  obtain rfl := Option.some.inj (found.symm.trans here)
  simp only [restartGuard, Bool.and_eq_true, decide_eq_true_eq] at guarded
  simp only [restartRow, guarded.1.1.1.2]
  omega

theorem job_write_requests {write : JobWrite} (applied : write.apply db = .ok next) : RequestsChange db next := by
  cases write with
  | claim probe batches =>
      obtain ⟨⟨outcomes, after⟩, done, rfl⟩ := Lib.map_ok.mp applied
      obtain ⟨verdicts, _, _, written⟩ := apply_execution_claim_batches_ok done
      exact requests_change_of_rows written.jobs fun _ _ _ _ => .taken rfl rfl
  | terminal eventTime updates =>
      obtain ⟨⟨outcomes, after⟩, done, rfl⟩ := Lib.map_ok.mp applied
      obtain ⟨accepted, written⟩ := apply_terminal_updates_ok done
      exact requests_change_of_rows written.jobs fun _ _ _ _ => .kept rfl rfl
  | release eventTime node jobId generation executionId =>
      have same := Except.ok.inj applied
      by_cases missed : db.jobs.count (releaseGuard node jobId generation executionId) = 0
      · rw [releaseUnstartedJobExecution, if_pos missed] at same
        exact requests_change_same (same ▸ rfl)
      · rw [releaseUnstartedJobExecution, if_neg missed] at same
        subst same
        refine requests_change_of_modify (releaseGuard node jobId generation executionId) releaseRow (fun place => ?_)
          fun _ => ⟨rfl, rfl⟩
        dsimp only
        rw [Table.find_modify]
  | cancel eventTime node jobId extra =>
      simp only [JobWrite.apply, setJobStatus, Lib.bind_ok, Lib.pure_ok] at applied
      obtain ⟨_, _, rfl⟩ := applied
      refine requests_change_of_modify (fun row => row.address = (node, jobId)) (setStatusRow .cancelled extra)
        (fun place => ?_) fun _ => ⟨rfl, rfl⟩
      dsimp only
      rw [Table.find_modify]
  | ownedRestart probe targets request plan =>
      rcases (apply_owned_restarts_ok applied).2 with ⟨_, rfl⟩ | ⟨_, written⟩
      · exact requests_change_same rfl
      · exact restart_requests written
  | independentRestart probe target request => exact restart_requests (apply_independent_restart_ok applied).2

theorem round_step_requests {world after : RestartWorld} {label : RoundLabel} (opened : RoundsOpened world)
    (step : RoundStep world label after) : RequestsChange world.db after.db := by
  cases step with
  | committed found stage applied =>
      exact restart_requests (commit_round_together (opened _ (Table.find_mem found)) applied).written
  | @claimed probe batches outcomes next built applied =>
      have write : JobWrite.apply world.db (.claim probe batches) = .ok next := Lib.map_ok.mpr ⟨_, applied, rfl⟩
      exact job_write_requests write
  | written outside applied => exact job_write_requests applied
  | elsewhere jobs instances owners events => exact requests_change_same jobs
  | opened | answered | preflighted | prepared | staged | raised | aborted | dropped | recovered =>
      exact requests_change_same rfl

theorem RequestsChange.spent (change : RequestsChange db next) (spent : Spent db place expected) :
    Spent next place expected := by
  intro later found
  obtain ⟨row, here, changed⟩ := change place later found
  have before := spent row here
  cases changed with
  | kept generation marker =>
      rw [generation, marker]
      exact before
  | taken generation marker =>
      rw [generation, marker]
      rcases before with concluded | ⟨current, _⟩
      · exact .inl concluded
      · exact .inr ⟨current, rfl⟩
  | replaced raised =>
      rcases before with concluded | ⟨current, _⟩
      · exact .inl (Nat.lt_trans concluded raised)
      · exact .inl (current ▸ raised)

theorem Spent.unmet (spent : Spent db place expected) : ¬ExpectationMet db batch place expected := by
  intro met
  obtain ⟨row, found, generation, _, _, marker⟩ := met.job
  rcases spent row found with concluded | ⟨_, taken⟩
  · omega
  · have marked := met.marked
    rw [← marker, taken] at marked
    exact absurd marked (by simp)

end Requests

section Claimed

variable {accepted : List JobAddress} {verdicts : List Verdict}

theorem zip_restarts_sublist (node : String) (jobIds : List Nat) (restarts : List (Option OwnedRestart)) :
    (((jobIds.zip restarts).filterMap fun entry => entry.2.map fun expected => ((node, entry.1), expected)).map
      Prod.fst).Sublist (jobIds.map fun jobId => (node, jobId)) := by
  induction jobIds generalizing restarts with
  | nil => exact .slnil
  | cons jobId rest ih =>
      cases restarts with
      | nil => exact List.nil_sublist _
      | cons restart others =>
          cases restart with
          | none => exact (ih others).cons _
          | some expected => exact (ih others).cons_cons _

theorem mem_claimed_restarts {entry : JobAddress × OwnedRestart}
    (judged : batchVerdicts db probe batches accepted = .ok verdicts)
    (member : entry ∈ claimedRestarts batches (verdicts.map claimResults)) :
    ∃ batch ∈ batches, ∃ before sessionId component rows identity,
      AcceptedClaim db probe batch before sessionId component rows identity ∧ entry ∈ batchRestarts batch := by
  induction batches generalizing accepted verdicts with
  | nil => simp [claimedRestarts] at member
  | cons batch rest ih =>
      simp only [batchVerdicts, Lib.bind_ok, Lib.pure_ok] at judged
      obtain ⟨verdict, first, later, others, rfl⟩ := judged
      simp only [claimedRestarts, List.map_cons, List.zip_cons_cons, List.flatMap_cons, List.mem_append] at member
      rcases member with here | there
      · cases verdict with
        | error error => simp [claimResults] at here
        | ok jobs =>
            obtain ⟨sessionId, component, rows, identity, claim, _⟩ := batch_verdict_ok.mp first
            exact ⟨batch, List.mem_cons_self, accepted, sessionId, component, rows, identity, claim, here⟩
      · obtain ⟨other, inside, found⟩ := ih others there
        exact ⟨other, List.mem_cons_of_mem _ inside, found⟩

theorem claimed_restarts_sublist (judged : batchVerdicts db probe batches accepted = .ok verdicts)
    (built : ∀ batch ∈ batches, BuiltBatch batch) :
    ((claimedRestarts batches (verdicts.map claimResults)).map Prod.fst).Sublist
      ((acceptedJobs batches verdicts).map claimedAddress) := by
  induction batches generalizing accepted verdicts with
  | nil => simp [claimedRestarts]
  | cons batch rest ih =>
      simp only [batchVerdicts, Lib.bind_ok, Lib.pure_ok] at judged
      obtain ⟨verdict, first, later, others, rfl⟩ := judged
      have tail := ih others fun other member => built other (List.mem_cons_of_mem _ member)
      simp only [claimedRestarts, acceptedJobs, List.map_cons, List.zip_cons_cons, List.flatMap_cons, List.map_append]
      refine List.Sublist.append ?_ tail
      cases verdict with
      | error error => exact List.nil_sublist _
      | ok jobs =>
          obtain ⟨sessionId, component, rows, identity, claim, rfl⟩ := batch_verdict_ok.mp first
          have reads := @claimed_jobs_reads batch sessionId component identity rows (claimed_rows_jobs claim.found)
            (built batch List.mem_cons_self).identified
          simp only [claimResults, List.map_map]
          refine (zip_restarts_sublist batch.nodeName batch.jobIds (batch.expectedRestarts.getD [])).trans ?_
          rw [acceptedAddresses] at reads
          rw [← reads]
          exact List.Sublist.refl _

theorem claim_spends {outcomes : List (Result Claims)} (built : ∀ batch ∈ batches, BuiltBatch batch)
    (applied : applyExecutionClaimBatches db probe batches = .ok (outcomes, next)) :
    (claimedRestarts batches outcomes).Nodup ∧ ∀ place expected, (place, expected) ∈ claimedRestarts batches outcomes →
      (∃ batch ∈ batches, (place, expected) ∈ batchRestarts batch ∧ ExpectationMet db batch place expected) ∧
        Spent next place expected := by
  obtain ⟨verdicts, judged, rfl, written⟩ := apply_execution_claim_batches_ok applied
  have places := claimed_restarts_sublist judged built
  refine ⟨(places.nodup written.distinct).of_map, fun place expected member => ?_⟩
  obtain ⟨batch, inside, before, sessionId, component, rows, identity, claim, carried⟩ :=
    mem_claimed_restarts judged member
  have met := accepted_expectation claim carried
  refine ⟨⟨batch, inside, carried, met⟩, fun later found => ?_⟩
  obtain ⟨entry, listed, addressed⟩ := List.mem_map.mp (places.subset (List.mem_map_of_mem member))
  obtain ⟨row, here, generation, _⟩ := met.job
  rw [written.jobs, here, Option.map_some, Option.some.injEq] at found
  dsimp only at addressed
  rw [← addressed, Table.rewritten_mem written.distinct listed] at found
  rw [← found]
  exact .inr ⟨generation, rfl⟩

theorem round_step_claims {world after : RestartWorld} {label : RoundLabel} (step : RoundStep world label after)
    (place : JobAddress) (expected : OwnedRestart) :
    label.claims place expected ≤ 1 ∧ (0 < label.claims place expected →
      (∃ batch, ExpectationMet world.db batch place expected) ∧ Spent after.db place expected) := by
  cases step with
  | claimed built applied =>
      obtain ⟨distinct, spends⟩ := claim_spends built applied
      refine ⟨List.nodup_iff_count_le_one.mp distinct _, fun claims => ?_⟩
      obtain ⟨⟨batch, _, _, met⟩, spent⟩ := spends place expected (List.count_pos_iff.mp claims)
      exact ⟨⟨batch, met⟩, spent⟩
  | opened | answered | preflighted | prepared | staged | committed | raised | aborted | dropped | recovered | written
  | elsewhere =>
      exact ⟨Nat.zero_le _, fun claims => absurd claims (Nat.lt_irrefl 0)⟩

theorem round_run_claims {start world : RestartWorld} {labels : List RoundLabel} (opened : RoundsOpened start)
    (run : Run RoundStep start labels world) (place : JobAddress) (expected : OwnedRestart) :
    (labels.map fun label => label.claims place expected).sum ≤ 1 ∧
      (0 < (labels.map fun label => label.claims place expected).sum → Spent world.db place expected) := by
  induction run with
  | nil => simp
  | @snoc world after earlier label before step ih =>
      obtain ⟨once, spent⟩ := ih
      obtain ⟨single, claims⟩ := round_step_claims step place expected
      have change := round_step_requests (before.invariant opened round_step_opened) step
      simp only [List.map_append, List.map_cons, List.map_nil, List.sum_append, List.sum_singleton]
      by_cases already : 0 < (earlier.map fun label => label.claims place expected).sum
      · have unclaimed : label.claims place expected = 0 := by
          by_contra claimed
          obtain ⟨⟨batch, met⟩, _⟩ := claims (Nat.pos_of_ne_zero claimed)
          exact (spent already).unmet met
        rw [unclaimed]
        exact ⟨once, fun _ => change.spent (spent already)⟩
      · have none : (earlier.map fun label => label.claims place expected).sum = 0 := by omega
        rw [none, Nat.zero_add]
        exact ⟨single, fun claimed => (claims claimed).2⟩

end Claimed

section Recorded

theorem restart_recorded {round : RestartRound} {target : RestartTarget} (together : RestartedTogether db next round)
    (inside : target ∈ round.targets) : ∃ owner, target.owner = some owner ∧
      readOwnedRestart next target.node target.jobId owner.sessionId owner.componentKey =
        .ok (some (restartExpectation round.request target owner)) := by
  obtain ⟨probe, read⟩ := together.read
  have sorted : round.ordered.Perm round.targets := List.perm_insertionSort _ _
  have listed : target ∈ round.ordered := sorted.mem_iff.mpr inside
  have distinct : (round.ordered.map RestartTarget.address).Nodup := (sorted.map _).nodup_iff.mpr together.distinct
  obtain ⟨row, identity, owner, restarted, owns⟩ := owned_target_read (read.targets target inside)
  have persist := restarts_persist together.written
  have instances : next.jobInstances = db.jobInstances := by rw [together.written.others]
  have readable : ReadableJob next (restartRow round.request target row) identity :=
    restarted_readable persist instances restarted
  have place := Table.find_key restarted.found
  have found : next.jobs.find target.address = some (restartRow round.request target row) := by
    rw [together.written.jobs, restarted.found, Option.map_some, Table.rewritten_mem distinct listed]
  obtain ⟨observed, seen, _, observes⟩ := read_observation_readable (Table.find_mem found) readable
  have node : (restartRow round.request target row).nodeName = target.node := congrArg Prod.fst place
  have job : (restartRow round.request target row).jobId = target.jobId := congrArg Prod.snd place
  rw [node, job] at seen
  have latest := latest_restart_of_target distinct together.written listed
  obtain ⟨executionId, named, held⟩ := Option.bind_eq_some_iff.mp (restarted.owner ▸ owns : lastOwner db identity = _)
  obtain ⟨stored, here, execution⟩ := restarted.readable.last executionId named
  obtain rfl : owner = stored := Option.some.inj (held.symm.trans here)
  have owned : observed.owner = some owner := by
    rw [observes.owner, lastOwner, named, Option.bind_some]
    exact persist.owners executionId owner held
  have reached := execution.reached
  refine ⟨owner, owns, ?_⟩
  have superseded : owner.generation < target.generation + 1 := by
    rw [restarted.generation]
    omega
  have marker : (next.jobs.find (target.node, target.jobId)).bind Job.restartRequestedAt =
      some round.request.requestedAt := by
    rw [show (target.node, target.jobId) = target.address from rfl, found]
    rfl
  have generation : observed.generation = target.generation + 1 := observes.generation
  have jobInstance : observed.jobInstanceId = target.jobInstanceId := observes.jobInstance.trans restarted.jobInstance.symm
  have queued : observed.status = .queued := observes.status
  have inactive : observed.activeExecutionId = none := observes.active
  simp only [readOwnedRestart, seen, owned, bind, Except.bind, marker, latest, generation, jobInstance, queued, inactive]
  rw [if_neg]
  · simp [requestEvent, ownerData, owns, Details.get, Lib.require, pure, Except.pure, restartExpectation]
  · simp
    omega

end Recorded

section Rounds

def Passed (start : RestartWorld) (labels : List RoundLabel) (world before : RestartWorld) (label : RoundLabel)
    (after : RestartWorld) : Prop :=
  ∃ earlier later, labels = earlier ++ label :: later ∧ Run RoundStep start earlier before ∧
    RoundStep before label after ∧ Run RoundStep after later world

structure RestartRoundsKept (start : RestartWorld) (labels : List RoundLabel) (world : RestartWorld) : Prop where
  together : ∀ before label after operationId, Passed start labels world before label after →
    label.operation = some operationId → after.db = before.db ∨ (label = .round operationId .commit ∧
      ∃ round, before.rounds.find operationId = some round ∧ RestartedTogether before.db after.db round)
  once : ∀ operationId, labels.countP (RoundLabel.commits operationId) = world.committed operationId ∧
    world.committed operationId ≤ 1
  recorded : ∀ before after operationId round, Passed start labels world before (.round operationId .commit) after →
    before.rounds.find operationId = some round → ∀ target ∈ round.targets, ∃ owner, target.owner = some owner ∧
      readOwnedRestart after.db target.node target.jobId owner.sessionId owner.componentKey =
        .ok (some (restartExpectation round.request target owner))
  guarded : ∀ before batches outcomes after place expected,
    Passed start labels world before (.claim batches outcomes) after →
    (place, expected) ∈ claimedRestarts batches outcomes →
      ∃ batch ∈ batches, (place, expected) ∈ batchRestarts batch ∧ ExpectationMet before.db batch place expected
  claimed : ∀ place expected, (labels.map fun label => label.claims place expected).sum ≤ 1
  taken : ∀ before batches outcomes after place row later expected,
    Passed start labels world before (.claim batches outcomes) after → before.db.jobs.find place = some row →
    after.db.jobs.find place = some later → later ≠ row → expected.generation ≤ row.generation →
      ∀ batch, ¬ExpectationMet world.db batch place expected

variable {start world before after : RestartWorld} {labels : List RoundLabel} {label : RoundLabel}

theorem spent_stays (opened : RoundsOpened start) (spent : Spent start.db place expected)
    (run : Run RoundStep start labels world) : Spent world.db place expected := by
  induction run with
  | nil => exact spent
  | snoc earlier last ih =>
      exact (round_step_requests (earlier.invariant opened round_step_opened) last).spent ih

theorem claim_takes {outcomes : List (Result Claims)} {row later : Job}
    (applied : applyExecutionClaimBatches db probe batches = .ok (outcomes, next))
    (found : db.jobs.find place = some row) (there : next.jobs.find place = some later) (moved : later ≠ row)
    (reached : expected.generation ≤ row.generation) : Spent next place expected := by
  obtain ⟨verdicts, _, _, written⟩ := apply_execution_claim_batches_ok applied
  intro other same
  obtain rfl := Option.some.inj (there.symm.trans same)
  rw [written.jobs, found, Option.map_some, Option.some.injEq] at there
  rcases Table.rewritten_cases claimedAddress claimUpdate (acceptedJobs batches verdicts) place row with
    ⟨untouched, _⟩ | ⟨entry, _, _, rewritten⟩
  · exact absurd (there.symm.trans untouched) moved
  · rw [← there, rewritten]
    rcases Nat.lt_or_eq_of_le reached with concluded | current
    · exact .inl concluded
    · exact .inr ⟨current.symm, rfl⟩

theorem restart_rounds_kept {receipts : RestartReceipts} (run : Run RoundStep ⟨db, receipts, .empty⟩ labels world) :
    RestartRoundsKept ⟨db, receipts, .empty⟩ labels world := by
  have fresh : RoundsOpened ⟨db, receipts, .empty⟩ := fun round member => absurd member (by simp [Table.empty])
  constructor
  · intro before label after operationId passed named
    obtain ⟨earlier, later, _, reached, step, _⟩ := passed
    exact round_step_together (reached.invariant fresh round_step_opened) step named
  · intro operationId
    have counted := round_run_committed run operationId
    have none : RestartWorld.committed ⟨db, receipts, .empty⟩ operationId = 0 := rfl
    rw [none, Nat.zero_add] at counted
    exact ⟨counted.symm, committed_le_one world operationId⟩
  · intro before after operationId round passed found target inside
    obtain ⟨earlier, later, _, reached, step, _⟩ := passed
    have opened := reached.invariant fresh round_step_opened
    cases step with
    | committed held stage applied =>
        obtain rfl := Option.some.inj (held.symm.trans found)
        exact restart_recorded (commit_round_together (opened _ (Table.find_mem held)) applied) inside
  · intro before batches outcomes after place expected passed member
    obtain ⟨earlier, later, _, reached, step, _⟩ := passed
    cases step with
    | claimed built applied => exact ((claim_spends built applied).2 place expected member).1
  · exact fun place expected => (round_run_claims fresh run place expected).1
  · intro before batches outcomes after place row later expected passed found there moved reached
    obtain ⟨earlier, rest, _, led, step, follows⟩ := passed
    have opened := (led.invariant fresh round_step_opened)
    have kept := round_step_opened opened step
    cases step with
    | claimed built applied =>
        have spent := claim_takes applied found there moved reached
        exact fun batch => (spent_stays kept spent follows).unmet

end Rounds

section OneNode

def oneRoundId : String := "00000000000000000000000000000002"

def oneRoundTarget : RestartTarget :=
  ⟨"a", 1, .running, some oneNodeOwner, "00000000000000000000000000000001", 0, .running, some "e1"⟩

def oneRound : RestartRound :=
  ⟨oneRoundId, [oneRoundTarget], none, ⟨3, 9, "second-terminal restart"⟩, .requested, none⟩

def oneRoundAt (stage : RoundStage) (expected : Option RestartIntent) : RestartRound :=
  { oneRound with stage := stage, expected := expected }

def oneRoundAsked : RestartWorld := ⟨oneNodeClaimed, .empty, ⟨[oneRound], by simp⟩⟩

def oneRoundLocked : RestartWorld := oneRoundAsked.setRound oneRoundId .preflighted none

def oneRoundIntent : RestartIntent :=
  Lib.valueOr (prepareIntent oneNodeClaimed .empty oneNodeProbe (oneRoundAt .preflighted none))
    ⟨"", none, ⟨oneRound.request, none, [], []⟩⟩

def oneRoundReceipts : RestartReceipts := Lib.valueOr (prepareReceipt .empty oneRoundIntent) .empty

def oneRoundPrepared : RestartWorld :=
  { oneRoundLocked with receipts := oneRoundReceipts }.setRound oneRoundId .prepared (some oneRoundIntent)

def oneRoundStaged : RestartWorld := oneRoundPrepared.setRound oneRoundId .staged (some oneRoundIntent)

def oneRoundDecided : Database × RestartReceipts :=
  Lib.valueOr (commitRound oneNodeClaimed oneRoundReceipts oneNodeProbe true (oneRoundAt .staged (some oneRoundIntent)))
    (oneNodeClaimed, .empty)

def oneRoundCommitted : RestartWorld :=
  { oneRoundStaged with db := oneRoundDecided.1, receipts := oneRoundDecided.2 }.setRound oneRoundId .committed
    (some oneRoundIntent)

def oneRoundExpectation : OwnedRestart := restartExpectation oneRound.request oneRoundTarget oneNodeOwner

def oneRoundClaims : List ExecutionClaimBatch :=
  [⟨"a", [1], ["e2"], 4, 7, 1, 4, none, none, some "s", some ["a"], some [some oneRoundExpectation]⟩]

def oneRoundClaimed : List (Result Claims) × Database :=
  Lib.valueOr (applyExecutionClaimBatches oneRoundDecided.1 oneNodeProbe oneRoundClaims) ([], oneRoundDecided.1)

def oneRoundLabels : List RoundLabel :=
  [.round oneRoundId .request, .round oneRoundId .preflight, .round oneRoundId .prepare, .round oneRoundId .stage,
    .round oneRoundId .commit, .claim oneRoundClaims oneRoundClaimed.1]

theorem one_round_prepared : RoundStep oneRoundLocked (.round oneRoundId .prepare) oneRoundPrepared := by
  have found : oneRoundLocked.rounds.find oneRoundId = some (oneRoundAt .preflighted none) := rfl
  have intended : prepareIntent oneNodeClaimed .empty oneNodeProbe (oneRoundAt .preflighted none) = .ok oneRoundIntent :=
    Lib.ok_valueOr (by decide)
  have recorded : prepareReceipt .empty oneRoundIntent = .ok oneRoundReceipts := Lib.ok_valueOr (by decide)
  exact .prepared found rfl intended recorded

theorem one_round_committed : RoundStep oneRoundStaged (.round oneRoundId .commit) oneRoundCommitted := by
  have found : oneRoundStaged.rounds.find oneRoundId = some (oneRoundAt .staged (some oneRoundIntent)) := rfl
  have applied : commitRound oneRoundStaged.db oneRoundStaged.receipts oneNodeProbe true
      (oneRoundAt .staged (some oneRoundIntent)) = .ok oneRoundDecided := Lib.ok_valueOr (by decide)
  exact @RoundStep.committed _ oneNodeProbe _ _ oneRoundDecided.1 oneRoundDecided.2 found rfl applied

theorem one_round_claimed : RoundStep oneRoundCommitted (.claim oneRoundClaims oneRoundClaimed.1)
    { oneRoundCommitted with db := oneRoundClaimed.2 } := by
  have applied : applyExecutionClaimBatches oneRoundCommitted.db oneNodeProbe oneRoundClaims = .ok oneRoundClaimed :=
    Lib.ok_valueOr (by decide)
  refine .claimed (fun batch member => ?_) applied
  rw [List.mem_singleton.mp member]
  exact ⟨by simp, rfl, by simp, by simp, by simp⟩

-- A running job is restarted by one round and claimed once with what the round recorded.
theorem restart_rounds_kept_one_node :
    ∃ world, Run RoundStep ⟨oneNodeClaimed, .empty, .empty⟩ oneRoundLabels world ∧
      RestartRoundsKept ⟨oneNodeClaimed, .empty, .empty⟩ oneRoundLabels world ∧
      oneRoundLabels.countP (RoundLabel.commits oneRoundId) = 1 ∧
      (oneRoundLabels.map fun label => label.claims ("a", 1) oneRoundExpectation).sum = 1 := by
  have asked : RoundStep ⟨oneNodeClaimed, .empty, .empty⟩ (.round oneRoundId .request) oneRoundAsked :=
    @RoundStep.opened _ oneNodeProbe _ [oneRoundTarget] none oneRound.request oneRound _ rfl rfl
  have locked : RoundStep oneRoundAsked (.round oneRoundId .preflight) oneRoundLocked :=
    @RoundStep.preflighted _ oneNodeProbe _ oneRound rfl rfl (by decide) (by decide)
  have staged : RoundStep oneRoundPrepared (.round oneRoundId .stage) oneRoundStaged :=
    @RoundStep.staged oneRoundPrepared oneRoundId (oneRoundAt .prepared (some oneRoundIntent)) rfl rfl
  have run : Run RoundStep ⟨oneNodeClaimed, .empty, .empty⟩ oneRoundLabels _ :=
    .snoc (.snoc (.snoc (.snoc (.snoc (.snoc (.nil _) asked) locked) one_round_prepared) staged) one_round_committed)
      one_round_claimed
  exact ⟨_, run, restart_rounds_kept run, by decide, by decide⟩

end OneNode

end MicroWorkflow
