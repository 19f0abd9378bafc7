import MicroWorkflow.GroupedClaims

set_option autoImplicit false

namespace MicroWorkflow

open Lib (require refuse orRaise each collect Table)

variable {db mid : Database} {probe : Probe} {batch : ExecutionClaimBatch} {claimed : Accepted}
  {accepted : List JobAddress} {sessionId : String} {component : Component} {identity : Nat × Nat}
  {rows : List ClaimRow}

theorem claimed_jobs_reads (found : rows.map (fun read => read.job.jobId) = batch.jobIds)
    (identified : batch.executionIds.length = batch.jobIds.length) :
    (claimedJobs batch sessionId component identity rows).map (fun job => job.owner.address) =
      acceptedAddresses batch := by
  have sized : rows.length ≤ batch.executionIds.length := by
    rw [identified, ← found, List.length_map]
  have paired : (rows.zip batch.executionIds).zipIdx.map (Prod.fst ∘ Prod.fst) = rows := by
    rw [← List.map_map, List.zipIdx_map_fst, List.map_fst_zip sized]
  rw [acceptedAddresses, ← found, List.map_map]
  conv_rhs => rw [← paired]
  rw [claimedJobs, List.map_map, List.map_map]
  rfl

theorem claimed_jobs_executions (found : rows.map (fun read => read.job.jobId) = batch.jobIds)
    (identified : batch.executionIds.length = batch.jobIds.length) :
    (claimedJobs batch sessionId component identity rows).map (fun job => job.owner.executionId) =
      batch.executionIds := by
  have sized : batch.executionIds.length ≤ rows.length := by
    rw [identified, ← found, List.length_map]
  have paired : (rows.zip batch.executionIds).zipIdx.map (Prod.snd ∘ Prod.fst) = batch.executionIds := by
    rw [← List.map_map, List.zipIdx_map_fst, List.map_snd_zip sized]
  conv_rhs => rw [← paired]
  rw [claimedJobs, List.map_map]
  rfl

theorem expected_restart_total {expected : List (Nat × Option OwnedRestart)}
    (readable : ∀ entry ∈ expected, ∃ observed, readJobOwnerObservation db batch.nodeName entry.1 = .ok observed) :
    ∃ answer, expectedRestartError db batch sessionId component expected = .ok answer := by
  induction expected with
  | nil => exact ⟨none, rfl⟩
  | cons entry rest ih =>
      obtain ⟨jobId, restart⟩ := entry
      have later := ih fun entry member => readable entry (List.mem_cons_of_mem _ member)
      cases restart with
      | none => exact later
      | some restart =>
          obtain ⟨observed, seen⟩ := readable _ List.mem_cons_self
          obtain ⟨answer, rest⟩ := later
          simp only [expectedRestartError, seen, bind, Except.bind]
          split
          · exact ⟨answer, rest⟩
          · exact ⟨_, rfl⟩

theorem claimable_observed {jobId : Nat} (found : claimedRows db batch = .ok rows)
    (claimable : validateClaimedRows db batch accepted rows = .ok ()) (presented : jobId ∈ batch.jobIds) :
    ∃ observed, readJobOwnerObservation db batch.nodeName jobId = .ok observed := by
  rw [← claimed_rows_jobs found] at presented
  obtain ⟨read, member, rfl⟩ := List.mem_map.mp presented
  by_cases history : read.hasHistory = true
  · exact has_history_observed claimable member history
  obtain ⟨here, located⟩ := mem_claimed_rows found member
  simp only [validateClaimedRows, Lib.bind_ok, Lib.require_ok, Lib.refuse_ok, List.all_eq_true, List.any_eq_false,
    Bool.or_eq_true, not_or] at claimable
  obtain ⟨_, valid, _, free, _⟩ := claimable
  have identified := valid read member
  have inactive : read.job.activeExecutionId = none := by simpa using (free read member).1
  cases found : read.jobInstance with
  | none => simp [ClaimRow.instanceIsValid, found] at identified
  | some instanceRow =>
      simp only [ClaimRow.instanceIsValid, found] at identified
      simp only [ClaimRow.hasHistory, found, Bool.or_eq_true, not_or, Bool.not_eq_true, Option.isSome_eq_false_iff,
        Option.isNone_iff_eq_none] at history
      have address := Table.find_key here
      have there : db.jobInstances.find read.job.address = some instanceRow := by
        rw [address, ← located, found]
      refine ⟨some ⟨instanceRow.instanceId, read.job.generation, read.job.status, none, read.job.activePid,
        read.job.activeStartedAt, .unclaimed, none, none⟩, ?_⟩
      simp [readJobOwnerObservation, jobOwnerObservationFromRow, here, there, identified, inactive, history,
        creatorRecorded, Lib.orRaise, require, refuse, bind, Except.bind, pure, Except.pure]

theorem fences_readable (total : ∃ verdict, batchVerdict db probe batch accepted = .ok verdict) : FencesReadable db batch := by
  obtain ⟨verdict, judged⟩ := total
  intro sessionId component session scope inside unblocked
  cases read : readInterruptExecutionFences db sessionId (encodeComponentKey component) with
  | ok fences => exact ⟨fences, rfl⟩
  | error error =>
      simp [batchVerdict, session, scope, claimOwnerError, inside, unblocked, read, bind, Except.bind] at judged

theorem batch_verdict_total (readable : FencesReadable db batch) :
    ∃ verdict, batchVerdict db probe batch accepted = .ok verdict := by
  unfold batchVerdict
  cases session : batch.sessionId with
  | none => exact ⟨_, rfl⟩
  | some sessionId =>
  cases scope : batch.component with
  | none => exact ⟨_, rfl⟩
  | some component =>
  have judged : ∃ answer, claimOwnerError db probe batch.nodeName sessionId component = .ok answer := by
    unfold claimOwnerError
    by_cases outside : batch.nodeName ∉ component
    · rw [if_pos outside]
      exact ⟨_, rfl⟩
    rw [if_neg outside]
    dsimp only
    by_cases blocked : (!(readInterruptClaimBlockers db sessionId component).isEmpty) = true
    · rw [if_pos blocked]
      exact ⟨_, rfl⟩
    rw [if_neg blocked]
    obtain ⟨fences, read⟩ := readable sessionId component session scope (not_not.mp outside) (by simpa using blocked)
    simp only [read, bind, Except.bind]
    split
    · exact ⟨_, rfl⟩
    split
    · exact ⟨_, rfl⟩
    · exact ⟨_, rfl⟩
  obtain ⟨answer, judged⟩ := judged
  simp only [judged, bind, Except.bind]
  cases answer with
  | some error => exact ⟨_, rfl⟩
  | none =>
  dsimp only
  cases found : claimedRows db batch with
  | error error => exact ⟨_, rfl⟩
  | ok rows =>
  dsimp only
  cases claimable : validateClaimedRows db batch accepted rows with
  | error error => exact ⟨_, rfl⟩
  | ok _ =>
  obtain ⟨answer, expected⟩ := @expected_restart_total db batch sessionId component
    (batch.jobIds.zip (batch.expectedRestarts.getD []))
    fun entry member => claimable_observed found claimable (List.of_mem_zip member).1
  simp only [expected]
  cases answer with
  | some error => exact ⟨_, rfl⟩
  | none =>
  dsimp only
  split
  · exact ⟨_, rfl⟩
  split
  · exact ⟨_, rfl⟩
  split
  · exact ⟨_, rfl⟩
  split
  · exact ⟨_, rfl⟩
  split
  · exact ⟨_, rfl⟩
  · exact ⟨_, rfl⟩

theorem batch_verdicts_total {batches : List ExecutionClaimBatch} (accepted : List JobAddress)
    (readable : ∀ batch ∈ batches, FencesReadable db batch) :
    ∃ verdicts, batchVerdicts db probe batches accepted = .ok verdicts := by
  induction batches generalizing accepted with
  | nil => exact ⟨[], rfl⟩
  | cons batch rest ih =>
      have ⟨fences, others⟩ := List.forall_mem_cons.mp readable
      obtain ⟨verdict, judged⟩ := @batch_verdict_total db probe batch accepted fences
      obtain ⟨verdicts, later⟩ := ih (acceptedBy batch accepted verdict) others
      exact ⟨verdict :: verdicts, by simp only [batchVerdicts, judged, later, bind, Except.bind, pure, Except.pure]⟩

theorem fences_read_of_verdicts {batches : List ExecutionClaimBatch} {verdicts : List Verdict}
    (judged : batchVerdicts db probe batches accepted = .ok verdicts) : ∀ batch ∈ batches, FencesReadable db batch := by
  induction batches generalizing accepted verdicts with
  | nil => exact fun _ listed => nomatch listed
  | cons batch rest ih =>
      simp only [batchVerdicts, Lib.bind_ok] at judged
      obtain ⟨verdict, first, later, others, _⟩ := judged
      exact List.forall_mem_cons.mpr ⟨fences_readable ⟨verdict, first⟩, ih others⟩

theorem write_claims_append {last : Database} {more : Accepted} (first : writeClaims db claimed = .ok mid)
    (second : writeClaims mid more = .ok last) : writeClaims db (claimed ++ more) = .ok last := by
  by_cases none : claimed = []
  · subst none
    simp only [writeClaims, List.isEmpty_nil, if_true, Lib.pure_ok] at first
    exact first ▸ second
  by_cases nothing : more = []
  · subst nothing
    simp only [writeClaims, List.isEmpty_nil, if_true, Lib.pure_ok] at second
    rw [List.append_nil, ← second]
    exact first
  have some : claimed.isEmpty = false := by simpa using none
  have others : more.isEmpty = false := by simpa using nothing
  simp only [writeClaims, some, Bool.false_eq_true, if_false, Lib.bind_ok, Lib.require_ok, Lib.orRaise_ok, Lib.pure_ok,
    beq_iff_eq] at first
  obtain ⟨_, jobs, owners, inserted, _, instances, rfl⟩ := first
  simp only [writeClaims, others, Bool.false_eq_true, if_false, Lib.bind_ok, Lib.require_ok, Lib.orRaise_ok,
    Lib.pure_ok, beq_iff_eq] at second
  obtain ⟨_, moreJobs, moreOwners, moreInserted, _, moreInstances, rfl⟩ := second
  have all : (claimed ++ more).isEmpty = false := by simp [none]
  simp only [writeClaims, all, Bool.false_eq_true, if_false, Table.updateEach_append, Table.insertAll_append,
    List.map_append, List.flatMap_append, List.length_append, inserted, Option.bind_some, Lib.bind_ok, Lib.require_ok,
    Lib.orRaise_ok, Lib.pure_ok, beq_iff_eq, jobs, moreJobs, instances, moreInstances]
  exact ⟨(), trivial, moreOwners, moreInserted, (), trivial, by rw [List.append_assoc]⟩

theorem AcceptedClaim.read_job (claim : AcceptedClaim db probe batch accepted sessionId component rows identity)
    {job : ClaimedJob} (member : job ∈ claimedJobs batch sessionId component identity rows) :
    ∃ stored instanceRow, ClaimRead db job stored instanceRow := by
  obtain ⟨read, _, instanceRow, _, observed, _⟩ := mem_claimed_jobs claim member
  exact ⟨read.job, instanceRow, observed⟩

def claimsOf (batch : ExecutionClaimBatch) (jobs : List ClaimedJob) : Accepted := jobs.map fun job => (batch, job)

theorem write_claims_total (places : (claimed.map claimedAddress).Nodup)
    (reads : ∀ entry ∈ claimed, ∃ stored instanceRow, ClaimRead db entry.2 stored instanceRow)
    (distinct : (claimed.map fun entry => entry.2.owner.executionId).Nodup)
    (free : ∀ entry ∈ claimed, db.jobExecutionOwners.find entry.2.owner.executionId = none) :
    ∃ next, writeClaims db claimed = .ok next := by
  have jobsMet : ∀ entry ∈ claimed, ∃ row, db.jobs.find (claimedAddress entry) = some row ∧ claimGuard entry row = true := by
    intro entry member
    obtain ⟨stored, instanceRow, read⟩ := reads entry member
    refine ⟨stored, read.job, ?_⟩
    simp [claimGuard, Table.find_key read.job, read.generation, read.inactive]
  have instancesMet : ∀ entry ∈ claimed,
      ∃ row, db.jobInstances.find (claimedAddress entry) = some row ∧ instanceGuard entry row = true := by
    intro entry member
    obtain ⟨stored, instanceRow, read⟩ := reads entry member
    exact ⟨instanceRow, read.instanceRow, decide_eq_true (Table.find_key read.instanceRow)⟩
  have owners : ∃ owners, db.jobExecutionOwners.insertAll (claimed.map fun entry => entry.2.owner) = some owners := by
    refine Table.insertAll_some (fun owner member => ?_) ?_
    · obtain ⟨entry, listed, rfl⟩ := List.mem_map.mp member
      exact free entry listed
    · rw [List.map_map]
      exact distinct
  obtain ⟨owners, inserted⟩ := owners
  by_cases none : claimed = []
  · exact ⟨db, by simp [writeClaims, none]⟩
  have some : claimed.isEmpty = false := by simpa using none
  simp only [writeClaims, some, Bool.false_eq_true, if_false, Lib.bind_ok, Lib.require_ok, Lib.orRaise_ok, Lib.pure_ok,
    beq_iff_eq]
  exact ⟨_, (), Table.updateEach_count (fun _ _ => claim_guard_address) places jobsMet, owners, inserted, (),
    Table.updateEach_count (fun _ _ guarded => of_decide_eq_true guarded) places instancesMet, rfl⟩

section Claimed

variable (built : BuiltBatch batch)
  (claim : AcceptedClaim db probe batch accepted sessionId component rows identity)
include built claim

theorem claims_of_addresses :
    (claimsOf batch (claimedJobs batch sessionId component identity rows)).map claimedAddress = acceptedAddresses batch := by
  rw [← @claimed_jobs_reads batch sessionId component identity rows (claimed_rows_jobs claim.found) built.identified,
    claimsOf, List.map_map]
  rfl

theorem claims_of_executions :
    (claimsOf batch (claimedJobs batch sessionId component identity rows)).map (fun entry => entry.2.owner.executionId) =
      batch.executionIds := by
  rw [← @claimed_jobs_executions batch sessionId component identity rows (claimed_rows_jobs claim.found) built.identified,
    claimsOf, List.map_map]
  rfl

omit claim in
theorem accepted_addresses_nodup : (acceptedAddresses batch).Nodup :=
  built.distinct.map fun _ _ same => (Prod.mk.inj same).2

theorem write_batch_total (distinct : batch.executionIds.Nodup)
    (free : ∀ executionId ∈ batch.executionIds, db.jobExecutionOwners.find executionId = none) :
    ∃ next, writeClaims db (claimsOf batch (claimedJobs batch sessionId component identity rows)) = .ok next := by
  apply write_claims_total
  · rw [claims_of_addresses built claim]
    exact accepted_addresses_nodup built
  · intro entry member
    obtain ⟨job, inside, rfl⟩ := List.mem_map.mp member
    exact claim.read_job inside
  · rw [claims_of_executions built claim]
    exact distinct
  · intro entry member
    refine free _ ?_
    rw [← claims_of_executions built claim]
    exact List.mem_map_of_mem member

end Claimed

theorem grouped_claims_one {verdict : Verdict} {next : Database}
    (judged : batchVerdict db probe batch [] = .ok verdict)
    (wrote : writeClaims db (acceptedJobs [batch] [verdict]) = .ok next) :
    groupedClaims db probe [batch] = ([claimResults verdict], next) := by
  simp [groupedClaims, applyExecutionClaimBatches, judge_batches_eq (empty_caches_valid db), batchVerdicts, judged,
    wrote, bind, Except.bind, pure, Except.pure]

structure InTurn (db mid : Database) (probe : Probe) (taken : List ExecutionClaimBatch) (claimed : Accepted)
    (accepted : List JobAddress) : Prop where
  written : writeClaims db claimed = .ok mid
  unused : claimed.Unused db
  entries : ClaimedEntries db probe claimed
  members : ∀ entry ∈ claimed, entry.1 ∈ taken
  presented : ∀ batch ∈ taken, ∀ jobId ∈ batch.jobIds, ∃ entry ∈ claimed, entry.1 = batch ∧ entry.2.owner.jobId = jobId
  addresses : ∀ place, place ∈ accepted ↔ ¬ claimed.Spares place

theorem InTurn.start : InTurn db db probe [] [] [] where
  written := rfl
  unused _ listed := absurd listed List.not_mem_nil
  entries _ listed := absurd listed List.not_mem_nil
  members _ listed := absurd listed List.not_mem_nil
  presented _ listed := absurd listed List.not_mem_nil
  addresses place := by simp [Accepted.Spares]

variable {taken : List ExecutionClaimBatch}

theorem InTurn.accept (turn : InTurn db mid probe taken claimed accepted) {next : Database} (built : BuiltBatch batch)
    (unused : ∀ executionId ∈ batch.executionIds, Unused db executionId)
    (claim : AcceptedClaim db probe batch accepted sessionId component rows identity)
    (wrote : writeClaims mid (claimsOf batch (claimedJobs batch sessionId component identity rows)) = .ok next) :
    InTurn db next probe (taken ++ [batch])
      (claimed ++ claimsOf batch (claimedJobs batch sessionId component identity rows))
      (accepted ++ acceptedAddresses batch) where
  written := write_claims_append turn.written wrote
  unused := by
    intro entry member
    rcases List.mem_append.mp member with old | new
    · exact turn.unused entry old
    · obtain ⟨job, inside, rfl⟩ := List.mem_map.mp new
      exact unused _ (claimed_jobs_owner inside).2.2.2.2
  entries := by
    intro entry member
    rcases List.mem_append.mp member with old | new
    · exact turn.entries entry old
    · obtain ⟨job, inside, rfl⟩ := List.mem_map.mp new
      exact ⟨sessionId, component, identity, built, accepted, rows, claim, inside⟩
  members := by
    intro entry member
    rcases List.mem_append.mp member with old | new
    · exact List.mem_append_left _ (turn.members entry old)
    · obtain ⟨job, _, rfl⟩ := List.mem_map.mp new
      exact List.mem_append_right _ List.mem_cons_self
  presented := by
    intro other member jobId inside
    rcases List.mem_append.mp member with old | new
    · obtain ⟨entry, listed, here⟩ := turn.presented other old jobId inside
      exact ⟨entry, List.mem_append_left _ listed, here⟩
    · obtain rfl := List.mem_singleton.mp new
      have place : (other.nodeName, jobId) ∈ acceptedAddresses other := List.mem_map_of_mem inside
      rw [← claims_of_addresses built claim] at place
      obtain ⟨entry, listed, here⟩ := List.mem_map.mp place
      obtain ⟨job, _, rfl⟩ := List.mem_map.mp listed
      exact ⟨_, List.mem_append_right _ listed, rfl, congrArg Prod.snd here⟩
  addresses := by
    intro place
    rw [List.mem_append, turn.addresses, ← claims_of_addresses built claim]
    simp only [Accepted.Spares, List.mem_append, List.mem_map, not_forall, not_not]
    constructor
    · rintro (⟨entry, old, here⟩ | ⟨entry, new, here⟩)
      · exact ⟨entry, .inl old, here⟩
      · exact ⟨entry, .inr new, here⟩
    · rintro ⟨entry, old | new, here⟩
      · exact .inl ⟨entry, old, here⟩
      · exact .inr ⟨entry, new, here⟩

theorem InTurn.agree (turn : InTurn db mid probe taken claimed accepted) (jobs : List ClaimedJob) :
    batchVerdict mid probe batch [] = .ok (.ok jobs) ↔
      batchVerdict db probe batch accepted = .ok (.ok jobs) ∧ ∀ earlier ∈ taken, LeavesAlone db earlier batch := by
  rw [verdict_after (write_claims_ok turn.written) turn.unused turn.entries turn.addresses]
  refine and_congr_right fun judged => ?_
  obtain ⟨sessionId, component, _, _, claim, _⟩ := batch_verdict_ok.mp judged
  constructor
  · intro alone earlier member
    refine ⟨fun filled other scope => ?_, fun owner other session scope ordinary inside jobId presented => ?_⟩
    · obtain ⟨jobId, presented⟩ := List.exists_mem_of_ne_nil _ filled
      obtain ⟨entry, listed, rfl, _⟩ := turn.presented earlier member jobId presented
      exact (alone sessionId other claim.session scope).1 entry listed
    · obtain ⟨entry, listed, rfl, rfl⟩ := turn.presented earlier member jobId presented
      exact (alone owner other session scope).2 ordinary entry listed inside
  · intro leaves owner other session scope
    have presented : ∀ entry ∈ claimed, entry.2.owner.jobId ∈ entry.1.jobIds := by
      intro entry listed
      obtain ⟨_, _, _, claimed⟩ := turn.entries entry listed
      obtain ⟨stored, _, read, _, _, jobId, _⟩ := claimed.read
      have here : stored.jobId = entry.2.owner.jobId := congrArg Prod.snd (Table.find_key read.job)
      exact here ▸ jobId
    refine ⟨fun entry listed => ?_, fun ordinary entry listed inside => ?_⟩
    · exact (leaves entry.1 (turn.members entry listed)).joins (List.ne_nil_of_mem (presented entry listed)) other scope
    · exact (leaves entry.1 (turn.members entry listed)).unrequested owner other session scope ordinary inside _
        (presented entry listed)

theorem claimable_iff : claimable db probe batch = true ↔ ∃ jobs, batchVerdict db probe batch [] = .ok (.ok jobs) := by
  unfold claimable
  cases batchVerdict db probe batch [] with
  | error error => simp
  | ok verdict => cases verdict <;> simp

theorem claimable_apart : (∃ jobs, batchVerdict db probe batch accepted = .ok (.ok jobs)) ↔
    (claimable db probe batch && (acceptedAddresses batch).all (· ∉ accepted)) = true := by
  rw [Bool.and_eq_true, claimable_iff, List.all_eq_true]
  simp only [batch_verdict_ok, acceptedAddresses, List.forall_mem_map, decide_eq_true_eq]
  constructor
  · intro ⟨_, sessionId, component, rows, identity, claim, _⟩
    have apart : ∀ jobId ∈ batch.jobIds, (batch.nodeName, jobId) ∉ accepted := fun jobId member => (claim.presented member).2
    exact ⟨⟨_, sessionId, component, rows, identity, (accepted_apart apart).mpr claim, rfl⟩, apart⟩
  · intro ⟨⟨_, sessionId, component, rows, identity, claim, _⟩, apart⟩
    exact ⟨_, sessionId, component, rows, identity, (accepted_apart apart).mp claim, rfl⟩

section Group

variable {batches : List ExecutionClaimBatch} {verdicts : List Verdict}

theorem accepted_jobs_apart (built : ∀ batch ∈ batches, BuiltBatch batch)
    (judged : batchVerdicts db probe batches accepted = .ok verdicts) :
    ((acceptedJobs batches verdicts).map claimedAddress).Nodup ∧
      (∀ entry ∈ acceptedJobs batches verdicts, claimedAddress entry ∉ accepted) ∧
      ((acceptedJobs batches verdicts).map fun entry => entry.2.owner.executionId).Sublist
        (batches.flatMap ExecutionClaimBatch.executionIds) := by
  induction batches generalizing accepted verdicts with
  | nil => simp [acceptedJobs]
  | cons batch rest ih =>
      obtain ⟨here, others⟩ := List.forall_mem_cons.mp built
      simp only [batchVerdicts, Lib.bind_ok, Lib.pure_ok] at judged
      obtain ⟨verdict, first, later, following, rfl⟩ := judged
      obtain ⟨distinct, apart, executions⟩ := ih others following
      simp only [acceptedJobs, List.zip_cons_cons, List.flatMap_cons] at distinct apart executions ⊢
      cases verdict with
      | error error => exact ⟨distinct, apart, executions.trans (List.sublist_append_right _ _)⟩
      | ok jobs =>
          obtain ⟨sessionId, component, rows, identity, claim, rfl⟩ := batch_verdict_ok.mp first
          have places := claims_of_addresses here claim
          simp only [claimsOf] at places
          rw [List.map_append, List.map_append, places]
          refine ⟨List.nodup_append'.mpr ⟨accepted_addresses_nodup here, distinct, ?_⟩, ?_, ?_⟩
          · intro place mine theirs
            obtain ⟨entry, listed, rfl⟩ := List.mem_map.mp theirs
            exact apart entry listed (List.mem_append_right _ mine)
          · intro entry listed inside
            rcases List.mem_append.mp listed with mine | theirs
            · have place : claimedAddress entry ∈ acceptedAddresses batch := places ▸ List.mem_map_of_mem mine
              obtain ⟨jobId, presented, same⟩ := List.mem_map.mp place
              exact (claim.presented presented).2 (same ▸ inside)
            · exact apart entry theirs (List.mem_append_left _ inside)
          · have mine := claims_of_executions here claim
            simp only [claimsOf] at mine
            rw [mine]
            exact executions.append_left _

theorem group_write_total (built : BuiltBatches db batches) (judged : batchVerdicts db probe batches [] = .ok verdicts) :
    ∃ next, writeClaims db (acceptedJobs batches verdicts) = .ok next := by
  obtain ⟨places, _, executions⟩ := accepted_jobs_apart built.built judged
  refine write_claims_total places (fun entry listed => ?_) (built.distinct.sublist executions) fun entry listed => ?_
  · obtain ⟨_, _, _, _, _, _, claim, job⟩ := mem_accepted_jobs judged listed
    exact claim.read_job job
  · exact (built.unused _ (executions.subset (List.mem_map_of_mem listed))).owner

theorem group_in_turn (turn : InTurn db mid probe taken claimed accepted)
    (built : ∀ batch ∈ batches, BuiltBatch batch) (readable : ∀ batch ∈ batches, FencesReadable db batch)
    (distinct : ((claimed.map fun entry => entry.2.owner.executionId) ++
      batches.flatMap ExecutionClaimBatch.executionIds).Nodup)
    (unused : ∀ executionId ∈ batches.flatMap ExecutionClaimBatch.executionIds, Unused db executionId) :
    ∃ verdicts, batchVerdicts db probe batches accepted = .ok verdicts ∧
      (claimedBy (verdicts.map claimResults) = claimedBy (claimsInTurn mid probe batches).1 ↔
        (∀ earlier ∈ taken, ∀ later ∈ takenBatches db probe batches accepted, LeavesAlone db earlier later) ∧
          (takenBatches db probe batches accepted).Pairwise (LeavesAlone db)) ∧
      (claimedBy (verdicts.map claimResults) = claimedBy (claimsInTurn mid probe batches).1 →
        writeClaims db (claimed ++ acceptedJobs batches verdicts) = .ok (claimsInTurn mid probe batches).2) := by
  induction batches generalizing mid taken claimed accepted with
  | nil =>
      refine ⟨[], rfl, ⟨fun _ => ⟨fun _ _ _ listed => absurd listed List.not_mem_nil, .nil⟩, fun _ => rfl⟩, fun _ => ?_⟩
      simpa [acceptedJobs, claimsInTurn] using turn.written
  | cons batch rest ih =>
      obtain ⟨here, builtRest⟩ := List.forall_mem_cons.mp built
      obtain ⟨fences, readableRest⟩ := List.forall_mem_cons.mp readable
      simp only [List.flatMap_cons, List.mem_append] at unused distinct
      have unusedRest := fun executionId member => unused executionId (.inr member)
      have written := write_claims_ok turn.written
      obtain ⟨grouped, judged⟩ := @batch_verdict_total db probe batch accepted fences
      obtain ⟨alone, judgedAlone⟩ := @batch_verdict_total mid probe batch []
        fun sessionId component session scope inside free => by
        rw [written.fences]
        rw [written.blockers] at free
        exact fences sessionId component session scope inside free
      have agree := @InTurn.agree db mid probe batch claimed accepted taken turn
      cases grouped with
      | ok jobs =>
          have passes := claimable_apart.mp ⟨jobs, judged⟩
          rw [takenBatches, if_pos passes]
          by_cases leaves : ∀ earlier ∈ taken, LeavesAlone db earlier batch
          · have accepts := (agree jobs).mpr ⟨judged, leaves⟩
            obtain ⟨sessionId, component, rows, identity, claim, rfl⟩ := batch_verdict_ok.mp judged
            obtain ⟨_, _, _, _, claimAlone, same⟩ := batch_verdict_ok.mp accepts
            have executions := claims_of_executions here claim
            have new : ∀ executionId ∈ batch.executionIds, mid.jobExecutionOwners.find executionId = none := by
              intro executionId member
              rw [written.old_owner fun entry listed named => ?_]
              · exact (unused executionId (.inl member)).owner
              · exact List.disjoint_of_nodup_append distinct (List.mem_map_of_mem listed)
                  (named ▸ List.mem_append_left _ member)
            obtain ⟨next, wrote⟩ := write_batch_total here claimAlone (List.Nodup.of_append_left distinct.of_append_right) new
            rw [← same] at wrote
            have first := @grouped_claims_one _ _ _ _ next accepts (by simpa [acceptedJobs, claimsOf] using wrote)
            have turned := turn.accept here (fun executionId member => unused executionId (.inl member)) claim wrote
            obtain ⟨verdicts, others, outcomes, lastly⟩ := ih turned builtRest readableRest (by
              rw [List.map_append, executions, List.append_assoc]
              exact distinct) unusedRest
            refine ⟨.ok (claimedJobs batch sessionId component identity rows) :: verdicts, ?_, ?_, fun agreed => ?_⟩
            · simp only [batchVerdicts, judged, acceptedBy, others, bind, Except.bind, pure, Except.pure]
            · simp only [claimsInTurn, first, claimedBy, List.map_cons, List.singleton_append, List.cons.injEq, true_and]
                at outcomes ⊢
              rw [outcomes, List.pairwise_cons, List.forall_mem_append, List.forall_mem_singleton]
              constructor
              · rintro ⟨⟨before, mine⟩, rest⟩
                exact ⟨fun earlier member => List.forall_mem_cons.mpr ⟨leaves earlier member, before earlier member⟩, mine, rest⟩
              · rintro ⟨before, mine, rest⟩
                exact ⟨⟨fun earlier member => (List.forall_mem_cons.mp (before earlier member)).2, mine⟩, rest⟩
            · simp only [claimsInTurn, first, claimedBy, List.map_cons, List.singleton_append, List.cons.injEq, true_and]
                at agreed
              simp only [claimsInTurn, first, acceptedJobs, List.zip_cons_cons, List.flatMap_cons]
              rw [← List.append_assoc]
              exact lastly agreed
          · have refuses : ∃ refusal, alone = .error refusal := by
              cases alone with
              | error refusal => exact ⟨refusal, rfl⟩
              | ok jobs => exact absurd ((agree jobs).mp judgedAlone).2 leaves
            obtain ⟨refusal, rfl⟩ := refuses
            have first := @grouped_claims_one _ _ _ _ mid judgedAlone (by simp [acceptedJobs, writeClaims])
            obtain ⟨verdicts, others⟩ := @batch_verdicts_total db probe rest (accepted ++ acceptedAddresses batch) readableRest
            have differ : ¬claimedBy ((.ok jobs :: verdicts).map claimResults) = claimedBy (claimsInTurn mid probe
              (batch :: rest)).1 := by
              simp [claimsInTurn, first, claimedBy, claimResults, Except.toOption]
            refine ⟨.ok jobs :: verdicts, ?_, ⟨fun agreed => absurd agreed differ, fun apart => ?_⟩,
              fun agreed => absurd agreed differ⟩
            · simp only [batchVerdicts, judged, acceptedBy, others, bind, Except.bind, pure, Except.pure]
            · exact absurd (fun earlier member => apart.1 earlier member batch List.mem_cons_self) leaves
      | error refusal =>
          have fails : ¬(claimable db probe batch && (acceptedAddresses batch).all (· ∉ accepted)) = true := by
            rw [← claimable_apart]
            rintro ⟨jobs, passes⟩
            rw [judged] at passes
            cases passes
          rw [takenBatches, if_neg fails]
          cases alone with
          | ok jobs => exact absurd (judged.symm.trans ((agree jobs).mp judgedAlone).1) (by simp)
          | error later =>
              have first := @grouped_claims_one _ _ _ _ mid judgedAlone (by simp [acceptedJobs, writeClaims])
              obtain ⟨verdicts, others, outcomes, lastly⟩ := ih turn builtRest readableRest
                (distinct.sublist ((List.sublist_append_right _ _).append_left _)) unusedRest
              have same : claimedBy ((.error refusal :: verdicts).map claimResults) =
                  claimedBy (claimsInTurn mid probe (batch :: rest)).1 ↔
                    claimedBy (verdicts.map claimResults) = claimedBy (claimsInTurn mid probe rest).1 := by
                simp [claimsInTurn, first, claimedBy, claimResults, Except.toOption]
              refine ⟨.error refusal :: verdicts, ?_, same.trans outcomes, fun agreed => ?_⟩
              · simp only [batchVerdicts, judged, acceptedBy, others, bind, Except.bind, pure, Except.pure]
              · simpa [claimsInTurn, first, acceptedJobs] using lastly (same.mp agreed)

theorem grouped_claims_judged (built : BuiltBatches db batches) (judged : batchVerdicts db probe batches [] = .ok verdicts) :
    ∃ next, writeClaims db (acceptedJobs batches verdicts) = .ok next ∧
      groupedClaims db probe batches = (verdicts.map claimResults, next) := by
  obtain ⟨next, wrote⟩ := group_write_total built judged
  refine ⟨next, wrote, ?_⟩
  simp [groupedClaims, applyExecutionClaimBatches, judge_batches_eq (empty_caches_valid db), judged, wrote, bind,
    Except.bind, pure, Except.pure]

theorem grouped_claims_raised {error : Error} (raised : batchVerdicts db probe batches [] = .error error) :
    groupedClaims db probe batches = (batches.map fun _ => .error error, db) := by
  simp [groupedClaims, applyExecutionClaimBatches, judge_batches_eq (empty_caches_valid db), raised, bind, Except.bind]

theorem BuiltBatches.head (built : BuiltBatches db (batch :: batches)) : BuiltBatches db [batch] where
  built := List.forall_mem_singleton.mpr (List.forall_mem_cons.mp built.built).1
  distinct := by
    have distinct := built.distinct
    rw [List.flatMap_cons] at distinct
    rw [List.flatMap_singleton]
    exact distinct.of_append_left
  unused executionId listed := by
    rw [List.flatMap_singleton] at listed
    exact built.unused executionId (List.mem_append_left _ listed)

theorem BuiltBatches.tail (built : BuiltBatches db (batch :: batches)) : BuiltBatches db batches where
  built := (List.forall_mem_cons.mp built.built).2
  distinct := by
    have distinct := built.distinct
    rw [List.flatMap_cons] at distinct
    exact distinct.of_append_right
  unused executionId listed := built.unused executionId (List.mem_append_right _ listed)

theorem one_refused (refused : claimable db probe batch = false) :
    ∃ error, groupedClaims db probe [batch] = ([.error error], db) := by
  cases judged : batchVerdict db probe batch [] with
  | error error =>
      refine ⟨error, @grouped_claims_raised _ _ [batch] _ ?_⟩
      simp only [batchVerdicts, judged, bind, Except.bind]
  | ok verdict =>
      cases verdict with
      | error error => exact ⟨error, grouped_claims_one judged (by simp [acceptedJobs, writeClaims])⟩
      | ok jobs =>
          rw [claimable_iff.mpr ⟨jobs, judged⟩] at refused
          cases refused

theorem one_accepted (built : BuiltBatches db [batch]) (passes : claimable db probe batch = true) :
    ∃ leases next, groupedClaims db probe [batch] = ([.ok leases], next) := by
  obtain ⟨jobs, judged⟩ := claimable_iff.mp passes
  have verdicts : batchVerdicts db probe [batch] [] = .ok [.ok jobs] := by
    simp only [batchVerdicts, judged, bind, Except.bind, pure, Except.pure]
  obtain ⟨next, _, grouped⟩ := grouped_claims_judged built verdicts
  exact ⟨_, next, grouped⟩

theorem claims_refused_in_turn (built : BuiltBatches db batches) :
    (claimedBy (claimsInTurn db probe batches).1 = batches.map (fun _ => none) ↔
      ∀ batch ∈ batches, claimable db probe batch = false) ∧
    ((∀ batch ∈ batches, claimable db probe batch = false) → (claimsInTurn db probe batches).2 = db) := by
  induction batches with
  | nil => exact ⟨⟨fun _ _ listed => (nomatch listed), fun _ => rfl⟩, fun _ => rfl⟩
  | cons batch rest ih =>
      have ⟨outcomes, lastly⟩ := ih built.tail
      by_cases passes : claimable db probe batch = true
      · obtain ⟨leases, next, first⟩ := one_accepted built.head passes
        refine ⟨⟨fun same => ?_, fun refused => ?_⟩, fun refused => ?_⟩
        · simp [claimsInTurn, first, claimedBy, Except.toOption] at same
        · cases (refused batch List.mem_cons_self).symm.trans passes
        · cases (refused batch List.mem_cons_self).symm.trans passes
      · have refuses : claimable db probe batch = false := by simpa using passes
        obtain ⟨error, first⟩ := one_refused refuses
        rw [List.forall_mem_cons, and_iff_right refuses, ← outcomes]
        refine ⟨?_, fun others => ?_⟩
        · simp [claimsInTurn, first, claimedBy, Except.toOption]
        · rw [claimsInTurn, first]
          exact lastly (outcomes.mp others)

theorem taken_none (accepted : List JobAddress) (refused : ∀ batch ∈ batches, claimable db probe batch = false) :
    takenBatches db probe batches accepted = [] := by
  induction batches with
  | nil => rfl
  | cons batch rest ih =>
      have ⟨first, others⟩ := List.forall_mem_cons.mp refused
      rw [takenBatches, if_neg (by simp [first])]
      exact ih others

end Group

-- A group answers and writes as its batches one after another where it has one batch at most, where every
-- batch is refused on the state before, or where no batch raises and no accepted one disturbs a later one.
theorem grouped_claims_refine_in_turn (db : Database) (probe : Probe) (batches : List ExecutionClaimBatch)
    (built : BuiltBatches db batches) :
    (claimedBy (groupedClaims db probe batches).1 = claimedBy (claimsInTurn db probe batches).1 ∧
      (groupedClaims db probe batches).2 = (claimsInTurn db probe batches).2) ↔ SeparableBatches db probe batches := by
  by_cases short : batches.length ≤ 1
  · refine iff_of_true ?_ (.inl short)
    match batches with
    | [] => exact ⟨rfl, rfl⟩
    | [only] => exact ⟨by simp [claimsInTurn], rfl⟩
  rw [SeparableBatches, or_iff_right short]
  by_cases readable : ∀ batch ∈ batches, FencesReadable db batch
  · obtain ⟨verdicts, judged, outcomes, lastly⟩ := group_in_turn .start built.built readable built.distinct built.unused
    obtain ⟨next, wrote, grouped⟩ := grouped_claims_judged built judged
    have separable : (∀ batch ∈ batches, claimable db probe batch = false) ∨
        ((∀ batch ∈ batches, FencesReadable db batch) ∧ (takenBatches db probe batches []).Pairwise (LeavesAlone db)) ↔
          (takenBatches db probe batches []).Pairwise (LeavesAlone db) := by
      rw [and_iff_right readable]
      refine or_iff_right_of_imp fun refused => ?_
      rw [taken_none [] refused]
      exact .nil
    rw [separable, grouped]
    have pairs : (claimedBy (verdicts.map claimResults) = claimedBy (claimsInTurn db probe batches).1) ↔
        (takenBatches db probe batches []).Pairwise (LeavesAlone db) :=
      outcomes.trans (and_iff_right nofun)
    refine ⟨fun agreed => pairs.mp agreed.1, fun separate => ⟨pairs.mpr separate, ?_⟩⟩
    have written := lastly (pairs.mpr separate)
    rw [List.nil_append, wrote, Except.ok.injEq] at written
    exact written
  · have raised : ∃ error, batchVerdicts db probe batches [] = .error error := by
      cases judged : batchVerdicts db probe batches [] with
      | error error => exact ⟨error, rfl⟩
      | ok verdicts => exact absurd (fences_read_of_verdicts judged) readable
    obtain ⟨error, raised⟩ := raised
    have ⟨outcomes, lastly⟩ := @claims_refused_in_turn db probe batches built
    have refused : claimedBy (batches.map fun _ => (.error error : Result Claims)) = batches.map fun _ => none := by
      rw [claimedBy, List.map_map]
      rfl
    rw [grouped_claims_raised raised, refused, eq_comm, outcomes, or_iff_left fun both => readable both.1]
    exact and_iff_left_of_imp fun every => (lastly every).symm

section OneNode

def oneNodeTwoJobs : Database := { oneNodeProject with
  jobs := ⟨[oneNodeJob 1, oneNodeJob 2], by decide⟩
  jobInstances := ⟨[⟨"a", 1, "00000000000000000000000000000001", none, none⟩,
    ⟨"a", 2, "00000000000000000000000000000002", none, none⟩], by decide⟩ }

def oneNodeBatch (sessionId : String) (jobId : Nat) (executionId : String) : ExecutionClaimBatch :=
  ⟨"a", [jobId], [executionId], 1, 7, 1, 1, none, none, some sessionId, some ["a"], none⟩

theorem one_node_built {first second : String} :
    BuiltBatches oneNodeTwoJobs [oneNodeBatch first 1 "e1", oneNodeBatch second 2 "e2"] := by
  refine ⟨?_, by simp [oneNodeBatch], ?_⟩
  · intro batch member
    rcases List.mem_pair.mp member with rfl | rfl
    · exact ⟨by simp [oneNodeBatch], rfl, by simp [oneNodeBatch], by simp [oneNodeBatch], by simp [oneNodeBatch]⟩
    · exact ⟨by simp [oneNodeBatch], rfl, by simp [oneNodeBatch], by simp [oneNodeBatch], by simp [oneNodeBatch]⟩
  · intro executionId member
    refine ⟨rfl, by simp [oneNodeTwoJobs, oneNodeProject, Database.empty, Table.empty], ?_, ?_, ?_, ?_⟩
    · simp [oneNodeTwoJobs]
    · simp [oneNodeTwoJobs]
    · simp [oneNodeTwoJobs, oneNodeJob]
    · simp [oneNodeTwoJobs, oneNodeProject, Database.empty]

theorem one_node_leaves_alone : LeavesAlone oneNodeTwoJobs (oneNodeBatch "s" 1 "e1") (oneNodeBatch "s" 2 "e2") := by
  refine ⟨fun _ component scope sessionId other node active session named inside found _ => ?_,
    fun sessionId component session scope ordinary => ?_⟩
  · obtain rfl := Option.some.inj session
    obtain rfl := Option.some.inj scope
    obtain rfl := Option.some.inj named
    obtain rfl := List.mem_singleton.mp inside
    have stored : oneNodeTwoJobs.executionSessions.find "s" = some oneNodeSession := by decide
    have producing : readComponentProducingIdentity oneNodeTwoJobs ["a"] = .ok (1, 0) := by decide
    have around : readActiveComponentForNode oneNodeTwoJobs "a" = .ok (some ["a"]) := by decide
    rw [around, Except.ok.injEq] at found
    refine ⟨found.symm, rfl, fun session identity read produced => ?_⟩
    rw [stored, Option.some.injEq] at read
    rw [producing, Except.ok.injEq] at produced
    rw [← read, ← produced]
    rfl
  · obtain rfl := Option.some.inj session
    obtain rfl := Option.some.inj scope
    exact absurd ordinary.1 (by decide)

-- A batch of a session that does not exist refuses the good batch grouped with it.
theorem unknown_session_refuses_group :
    BuiltBatches oneNodeTwoJobs [oneNodeBatch "x" 1 "e1", oneNodeBatch "s" 2 "e2"] ∧
      claimedBy (groupedClaims oneNodeTwoJobs oneNodeProbe [oneNodeBatch "x" 1 "e1", oneNodeBatch "s" 2 "e2"]).1 =
        [none, none] ∧
      claimedBy (claimsInTurn oneNodeTwoJobs oneNodeProbe [oneNodeBatch "x" 1 "e1", oneNodeBatch "s" 2 "e2"]).1 =
        [none, some [(0, "e2")]] :=
  ⟨one_node_built, by decide, by decide⟩

theorem grouped_claims_refine_in_turn_one_node :
    claimedBy (groupedClaims oneNodeTwoJobs oneNodeProbe [oneNodeBatch "s" 1 "e1", oneNodeBatch "s" 2 "e2"]).1 =
      claimedBy (claimsInTurn oneNodeTwoJobs oneNodeProbe [oneNodeBatch "s" 1 "e1", oneNodeBatch "s" 2 "e2"]).1 := by
  have separable : SeparableBatches oneNodeTwoJobs oneNodeProbe [oneNodeBatch "s" 1 "e1", oneNodeBatch "s" 2 "e2"] := by
    refine .inr (.inr ⟨fun batch member sessionId component session scope _ _ => ?_, ?_⟩)
    · rcases List.mem_pair.mp member with rfl | rfl <;>
        (obtain rfl := Option.some.inj session; obtain rfl := Option.some.inj scope; exact ⟨[], by decide⟩)
    · have both : takenBatches oneNodeTwoJobs oneNodeProbe [oneNodeBatch "s" 1 "e1", oneNodeBatch "s" 2 "e2"] [] =
          [oneNodeBatch "s" 1 "e1", oneNodeBatch "s" 2 "e2"] := by decide
      rw [both, List.pairwise_pair]
      exact one_node_leaves_alone
  exact ((grouped_claims_refine_in_turn _ _ _ one_node_built).mpr separable).1

end OneNode

end MicroWorkflow
