import MicroWorkflow.Claims

set_option autoImplicit false

namespace MicroWorkflow

open Lib (require refuse orRaise each collect bind_ok)

section Remembers

variable {κ α : Type} [DecidableEq κ]

def Remembers (cache : List (κ × α)) (compute : κ → Result α) : Prop :=
  ∀ key value, recalled cache key = some value → compute key = .ok value

theorem remembers_nil (compute : κ → Result α) : Remembers [] compute := by
  intro key value found
  simp [recalled] at found

theorem recall_append {cache : List (κ × α)} {key other : κ} {value : α} :
    recalled (cache ++ [(key, value)]) other = (recalled cache other).or (if key = other then some value else none) := by
  unfold recalled
  rw [List.find?_append]
  cases (cache.find? fun entry => entry.1 = other) with
  | some entry => rfl
  | none =>
      by_cases same : key = other <;> simp [same]

theorem recall_or_ok {cache later : List (κ × α)} {compute : κ → Result α} {key : κ} {value : α}
    (remembers : Remembers cache compute) (read : recallOr cache key (compute key) = .ok (value, later)) :
    compute key = .ok value ∧ Remembers later compute := by
  unfold recallOr at read
  cases known : recalled cache key with
  | some stored =>
      simp only [known, Except.ok.injEq, Prod.mk.injEq] at read
      obtain ⟨rfl, rfl⟩ := read
      exact ⟨remembers key stored known, remembers⟩
  | none =>
      simp only [known, bind_ok, Lib.pure_ok, Prod.mk.injEq] at read
      obtain ⟨computed, done, rfl, rfl⟩ := read
      refine ⟨done, fun other stored found => ?_⟩
      rw [recall_append] at found
      cases before : recalled cache other with
      | some old =>
          rw [before, Option.some_or, Option.some.injEq] at found
          exact found ▸ remembers other old before
      | none =>
          rw [before, Option.none_or] at found
          split at found
          · rename_i same
            rw [← same, ← Option.some.inj found]
            exact done
          · exact absurd found (by simp)

theorem recall_or_error {cache : List (κ × α)} {compute : κ → Result α} {key : κ} {error : Error}
    (remembers : Remembers cache compute) :
    recallOr cache key (compute key) = .error error ↔ compute key = .error error := by
  unfold recallOr
  cases known : recalled cache key with
  | some stored => simp [remembers key stored known]
  | none => cases computed : compute key <;> simp [bind, Except.bind, pure, Except.pure]

end Remembers

structure ClaimCaches.Valid (db : Database) (caches : ClaimCaches) : Prop where
  owners : Remembers caches.checkedOwners fun key => .ok (claimOwnerRow db key.1 key.2)
  pendingWork : Remembers caches.checkedPendingWork fun key => readPendingComponentWork db key.1 key.2
  identities : Remembers caches.producingIdentities fun key => .ok (readComponentProducingIdentity db key.2)
  roots : Remembers caches.selectedJobRoots fun sessionId => readSessionJobRoots db sessionId

theorem empty_caches_valid (db : Database) : ClaimCaches.empty.Valid db :=
  ⟨remembers_nil _, remembers_nil _, remembers_nil _, remembers_nil _⟩

def Uncached {α γ : Type} (valid : γ → Prop) (cached : Result (α × γ)) (plain : Result α) : Prop :=
  match cached, plain with
  | .ok (value, cache), .ok expected => value = expected ∧ valid cache
  | .error error, .error expected => error = expected
  | _, _ => False

theorem recall_or_uncached {κ α : Type} [DecidableEq κ] {cache : List (κ × α)} {compute : κ → Result α}
    (remembers : Remembers cache compute) (key : κ) :
    Uncached (fun later => Remembers later compute) (recallOr cache key (compute key)) (compute key) := by
  cases read : recallOr cache key (compute key) with
  | error error =>
      rw [(recall_or_error remembers).mp read]
      rfl
  | ok answer =>
      obtain ⟨computed, kept⟩ := recall_or_ok remembers read
      rw [computed]
      exact ⟨rfl, kept⟩

theorem Uncached.bind {α β γ δ : Type} {valid : γ → Prop} {later : δ → Prop} {cached : Result (α × γ)}
    {plain : Result α} {next : α × γ → Result (β × δ)} {plainNext : α → Result β}
    (first : Uncached valid cached plain)
    (second : ∀ value cache, valid cache → Uncached later (next (value, cache)) (plainNext value)) :
    Uncached later (cached >>= next) (plain >>= plainNext) := by
  cases cached with
  | error error =>
      cases plain with
      | error expected => exact first
      | ok expected => exact first.elim
  | ok answer =>
      cases plain with
      | error expected => exact first.elim
      | ok expected =>
          obtain ⟨same, kept⟩ := first
          exact same ▸ second answer.1 answer.2 kept

def claimOwnerError (db : Database) (probe : Probe) (node sessionId : String) (component : Component) :
    Result (Option Error) :=
  if node ∉ component then
    .ok (some (.runtime ("Claimed node " ++ node ++ " is not a member of component " ++ reprMembers component)))
  else
    let blockers := readInterruptClaimBlockers db sessionId component
    if !blockers.isEmpty then .ok (some (.interruptAdmissionPaused blockers))
    else do
      let fences ← readInterruptExecutionFences db sessionId (encodeComponentKey component)
      if !fences.isEmpty then return some (.runtime "Post-interrupt fence refuses component claim")
      match claimOwnerRowError (claimOwnerRow db sessionId (encodeComponentKey component)) sessionId component with
      | some error => return some error
      | none => return (validateThreadOverrideClaim db probe sessionId component).error?

def selectionError (db : Database) (sessionId : String) (component : Component) (identity : Nat × Nat)
    (rows : List ClaimRow) : Option Error :=
  match readSessionJobRoots db sessionId with
  | .error error => some error
  | .ok roots =>
      if roots.isEmpty then none else (selectedJobsInScope db roots sessionId component identity rows).error?

def admissionError (db : Database) (batch : ExecutionClaimBatch) (sessionId : String) (component : Component) :
    Option Error :=
  match requireInterruptFenceAuthority db sessionId (encodeComponentKey component) with
  | .error error => some error
  | .ok _ =>
      if !db.pendingComponentExecutions.contains (sessionId, encodeComponentKey component) then none else
      match claimsOwnedRestarts db batch sessionId component with
      | .error error => some error
      | .ok true => none
      | .ok false =>
          match readPendingComponentWork db sessionId component with
          | .error error => some error
          | .ok unfinished => unfinishedError unfinished

theorem execution_claim_owner_error_uncached {db : Database} {probe : Probe} {node sessionId : String}
    {component : Component} {checked : List (ClaimKey × Option ClaimOwnerRow)}
    (remembers : Remembers checked fun key => .ok (claimOwnerRow db key.1 key.2)) :
    Uncached (fun later => Remembers later fun key => .ok (claimOwnerRow db key.1 key.2))
      (executionClaimOwnerError db probe node sessionId component checked)
      (claimOwnerError db probe node sessionId component) := by
  unfold executionClaimOwnerError claimOwnerError
  by_cases outside : node ∉ component
  · rw [if_pos outside, if_pos outside]
    exact ⟨rfl, remembers⟩
  rw [if_neg outside, if_neg outside]
  by_cases blocked : (!(readInterruptClaimBlockers db sessionId component).isEmpty) = true
  · dsimp only
    rw [if_pos blocked, if_pos blocked]
    exact ⟨rfl, remembers⟩
  dsimp only
  rw [if_neg blocked, if_neg blocked]
  cases read : readInterruptExecutionFences db sessionId (encodeComponentKey component) with
  | error error => rfl
  | ok fences =>
      by_cases fenced : (!fences.isEmpty) = true
      · simp only [bind, Except.bind, if_pos fenced]
        exact ⟨rfl, remembers⟩
      · simp only [bind, Except.bind, if_neg fenced]
        have owner := recall_or_uncached remembers (sessionId, encodeComponentKey component)
        cases recalled : recallOr checked (sessionId, encodeComponentKey component)
            (.ok (claimOwnerRow db sessionId (encodeComponentKey component))) with
        | error error =>
            rw [recalled] at owner
            exact owner.elim
        | ok answer =>
            rw [recalled] at owner
            obtain ⟨same, kept⟩ := owner
            simp only [pure, Except.pure, recalled, same]
            cases claimOwnerRowError (claimOwnerRow db sessionId (encodeComponentKey component)) sessionId component with
            | some error => exact ⟨rfl, kept⟩
            | none => exact ⟨rfl, kept⟩

theorem selected_job_claim_error_uncached {db : Database} {checked : List (String × List JobRoot)}
    (remembers : Remembers checked fun sessionId => readSessionJobRoots db sessionId) (sessionId : String)
    (component : Component) (identity : Nat × Nat) (rows : List ClaimRow) :
    let answer := selectedJobClaimError db sessionId component identity rows checked
    answer.1 = selectionError db sessionId component identity rows ∧
      Remembers answer.2 fun sessionId => readSessionJobRoots db sessionId := by
  have read := recall_or_uncached remembers sessionId
  unfold selectedJobClaimError selectionError
  cases recalled : recallOr checked sessionId (readSessionJobRoots db sessionId) <;>
    cases plain : readSessionJobRoots db sessionId <;> rw [plain] at recalled <;> simp only [recalled, plain] at read ⊢
  · exact ⟨congrArg some read, remembers⟩
  · exact read.elim
  · exact read.elim
  · obtain ⟨same, kept⟩ := read
    simp only [same]
    split
    · exact ⟨rfl, kept⟩
    · exact ⟨rfl, kept⟩

theorem component_claim_error_uncached {db : Database} {checked : List (ClaimKey × List JobAddress)}
    (remembers : Remembers checked fun key => readPendingComponentWork db key.1 key.2)
    (batch : ExecutionClaimBatch) (sessionId : String) (component : Component) :
    let answer := componentClaimError db batch sessionId component checked
    answer.1 = admissionError db batch sessionId component ∧
      Remembers answer.2 fun key => readPendingComponentWork db key.1 key.2 := by
  have read := recall_or_uncached remembers (sessionId, component)
  unfold componentClaimError admissionError
  dsimp only
  cases requireInterruptFenceAuthority db sessionId (encodeComponentKey component) with
  | error error => exact ⟨rfl, remembers⟩
  | ok _ =>
      dsimp only
      split
      · exact ⟨rfl, remembers⟩
      · cases claimsOwnedRestarts db batch sessionId component with
        | error error => exact ⟨rfl, remembers⟩
        | ok owned =>
            cases owned with
            | true => exact ⟨rfl, remembers⟩
            | false =>
                dsimp only
                cases recalled : recallOr checked (sessionId, component)
                    (readPendingComponentWork db sessionId component) <;>
                  cases plain : readPendingComponentWork db sessionId component <;> rw [plain] at recalled <;>
                  simp only [recalled, plain] at read ⊢
                · exact ⟨congrArg some read, remembers⟩
                · exact read.elim
                · exact read.elim
                · exact ⟨congrArg unfinishedError read.1, read.2⟩

def batchVerdict (db : Database) (probe : Probe) (batch : ExecutionClaimBatch) (accepted : List JobAddress) :
    Result Verdict :=
  match batch.sessionId, batch.component with
  | some sessionId, some component => do
      match ← claimOwnerError db probe batch.nodeName sessionId component with
      | some error => return .error error
      | none =>
      match claimedRows db batch with
      | .error error => return .error error
      | .ok rows =>
      match validateClaimedRows db batch accepted rows with
      | .error error => return .error error
      | .ok _ =>
      match ← expectedRestartError db batch sessionId component
          (batch.jobIds.zip (batch.expectedRestarts.getD [])) with
      | some error => return .error error
      | none =>
      match readComponentProducingIdentity db component with
      | .error error => return .error error
      | .ok identity =>
      match selectionError db sessionId component identity rows with
      | some error => return .error error
      | none =>
      if restartIdentityChanged batch identity then
        return .error (.restartClaimChanged "Restart producing component changed before claim")
      match admissionError db batch sessionId component with
      | some error => return .error error
      | none =>
      if maskMatches batch then return .ok (claimedJobs batch sessionId component identity rows)
      else return .error (.value "task_started_mask length mismatch")
  | _, _ => .ok (.error (.runtime "Job claims require explicit session_id and component"))

theorem judge_batch_uncached {db : Database} {caches : ClaimCaches} (valid : caches.Valid db) (probe : Probe)
    (batch : ExecutionClaimBatch) (accepted : List JobAddress) :
    Uncached (ClaimCaches.Valid db) (judgeBatch db probe batch accepted caches)
      (batchVerdict db probe batch accepted) := by
  unfold judgeBatch batchVerdict
  cases batch.sessionId with
  | none => exact ⟨rfl, valid⟩
  | some sessionId =>
  cases batch.component with
  | none => exact ⟨rfl, valid⟩
  | some component =>
  refine (execution_claim_owner_error_uncached valid.owners).bind fun ownerError owners kept => ?_
  have valid : ({ caches with checkedOwners := owners } : ClaimCaches).Valid db := { valid with owners := kept }
  cases ownerError with
  | some error => exact ⟨rfl, valid⟩
  | none =>
  dsimp only
  unfold judgeRows
  cases claimedRows db batch with
  | error error => exact ⟨rfl, valid⟩
  | ok rows =>
  dsimp only
  cases validateClaimedRows db batch accepted rows with
  | error error => exact ⟨rfl, valid⟩
  | ok _ =>
  dsimp only
  cases expectedRestartError db batch sessionId component (batch.jobIds.zip (batch.expectedRestarts.getD [])) with
  | error error => rfl
  | ok restartError =>
  cases restartError with
  | some error => exact ⟨rfl, valid⟩
  | none =>
  have producing := recall_or_uncached valid.identities (sessionId, component)
  simp only [bind, Except.bind, pure, Except.pure] at producing ⊢
  cases recalled : recallOr caches.producingIdentities (sessionId, component)
      (.ok (readComponentProducingIdentity db component)) with
  | error error =>
      rw [recalled] at producing
      exact producing.elim
  | ok answer =>
  rw [recalled] at producing
  obtain ⟨same, kept⟩ := producing
  have valid : ({ caches with checkedOwners := owners, producingIdentities := answer.2 } : ClaimCaches).Valid db :=
    { valid with identities := kept }
  simp only [same]
  cases readComponentProducingIdentity db component with
  | error error => exact ⟨rfl, valid⟩
  | ok identity =>
  dsimp only
  obtain ⟨selected, kept⟩ := selected_job_claim_error_uncached valid.roots sessionId component identity rows
  rw [← selected]
  have valid : ({ caches with
      checkedOwners := owners
      producingIdentities := answer.2
      selectedJobRoots := (selectedJobClaimError db sessionId component identity rows caches.selectedJobRoots).2 } :
      ClaimCaches).Valid db := { valid with roots := kept }
  cases (selectedJobClaimError db sessionId component identity rows caches.selectedJobRoots).1 with
  | some error => exact ⟨rfl, valid⟩
  | none =>
  dsimp only
  split
  · exact ⟨rfl, valid⟩
  obtain ⟨admitted, kept⟩ := component_claim_error_uncached valid.pendingWork batch sessionId component
  rw [← admitted]
  have valid := ({ valid with pendingWork := kept } : ClaimCaches.Valid db { caches with
      checkedOwners := owners
      producingIdentities := answer.2
      selectedJobRoots := (selectedJobClaimError db sessionId component identity rows caches.selectedJobRoots).2
      checkedPendingWork := (componentClaimError db batch sessionId component caches.checkedPendingWork).2 })
  cases (componentClaimError db batch sessionId component caches.checkedPendingWork).1 with
  | some error => exact ⟨rfl, valid⟩
  | none =>
  dsimp only
  split
  · exact ⟨rfl, valid⟩
  · exact ⟨rfl, valid⟩

def acceptedBy (batch : ExecutionClaimBatch) (accepted : List JobAddress) : Verdict → List JobAddress
  | .ok _ => accepted ++ acceptedAddresses batch
  | .error _ => accepted

def batchVerdicts (db : Database) (probe : Probe) : List ExecutionClaimBatch → List JobAddress → Result (List Verdict)
  | [], _ => .ok []
  | batch :: rest, accepted => do
      let verdict ← batchVerdict db probe batch accepted
      let verdicts ← batchVerdicts db probe rest (acceptedBy batch accepted verdict)
      return verdict :: verdicts

theorem judge_batches_eq {db : Database} {probe : Probe} {batches : List ExecutionClaimBatch}
    {accepted : List JobAddress} {caches : ClaimCaches} (valid : caches.Valid db) :
    judgeBatches db probe batches accepted caches = batchVerdicts db probe batches accepted := by
  induction batches generalizing accepted caches with
  | nil => rfl
  | cons batch rest ih =>
      have plain := judge_batch_uncached valid probe batch accepted
      unfold judgeBatches batchVerdicts
      cases judged : judgeBatch db probe batch accepted caches with
      | error error =>
          rw [judged] at plain
          cases verdict : batchVerdict db probe batch accepted with
          | error expected =>
              rw [verdict] at plain
              exact congrArg Except.error plain
          | ok expected =>
              rw [verdict] at plain
              exact plain.elim
      | ok answer =>
          rw [judged] at plain
          cases verdict : batchVerdict db probe batch accepted with
          | error expected =>
              rw [verdict] at plain
              exact plain.elim
          | ok expected =>
              rw [verdict] at plain
              obtain ⟨same, kept⟩ := plain
              subst same
              simp only [bind, Except.bind]
              rw [ih kept]
              cases answer.1 <;> rfl

structure AcceptedClaim (db : Database) (probe : Probe) (batch : ExecutionClaimBatch) (accepted : List JobAddress)
    (sessionId : String) (component : Component) (rows : List ClaimRow) (identity : Nat × Nat) : Prop where
  session : batch.sessionId = some sessionId
  scope : batch.component = some component
  unrefused : claimOwnerError db probe batch.nodeName sessionId component = .ok none
  found : claimedRows db batch = .ok rows
  claimable : validateClaimedRows db batch accepted rows = .ok ()
  expected : expectedRestartError db batch sessionId component
    (batch.jobIds.zip (batch.expectedRestarts.getD [])) = .ok none
  producing : readComponentProducingIdentity db component = .ok identity
  selected : selectionError db sessionId component identity rows = none
  unchanged : restartIdentityChanged batch identity = false
  admitted : admissionError db batch sessionId component = none
  masked : maskMatches batch = true

theorem batch_verdict_ok {db : Database} {probe : Probe} {batch : ExecutionClaimBatch} {accepted : List JobAddress}
    {jobs : List ClaimedJob} :
    batchVerdict db probe batch accepted = .ok (.ok jobs) ↔
      ∃ sessionId component rows identity,
        AcceptedClaim db probe batch accepted sessionId component rows identity ∧
          jobs = claimedJobs batch sessionId component identity rows := by
  constructor
  · intro judged
    unfold batchVerdict at judged
    split at judged
    · rename_i sessionId component session scope
      rw [bind_ok] at judged
      obtain ⟨ownerError, unrefused, judged⟩ := judged
      split at judged
      · exact absurd judged (by simp)
      split at judged
      · exact absurd judged (by simp)
      rename_i rows found
      split at judged
      · exact absurd judged (by simp)
      rename_i claimable
      rw [bind_ok] at judged
      obtain ⟨restartError, expected, judged⟩ := judged
      split at judged
      · exact absurd judged (by simp)
      split at judged
      · exact absurd judged (by simp)
      rename_i identity producing
      split at judged
      · exact absurd judged (by simp)
      rename_i selected
      split at judged
      · exact absurd judged (by simp)
      rename_i unchanged
      split at judged
      · exact absurd judged (by simp)
      rename_i admitted
      split at judged
      · rename_i masked
        simp only [Lib.pure_ok, Except.ok.injEq] at judged
        exact ⟨sessionId, component, rows, identity,
          ⟨session, scope, unrefused, found, claimable, expected, producing, selected, by simpa using unchanged,
            admitted, masked⟩, judged.symm⟩
      · exact absurd judged (by simp)
    · exact absurd judged (by simp)
  · rintro ⟨sessionId, component, rows, identity, claim, rfl⟩
    simp [batchVerdict, claim.session, claim.scope, claim.unrefused, claim.found, claim.claimable, claim.expected,
      claim.producing, claim.selected, claim.unchanged, claim.admitted, claim.masked]

theorem claim_owner_error_none {db : Database} {probe : Probe} {node sessionId : String} {component : Component} :
    claimOwnerError db probe node sessionId component = .ok none ↔
      node ∈ component ∧ readInterruptClaimBlockers db sessionId component = [] ∧
      readInterruptExecutionFences db sessionId (encodeComponentKey component) = .ok [] ∧
      claimOwnerRowError (claimOwnerRow db sessionId (encodeComponentKey component)) sessionId component = none ∧
      validateThreadOverrideClaim db probe sessionId component = .ok () := by
  unfold claimOwnerError
  by_cases member : node ∈ component
  · rw [if_neg (not_not_intro member)]
    cases blockers : readInterruptClaimBlockers db sessionId component with
    | cons child rest => simp
    | nil =>
        cases fences : readInterruptExecutionFences db sessionId (encodeComponentKey component) with
        | error error => simp [bind, Except.bind]
        | ok unapproved =>
            cases unapproved with
            | cons fence rest => simp [bind, Except.bind, pure, Except.pure]
            | nil =>
                cases claimOwnerRowError (claimOwnerRow db sessionId (encodeComponentKey component)) sessionId
                    component with
                | some error => simp [bind, Except.bind, pure, Except.pure]
                | none =>
                    cases validateThreadOverrideClaim db probe sessionId component with
                    | error error => simp [bind, Except.bind, pure, Except.pure, Result.error?]
                    | ok _ => simp [bind, Except.bind, pure, Except.pure, Result.error?, member]
  · rw [if_pos member]
    simp [member]

theorem claim_owner_row_error_none {row : Option ClaimOwnerRow} {sessionId : String} {component : Component} :
    claimOwnerRowError row sessionId component = none ↔ row = some ⟨.running, some sessionId, true⟩ := by
  cases row with
  | none => simp [claimOwnerRowError]
  | some row =>
      obtain ⟨status, owner, selected⟩ := row
      unfold claimOwnerRowError
      by_cases running : status = .running <;> by_cases owned : owner = some sessionId <;>
        cases selected <;> simp [running, owned]

def claimedAddress (entry : ExecutionClaimBatch × ClaimedJob) : JobAddress := entry.2.owner.address

structure ClaimsWritten (db next : Database) (claimed : Accepted) : Prop where
  distinct : (claimed.map claimedAddress).Nodup
  acquired : ∀ entry ∈ claimed, ∃ row, db.jobs.find (claimedAddress entry) = some row ∧ claimGuard entry row = true
  order : next.jobs.rows.map Job.address = db.jobs.rows.map Job.address
  jobs : ∀ place, next.jobs.find place =
    (db.jobs.find place).map (Lib.Table.rewritten claimedAddress claimUpdate claimed place)
  instances : ∀ place, next.jobInstances.find place =
    (db.jobInstances.find place).map (Lib.Table.rewritten claimedAddress instanceUpdate claimed place)
  owners : db.jobExecutionOwners.insertAll (claimed.map fun entry => entry.2.owner) = some next.jobExecutionOwners
  events : next.jobEvents = db.jobEvents ++ claimed.flatMap claimEvents
  others : next = { db with
    jobs := next.jobs
    jobInstances := next.jobInstances
    jobExecutionOwners := next.jobExecutionOwners
    jobEvents := next.jobEvents }

theorem claim_guard_address {entry : ExecutionClaimBatch × ClaimedJob} {row : Job}
    (guarded : claimGuard entry row = true) : row.address = claimedAddress entry := by
  simp only [claimGuard, Bool.and_eq_true, decide_eq_true_eq] at guarded
  exact guarded.1.1

theorem write_claims_ok {db next : Database} {claimed : Accepted} (written : writeClaims db claimed = .ok next) :
    ClaimsWritten db next claimed := by
  unfold writeClaims at written
  split at written
  · rename_i nothing
    rw [List.isEmpty_iff] at nothing
    subst nothing
    simp only [Lib.pure_ok] at written
    subst written
    exact ⟨by simp, by simp, rfl, by simp, by simp, rfl, by simp, rfl⟩
  · simp only [bind_ok, Lib.require_ok, Lib.orRaise_ok, Lib.pure_ok, beq_iff_eq] at written
    obtain ⟨_, all, owners, inserted, _, allInstances, rfl⟩ := written
    have jobAddressed : ∀ entry row, claimGuard entry row = true → row.address = claimedAddress entry :=
      fun _ _ => claim_guard_address
    have instanceAddressed : ∀ entry row, instanceGuard entry row = true → row.address = claimedAddress entry :=
      fun _ _ guarded => of_decide_eq_true guarded
    have spent : claimed.Pairwise fun left right => claimedAddress left = claimedAddress right →
        ∀ row, claimGuard right (claimUpdate left row) = false := by
      apply List.pairwise_of_forall
      intro left right _ row
      simp [claimGuard, claimUpdate]
    obtain ⟨distinct, acquired⟩ := Lib.Table.updateEach_complete jobAddressed spent all
    have apart : claimed.Pairwise fun left right => claimedAddress left = claimedAddress right →
        ∀ row, instanceGuard right (instanceUpdate left row) = false := by
      rw [List.Nodup, List.pairwise_map] at distinct
      exact distinct.imp fun different same => absurd same different
    have located := (Lib.Table.updateEach_complete instanceAddressed apart allInstances).2
    exact ⟨distinct, acquired, Lib.Table.updateEach_keys, Lib.Table.find_updateEach_met jobAddressed distinct acquired,
      Lib.Table.find_updateEach_met instanceAddressed distinct located, inserted, rfl, rfl⟩

structure ClaimRead (db : Database) (claimed : ClaimedJob) (row : Job) (identity : JobInstance) : Prop where
  job : db.jobs.find claimed.owner.address = some row
  instanceRow : db.jobInstances.find claimed.owner.address = some identity
  instanceId : claimed.owner.jobInstanceId = identity.instanceId
  valid : validInstance identity.instanceId = true
  generation : claimed.owner.generation = row.generation
  creator : claimed.owner.createdByExecutionId = identity.createdByExecutionId
  previous : claimed.previousStatus = row.status
  inactive : row.activeExecutionId = none

theorem mem_claimed_rows {db : Database} {batch : ExecutionClaimBatch} {rows : List ClaimRow} {row : ClaimRow}
    (found : claimedRows db batch = .ok rows) (member : row ∈ rows) :
    db.jobs.find (batch.nodeName, row.job.jobId) = some row.job ∧
      row.jobInstance = db.jobInstances.find (batch.nodeName, row.job.jobId) := by
  obtain ⟨jobId, _, read⟩ := (Lib.mem_of_collect found).1 row member
  simp only [Lib.orRaise_ok, claimRow, Option.map_eq_some_iff] at read
  obtain ⟨job, here, rfl⟩ := read
  have key := Lib.Table.find_key here
  simp only [Job.address, Prod.mk.injEq] at key
  exact ⟨key.2 ▸ here, by rw [key.2]⟩

theorem mem_claimed_jobs {db : Database} {probe : Probe} {batch : ExecutionClaimBatch} {accepted : List JobAddress}
    {sessionId : String} {component : Component} {rows : List ClaimRow} {identity : Nat × Nat} {claimed : ClaimedJob}
    (claim : AcceptedClaim db probe batch accepted sessionId component rows identity)
    (member : claimed ∈ claimedJobs batch sessionId component identity rows) :
    ∃ row ∈ rows, ∃ identity, row.jobInstance = some identity ∧ ClaimRead db claimed row.job identity ∧
      claimed.owner.nodeName = batch.nodeName ∧ claimed.owner.jobId = row.job.jobId := by
  unfold claimedJobs at member
  obtain ⟨⟨⟨row, executionId⟩, index⟩, inside, rfl⟩ := List.mem_map.mp member
  have zipped : (row, executionId) ∈ rows.zip batch.executionIds :=
    (List.mem_zipIdx inside).2.2 ▸ List.getElem_mem _
  have rowMember : row ∈ rows := (List.of_mem_zip zipped).1
  obtain ⟨here, instanceHere⟩ := mem_claimed_rows claim.found rowMember
  have claimable := claim.claimable
  simp only [validateClaimedRows, bind_ok, Lib.require_ok, Lib.refuse_ok, List.all_eq_true, List.any_eq_false,
    Bool.or_eq_true, not_or] at claimable
  obtain ⟨_, valid, _, free, _⟩ := claimable
  have identified := valid row rowMember
  unfold ClaimRow.instanceIsValid at identified
  cases instanceRow : row.jobInstance with
  | none => simp [instanceRow] at identified
  | some identity =>
      rw [instanceRow] at identified instanceHere
      refine ⟨row, rowMember, identity, instanceRow, ?_, rfl, rfl⟩
      constructor
      · exact here
      · exact instanceHere.symm
      · simp [claimedJob, instanceRow]
      · exact identified
      · rfl
      · simp [claimedJob, instanceRow]
      · rfl
      · simpa using (free row rowMember).1

theorem mem_accepted_jobs {db : Database} {probe : Probe} {batches : List ExecutionClaimBatch}
    {accepted : List JobAddress} {verdicts : List Verdict} {entry : ExecutionClaimBatch × ClaimedJob}
    (judged : batchVerdicts db probe batches accepted = .ok verdicts)
    (member : entry ∈ acceptedJobs batches verdicts) :
    ∃ before sessionId component rows identity,
      entry.1 ∈ batches ∧ AcceptedClaim db probe entry.1 before sessionId component rows identity ∧
        entry.2 ∈ claimedJobs entry.1 sessionId component identity rows := by
  induction batches generalizing accepted verdicts with
  | nil => simp [acceptedJobs] at member
  | cons batch rest ih =>
      simp only [batchVerdicts, bind_ok, Lib.pure_ok] at judged
      obtain ⟨verdict, first, later, others, rfl⟩ := judged
      simp only [acceptedJobs, List.zip_cons_cons, List.flatMap_cons, List.mem_append] at member
      rcases member with here | there
      · cases verdict with
        | error error => simp at here
        | ok jobs =>
            obtain ⟨sessionId, component, rows, identity, claim, rfl⟩ := batch_verdict_ok.mp first
            obtain ⟨job, inside, rfl⟩ := List.mem_map.mp here
            exact ⟨accepted, sessionId, component, rows, identity, List.mem_cons_self, claim, inside⟩
      · obtain ⟨before, sessionId, component, rows, identity, inside, claim, job⟩ := ih others there
        exact ⟨before, sessionId, component, rows, identity, List.mem_cons_of_mem _ inside, claim, job⟩

theorem apply_execution_claim_batches_ok {db next : Database} {probe : Probe} {batches : List ExecutionClaimBatch}
    {outcomes : List (Result Claims)} (applied : applyExecutionClaimBatches db probe batches = .ok (outcomes, next)) :
    ∃ verdicts, batchVerdicts db probe batches [] = .ok verdicts ∧ outcomes = verdicts.map claimResults ∧
      ClaimsWritten db next (acceptedJobs batches verdicts) := by
  simp only [applyExecutionClaimBatches, judge_batches_eq (empty_caches_valid db), bind_ok, Lib.pure_ok,
    Prod.mk.injEq] at applied
  obtain ⟨verdicts, judged, _, written, rfl, rfl⟩ := applied
  exact ⟨verdicts, judged, rfl, write_claims_ok written⟩

end MicroWorkflow
