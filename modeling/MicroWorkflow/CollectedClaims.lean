import MicroWorkflow.ClaimsInTurn

set_option autoImplicit false

-- Single claims that meet in one collection window. The first caller waits a moment and then claims the
-- jobs of all callers in one batch.
namespace MicroWorkflow

open Lib (require refuse orRaise each collect Table)

structure ClaimWindow where
  nodeName : String
  sessionId : Option String
  component : Option Component
  pid : Nat
deriving DecidableEq, Repr

structure SingleClaim where
  jobId : Nat
  startedAt : Timestamp
  executionId : String
  threadId : Nat
  eventTime : Timestamp
deriving DecidableEq, Repr

abbrev Lease := Nat × String
abbrev ClaimAnswer := SingleClaim × Result Lease

def claimBatch (window : ClaimWindow) (leader : SingleClaim) (calls : List SingleClaim) : ExecutionClaimBatch where
  nodeName := window.nodeName
  jobIds := calls.map SingleClaim.jobId
  executionIds := calls.map SingleClaim.executionId
  startedAt := leader.startedAt
  pid := window.pid
  threadId := leader.threadId
  eventTime := leader.eventTime
  taskStartedData := none
  taskStartedMask := none
  sessionId := window.sessionId
  component := window.component
  expectedRestarts := none

def sessionMissing : Error := .runtime "Job claims require explicit session_id and component in native storage"

def jobIdsRepeated : Error := .value "job_ids contains duplicates"

def claimJobExecutionsBatch (db : Database) (probe : Probe) (batch : ExecutionClaimBatch) : Result Claims × Database :=
  if batch.sessionId.isNone || batch.component.isNone then (.error sessionMissing, db)
  else if batch.jobIds.isEmpty then (.ok [], db)
  else if ¬batch.jobIds.Nodup then (.error jobIdsRepeated, db)
  else
    let (outcomes, next) := groupedClaims db probe [batch]
    (outcomes.headD (.ok []), next)

def collectedClaims (db : Database) (probe : Probe) (window : ClaimWindow) : List SingleClaim → List ClaimAnswer × Database
  | [] => ([], db)
  | leader :: others =>
      let calls := leader :: others
      match claimJobExecutionsBatch db probe (claimBatch window leader calls) with
      | (.error error, next) => (calls.map fun call => (call, .error error), next)
      | (.ok leases, next) => ((calls.zip leases).map fun entry => (entry.1, .ok entry.2), next)

def claimsOneByOne (db : Database) (probe : Probe) (window : ClaimWindow) : List SingleClaim → List ClaimAnswer × Database
  | [] => ([], db)
  | call :: rest =>
      let first := collectedClaims db probe window [call]
      let later := claimsOneByOne first.2 probe window rest
      (first.1 ++ later.1, later.2)

def InSomeOrder (db : Database) (probe : Probe) (window : ClaimWindow) (calls : List SingleClaim) : Prop :=
  ∃ order : List SingleClaim, order.Perm calls ∧
    (collectedClaims db probe window calls).1.Perm (claimsOneByOne db probe window order).1

def windowVerdict (db : Database) (probe : Probe) (window : ClaimWindow) (leader : SingleClaim) (calls : List SingleClaim) :
    Verdict :=
  if window.sessionId.isNone || window.component.isNone then .error sessionMissing
  else
    match batchVerdict db probe (claimBatch window leader calls) [] with
    | .ok verdict => verdict
    | .error error => .error error

def loneVerdict (db : Database) (probe : Probe) (window : ClaimWindow) (call : SingleClaim) : Verdict :=
  windowVerdict db probe window call [call]

structure BuiltCalls (db : Database) (window : ClaimWindow) (calls : List SingleClaim) : Prop where
  positive : ∀ call ∈ calls, 1 ≤ call.jobId
  thread : ∀ call ∈ calls, 1 ≤ call.threadId
  pid : 1 ≤ window.pid
  distinct : (calls.map SingleClaim.executionId).Nodup
  unused : ∀ call ∈ calls, Unused db call.executionId

def LeavesCall (db : Database) (window : ClaimWindow) (earlier later : SingleClaim) : Prop :=
  LeavesAlone db (claimBatch window earlier [earlier]) (claimBatch window later [later])

def SeparableCalls (db : Database) (window : ClaimWindow) (calls : List SingleClaim) : Prop :=
  ∃ order : List SingleClaim, order.Perm calls ∧ order.Pairwise (LeavesCall db window)

inductive OneVerdict (db : Database) (probe : Probe) (window : ClaimWindow) (calls : List SingleClaim) : Prop where
  | accepted (distinct : (calls.map SingleClaim.jobId).Nodup)
      (accepted : ∀ call ∈ calls, ∃ jobs, loneVerdict db probe window call = .ok jobs)
      (separable : SeparableCalls db window calls)
  | refused (error : Error) (refused : ∀ call ∈ calls, loneVerdict db probe window call = .error error)
      (judged : (calls.map SingleClaim.jobId).Nodup ∨ window.sessionId = none ∨ window.component = none ∨
        error = jobIdsRepeated)

variable {db mid : Database} {probe : Probe} {window : ClaimWindow} {leader call : SingleClaim} {calls : List SingleClaim}
  {sessionId : String} {component : Component} {rows : List ClaimRow} {identity : Nat × Nat} {accepted : List JobAddress}

section Members

theorem member_row (found : claimedRows db (claimBatch window leader calls) = .ok rows) (member : call ∈ calls) :
    ∃ read ∈ rows, claimedRows db (claimBatch window call [call]) = .ok [read] := by
  have presented : call.jobId ∈ (claimBatch window leader calls).jobIds := List.mem_map_of_mem member
  obtain ⟨read, inside, taken⟩ := (Lib.mem_of_collect found).2 call.jobId presented
  exact ⟨read, inside, Lib.collect_ok.mpr (.cons taken .nil)⟩

theorem claimable_member {read : ClaimRow} {one : ExecutionClaimBatch} (node : one.nodeName = window.nodeName)
    (claimable : validateClaimedRows db (claimBatch window leader calls) accepted rows = .ok ()) (member : read ∈ rows) :
    validateClaimedRows db one accepted [read] = .ok () := by
  simp only [validateClaimedRows, Lib.bind_ok, Lib.require_ok, Lib.refuse_ok, List.all_eq_true, List.any_eq_false,
    Lib.each_ok] at claimable ⊢
  obtain ⟨_, valid, _, free, history⟩ := claimable
  refine ⟨(), ?_, (), ?_, ?_⟩
  · intro other inside
    exact List.mem_singleton.mp inside ▸ valid read member
  · intro other inside
    exact List.mem_singleton.mp inside ▸ free read member
  · intro other inside
    rw [List.mem_singleton.mp inside, node]
    exact history read member

theorem selected_member {read : ClaimRow} (selected : selectionError db sessionId component identity rows = none)
    (member : read ∈ rows) : selectionError db sessionId component identity [read] = none := by
  unfold selectionError at selected ⊢
  cases stored : readSessionJobRoots db sessionId with
  | error error =>
      rw [stored] at selected
      cases selected
  | ok roots =>
      rw [stored] at selected
      dsimp only at selected ⊢
      by_cases ordinary : roots.isEmpty = true
      · rw [if_pos ordinary]
      rw [if_neg ordinary] at selected ⊢
      cases inside : selectedJobsInScope db roots sessionId component identity rows with
      | error error =>
          rw [inside] at selected
          cases selected
      | ok done =>
          have one : selectedJobsInScope db roots sessionId component identity [read] = .ok () := by
            refine Lib.each_ok.mpr fun other listed => ?_
            rw [List.mem_singleton.mp listed]
            exact Lib.each_ok.mp inside read member
          rw [one]
          rfl

theorem owned_restart_unfinished {restart : OwnedRestart} (inside : window.nodeName ∈ component)
    (begun : db.pendingComponentExecutions.contains (sessionId, encodeComponentKey component) = true)
    (owned : readOwnedRestart db window.nodeName call.jobId sessionId component = .ok (some restart)) :
    readPendingComponentWork db sessionId component ≠ .ok [] := by
  intro nothing
  obtain ⟨row, observed, owner, event, found, request⟩ := read_owned_restart_some owned
  have key := Table.find_key found
  simp only [Job.address, Prod.mk.injEq] at key
  obtain ⟨pending, here⟩ := Option.isSome_iff_exists.mp begun
  obtain ⟨_, _, _, idle⟩ := read_pending_component_work_nil.mp nothing pending here
  rw [← key.1, ← key.2] at owned
  obtain ⟨owes, unfinished⟩ := accepted_restart_unfinished request owned
  exact unfinished (idle row (Table.find_mem found) (key.1 ▸ inside) owes)

theorem owned_restarts_one : claimsOwnedRestarts db (claimBatch window call [call]) sessionId component =
    match readOwnedRestart db window.nodeName call.jobId sessionId component with
    | .error error => .error error
    | .ok none => .ok false
    | .ok (some restart) =>
        match readComponentProducingIdentity db component with
        | .error error => .error error
        | .ok identity =>
            if (restart.owner.shapeId, restart.owner.alignmentGeneration) = identity then .ok true
            else .error (.runtime "Restart producing component changed before claim") := by
  have one : collect (fun jobId => readOwnedRestart db (claimBatch window call [call]).nodeName jobId sessionId component)
      (claimBatch window call [call]).jobIds =
        match readOwnedRestart db window.nodeName call.jobId sessionId component with
        | .error error => .error error
        | .ok restart => .ok [restart] := by
    rw [show (claimBatch window call [call]).jobIds = [call.jobId] from rfl,
      show (claimBatch window call [call]).nodeName = window.nodeName from rfl, collect]
    cases readOwnedRestart db window.nodeName call.jobId sessionId component with
    | error error => rfl
    | ok restart => rfl
  unfold claimsOwnedRestarts
  rw [one]
  cases readOwnedRestart db window.nodeName call.jobId sessionId component with
  | error error => rfl
  | ok restart =>
      cases restart with
      | none => rfl
      | some restart =>
          cases readComponentProducingIdentity db component with
          | error error => rfl
          | ok identity =>
              by_cases same : (restart.owner.shapeId, restart.owner.alignmentGeneration) = identity
              · simp [same, bind, Except.bind, require, pure, Except.pure]
              · simp [same, bind, Except.bind, require]

theorem admitted_member (inside : window.nodeName ∈ component) (member : call ∈ calls)
    (admitted : admissionError db (claimBatch window leader calls) sessionId component = none) :
    admissionError db (claimBatch window call [call]) sessionId component = none := by
  rw [admission_error_none] at admitted ⊢
  obtain ⟨authority, work⟩ := admitted
  refine ⟨authority, fun begun => ?_⟩
  have presented : call.jobId ∈ (claimBatch window leader calls).jobIds := List.mem_map_of_mem member
  rw [owned_restarts_one]
  rcases work begun with owned | ⟨ordinary, nothing⟩
  · refine .inl ?_
    obtain ⟨restart, read⟩ := ClaimedEntry.owned_restart owned presented
    unfold claimsOwnedRestarts at owned
    rw [Lib.bind_ok] at owned
    obtain ⟨restarts, collected, owned⟩ := owned
    obtain ⟨value, listed, taken⟩ := (Lib.mem_of_collect collected).2 call.jobId presented
    obtain rfl : value = some restart := Except.ok.inj (taken.symm.trans read)
    have here : readOwnedRestart db window.nodeName call.jobId sessionId component = .ok (some restart) := read
    split at owned
    · simp only [Lib.bind_ok, Lib.require_ok, Lib.pure_ok] at owned
      obtain ⟨identity, producing, _, same, _⟩ := owned
      have mine : (restart.owner.shapeId, restart.owner.alignmentGeneration) = identity := by
        simpa using List.all_eq_true.mp same _ listed
      rw [here, producing]
      exact if_pos mine
    · simp at owned
  · refine .inr ⟨?_, nothing⟩
    unfold claimsOwnedRestarts at ordinary
    rw [Lib.bind_ok] at ordinary
    obtain ⟨restarts, collected, _⟩ := ordinary
    obtain ⟨value, _, taken⟩ := (Lib.mem_of_collect collected).2 call.jobId presented
    have here : readOwnedRestart db window.nodeName call.jobId sessionId component = .ok value := taken
    cases value with
    | none => rw [here]
    | some restart => exact absurd nothing (owned_restart_unfinished inside begun here)

theorem member_accepted
    (claim : AcceptedClaim db probe (claimBatch window leader calls) [] sessionId component rows identity)
    (member : call ∈ calls) :
    ∃ read ∈ rows, AcceptedClaim db probe (claimBatch window call [call]) [] sessionId component [read] identity := by
  obtain ⟨read, listed, found⟩ := member_row claim.found member
  have inside := (claim_owner_error_none.mp claim.unrefused).1
  exact ⟨read, listed, claim.session, claim.scope, claim.unrefused, found, claimable_member rfl claim.claimable listed, rfl,
    claim.producing, selected_member claim.selected listed, rfl, admitted_member inside member claim.admitted, rfl⟩

def judgeCalls (db : Database) (batch : ExecutionClaimBatch) (sessionId : String) (component : Component) : Verdict :=
  match claimedRows db batch with
  | .error error => .error error
  | .ok rows =>
  match validateClaimedRows db batch [] rows with
  | .error error => .error error
  | .ok _ =>
  match readComponentProducingIdentity db component with
  | .error error => .error error
  | .ok identity =>
  match selectionError db sessionId component identity rows with
  | some error => .error error
  | none =>
  match admissionError db batch sessionId component with
  | some error => .error error
  | none => .ok (claimedJobs batch sessionId component identity rows)

theorem batch_verdict_window (session : window.sessionId = some sessionId) (scope : window.component = some component) :
    batchVerdict db probe (claimBatch window leader calls) [] =
      match claimOwnerError db probe window.nodeName sessionId component with
      | .error error => .error error
      | .ok (some error) => .ok (.error error)
      | .ok none => .ok (judgeCalls db (claimBatch window leader calls) sessionId component) := by
  have batchSession : (claimBatch window leader calls).sessionId = some sessionId := session
  have batchScope : (claimBatch window leader calls).component = some component := scope
  have plain : expectedRestartError db (claimBatch window leader calls) sessionId component
      ((claimBatch window leader calls).jobIds.zip ((claimBatch window leader calls).expectedRestarts.getD [])) = .ok none := by
    rw [show (claimBatch window leader calls).expectedRestarts.getD [] = [] from rfl, List.zip_nil_right]
    rfl
  have unchanged : restartIdentityChanged (claimBatch window leader calls) = fun _ => false := rfl
  have masked : maskMatches (claimBatch window leader calls) = true := rfl
  unfold batchVerdict judgeCalls
  rw [batchSession, batchScope]
  dsimp only
  rw [show (claimBatch window leader calls).nodeName = window.nodeName from rfl, plain, unchanged, masked]
  cases claimOwnerError db probe window.nodeName sessionId component with
  | error error => rfl
  | ok refusal =>
  cases refusal with
  | some error => rfl
  | none =>
  cases claimedRows db (claimBatch window leader calls) with
  | error error => rfl
  | ok rows =>
  dsimp only
  simp only [bind, Except.bind, pure, Except.pure]
  cases validateClaimedRows db (claimBatch window leader calls) [] rows with
  | error error => rfl
  | ok _ =>
  cases readComponentProducingIdentity db component with
  | error error => rfl
  | ok identity =>
  dsimp only
  cases selectionError db sessionId component identity rows with
  | some error => rfl
  | none =>
  dsimp only
  cases admissionError db (claimBatch window leader calls) sessionId component with
  | some error => rfl
  | none => rfl

theorem read_for_call {read : ClaimRow} (found : claimedRows db (claimBatch window leader calls) = .ok rows)
    (member : read ∈ rows) : ∃ call ∈ calls, claimedRows db (claimBatch window call [call]) = .ok [read] := by
  have presented : read.job.jobId ∈ (claimBatch window leader calls).jobIds :=
    claimed_rows_jobs found ▸ List.mem_map_of_mem member
  obtain ⟨call, inside, same⟩ := List.mem_map.mp presented
  obtain ⟨here, located⟩ := mem_claimed_rows found member
  have stored : db.jobs.find (window.nodeName, call.jobId) = some read.job := by
    rw [same]
    exact here
  have beside : db.jobInstances.find (window.nodeName, call.jobId) = read.jobInstance := by
    rw [same]
    exact located.symm
  refine ⟨call, inside, Lib.collect_ok.mpr (.cons ?_ .nil)⟩
  rw [Lib.orRaise_ok, claimRow, show (claimBatch window call [call]).nodeName = window.nodeName from rfl, stored, beside]
  rfl

theorem unclaimable_member {error : Error}
    (failed : validateClaimedRows db (claimBatch window leader calls) [] rows = .error error) :
    ∃ read ∈ rows, ∀ call, validateClaimedRows db (claimBatch window call [call]) [] [read] = .error error := by
  have one : ∀ {call : SingleClaim} (read : ClaimRow), validateClaimedRows db (claimBatch window call [call]) [] [read] =
      (do
        require read.instanceIsValid (.runtime "Job claims require valid current job instances")
        refuse (read.job.activeExecutionId.isSome || decide (read.job.address ∈ ([] : List JobAddress)))
          (.runtime "Jobs already claimed cannot receive another active execution")
        each (fun (row : ClaimRow) => do
          if row.hasHistory then
            let _ ← readJobOwnerObservation db window.nodeName row.job.jobId
          else pure ()) [read] : Result Unit) := by
    intro call read
    rw [validateClaimedRows, List.all_cons, List.all_nil, Bool.and_true, List.any_cons, List.any_nil, Bool.or_false]
    rfl
  unfold validateClaimedRows at failed
  by_cases valid : rows.all ClaimRow.instanceIsValid = true
  · rw [valid] at failed
    by_cases active : (rows.any fun row => row.job.activeExecutionId.isSome ||
        decide (row.job.address ∈ ([] : List JobAddress))) = true
    · rw [active] at failed
      obtain ⟨read, member, busy⟩ := List.any_eq_true.mp active
      refine ⟨read, member, fun call => ?_⟩
      rw [one, List.all_eq_true.mp valid read member, busy]
      exact failed
    · have free := (Bool.not_eq_true _).mp active
      rw [free] at failed
      obtain ⟨read, member, stopped⟩ := Lib.each_error failed
      refine ⟨read, member, fun call => ?_⟩
      rw [one, List.all_eq_true.mp valid read member, (Bool.not_eq_true _).mp (List.any_eq_false.mp free read member)]
      exact Lib.each_one.trans stopped
  · have invalid := (Bool.not_eq_true _).mp valid
    rw [invalid] at failed
    obtain ⟨read, member, damaged⟩ := List.all_eq_false.mp invalid
    refine ⟨read, member, fun call => ?_⟩
    rw [one, (Bool.not_eq_true _).mp damaged]
    exact failed

theorem unselected_member {error : Error} (present : rows ≠ [])
    (refused : selectionError db sessionId component identity rows = some error) :
    ∃ read ∈ rows, selectionError db sessionId component identity [read] = some error := by
  unfold selectionError at refused ⊢
  cases stored : readSessionJobRoots db sessionId with
  | error other =>
      rw [stored] at refused
      obtain ⟨read, member⟩ := List.exists_mem_of_ne_nil rows present
      exact ⟨read, member, refused⟩
  | ok roots =>
      rw [stored] at refused
      dsimp only at refused ⊢
      by_cases ordinary : roots.isEmpty = true
      · rw [if_pos ordinary] at refused
        cases refused
      rw [if_neg ordinary] at refused
      cases outside : selectedJobsInScope db roots sessionId component identity rows with
      | ok done =>
          rw [outside] at refused
          cases refused
      | error other =>
          rw [outside] at refused
          obtain ⟨read, member, stopped⟩ := Lib.each_error outside
          have one : selectedJobsInScope db roots sessionId component identity [read] = .error other :=
            Lib.each_one.trans stopped
          refine ⟨read, member, ?_⟩
          rw [if_neg ordinary, one]
          exact refused

theorem owned_restarts_refused {error : Error} (producing : readComponentProducingIdentity db component = .ok identity)
    (refused : claimsOwnedRestarts db (claimBatch window leader calls) sessionId component = .error error) :
    ∃ call ∈ calls, claimsOwnedRestarts db (claimBatch window call [call]) sessionId component = .error error := by
  unfold claimsOwnedRestarts at refused
  cases collected : collect (fun jobId =>
      readOwnedRestart db (claimBatch window leader calls).nodeName jobId sessionId component)
      (claimBatch window leader calls).jobIds with
  | error other =>
      rw [collected] at refused
      cases refused
      obtain ⟨jobId, presented, stopped⟩ := Lib.collect_error collected
      obtain ⟨call, member, rfl⟩ := List.mem_map.mp presented
      have here : readOwnedRestart db window.nodeName call.jobId sessionId component = .error error := stopped
      refine ⟨call, member, ?_⟩
      rw [owned_restarts_one, here]
  | ok restarts =>
      rw [collected, producing] at refused
      by_cases owned : restarts.all Option.isSome = true
      · simp only [bind, Except.bind, owned, if_true] at refused
        generalize alike : restarts.all _ = same at refused
        cases same with
        | true => cases refused
        | false =>
            cases refused
            obtain ⟨value, listed, changed⟩ := List.all_eq_false.mp alike
            obtain ⟨jobId, presented, taken⟩ := (Lib.mem_of_collect collected).1 value listed
            obtain ⟨call, member, rfl⟩ := List.mem_map.mp presented
            have here : readOwnedRestart db window.nodeName call.jobId sessionId component = .ok value := taken
            refine ⟨call, member, ?_⟩
            cases value with
            | none => exact absurd rfl changed
            | some restart =>
                have apart : (restart.owner.shapeId, restart.owner.alignmentGeneration) ≠ identity := by simpa using changed
                rw [owned_restarts_one, here, producing]
                exact if_neg apart
      · simp only [bind, Except.bind, owned] at refused
        cases refused

theorem owned_restarts_ordinary
    (ordinary : claimsOwnedRestarts db (claimBatch window leader calls) sessionId component = .ok false) :
    ∃ call ∈ calls, claimsOwnedRestarts db (claimBatch window call [call]) sessionId component = .ok false := by
  unfold claimsOwnedRestarts at ordinary
  rw [Lib.bind_ok] at ordinary
  obtain ⟨restarts, collected, ordinary⟩ := ordinary
  split at ordinary
  · simp only [Lib.bind_ok, Lib.pure_ok] at ordinary
    obtain ⟨_, _, _, _, never⟩ := ordinary
    cases never
  rename_i mixed
  obtain ⟨value, listed, absent⟩ := List.all_eq_false.mp ((Bool.not_eq_true _).mp mixed)
  obtain ⟨jobId, presented, taken⟩ := (Lib.mem_of_collect collected).1 value listed
  obtain ⟨call, member, rfl⟩ := List.mem_map.mp presented
  refine ⟨call, member, ?_⟩
  have here : readOwnedRestart db window.nodeName call.jobId sessionId component = .ok value := taken
  cases value with
  | some restart => exact absurd rfl absent
  | none => rw [owned_restarts_one, here]

theorem unadmitted_member {error : Error} (present : calls ≠ [])
    (producing : readComponentProducingIdentity db component = .ok identity)
    (refused : admissionError db (claimBatch window leader calls) sessionId component = some error) :
    ∃ call ∈ calls, admissionError db (claimBatch window call [call]) sessionId component = some error := by
  unfold admissionError at refused ⊢
  cases authority : requireInterruptFenceAuthority db sessionId (encodeComponentKey component) with
  | error other =>
      rw [authority] at refused
      obtain ⟨call, member⟩ := List.exists_mem_of_ne_nil calls present
      exact ⟨call, member, refused⟩
  | ok _ =>
      rw [authority] at refused
      dsimp only at refused ⊢
      by_cases fresh : (!db.pendingComponentExecutions.contains (sessionId, encodeComponentKey component)) = true
      · rw [if_pos fresh] at refused
        cases refused
      rw [if_neg fresh] at refused
      cases owned : claimsOwnedRestarts db (claimBatch window leader calls) sessionId component with
      | error other =>
          rw [owned] at refused
          obtain ⟨call, member, stopped⟩ := owned_restarts_refused producing owned
          refine ⟨call, member, ?_⟩
          rw [if_neg fresh, stopped]
          exact refused
      | ok all =>
          rw [owned] at refused
          cases all with
          | true => cases refused
          | false =>
              obtain ⟨call, member, ordinary⟩ := owned_restarts_ordinary owned
              refine ⟨call, member, ?_⟩
              rw [if_neg fresh, ordinary]
              exact refused

theorem refused_member {error : Error} (present : calls ≠ [])
    (refused : judgeCalls db (claimBatch window leader calls) sessionId component = .error error) :
    ∃ call ∈ calls, judgeCalls db (claimBatch window call [call]) sessionId component = .error error := by
  unfold judgeCalls at refused ⊢
  cases found : claimedRows db (claimBatch window leader calls) with
  | error other =>
      rw [found] at refused
      obtain ⟨jobId, presented, missing⟩ := Lib.collect_error found
      obtain ⟨call, member, rfl⟩ := List.mem_map.mp presented
      refine ⟨call, member, ?_⟩
      have one : claimedRows db (claimBatch window call [call]) = .error other := by
        rw [claimedRows, show (claimBatch window call [call]).jobIds = [call.jobId] from rfl, collect]
        exact missing ▸ rfl
      rw [one]
      exact refused
  | ok rows =>
  rw [found] at refused
  dsimp only at refused
  cases claimable : validateClaimedRows db (claimBatch window leader calls) [] rows with
  | error other =>
      rw [claimable] at refused
      obtain ⟨read, listed, failed⟩ := unclaimable_member claimable
      obtain ⟨call, member, one⟩ := read_for_call found listed
      refine ⟨call, member, ?_⟩
      rw [one]
      dsimp only
      rw [failed call]
      exact refused
  | ok _ =>
  rw [claimable] at refused
  have passes : ∀ call ∈ calls, ∃ read ∈ rows, claimedRows db (claimBatch window call [call]) = .ok [read] ∧
      validateClaimedRows db (claimBatch window call [call]) [] [read] = .ok () := by
    intro call member
    obtain ⟨read, listed, one⟩ := member_row found member
    exact ⟨read, listed, one, claimable_member rfl claimable listed⟩
  have read : rows ≠ [] := by
    obtain ⟨call, member⟩ := List.exists_mem_of_ne_nil calls present
    obtain ⟨read, listed, _⟩ := passes call member
    exact List.ne_nil_of_mem listed
  dsimp only at refused
  cases producing : readComponentProducingIdentity db component with
  | error other =>
      rw [producing] at refused
      obtain ⟨call, member⟩ := List.exists_mem_of_ne_nil calls present
      obtain ⟨read, _, one, free⟩ := passes call member
      refine ⟨call, member, ?_⟩
      rw [one]
      dsimp only
      rw [free]
      exact refused
  | ok identity =>
  rw [producing] at refused
  dsimp only at refused
  cases selected : selectionError db sessionId component identity rows with
  | some other =>
      rw [selected] at refused
      obtain ⟨read, listed, outside⟩ := unselected_member read selected
      obtain ⟨call, member, one⟩ := read_for_call found listed
      refine ⟨call, member, ?_⟩
      rw [one]
      dsimp only
      rw [claimable_member rfl claimable listed]
      dsimp only
      rw [outside]
      exact refused
  | none =>
  rw [selected] at refused
  dsimp only at refused
  cases admitted : admissionError db (claimBatch window leader calls) sessionId component with
  | none =>
      rw [admitted] at refused
      cases refused
  | some other =>
      rw [admitted] at refused
      obtain ⟨call, member, waits⟩ := unadmitted_member present producing admitted
      obtain ⟨read, listed, one, free⟩ := passes call member
      refine ⟨call, member, ?_⟩
      rw [one]
      dsimp only
      rw [free]
      dsimp only
      rw [selected_member selected listed]
      dsimp only
      rw [waits]
      exact refused

end Members

section Verdicts

theorem window_verdict_missing (missing : window.sessionId = none ∨ window.component = none) :
    windowVerdict db probe window leader calls = .error sessionMissing := by
  refine if_pos ?_
  rcases missing with session | scope
  · rw [session]
    rfl
  · rw [scope]
    exact Bool.or_true _

theorem window_verdict_judged (session : window.sessionId = some sessionId) (scope : window.component = some component) :
    windowVerdict db probe window leader calls =
      match claimOwnerError db probe window.nodeName sessionId component with
      | .error error => .error error
      | .ok (some error) => .error error
      | .ok none => judgeCalls db (claimBatch window leader calls) sessionId component := by
  unfold windowVerdict
  rw [batch_verdict_window session scope, session, scope]
  cases claimOwnerError db probe window.nodeName sessionId component with
  | error error => rfl
  | ok refusal =>
      cases refusal with
      | some error => rfl
      | none => rfl

theorem window_verdict_cases (window : ClaimWindow) :
    (window.sessionId = none ∨ window.component = none) ∨
      ∃ sessionId component, window.sessionId = some sessionId ∧ window.component = some component := by
  cases session : window.sessionId with
  | none => exact .inl (.inl rfl)
  | some sessionId =>
      cases scope : window.component with
      | none => exact .inl (.inr rfl)
      | some component => exact .inr ⟨sessionId, component, rfl, rfl⟩

theorem window_accepted {jobs : List ClaimedJob} (accepts : windowVerdict db probe window leader calls = .ok jobs) :
    ∃ sessionId component rows identity,
      AcceptedClaim db probe (claimBatch window leader calls) [] sessionId component rows identity ∧
        jobs = claimedJobs (claimBatch window leader calls) sessionId component identity rows := by
  unfold windowVerdict at accepts
  split at accepts
  · cases accepts
  · split at accepts
    · rename_i verdict judged
      subst accepts
      exact batch_verdict_ok.mp judged
    · cases accepts

theorem accepted_window (claim : AcceptedClaim db probe (claimBatch window leader calls) [] sessionId component rows identity) :
    windowVerdict db probe window leader calls =
      .ok (claimedJobs (claimBatch window leader calls) sessionId component identity rows) := by
  have session : window.sessionId = some sessionId := claim.session
  have scope : window.component = some component := claim.scope
  unfold windowVerdict
  rw [batch_verdict_ok.mpr ⟨sessionId, component, rows, identity, claim, rfl⟩, session, scope]
  rfl

theorem accepted_alone {jobs : List ClaimedJob} (accepts : windowVerdict db probe window leader calls = .ok jobs)
    (member : call ∈ calls) : ∃ mine, loneVerdict db probe window call = .ok mine := by
  obtain ⟨sessionId, component, rows, identity, claim, _⟩ := window_accepted accepts
  obtain ⟨read, _, alone⟩ := member_accepted claim member
  exact ⟨_, accepted_window alone⟩

theorem refused_alone {error : Error} (present : calls ≠ [])
    (refuses : windowVerdict db probe window leader calls = .error error) :
    ∃ call ∈ calls, loneVerdict db probe window call = .error error := by
  rcases window_verdict_cases window with missing | ⟨sessionId, component, session, scope⟩
  · obtain ⟨call, member⟩ := List.exists_mem_of_ne_nil calls present
    rw [window_verdict_missing missing] at refuses
    exact ⟨call, member, (window_verdict_missing missing).trans refuses⟩
  rw [window_verdict_judged session scope] at refuses
  cases owner : claimOwnerError db probe window.nodeName sessionId component with
  | error other =>
      obtain ⟨call, member⟩ := List.exists_mem_of_ne_nil calls present
      rw [owner] at refuses
      refine ⟨call, member, ?_⟩
      rw [loneVerdict, window_verdict_judged session scope, owner]
      exact refuses
  | ok refusal =>
      rw [owner] at refuses
      cases refusal with
      | some other =>
          obtain ⟨call, member⟩ := List.exists_mem_of_ne_nil calls present
          refine ⟨call, member, ?_⟩
          rw [loneVerdict, window_verdict_judged session scope, owner]
          exact refuses
      | none =>
          obtain ⟨call, member, refused⟩ := refused_member present refuses
          refine ⟨call, member, ?_⟩
          rw [loneVerdict, window_verdict_judged session scope, owner]
          exact refused

end Verdicts

section Answers

def leaseOf (db : Database) (window : ClaimWindow) (call : SingleClaim) : Lease :=
  (((db.jobs.find (window.nodeName, call.jobId)).map Job.generation).getD 0, call.executionId)

theorem batch_leases (found : claimedRows db (claimBatch window leader calls) = .ok rows) :
    (claimedJobs (claimBatch window leader calls) sessionId component identity rows).map
      (fun job => (job.owner.generation, job.owner.executionId)) = calls.map (leaseOf db window) := by
  have paired : ((rows.zip (calls.map SingleClaim.executionId)).zipIdx.map Prod.fst).map
      (fun entry => (entry.1.job.generation, entry.2)) = calls.map (leaseOf db window) := by
    rw [List.zipIdx_map_fst]
    have related := Lib.collect_ok.mp found
    rw [show (claimBatch window leader calls).jobIds = calls.map SingleClaim.jobId from rfl, List.forall₂_map_left_iff] at related
    clear found
    induction related with
    | nil => rfl
    | @cons call read _ _ step _ ih =>
        rw [Lib.orRaise_ok, claimRow, Option.map_eq_some_iff] at step
        obtain ⟨job, here, rfl⟩ := step
        have stored : db.jobs.find (window.nodeName, call.jobId) = some job := here
        rw [List.map_cons, List.zip_cons_cons, List.map_cons, List.map_cons, ih, leaseOf, stored]
        rfl
  rw [← paired, List.map_map, claimedJobs, List.map_map]
  rfl

theorem built_batch (built : BuiltCalls db window calls) (distinct : (calls.map SingleClaim.jobId).Nodup)
    (member : leader ∈ calls) : BuiltBatch (claimBatch window leader calls) where
  distinct := distinct
  identified := (List.length_map _).trans (List.length_map _).symm
  positive jobId presented := by
    obtain ⟨call, inside, rfl⟩ := List.mem_map.mp presented
    exact built.positive call inside
  pid := built.pid
  thread := built.thread leader member

theorem BuiltCalls.one (built : BuiltCalls db window calls) (member : call ∈ calls) : BuiltCalls db window [call] where
  positive _ inside := List.mem_singleton.mp inside ▸ built.positive call member
  thread _ inside := List.mem_singleton.mp inside ▸ built.thread call member
  pid := built.pid
  distinct := List.nodup_singleton _
  unused _ inside := List.mem_singleton.mp inside ▸ built.unused call member

theorem claim_batch_missing (missing : window.sessionId = none ∨ window.component = none) :
    claimJobExecutionsBatch db probe (claimBatch window leader calls) = (.error sessionMissing, db) := by
  refine if_pos ?_
  rcases missing with session | scope
  · rw [show (claimBatch window leader calls).sessionId = window.sessionId from rfl, session]
    rfl
  · rw [show (claimBatch window leader calls).component = window.component from rfl, scope]
    exact Bool.or_true _

theorem claim_batch_given (session : window.sessionId = some sessionId) (scope : window.component = some component) :
    claimJobExecutionsBatch db probe (claimBatch window leader (call :: calls)) =
      if ¬((call :: calls).map SingleClaim.jobId).Nodup then (.error jobIdsRepeated, db)
      else ((groupedClaims db probe [claimBatch window leader (call :: calls)]).1.headD (.ok []),
        (groupedClaims db probe [claimBatch window leader (call :: calls)]).2) := by
  have batchSession : (claimBatch window leader (call :: calls)).sessionId = some sessionId := session
  have batchScope : (claimBatch window leader (call :: calls)).component = some component := scope
  unfold claimJobExecutionsBatch
  rw [batchSession, batchScope]
  rfl

theorem collected_refused {error : Error} (refuses : windowVerdict db probe window leader (leader :: calls) = .error error)
    (judged : ((leader :: calls).map SingleClaim.jobId).Nodup ∨ window.sessionId = none ∨ window.component = none) :
    collectedClaims db probe window (leader :: calls) = ((leader :: calls).map fun call => (call, .error error), db) := by
  have answered : claimJobExecutionsBatch db probe (claimBatch window leader (leader :: calls)) = (.error error, db) := by
    rcases window_verdict_cases window with missing | ⟨sessionId, component, session, scope⟩
    · rw [window_verdict_missing missing] at refuses
      rw [claim_batch_missing missing, Except.error.inj refuses]
    have distinct : ((leader :: calls).map SingleClaim.jobId).Nodup := by
      rcases judged with distinct | missing | missing
      · exact distinct
      · cases missing.symm.trans session
      · cases missing.symm.trans scope
    rw [claim_batch_given session scope, if_neg (not_not_intro distinct)]
    unfold windowVerdict at refuses
    rw [session, scope] at refuses
    cases verdict : batchVerdict db probe (claimBatch window leader (leader :: calls)) [] with
    | error other =>
        rw [verdict] at refuses
        cases refuses
        have raised : groupedClaims db probe [claimBatch window leader (leader :: calls)] = ([.error error], db) := by
          simp [groupedClaims, applyExecutionClaimBatches, judge_batches_eq (empty_caches_valid db), batchVerdicts, verdict,
            bind, Except.bind]
        rw [raised]
        rfl
    | ok judged =>
        rw [verdict] at refuses
        obtain rfl : judged = .error error := refuses
        rw [@grouped_claims_one db probe _ _ db verdict rfl]
        rfl
  rw [collectedClaims, answered]

theorem collected_repeated (session : window.sessionId = some sessionId) (scope : window.component = some component)
    (repeated : ¬((leader :: calls).map SingleClaim.jobId).Nodup) :
    collectedClaims db probe window (leader :: calls) =
      ((leader :: calls).map fun call => (call, .error jobIdsRepeated), db) := by
  rw [collectedClaims, claim_batch_given session scope, if_pos repeated]

theorem collected_accepted {jobs : List ClaimedJob} (built : BuiltBatch (claimBatch window leader (leader :: calls)))
    (distinct : ((leader :: calls).map SingleClaim.executionId).Nodup)
    (free : ∀ call ∈ leader :: calls, db.jobExecutionOwners.find call.executionId = none)
    (accepts : windowVerdict db probe window leader (leader :: calls) = .ok jobs) :
    ∃ next, writeClaims db (claimsOf (claimBatch window leader (leader :: calls)) jobs) = .ok next ∧
      collectedClaims db probe window (leader :: calls) =
        ((leader :: calls).map fun call => (call, .ok (leaseOf db window call)), next) := by
  obtain ⟨sessionId, component, rows, identity, claim, rfl⟩ := window_accepted accepts
  have unknown : ∀ executionId ∈ (claimBatch window leader (leader :: calls)).executionIds,
      db.jobExecutionOwners.find executionId = none := by
    intro executionId presented
    obtain ⟨call, member, rfl⟩ := List.mem_map.mp presented
    exact free call member
  obtain ⟨next, wrote⟩ := write_batch_total built claim distinct unknown
  refine ⟨next, wrote, ?_⟩
  have judged := batch_verdict_ok.mpr ⟨sessionId, component, rows, identity, claim, rfl⟩
  have grouped : groupedClaims db probe [claimBatch window leader (leader :: calls)] =
      ([.ok ((leader :: calls).map (leaseOf db window))], next) := by
    rw [grouped_claims_one judged (by simpa [acceptedJobs, claimsOf] using wrote), claimResults, batch_leases claim.found]
  have apart : ((leader :: calls).map SingleClaim.jobId).Nodup := built.distinct
  rw [collectedClaims, claim_batch_given claim.session claim.scope, if_neg (not_not_intro apart), grouped]
  refine Prod.ext ?_ rfl
  dsimp only [List.headD]
  rw [List.zip_eq_zipWith, List.zipWith_map_right, List.zipWith_self, List.map_map]
  rfl

end Answers

section Order

variable {order : List SingleClaim} {error : Error}

theorem lone_refused (refuses : loneVerdict db probe window call = .error error) :
    collectedClaims db probe window [call] = ([(call, .error error)], db) :=
  collected_refused refuses (.inl (List.nodup_singleton _))

theorem one_by_one_refused (refuses : ∀ call ∈ order, loneVerdict db probe window call = .error error) :
    claimsOneByOne db probe window order = (order.map fun call => (call, .error error), db) := by
  induction order with
  | nil => rfl
  | cons call rest ih =>
      have first := lone_refused (refuses call List.mem_cons_self)
      have later := ih fun other member => refuses other (List.mem_cons_of_mem _ member)
      rw [claimsOneByOne, first]
      dsimp only
      rw [later]
      rfl

theorem refused_one_by_one (built : BuiltCalls db window order)
    (errors : ∀ answer ∈ (claimsOneByOne db probe window order).1, answer.2 = .error error) :
    ∀ call ∈ order, loneVerdict db probe window call = .error error := by
  induction order with
  | nil => nofun
  | cons call rest ih =>
      have rest_built : BuiltCalls db window rest :=
        ⟨fun other member => built.positive other (List.mem_cons_of_mem _ member),
          fun other member => built.thread other (List.mem_cons_of_mem _ member), built.pid,
          (List.nodup_cons.mp built.distinct).2, fun other member => built.unused other (List.mem_cons_of_mem _ member)⟩
      have here := built.one List.mem_cons_self
      rw [claimsOneByOne] at errors
      have refuses : loneVerdict db probe window call = .error error := by
        cases verdict : loneVerdict db probe window call with
        | error other =>
            have first := lone_refused verdict
            rw [first] at errors
            obtain rfl : other = error :=
              Except.error.inj (errors (call, .error other) (List.mem_append_left _ List.mem_cons_self))
            rfl
        | ok jobs =>
            obtain ⟨next, _, first⟩ := collected_accepted (built_batch here (List.nodup_singleton _) List.mem_cons_self)
              here.distinct (fun other member => (here.unused other member).owner) verdict
            rw [first] at errors
            cases errors (call, .ok (leaseOf db window call)) (List.mem_append_left _ List.mem_cons_self)
      have first := lone_refused refuses
      rw [first] at errors
      intro other member
      rcases List.mem_cons.mp member with rfl | later
      · exact refuses
      · exact ih rest_built (fun answer inside => errors answer (List.mem_append_right _ inside)) other later

theorem lone_apart (claim : AcceptedClaim db probe (claimBatch window call [call]) [] sessionId component rows identity)
    (apart : (window.nodeName, call.jobId) ∉ accepted) :
    AcceptedClaim db probe (claimBatch window call [call]) accepted sessionId component rows identity := by
  refine (accepted_apart fun jobId presented => ?_).mp claim
  rw [show (claimBatch window call [call]).jobIds = [call.jobId] from rfl] at presented
  exact List.mem_singleton.mp presented ▸ apart

structure CallsInTurn (db mid : Database) (probe : Probe) (window : ClaimWindow) (calls made order : List SingleClaim)
    (claimed : Accepted) : Prop where
  turn : InTurn db mid probe (made.map fun call => claimBatch window call [call]) claimed
    (made.map fun call => (window.nodeName, call.jobId))
  taken : claimed.map (fun entry => entry.2.owner.executionId) = made.map SingleClaim.executionId
  among : ∀ call ∈ made ++ order, call ∈ calls
  jobs : ((made ++ order).map SingleClaim.jobId).Nodup
  executions : ((made ++ order).map SingleClaim.executionId).Nodup

theorem calls_in_turn_step {made rest : List SingleClaim} {claimed : Accepted} {jobs : List ClaimedJob}
    (built : BuiltCalls db window calls) (leaves : ∀ earlier ∈ made, LeavesCall db window earlier call)
    (state : CallsInTurn db mid probe window calls made (call :: rest) claimed)
    (accepts : loneVerdict db probe window call = .ok jobs) :
    ∃ next more, collectedClaims mid probe window [call] = ([(call, .ok (leaseOf db window call))], next) ∧
      CallsInTurn db next probe window calls (made ++ [call]) rest more := by
  have member := state.among call (List.mem_append_right _ List.mem_cons_self)
  have here := built_batch (built.one member) (List.nodup_singleton _) List.mem_cons_self
  obtain ⟨owner, component, rows, identity, claim, rfl⟩ := window_accepted accepts
  have apart : (window.nodeName, call.jobId) ∉ made.map fun call => (window.nodeName, call.jobId) := by
    intro inside
    obtain ⟨other, before, same⟩ := List.mem_map.mp inside
    have distinct := state.jobs
    rw [List.map_append, List.map_cons] at distinct
    have repeated : other.jobId = call.jobId := congrArg Prod.snd same
    refine List.disjoint_of_nodup_append distinct (List.mem_map_of_mem before) ?_
    rw [repeated]
    exact List.mem_cons_self
  have grouped := lone_apart claim apart
  have pairs : ∀ earlier ∈ made.map (fun call => claimBatch window call [call]),
      LeavesAlone db earlier (claimBatch window call [call]) := by
    exact List.forall_mem_map.mpr leaves
  have accepts := (state.turn.agree _).mpr ⟨batch_verdict_ok.mpr ⟨_, _, _, _, grouped, rfl⟩, pairs⟩
  obtain ⟨_, _, _, _, now, same⟩ := batch_verdict_ok.mp accepts
  have written := write_claims_ok state.turn.written
  have free : mid.jobExecutionOwners.find call.executionId = none := by
    rw [written.old_owner fun entry listed named => ?_]
    · exact (built.unused call member).owner
    · have executions := state.executions
      rw [List.map_append, List.map_cons, ← state.taken] at executions
      refine List.disjoint_of_nodup_append executions (List.mem_map_of_mem listed) ?_
      rw [named]
      exact List.mem_cons_self
  obtain ⟨next, wrote, collected⟩ := collected_accepted here (List.nodup_singleton _)
    (fun other inside => List.mem_singleton.mp inside ▸ free) (accepted_window now)
  have leases : [leaseOf mid window call] = [leaseOf db window call] :=
    (batch_leases now.found).symm.trans ((congrArg _ same.symm).trans (batch_leases claim.found))
  rw [← same] at wrote
  have unused : ∀ executionId ∈ (claimBatch window call [call]).executionIds, Unused db executionId := by
    intro executionId presented
    obtain ⟨other, inside, rfl⟩ := List.mem_map.mp presented
    exact List.mem_singleton.mp inside ▸ built.unused call member
  have turned := state.turn.accept here unused grouped wrote
  have executions := @claimed_jobs_executions _ owner component identity rows (claimed_rows_jobs claim.found) here.identified
  have onward : (made ++ [call]) ++ rest = made ++ call :: rest := List.append_assoc made [call] rest
  refine ⟨next, claimed ++ claimsOf (claimBatch window call [call])
    (claimedJobs (claimBatch window call [call]) owner component identity rows), ?_, ?_, ?_, ?_, ?_, ?_⟩
  · rw [collected, List.map_cons, List.map_nil, (List.cons.inj leases).1]
  · rw [List.map_append, List.map_append]
    exact turned
  · rw [List.map_append, List.map_append, state.taken, claimsOf, List.map_map]
    exact congrArg _ executions
  · rw [onward]
    exact state.among
  · rw [onward]
    exact state.jobs
  · rw [onward]
    exact state.executions

theorem accepted_one_by_one {made : List SingleClaim} {claimed : Accepted} (built : BuiltCalls db window calls)
    (before : ∀ earlier ∈ made, ∀ later ∈ order, LeavesCall db window earlier later)
    (apart : order.Pairwise (LeavesCall db window))
    (accepts : ∀ call ∈ calls, ∃ jobs, loneVerdict db probe window call = .ok jobs)
    (state : CallsInTurn db mid probe window calls made order claimed) :
    (claimsOneByOne mid probe window order).1 = order.map fun call => (call, .ok (leaseOf db window call)) := by
  induction order generalizing mid made claimed with
  | nil => rfl
  | cons call rest ih =>
      have ⟨mine, others⟩ := List.pairwise_cons.mp apart
      obtain ⟨jobs, accepted⟩ := accepts call (state.among call (List.mem_append_right _ List.mem_cons_self))
      have leaves := fun earlier inside => before earlier inside call List.mem_cons_self
      obtain ⟨next, more, first, later⟩ := calls_in_turn_step built leaves state accepted
      have onward : ∀ earlier ∈ made ++ [call], ∀ later ∈ rest, LeavesCall db window earlier later := by
        rw [List.forall_mem_append, List.forall_mem_singleton]
        exact ⟨fun earlier inside later listed => before earlier inside later (List.mem_cons_of_mem _ listed), mine⟩
      rw [claimsOneByOne, first]
      dsimp only
      rw [ih onward others later]
      rfl

theorem leases_leave_alone {made : List SingleClaim} {claimed : Accepted} (built : BuiltCalls db window calls)
    (accepts : ∀ call ∈ calls, ∃ jobs, loneVerdict db probe window call = .ok jobs)
    (state : CallsInTurn db mid probe window calls made order claimed)
    (leased : ∀ answer ∈ (claimsOneByOne mid probe window order).1, answer.2.isOk = true) :
    (∀ earlier ∈ made, ∀ later ∈ order, LeavesCall db window earlier later) ∧ order.Pairwise (LeavesCall db window) := by
  induction order generalizing mid made claimed with
  | nil => exact ⟨nofun, .nil⟩
  | cons call rest ih =>
      obtain ⟨jobs, accepted⟩ := accepts call (state.among call (List.mem_append_right _ List.mem_cons_self))
      rw [claimsOneByOne] at leased
      have ⟨here, following⟩ := List.forall_mem_append.mp leased
      have leaves : ∀ earlier ∈ made, LeavesCall db window earlier call := by
        cases now : loneVerdict mid probe window call with
        | error error =>
            rw [lone_refused now] at here
            cases here _ List.mem_cons_self
        | ok taken =>
            obtain ⟨_, _, _, _, claim, _⟩ := window_accepted now
            have apart := ((state.turn.agree _).mp (batch_verdict_ok.mpr ⟨_, _, _, _, claim, rfl⟩)).2
            exact List.forall_mem_map.mp apart
      obtain ⟨next, more, first, later⟩ := calls_in_turn_step built leaves state accepted
      rw [first] at following
      obtain ⟨before, apart⟩ := ih later following
      rw [List.forall_mem_append, List.forall_mem_singleton] at before
      exact ⟨fun earlier inside => List.forall_mem_cons.mpr ⟨leaves earlier inside, before.1 earlier inside⟩,
        List.pairwise_cons.mpr ⟨before.2, apart⟩⟩

theorem calls_start (built : BuiltCalls db window calls) (distinct : (calls.map SingleClaim.jobId).Nodup) :
    CallsInTurn db db probe window calls [] calls [] :=
  ⟨.start, rfl, fun _ member => member, distinct, built.distinct⟩

theorem BuiltCalls.perm (built : BuiltCalls db window calls) (same : order.Perm calls) : BuiltCalls db window order where
  positive call member := built.positive call (same.mem_iff.mp member)
  thread call member := built.thread call (same.mem_iff.mp member)
  pid := built.pid
  distinct := (same.map _).nodup_iff.mpr built.distinct
  unused call member := built.unused call (same.mem_iff.mp member)

theorem one_error_in_order {next : Database} (built : BuiltCalls db window calls)
    (answered : collectedClaims db probe window calls = (calls.map fun call => (call, .error error), next))
    (inOrder : InSomeOrder db probe window calls) : ∀ call ∈ calls, loneVerdict db probe window call = .error error := by
  obtain ⟨order, same, answers⟩ := inOrder
  rw [answered] at answers
  have errors : ∀ answer ∈ (claimsOneByOne db probe window order).1, answer.2 = .error error := by
    intro answer inside
    obtain ⟨call, _, rfl⟩ := List.mem_map.mp (answers.mem_iff.mpr inside)
    rfl
  intro call member
  exact refused_one_by_one (built.perm same) errors call (same.mem_iff.mpr member)

theorem collected_together {jobs : List ClaimedJob} (built : BuiltCalls db window (leader :: calls))
    (distinct : ((leader :: calls).map SingleClaim.jobId).Nodup)
    (together : windowVerdict db probe window leader (leader :: calls) = .ok jobs) :
    (collectedClaims db probe window (leader :: calls)).1 =
      (leader :: calls).map fun call => (call, .ok (leaseOf db window call)) := by
  obtain ⟨_, _, answered⟩ := collected_accepted (built_batch built distinct List.mem_cons_self) built.distinct
    (fun call member => (built.unused call member).owner) together
  rw [answered]

theorem in_order_separable {jobs : List ClaimedJob} (built : BuiltCalls db window (leader :: calls))
    (distinct : ((leader :: calls).map SingleClaim.jobId).Nodup)
    (together : windowVerdict db probe window leader (leader :: calls) = .ok jobs)
    (inOrder : InSomeOrder db probe window (leader :: calls)) : SeparableCalls db window (leader :: calls) := by
  obtain ⟨order, same, answers⟩ := inOrder
  rw [collected_together built distinct together] at answers
  have leased : ∀ answer ∈ (claimsOneByOne db probe window order).1, answer.2.isOk = true := by
    intro answer inside
    obtain ⟨call, _, rfl⟩ := List.mem_map.mp (answers.mem_iff.mpr inside)
    rfl
  have accepts : ∀ call ∈ order, ∃ mine, loneVerdict db probe window call = .ok mine :=
    fun call member => accepted_alone together (same.mem_iff.mp member)
  have start := @calls_start db probe window order (built.perm same) ((same.map _).nodup_iff.mpr distinct)
  exact ⟨order, same, (leases_leave_alone (built.perm same) accepts start leased).2⟩

theorem in_order_one_verdict (built : BuiltCalls db window calls) (inOrder : InSomeOrder db probe window calls) :
    OneVerdict db probe window calls := by
  cases calls with
  | nil => exact .accepted List.nodup_nil nofun ⟨[], .nil, .nil⟩
  | cons leader others =>
  rcases window_verdict_cases window with missing | ⟨sessionId, component, session, scope⟩
  · exact .refused sessionMissing (fun _ _ => window_verdict_missing missing) (.inr (missing.imp_right .inl))
  by_cases distinct : ((leader :: others).map SingleClaim.jobId).Nodup
  · cases verdict : windowVerdict db probe window leader (leader :: others) with
    | error error =>
        have answered := collected_refused verdict (.inl distinct)
        exact .refused error (one_error_in_order built answered inOrder) (.inl distinct)
    | ok jobs =>
        exact .accepted distinct (fun call member => accepted_alone verdict member)
          (in_order_separable built distinct verdict inOrder)
  · have answered := @collected_repeated db probe _ leader others _ _ session scope distinct
    exact .refused jobIdsRepeated (one_error_in_order built answered inOrder) (.inr (.inr (.inr rfl)))

theorem all_refused_in_order (refused : ∀ call ∈ leader :: calls, loneVerdict db probe window call = .error error)
    (judged : ((leader :: calls).map SingleClaim.jobId).Nodup ∨ window.sessionId = none ∨ window.component = none ∨
      error = jobIdsRepeated) : InSomeOrder db probe window (leader :: calls) := by
  have together : windowVerdict db probe window leader (leader :: calls) = .error error := by
    cases verdict : windowVerdict db probe window leader (leader :: calls) with
    | error other =>
        obtain ⟨call, member, alone⟩ := refused_alone (List.cons_ne_nil _ _) verdict
        exact alone.symm.trans (refused call member)
    | ok jobs =>
        obtain ⟨mine, alone⟩ := accepted_alone verdict List.mem_cons_self
        cases alone.symm.trans (refused leader List.mem_cons_self)
  have answered : collectedClaims db probe window (leader :: calls) =
      ((leader :: calls).map fun call => (call, .error error), db) := by
    rcases judged with distinct | session | scope | repeated
    · exact collected_refused together (.inl distinct)
    · exact collected_refused together (.inr (.inl session))
    · exact collected_refused together (.inr (.inr scope))
    · by_cases distinct : ((leader :: calls).map SingleClaim.jobId).Nodup
      · exact collected_refused together (.inl distinct)
      rcases window_verdict_cases window with missing | ⟨sessionId, component, session, scope⟩
      · exact collected_refused together (.inr missing)
      · rw [repeated]
        exact collected_repeated session scope distinct
  refine ⟨leader :: calls, .refl _, ?_⟩
  rw [answered, one_by_one_refused refused]

theorem all_accepted_in_order (built : BuiltCalls db window (leader :: calls))
    (distinct : ((leader :: calls).map SingleClaim.jobId).Nodup)
    (accepts : ∀ call ∈ leader :: calls, ∃ jobs, loneVerdict db probe window call = .ok jobs)
    (separable : SeparableCalls db window (leader :: calls)) : InSomeOrder db probe window (leader :: calls) := by
  obtain ⟨order, same, apart⟩ := separable
  refine ⟨order, same, ?_⟩
  obtain ⟨jobs, together⟩ : ∃ jobs, windowVerdict db probe window leader (leader :: calls) = .ok jobs := by
    cases verdict : windowVerdict db probe window leader (leader :: calls) with
    | ok jobs => exact ⟨jobs, rfl⟩
    | error error =>
        obtain ⟨call, member, alone⟩ := refused_alone (List.cons_ne_nil _ _) verdict
        obtain ⟨jobs, accepted⟩ := accepts call member
        cases alone.symm.trans accepted
  have mine : ∀ call ∈ order, ∃ jobs, loneVerdict db probe window call = .ok jobs :=
    fun call member => accepts call (same.mem_iff.mp member)
  have start := @calls_start db probe window order (built.perm same) ((same.map _).nodup_iff.mpr distinct)
  have none : ∀ earlier ∈ ([] : List SingleClaim), ∀ later ∈ order, LeavesCall db window earlier later := nofun
  have answered := accepted_one_by_one (built.perm same) none apart mine start
  rw [collected_together built distinct together, answered]
  exact (same.map _).symm

end Order

-- The callers of a window get the outcomes of their calls in some order exactly where one verdict is right for
-- all of them: each is accepted alone and disturbs no later one, or each is refused alone with the same error.
theorem collected_claims_in_some_order (built : BuiltCalls db window calls) :
    InSomeOrder db probe window calls ↔ OneVerdict db probe window calls := by
  refine ⟨in_order_one_verdict built, fun one => ?_⟩
  cases one with
  | accepted distinct accepts separable =>
      cases calls with
      | nil => exact ⟨[], .nil, .nil⟩
      | cons leader others => exact all_accepted_in_order built distinct accepts separable
  | refused error refused judged =>
      cases calls with
      | nil => exact ⟨[], .nil, .nil⟩
      | cons leader others => exact all_refused_in_order refused judged

def oneNodeWindow : ClaimWindow := ⟨"a", some "s", some ["a"], 7⟩

def oneNodeCall (jobId : Nat) (executionId : String) : SingleClaim := ⟨jobId, 1, executionId, 1, 1⟩

theorem one_node_calls_built {second : Nat} (positive : 1 ≤ second) :
    BuiltCalls oneNodeTwoJobs oneNodeWindow [oneNodeCall 1 "e1", oneNodeCall second "e2"] := by
  refine ⟨fun call member => ?_, fun call member => ?_, by decide, by simp [oneNodeCall], fun call member => ?_⟩
  · rcases List.mem_pair.mp member with rfl | rfl
    · exact Nat.le_refl 1
    · exact positive
  · rcases List.mem_pair.mp member with rfl | rfl
    · exact Nat.le_refl 1
    · exact Nat.le_refl 1
  · refine (@one_node_built "s" "s").unused call.executionId ?_
    rcases List.mem_pair.mp member with rfl | rfl
    · exact List.mem_cons_self
    · exact List.mem_cons_of_mem _ List.mem_cons_self

theorem one_node_calls_separable :
    SeparableCalls oneNodeTwoJobs oneNodeWindow [oneNodeCall 1 "e1", oneNodeCall 2 "e2"] :=
  ⟨_, .refl _, List.pairwise_pair.mpr one_node_leaves_alone⟩

theorem lone_accepted (accepts : (loneVerdict db probe window call).isOk = true) :
    ∃ jobs, loneVerdict db probe window call = .ok jobs := by
  cases verdict : loneVerdict db probe window call with
  | ok jobs => exact ⟨jobs, rfl⟩
  | error error =>
      rw [verdict] at accepts
      cases accepts

theorem one_node_calls_accepted :
    OneVerdict oneNodeTwoJobs oneNodeProbe oneNodeWindow [oneNodeCall 1 "e1", oneNodeCall 2 "e2"] := by
  have first : (loneVerdict oneNodeTwoJobs oneNodeProbe oneNodeWindow (oneNodeCall 1 "e1")).isOk = true := by decide
  have second : (loneVerdict oneNodeTwoJobs oneNodeProbe oneNodeWindow (oneNodeCall 2 "e2")).isOk = true := by decide
  refine .accepted (by decide) (fun call member => ?_) one_node_calls_separable
  rcases List.mem_pair.mp member with rfl | rfl
  · exact lone_accepted first
  · exact lone_accepted second

theorem collected_claims_one_node :
    InSomeOrder oneNodeTwoJobs oneNodeProbe oneNodeWindow [oneNodeCall 1 "e1", oneNodeCall 2 "e2"] := by
  have built := @one_node_calls_built 2 (by decide)
  exact (@collected_claims_in_some_order oneNodeTwoJobs oneNodeProbe oneNodeWindow _ built).mpr one_node_calls_accepted

-- A call for a job that does not exist takes the lease of the valid call beside it.
theorem missing_job_refuses_window :
    BuiltCalls oneNodeTwoJobs oneNodeWindow [oneNodeCall 1 "e1", oneNodeCall 9 "e2"] ∧
      (collectedClaims oneNodeTwoJobs oneNodeProbe oneNodeWindow [oneNodeCall 1 "e1", oneNodeCall 9 "e2"]).1 =
        [(oneNodeCall 1 "e1", .error (.fileNotFound "Job does not exist: a/9")),
          (oneNodeCall 9 "e2", .error (.fileNotFound "Job does not exist: a/9"))] ∧
      ¬InSomeOrder oneNodeTwoJobs oneNodeProbe oneNodeWindow [oneNodeCall 1 "e1", oneNodeCall 9 "e2"] := by
  have built := @one_node_calls_built 9 (by decide)
  refine ⟨built, by decide, fun inOrder => ?_⟩
  have first : (loneVerdict oneNodeTwoJobs oneNodeProbe oneNodeWindow (oneNodeCall 1 "e1")).isOk = true := by decide
  have second : (loneVerdict oneNodeTwoJobs oneNodeProbe oneNodeWindow (oneNodeCall 9 "e2")).isOk = false := by decide
  cases in_order_one_verdict built inOrder with
  | accepted _ accepts _ =>
      obtain ⟨jobs, accepted⟩ := accepts (oneNodeCall 9 "e2") (by decide)
      rw [accepted] at second
      cases second
  | refused error refused _ =>
      rw [refused (oneNodeCall 1 "e1") (by decide)] at first
      cases first

end MicroWorkflow
