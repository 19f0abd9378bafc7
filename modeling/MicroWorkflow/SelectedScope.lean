import MicroWorkflow.AfterClaims
import MicroWorkflow.ComponentExecution
import MicroWorkflow.JobFence

set_option autoImplicit false

namespace MicroWorkflow

open Lib (require refuse orRaise each collect Table Run)

def SessionJob.root (row : SessionJob) : JobRoot := (row.nodeName, row.jobId, row.jobInstanceId)

def ExecutionOwner.root (owner : ExecutionOwner) : JobRoot := (owner.nodeName, owner.jobId, owner.jobInstanceId)

structure SameProduction (left right : ExecutionOwner) : Prop where
  session : left.sessionId = right.sessionId
  component : left.componentKey = right.componentKey
  shape : left.shapeId = right.shapeId
  generation : left.alignmentGeneration = right.alignmentGeneration

inductive CausedFrom (owners : List ExecutionOwner) (roots : List JobRoot) : ExecutionOwner → Prop where
  | root {owner : ExecutionOwner} : owner.root ∈ roots → CausedFrom owners roots owner
  | created {parent owner : ExecutionOwner} : parent ∈ owners → owner.createdByExecutionId = some parent.executionId →
      SameProduction parent owner → CausedFrom owners roots parent → CausedFrom owners roots owner

theorem CausedFrom.mono {owners more : List ExecutionOwner} {roots : List JobRoot} {owner : ExecutionOwner}
    (caused : CausedFrom owners roots owner) (grown : ∀ row ∈ owners, row ∈ more) : CausedFrom more roots owner := by
  induction caused with
  | root member => exact .root member
  | created inside creator same _ ih => exact .created (grown _ inside) creator same ih

section Roots

variable {db : Database} {sessionId : String} {roots : List JobRoot} {root : JobRoot}

theorem session_job_roots_ok (read : readSessionJobRoots db sessionId = .ok roots) :
    roots = (jobRootRows db sessionId).map SessionJob.root ∧ ∀ root ∈ roots, validInstance root.2.2 = true := by
  simp only [readSessionJobRoots, Lib.bind_ok] at read
  obtain ⟨_, _, _, _, _, _, _, _, _, _, collected⟩ := read
  constructor
  · have named := Lib.collect_eq_map (fun entry : SessionJob × Nat => entry.1.root) (by
      intro entry found checked
      simp only [Lib.bind_ok, Lib.pure_ok] at checked
      obtain ⟨_, _, _, _, rfl⟩ := checked
      rfl) collected
    calc
      roots = ((jobRootRows db sessionId).zipIdx.map Prod.fst).map SessionJob.root :=
        by rw [named, List.map_map]; rfl
      _ = (jobRootRows db sessionId).map SessionJob.root := by rw [List.zipIdx_map_fst]
  · intro root member
    obtain ⟨entry, _, checked⟩ := (Lib.mem_of_collect collected).1 root member
    simp only [Lib.bind_ok, Lib.pure_ok, Lib.require_ok, Bool.and_eq_true] at checked
    obtain ⟨_, _, _, ⟨_, valid⟩, rfl⟩ := checked
    exact valid

end Roots

section Walk

variable {db : Database} {roots : List JobRoot} {sessionId creator : String} {component : Component}
  {identity : Nat × Nat}

structure ProducedIn (sessionId : String) (component : Component) (identity : Nat × Nat) (owner : ExecutionOwner) :
    Prop where
  session : owner.sessionId = sessionId
  component : owner.componentKey = component
  identity : (owner.shapeId, owner.alignmentGeneration) = identity

theorem ProducedIn.same {left right : ExecutionOwner} (first : ProducedIn sessionId component identity left)
    (second : ProducedIn sessionId component identity right) : SameProduction left right := by
  have identified := first.identity.trans second.identity.symm
  rw [Prod.mk.injEq] at identified
  exact ⟨first.session.trans second.session.symm, first.component.trans second.component.symm, identified.1,
    identified.2⟩

theorem read_execution_owner_canonical {owner : ExecutionOwner}
    (read : readExecutionOwner db creator = .ok (some owner)) : encodeComponentKey owner.componentKey = owner.componentKey := by
  unfold readExecutionOwner at read
  split at read
  · exact absurd read (by simp)
  · simp only [executionOwnerFromRow, Lib.bind_ok, Lib.pure_ok, Lib.require_ok, beq_iff_eq, Option.some.injEq] at read
    obtain ⟨_, ⟨_, _, _, canonical, _, _, _, _, _, _, _, _, _, _, rfl⟩, rfl⟩ := read
    exact canonical

theorem creator_onward_ok {onward : Lib.Onward String}
    (looked : creatorOnward db roots sessionId component identity creator = .ok onward) (kept : onward ≠ .stop false) :
    ∃ owner, readExecutionOwner db creator = .ok (some owner) ∧ ProducedIn sessionId component identity owner ∧
      ((onward = .stop true ∧ owner.root ∈ roots) ∨ onward = .next owner.createdByExecutionId) := by
  simp only [creatorOnward, Lib.bind_ok, Lib.orRaise_ok] at looked
  obtain ⟨_, read, owner, rfl, looked⟩ := looked
  split at looked
  · cases looked
    exact absurd rfl kept
  rename_i inside
  simp only [Bool.or_eq_true, bne_iff_ne, ne_eq, not_or, not_not] at inside
  refine ⟨owner, read, ⟨inside.1.1, inside.1.2, inside.2⟩, ?_⟩
  split at looked
  · rename_i root
    cases looked
    exact .inl ⟨rfl, root⟩
  · cases looked
    exact .inr rfl

theorem reaches_caused (reaches : Lib.Reaches (creatorOnward db roots sessionId component identity) creator) :
    ∃ parent, parent ∈ db.jobExecutionOwners.rows ∧ parent.executionId = creator ∧
      encodeComponentKey component = component ∧ ProducedIn sessionId component identity parent ∧
      CausedFrom db.jobExecutionOwners.rows roots parent := by
  obtain ⟨n, reached⟩ := reaches
  induction reached with
  | here looked =>
      obtain ⟨owner, read, produced, ⟨_, root⟩ | other⟩ := creator_onward_ok looked (by simp)
      · have here := read_execution_owner_some read
        exact ⟨owner, Table.find_mem here, Table.find_key here,
          produced.component ▸ read_execution_owner_canonical read, produced, .root root⟩
      · exact absurd other (by simp)
  | onward looked _ ih =>
      obtain ⟨parent, inside, named, canonical, before, caused⟩ := ih
      obtain ⟨owner, read, produced, ⟨other, _⟩ | created⟩ := creator_onward_ok looked (by simp)
      · exact absurd other (by simp)
      · have here := read_execution_owner_some read
        rw [Lib.Onward.next.injEq] at created
        exact ⟨owner, Table.find_mem here, Table.find_key here, canonical, produced,
          .created inside (created.symm.trans (congrArg some named.symm)) (before.same produced) caused⟩

def InCausalScope (db : Database) (roots : List JobRoot) (sessionId : String) (component : Component)
    (identity : Nat × Nat) (row : ClaimRow) : Prop :=
  ∃ current, row.jobInstance = some current ∧ ((row.job.nodeName, row.job.jobId, current.instanceId) ∈ roots ∨
    ∃ creator, current.createdByExecutionId = some creator ∧
      Lib.Reaches (creatorOnward db roots sessionId component identity) creator)

theorem descends_iff {origin : Option String} :
    jobDescendsFromSelectedRoot db roots sessionId component identity (db.jobExecutionOwners.rows.length + 1) [] origin =
        .ok true ↔
      ∃ creator, origin = some creator ∧ Lib.Reaches (creatorOnward db roots sessionId component identity) creator := by
  cases origin with
  | none => simp [jobDescendsFromSelectedRoot]
  | some creator =>
      have enough : (recordedExecutions db).length + 1 ≤ db.jobExecutionOwners.rows.length + 1 := by
        simp [recordedExecutions]
      rw [descends_walk, Lib.walk_iff (fun _ _ looked => creator_recorded looked) enough]
      simp

theorem selected_jobs_in_scope_ok {rows : List ClaimRow} (valid : ∀ root ∈ roots, validInstance root.2.2 = true) :
    selectedJobsInScope db roots sessionId component identity rows = .ok () ↔
      ∀ row ∈ rows, InCausalScope db roots sessionId component identity row := by
  rw [selectedJobsInScope, Lib.each_ok]
  refine forall₂_congr fun row _ => ?_
  cases present : row.jobInstance with
  | none =>
      have unnamed : (row.job.nodeName, row.job.jobId, "") ∉ roots := by
        intro member
        have named : validInstance "" = true := valid _ member
        exact absurd named (by decide)
      simp [InCausalScope, present, unnamed, jobDescendsFromSelectedRoot, bind, Except.bind, require]
  | some current =>
      simp only [InCausalScope, present, Option.map_some, Option.getD_some, Option.bind_some, Option.some.injEq,
        exists_eq_left']
      split
      · rename_i member
        simp [member, pure, Except.pure]
      · rename_i absent
        simp only [absent, false_or, ← descends_iff, Lib.bind_ok, Lib.require_ok]
        constructor
        · rintro ⟨inside, walked, rfl⟩
          exact walked
        · exact fun walked => ⟨true, walked, rfl⟩

theorem is_selected_job_ok {row : Job} :
    isSelectedJob db roots sessionId component identity row = .ok true ↔
      InCausalScope db roots sessionId component identity ⟨row, db.jobInstances.find row.address⟩ := by
  unfold isSelectedJob InCausalScope
  cases db.jobInstances.find row.address with
  | none => simp
  | some current =>
      simp only [Option.some.injEq, exists_eq_left']
      split
      · rename_i member
        simp [member]
      · rename_i absent
        simp only [absent, false_or]
        exact descends_iff

end Walk

section Scan

variable {db : Database} {roots : List JobRoot} {sessionId : String} {component : Component} {identity : Nat × Nat}

theorem selection_error_none {rows : List ClaimRow} (recorded : readSessionJobRoots db sessionId = .ok roots)
    (selected : roots ≠ []) :
    selectionError db sessionId component identity rows = none ↔
      ∀ row ∈ rows, InCausalScope db roots sessionId component identity row := by
  rw [← selected_jobs_in_scope_ok (session_job_roots_ok recorded).2]
  have whole : roots.isEmpty = false := by simpa using selected
  simp only [selectionError, recorded, whole, Bool.false_eq_true, if_false]
  cases selectedJobsInScope db roots sessionId component identity rows <;> simp [Result.error?]

structure SelectedScan (db : Database) (sessionId : String) (component : Component) (roots : List JobRoot)
    (identity : Nat × Nat) (jobs : List Job) : Prop where
  recorded : readSessionJobRoots db sessionId = .ok roots
  selected : roots ≠ []
  producing : readComponentProducingIdentity db component = .ok identity
  scope : ∀ job, job ∈ jobs ↔ job ∈ db.jobs.rows ∧ job.nodeName ∈ component ∧
    InCausalScope db roots sessionId component identity ⟨job, db.jobInstances.find job.address⟩

theorem read_selected_execution_jobs_ok {shape : Shape} {jobs : List Job}
    (read : readSelectedExecutionJobs db sessionId component shape roots identity = .ok jobs) :
    SelectedScan db sessionId component roots identity jobs := by
  simp only [readSelectedExecutionJobs, Lib.bind_ok, Lib.pure_ok, Lib.require_ok, beq_iff_eq] at read
  obtain ⟨_, rooted, _, _, _, _, found, producing, _, same, chosen, collected, rfl⟩ := read
  subst same
  simp only [requireSelectedPreparationRoots, Lib.bind_ok, Lib.require_ok, Bool.and_eq_true, beq_iff_eq] at rooted
  obtain ⟨_, ⟨some, _⟩, _, _, _, _, _, recorded, _, rfl, _⟩ := rooted
  refine ⟨recorded, by simpa using some, producing, fun job => ?_⟩
  obtain ⟨back, forth⟩ := Lib.mem_of_collect collected
  rw [← is_selected_job_ok]
  constructor
  · intro member
    obtain ⟨⟨row, flag⟩, inside, rfl⟩ := List.mem_map.mp member
    obtain ⟨listed, chosenFlag⟩ := List.mem_filter.mp inside
    obtain ⟨item, present, decided⟩ := back _ listed
    simp only [Lib.bind_ok, Lib.pure_ok, Prod.mk.injEq] at decided
    obtain ⟨_, decided, rfl, rfl⟩ := decided
    obtain ⟨stored, placed⟩ := List.mem_filter.mp present
    dsimp only at chosenFlag
    subst chosenFlag
    exact ⟨stored, of_decide_eq_true placed, decided⟩
  · rintro ⟨stored, placed, decided⟩
    obtain ⟨⟨row, flag⟩, listed, answer⟩ := forth job (List.mem_filter.mpr ⟨stored, decide_eq_true placed⟩)
    simp only [decided, bind, Except.bind, Lib.pure_ok, Prod.mk.injEq] at answer
    obtain ⟨rfl, rfl⟩ := answer
    exact List.mem_map.mpr ⟨_, List.mem_filter.mpr ⟨listed, rfl⟩, rfl⟩

theorem SelectedScan.admits {jobs : List Job} (scan : SelectedScan db sessionId component roots identity jobs)
    {batch : ExecutionClaimBatch} {rows : List ClaimRow} (member : batch.nodeName ∈ component)
    (found : claimedRows db batch = .ok rows) :
    selectionError db sessionId component identity rows = none ↔ ∀ row ∈ rows, row.job ∈ jobs := by
  rw [selection_error_none scan.recorded scan.selected]
  refine forall₂_congr fun row listed => ?_
  obtain ⟨here, instanceHere⟩ := mem_claimed_rows found listed
  have key := Table.find_key here
  have node : row.job.nodeName = batch.nodeName := congrArg Prod.fst key
  rw [scan.scope, key, ← instanceHere, node]
  exact ⟨fun inside => ⟨Table.find_mem here, member, inside⟩, fun inside => inside.2.2⟩

end Scan

section Claims

variable {db next : Database} {sessionId : String}

theorem claimed_in_scope {probe : Probe} {batches : List ExecutionClaimBatch} {outcomes : List (Result Claims)}
    {owner : ExecutionOwner} (selected : jobRootRows db sessionId ≠ [])
    (applied : applyExecutionClaimBatches db probe batches = .ok (outcomes, next))
    (member : owner ∈ next.jobExecutionOwners.rows) (owned : owner.sessionId = sessionId) :
    owner ∈ db.jobExecutionOwners.rows ∨ ∃ roots, readSessionJobRoots db sessionId = .ok roots ∧ roots ≠ [] ∧
      CausedFrom db.jobExecutionOwners.rows roots owner := by
  obtain ⟨verdicts, judged, _, written⟩ := apply_execution_claim_batches_ok applied
  rw [Table.insertAll_rows written.owners, List.mem_append] at member
  rcases member with kept | new
  · exact .inl kept
  right
  obtain ⟨entry, accepted, rfl⟩ := List.mem_map.mp new
  obtain ⟨_, claimer, component, rows, identity, _, claim, job⟩ := mem_accepted_jobs judged accepted
  have produced : ProducedIn claimer (encodeComponentKey component) identity entry.2.owner := by
    obtain ⟨_, _, made⟩ := List.mem_map.mp job
    rw [← made]
    exact ⟨rfl, rfl, rfl⟩
  obtain rfl : claimer = sessionId := produced.session.symm.trans owned
  obtain ⟨row, listed, current, present, observed, node, jobId⟩ := mem_claimed_jobs claim job
  cases recorded : readSessionJobRoots db claimer with
  | error error =>
      have refused := claim.selected
      simp [selectionError, recorded] at refused
  | ok roots =>
      have named := (session_job_roots_ok recorded).1
      have nonempty : roots ≠ [] := by
        rw [named]
        simpa using selected
      refine ⟨roots, rfl, nonempty, ?_⟩
      obtain ⟨current', same, scope⟩ := (selection_error_none recorded nonempty).mp claim.selected row listed
      obtain rfl := Option.some.inj (present.symm.trans same)
      have rowNode : row.job.nodeName = entry.1.nodeName :=
        congrArg Prod.fst (Table.find_key (mem_claimed_rows claim.found listed).1)
      rcases scope with root | ⟨creator, created, reaches⟩
      · apply CausedFrom.root
        rw [ExecutionOwner.root, node, jobId, observed.instanceId, ← rowNode]
        exact root
      · obtain ⟨parent, inside, parentId, canonical, before, caused⟩ := reaches_caused reaches
        refine .created inside ?_ (before.same (canonical ▸ produced)) caused
        rw [observed.creator, created, parentId]

end Claims

section Writers

variable {db next : Database} {write : JobWrite}

theorem job_write_keeps (applied : write.apply db = .ok next) :
    next.sessionJobs = db.sessionJobs ∧ (next.jobExecutionOwners = db.jobExecutionOwners ∨
      ∃ probe batches outcomes, applyExecutionClaimBatches db probe batches = .ok (outcomes, next)) := by
  cases write with
  | claim probe batches =>
      obtain ⟨⟨outcomes, after⟩, done, rfl⟩ := Lib.map_ok.mp applied
      obtain ⟨_, _, _, written⟩ := apply_execution_claim_batches_ok done
      exact ⟨by rw [written.others], .inr ⟨probe, batches, outcomes, done⟩⟩
  | terminal eventTime updates =>
      obtain ⟨⟨outcomes, after⟩, done, rfl⟩ := Lib.map_ok.mp applied
      obtain ⟨_, written⟩ := apply_terminal_updates_ok done
      exact ⟨by rw [written.others], .inl (by rw [written.others])⟩
  | release eventTime node jobId generation executionId =>
      obtain rfl := Except.ok.inj applied
      unfold releaseUnstartedJobExecution
      dsimp only
      split <;> exact ⟨rfl, .inl rfl⟩
  | cancel eventTime node jobId extra =>
      simp only [JobWrite.apply, setJobStatus, Lib.bind_ok, Lib.pure_ok] at applied
      obtain ⟨_, _, rfl⟩ := applied
      exact ⟨rfl, .inl rfl⟩
  | ownedRestart probe targets request plan =>
      rcases (apply_owned_restarts_ok applied).2 with ⟨_, rfl⟩ | ⟨_, written⟩
      · exact ⟨rfl, .inl rfl⟩
      · exact ⟨by rw [written.others], .inl (by rw [written.others])⟩
  | independentRestart probe target request =>
      have written := (apply_independent_restart_ok applied).2
      exact ⟨by rw [written.others], .inl (by rw [written.others])⟩

end Writers

section Runs

inductive ScopeLabel where
  | applied (write : JobWrite)
  | refused (write : JobWrite)
  | elsewhere
  | rerooted

-- A writer's commit, its refusal, any change of other tables or of jobs and instances, or the freeze of an
-- interrupt, which records the session's sample anew and refuses an empty one.
inductive ScopeStep (sessionId : String) : Database → ScopeLabel → Database → Prop where
  | applied {db next : Database} {write : JobWrite} :
      write.apply db = .ok next → ScopeStep sessionId db (.applied write) next
  | refused {db : Database} {write : JobWrite} {error : Error} :
      write.apply db = .error error → ScopeStep sessionId db (.refused write) db
  | elsewhere {db next : Database} : next.jobExecutionOwners = db.jobExecutionOwners →
      jobRootRows next sessionId = jobRootRows db sessionId → ScopeStep sessionId db .elsewhere next
  | rerooted {db next : Database} : next.jobExecutionOwners = db.jobExecutionOwners →
      jobRootRows next sessionId ≠ [] → ScopeStep sessionId db .rerooted next

structure AdmittedWithRoots (db : Database) (sessionId : String) (roots : List JobRoot) : Prop where
  recorded : readSessionJobRoots db sessionId = .ok roots
  selected : roots ≠ []
  unclaimed : ∀ owner ∈ db.jobExecutionOwners.rows, owner.sessionId ≠ sessionId

variable {sessionId : String} {start db next final : Database} {label : ScopeLabel} {labels : List ScopeLabel}
  {roots : List JobRoot} {owner : ExecutionOwner}

theorem job_root_rows_congr (same : next.sessionJobs = db.sessionJobs) :
    jobRootRows next sessionId = jobRootRows db sessionId := by
  rw [jobRootRows, jobRootRows, same]

theorem scope_step_roots (selected : jobRootRows db sessionId ≠ []) (step : ScopeStep sessionId db label next) :
    jobRootRows next sessionId ≠ [] := by
  cases step with
  | applied applied =>
      rw [job_root_rows_congr (job_write_keeps applied).1]
      exact selected
  | refused _ => exact selected
  | elsewhere _ kept =>
      rw [kept]
      exact selected
  | rerooted _ some => exact some

theorem scope_step_same_roots (step : ScopeStep sessionId db label next) (other : label ≠ .rerooted) :
    jobRootRows next sessionId = jobRootRows db sessionId := by
  cases step with
  | applied applied => exact job_root_rows_congr (job_write_keeps applied).1
  | refused _ => rfl
  | elsewhere _ kept => exact kept
  | rerooted _ _ => exact absurd rfl other

theorem scope_step_owners (step : ScopeStep sessionId db label next) (member : owner ∈ db.jobExecutionOwners.rows) :
    owner ∈ next.jobExecutionOwners.rows := by
  cases step with
  | applied applied =>
      rcases (job_write_keeps applied).2 with same | ⟨probe, batches, outcomes, done⟩
      · exact same ▸ member
      · obtain ⟨_, _, _, written⟩ := apply_execution_claim_batches_ok done
        rw [Table.insertAll_rows written.owners]
        exact List.mem_append_left _ member
  | refused _ => exact member
  | elsewhere same _ => exact same ▸ member
  | rerooted same _ => exact same ▸ member

theorem scope_step_claims (selected : jobRootRows db sessionId ≠ []) (step : ScopeStep sessionId db label next)
    (member : owner ∈ next.jobExecutionOwners.rows) (owned : owner.sessionId = sessionId) :
    owner ∈ db.jobExecutionOwners.rows ∨ ∃ roots, readSessionJobRoots db sessionId = .ok roots ∧ roots ≠ [] ∧
      CausedFrom db.jobExecutionOwners.rows roots owner := by
  cases step with
  | applied applied =>
      rcases (job_write_keeps applied).2 with same | ⟨probe, batches, outcomes, done⟩
      · exact .inl (same ▸ member)
      · exact claimed_in_scope selected done member owned
  | refused _ => exact .inl member
  | elsewhere same _ => exact .inl (same ▸ member)
  | rerooted same _ => exact .inl (same ▸ member)

def ClaimedInScope (sessionId : String) (start final : Database) (labels : List ScopeLabel) (owner : ExecutionOwner) :
    Prop :=
  ∃ before after at_ roots, labels = before ++ after ∧ Run (ScopeStep sessionId) start before at_ ∧
    Run (ScopeStep sessionId) at_ after final ∧ readSessionJobRoots at_ sessionId = .ok roots ∧ roots ≠ [] ∧
      CausedFrom final.jobExecutionOwners.rows roots owner

theorem run_roots (selected : jobRootRows start sessionId ≠ []) (run : Run (ScopeStep sessionId) start labels final) :
    jobRootRows final sessionId ≠ [] :=
  run.invariant selected fun kept step => scope_step_roots kept step

theorem run_same_roots (run : Run (ScopeStep sessionId) start labels final) (fixed : .rerooted ∉ labels) :
    jobRootRows final sessionId = jobRootRows start sessionId := by
  let Other : ScopeLabel → Prop := fun label => label ≠ .rerooted
  let Same : Database → Prop := fun db => jobRootRows db sessionId = jobRootRows start sessionId
  have good : ∀ label ∈ labels, Other label := fun label member same => fixed (same ▸ member)
  have base : Same start := rfl
  have last : Same final := by
    apply run.invariant_of_labels good base
    intro db next label kept other step
    exact (scope_step_same_roots step other).trans kept
  exact last

theorem run_claimed_in_scope (admitted : AdmittedWithRoots start sessionId roots)
    (run : Run (ScopeStep sessionId) start labels final) (member : owner ∈ final.jobExecutionOwners.rows)
    (owned : owner.sessionId = sessionId) : ClaimedInScope sessionId start final labels owner := by
  have first : jobRootRows start sessionId ≠ [] := by
    have named := (session_job_roots_ok admitted.recorded).1
    intro nothing
    rw [nothing] at named
    exact admitted.selected named
  induction run with
  | nil => exact absurd owned (admitted.unclaimed owner member)
  | @snoc mid next earlier label before last ih =>
      rcases scope_step_claims (run_roots first before) last member owned with kept | ⟨roots, recorded, selected, caused⟩
      · obtain ⟨firsts, later, at_, roots, rfl, reached, goes, recorded, selected, caused⟩ := ih kept
        refine ⟨firsts, later ++ [label], at_, roots, List.append_assoc .., reached, .snoc goes last, recorded, selected, ?_⟩
        exact caused.mono fun row inside => scope_step_owners last inside
      · refine ⟨earlier, [label], mid, roots, rfl, before, .snoc (.nil mid) last, recorded, selected, ?_⟩
        exact caused.mono fun row inside => scope_step_owners last inside

structure GuardAgreesWithScan (db : Database) (sessionId : String) (component : Component) (identity : Nat × Nat)
    (jobs : List Job) : Prop where
  producing : readComponentProducingIdentity db component = .ok identity
  inside : ∀ job ∈ jobs, job ∈ db.jobs.rows ∧ job.nodeName ∈ component
  admits : ∀ batch rows, batch.nodeName ∈ component → claimedRows db batch = .ok rows →
    ((selectedJobClaimError db sessionId component identity rows []).1 = none ↔ ∀ row ∈ rows, row.job ∈ jobs)

theorem SelectedScan.agrees {component : Component} {identity : Nat × Nat} {jobs : List Job}
    (scan : SelectedScan db sessionId component roots identity jobs) :
    GuardAgreesWithScan db sessionId component identity jobs := by
  refine ⟨scan.producing, fun job member => ?_, fun batch rows member found => ?_⟩
  · obtain ⟨stored, placed, _⟩ := (scan.scope job).mp member
    exact ⟨stored, placed⟩
  · rw [(selected_job_claim_error_uncached (remembers_nil _) sessionId component identity rows).1]
    exact scan.admits member found

-- Selected-job causal scope: every execution of the session was claimed inside the scope of its recorded
-- roots, the job scan and the claim guard decide the same rows, and the backward walk ends.
theorem selected_causal_scope (admitted : AdmittedWithRoots start sessionId roots)
    (run : Run (ScopeStep sessionId) start labels final) :
    (∀ owner ∈ final.jobExecutionOwners.rows, owner.sessionId = sessionId →
      ClaimedInScope sessionId start final labels owner ∧
        (.rerooted ∉ labels → CausedFrom final.jobExecutionOwners.rows roots owner)) ∧
    (∀ component shape recorded identity jobs,
      readSelectedExecutionJobs final sessionId component shape recorded identity = .ok jobs →
        GuardAgreesWithScan final sessionId component identity jobs) ∧
    ∀ recorded claimer component identity extra creator,
      jobDescendsFromSelectedRoot final recorded claimer component identity
          (final.jobExecutionOwners.rows.length + 1 + extra) [] creator =
        jobDescendsFromSelectedRoot final recorded claimer component identity
          (final.jobExecutionOwners.rows.length + 1) [] creator := by
  refine ⟨fun owner member owned => ?_, fun component shape recorded identity jobs read => ?_, ?_⟩
  · have claimed := run_claimed_in_scope admitted run member owned
    refine ⟨claimed, fun fixed => ?_⟩
    obtain ⟨before, after, at_, recorded, rfl, reached, _, read, _, caused⟩ := claimed
    have same := run_same_roots reached fun member => fixed (List.mem_append_left _ member)
    have first := (session_job_roots_ok admitted.recorded).1
    have later := (session_job_roots_ok read).1
    rw [same, ← first] at later
    exact later ▸ caused
  · exact (read_selected_execution_jobs_ok read).agrees
  · intro recorded claimer component identity extra creator
    exact descends_fuel List.nodup_nil (fun _ absent => absurd absent List.not_mem_nil) (by simp)

end Runs

section OneNode

def oneNodeRooted : Database := { oneNodeProject with
  executionSessions := ⟨[{ oneNodeSession with selectionKind := .jobs }], by decide⟩
  sessionJobs := ⟨[⟨"s", 0, "a", 1, "00000000000000000000000000000001"⟩], by decide⟩ }

def oneNodeRootClaimed : Database := (oneNodeClaim "e1").after oneNodeRooted

def oneNodeRootChild : Database := { oneNodeRootClaimed with
  jobs := ⟨oneNodeRootClaimed.jobs.rows ++ [oneNodeJob 2], by decide⟩
  jobInstances := ⟨oneNodeRootClaimed.jobInstances.rows ++
    [⟨"a", 2, "00000000000000000000000000000002", none, some "e1"⟩], by decide⟩ }

def oneNodeChildClaim : JobWrite :=
  .claim oneNodeProbe [⟨"a", [2], ["e2"], 1, 7, 1, 1, none, none, some "s", some ["a"], none⟩]

def oneNodeChildClaimed : Database := oneNodeChildClaim.after oneNodeRootChild

def oneNodeChildOwner : ExecutionOwner :=
  ⟨"e2", "a", 2, "00000000000000000000000000000002", 0, "s", ["a"], 1, 0, some "e1"⟩

theorem after_scope_step {db : Database} {sessionId : String} {write : JobWrite}
    (accepted : (write.apply db).isOk = true) : ScopeStep sessionId db (.applied write) (write.after db) :=
  .applied (Lib.ok_valueOr accepted)

theorem selected_causal_scope_one_node :
    CausedFrom oneNodeChildClaimed.jobExecutionOwners.rows [("a", 1, "00000000000000000000000000000001")]
        oneNodeChildOwner ∧
      ∃ jobs, GuardAgreesWithScan oneNodeChildClaimed "s" ["a"] (1, 0) jobs ∧ jobs.map Job.address = [("a", 1), ("a", 2)] := by
  have admitted : AdmittedWithRoots oneNodeRooted "s" [("a", 1, "00000000000000000000000000000001")] :=
    ⟨by decide, by decide, by decide⟩
  have claimed : ScopeStep "s" oneNodeRooted (.applied (oneNodeClaim "e1")) oneNodeRootClaimed :=
    after_scope_step (by decide)
  have created : ScopeStep "s" oneNodeRootClaimed .elsewhere oneNodeRootChild := .elsewhere rfl rfl
  have claimedChild : ScopeStep "s" oneNodeRootChild (.applied oneNodeChildClaim) oneNodeChildClaimed :=
    after_scope_step (by decide)
  obtain ⟨caused, agrees, _⟩ := selected_causal_scope admitted (.snoc (.snoc (.snoc (.nil _) claimed) created) claimedChild)
  constructor
  · exact (caused oneNodeChildOwner (by decide) rfl).2 (by simp)
  · have read : (readSelectedExecutionJobs oneNodeChildClaimed "s" ["a"] oneNodeShape
        [("a", 1, "00000000000000000000000000000001")] (1, 0)).map (List.map Job.address) = .ok [("a", 1), ("a", 2)] := by
      decide
    obtain ⟨jobs, scanned, places⟩ := Lib.map_ok.mp read
    exact ⟨jobs, agrees _ _ _ _ _ scanned, places⟩

end OneNode

end MicroWorkflow
