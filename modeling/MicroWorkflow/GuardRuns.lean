import MicroWorkflow.GuardedAttempts
import MicroWorkflow.IdempotencyKeys

set_option autoImplicit false

namespace MicroWorkflow

open Lib (require refuse orRaise each Table Run)

section Publications

variable {hash : KeyHash} {causes : ArrivalCauses} {db next : Database}

inductive PublishesInto (db next : Database) (receiver : String) : Prop where
  | job (row : Job) (listed : row ∈ next.jobs.rows) (here : row.nodeName = receiver)
      (fresh : db.jobs.contains row.address = false)
  | input (row : InputPublication) (listed : row ∈ next.inputPublications.rows) (here : row.intent.receiverNode = receiver)
      (standing : row.state ≠ .aborted) (fresh : row ∉ db.inputPublications.rows)

structure JobsAdmitted (db next : Database) : Prop where
  jobs : ∀ row ∈ next.jobs.rows, row ∈ db.jobs.rows ∨ db.receiverMutationGuards.find row.nodeName = none
  guards : next.receiverMutationGuards = db.receiverMutationGuards
  receipts : next.preparationReceipts = db.preparationReceipts
  attempts : next.preparationAttempts = db.preparationAttempts
  inputs : next.inputPublications = db.inputPublications

theorem jobs_admitted_refl : JobsAdmitted db db := ⟨fun _ member => .inl member, rfl, rfl, rfl, rfl⟩

theorem published_admitted {jobs : List NewJob} {keys : List IdempotencyRow} (published : JobsPublished db next jobs keys)
    (opened : ∀ job ∈ jobs, db.receiverMutationGuards.find job.nodeName = none) : JobsAdmitted db next := by
  refine ⟨fun row member => ?_, published.guards, published.receipts, published.attempts, published.inputs⟩
  rw [published.jobs, List.mem_append] at member
  rcases member with kept | added
  · exact .inl kept
  · obtain ⟨job, listed, rfl⟩ := List.mem_map.mp added
    exact .inr (opened job listed)

theorem commit_single_admitted {store stored : JobStore} {request : SingleCreation} {withInput : Bool}
    {answer : Bool × Nat} (done : commitSingleJob hash causes store request withInput = .ok (answer, stored)) :
    JobsAdmitted store.db stored.db := by
  rcases commit_single_cases done with ⟨_, _, _, rfl⟩ | ⟨_, admitted, published, _⟩
  · exact jobs_admitted_refl
  · simp only [admitPublication, Lib.bind_ok] at admitted
    obtain ⟨_, _, _, opened, _⟩ := admitted
    refine published_admitted (publish_single_published published).1 fun job listed => ?_
    rw [List.mem_singleton.mp listed]
    exact receiver_mutation_open opened

theorem create_job_admitted {store stored : JobStore} {request : SingleCreation} {jobId : Nat}
    (done : createJob hash causes store request = .ok (jobId, stored)) : JobsAdmitted store.db stored.db := by
  obtain ⟨_, _, committed⟩ := create_job_cases done
  exact commit_single_admitted committed

theorem same_node {batch : BatchCommit} (same : sameNode batch = true) {job : NewJob} (listed : job ∈ batch.jobs) :
    job.nodeName = batch.nodeName := by
  simpa using List.all_eq_true.mp same job listed

theorem commit_batch_admitted {batch : BatchCommit} {answer : List NewJob × List (String × Nat)}
    (done : commitPreparedJobsBatchResolvingIdempotency hash causes db batch = .ok (answer, next)) :
    JobsAdmitted db next := by
  unfold commitPreparedJobsBatchResolvingIdempotency at done
  split at done
  · simp only [Lib.pure_ok, Prod.mk.injEq] at done
    exact done.2 ▸ jobs_admitted_refl
  · simp only [Lib.bind_ok, Lib.require_ok] at done
    obtain ⟨_, _, _, node, _, _, _, _, _, _, existing, _, _, _, _, _, _, _, done⟩ := done
    split at done
    · simp only [Lib.pure_ok, Prod.mk.injEq] at done
      exact done.2 ▸ jobs_admitted_refl
    · simp only [Lib.bind_ok, Lib.pure_ok, Prod.mk.injEq] at done
      obtain ⟨_, opened, _, _, middle, published, _, rfl⟩ := done
      refine published_admitted (publish_batch_published published).1 fun job listed => ?_
      obtain ⟨entry, kept, rfl⟩ := List.mem_map.mp listed
      have member := (List.of_mem_zip (List.mem_filter.mp kept).1).1
      rw [same_node node member]
      exact receiver_mutation_open opened

theorem commit_explicit_admitted {batch : BatchCommit} {answer : List NewJob}
    (done : commitPreparedJobsBatch hash causes db batch = .ok (answer, next)) : JobsAdmitted db next := by
  unfold commitPreparedJobsBatch at done
  split at done
  · simp only [Lib.pure_ok, Prod.mk.injEq] at done
    exact done.2 ▸ jobs_admitted_refl
  · simp only [Lib.bind_ok, Lib.require_ok, Lib.pure_ok, Prod.mk.injEq] at done
    obtain ⟨_, node, _, _, _, _, _, _, _, _, _, _, _, _, _, _, _, opened, _, _, inserted, rows, produced, creators,
      marked, arrivals, _, rfl⟩ := done
    have added := insert_jobs_inserted rows
    have only := record_job_producers_only creators
    have states := mark_job_arrivals_only arrivals
    have others := added.others
    refine ⟨fun row member => ?_, ?_, ?_, ?_, ?_⟩
    · simp only [insertJobCreatedEvents] at member
      rw [states, only, added.rows, List.mem_append] at member
      rcases member with kept | added
      · exact .inl kept
      · obtain ⟨job, listed, rfl⟩ := List.mem_map.mp added
        refine .inr ?_
        show db.receiverMutationGuards.find job.nodeName = none
        rw [same_node node listed]
        exact receiver_mutation_open opened
    all_goals
      simp only [insertJobCreatedEvents]
      rw [states, only, others]

theorem plan_node_open {node : String} {resolved : KeyIndex} {start jobId : Nat} {items : List AutoJobPublish}
    {plans : List PublishPlan} (planned : planNode hash db node resolved start items = .ok plans)
    (created : .created jobId ∈ plans) : db.receiverMutationGuards.find node = none := by
  induction items generalizing resolved start plans with
  | nil =>
      obtain rfl := Except.ok.inj planned
      exact absurd created (by simp)
  | cons item rest ih =>
      unfold planNode at planned
      split at planned
      · simp only [Lib.bind_ok, Lib.pure_ok] at planned
        obtain ⟨_, _, later, more, rfl⟩ := planned
        exact ih more (by simpa using created)
      · split at planned
        · simp only [Lib.bind_ok, Lib.pure_ok] at planned
          obtain ⟨later, more, rfl⟩ := planned
          exact ih more (by simpa using created)
        · rename_i admitted
          simp only [admitItem, Lib.bind_ok] at admitted
          obtain ⟨_, opened, _⟩ := admitted
          exact receiver_mutation_open opened

theorem pending_open {items : List (Nat × AutoJobPublish)} {planned : List ((Nat × AutoJobPublish) × PublishPlan)}
    (plans : planNodes hash db items = .ok planned) {item : AutoJobPublish} {jobId : Nat}
    (pending : (item, jobId) ∈ planned.filterMap pendingItem) :
    db.receiverMutationGuards.find item.provisional.nodeName = none := by
  simp only [planNodes, Lib.bind_ok, Lib.pure_ok] at plans
  obtain ⟨blocks, collected, rfl⟩ := plans
  obtain ⟨⟨⟨index, found⟩, plan⟩, listed, chosen⟩ := List.mem_filterMap.mp pending
  obtain ⟨block, member, inside⟩ := List.mem_flatten.mp listed
  obtain ⟨node, _, made⟩ := (Lib.mem_of_collect collected).1 _ member
  simp only [Lib.bind_ok, Lib.pure_ok] at made
  obtain ⟨plans, planned, rfl⟩ := made
  obtain ⟨grouped, planHere⟩ := List.of_mem_zip inside
  cases plan with
  | refused error => exact absurd chosen (by simp [pendingItem])
  | existing number => exact absurd chosen (by simp [pendingItem])
  | created number =>
      obtain ⟨rfl, rfl⟩ := Prod.mk.inj (Option.some.inj chosen)
      have here : found.provisional.nodeName = node := by simpa using (List.mem_filter.mp grouped).2
      rw [here]
      exact plan_node_open planned planHere

theorem automatic_admitted {store stored : JobStore} {publishes : List AutoJobPublish}
    {outcomes : List (Result (Bool × Nat))}
    (done : applyAutoJobPublishes hash causes store publishes = .ok (outcomes, stored)) :
    JobsAdmitted store.db stored.db := by
  obtain ⟨items, planned, plans, published, _⟩ := auto_publishes_published done
  refine published_admitted published fun job listed => ?_
  obtain ⟨⟨item, jobId⟩, pending, rfl⟩ := List.mem_map.mp listed
  exact pending_open plans pending

theorem reserve_open {node : String} {count : Nat} {producer : Option String} {ids : List Nat}
    (done : reserveJobIds db node count producer = .ok (ids, next)) :
    db.receiverMutationGuards.find node = none ∧ next = { db with jobSequences := next.jobSequences } := by
  simp only [reserveJobIds, Lib.bind_ok, Lib.pure_ok, Prod.mk.injEq] at done
  obtain ⟨_, _, _, _, _, opened, _, _, _, rfl⟩ := done
  exact ⟨receiver_mutation_open opened, rfl⟩

end Publications

structure GuardState where
  store : JobStore
  active : List String

def GuardState.db (state : GuardState) : Database := state.store.db

def GuardState.withDb (state : GuardState) (db : Database) : GuardState := { state with store := { state.store with db := db } }

inductive GuardOperation where
  | acquire (request : AttemptRequest)
  | prepareUnit (unit : UnitPreparation)
  | commitUnit (unit : UnitPreparation)
  | abortUnit (unit : UnitPreparation)
  | completeMembership (operationId : String)
  | finish (operationId : String)
  | leave (operationId : String)
  | interrupt (operationId : String)
  | cleanup (plan : CleanupPlan)
  | reserve (node : String)
  | create (request : SingleCreation)
  | register (request : SingleCreation)
  | commit (batch : BatchCommit)
  | commitExplicit (batch : BatchCommit)
  | automatic (publishes : List AutoJobPublish)
  | prepareInputs (request : InputPublish)
  | commitInputs (request : InputPublish)
  | abortInputs (request : InputPublish)
  | elsewhere

def CleanupPlan.attemptId : CleanupPlan → Option String
  | .preparation _ guarding _ _ _ => some guarding.operationId
  | .attempt ended _ _ => some ended.operationId
  | .input _ _ _ => none

def GuardOperation.finishes (operationId : String) : GuardOperation → Prop
  | .finish ended => ended = operationId
  | .cleanup plan => plan.attemptId = some operationId
  | _ => False

structure GuardFrame (db next : Database) : Prop where
  live : ∀ place, next.jobs.contains place = true → db.jobs.contains place = true
  guards : ∀ operationId, db.preparationAttempts.contains operationId = true →
    guardsOf next operationId = guardsOf db operationId
  attempts : next.preparationAttempts = db.preparationAttempts
  receipts : next.preparationReceipts = db.preparationReceipts
  inputs : next.inputPublications = db.inputPublications

section Steps

variable (hash : KeyHash) (causes : ArrivalCauses) (live : OwnerLiveness)

inductive GuardStep : GuardState → GuardOperation → GuardState → Prop where
  | acquire {state : GuardState} {request : AttemptRequest} {preflight afterAcquire : Database → Result Unit}
      {next : Database} (done : acquireAttempt (admitGuards preflight request.affectedNodes request.receivers)
        afterAcquire state.db request = .ok next) :
      GuardStep state (.acquire request)
        { state.withDb next with active := request.operationId :: state.active }
  | prepareUnit {state : GuardState} {unit : UnitPreparation} {next : Database} (inside : unit.intent.guardId ∈ state.active)
      (done : prepareUnit state.db unit = .ok next) : GuardStep state (.prepareUnit unit) (state.withDb next)
  | commitUnit {state : GuardState} {unit : UnitPreparation} {next : Database} (inside : unit.intent.guardId ∈ state.active)
      (done : commitUnit causes state.db unit = .ok next) : GuardStep state (.commitUnit unit) (state.withDb next)
  | abortUnit {state : GuardState} {unit : UnitPreparation} {restored : Bool} {next : Database}
      (inside : unit.intent.guardId ∈ state.active)
      (done : abortUnit state.db unit restored = .ok next) : GuardStep state (.abortUnit unit) (state.withDb next)
  | completeMembership {state : GuardState} {validate : Database → Result Unit} {repair : MembershipRepair}
      {expected : PreparationAttempt} {guards : List ReceiverMutationGuard} {next : Database}
      (inside : expected.operationId ∈ state.active)
      (done : completeMembership validate state.db repair expected guards = .ok next) :
      GuardStep state (.completeMembership expected.operationId) (state.withDb next)
  | finish {state : GuardState} {expected : PreparationAttempt} {guards : List ReceiverMutationGuard}
      {requestedCommitted : Bool} {now : Timestamp} {outcome : AttemptState} {next : Database}
      (inside : expected.operationId ∈ state.active)
      (done : finishAttempt state.db expected guards requestedCommitted now = .ok (outcome, next)) :
      GuardStep state (.finish expected.operationId)
        { state.withDb next with active := state.active.filter fun other => other != expected.operationId }
  | leave {state : GuardState} {operationId : String} :
      GuardStep state (.leave operationId)
        { state with active := state.active.filter fun other => other != operationId }
  | interrupt {state : GuardState} {expected : PreparationAttempt} {guards : List ReceiverMutationGuard} {next : Database}
      (outside : expected.operationId ∉ state.active) (done : interruptAttempt state.db expected guards = .ok next) :
      GuardStep state (.interrupt expected.operationId) (state.withDb next)
  | cleanup {state : GuardState} {plan : CleanupPlan} {restored : Bool} {now : Timestamp} {next : Database}
      (outside : ∀ operationId, plan.attemptId = some operationId → operationId ∉ state.active)
      (done : finishCleanupReceipt live state.db plan restored now = .ok next) :
      GuardStep state (.cleanup plan) (state.withDb next)
  | reserve {state : GuardState} {node : String} {count : Nat} {producer : Option String} {ids : List Nat}
      {next : Database} (done : reserveJobIds state.db node count producer = .ok (ids, next)) :
      GuardStep state (.reserve node) (state.withDb next)
  | create {store next : JobStore} {active : List String} {request : SingleCreation} {jobId : Nat}
      (done : createJob hash causes store request = .ok (jobId, next)) :
      GuardStep ⟨store, active⟩ (.create request) ⟨next, active⟩
  | register {store next : JobStore} {active : List String} {request : SingleCreation} {answer : Bool × Nat}
      (done : commitSingleJob hash causes store request false = .ok (answer, next)) :
      GuardStep ⟨store, active⟩ (.register request) ⟨next, active⟩
  | commit {state : GuardState} {batch : BatchCommit} {answer : List NewJob × List (String × Nat)} {next : Database}
      (done : commitPreparedJobsBatchResolvingIdempotency hash causes state.db batch = .ok (answer, next)) :
      GuardStep state (.commit batch) (state.withDb next)
  | commitExplicit {state : GuardState} {batch : BatchCommit} {answer : List NewJob} {next : Database}
      (done : commitPreparedJobsBatch hash causes state.db batch = .ok (answer, next)) :
      GuardStep state (.commitExplicit batch) (state.withDb next)
  | automatic {store next : JobStore} {active : List String} {publishes : List AutoJobPublish}
      {outcomes : List (Result (Bool × Nat))}
      (done : applyAutoJobPublishes hash causes store publishes = .ok (outcomes, next)) :
      GuardStep ⟨store, active⟩ (.automatic publishes) ⟨next, active⟩
  | prepareInputs {state : GuardState} {request : InputPublish} {next : Database}
      (done : prepareInputs state.db request = .ok next) : GuardStep state (.prepareInputs request) (state.withDb next)
  | commitInputs {state : GuardState} {request : InputPublish} {published : Bool} {next : Database}
      (done : commitInputs causes state.db request published = .ok next) :
      GuardStep state (.commitInputs request) (state.withDb next)
  | abortInputs {state : GuardState} {request : InputPublish} {restored : Bool} {next : Database}
      (done : abortInputs state.db request restored = .ok next) :
      GuardStep state (.abortInputs request) (state.withDb next)
  | elsewhere {state : GuardState} {next : JobStore} (frame : GuardFrame state.db next.db) :
      GuardStep state .elsewhere { state with store := next }

def ReceiversQuiet (db : Database) : Prop :=
  ∀ guard ∈ db.receiverMutationGuards.rows, db.preparationAttempts.contains guard.operationId = true →
    ∀ row ∈ db.inputPublications.rows, row.intent.receiverNode = guard.receiverNode → row.state ≠ .prepared

structure GuardsInvariant (state : GuardState) : Prop where
  held : AttemptsHeld state.db
  active : ∀ operationId ∈ state.active, ∃ attempt,
    state.db.preparationAttempts.find operationId = some attempt ∧ attempt.state = .preparing
  quiet : ReceiversQuiet state.db

variable {hash : KeyHash} {causes : ArrivalCauses} {live : OwnerLiveness} {state next : GuardState}
  {operation : GuardOperation}

structure StepRespectsGuards (state : GuardState) (operation : GuardOperation) (next : GuardState) : Prop where
  published : ∀ receiver, PublishesInto state.db next.db receiver →
    state.db.receiverMutationGuards.find receiver = none
  reserved : ∀ node, operation = .reserve node → state.db.receiverMutationGuards.find node = none
  finished : ∀ operationId, operation.finishes operationId → ReleasedExactly state.db next.db operationId
  retained : ∀ operationId, ¬ operation.finishes operationId →
    state.db.preparationAttempts.contains operationId = true →
    guardsOf next.db operationId = guardsOf state.db operationId

structure StepKept (state : GuardState) (operation : GuardOperation) (next : GuardState) : Prop where
  invariant : GuardsInvariant next
  respects : StepRespectsGuards state operation next

theorem mem_guardsOf {db : Database} {operationId : String} {guard : ReceiverMutationGuard} :
    guard ∈ guardsOf db operationId ↔ guard ∈ db.receiverMutationGuards.rows ∧ guard.operationId = operationId := by
  rw [guardsOf, List.mem_insertionSort, Table.mem_select, decide_eq_true_eq]

theorem nothing_published {db next : Database} (jobs : ∀ place, next.jobs.contains place = true → db.jobs.contains place = true)
    (inputs : ∀ row ∈ next.inputPublications.rows, row ∈ db.inputPublications.rows ∨ row.state = .aborted) {receiver : String} :
    ¬ PublishesInto db next receiver := by
  rintro (⟨row, listed, _, fresh⟩ | ⟨row, listed, _, standing, fresh⟩)
  · have live : next.jobs.contains row.address = true := by
      rw [Table.contains, Table.find_of_mem listed]
      rfl
    rw [jobs _ live] at fresh
    cases fresh
  · rcases inputs row listed with kept | aborted
    · exact fresh kept
    · exact standing aborted

theorem quiet_kept {db next : Database} (quiet : ReceiversQuiet db)
    (attempts : ∀ operationId, next.preparationAttempts.contains operationId = true →
      db.preparationAttempts.contains operationId = true)
    (guards : ∀ operationId, db.preparationAttempts.contains operationId = true →
      guardsOf next operationId ⊆ guardsOf db operationId)
    (inputs : ∀ row ∈ next.inputPublications.rows, row ∈ db.inputPublications.rows ∨ row.state ≠ .prepared) :
    ReceiversQuiet next := by
  intro guard listed known row published here
  have before := attempts _ known
  have kept := guards _ before (mem_guardsOf.mpr ⟨listed, rfl⟩)
  rcases inputs row published with old | ended
  · exact quiet guard (mem_guardsOf.mp kept).1 before row old here
  · exact ended

theorem released_within {db next : Database} {operationId : String} (released : ReleasedExactly db next operationId) :
    guardsOf next operationId ⊆ guardsOf db operationId := by
  by_cases waiting : AwaitsDecision next operationId
  · rw [released.kept waiting]
    exact fun _ member => member
  · rw [released.removed waiting]
    exact fun _ member => absurd member (by simp)

theorem still_active {db : Database} {active : List String} {operationId : String} {next : Database}
    (before : ∀ other ∈ active, ∃ attempt, db.preparationAttempts.find other = some attempt ∧ attempt.state = .preparing)
    (others : ∀ other, other ≠ operationId → next.preparationAttempts.find other = db.preparationAttempts.find other)
    (own : operationId ∈ active → ∃ attempt, next.preparationAttempts.find operationId = some attempt ∧
      attempt.state = .preparing) :
    ∀ other ∈ active, ∃ attempt, next.preparationAttempts.find other = some attempt ∧ attempt.state = .preparing := by
  intro other member
  by_cases same : other = operationId
  · exact same ▸ own (same ▸ member)
  · rw [others other same]
    exact before other member

theorem admitted_kept (held : GuardsInvariant state) (admitted : JobsAdmitted state.db next.db)
    (active : next.active = state.active) (plain : ∀ operationId, ¬ operation.finishes operationId)
    (reserved : ∀ node, operation = .reserve node → state.db.receiverMutationGuards.find node = none) :
    StepKept state operation next := by
  have guards := fun operationId => guards_of_same admitted.guards operationId
  refine ⟨⟨?_, ?_, ?_⟩, ⟨?_, reserved, ?_, fun operationId _ _ => guards operationId⟩⟩
  · exact attempts_held_frame held.held admitted.attempts (fun operationId _ => guards operationId) admitted.receipts
  · rw [active, admitted.attempts]
    exact held.active
  · refine quiet_kept held.quiet ?_ ?_ ?_
    · rw [admitted.attempts]
      exact fun _ known => known
    · intro operationId _
      rw [guards operationId]
      exact fun _ member => member
    · rw [admitted.inputs]
      exact fun _ listed => .inl listed
  · rintro receiver (⟨row, listed, rfl, fresh⟩ | ⟨row, listed, _, _, fresh⟩)
    · refine (admitted.jobs row listed).resolve_left fun kept => ?_
      rw [Table.contains, Table.find_of_mem kept] at fresh
      cases fresh
    · rw [admitted.inputs] at listed
      exact absurd listed fresh
  · exact fun operationId finishes => absurd finishes (plain operationId)

theorem owner_kept {operationId : String} (held : GuardsInvariant state) (step : StepOn state.db next.db operationId)
    (active : next.active = state.active)
    (own : ∃ attempt, next.db.preparationAttempts.find operationId = some attempt ∧ attempt.state = .preparing ∧
      ∃ before, state.db.preparationAttempts.find operationId = some before ∧ before.state = .preparing ∧
        attempt.receivers = before.receivers)
    (guards : next.db.receiverMutationGuards = state.db.receiverMutationGuards)
    (inputs : next.db.inputPublications = state.db.inputPublications)
    (live : ∀ place, next.db.jobs.contains place = true → state.db.jobs.contains place = true)
    (plain : ∀ operationId, ¬ operation.finishes operationId) (unreserved : ∀ node, operation ≠ .reserve node) :
    StepKept state operation next := by
  obtain ⟨attempt, found, preparing, before, was, undecided, receivers⟩ := own
  have same := fun operationId => guards_of_same guards operationId
  refine ⟨⟨?_, ?_, ?_⟩, ⟨?_, fun node reserves => absurd reserves (unreserved node), ?_, fun operationId _ _ => same operationId⟩⟩
  · refine attempts_held_step held.held step fun other here => ?_
    obtain rfl := Option.some.inj (here.symm.trans found)
    have named : other.operationId = before.operationId := (Table.find_key here).trans (Table.find_key was).symm
    refine held_open (by rw [preparing]; rfl) ?_
    rw [same, receivers, named]
    exact (held.held _ _ was).guarded (by rw [undecided]; rfl)
  · rw [active]
    exact still_active held.active step.attempts fun _ => ⟨attempt, found, preparing⟩
  · refine quiet_kept held.quiet ?_ ?_ ?_
    · intro other known
      by_cases here : other = operationId
      · rw [here, Table.contains, was]
        rfl
      · rw [Table.contains, ← step.attempts other here]
        exact known
    · intro operationId _
      rw [same operationId]
      exact fun _ member => member
    · rw [inputs]
      exact fun _ listed => .inl listed
  · intro receiver published
    exact absurd published (nothing_published live (by rw [inputs]; exact fun _ listed => .inl listed))
  · exact fun operationId finishes => absurd finishes (plain operationId)

theorem finisher_kept {operationId : String} (held : GuardsInvariant state) (step : StepOn state.db next.db operationId)
    (known : state.db.preparationAttempts.contains operationId = true)
    (own : ∃ row, next.db.preparationAttempts.find operationId = some row ∧ AttemptHeld next.db row)
    (released : ReleasedExactly state.db next.db operationId)
    (active : ∀ other ∈ next.active, other ∈ state.active ∧ other ≠ operationId)
    (inputs : next.db.inputPublications = state.db.inputPublications)
    (jobs : next.db.jobs = state.db.jobs) (finishes : ∀ other, operation.finishes other → other = operationId)
    (finishing : operation.finishes operationId) (unreserved : ∀ node, operation ≠ .reserve node) :
    StepKept state operation next := by
  obtain ⟨row, found, kept⟩ := own
  refine ⟨⟨?_, ?_, ?_⟩, ⟨?_, fun node reserves => absurd reserves (unreserved node), ?_, ?_⟩⟩
  · refine attempts_held_step held.held step fun other here => ?_
    exact Option.some.inj (here.symm.trans found) ▸ kept
  · intro other member
    obtain ⟨before, apart⟩ := active other member
    rw [step.attempts other apart]
    exact held.active other before
  · refine quiet_kept held.quiet ?_ ?_ ?_
    · intro other there
      by_cases here : other = operationId
      · exact here ▸ known
      · rw [Table.contains, ← step.attempts other here]
        exact there
    · intro other _
      by_cases here : other = operationId
      · exact here ▸ released_within released
      · rw [step.guards other here]
        exact fun _ member => member
    · rw [inputs]
      exact fun _ listed => .inl listed
  · intro receiver published
    exact absurd published (nothing_published (by rw [jobs]; exact fun _ there => there)
      (by rw [inputs]; exact fun _ listed => .inl listed))
  · exact fun other ends => finishes other ends ▸ released
  · intro other plain _
    exact step.guards other fun here => plain (here ▸ finishing)

theorem settled_receiver {db : Database} {receiver : String} (settled : requireSettledInputPublications db receiver = .ok ())
    {row : InputPublication} (listed : row ∈ db.inputPublications.rows) (here : row.intent.receiverNode = receiver) :
    row.state ≠ .prepared := by
  have each := Lib.each_ok.mp settled row (Table.mem_select.mpr ⟨listed, by simpa using here⟩)
  simp only [Lib.bind_ok, Lib.refuse_ok, beq_eq_false_iff_ne] at each
  obtain ⟨_, _, unprepared⟩ := each
  exact unprepared

theorem acquired_kept {request : AttemptRequest} {preflight afterAcquire : Database → Result Unit} {after : Database}
    (held : GuardsInvariant state) (done : acquireAttempt (admitGuards preflight request.affectedNodes request.receivers)
      afterAcquire state.db request = .ok after) :
    StepKept state (.acquire request) { state.withDb after with active := request.operationId :: state.active } := by
  obtain ⟨valid, absent, found, own, rows, step, only⟩ := acquire_attempt_ok done
  have inputs : after.inputPublications = state.db.inputPublications := by rw [only]
  have jobs : after.jobs = state.db.jobs := by rw [only]
  refine ⟨⟨?_, ?_, ?_⟩, ⟨?_, fun node reserves => (by cases reserves), fun _ finishes => finishes.elim, ?_⟩⟩
  · refine attempts_held_step held.held step fun attempt here => ?_
    obtain rfl := Option.some.inj (here.symm.trans found)
    refine held_open rfl ?_
    show (guardsOf after request.operationId).map ReceiverMutationGuard.receiverNode = componentKey request.receivers
    rw [own]
    simp only [AttemptRequest.guards, List.map_map]
    exact List.map_id _
  · intro other member
    rcases List.mem_cons.mp member with rfl | before
    · exact ⟨_, found, rfl⟩
    · obtain ⟨attempt, was, preparing⟩ := held.active other before
      have apart : other ≠ request.operationId := by
        rintro rfl
        rw [absent] at was
        cases was
      exact ⟨attempt, (step.attempts other apart).trans was, preparing⟩
  · intro guard listed known row published here
    change row ∈ after.inputPublications.rows at published
    rw [inputs] at published
    by_cases same : guard.operationId = request.operationId
    · have mine : guard ∈ request.guards := own ▸ mem_guardsOf.mpr ⟨listed, same⟩
      obtain ⟨node, chosen, rfl⟩ := List.mem_map.mp mine
      simp only [admitGuards, Lib.bind_ok] at valid
      obtain ⟨_, _, _, _, free⟩ := valid
      have receiver := Lib.each_ok.mp free node (by simpa [componentKey] using chosen)
      simp only [requireFreeReceiver, Lib.bind_ok] at receiver
      obtain ⟨_, settled, _⟩ := receiver
      exact settled_receiver settled published here
    · have before : guard ∈ guardsOf state.db guard.operationId :=
        step.guards _ same ▸ mem_guardsOf.mpr ⟨listed, rfl⟩
      have recorded : state.db.preparationAttempts.contains guard.operationId = true := by
        rw [Table.contains, ← step.attempts _ same]
        exact known
      exact held.quiet guard (mem_guardsOf.mp before).1 recorded row published here
  · intro receiver published
    change PublishesInto state.db after receiver at published
    exact absurd published (nothing_published (by rw [jobs]; exact fun _ there => there)
      (by rw [inputs]; exact fun _ listed => .inl listed))
  · intro other _ known
    refine step.guards other fun here => ?_
    rw [here, Table.contains, absent] at known
    cases known

theorem receipts_kept {unit : UnitPreparation} {after : Database} (held : GuardsInvariant state)
    (inside : unit.intent.guardId ∈ state.active) (step : StepOn state.db after unit.intent.guardId)
    (only : ReceiptsOnly state.db after) (plain : ∀ operationId, ¬ operation.finishes operationId)
    (unreserved : ∀ node, operation ≠ .reserve node) : StepKept state operation (state.withDb after) := by
  obtain ⟨attempt, found, preparing⟩ := held.active _ inside
  have attempts : after.preparationAttempts = state.db.preparationAttempts := by rw [only]
  refine owner_kept held step rfl ⟨attempt, ?_, preparing, attempt, found, preparing, rfl⟩ ?_ ?_ ?_ plain unreserved
  · change after.preparationAttempts.find _ = _
    rw [attempts]
    exact found
  · change after.receiverMutationGuards = _
    rw [only]
  · change after.inputPublications = _
    rw [only]
  · change ∀ place, after.jobs.contains place = true → _
    rw [only]
    exact fun _ there => there

theorem inputs_kept {after : Database} (held : GuardsInvariant state) (only : InputsOnly state.db after)
    (rows : ∀ row ∈ after.inputPublications.rows, row ∈ state.db.inputPublications.rows ∨
      (row.state = .aborted ∨ state.db.receiverMutationGuards.find row.intent.receiverNode = none))
    (plain : ∀ operationId, ¬ operation.finishes operationId) (unreserved : ∀ node, operation ≠ .reserve node) :
    StepKept state operation (state.withDb after) := by
  have guards := fun operationId => guards_of_same only.guards operationId
  refine ⟨⟨?_, ?_, ?_⟩, ⟨?_, fun node reserves => absurd reserves (unreserved node), ?_,
    fun operationId _ _ => guards operationId⟩⟩
  · exact attempts_held_frame held.held only.attempts (fun operationId _ => guards operationId) only.receipts
  · intro other member
    obtain ⟨attempt, found, preparing⟩ := held.active other member
    exact ⟨attempt, (congrArg (fun rows => Table.find rows other) only.attempts).trans found, preparing⟩
  · intro guard listed known row published here
    change guard ∈ after.receiverMutationGuards.rows at listed
    change after.preparationAttempts.contains guard.operationId = true at known
    rw [only.guards] at listed
    rw [only.attempts] at known
    rcases rows row published with kept | aborted | opened
    · exact held.quiet guard listed known row kept here
    · rw [aborted]
      decide
    · rw [here, Table.find_of_mem listed] at opened
      cases opened
  · rintro receiver (⟨row, listed, rfl, fresh⟩ | ⟨row, listed, rfl, standing, fresh⟩)
    · change row ∈ after.jobs.rows at listed
      rw [only.jobs] at listed
      rw [Table.contains, Table.find_of_mem listed] at fresh
      cases fresh
    · rcases rows row listed with kept | aborted | opened
      · exact absurd kept fresh
      · exact absurd aborted standing
      · exact opened
  · exact fun operationId finishes => absurd finishes (plain operationId)

theorem cleanup_kept {plan : CleanupPlan} {restored : Bool} {now : Timestamp} {after : Database}
    (held : GuardsInvariant state)
    (outside : ∀ operationId, plan.attemptId = some operationId → operationId ∉ state.active)
    (done : finishCleanupReceipt live state.db plan restored now = .ok after) :
    StepKept state (.cleanup plan) (state.withDb after) := by
  simp only [finishCleanupReceipt, Lib.bind_ok] at done
  obtain ⟨_, unchanged, done⟩ := done
  cases plan with
  | preparation receipt attempt guards session sameGuard =>
      simp only [requireCleanupUnchanged, Lib.bind_ok] at unchanged
      obtain ⟨_, _, _, recoverable, _⟩ := unchanged
      have found := recoverable_attempt recoverable
      simp only [Lib.bind_ok] at done
      obtain ⟨_, _, receipts, finished, retired⟩ := done
      have first : StepOn state.db { state.db with preparationReceipts := receipts } attempt.operationId :=
        ⟨fun _ _ => rfl, fun _ _ => rfl, fun other apart => finished_receipts finished rfl (sameGuard ▸ apart)⟩
      have middle : AttemptsHeld { state.db with preparationReceipts := receipts } := by
        refine attempts_held_step held.held first fun other here => ?_
        obtain rfl := Option.some.inj (found.symm.trans here)
        have own := held.held _ _ found
        by_cases opened : attempt.state.open = true
        · exact held_open opened (own.guarded opened)
        · obtain ⟨member, prepared, _⟩ := finish_file_receipt_ok finished
          exact absurd ⟨receipt, member, sameGuard, prepared⟩ (own.settled (by simpa using opened))
      obtain ⟨row, released, second, only⟩ := retire_settled_ok middle found retired
      refine finisher_kept held (first.trans second) ?_ row ⟨released.kept, released.removed⟩ ?_ ?_ ?_ ?_ rfl
        (fun node reserves => by cases reserves)
      · rw [Table.contains, found]
        rfl
      · exact fun other member => ⟨member, fun here => outside _ rfl (here ▸ member)⟩
      · change after.inputPublications = _
        rw [only]
      · change after.jobs = _
        rw [only]
      · exact fun other ends => (Option.some.inj ends).symm
  | attempt attempt guards session =>
      simp only [requireCleanupUnchanged, Lib.bind_ok] at unchanged
      obtain ⟨_, _, _, recoverable, _⟩ := unchanged
      have found := recoverable_attempt recoverable
      obtain ⟨row, released, step, only⟩ := retire_settled_ok held.held found done
      refine finisher_kept held step ?_ row released ?_ ?_ ?_ ?_ rfl (fun node reserves => by cases reserves)
      · rw [Table.contains, found]
        rfl
      · exact fun other member => ⟨member, fun here => outside _ rfl (here ▸ member)⟩
      · change after.inputPublications = _
        rw [only]
      · change after.jobs = _
        rw [only]
      · exact fun other ends => (Option.some.inj ends).symm
  | input receipt owner session =>
      simp only [Lib.bind_ok, Lib.pure_ok] at done
      obtain ⟨_, _, receipts, finished, rfl⟩ := done
      refine inputs_kept held ⟨rfl, rfl, rfl, rfl⟩ (fun row listed => ?_) (fun _ ends => by cases ends)
        (fun node reserves => by cases reserves)
      rcases ((finish_file_receipt_ok finished).2.2.2 row).mp listed with ⟨kept, _⟩ | rfl
      · exact .inl kept
      · exact .inr (.inl rfl)

theorem interrupt_kept {expected : PreparationAttempt} {guards : List ReceiverMutationGuard} {after : Database}
    (held : GuardsInvariant state) (outside : expected.operationId ∉ state.active)
    (done : interruptAttempt state.db expected guards = .ok after) :
    StepKept state (.interrupt expected.operationId) (state.withDb after) := by
  obtain ⟨attempt, now, found, preparing, step, only⟩ := interrupt_attempt_ok done
  have inputs : after.inputPublications = state.db.inputPublications := by rw [only]
  have jobs : after.jobs = state.db.jobs := by rw [only]
  have same : ∀ operationId, guardsOf after operationId = guardsOf state.db operationId :=
    guards_of_same (by rw [only])
  refine ⟨⟨?_, ?_, ?_⟩, ⟨?_, fun node reserves => (by cases reserves), fun _ ends => ends.elim,
    fun operationId _ _ => same operationId⟩⟩
  · refine attempts_held_step held.held step fun other here => ?_
    obtain rfl := Option.some.inj (here.symm.trans now)
    have before := (held.held _ _ found).guarded (by rw [preparing]; rfl)
    exact held_open rfl ((congrArg (List.map _) (same _)).trans before)
  · exact still_active held.active step.attempts fun member => absurd member outside
  · show ReceiversQuiet after
    refine quiet_kept held.quiet ?_ ?_ ?_
    · intro other known
      by_cases here : other = expected.operationId
      · rw [here, Table.contains, found]
        rfl
      · rw [Table.contains, ← step.attempts other here]
        exact known
    · intro operationId _
      rw [same operationId]
      exact fun _ member => member
    · rw [inputs]
      exact fun _ listed => .inl listed
  · intro receiver published
    change PublishesInto state.db after receiver at published
    exact absurd published (nothing_published (by rw [jobs]; exact fun _ there => there)
      (by rw [inputs]; exact fun _ listed => .inl listed))

theorem admitted_of_sequences {db next : Database} (only : next = { db with jobSequences := next.jobSequences }) :
    JobsAdmitted db next := by
  rw [only]
  exact ⟨fun _ listed => .inl listed, rfl, rfl, rfl, rfl⟩

theorem elsewhere_kept {after : JobStore} (held : GuardsInvariant state) (frame : GuardFrame state.db after.db) :
    StepKept state .elsewhere { state with store := after } := by
  refine ⟨⟨?_, ?_, ?_⟩, ⟨?_, fun node reserves => (by cases reserves), fun _ ends => ends.elim,
    fun operationId _ known => frame.guards operationId known⟩⟩
  · exact attempts_held_frame held.held frame.attempts frame.guards frame.receipts
  · intro other member
    obtain ⟨attempt, found, preparing⟩ := held.active other member
    exact ⟨attempt, (congrArg (fun rows => Table.find rows other) frame.attempts).trans found, preparing⟩
  · show ReceiversQuiet after.db
    refine quiet_kept held.quiet ?_ ?_ ?_
    · rw [frame.attempts]
      exact fun _ known => known
    · intro operationId known
      rw [frame.guards operationId known]
      exact fun _ member => member
    · rw [frame.inputs]
      exact fun _ listed => .inl listed
  · intro receiver published
    refine absurd published (nothing_published frame.live ?_)
    rw [frame.inputs]
    exact fun _ listed => .inl listed

theorem guard_step_kept (held : GuardsInvariant state) (step : GuardStep hash causes live state operation next) :
    StepKept state operation next := by
  cases step with
  | acquire done => exact acquired_kept held done
  | prepareUnit inside done =>
      obtain ⟨step, only⟩ := prepare_unit_ok done
      exact receipts_kept held inside step only (fun _ ends => ends.elim) (fun node reserves => by cases reserves)
  | commitUnit inside done =>
      obtain ⟨step, attempts, guards, inputs, live⟩ := commit_unit_ok done
      obtain ⟨attempt, found, preparing⟩ := held.active _ inside
      exact owner_kept held step rfl
        ⟨attempt, (congrArg (fun rows => Table.find rows _) attempts).trans found, preparing, attempt, found, preparing, rfl⟩
        guards inputs live (fun _ ends => ends.elim) (fun node reserves => by cases reserves)
  | abortUnit inside done =>
      obtain ⟨step, only⟩ := abort_unit_ok done
      exact receipts_kept held inside step only (fun _ ends => ends.elim) (fun node reserves => by cases reserves)
  | completeMembership inside done =>
      obtain ⟨attempt, revision, found, preparing, now, step, guards, inputs, jobs⟩ := complete_membership_ok done
      refine owner_kept held step rfl ⟨_, now, preparing, attempt, found, preparing, rfl⟩ guards inputs ?_
        (fun _ ends => ends.elim) (fun node reserves => by cases reserves)
      exact fun place there => jobs ▸ there
  | finish inside done =>
      obtain ⟨⟨row, found, _, kept⟩, ⟨attempt, was, _⟩, released, step, only⟩ := finish_attempt_ok held.held done
      refine finisher_kept held step ?_ ⟨row, found, kept⟩ released ?_ ?_ ?_ (fun _ ends => ends.symm) rfl
        (fun node reserves => by cases reserves)
      · rw [Table.contains, was]
        rfl
      · exact fun other member => by simpa using List.mem_filter.mp member
      · exact (congrArg Database.inputPublications only : _)
      · exact (congrArg Database.jobs only : _)
  | leave =>
      refine ⟨⟨held.held, fun other member => held.active other (List.mem_filter.mp member).1, held.quiet⟩,
        ⟨fun receiver published => ?_, fun node reserves => (by cases reserves), fun _ ends => ends.elim,
          fun _ _ _ => rfl⟩⟩
      exact absurd published (nothing_published (fun _ there => there) fun _ listed => .inl listed)
  | interrupt outside done => exact interrupt_kept held outside done
  | cleanup outside done => exact cleanup_kept held outside done
  | reserve done =>
      obtain ⟨opened, only⟩ := reserve_open done
      refine admitted_kept held ?_ rfl (fun _ ends => ends.elim) ?_
      · exact admitted_of_sequences only
      · intro node reserves
        cases reserves
        exact opened
  | create done =>
      exact admitted_kept held (create_job_admitted done) rfl (fun _ ends => ends.elim) (fun _ reserves => by cases reserves)
  | register done =>
      exact admitted_kept held (commit_single_admitted done) rfl (fun _ ends => ends.elim)
        (fun _ reserves => by cases reserves)
  | commit done =>
      exact admitted_kept held (commit_batch_admitted done) rfl (fun _ ends => ends.elim)
        (fun _ reserves => by cases reserves)
  | commitExplicit done =>
      exact admitted_kept held (commit_explicit_admitted done) rfl (fun _ ends => ends.elim)
        (fun _ reserves => by cases reserves)
  | automatic done =>
      exact admitted_kept held (automatic_admitted done) rfl (fun _ ends => ends.elim) (fun _ reserves => by cases reserves)
  | prepareInputs done =>
      obtain ⟨opened, only, rows⟩ := prepare_inputs_ok done
      refine inputs_kept held only (fun row listed => ?_) (fun _ ends => ends.elim) (fun node reserves => by cases reserves)
      rcases (rows row).mp listed with kept | rfl
      · exact .inl kept
      · exact .inr (.inr opened)
  | commitInputs done =>
      obtain ⟨opened, only, _, _, rows⟩ := commit_inputs_ok done
      refine inputs_kept held only (fun row listed => ?_) (fun _ ends => ends.elim) (fun node reserves => by cases reserves)
      rcases (rows row).mp listed with ⟨kept, _⟩ | rfl
      · exact .inl kept
      · exact .inr (.inr opened)
  | abortInputs done =>
      obtain ⟨only, rows⟩ := abort_inputs_ok done
      refine inputs_kept held only (fun row listed => ?_) (fun _ ends => ends.elim) (fun node reserves => by cases reserves)
      rcases (rows row).mp listed with ⟨kept, _⟩ | rfl
      · exact .inl kept
      · exact .inr (.inl rfl)
  | elsewhere frame => exact elsewhere_kept held frame

def NoAttempts (state : GuardState) : Prop := state.db.preparationAttempts.rows = [] ∧ state.active = []

theorem no_attempts_invariant {first : GuardState} (fresh : NoAttempts first) : GuardsInvariant first := by
  obtain ⟨none, idle⟩ := fresh
  have unknown : ∀ operationId, first.db.preparationAttempts.find operationId = .none := by
    intro operationId
    rw [Table.find_none_iff, none]
    exact fun _ member => absurd member (by simp)
  refine ⟨fun operationId attempt found => ?_, fun operationId member => ?_, fun guard _ known => ?_⟩
  · rw [unknown] at found
    cases found
  · rw [idle] at member
    cases member
  · rw [Table.contains, unknown] at known
    cases known

-- In every interleaving a guarded receiver gets no publication, the guards of an attempt go with the last
-- of its awaited receipts and no sooner, and a settled attempt is committed exactly when all it intended
-- is.
theorem receiver_guards {first : GuardState} {operations : List GuardOperation} (fresh : NoAttempts first)
    (run : Run (GuardStep hash causes live) first operations state) :
    AttemptsHeld state.db ∧ ReceiversQuiet state.db ∧
      ∀ operation next, GuardStep hash causes live state operation next →
        AttemptsHeld next.db ∧ StepRespectsGuards state operation next := by
  have held : GuardsInvariant state :=
    run.invariant (no_attempts_invariant fresh) fun held step => (guard_step_kept held step).invariant
  refine ⟨held.held, held.quiet, fun operation next step => ?_⟩
  have kept := guard_step_kept held step
  exact ⟨kept.invariant.held, kept.respects⟩

end Steps

section OneAttempt

def oneAttempt : AttemptRequest where
  operationId := "0123456789abcdef0123456789abcdef"
  sessionId := none
  ownerPid := 1
  processIdentity := "started"
  hostname := "here"
  now := 0
  receivers := ["b"]
  affectedNodes := ["b"]
  expectedReceipts := [⟨"reset", ["a"]⟩]
  membershipRevision := none

def noChecks (_ : Database) : Result Unit := .ok ()

def unguarded : GuardState := ⟨emptyProject.store, []⟩

def guardedDb : Database := Lib.valueOr
  (acquireAttempt (admitGuards noChecks oneAttempt.affectedNodes oneAttempt.receivers) noChecks unguarded.db oneAttempt)
  unguarded.db

def guarded : GuardState := { unguarded.withDb guardedDb with active := [oneAttempt.operationId] }

def releasedDb : Database :=
  (Lib.valueOr (finishAttempt guardedDb oneAttempt.attempt oneAttempt.guards false 1) (.aborted, guardedDb)).2

def released : GuardState := { guarded.withDb releasedDb with active := [] }

example : (refuseReceiverMutation guardedDb "b").isOk = false ∧ (refuseReceiverMutation releasedDb "b").isOk = true := by
  decide

theorem receiver_guards_one_attempt :
    guardsOf releasedDb oneAttempt.operationId = [] ∧ AttemptsHeld released.db ∧ ReceiversQuiet released.db ∧
      ∀ operation next, GuardStep id noCauses ⟨fun _ => true, fun _ => true⟩ released operation next →
        AttemptsHeld next.db ∧ StepRespectsGuards released operation next := by
  have acquired : GuardStep id noCauses ⟨fun _ => true, fun _ => true⟩ unguarded (.acquire oneAttempt) guarded :=
    .acquire (show acquireAttempt (admitGuards noChecks oneAttempt.affectedNodes oneAttempt.receivers) noChecks
      unguarded.db oneAttempt = .ok guardedDb from rfl)
  have finished : GuardStep id noCauses ⟨fun _ => true, fun _ => true⟩ guarded (.finish oneAttempt.attempt.operationId)
      released :=
    .finish (by simp [guarded, AttemptRequest.attempt])
      (show finishAttempt guarded.db oneAttempt.attempt oneAttempt.guards false 1 = .ok (.aborted, releasedDb) from rfl)
  exact ⟨rfl, receiver_guards ⟨rfl, rfl⟩ (.snoc (.snoc (.nil _) acquired) finished)⟩

end OneAttempt

end MicroWorkflow
