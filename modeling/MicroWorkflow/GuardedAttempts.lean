import MicroWorkflow.ReceiverGuards

set_option autoImplicit false

namespace MicroWorkflow

open Lib (require refuse orRaise each thread Table)

section Rows

variable {db next : Database} {attempt expected current : PreparationAttempt} {guards : List ReceiverMutationGuard}
  {operationId : String} {outcome : AttemptState}

theorem exact_attempt (exact_ : requireExactAttempt db expected guards = .ok ()) :
    db.preparationAttempts.find expected.operationId = some expected ∧ guardsOf db expected.operationId = guards := by
  simpa only [requireExactAttempt, Lib.require_ok, Bool.and_eq_true, beq_iff_eq] using exact_

theorem attempt_completion_ok (completed : requireAttemptCompletion db expected guards = .ok current) :
    current.operationId = expected.operationId ∧ current.receivers = expected.receivers ∧
      db.preparationAttempts.find expected.operationId = some current ∧
      guardsOf db expected.operationId = guards := by
  simp only [requireAttemptCompletion, Lib.bind_ok, Lib.pure_ok] at completed
  obtain ⟨row, _, _, same, _, _, rfl⟩ := completed
  exact ⟨rfl, rfl, exact_attempt same⟩

theorem guards_of_same (same : next.receiverMutationGuards = db.receiverMutationGuards) (operationId : String) :
    guardsOf next operationId = guardsOf db operationId := by
  unfold guardsOf
  rw [same]

theorem release_guards_ok {error : Error} (released : releaseGuards db operationId guards error = .ok next) :
    guardsOf next operationId = [] ∧ (∀ other, other ≠ operationId → guardsOf next other = guardsOf db other) ∧
      next = { db with receiverMutationGuards := next.receiverMutationGuards } := by
  simp only [releaseGuards, Lib.bind_ok, Lib.pure_ok] at released
  obtain ⟨_, _, rfl⟩ := released
  refine ⟨?_, ?_, rfl⟩
  · unfold guardsOf Table.select Table.delete
    rw [List.filter_filter, List.filter_eq_nil_iff.mpr]
    · rfl
    · intro row _
      simp
  · intro other apart
    unfold guardsOf Table.select Table.delete
    rw [List.filter_filter]
    congr 1
    apply List.filter_congr
    intro row _
    by_cases here : row.operationId = other
    · simp [here, apart]
    · simp [here]

theorem release_settled_ok {requested : Bool}
    (released : releaseSettled db operationId guards outcome requested = .ok next) :
    (outcome = .interrupted ∧ next = db) ∨ (outcome ≠ .interrupted ∧ guardsOf next operationId = [] ∧
      (∀ other, other ≠ operationId → guardsOf next other = guardsOf db other) ∧
      next = { db with receiverMutationGuards := next.receiverMutationGuards }) := by
  unfold releaseSettled at released
  split at released
  · exact .inl ⟨‹_›, (Except.ok.inj released).symm⟩
  · simp only [Lib.bind_ok] at released
    obtain ⟨_, _, released⟩ := released
    exact .inr ⟨‹_›, release_guards_ok released⟩

structure ReleasedExactly (db next : Database) (operationId : String) : Prop where
  kept : AwaitsDecision next operationId → guardsOf next operationId = guardsOf db operationId
  removed : ¬ AwaitsDecision next operationId → guardsOf next operationId = []

theorem fulfilled_recorded (outcome : AttemptState) (time : Option Timestamp) :
    Fulfilled db { current with state := outcome, finishedAt := time } ↔ Fulfilled db current :=
  ⟨fun done => ⟨done.units, done.membership⟩, fun done => ⟨done.units, done.membership⟩⟩

theorem outcome_held (next : Database) (time : Option Timestamp) (decided : attemptOutcome db current = .ok outcome)
    (guarded : (guardsOf db current.operationId).map ReceiverMutationGuard.receiverNode = current.receivers)
    (receipts : next.preparationReceipts = db.preparationReceipts)
    (guards : (outcome = .interrupted ∧ guardsOf next current.operationId = guardsOf db current.operationId) ∨
      (outcome ≠ .interrupted ∧ guardsOf next current.operationId = [])) :
    AttemptHeld next { current with state := outcome, finishedAt := time } ∧
      ReleasedExactly db next current.operationId := by
  obtain ⟨awaits, fulfilled, undecided⟩ := attempt_outcome_ok decided
  have same : SameReceipts db next current.operationId := fun row _ => by rw [receipts]
  rcases guards with ⟨rfl, kept⟩ | ⟨settled, removed⟩
  · refine ⟨held_open rfl (by rw [← guarded, ← kept]), fun _ => kept, fun quiet => ?_⟩
    exact absurd ((awaits_same same).mpr (awaits.mp rfl)) quiet
  · have quiet : ¬ AwaitsDecision next current.operationId := by
      rw [awaits_same same]
      exact fun waiting => settled (awaits.mpr waiting)
    refine ⟨⟨fun opened => ?_, fun _ => removed, fun _ => quiet, fun _ => ?_⟩, fun waiting => absurd waiting quiet,
      fun _ => removed⟩
    · cases outcome with
      | preparing => exact absurd rfl undecided
      | interrupted => exact absurd rfl settled
      | committed => cases opened
      | aborted => cases opened
    · show outcome = .committed ↔ _
      rw [fulfilled]
      exact (fulfilled_same same).symm.trans (fulfilled_recorded outcome time).symm

end Rows

section Owner

variable {db next : Database} {expected : PreparationAttempt} {guards : List ReceiverMutationGuard}

def OwnershipOnly (db next : Database) : Prop :=
  next = { db with
    preparationAttempts := next.preparationAttempts
    receiverMutationGuards := next.receiverMutationGuards }

theorem acquire_attempt_ok {validate afterAcquire : Database → Result Unit} {request : AttemptRequest}
    (acquired : acquireAttempt validate afterAcquire db request = .ok next) :
    validate db = .ok () ∧ db.preparationAttempts.find request.operationId = none ∧
      next.preparationAttempts.find request.operationId = some request.attempt ∧
      guardsOf next request.operationId = request.guards ∧
      next.receiverMutationGuards.rows = db.receiverMutationGuards.rows ++ request.guards ∧
      StepOn db next request.operationId ∧ OwnershipOnly db next := by
  simp only [acquireAttempt, Lib.bind_ok, Lib.orRaise_ok, Lib.pure_ok] at acquired
  obtain ⟨_, valid, attempts, inserted, held, added, _, _, _, _, _, exact_, rfl⟩ := acquired
  have rows := Table.insertAll_rows added
  obtain ⟨found, own⟩ := exact_attempt exact_
  refine ⟨valid, (Table.insert_eq_some.mp inserted).1, found, own, rows, ⟨?_, ?_, ?_⟩, rfl⟩
  · intro other apart
    exact (Table.find_insert inserted other).trans (if_neg (Ne.symm apart))
  · intro other apart
    unfold guardsOf Table.select
    dsimp only
    rw [rows, List.filter_append]
    have none : (request.guards.filter fun row => decide (row.operationId = other)) = [] := by
      rw [List.filter_eq_nil_iff]
      intro row member
      obtain ⟨node, _, rfl⟩ := List.mem_map.mp member
      simpa using Ne.symm apart
    rw [none, List.append_nil]
  · exact fun _ _ _ _ => Iff.rfl

theorem interrupt_attempt_ok (interrupted : interruptAttempt db expected guards = .ok next) :
    ∃ attempt, next.preparationAttempts.find expected.operationId = some { attempt with state := .interrupted } ∧
      db.preparationAttempts.find expected.operationId = some attempt ∧ attempt.state = .preparing ∧
      StepOn db next expected.operationId ∧ next = { db with preparationAttempts := next.preparationAttempts } := by
  simp only [interruptAttempt, Lib.bind_ok, Lib.pure_ok] at interrupted
  obtain ⟨_, _, attempts, changed, _, _, rfl⟩ := interrupted
  obtain ⟨attempt, found, state, now, others⟩ := Table.change_one_ok changed
  exact ⟨attempt, now, found, by simpa using state, ⟨others, fun _ _ => rfl, fun _ _ _ _ => Iff.rfl⟩, rfl⟩

theorem finish_attempt_ok {requested : Bool} {now : Timestamp} {outcome : AttemptState} (held : AttemptsHeld db)
    (finished : finishAttempt db expected guards requested now = .ok (outcome, next)) :
    (∃ attempt, next.preparationAttempts.find expected.operationId = some attempt ∧ attempt.state = outcome ∧
        AttemptHeld next attempt) ∧
      (∃ attempt, db.preparationAttempts.find expected.operationId = some attempt ∧ attempt.state = .preparing) ∧
      ReleasedExactly db next expected.operationId ∧ StepOn db next expected.operationId ∧ OwnershipOnly db next := by
  simp only [finishAttempt, Lib.bind_ok, Lib.pure_ok, Prod.mk.injEq] at finished
  obtain ⟨current, completed, result, decided, released, release, attempts, changed, _, _, rfl, rfl⟩ := finished
  obtain ⟨named, _, row, _⟩ := attempt_completion_ok completed
  have unchanged : released.preparationAttempts = db.preparationAttempts ∧
      released.preparationReceipts = db.preparationReceipts ∧
      (∀ other, other ≠ expected.operationId → guardsOf released other = guardsOf db other) ∧
      OwnershipOnly db released := by
    rcases release_settled_ok release with ⟨_, rfl⟩ | ⟨_, _, others, only⟩
    · exact ⟨rfl, rfl, fun _ _ => rfl, rfl⟩
    · exact ⟨by rw [only], by rw [only], others, by rw [only]; rfl⟩
  obtain ⟨sameAttempts, sameReceipts, otherGuards, only⟩ := unchanged
  obtain ⟨stored, found, preparing, written, others⟩ := Table.change_one_ok changed
  rw [sameAttempts] at found others
  obtain rfl := Option.some.inj (found.symm.trans row)
  have state : stored.state = .preparing := by simpa using preparing
  have guarded := (held _ _ found).guarded (by rw [state]; rfl)
  obtain ⟨recorded, exactly⟩ := outcome_held { released with preparationAttempts := attempts }
    (settledTime result now) decided guarded sameReceipts (by
      rcases release_settled_ok release with ⟨interrupted, rfl⟩ | ⟨settled, removed, _, _⟩
      · exact .inl ⟨interrupted, rfl⟩
      · exact .inr ⟨settled, named ▸ removed⟩)
  rw [named] at exactly
  refine ⟨⟨_, written, rfl, recorded⟩, ⟨stored, found, state⟩, exactly, ⟨others, otherGuards, ?_⟩, ?_⟩
  · intro _ _ row _
    show row ∈ released.preparationReceipts.rows ↔ _
    rw [sameReceipts]
  · rw [only]
    rfl

end Owner

section Units

variable {db next : Database} {unit : UnitPreparation} {causes : ArrivalCauses}

theorem finished_receipts {receipts : Table PreparationReceipt.operationId} {row : PreparationReceipt}
    {state : ReceiptState} (finished : finishFileReceipt db.preparationReceipts row state = .ok receipts)
    (same : next.preparationReceipts = receipts) {other : String} (apart : other ≠ row.intent.guardId) :
    SameReceipts db next other := by
  obtain ⟨member, _, _, rows⟩ := finish_file_receipt_ok finished
  intro stored guarded
  rw [same, rows stored]
  constructor
  · rintro (⟨kept, _⟩ | rfl)
    · exact kept
    · exact absurd guarded.symm apart
  · intro kept
    refine .inl ⟨kept, fun here => apart ?_⟩
    rw [← guarded, Table.rows_inj kept member here]

def ReceiptsOnly (db next : Database) : Prop := next = { db with preparationReceipts := next.preparationReceipts }

theorem prepare_unit_ok (prepared : prepareUnit db unit = .ok next) :
    StepOn db next unit.intent.guardId ∧ ReceiptsOnly db next := by
  simp only [prepareUnit, Lib.bind_ok, Lib.pure_ok] at prepared
  obtain ⟨_, _, _, _, receipts, inserted, rfl⟩ := prepared
  refine ⟨⟨fun _ _ => rfl, fun _ _ => rfl, ?_⟩, rfl⟩
  intro other apart row guarded
  refine ((insert_file_receipt_ok inserted).2 row).trans ⟨?_, .inl⟩
  rintro (kept | rfl)
  · exact kept
  · exact absurd guarded.symm apart

theorem abort_unit_ok {restored : Bool} (aborted : abortUnit db unit restored = .ok next) :
    StepOn db next unit.intent.guardId ∧ ReceiptsOnly db next := by
  simp only [abortUnit, Lib.bind_ok, Lib.pure_ok] at aborted
  obtain ⟨_, _, _, _, receipts, finished, rfl⟩ := aborted
  exact ⟨⟨fun _ _ => rfl, fun _ _ => rfl, fun other apart => finished_receipts finished rfl apart⟩, rfl⟩

theorem mark_component_preparation_change_only {receiver : String} {latched : Bool}
    (marked : markComponentPreparationChange causes db receiver latched = .ok next) : StatesOnly db next := by
  simp only [markComponentPreparationChange, Lib.bind_ok] at marked
  obtain ⟨observed, _, marked⟩ := marked
  cases observed with
  | none => exact Except.ok.inj marked ▸ rfl
  | some state => exact mark_component_arrival_only marked

theorem mark_changed_receivers_only (marked : markChangedReceivers causes db unit = .ok next) : StatesOnly db next := by
  refine Lib.thread_invariant (motive := StatesOnly db) (show StatesOnly db db from rfl) ?_ marked
  intro current after receiver _ only step
  have more := mark_component_preparation_change_only step
  unfold StatesOnly at only more ⊢
  rw [more, only]

theorem commit_unit_ok (committed : commitUnit causes db unit = .ok next) :
    StepOn db next unit.intent.guardId ∧ next.preparationAttempts = db.preparationAttempts ∧
      next.receiverMutationGuards = db.receiverMutationGuards ∧
      next.inputPublications = db.inputPublications ∧
      ∀ place, next.jobs.contains place = true → db.jobs.contains place = true := by
  simp only [commitUnit, Lib.bind_ok] at committed
  obtain ⟨_, _, _, _, completed, done, receipts, finished, marked⟩ := committed
  have scope := unit.work.bounded done
  have only := mark_changed_receivers_only marked
  have guards : next.receiverMutationGuards = db.receiverMutationGuards := by rw [only, ← scope.guards]
  have attempts : next.preparationAttempts = db.preparationAttempts := by rw [only, ← scope.attempts]
  rw [scope.receipts] at finished
  refine ⟨⟨fun _ _ => by rw [attempts], fun other _ => guards_of_same guards other, ?_⟩, attempts, guards, ?_, ?_⟩
  · exact fun other apart => finished_receipts finished (by rw [only]) apart
  · rw [only, ← scope.publications]
  · intro place live
    rw [only] at live
    exact scope.live place live

theorem move_partition_revision_only {sessionId : Option String} {change : MembershipChange} {revision : Nat}
    (moved : movePartitionRevision db sessionId change revision = .ok next) :
    next = { db with executionSessions := next.executionSessions } := by
  cases sessionId with
  | none => exact Except.ok.inj moved ▸ rfl
  | some sessionId =>
      simp only [movePartitionRevision, Lib.bind_ok, Lib.pure_ok] at moved
      obtain ⟨_, _, rfl⟩ := moved
      rfl

theorem commit_completion_ok {expected : PreparationAttempt} {guards : List ReceiverMutationGuard} {revision : Nat}
    (committed : commitCompletion db expected guards revision = .ok next) :
    ∃ attempt, db.preparationAttempts.find expected.operationId = some attempt ∧ attempt.state = .preparing ∧
      next.preparationAttempts.find expected.operationId =
        some { attempt with completedMembershipRevision := some revision } ∧
      StepOn db next expected.operationId ∧ next = { db with preparationAttempts := next.preparationAttempts } := by
  simp only [commitCompletion, Lib.bind_ok, Lib.pure_ok] at committed
  obtain ⟨_, _, _, _, _, _, attempts, changed, _, _, _, _, _, _, rfl⟩ := committed
  obtain ⟨attempt, found, state, now, others⟩ := Table.change_one_ok changed
  simp only [Bool.and_eq_true, beq_iff_eq] at state
  exact ⟨attempt, found, state.1.1, now, ⟨others, fun _ _ => rfl, fun _ _ _ _ => Iff.rfl⟩, rfl⟩

theorem complete_membership_ok {validate : Database → Result Unit} {repair : MembershipRepair}
    {expected : PreparationAttempt} {guards : List ReceiverMutationGuard}
    (completed : completeMembership validate db repair expected guards = .ok next) :
    ∃ attempt revision, db.preparationAttempts.find expected.operationId = some attempt ∧ attempt.state = .preparing ∧
      next.preparationAttempts.find expected.operationId =
        some { attempt with completedMembershipRevision := some revision } ∧
      StepOn db next expected.operationId ∧ next.receiverMutationGuards = db.receiverMutationGuards ∧
      next.inputPublications = db.inputPublications ∧ next.jobs = db.jobs := by
  simp only [completeMembership, Lib.bind_ok] at completed
  obtain ⟨_, _, _, _, _, _, ⟨active, replaced⟩, replacement, moved, revised, committed⟩ := completed
  obtain ⟨components, members, state, rfl⟩ := replace_active_component_closure_ok replacement
  have sessions := move_partition_revision_only revised
  obtain ⟨attempt, found, preparing, now, step, only⟩ := commit_completion_ok committed
  refine ⟨attempt, active.revision, by rw [sessions] at found; exact found, preparing, now, ⟨?_, ?_, ?_⟩, ?_, ?_, ?_⟩
  · intro other apart
    rw [step.attempts other apart, sessions]
  · intro other apart
    rw [step.guards other apart]
    exact guards_of_same (by rw [sessions]) other
  · intro other apart row guarded
    rw [step.receipts other apart row guarded, sessions]
  · rw [only, sessions]
  · rw [only, sessions]
  · rw [only, sessions]

end Units

section Cleanup

variable {db next : Database} {attempt : PreparationAttempt} {guards : List ReceiverMutationGuard} {now : Timestamp}

theorem retire_attempt_ok (held : AttemptsHeld db) (found : db.preparationAttempts.find attempt.operationId = some attempt)
    (retired : retireAttempt db attempt guards now = .ok next) :
    (∃ row, next.preparationAttempts.find attempt.operationId = some row ∧ AttemptHeld next row) ∧
      ReleasedExactly db next attempt.operationId ∧ StepOn db next attempt.operationId ∧ OwnershipOnly db next := by
  simp only [retireAttempt, Lib.bind_ok, Lib.refuse_ok, Lib.pure_ok] at retired
  obtain ⟨outcome, decided, _, _, _, settled, released, release, attempts, changed, _, _, _, _, _, _, _, _, rfl⟩ := retired
  obtain ⟨removed, others, only⟩ := release_guards_ok release
  obtain ⟨stored, here, opened, written, rest⟩ := Table.change_one_ok changed
  have sameAttempts : released.preparationAttempts = db.preparationAttempts := by rw [only]
  have sameReceipts : released.preparationReceipts = db.preparationReceipts := by rw [only]
  rw [sameAttempts] at here rest
  obtain rfl := Option.some.inj (here.symm.trans found)
  have open_ : stored.state.open = true := by
    rcases Bool.or_eq_true _ _ ▸ opened with state | state
    · rw [beq_iff_eq.mp state]
      rfl
    · rw [beq_iff_eq.mp state]
      rfl
  obtain ⟨recorded, exactly⟩ := outcome_held { released with preparationAttempts := attempts } (some now) decided
    ((held _ _ found).guarded open_) sameReceipts (.inr ⟨by simpa using settled, removed⟩)
  refine ⟨⟨_, written, recorded⟩, exactly, ⟨rest, others, fun _ _ row _ => ?_⟩, ?_⟩
  · show row ∈ released.preparationReceipts.rows ↔ _
    rw [sameReceipts]
  · rw [only]
    rfl

theorem retire_settled_ok (held : AttemptsHeld db) (found : db.preparationAttempts.find attempt.operationId = some attempt)
    (retired : retireSettled db attempt guards now = .ok next) :
    (∃ row, next.preparationAttempts.find attempt.operationId = some row ∧ AttemptHeld next row) ∧
      ReleasedExactly db next attempt.operationId ∧ StepOn db next attempt.operationId ∧ OwnershipOnly db next := by
  unfold retireSettled at retired
  split at retired
  · rename_i pending
    obtain rfl := Except.ok.inj retired
    obtain ⟨row, member, prepared⟩ := List.any_eq_true.mp pending
    rw [mem_attempt_receipts] at member
    have waiting : AwaitsDecision db attempt.operationId := ⟨row, member.1, member.2, by simpa using prepared⟩
    exact ⟨⟨attempt, found, held _ _ found⟩, ⟨fun _ => rfl, fun quiet => absurd waiting quiet⟩,
      ⟨fun _ _ => rfl, fun _ _ => rfl, fun _ _ _ _ => Iff.rfl⟩, rfl⟩
  · exact retire_attempt_ok held found retired

theorem recoverable_attempt {live : OwnerLiveness}
    (recoverable : requireRecoverableAttempt db live attempt guards = .ok ()) :
    db.preparationAttempts.find attempt.operationId = some attempt := by
  simp only [requireRecoverableAttempt, Lib.bind_ok, Lib.require_ok, Bool.and_eq_true, beq_iff_eq] at recoverable
  obtain ⟨_, _, _, ⟨found, _⟩, _⟩ := recoverable
  exact found

end Cleanup

end MicroWorkflow
