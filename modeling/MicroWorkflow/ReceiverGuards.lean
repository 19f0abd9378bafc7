import MicroWorkflow.JobCreation
import MicroWorkflow.NativeCleanup

set_option autoImplicit false

namespace MicroWorkflow

open Lib (require refuse orRaise each thread Table)

section Admission

def receiverMembers (receiver : String) : Option ComponentStateSnapshot → List String
  | none => [receiver]
  | some state => state.members

def requireFreeReceiver (db : Database) (receiver : String) : Result Unit := do
  requireSettledInputPublications db receiver
  refuse (db.componentReservations.rows.any fun row => receiver ∈ row.componentKey)
    (.runtime ("Receiver " ++ receiver ++ " is owned by a session"))
  let observed ← readJobReceiverState db receiver none
  refuse ((receiverMembers receiver observed).any fun node => !(activeJobRows db node).isEmpty)
    (.runtime ("Receiver " ++ receiver ++ " has an active owner"))
  refuse (observed.any fun state => state.lifecycle == .running)
    (.runtime ("Receiver " ++ receiver ++ " has running component"))

def admitGuards (preflight : Database → Result Unit) (nodes receivers : List String) (db : Database) : Result Unit := do
  preflight db
  each (refuseReceiverMutation db) nodes
  each (requireFreeReceiver db) receivers

end Admission

section Outcome

variable {db next : Database} {attempt : PreparationAttempt} {outcome : AttemptState} {row : PreparationReceipt}

def AwaitsDecision (db : Database) (operationId : String) : Prop :=
  ∃ row ∈ db.preparationReceipts.rows, row.intent.guardId = operationId ∧ row.state = .prepared

structure Fulfilled (db : Database) (attempt : PreparationAttempt) : Prop where
  units : ∀ item ∈ attempt.expectedReceipts, ∃ row ∈ db.preparationReceipts.rows,
    row.intent.guardId = attempt.operationId ∧ intendedUnit row = item ∧ row.state = .committed
  membership : attempt.membershipRevision.isSome = true → attempt.completedMembershipRevision.isSome = true

theorem mem_attempt_receipts {operationId : String} :
    row ∈ attemptReceipts db operationId ↔ row ∈ db.preparationReceipts.rows ∧ row.intent.guardId = operationId := by
  rw [attemptReceipts, List.mem_insertionSort, Table.mem_select, decide_eq_true_eq]

theorem checked_receipts_ok {receipts : List PreparationReceipt} {complete : Bool}
    (checked : checkedAttemptReceipts db attempt = .ok (receipts, complete)) :
    receipts = attemptReceipts db attempt.operationId ∧ (receipts.map intendedUnit).Nodup ∧
      (∀ row ∈ receipts, intendedUnit row ∈ attempt.expectedReceipts) ∧
      (complete = true ↔ ∀ item ∈ attempt.expectedReceipts, item ∈ receipts.map intendedUnit) := by
  simp only [checkedAttemptReceipts, requireAttemptReceipts, Lib.bind_ok, Lib.require_ok, Lib.refuse_ok, Lib.pure_ok,
    Prod.mk.injEq, Bool.and_eq_true, decide_eq_true_eq] at checked
  obtain ⟨_, _, _, _, _, _, _, ⟨_, _, rfl⟩, _, ⟨⟨distinct, within⟩, _⟩, _, _, _, _, rfl, rfl⟩ := checked
  refine ⟨rfl, distinct, ?_, ?_⟩
  · intro row member
    simpa using List.all_eq_true.mp within _ (List.mem_map_of_mem member)
  · simp only [List.all_eq_true, decide_eq_true_eq]

theorem all_committed {receipts : List PreparationReceipt} :
    allCommitted receipts = true ↔ ∀ row ∈ receipts, row.state = .committed := by
  simp [allCommitted]

theorem finalized_iff : attempt.finalized = true ↔
    (attempt.membershipRevision.isSome = true → attempt.completedMembershipRevision.isSome = true) := by
  unfold PreparationAttempt.finalized
  cases attempt.membershipRevision <;> simp

theorem attempt_outcome_ok (decided : attemptOutcome db attempt = .ok outcome) :
    (outcome = .interrupted ↔ AwaitsDecision db attempt.operationId) ∧
      (outcome = .committed ↔ Fulfilled db attempt) ∧ outcome ≠ .preparing := by
  simp only [attemptOutcome, Lib.bind_ok] at decided
  obtain ⟨⟨receipts, complete⟩, checked, decided⟩ := decided
  obtain ⟨same, distinct, within, whole⟩ := checked_receipts_ok checked
  have listed : ∀ row, row ∈ receipts ↔ row ∈ db.preparationReceipts.rows ∧ row.intent.guardId = attempt.operationId := by
    intro row
    rw [same, mem_attempt_receipts]
  have awaits : AwaitsDecision db attempt.operationId ↔ (receipts.any fun row => row.state == .prepared) = true := by
    simp only [AwaitsDecision, List.any_eq_true, beq_iff_eq, listed, and_assoc]
  have settled : Fulfilled db attempt → ∀ row ∈ receipts, row.state = .committed := by
    intro fulfilled row member
    obtain ⟨other, stored, guarded, unit, committed⟩ := fulfilled.units _ (within row member)
    have equal := List.inj_on_of_nodup_map distinct ((listed other).mpr ⟨stored, guarded⟩) member unit
    exact equal ▸ committed
  have fulfilled : Fulfilled db attempt ↔ (attempt.finalized && complete && allCommitted receipts) = true := by
    rw [Bool.and_eq_true, Bool.and_eq_true, finalized_iff, whole, all_committed]
    constructor
    · intro done
      refine ⟨⟨done.membership, fun item member => ?_⟩, settled done⟩
      obtain ⟨row, stored, guarded, rfl, _⟩ := done.units item member
      exact List.mem_map_of_mem ((listed row).mpr ⟨stored, guarded⟩)
    · rintro ⟨⟨membership, units⟩, committed⟩
      refine ⟨fun item member => ?_, membership⟩
      obtain ⟨row, here, rfl⟩ := List.mem_map.mp (units item member)
      exact ⟨row, ((listed row).mp here).1, ((listed row).mp here).2, rfl, committed row here⟩
  split at decided
  · rename_i pending
    rw [Lib.pure_ok] at decided
    subst decided
    refine ⟨⟨fun _ => awaits.mpr pending, fun _ => rfl⟩, ⟨fun wrong => (by cases wrong), fun done => ?_⟩, by decide⟩
    obtain ⟨row, member, prepared⟩ := List.any_eq_true.mp pending
    rw [settled done row member] at prepared
    exact absurd prepared (by decide)
  · rename_i quiet
    split at decided
    · rename_i done
      rw [Lib.pure_ok] at decided
      subst decided
      exact ⟨⟨fun wrong => (by cases wrong), fun waiting => absurd (awaits.mp waiting) quiet⟩,
        ⟨fun _ => fulfilled.mpr done, fun _ => rfl⟩, by decide⟩
    · rename_i undone
      rw [Lib.pure_ok] at decided
      subst decided
      exact ⟨⟨fun wrong => (by cases wrong), fun waiting => absurd (awaits.mp waiting) quiet⟩,
        ⟨fun wrong => (by cases wrong), fun done => absurd (fulfilled.mp done) undone⟩, by decide⟩

end Outcome

section Held

variable {db next last : Database} {attempt : PreparationAttempt} {operationId : String}

def AttemptState.open : AttemptState → Bool
  | .preparing | .interrupted => true
  | .committed | .aborted => false

structure AttemptHeld (db : Database) (attempt : PreparationAttempt) : Prop where
  guarded : attempt.state.open = true →
    (guardsOf db attempt.operationId).map ReceiverMutationGuard.receiverNode = attempt.receivers
  released : attempt.state.open = false → guardsOf db attempt.operationId = []
  settled : attempt.state.open = false → ¬ AwaitsDecision db attempt.operationId
  decided : attempt.state.open = false → (attempt.state = .committed ↔ Fulfilled db attempt)

def SameReceipts (db next : Database) (operationId : String) : Prop :=
  ∀ row : PreparationReceipt, row.intent.guardId = operationId →
    (row ∈ next.preparationReceipts.rows ↔ row ∈ db.preparationReceipts.rows)

theorem awaits_same (same : SameReceipts db next operationId) :
    AwaitsDecision next operationId ↔ AwaitsDecision db operationId := by
  constructor
  · rintro ⟨row, member, guarded, prepared⟩
    exact ⟨row, (same row guarded).mp member, guarded, prepared⟩
  · rintro ⟨row, member, guarded, prepared⟩
    exact ⟨row, (same row guarded).mpr member, guarded, prepared⟩

theorem fulfilled_same (same : SameReceipts db next attempt.operationId) :
    Fulfilled next attempt ↔ Fulfilled db attempt := by
  constructor
  · intro done
    refine ⟨fun item member => ?_, done.membership⟩
    obtain ⟨row, stored, guarded, rest⟩ := done.units item member
    exact ⟨row, (same row guarded).mp stored, guarded, rest⟩
  · intro done
    refine ⟨fun item member => ?_, done.membership⟩
    obtain ⟨row, stored, guarded, rest⟩ := done.units item member
    exact ⟨row, (same row guarded).mpr stored, guarded, rest⟩

theorem AttemptHeld.frame (held : AttemptHeld db attempt)
    (guards : guardsOf next attempt.operationId = guardsOf db attempt.operationId)
    (receipts : SameReceipts db next attempt.operationId) : AttemptHeld next attempt := by
  constructor
  · intro opened
    rw [guards]
    exact held.guarded opened
  · intro ended
    rw [guards]
    exact held.released ended
  · intro ended
    rw [awaits_same receipts]
    exact held.settled ended
  · intro ended
    rw [fulfilled_same receipts]
    exact held.decided ended

theorem held_open (opened : attempt.state.open = true)
    (guarded : (guardsOf next attempt.operationId).map ReceiverMutationGuard.receiverNode = attempt.receivers) :
    AttemptHeld next attempt := by
  refine ⟨fun _ => guarded, ?_, ?_, ?_⟩
  all_goals
    intro ended
    rw [opened] at ended
    cases ended

structure StepOn (db next : Database) (operationId : String) : Prop where
  attempts : ∀ other, other ≠ operationId → next.preparationAttempts.find other = db.preparationAttempts.find other
  guards : ∀ other, other ≠ operationId → guardsOf next other = guardsOf db other
  receipts : ∀ other, other ≠ operationId → SameReceipts db next other

theorem StepOn.trans (first : StepOn db next operationId) (second : StepOn next last operationId) :
    StepOn db last operationId := by
  constructor
  · exact fun other apart => (second.attempts other apart).trans (first.attempts other apart)
  · exact fun other apart => (second.guards other apart).trans (first.guards other apart)
  · exact fun other apart row guarded =>
      (second.receipts other apart row guarded).trans (first.receipts other apart row guarded)

def AttemptsHeld (db : Database) : Prop :=
  ∀ operationId attempt, db.preparationAttempts.find operationId = some attempt → AttemptHeld db attempt

theorem attempts_held_step (held : AttemptsHeld db) (step : StepOn db next operationId)
    (own : ∀ attempt, next.preparationAttempts.find operationId = some attempt → AttemptHeld next attempt) :
    AttemptsHeld next := by
  intro other attempt found
  by_cases same : other = operationId
  · subst same
    exact own attempt found
  · have named := Table.find_key found
    rw [step.attempts other same] at found
    exact (held other attempt found).frame (named ▸ step.guards other same) (named ▸ step.receipts other same)

theorem attempts_held_frame (held : AttemptsHeld db) (attempts : next.preparationAttempts = db.preparationAttempts)
    (guards : ∀ operationId, db.preparationAttempts.contains operationId = true →
      guardsOf next operationId = guardsOf db operationId)
    (receipts : next.preparationReceipts = db.preparationReceipts) : AttemptsHeld next := by
  intro operationId attempt found
  rw [attempts] at found
  have named := Table.find_key found
  have known : db.preparationAttempts.contains attempt.operationId = true := by
    rw [named, Table.contains, found]
    rfl
  exact (held operationId attempt found).frame (guards _ known) (fun row _ => by rw [receipts])

end Held

end MicroWorkflow
