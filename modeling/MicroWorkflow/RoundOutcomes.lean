import MicroWorkflow.AcceptedRestarts
import MicroWorkflow.RestartRounds

set_option autoImplicit false

namespace MicroWorkflow

open Lib (require refuse orRaise each collect Table Run)

structure OpenedRound (round : RestartRound) : Prop where
  distinct : (round.targets.map RestartTarget.address).Nodup
  nonempty : round.targets.isEmpty = false
  session : (round.targets.map fun target => target.owner.map ExecutionOwner.sessionId).dedup.length = 1
  requester : 1 ≤ round.request.requester

def RoundsOpened (world : RestartWorld) : Prop := ∀ round ∈ world.rounds.rows, OpenedRound round

structure SelectionRead (db : Database) (probe : Probe) (round : RestartRound) : Prop where
  targets : ∀ target ∈ round.targets, readOwnedRestartTarget db probe target.node target.jobId = .ok target
  plan : ∀ plan, round.componentPlan = some plan →
    readComponentRestartPlan db probe plan.node plan.failedOnly = .ok plan ∧ sortTargets plan.targets = round.ordered

structure RestartedTogether (db next : Database) (round : RestartRound) : Prop where
  distinct : (round.targets.map RestartTarget.address).Nodup
  read : ∃ probe, SelectionRead db probe round
  written : RestartsWritten db next round.ordered round.request true
  raised : GenerationsRise db next (round.targets.map RestartTarget.address).count

def RoundLabel.commits (operationId : String) : RoundLabel → Bool
  | .round other .commit => other = operationId
  | _ => false

def RoundLabel.operation : RoundLabel → Option String
  | .round operationId _ => some operationId
  | _ => none

def RestartWorld.committed (world : RestartWorld) (operationId : String) : Nat :=
  match world.rounds.find operationId with
  | some round => if round.stage = .committed then 1 else 0
  | none => 0

variable {world next : RestartWorld} {label : RoundLabel} {round : RestartRound} {operationId : String}

section Opened

theorem requested_round_opened {db : Database} {probe : Probe} {targets : List RestartTarget}
    {plan : Option RestartPlan} {request : RestartRequest}
    (accepted : requestOwnedJobRestarts db probe operationId targets plan request = .ok (some round)) :
    OpenedRound round ∧ round.operationId = operationId ∧ round.stage = .requested := by
  simp only [requestOwnedJobRestarts, Lib.bind_ok, Lib.require_ok, decide_eq_true_eq] at accepted
  obtain ⟨_, distinct, accepted⟩ := accepted
  cases empty : targets.isEmpty with
  | true =>
      rw [empty, if_pos rfl] at accepted
      obtain ⟨_, _, none⟩ := Lib.map_ok.mp accepted
      exact absurd none (by simp)
  | false =>
      rw [empty, if_neg (by simp)] at accepted
      obtain ⟨opened, done, same⟩ := Lib.map_ok.mp accepted
      obtain rfl := Option.some.inj same
      simp only [openRound, Lib.bind_ok, Lib.require_ok, beq_iff_eq, decide_eq_true_eq, Lib.pure_ok] at done
      obtain ⟨_, session, _, requester, rfl⟩ := done
      exact ⟨⟨distinct, empty, session, requester⟩, rfl, rfl⟩

theorem set_round_opened {stage : RoundStage} {expected : Option RestartIntent} (opened : RoundsOpened world) :
    RoundsOpened (world.setRound operationId stage expected) := by
  intro round member
  dsimp only [RestartWorld.setRound] at member
  obtain ⟨before, inside, same⟩ := Table.mem_modify.mp member
  have checked := opened before inside
  split at same
  · exact same ▸ ⟨checked.distinct, checked.nonempty, checked.session, checked.requester⟩
  · exact same ▸ checked

theorem round_step_opened (opened : RoundsOpened world) (step : RoundStep world label next) : RoundsOpened next := by
  cases step with
  | opened accepted inserted =>
      intro round member
      rcases (Table.mem_insert inserted).mp member with old | new
      · exact opened round old
      · exact new ▸ (requested_round_opened accepted).1
  | answered closed => exact opened
  | preflighted found stage free valid => exact set_round_opened opened
  | prepared found stage intended recorded => exact set_round_opened opened
  | staged found stage => exact set_round_opened opened
  | committed found stage applied => exact set_round_opened opened
  | raised found stage => exact set_round_opened opened
  | aborted found stage expected finished => exact set_round_opened opened
  | dropped found stage => exact set_round_opened opened
  | recovered found stage expected finished => exact opened
  | claimed built applied => exact opened
  | written outside applied => exact opened
  | elsewhere jobs instances owners events => exact opened

end Opened

section Commits

theorem commit_round_ok {db after : Database} {receipts finished : RestartReceipts} {probe : Probe}
    {staged : Bool} (applied : commitRound db receipts probe staged round = .ok (after, finished)) :
    validateRound db probe round = .ok () ∧ applyTargets db round.ordered round.request true = .ok after := by
  simp only [commitRound, Lib.bind_ok, Lib.pure_ok, Prod.mk.injEq] at applied
  obtain ⟨_, _, _, _, _, _, _, valid, _, written, _, _, rfl, rfl⟩ := applied
  exact ⟨valid, written⟩

theorem commit_round_applies {db after : Database} {receipts finished : RestartReceipts} {probe : Probe}
    {staged : Bool} (opened : OpenedRound round) (applied : commitRound db receipts probe staged round = .ok (after, finished)) :
    applyOwnedRestarts db probe round.targets round.request round.componentPlan = .ok after := by
  obtain ⟨valid, written⟩ := commit_round_ok applied
  simp only [validateRound, Lib.bind_ok, Lib.require_ok, beq_iff_eq] at valid
  obtain ⟨_, planned, current, read, same⟩ := valid
  rw [applyOwnedRestarts, opened.nonempty]
  simp only [Lib.bind_ok, Lib.require_ok, decide_eq_true_eq, beq_iff_eq, Bool.false_eq_true, if_false]
  exact ⟨(), opened.distinct, (), opened.session, (), opened.requester, (), planned, current, read, (), same, written⟩

theorem plan_read {db : Database} {probe : Probe} (opened : OpenedRound round)
    (valid : validateRound db probe round = .ok ()) (plan : RestartPlan) (planned : round.componentPlan = some plan) :
    readComponentRestartPlan db probe plan.node plan.failedOnly = .ok plan ∧ sortTargets plan.targets = round.ordered := by
  simp only [validateRound, planned, validateRestartPlan, Lib.bind_ok, Lib.require_ok, Bool.and_eq_true, beq_iff_eq,
    Bool.or_eq_true] at valid
  obtain ⟨_, ⟨current, read, rfl, selected⟩, _⟩ := valid
  refine ⟨read, ?_⟩
  rcases selected with empty | same
  · have sorted : round.ordered.length = round.targets.length := List.length_insertionSort _ _
    have nonempty := opened.nonempty
    rw [List.isEmpty_iff_length_eq_zero, sorted, ← List.isEmpty_iff_length_eq_zero, nonempty] at empty
    exact absurd empty (by simp)
  · exact same

theorem commit_round_together {db after : Database} {receipts finished : RestartReceipts} {probe : Probe}
    {staged : Bool} (opened : OpenedRound round) (applied : commitRound db receipts probe staged round = .ok (after, finished)) :
    RestartedTogether db after round := by
  have restarts := commit_round_applies opened applied
  rcases (apply_owned_restarts_ok restarts).2 with ⟨empty, _⟩ | ⟨read, written⟩
  · have nonempty := opened.nonempty
    rw [empty] at nonempty
    exact absurd nonempty (by simp)
  · have write : JobWrite.apply db (.ownedRestart probe round.targets round.request round.componentPlan) = .ok after :=
      restarts
    have planned := plan_read opened (commit_round_ok applied).1
    exact ⟨opened.distinct, ⟨probe, read, planned⟩, written, (job_write_generations write).1⟩

theorem round_step_together (opened : RoundsOpened world) (step : RoundStep world label next)
    (named : label.operation = some operationId) :
    next.db = world.db ∨ (label = .round operationId .commit ∧ ∃ round, world.rounds.find operationId = some round ∧
      RestartedTogether world.db next.db round) := by
  cases step with
  | committed found stage applied =>
      obtain rfl := Option.some.inj named
      exact .inr ⟨rfl, _, found, commit_round_together (opened _ (Table.find_mem found)) applied⟩
  | opened | answered | preflighted | prepared | staged | raised | aborted | dropped | recovered => exact .inl rfl
  | claimed | written | elsewhere => exact absurd named (by simp [RoundLabel.operation])

theorem find_set_round {stage : RoundStage} {expected : Option RestartIntent}
    (found : world.rounds.find operationId = some round) (other : String) :
    (world.setRound operationId stage expected).rounds.find other =
      if other = operationId then some { round with stage := stage, expected := expected } else
        world.rounds.find other := by
  dsimp only [RestartWorld.setRound]
  rw [Table.find_modify]
  by_cases same : other = operationId
  · rw [if_pos same, same, found, Option.map_some, if_pos (by simp [Table.find_key found])]
  · rw [if_neg same]
    cases here : world.rounds.find other with
    | none => rfl
    | some apart =>
        have keyed := Table.find_key here
        rw [Option.map_some, if_neg (by simp [keyed, same])]

theorem committed_set_round {stage : RoundStage} {expected : Option RestartIntent}
    (found : world.rounds.find operationId = some round) (before : round.stage ≠ .committed)
    (moved : next.rounds = (world.setRound operationId stage expected).rounds)
    (told : ∀ other, label.commits other = decide (other = operationId ∧ stage = .committed)) (other : String) :
    next.committed other = world.committed other + if label.commits other then 1 else 0 := by
  simp only [RestartWorld.committed, moved, find_set_round found, told]
  by_cases same : other = operationId
  · subst same
    simp [found, before]
  · simp [same]

theorem round_step_committed (step : RoundStep world label next) (operationId : String) :
    next.committed operationId = world.committed operationId + if label.commits operationId then 1 else 0 := by
  cases step with
  | @opened _ _ _ _ _ round _ accepted inserted =>
      obtain ⟨_, named, stage⟩ := requested_round_opened accepted
      have fresh := (Table.insert_eq_some.mp inserted).1
      simp only [RestartWorld.committed, Table.find_insert inserted, RoundLabel.commits]
      by_cases same : round.operationId = operationId
      · rw [same] at fresh
        simp [same, fresh, stage]
      · simp [same]
  | answered closed => simp [RoundLabel.commits]
  | preflighted found stage free valid =>
      exact committed_set_round found (by simp [stage]) rfl (by simp [RoundLabel.commits]) operationId
  | prepared found stage intended recorded =>
      exact committed_set_round found (by simp [stage]) rfl (by simp [RoundLabel.commits]) operationId
  | staged found stage =>
      exact committed_set_round found (by simp [stage]) rfl (by simp [RoundLabel.commits]) operationId
  | committed found stage applied =>
      exact committed_set_round found (by simp [stage]) rfl (by simp [RoundLabel.commits, eq_comm]) operationId
  | raised found stage =>
      refine committed_set_round found (fun done => ?_) rfl (by simp [RoundLabel.commits]) operationId
      rw [done] at stage
      exact absurd stage (by decide)
  | aborted found stage expected finished =>
      exact committed_set_round found (by simp [stage]) rfl (by simp [RoundLabel.commits]) operationId
  | dropped found stage => exact committed_set_round found stage rfl (by simp [RoundLabel.commits]) operationId
  | recovered found stage expected finished => simp [RoundLabel.commits, RestartWorld.committed]
  | claimed built applied => simp [RoundLabel.commits, RestartWorld.committed]
  | written outside applied => simp [RoundLabel.commits, RestartWorld.committed]
  | elsewhere jobs instances owners events => simp [RoundLabel.commits, RestartWorld.committed]

theorem round_run_committed {start : RestartWorld} {labels : List RoundLabel} (run : Run RoundStep start labels world)
    (operationId : String) :
    world.committed operationId = start.committed operationId + labels.countP (RoundLabel.commits operationId) := by
  induction run with
  | nil => rfl
  | snoc _ last ih =>
      rw [round_step_committed last, ih, List.countP_append, List.countP_singleton, Nat.add_assoc]

theorem committed_le_one (world : RestartWorld) (operationId : String) : world.committed operationId ≤ 1 := by
  unfold RestartWorld.committed
  split
  · split <;> omega
  · omega

end Commits

end MicroWorkflow
