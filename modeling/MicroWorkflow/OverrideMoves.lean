import MicroWorkflow.InterruptAdmission
import MicroWorkflow.OverrideValues
import MicroWorkflow.SessionExit

set_option autoImplicit false

namespace MicroWorkflow

open Lib (require refuse orRaise each collect thread Table)

variable {db middle next : Database} {probe : Probe} {sessionId : String}

def reservedFor (db : Database) (node sessionId : String) : Prop :=
  ∃ held ∈ db.componentReservations.rows, node ∈ held.componentKey ∧ held.sessionId = sessionId

structure OverrideFrame (db next : Database) : Prop where
  pending : next.pendingNodeThreadOverrides = db.pendingNodeThreadOverrides
  owned : next.nodeThreadOverrides = db.nodeThreadOverrides
  limit : next.apiThreadLimit = db.apiThreadLimit
  reserved : next.componentReservations = db.componentReservations
  running : ∀ sessionId, sessionRunning db sessionId = true → sessionRunning next sessionId = true

theorem OverrideFrame.refl (db : Database) : OverrideFrame db db := ⟨rfl, rfl, rfl, rfl, fun _ running => running⟩

theorem OverrideFrame.trans (first : OverrideFrame db middle) (second : OverrideFrame middle next) :
    OverrideFrame db next :=
  ⟨second.pending.trans first.pending, second.owned.trans first.owned, second.limit.trans first.limit,
    second.reserved.trans first.reserved, fun _ running => second.running _ (first.running _ running)⟩

theorem OverrideFrame.pending_value (frame : OverrideFrame db next) (node : String) :
    pendingValue next node = pendingValue db node := by
  rw [pendingValue, frame.pending]
  rfl

theorem OverrideFrame.owned_value (frame : OverrideFrame db next) (node owner : String) :
    ownedValue next node owner = ownedValue db node owner := by
  rw [ownedValue, frame.owned]
  rfl

theorem any_running_iff : anyRunning db = true ↔ ∃ sessionId, sessionRunning db sessionId = true := by
  simp only [anyRunning, List.any_eq_true, decide_eq_true_eq]
  constructor
  · intro found
    obtain ⟨row, present, running⟩ := found
    refine ⟨row.sessionId, ?_⟩
    simp only [sessionRunning, Table.find_of_mem present, running, beq_self_eq_true]
  · intro found
    obtain ⟨sessionId, running⟩ := found
    simp only [sessionRunning] at running
    split at running
    · rename_i row here
      exact ⟨row, Table.find_mem here, by simpa using running⟩
    · exact absurd running (by simp)

structure OverrideMove (db next : Database) : Prop where
  pending : ∀ node value, pendingValue next node = some value → pendingValue db node = some value
  bound : ∀ node value, pendingValue db node = some value → pendingValue next node = some value ∨
    (pendingValue next node = none ∧ ∃ owner, reservedFor next node owner ∧ ownedValue next node owner = some value)
  owned : ∀ node owner value, ownedValue next node owner = some value → ownedValue db node owner = some value ∨
    (sessionRunning next owner = true ∧ reservedFor next node owner ∧ (pendingValue db node = some value ∨
      ∃ source, reservedFor db node source ∧ ownedValue db node source = some value))
  kept : ∀ node owner value, ownedValue db node owner = some value → ownedValue next node owner = some value ∨
    sessionRunning next owner = false
  running : ∀ owner, sessionRunning db owner = true → sessionRunning next owner = true ∨
    ∀ node, ownedValue next node owner = none
  reserved : ∀ node owner, reservedFor next node owner →
    (∃ earlier, reservedFor db node earlier) ∨ pendingValue next node = none
  limit : anyRunning db = true → anyRunning next = false → next.apiThreadLimit = none

theorem OverrideFrame.move (frame : OverrideFrame db next) : OverrideMove db next := by
  constructor
  · intro node value waiting
    rwa [frame.pending_value] at waiting
  · intro node value waiting
    left
    rwa [frame.pending_value]
  · intro node owner value has
    left
    rwa [frame.owned_value] at has
  · intro node owner value has
    left
    rwa [frame.owned_value]
  · intro owner running
    exact .inl (frame.running owner running)
  · intro node owner held
    left
    simp only [reservedFor, frame.reserved] at held
    exact ⟨owner, held⟩
  · intro before after
    obtain ⟨owner, running⟩ := any_running_iff.mp before
    have still := any_running_iff.mpr ⟨owner, frame.running owner running⟩
    exact absurd still (by simp [after])

theorem OverrideMove.framed {first last : Database} (before : OverrideFrame db first) (move : OverrideMove first last)
    (after : OverrideFrame last next) (ended : ∀ owner, sessionRunning last owner = false → sessionRunning next owner = false) :
    OverrideMove db next := by
  have reservedEarlier : ∀ node owner, reservedFor first node owner ↔ reservedFor db node owner := by
    intro node owner
    simp only [reservedFor, before.reserved]
  have reservedLater : ∀ node owner, reservedFor next node owner ↔ reservedFor last node owner := by
    intro node owner
    simp only [reservedFor, after.reserved]
  constructor
  · intro node value waiting
    rw [after.pending_value] at waiting
    rw [← before.pending_value]
    exact move.pending node value waiting
  · intro node value waiting
    rw [← before.pending_value] at waiting
    simp only [after.pending_value, after.owned_value, reservedLater]
    exact move.bound node value waiting
  · intro node owner value has
    rw [after.owned_value] at has
    simp only [← before.pending_value, ← before.owned_value, ← reservedEarlier, reservedLater]
    cases move.owned node owner value has with
    | inl same => exact .inl same
    | inr came => exact .inr ⟨after.running owner came.1, came.2⟩
  · intro node owner value has
    rw [← before.owned_value] at has
    rw [after.owned_value]
    cases move.kept node owner value has with
    | inl same => exact .inl same
    | inr concluded => exact .inr (ended owner concluded)
  · intro owner running
    simp only [after.owned_value]
    cases move.running owner (before.running owner running) with
    | inl still => exact .inl (after.running owner still)
    | inr gone => exact .inr gone
  · intro node owner held
    rw [reservedLater] at held
    simp only [after.pending_value, ← reservedEarlier]
    exact move.reserved node owner held
  · intro earlier later
    rw [after.limit]
    apply move.limit
    · obtain ⟨owner, running⟩ := any_running_iff.mp earlier
      exact any_running_iff.mpr ⟨owner, before.running owner running⟩
    · by_contra still
      obtain ⟨owner, running⟩ := any_running_iff.mp (Bool.not_eq_false _ ▸ still)
      exact absurd (any_running_iff.mpr ⟨owner, after.running owner running⟩) (by simp [later])

theorem running_of_same (same : next.executionSessions = db.executionSessions) (owner : String) :
    sessionRunning next owner = sessionRunning db owner := by
  rw [sessionRunning, same]
  rfl

theorem running_of_changed {sessions : Table ExecutionSession.sessionId} {p : ExecutionSession → Bool}
    {f : ExecutionSession → ExecutionSession} {keep : ∀ row, (f row).sessionId = row.sessionId} {error : Error}
    (changed : db.executionSessions.changeOne sessionId p f error keep = .ok sessions)
    (status : ∀ row, (f row).status = row.status) (written : next.executionSessions = sessions) (owner : String) :
    sessionRunning next owner = sessionRunning db owner := by
  obtain ⟨row, found, _, here, elsewhere⟩ := Table.change_one_ok changed
  simp only [sessionRunning, written]
  by_cases own : owner = sessionId
  · subst own
    rw [found, here]
    simp only [status]
  · rw [elsewhere owner own]

section Settle

structure ScopeKept (db next : Database) : Prop where
  pending : next.pendingNodeThreadOverrides = db.pendingNodeThreadOverrides
  owned : next.nodeThreadOverrides = db.nodeThreadOverrides
  limit : next.apiThreadLimit = db.apiThreadLimit
  sessions : next.executionSessions = db.executionSessions
  reserved : ∀ node owner, reservedFor next node owner → ∃ earlier, reservedFor db node earlier

theorem ScopeKept.refl (db : Database) : ScopeKept db db :=
  ⟨rfl, rfl, rfl, rfl, fun _ owner held => ⟨owner, held⟩⟩

theorem ScopeKept.trans (first : ScopeKept db middle) (second : ScopeKept middle next) : ScopeKept db next := by
  refine ⟨second.pending.trans first.pending, second.owned.trans first.owned, second.limit.trans first.limit,
    second.sessions.trans first.sessions, fun node owner held => ?_⟩
  obtain ⟨earlier, was⟩ := second.reserved node owner held
  exact first.reserved node earlier was

theorem ScopeKept.thread {α : Type} {action : Database → α → Result Database} {items : List α}
    (step : ∀ current after, ∀ item ∈ items, action current item = .ok after → ScopeKept current after)
    (done : Lib.thread action db items = .ok next) : ScopeKept db next :=
  Lib.thread_invariant (motive := fun current => ScopeKept db current) (ScopeKept.refl db)
    (fun current after item member before moved => before.trans (step current after item member moved)) done

theorem permits_cleared_kept (cleared : clearApiExecutionPermitsForSession db sessionId = .ok next) :
    ScopeKept db next := by
  simp only [clearApiExecutionPermitsForSession, Lib.bind_ok, Lib.pure_ok] at cleared
  obtain ⟨_, _, _, _, _, released, _, _, rfl⟩ := cleared
  refine ScopeKept.thread (fun current after permit _ step => ?_) released
  simp only [releaseApiExecutionPermit, withdrawPermit, Lib.bind_ok, Lib.pure_ok, Prod.exists, Prod.mk.injEq] at step
  obtain ⟨_, _, _, _, ⟨_, _, _, _, _, _, _, removed, _, rfl⟩, rfl⟩ := step
  obtain ⟨_, rfl, _⟩ := remove_permit_writes removed
  exact ⟨rfl, rfl, rfl, rfl, fun _ owner held => ⟨owner, held⟩⟩

theorem target_settled_kept {outcome : ComponentTerminalOutcome} {settledAt : Timestamp}
    (settled : settleInterruptComponent db sessionId outcome settledAt = .ok next) : ScopeKept db next := by
  unfold settleInterruptComponent at settled
  split at settled
  · obtain rfl := Except.ok.inj settled
    exact ScopeKept.refl db
  · split at settled
    · simp only [settleInterruptTarget, Lib.bind_ok, Lib.pure_ok] at settled
      obtain ⟨_, _, holds, _, fences, _, admissions, _, _, _, rfl⟩ := settled
      exact ⟨rfl, rfl, rfl, rfl, fun _ owner held => ⟨owner, held⟩⟩
    · obtain rfl := Except.ok.inj settled
      exact ScopeKept.refl db

theorem outcomes_published_kept {coverage : SampleCoverage} {outcomes : List ComponentTerminalOutcome}
    {settledAt : Timestamp}
    (published : publishComponentTerminalOutcomes db coverage sessionId outcomes settledAt = .ok next) :
    ScopeKept db next := by
  refine ScopeKept.thread (fun current after outcome _ step => ?_) published
  simp only [publishComponentTerminalOutcome, Lib.bind_ok] at step
  obtain ⟨_, _, _, _, _, _, results, _, states, _, pendings, _, settled⟩ := step
  have written : ScopeKept current { current with
      componentSuccessfulResults := results
      componentStates := states
      pendingComponentExecutions := pendings } := ⟨rfl, rfl, rfl, rfl, fun _ owner held => ⟨owner, held⟩⟩
  exact written.trans (target_settled_kept settled)

theorem hand_back_reserved {transfer : InterruptScopeTransfer} {error : Error}
    {reservations : Table ComponentReservation.componentKey}
    (handed : handBack db probe transfer error = .ok reservations) {row : ComponentReservation}
    (present : row ∈ reservations.rows) : ∃ old ∈ db.componentReservations.rows, old.componentKey = row.componentKey := by
  unfold handBack at handed
  dsimp only at handed
  split at handed
  · cases (Table.mem_change_one handed).mp present with
    | inl same => exact ⟨row, same.1, rfl⟩
    | inr changed =>
        obtain ⟨old, was, _, rfl⟩ := changed
        exact ⟨old, was, rfl⟩
  · exact ⟨row, ((Table.mem_remove_one handed).mp present).1, rfl⟩

theorem transfer_finished_kept {transfer : InterruptScopeTransfer} {finishedAt : Timestamp}
    (finished : finishTransfer probe finishedAt db transfer = .ok next) : ScopeKept db next := by
  simp only [finishTransfer, Lib.bind_ok, Lib.pure_ok] at finished
  obtain ⟨reservations, handed, transfers, _, rfl⟩ := finished
  refine ⟨rfl, rfl, rfl, rfl, fun node owner held => ?_⟩
  obtain ⟨row, present, inside, _⟩ := held
  obtain ⟨old, was, key⟩ := hand_back_reserved handed present
  exact ⟨old.sessionId, old, was, key ▸ inside, rfl⟩

theorem admission_ended_kept {admission : InterruptAdmission} {finishedAt : Timestamp}
    (ended : endInterruptAdmission db admission finishedAt = .ok next) : ScopeKept db next := by
  simp only [endInterruptAdmission, Lib.bind_ok] at ended
  obtain ⟨holds, _, ended⟩ := ended
  split at ended
  · obtain rfl := Except.ok.inj ended
    exact ⟨rfl, rfl, rfl, rfl, fun _ owner held => ⟨owner, held⟩⟩
  · simp only [Lib.bind_ok, Lib.pure_ok] at ended
    obtain ⟨_, _, rfl⟩ := ended
    exact ⟨rfl, rfl, rfl, rfl, fun _ owner held => ⟨owner, held⟩⟩

theorem scope_finished_kept {finishedAt : Timestamp} {scope : ScopeExit}
    (finished : finishInterruptSessionScope db probe sessionId finishedAt = .ok (scope, next)) : ScopeKept db next := by
  unfold finishInterruptSessionScope at finished
  split at finished
  · obtain ⟨_, rfl⟩ := Prod.mk.inj (Except.ok.inj finished)
    exact ScopeKept.refl db
  · simp only [Lib.bind_ok, Lib.pure_ok, Prod.mk.injEq] at finished
    obtain ⟨ended, first, after, moved, _, rfl⟩ := finished
    apply (admission_ended_kept first).trans
    exact ScopeKept.thread (fun current after transfer _ step => transfer_finished_kept step) moved

structure SessionEnded (db next : Database) (sessionId : String) : Prop where
  pending : ∀ node, pendingValue next node = pendingValue db node
  owned : ∀ node owner, ownedValue next node owner = if owner = sessionId then none else ownedValue db node owner
  concluded : sessionRunning next sessionId = false
  others : ∀ owner, owner ≠ sessionId → sessionRunning next owner = sessionRunning db owner
  reserved : ∀ node owner, reservedFor next node owner → ∃ earlier, reservedFor db node earlier
  limit : anyRunning next = false → next.apiThreadLimit = none

theorem ScopeKept.ended (kept : ScopeKept db middle) (ended : SessionEnded middle next sessionId) :
    SessionEnded db next sessionId := by
  constructor
  · intro node
    rw [ended.pending, pendingValue, kept.pending]
    rfl
  · intro node owner
    rw [ended.owned, ownedValue, kept.owned]
    rfl
  · exact ended.concluded
  · intro owner other
    rw [ended.others owner other, running_of_same kept.sessions]
  · intro node owner held
    obtain ⟨earlier, was⟩ := ended.reserved node owner held
    exact kept.reserved node earlier was
  · exact ended.limit

theorem SessionEnded.move (ended : SessionEnded db next sessionId) : OverrideMove db next := by
  constructor
  · intro node value waiting
    rwa [ended.pending] at waiting
  · intro node value waiting
    left
    rwa [ended.pending]
  · intro node owner value has
    rw [ended.owned] at has
    by_cases own : owner = sessionId
    · simp [own] at has
    · rw [if_neg own] at has
      exact .inl has
  · intro node owner value has
    rw [ended.owned]
    by_cases own : owner = sessionId
    · subst own
      exact .inr ended.concluded
    · left
      rwa [if_neg own]
  · intro owner running
    by_cases own : owner = sessionId
    · right
      intro node
      rw [ended.owned, if_pos own]
    · left
      rwa [ended.others owner own]
  · intro node owner held
    exact .inl (ended.reserved node owner held)
  · intro _ after
    exact ended.limit after

theorem owned_value_cleared (node owner : String) :
    ownedValue (clearThreadOverridesForSession db sessionId) node owner =
      if owner = sessionId then none else ownedValue db node owner := by
  simp only [ownedValue, clearThreadOverridesForSession, Table.find_delete]
  cases found : db.nodeThreadOverrides.find (node, owner) with
  | none => simp
  | some row =>
      have keyed := Table.find_key found
      simp only [NodeThreadOverride.key, Prod.mk.injEq] at keyed
      by_cases own : owner = sessionId
      · simp [Option.filter, keyed.2, own]
      · simp [Option.filter, keyed.2, own]

theorem session_closed {settlement : SessionSettlement} {boundaries : Option Details} {reserved : List Component}
    {scope : ScopeExit} {result : SettledSession}
    (closed : closeSession db sessionId settlement boundaries reserved scope = .ok (result, next)) :
    SessionEnded db next sessionId := by
  simp only [closeSession, Lib.bind_ok, Lib.require_ok, Lib.pure_ok, Prod.mk.injEq] at closed
  obtain ⟨nodes, _, sessions, changed, _, _, _, _, _, rfl⟩ := closed
  obtain ⟨row, found, _, here, elsewhere⟩ := Table.change_one_ok changed
  constructor
  · intro node
    rfl
  · intro node owner
    rw [owned_value_cleared]
    rfl
  · simp only [sessionRunning, clearThreadOverridesForSession, here]
    rfl
  · intro owner other
    simp only [sessionRunning, clearThreadOverridesForSession, elsewhere owner other]
  · intro node owner held
    obtain ⟨kept, present, inside, _⟩ := held
    exact ⟨kept.sessionId, kept, (Table.mem_delete.mp present).1, inside, rfl⟩
  · intro idle
    have last : anyRunning { db with executionSessions := sessions } = false := idle
    simp only [clearThreadOverridesForSession]
    rw [if_neg]
    simpa [anyRunning] using last

theorem settled_session_ended {coverage : SampleCoverage} {settlement : SessionSettlement} {result : SettledSession}
    (settled : settleExecutionSession db probe coverage sessionId settlement = .ok (result, next)) :
    SessionEnded db next sessionId := by
  simp only [settleExecutionSession, Lib.bind_ok] at settled
  obtain ⟨⟨_, _⟩, _, cleared, permits, published, written, ⟨scope, finished⟩, moved, _, _, closed⟩ := settled
  have kept := (permits_cleared_kept permits).trans ((outcomes_published_kept written).trans (scope_finished_kept moved))
  exact kept.ended (session_closed closed)

theorem session_exit_move {coverage : SampleCoverage} {request : ExitRequest} {decision : ExitDecision}
    (decided : decideExecutionSessionExit db probe coverage sessionId request = .ok (decision, next)) :
    OverrideMove db next := by
  simp only [decideExecutionSessionExit, Lib.bind_ok] at decided
  obtain ⟨outcomes, _, _, _, components, _, roots, _, _, _, choice, _, decided⟩ := decided
  split at decided
  · simp only [endSession, Lib.bind_ok, Lib.pure_ok, Prod.mk.injEq] at decided
    obtain ⟨_, _, ⟨_, _⟩, settled, _, rfl⟩ := decided
    exact (settled_session_ended settled).move
  · simp only [Lib.pure_ok, Prod.mk.injEq] at decided
    obtain ⟨_, rfl⟩ := decided
    exact (OverrideFrame.refl db).move

end Settle

end MicroWorkflow
