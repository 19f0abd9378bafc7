import MicroWorkflow.OverrideOwnership
import MicroWorkflow.PermitRefinement

set_option autoImplicit false

namespace MicroWorkflow

open Lib (thread Table)

variable {db middle next : Database} {probe : Probe} {sessionId child : String} {finishedAt : Timestamp}

def owedTransfer (db : Database) (sessionId : String) (key : Component) : Option InterruptScopeTransfer :=
  if db.interruptAdmissions.contains sessionId then
    (db.interruptScopeTransfers.find (sessionId, key)).filter fun row => row.state = .active
  else none

def takesBack (db : Database) (probe : Probe) (transfer : InterruptScopeTransfer) : Option String :=
  if canReturn db probe transfer then some transfer.sourceSessionId else none

def finishedTransfer (db : Database) (probe : Probe) (finishedAt : Timestamp) (row : InterruptScopeTransfer) :
    InterruptScopeTransfer :=
  { row with
    state := if canReturn db probe row then .returned else .released
    finishedAt := some finishedAt }

def ownerAfter (db : Database) (probe : Probe) (sessionId : String) (key : Component) : Option String :=
  ((owedTransfer db sessionId key).elim (reservationOwner db key) (takesBack db probe)).filter fun owner => owner != sessionId

section Frames

structure ScopeSame (db next : Database) : Prop where
  reservations : next.componentReservations = db.componentReservations
  transfers : next.interruptScopeTransfers = db.interruptScopeTransfers
  sessions : next.executionSessions = db.executionSessions
  selected : next.sessionComponents = db.sessionComponents
  permits : next.apiExecutionPermits = db.apiExecutionPermits
  admitted : ∀ sessionId, next.interruptAdmissions.contains sessionId = db.interruptAdmissions.contains sessionId

theorem ScopeSame.refl (db : Database) : ScopeSame db db := ⟨rfl, rfl, rfl, rfl, rfl, fun _ => rfl⟩

theorem ScopeSame.trans (first : ScopeSame db middle) (second : ScopeSame middle next) : ScopeSame db next :=
  ⟨second.reservations.trans first.reservations, second.transfers.trans first.transfers,
    second.sessions.trans first.sessions, second.selected.trans first.selected, second.permits.trans first.permits,
    fun sessionId => (second.admitted sessionId).trans (first.admitted sessionId)⟩

theorem target_settled_scope {outcome : ComponentTerminalOutcome} {settledAt : Timestamp}
    (settled : settleInterruptComponent db sessionId outcome settledAt = .ok next) : ScopeSame db next := by
  unfold settleInterruptComponent at settled
  split at settled
  · exact Except.ok.inj settled ▸ ScopeSame.refl db
  · split at settled
    · simp only [settleInterruptTarget, Lib.bind_ok, Lib.pure_ok] at settled
      obtain ⟨_, _, holds, _, fences, _, admissions, changed, _, _, rfl⟩ := settled
      exact ⟨rfl, rfl, rfl, rfl, rfl, Table.change_one_contains changed⟩
    · exact Except.ok.inj settled ▸ ScopeSame.refl db

theorem outcomes_published_scope {coverage : SampleCoverage} {outcomes : List ComponentTerminalOutcome}
    {settledAt : Timestamp}
    (published : publishComponentTerminalOutcomes db coverage sessionId outcomes settledAt = .ok next) :
    ScopeSame db next := by
  refine Lib.thread_invariant (motive := ScopeSame db) (.refl db) (fun current after outcome _ before step => ?_) published
  simp only [publishComponentTerminalOutcome, Lib.bind_ok] at step
  obtain ⟨_, _, _, _, _, _, results, _, states, _, pendings, _, settled⟩ := step
  have written : ScopeSame current { current with
      componentSuccessfulResults := results
      componentStates := states
      pendingComponentExecutions := pendings } := ⟨rfl, rfl, rfl, rfl, rfl, fun _ => rfl⟩
  exact before.trans (written.trans (target_settled_scope settled))

theorem admission_ended_scope {admission : InterruptAdmission}
    (ended : endInterruptAdmission db admission finishedAt = .ok next) : ScopeSame db next := by
  simp only [endInterruptAdmission, Lib.bind_ok] at ended
  obtain ⟨holds, _, ended⟩ := ended
  split at ended
  · obtain rfl := Except.ok.inj ended
    exact ⟨rfl, rfl, rfl, rfl, rfl, fun _ => rfl⟩
  · simp only [Lib.bind_ok, Lib.pure_ok] at ended
    obtain ⟨admissions, changed, rfl⟩ := ended
    exact ⟨rfl, rfl, rfl, rfl, rfl, Table.change_one_contains changed⟩

structure PermitsLeft (db next : Database) (sessionId : String) : Prop where
  only : PermitsOnly db next
  fewer : ∀ permit ∈ next.apiExecutionPermits.rows, permit ∈ db.apiExecutionPermits.rows
  others : ∀ permit ∈ db.apiExecutionPermits.rows, permit.sessionId ≠ sessionId → permit ∈ next.apiExecutionPermits.rows

theorem permit_withdrawn {identity : ApiExecutionPermitIdentity} {changed : Bool}
    (withdrawn : withdrawPermit db identity = .ok (changed, next)) : PermitsLeft db next identity.sessionId := by
  simp only [withdrawPermit, Lib.bind_ok, Lib.pure_ok, Prod.mk.injEq] at withdrawn
  obtain ⟨recorded, read, after, removed, _, rfl⟩ := withdrawn
  obtain ⟨found, holder⟩ := require_recorded_execution read
  have only := remove_permit_only removed
  simp only [removePermit, Lib.bind_ok, Lib.pure_ok] at removed
  obtain ⟨permits, removed, rfl⟩ := removed
  refine ⟨only, fun permit inside => ((Table.mem_remove_one removed).mp inside).1, fun permit inside other => ?_⟩
  refine (Table.mem_remove_one removed).mpr ⟨inside, fun same => other ?_⟩
  rw [Table.rows_inj inside (Table.find_mem found) same, ← holder]
  rfl

theorem permits_cleared (cleared : clearApiExecutionPermitsForSession db sessionId = .ok next) :
    PermitsOnly db next ∧ ∀ permit, permit ∈ next.apiExecutionPermits.rows ↔
      permit ∈ db.apiExecutionPermits.rows ∧ permit.sessionId ≠ sessionId := by
  simp only [clearApiExecutionPermitsForSession, Lib.bind_ok, Lib.require_ok, Lib.pure_ok] at cleared
  obtain ⟨_, _, identities, listed, last, released, _, noneLeft, rfl⟩ := cleared
  have own : ∀ identity ∈ identities, identity.sessionId = sessionId := by
    intro identity inside
    obtain ⟨row, selected, read⟩ := (Lib.mem_of_collect listed).1 identity inside
    simp only [permitFromRow, Lib.bind_ok, Lib.pure_ok] at read
    obtain ⟨_, _, rfl⟩ := read
    exact of_decide_eq_true (Table.mem_select.mp selected).2
  have left : PermitsLeft db last sessionId := by
    refine Lib.thread_invariant (motive := fun current => PermitsLeft db current sessionId)
      ⟨.refl db, fun _ inside => inside, fun _ inside _ => inside⟩ (fun _ after identity member before step => ?_) released
    simp only [releaseApiExecutionPermit, Lib.bind_ok, Lib.pure_ok, Prod.exists] at step
    obtain ⟨_, _, _, _, ⟨_, _, _, _, withdrawn⟩, rfl⟩ := step
    have step := own identity member ▸ permit_withdrawn withdrawn
    exact ⟨before.only.trans step.only, fun permit inside => before.fewer permit (step.fewer permit inside),
      fun permit inside other => step.others permit (before.others permit inside other) other⟩
  refine ⟨left.only, fun permit => ⟨fun inside => ⟨left.fewer permit inside, fun same => ?_⟩, fun held =>
    left.others permit held.1 held.2⟩⟩
  have selected : permit ∈ last.apiExecutionPermits.select fun row => decide (row.sessionId = sessionId) :=
    Table.mem_select.mpr ⟨inside, decide_eq_true same⟩
  cases List.isEmpty_iff.mp noneLeft ▸ selected

end Frames

section Transfers

variable {transfer : InterruptScopeTransfer} {transfers : List InterruptScopeTransfer}

structure TransfersFinished (db next : Database) (probe : Probe) (finishedAt : Timestamp)
    (transfers : List InterruptScopeTransfer) : Prop where
  only : next = { db with
    componentReservations := next.componentReservations, interruptScopeTransfers := next.interruptScopeTransfers }
  held : ∀ transfer ∈ transfers, reservationOwner db transfer.componentKey = some transfer.childSessionId
  moved : ∀ transfer ∈ transfers, reservationOwner next transfer.componentKey = takesBack db probe transfer
  kept : ∀ key, key ∉ transfers.map InterruptScopeTransfer.componentKey → reservationOwner next key = reservationOwner db key
  noted : ∀ transfer ∈ transfers, db.interruptScopeTransfers.find transfer.key = some transfer →
    next.interruptScopeTransfers.find transfer.key = some (finishedTransfer db probe finishedAt transfer)
  others : ∀ place, place ∉ transfers.map InterruptScopeTransfer.key →
    next.interruptScopeTransfers.find place = db.interruptScopeTransfers.find place

theorem TransfersFinished.none : TransfersFinished db db probe finishedAt [] :=
  ⟨rfl, nofun, nofun, fun _ _ => rfl, nofun, fun _ _ => rfl⟩

theorem transfer_finished (finished : finishTransfer probe finishedAt db transfer = .ok next) :
    TransfersFinished db next probe finishedAt [transfer] := by
  simp only [finishTransfer, Lib.bind_ok, Lib.pure_ok] at finished
  obtain ⟨reservations, handed, rows, changed, rfl⟩ := finished
  have handed : ∃ row, db.componentReservations.find transfer.componentKey = some row ∧
      row.sessionId = transfer.childSessionId ∧
      (reservations.find transfer.componentKey).map ComponentReservation.sessionId = takesBack db probe transfer ∧
      ∀ other, other ≠ transfer.componentKey → reservations.find other = db.componentReservations.find other := by
    unfold handBack at handed
    dsimp only at handed
    by_cases back : canReturn db probe transfer = true
    · rw [if_pos back] at handed
      obtain ⟨row, found, mine, here, elsewhere⟩ := Table.change_one_ok handed
      exact ⟨row, found, beq_iff_eq.mp mine, by rw [here, takesBack, if_pos back]; rfl, elsewhere⟩
    · rw [if_neg back] at handed
      obtain ⟨row, found, mine, here, elsewhere⟩ := Table.remove_one_ok handed
      exact ⟨row, found, beq_iff_eq.mp mine, by rw [here, takesBack, if_neg back]; rfl, elsewhere⟩
  obtain ⟨held, found, mine, here, elsewhere⟩ := handed
  obtain ⟨row, listed, _, now, others⟩ := Table.change_one_ok changed
  refine ⟨rfl, List.forall_mem_singleton.mpr ?_, List.forall_mem_singleton.mpr here, fun key apart => ?_,
    List.forall_mem_singleton.mpr fun recorded => ?_, fun place apart => ?_⟩
  · rw [reservationOwner, found, Option.map_some, mine]
  · exact congrArg (Option.map _) (elsewhere key fun same => apart (List.mem_singleton.mpr same))
  · cases recorded.symm.trans listed
    exact now
  · exact others place fun same => apart (List.mem_singleton.mpr same)

theorem transfers_finished (distinct : (transfers.map InterruptScopeTransfer.componentKey).Nodup)
    (finished : thread (finishTransfer probe finishedAt) db transfers = .ok next) :
    TransfersFinished db next probe finishedAt transfers := by
  induction transfers generalizing db with
  | nil => exact Except.ok.inj finished ▸ .none
  | cons transfer rest ih =>
      rw [Lib.thread_cons, Lib.bind_ok] at finished
      obtain ⟨middle, step, later⟩ := finished
      obtain ⟨fresh, distinct⟩ := List.nodup_cons.mp (List.map_cons ▸ distinct)
      have first := transfer_finished step
      have later := ih distinct later
      have back : ∀ other, canReturn middle probe other = canReturn db probe other := by
        intro other
        rw [first.only]
        rfl
      have alone := List.mem_singleton_self transfer
      have apart : ∀ other ∈ rest, other.componentKey ∉ [transfer.componentKey] :=
        fun other member same => fresh (List.mem_map.mpr ⟨other, member, List.mem_singleton.mp same⟩)
      have away : ∀ other ∈ rest, other.key ∉ [transfer.key] := fun other member same =>
        apart other member (List.mem_singleton.mpr (congrArg Prod.snd (List.mem_singleton.mp same)))
      refine ⟨by rw [later.only, first.only], ?_, ?_, ?_, ?_, ?_⟩
      · refine List.forall_mem_cons.mpr ⟨first.held _ alone, fun other member => ?_⟩
        rw [← first.kept _ (apart other member)]
        exact later.held other member
      · refine List.forall_mem_cons.mpr ⟨(later.kept _ fresh).trans (first.moved _ alone), fun other member => ?_⟩
        rw [later.moved other member, takesBack, takesBack, back]
      · intro key outside
        obtain ⟨different, outside⟩ := not_or.mp fun either => outside (List.mem_cons.mpr either)
        rw [later.kept key outside, first.kept key fun same => different (List.mem_singleton.mp same)]
      · refine List.forall_mem_cons.mpr ⟨fun recorded => ?_, fun other member recorded => ?_⟩
        · rw [later.others _ fun inside => ?_, first.noted _ alone recorded]
          obtain ⟨other, member, same⟩ := List.mem_map.mp inside
          exact away other member (List.mem_singleton.mpr same)
        · have still := first.others other.key (away other member)
          rw [later.noted other member (still.trans recorded), finishedTransfer, finishedTransfer, back]
      · intro place outside
        obtain ⟨different, outside⟩ := not_or.mp fun either => outside (List.mem_cons.mpr either)
        rw [later.others place outside, first.others place fun same => different (List.mem_singleton.mp same)]

end Transfers

section Settlement

theorem ScopeSame.returns (same : ScopeSame db next) (transfer : InterruptScopeTransfer) :
    canReturn next probe transfer = canReturn db probe transfer := by
  simp only [canReturn, same.sessions, same.selected]

theorem owed_iff {key : Component} {transfer : InterruptScopeTransfer} : owedTransfer db sessionId key = some transfer ↔
    db.interruptAdmissions.contains sessionId = true ∧ transfer ∈ db.interruptScopeTransfers.rows ∧
      transfer.key = (sessionId, key) ∧ transfer.state = .active := by
  simp [owedTransfer, Option.filter_eq_some_iff, Table.find_eq_some, and_assoc]

theorem active_transfers_distinct (db : Database) (child : String) :
    ((activeTransfersInto db child).map InterruptScopeTransfer.componentKey).Nodup := by
  have rows : (transferRows db child).Nodup :=
    (List.perm_insertionSort _ _).nodup_iff.mpr (db.interruptScopeTransfers.nodup.of_map.filter _)
  refine (rows.filter _).map_on fun left first right second same => ?_
  simp only [activeTransfersInto, transferRows, List.mem_filter, List.mem_insertionSort, Table.mem_select,
    decide_eq_true_eq] at first second
  exact Table.rows_inj first.1.1 second.1.1 (Prod.ext (first.1.2.trans second.1.2.symm) same)

theorem scope_finished {scope : ScopeExit}
    (finished : finishInterruptSessionScope db probe sessionId finishedAt = .ok (scope, next)) :
    ∃ ended transfers, ScopeSame db ended ∧ TransfersFinished ended next probe finishedAt transfers ∧
      ∀ transfer, transfer ∈ transfers ↔ owedTransfer db sessionId transfer.componentKey = some transfer := by
  unfold finishInterruptSessionScope at finished
  split at finished
  · rename_i noAdmission
    obtain ⟨_, rfl⟩ := Prod.mk.inj (Except.ok.inj finished)
    refine ⟨db, [], .refl db, .none, fun transfer => ?_⟩
    simp [owed_iff, Table.contains, noAdmission]
  · rename_i admission found
    simp only [Lib.bind_ok, Lib.pure_ok, Prod.mk.injEq] at finished
    obtain ⟨ended, first, after, moved, _, rfl⟩ := finished
    have same := admission_ended_scope first
    refine ⟨ended, _, same, transfers_finished (active_transfers_distinct ended sessionId) moved, fun transfer => ?_⟩
    rw [owed_iff, Table.contains, found]
    simp [activeTransfersInto, transferRows, Table.mem_select, same.transfers, InterruptScopeTransfer.key, and_assoc]

def closedTransfer (db : Database) (probe : Probe) (sessionId : String) (finishedAt : Timestamp)
    (row : InterruptScopeTransfer) : InterruptScopeTransfer :=
  if owedTransfer db sessionId row.componentKey = some row then finishedTransfer db probe finishedAt row else row

-- Ending a session closes every transfer it got, gives each component back to a source that can take it,
-- frees the rest of what it held, and takes no other session's scope, row or permit away.
theorem settled_scope_goes_back {coverage : SampleCoverage} {settlement : SessionSettlement} {result : SettledSession}
    (settled : settleExecutionSession db probe coverage sessionId settlement = .ok (result, next)) :
    (∀ key transfer, owedTransfer db sessionId key = some transfer → reservationOwner db key = some sessionId) ∧
    (∀ key, reservationOwner next key = ownerAfter db probe sessionId key) ∧
    (∀ place, next.interruptScopeTransfers.find place =
      (db.interruptScopeTransfers.find place).map (closedTransfer db probe sessionId settlement.finishedAt)) ∧
    (sessionRunning next sessionId = false ∧
      ∀ other, other ≠ sessionId → next.executionSessions.find other = db.executionSessions.find other) ∧
    (∀ permit, permit ∈ next.apiExecutionPermits.rows ↔
      permit ∈ db.apiExecutionPermits.rows ∧ permit.sessionId ≠ sessionId) := by
  have ends := settled_session_ended settled
  simp only [settleExecutionSession, Lib.bind_ok] at settled
  obtain ⟨⟨_, _⟩, _, cleared, permits, published, written, ⟨scope, last⟩, moved, _, _, closed⟩ := settled
  obtain ⟨only, left⟩ := permits_cleared permits
  have first := outcomes_published_scope written
  obtain ⟨ended, transfers, second, finished, owed⟩ := scope_finished moved
  have same := first.trans second
  have back : ∀ transfer, canReturn ended probe transfer = canReturn db probe transfer := by
    intro transfer
    rw [same.returns, only]
    rfl
  have owes : owedTransfer published sessionId = owedTransfer db sessionId := by
    funext key
    rw [owedTransfer, first.admitted, first.transfers, only]
    rfl
  have owner : ∀ key, reservationOwner ended key = reservationOwner db key := by
    intro key
    rw [reservationOwner, same.reservations, only]
    rfl
  have rows : ended.interruptScopeTransfers = db.interruptScopeTransfers := by
    rw [same.transfers, only]
  rw [owes] at owed
  simp only [closeSession, Lib.bind_ok, Lib.require_ok, Lib.pure_ok, Prod.mk.injEq] at closed
  obtain ⟨nodes, _, sessions, changed, _, _, _, _, _, rfl⟩ := closed
  refine ⟨fun key transfer found => ?_, fun key => ?_, fun place => ?_, ⟨ends.concluded, fun other apart => ?_⟩,
    fun permit => ?_⟩
  · obtain ⟨rfl, rfl⟩ := Prod.mk.inj (owed_iff.mp found).2.2.1
    exact (owner _).symm.trans (finished.held transfer ((owed transfer).mpr found))
  · have after : (last.componentReservations.find key).map ComponentReservation.sessionId =
        (owedTransfer db sessionId key).elim (reservationOwner db key) (takesBack db probe) := by
      cases found : owedTransfer db sessionId key with
      | none =>
          refine (finished.kept key fun inside => ?_).trans (owner key)
          obtain ⟨transfer, member, rfl⟩ := List.mem_map.mp inside
          cases found.symm.trans ((owed transfer).mp member)
      | some transfer =>
          obtain ⟨_, rfl⟩ := Prod.mk.inj (owed_iff.mp found).2.2.1
          refine (finished.moved transfer ((owed transfer).mpr found)).trans ?_
          rw [takesBack, back]
          rfl
    rw [ownerAfter, ← after, Option.filter_map]
    exact congrArg (Option.map _) Table.find_delete
  · show last.interruptScopeTransfers.find place = _
    by_cases inside : place ∈ transfers.map InterruptScopeTransfer.key
    · obtain ⟨transfer, member, rfl⟩ := List.mem_map.mp inside
      have listed := (owed transfer).mp member
      have recorded := Table.find_of_mem (owed_iff.mp listed).2.1
      rw [finished.noted transfer member (rows ▸ recorded), recorded, Option.map_some, closedTransfer, if_pos listed,
        finishedTransfer, back]
      rfl
    · rw [finished.others place inside, rows]
      cases found : db.interruptScopeTransfers.find place with
      | none => rfl
      | some row =>
          rw [Option.map_some, closedTransfer, if_neg]
          exact fun unfinished => inside (List.mem_map.mpr ⟨row, (owed row).mpr unfinished, Table.find_key found⟩)
  · obtain ⟨_, _, _, _, elsewhere⟩ := Table.change_one_ok changed
    refine (elsewhere other apart).trans ?_
    rw [finished.only, same.sessions, only]
  · rw [← left permit, ← same.permits]
    show permit ∈ last.apiExecutionPermits.rows ↔ _
    rw [finished.only]

def takenSettled : Result (SettledSession × Database) :=
  settleExecutionSession takenProject deadInterruptProbe (fun _ _ _ _ => .ok false) "c" ⟨"failed", 1, [], [], []⟩

theorem taken_component_goes_back : ∃ result next, takenSettled = .ok (result, next) ∧
    reservationOwner takenProject ["a"] = some "c" ∧ reservationOwner next ["a"] = some "s" := by
  have settled : takenSettled = .ok (Lib.valueOr takenSettled (⟨0, none⟩, takenProject)) := Lib.ok_valueOr (by decide +kernel)
  refine ⟨_, _, settled, by decide +kernel, ?_⟩
  rw [(settled_scope_goes_back settled).2.1]
  decide +kernel

end Settlement

end MicroWorkflow
