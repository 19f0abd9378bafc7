import MicroWorkflow.GroupedPermits

set_option autoImplicit false

namespace MicroWorkflow

open Lib (require refuse orRaise Table inTurn attempt)

variable {db current next : Database} {identity : ApiExecutionPermitIdentity} {request : PermitRequest}
  {requests : List PermitRequest} {existing : List ApiExecutionPermit}

-- An acquisition that the owner check refuses is refused by the group as well;
-- the group reads the owner from the job and may name another reason.
def RefusedOwner (db : Database) (request : PermitRequest) : Prop :=
  request.action = .acquire ∧ validateIdentity request.identity = .ok () ∧
    ∃ error, requireOwner db request.identity true = .error error

inductive SameAnswers (db : Database) : List PermitRequest → List PermitOutcome → List PermitOutcome → Prop where
  | nil : SameAnswers db [] [] []
  | same {request : PermitRequest} {requests : List PermitRequest} {outcome : PermitOutcome}
      {grouped individual : List PermitOutcome} (later : SameAnswers db requests grouped individual) :
      SameAnswers db (request :: requests) (outcome :: grouped) (outcome :: individual)
  | refused {request : PermitRequest} {requests : List PermitRequest} {first second : Error}
      {grouped individual : List PermitOutcome} (owner : RefusedOwner db request)
      (later : SameAnswers db requests grouped individual) :
      SameAnswers db (request :: requests) (.error first :: grouped) (.error second :: individual)

def PermitsOnly (db current : Database) : Prop :=
  current = { db with apiExecutionPermits := current.apiExecutionPermits }

theorem PermitsOnly.refl (db : Database) : PermitsOnly db db := rfl

theorem PermitsOnly.trans (first : PermitsOnly db current) (second : PermitsOnly current next) :
    PermitsOnly db next := by
  unfold PermitsOnly at first second ⊢
  rw [second, first]

theorem PermitsOnly.owner (only : PermitsOnly db current) (requireCurrent : Bool) :
    requireOwner current identity requireCurrent = requireOwner db identity requireCurrent := by
  rw [only]
  rfl

theorem PermitsOnly.limit (only : PermitsOnly db current) : current.apiThreadLimit = db.apiThreadLimit := by
  rw [only]

theorem PermitsOnly.refused (only : PermitsOnly db current) (owner : RefusedOwner current request) :
    RefusedOwner db request := by
  obtain ⟨action, valid, error, failed⟩ := owner
  exact ⟨action, valid, error, (only.owner true).symm.trans failed⟩

theorem SameAnswers.refl (answers : List PermitOutcome) (sized : answers.length = requests.length) :
    SameAnswers db requests answers answers := by
  induction requests generalizing answers with
  | nil =>
      obtain rfl := List.length_eq_zero_iff.mp sized
      exact .nil
  | cons request rest ih =>
      cases answers with
      | nil => exact absurd sized (by simp)
      | cons answer later => exact .same (ih later (by simpa using sized))

theorem SameAnswers.append {later : List PermitRequest} {first second third fourth : List PermitOutcome}
    (head : SameAnswers db requests first second) (tail : SameAnswers db later third fourth) :
    SameAnswers db (requests ++ later) (first ++ third) (second ++ fourth) := by
  induction head with
  | nil => exact tail
  | same _ ih => exact .same ih
  | refused owner _ ih => exact .refused owner ih

theorem SameAnswers.later (only : PermitsOnly db current) {first second : List PermitOutcome}
    (answers : SameAnswers current requests first second) : SameAnswers db requests first second := by
  induction answers with
  | nil => exact .nil
  | same _ ih => exact .same ih
  | refused owner _ ih => exact .refused (only.refused owner) ih

theorem insert_permit_only {recorded : ApiExecutionPermit} {acquiredAt : Timestamp}
    (inserted : insertPermit db identity acquiredAt = .ok (recorded, next)) : PermitsOnly db next := by
  obtain ⟨_, _, _, _, rfl⟩ := insert_permit_writes inserted
  rfl

theorem remove_permit_only {recorded : ApiExecutionPermit} (removed : removePermit db recorded = .ok next) :
    PermitsOnly db next := by
  obtain ⟨_, rfl, _⟩ := remove_permit_writes removed
  rfl

section Ownership

def groupVerdict (db : Database) (identity : ApiExecutionPermitIdentity) : Result Unit := do
  let owner ← plannedOwner db identity
  requireScope db identity owner

theorem execution_owner_row {owner found : ExecutionOwner} (read : executionOwnerFromRow db owner = .ok found) :
    found = owner := by
  simp only [executionOwnerFromRow, Lib.bind_ok, Lib.pure_ok] at read
  obtain ⟨_, _, _, _, _, _, _, _, _, _, _, _, _, _, same⟩ := read
  exact same.symm

theorem observed_owner_executed {row : Job} {observed : JobOwnerObservation} {owner : ExecutionOwner}
    (seen : jobOwnerObservationFromRow db row = .ok observed) (owned : observed.owner = some owner) :
    readExecutionOwner db owner.executionId = .ok (some owner) := by
  unfold jobOwnerObservationFromRow at seen
  simp only [Lib.bind_ok] at seen
  obtain ⟨_, _, _, _, _, _, _, _, seen⟩ := seen
  split at seen
  · simp only [Lib.pure_ok] at seen
    subst seen
    exact absurd owned (by simp)
  · simp only [Lib.bind_ok, Lib.orRaise_ok, Lib.pure_ok] at seen
    obtain ⟨stored, found, _, _, _, _, _, _, kept, read, rfl⟩ := seen
    obtain rfl := Option.some.inj owned
    obtain rfl := execution_owner_row read
    rw [readExecutionOwner, Table.find_key found, found]
    simp only [read, bind, Except.bind, pure, Except.pure]

theorem current_owner_executed {owner : ExecutionOwner} (owned : currentOwner db identity = .ok owner)
    (scope : requireScope db identity owner = .ok ()) : requireOwner db identity true = .ok owner := by
  simp only [currentOwner, Lib.bind_ok, Lib.orRaise_ok, Lib.require_ok, Lib.pure_ok] at owned
  obtain ⟨_, read, observed, rfl, found, held, _, matched, _, running, rfl⟩ := owned
  have executed : readExecutionOwner db identity.executionId = .ok (some found) := by
    rw [readJobOwnerObservation] at read
    split at read
    · exact absurd read (by simp)
    · simp only [Lib.bind_ok, Lib.pure_ok, Option.some.injEq] at read
      obtain ⟨_, seen, rfl⟩ := read
      have same : found.executionId = identity.executionId := by
        simp only [ownsPermit, Bool.and_eq_true, beq_iff_eq] at matched
        exact matched.1.1.1.1
      rw [← same]
      exact observed_owner_executed seen held
  simp only [requireOwner, requireImmutableOwner, executed, read, bind, Except.bind, orRaise, require, pure,
    Except.pure, matched, running, held, scope, if_true, beq_self_eq_true, Bool.and_self]

theorem required_owner_current {owner : ExecutionOwner} (owned : requireOwner db identity true = .ok owner) :
    currentOwner db identity = .ok owner ∧ requireScope db identity owner = .ok () := by
  have immutable := require_owner_executed owned
  simp only [requireOwner, immutable, if_true, Lib.bind_ok, Lib.orRaise_ok, Lib.require_ok, Bool.and_eq_true,
    beq_iff_eq] at owned
  obtain ⟨found, same, _, read, observed, rfl, _, ⟨running, held⟩, _, scope, _⟩ := owned
  obtain rfl := Except.ok.inj same
  simp only [requireImmutableOwner, Lib.bind_ok, Lib.require_ok, Lib.pure_ok] at immutable
  obtain ⟨_, _, _, _, _, matched, rfl⟩ := immutable
  refine ⟨?_, scope⟩
  simp only [currentOwner, read, bind, Except.bind, orRaise, require, pure, Except.pure, matched, running, held,
    if_true]

theorem group_verdict_agrees (db : Database) (identity : ApiExecutionPermitIdentity) :
    (groupVerdict db identity = .ok () ↔
      validateIdentity identity = .ok () ∧ ∃ owner, requireOwner db identity true = .ok owner) ∧
    ∀ error, validateIdentity identity = .error error → groupVerdict db identity = .error error := by
  constructor
  · simp only [groupVerdict, plannedOwner, Lib.bind_ok]
    constructor
    · rintro ⟨owner, ⟨_, valid, owned⟩, scope⟩
      exact ⟨valid, owner, current_owner_executed owned scope⟩
    · rintro ⟨valid, owner, owned⟩
      obtain ⟨held, scope⟩ := required_owner_current owned
      exact ⟨owner, ⟨(), valid, held⟩, scope⟩
  · intro error failed
    simp only [groupVerdict, plannedOwner, failed, bind, Except.bind]

def KnownScopes (db : Database) (known : ScopeResults) : Prop :=
  ∀ scopeKey verdict, known.lookup scopeKey = some verdict →
    ∀ identity owner, scopeKey = (identity.sessionId, encodeComponentKey owner.componentKey) →
      verdict = requireScope db identity owner

theorem scope_verdicts_planned {known : ScopeResults} (right : KnownScopes db known)
    (identities : List ApiExecutionPermitIdentity) :
    scopeVerdicts db known (identities.zip (identities.map (plannedOwner db))) = identities.map (groupVerdict db) := by
  induction identities generalizing known with
  | nil => rfl
  | cons identity rest ih =>
      simp only [List.map_cons, List.zip_cons_cons]
      cases owned : plannedOwner db identity with
      | error error =>
          have refused : groupVerdict db identity = .error error := by
            simp only [groupVerdict, owned, bind, Except.bind]
          simp only [scopeVerdicts, refused]
          rw [ih right]
      | ok owner =>
          have verdict : groupVerdict db identity = requireScope db identity owner := by
            simp only [groupVerdict, owned, bind, Except.bind]
          simp only [scopeVerdicts]
          cases cached : known.lookup (identity.sessionId, encodeComponentKey owner.componentKey) with
          | some found =>
              rw [verdict, ← right _ found cached identity owner rfl, ih right]
          | none =>
              have extended : KnownScopes db
                  (((identity.sessionId, encodeComponentKey owner.componentKey), requireScope db identity owner) ::
                    known) := by
                intro scopeKey found listed other held same
                by_cases here : scopeKey = (identity.sessionId, encodeComponentKey owner.componentKey)
                · simp only [List.lookup_cons, beq_iff_eq.mpr here] at listed
                  obtain rfl := Option.some.inj listed
                  obtain ⟨session, key⟩ := Prod.mk.inj (here.symm.trans same)
                  simp only [requireScope, session, key]
                · simp only [List.lookup_cons, beq_eq_false_iff_ne.mpr here] at listed
                  exact right scopeKey found listed other held same
              rw [verdict]
              simp only
              rw [ih extended]

end Ownership

section Rows

theorem recorded_rows {executionIds : List String} {executionId : String} (asked : executionId ∈ executionIds) :
    recordedFor (rowsByExecution db executionIds) executionId = db.apiExecutionPermits.find executionId := by
  rw [recordedFor, rowsByExecution, Table.select, List.find?_filter, Table.find]
  congr 1
  funext row
  by_cases same : row.executionId = executionId
  · simp [same, asked]
  · simp [same]

theorem valid_execution {planned : List (PermitRequest × Result Unit)} (listed : (request, .ok ()) ∈ planned) :
    request.identity.executionId ∈ validExecutions planned := by
  rw [validExecutions, List.mem_map]
  exact ⟨(request, .ok ()), List.mem_filter.mpr ⟨listed, rfl⟩, rfl⟩

end Rows

section Acquire

theorem acquire_settled {owner : ExecutionOwner} (valid : validateIdentity request.identity = .ok ())
    (owned : requireOwner current request.identity true = .ok owner) :
    acquireOne current request = admitPermit current request.identity request.now := by
  simp only [acquireOne, tryAcquireApiExecutionPermit, valid, owned, bind, Except.bind]

theorem acquire_recorded {row : ApiExecutionPermit}
    (settled : acquireOne current request = admitPermit current request.identity request.now)
    (held : current.apiExecutionPermits.find request.identity.executionId = some row) :
    attempt acquireOne current request = (recordedPermit row request.identity, current) := by
  simp only [attempt, settled, admitPermit, permitRow, held]
  cases recordedPermit row request.identity with
  | error error => rfl
  | ok value => rfl

theorem acquire_refused {error : Error} (only : PermitsOnly db current) (action : request.action = .acquire)
    (verdict : groupVerdict db request.identity = .error error) :
    ∃ other, acquireOne current request = .error other ∧
      ∀ {grouped individual : List PermitOutcome}, SameAnswers db requests grouped individual →
        SameAnswers db (request :: requests) (.error error :: grouped) (.error other :: individual) := by
  obtain ⟨agrees, words⟩ := group_verdict_agrees db request.identity
  cases valid : validateIdentity request.identity with
  | error invalid =>
      have same := words invalid valid
      rw [verdict] at same
      obtain rfl := Except.error.inj same
      refine ⟨error, ?_, fun later => .same later⟩
      simp only [acquireOne, tryAcquireApiExecutionPermit, valid, bind, Except.bind]
  | ok _ =>
      cases owned : requireOwner db request.identity true with
      | ok owner =>
          have accepted := agrees.mpr ⟨valid, owner, owned⟩
          rw [verdict] at accepted
          exact absurd accepted (by simp)
      | error other =>
          refine ⟨other, ?_, fun later => .refused ⟨action, valid, other, owned⟩ later⟩
          simp only [acquireOne, tryAcquireApiExecutionPermit, valid, only.owner true, owned, bind, Except.bind]

theorem acquire_accepted (only : PermitsOnly db current) (verdict : groupVerdict db request.identity = .ok ()) :
    acquireOne current request = admitPermit current request.identity request.now := by
  obtain ⟨valid, owner, owned⟩ := (group_verdict_agrees db request.identity).1.mp verdict
  exact acquire_settled valid ((only.owner true).trans owned)

def places (db current : Database) (pending available : Nat) : Prop :=
  match db.apiThreadLimit with
  | none => pending ≤ available
  | some limit => 1 ≤ limit ∧ available = limit - current.apiExecutionPermits.rows.length

def pendingRequests (db : Database) (known : List ApiExecutionPermit) (requests : List PermitRequest) : Nat :=
  requests.countP fun request => (plannedOutcome known request (groupVerdict db request.identity)).isNone

structure GrantsFrom (db current : Database) (known existing : List ApiExecutionPermit) (available : Nat)
    (requests : List PermitRequest) : Prop where
  only : PermitsOnly db current
  grown : ∀ executionId row, db.apiExecutionPermits.find executionId = some row →
    current.apiExecutionPermits.find executionId = some row
  first : ∀ request ∈ requests, groupVerdict db request.identity = .ok () →
    recordedFor known request.identity.executionId = db.apiExecutionPermits.find request.identity.executionId
  now : ∀ request ∈ requests, groupVerdict db request.identity = .ok () →
    recordedFor existing request.identity.executionId = current.apiExecutionPermits.find request.identity.executionId
  left : places db current (pendingRequests db known requests) available

variable {known : List ApiExecutionPermit} {available : Nat}

theorem GrantsFrom.tail (state : GrantsFrom db current known existing available (request :: requests)) :
    GrantsFrom db current known existing available requests := by
  refine ⟨state.only, state.grown, fun other member => state.first other (List.mem_cons_of_mem _ member),
    fun other member => state.now other (List.mem_cons_of_mem _ member), ?_⟩
  have left := state.left
  unfold places at left ⊢
  cases limited : db.apiThreadLimit with
  | some limit =>
      simp only [limited] at left ⊢
      exact left
  | none =>
      simp only [limited, pendingRequests, List.countP_cons] at left ⊢
      omega

theorem GrantsFrom.granted {recorded : ApiExecutionPermit}
    (state : GrantsFrom db current known existing available (request :: requests))
    (pending : plannedOutcome known request (groupVerdict db request.identity) = none)
    (inserted : insertPermit current request.identity request.now = .ok (recorded, next)) :
    GrantsFrom db next known (recorded :: existing) (available - 1) requests := by
  obtain ⟨_, absent, permits, added, rfl⟩ := insert_permit_writes inserted
  have keyed : ∀ executionId, permits.find executionId =
      if recorded.executionId = executionId then some recorded else current.apiExecutionPermits.find executionId :=
    Table.find_insert added
  refine ⟨state.only.trans rfl, ?_, fun other member => state.first other (List.mem_cons_of_mem _ member), ?_, ?_⟩
  · intro executionId row stored
    have there := state.grown executionId row stored
    by_cases same : recorded.executionId = executionId
    · have empty := (Table.insert_eq_some.mp added).1
      rw [same, there] at empty
      exact absurd empty (by simp)
    · rw [keyed, if_neg same]
      exact there
  · intro other member verdict
    have there := state.now other (List.mem_cons_of_mem _ member) verdict
    by_cases same : recorded.executionId = other.identity.executionId
    · rw [keyed, if_pos same, recordedFor, List.find?_cons_of_pos (by simpa using same)]
    · rw [keyed, if_neg same, recordedFor, List.find?_cons_of_neg (by simpa using same)]
      exact there
  · have left := state.left
    have longer : permits.rows.length = current.apiExecutionPermits.rows.length + 1 := by
      rw [(Table.insert_eq_some.mp added).2, List.length_append, List.length_singleton]
    unfold places at left ⊢
    cases limited : db.apiThreadLimit with
    | some limit =>
        simp only [limited] at left ⊢
        omega
    | none =>
        simp only [limited, pendingRequests, List.countP_cons, pending, Option.isNone_none, if_true] at left ⊢
        omega

theorem GrantsFrom.full (state : GrantsFrom db current known existing available (request :: requests))
    (pending : plannedOutcome known request (groupVerdict db request.identity) = none) :
    capacityFull current = .ok (decide (available = 0)) := by
  have left := state.left
  unfold places at left
  rw [capacityFull, state.only.limit]
  cases limited : db.apiThreadLimit with
  | none =>
      simp only [limited, pendingRequests, List.countP_cons, pending, Option.isNone_none, if_true] at left
      have free : available ≠ 0 := by omega
      simp only [decide_eq_false free]
  | some limit =>
      simp only [limited] at left
      obtain ⟨positive, count⟩ := left
      simp only [requireLimit, require, decide_eq_true positive, if_true, bind, Except.bind, pure, Except.pure]
      congr 2
      exact propext (by omega)

theorem grant_in_turn (acquisitions : ∀ request ∈ requests, request.action = .acquire)
    (state : GrantsFrom db current known existing available requests) :
    let grouped := grantPending current existing available
      (requests.map fun request => (request, plannedOutcome known request (groupVerdict db request.identity)))
    grouped.2 = (inTurn acquireOne current requests).2 ∧
      SameAnswers db requests grouped.1 (inTurn acquireOne current requests).1 := by
  induction requests generalizing current existing available with
  | nil => exact ⟨rfl, .nil⟩
  | cons request rest ih =>
      have action := acquisitions request List.mem_cons_self
      have others : ∀ request ∈ rest, request.action = .acquire :=
        fun other member => acquisitions other (List.mem_cons_of_mem _ member)
      obtain ⟨same, answers⟩ := ih others state.tail
      simp only [List.map_cons, inTurn]
      cases verdict : groupVerdict db request.identity with
      | error error =>
          obtain ⟨other, failed, kept⟩ := acquire_refused state.only action verdict
          simp only [plannedOutcome, grantPending, Lib.attempt_error failed]
          exact ⟨same, kept answers⟩
      | ok _ =>
          have settled := acquire_accepted state.only verdict
          have before := state.first request List.mem_cons_self verdict
          have now := state.now request List.mem_cons_self verdict
          cases stored : db.apiExecutionPermits.find request.identity.executionId with
          | some row =>
              rw [stored] at before
              simp only [plannedOutcome, before, Option.map_some, grantPending,
                acquire_recorded settled (state.grown _ _ stored)]
              exact ⟨same, .same answers⟩
          | none =>
              rw [stored] at before
              have pending : plannedOutcome known request (groupVerdict db request.identity) = none := by
                simp only [verdict, plannedOutcome, before, Option.map_none]
              have full := state.full pending
              rw [← verdict, pending, grantPending, now]
              cases held : current.apiExecutionPermits.find request.identity.executionId with
              | some row =>
                  simp only [acquire_recorded settled held]
                  exact ⟨same, .same answers⟩
              | none =>
                  by_cases exhausted : available = 0
                  · have refused : acquireOne current request = .ok (false, current) := by
                      simp only [settled, admitPermit, permitRow, held, full, exhausted, decide_true, if_true, bind,
                        Except.bind, pure, Except.pure]
                    simp only [if_pos exhausted, Lib.attempt_ok refused]
                    exact ⟨same, .same answers⟩
                  · simp only [if_neg exhausted]
                    cases inserted : insertPermit current request.identity request.now with
                    | error error =>
                        have failed : acquireOne current request = .error error := by
                          simp only [settled, admitPermit, permitRow, held, full, decide_eq_false exhausted, inserted,
                            Bool.false_eq_true, if_false, bind, Except.bind]
                        simp only [Lib.attempt_error failed]
                        exact ⟨same, .same answers⟩
                    | ok written =>
                        obtain ⟨recorded, after⟩ := written
                        have granted : acquireOne current request = .ok (true, after) := by
                          simp only [settled, admitPermit, permitRow, held, full, decide_eq_false exhausted, inserted,
                            Bool.false_eq_true, if_false, bind, Except.bind, pure, Except.pure]
                        simp only [Lib.attempt_ok granted]
                        obtain ⟨ends, later⟩ := ih others (state.granted pending inserted)
                        exact ⟨ends, .same later⟩

theorem damaged_limit_in_turn {error : Error} (acquisitions : ∀ request ∈ requests, request.action = .acquire)
    (first : ∀ request ∈ requests, groupVerdict db request.identity = .ok () →
      recordedFor known request.identity.executionId = db.apiExecutionPermits.find request.identity.executionId)
    (damaged : capacityFull db = .error error) :
    db = (inTurn acquireOne db requests).2 ∧
      SameAnswers db requests
        (requests.map fun request =>
          (plannedOutcome known request (groupVerdict db request.identity)).getD (.error error))
        (inTurn acquireOne db requests).1 := by
  induction requests with
  | nil => exact ⟨rfl, .nil⟩
  | cons request rest ih =>
      have action := acquisitions request List.mem_cons_self
      obtain ⟨same, answers⟩ := ih (fun other member => acquisitions other (List.mem_cons_of_mem _ member))
        fun other member => first other (List.mem_cons_of_mem _ member)
      simp only [List.map_cons, inTurn]
      cases verdict : groupVerdict db request.identity with
      | error refusal =>
          obtain ⟨other, failed, kept⟩ := acquire_refused (PermitsOnly.refl db) action verdict
          simp only [plannedOutcome, Option.getD_some, Lib.attempt_error failed]
          exact ⟨same, kept answers⟩
      | ok _ =>
          have settled := acquire_accepted (PermitsOnly.refl db) verdict
          have before := first request List.mem_cons_self verdict
          cases stored : db.apiExecutionPermits.find request.identity.executionId with
          | some row =>
              rw [stored] at before
              simp only [plannedOutcome, before, Option.map_some, Option.getD_some, acquire_recorded settled stored]
              exact ⟨same, .same answers⟩
          | none =>
              rw [stored] at before
              have failed : acquireOne db request = .error error := by
                simp only [settled, admitPermit, permitRow, stored, damaged, bind, Except.bind]
              simp only [plannedOutcome, before, Option.map_none, Option.getD_none, Lib.attempt_error failed]
              exact ⟨same, .same answers⟩

theorem available_places_start (read : availablePlaces db (pendingRequests db known requests) = .ok available) :
    places db db (pendingRequests db known requests) available := by
  unfold availablePlaces at read
  unfold places
  cases limited : db.apiThreadLimit with
  | none =>
      simp only [limited, Except.ok.injEq] at read
      exact read.le
  | some limit =>
      simp only [limited, requireLimit, Lib.bind_ok, Lib.require_ok, Lib.pure_ok, decide_eq_true_eq] at read
      obtain ⟨_, positive, same⟩ := read
      exact ⟨positive, same.symm⟩

theorem available_places_damaged {error : Error} {pending : Nat} (failed : availablePlaces db pending = .error error) :
    capacityFull db = .error error := by
  unfold availablePlaces at failed
  unfold capacityFull
  cases limited : db.apiThreadLimit with
  | none => simp [limited] at failed
  | some limit =>
      simp only [limited] at failed ⊢
      cases checked : requireLimit limit with
      | ok _ => simp [checked, bind, Except.bind, pure, Except.pure] at failed
      | error other =>
          simp only [checked, bind, Except.bind, Except.error.injEq] at failed ⊢
          exact failed

theorem plan_acquisitions_in_turn (acquisitions : ∀ request ∈ requests, request.action = .acquire) :
    (planAcquisitions db requests).2 = (inTurn acquireOne db requests).2 ∧
      SameAnswers db requests (planAcquisitions db requests).1 (inTurn acquireOne db requests).1 := by
  let verdicts := requests.map fun request => (request, groupVerdict db request.identity)
  have read : requests.zip (scopeVerdicts db [] ((requests.map fun request => request.identity).zip
      ((requests.map fun request => request.identity).map (plannedOwner db)))) = verdicts := by
    rw [scope_verdicts_planned (fun _ _ listed => by simp at listed), List.map_map]
    exact List.map_prod_left_eq_zip.symm
  generalize known : rowsByExecution db (validExecutions verdicts) = rows
  have first : ∀ request ∈ requests, groupVerdict db request.identity = .ok () →
      recordedFor rows request.identity.executionId = db.apiExecutionPermits.find request.identity.executionId := by
    intro request member verdict
    rw [← known]
    exact recorded_rows (valid_execution (List.mem_map.mpr ⟨request, member, by rw [verdict]⟩))
  have counted : (verdicts.map fun entry => (entry.1, plannedOutcome rows entry.1 entry.2)).countP
      (fun entry => entry.2.isNone) = pendingRequests db rows requests := by
    simp only [verdicts, List.map_map, List.countP_map, pendingRequests]
    rfl
  unfold planAcquisitions
  simp only [read, known, counted]
  cases places : availablePlaces db (pendingRequests db rows requests) with
  | error error =>
      have damaged := available_places_damaged places
      simp only [verdicts, List.map_map]
      exact damaged_limit_in_turn acquisitions first damaged
  | ok available =>
      simp only [verdicts, List.map_map]
      exact grant_in_turn acquisitions
        ⟨PermitsOnly.refl db, fun _ _ stored => stored, first, first, available_places_start places⟩

end Acquire

section Release

structure ReleasesFrom (db current : Database) (existing : List ApiExecutionPermit) (requests : List PermitRequest) :
    Prop where
  only : PermitsOnly db current
  now : ∀ request ∈ requests, plannedRelease db request.identity = .ok () →
    recordedFor existing request.identity.executionId = current.apiExecutionPermits.find request.identity.executionId

theorem ReleasesFrom.tail (state : ReleasesFrom db current existing (request :: requests)) :
    ReleasesFrom db current existing requests :=
  ⟨state.only, fun other member => state.now other (List.mem_cons_of_mem _ member)⟩

theorem require_recorded_execution {recorded : ApiExecutionPermit} {found : Option ApiExecutionPermit}
    (read : requireRecorded found identity = .ok recorded) : found = some recorded ∧ recorded.identity = identity := by
  simp only [requireRecorded, permitFromRow, Lib.bind_ok, Lib.orRaise_ok, Lib.require_ok, Lib.pure_ok, beq_iff_eq]
    at read
  obtain ⟨_, rfl, _, ⟨_, _, rfl⟩, _, same, rfl⟩ := read
  exact ⟨rfl, same⟩

theorem ReleasesFrom.released {recorded : ApiExecutionPermit}
    (state : ReleasesFrom db current existing (request :: requests)) (holder : recorded.identity = request.identity)
    (removed : removePermit current recorded = .ok next) :
    ReleasesFrom db next (existing.filter fun row => row.executionId != request.identity.executionId) requests := by
  obtain ⟨permits, rfl, keyed⟩ := remove_permit_writes removed
  refine ⟨state.only.trans rfl, fun other member valid => ?_⟩
  have there := state.now other (List.mem_cons_of_mem _ member) valid
  have execution : recorded.executionId = request.identity.executionId := by rw [← holder]; rfl
  rw [keyed, execution, recordedFor, List.find?_filter]
  by_cases same : other.identity.executionId = request.identity.executionId
  · rw [if_pos same, List.find?_eq_none]
    intro row _
    simp [same]
  · rw [if_neg same, ← there, recordedFor]
    congr 1
    funext row
    by_cases here : row.executionId = other.identity.executionId
    · simp [here, same]
    · simp [here]

theorem release_settled (only : PermitsOnly db current) (valid : plannedRelease db request.identity = .ok ()) :
    releaseOne current request = withdrawPermit current request.identity := by
  simp only [plannedRelease, Lib.bind_ok, Lib.pure_ok] at valid
  obtain ⟨_, identified, owner, owned, _⟩ := valid
  simp only [releaseOne, releaseApiExecutionPermit, identified, only.owner false, owned, bind, Except.bind]

theorem release_refused {error : Error} (only : PermitsOnly db current)
    (refused : plannedRelease db request.identity = .error error) : releaseOne current request = .error error := by
  unfold plannedRelease at refused
  simp only [releaseOne, releaseApiExecutionPermit]
  cases valid : validateIdentity request.identity with
  | error invalid =>
      simp only [valid, bind, Except.bind, Except.error.injEq] at refused ⊢
      exact refused
  | ok _ =>
      cases owned : requireOwner db request.identity false with
      | error other =>
          simp only [valid, only.owner false, owned, bind, Except.bind, Except.error.injEq] at refused ⊢
          exact refused
      | ok owner => simp [valid, owned, bind, Except.bind, pure, Except.pure] at refused

theorem release_in_turn (state : ReleasesFrom db current existing requests) :
    releaseRecorded current existing (requests.map fun request => (request, plannedRelease db request.identity)) =
      inTurn releaseOne current requests := by
  induction requests generalizing current existing with
  | nil => rfl
  | cons request rest ih =>
      have same := ih state.tail
      simp only [List.map_cons, inTurn]
      cases valid : plannedRelease db request.identity with
      | error error =>
          have failed := release_refused state.only valid
          simp only [releaseRecorded, Lib.attempt_error failed, same]
      | ok _ =>
          have settled := release_settled state.only valid
          have now := state.now request List.mem_cons_self valid
          simp only [releaseRecorded, now]
          cases read : requireRecorded (current.apiExecutionPermits.find request.identity.executionId)
              request.identity with
          | error error =>
              have failed : releaseOne current request = .error error := by
                simp only [settled, withdrawPermit, permitRow, read, bind, Except.bind]
              simp only [Lib.attempt_error failed, same]
          | ok recorded =>
              cases removed : removePermit current recorded with
              | error error =>
                  have failed : releaseOne current request = .error error := by
                    simp only [settled, withdrawPermit, permitRow, read, removed, bind, Except.bind]
                  simp only [removed, Lib.attempt_error failed, same]
              | ok after =>
                  have done : releaseOne current request = .ok (true, after) := by
                    simp only [settled, withdrawPermit, permitRow, read, removed, bind, Except.bind, pure, Except.pure]
                  have holder := (require_recorded_execution read).2
                  simp only [removed, Lib.attempt_ok done, ih (state.released holder removed)]

theorem plan_releases_in_turn : planReleases db requests = inTurn releaseOne db requests := by
  refine release_in_turn ⟨PermitsOnly.refl db, fun request member valid => ?_⟩
  exact recorded_rows (valid_execution (List.mem_map.mpr ⟨request, member, by rw [valid]⟩))

end Release

section Runs

theorem apply_one_only (request : PermitRequest) {granted : Bool} (done : applyOne db request = .ok (granted, next)) :
    PermitsOnly db next := by
  unfold applyOne at done
  split at done
  · simp only [acquireOne, tryAcquireApiExecutionPermit, Lib.bind_ok] at done
    obtain ⟨_, _, _, _, decided⟩ := done
    unfold admitPermit at decided
    split at decided
    · simp only [Lib.bind_ok, Lib.pure_ok, Prod.mk.injEq] at decided
      obtain ⟨_, _, _, rfl⟩ := decided
      exact PermitsOnly.refl db
    · simp only [Lib.bind_ok] at decided
      obtain ⟨full, _, decided⟩ := decided
      split at decided
      · obtain rfl := (Prod.mk.inj (Except.ok.inj decided)).2
        exact PermitsOnly.refl db
      · simp only [Lib.bind_ok, Lib.pure_ok, Prod.exists, Prod.mk.injEq] at decided
        obtain ⟨_, _, inserted, _, rfl⟩ := decided
        exact insert_permit_only inserted
  · simp only [releaseOne, releaseApiExecutionPermit, withdrawPermit, Lib.bind_ok, Lib.pure_ok, Prod.mk.injEq] at done
    obtain ⟨_, _, _, _, _, _, _, removed, _, rfl⟩ := done
    exact remove_permit_only removed

theorem apply_in_turn_only (requests : List PermitRequest) : PermitsOnly db (applyInTurn db requests).2 := by
  refine Lib.in_turn_invariant (motive := PermitsOnly db) (PermitsOnly.refl db) ?_
  intro current next granted request _ only done
  exact only.trans (apply_one_only request done)

theorem apply_run_in_turn (db : Database) {action : PermitAction} (run : ∀ request ∈ requests, request.action = action) :
    (applyRun db requests).2 = (applyInTurn db requests).2 ∧
      SameAnswers db requests (applyRun db requests).1 (applyInTurn db requests).1 := by
  cases requests with
  | nil => exact ⟨rfl, .nil⟩
  | cons request rest =>
      simp only [applyRun, run request List.mem_cons_self]
      cases action with
      | acquire =>
          have individual : applyInTurn db (request :: rest) = inTurn acquireOne db (request :: rest) :=
            Lib.in_turn_congr fun current other member => by rw [applyOne, run other member]
          rw [individual]
          simp only [applyAcquisitions]
          split
          · exact ⟨rfl, SameAnswers.refl _ Lib.in_turn_length⟩
          · exact plan_acquisitions_in_turn run
      | release =>
          have individual : applyInTurn db (request :: rest) = inTurn releaseOne db (request :: rest) :=
            Lib.in_turn_congr fun current other member => by rw [applyOne, run other member]
          have grouped : applyReleases db (request :: rest) = inTurn releaseOne db (request :: rest) := by
            unfold applyReleases
            split
            · rfl
            · exact plan_releases_in_turn
          rw [individual]
          simp only [grouped]
          exact ⟨trivial, SameAnswers.refl _ Lib.in_turn_length⟩

theorem apply_runs_in_turn (db : Database) (runs : List (List PermitRequest))
    (homogeneous : ∀ run ∈ runs, ∃ action : PermitAction, ∀ request ∈ run, request.action = action) :
    (applyRuns db runs).2 = (applyInTurn db runs.flatten).2 ∧
      SameAnswers db runs.flatten (applyRuns db runs).1 (applyInTurn db runs.flatten).1 := by
  induction runs generalizing db with
  | nil => exact ⟨rfl, .nil⟩
  | cons run rest ih =>
      obtain ⟨action, uniform⟩ := homogeneous run List.mem_cons_self
      obtain ⟨same, answers⟩ := apply_run_in_turn db uniform
      obtain ⟨ends, later⟩ := ih (applyInTurn db run).2
        fun other member => homogeneous other (List.mem_cons_of_mem _ member)
      have split : inTurn applyOne db (run ++ rest.flatten) = _ := Lib.in_turn_append run rest.flatten
      simp only [applyRuns, List.flatten_cons, same, applyInTurn] at ends later ⊢
      rw [split]
      exact ⟨ends, answers.append (later.later (apply_in_turn_only run))⟩

theorem split_runs_uniform {run : List PermitRequest}
    (member : run ∈ requests.splitBy fun left right => left.action == right.action) :
    ∃ action : PermitAction, ∀ request ∈ run, request.action = action := by
  have chain := List.isChain_of_mem_splitBy member
  clear member
  induction run with
  | nil => exact ⟨.acquire, fun _ absent => absurd absent (by simp)⟩
  | cons first rest ih =>
      obtain ⟨action, uniform⟩ := ih chain.tail
      cases rest with
      | nil => exact ⟨first.action, fun request listed => by rw [List.mem_singleton.mp listed]⟩
      | cons second later =>
          have same : first.action = second.action := by simpa using chain.rel
          refine ⟨action, fun request listed => ?_⟩
          rcases List.mem_cons.mp listed with rfl | inside
          · exact same.trans (uniform second List.mem_cons_self)
          · exact uniform request inside

end Runs

section Refinement

def heldPermits (db : Database) : Nat := db.apiExecutionPermits.rows.length

structure RefinesInTurn (db : Database) (requests : List PermitRequest) : Prop where
  rows : (applyApiExecutionPermitMutations db requests).2 = (applyInTurn db requests).2
  answers : SameAnswers db requests (applyApiExecutionPermitMutations db requests).1 (applyInTurn db requests).1
  granted : ∀ limit, db.apiThreadLimit = some limit → ∀ earlier request later, requests = earlier ++ request :: later →
    request.action = .acquire →
      (applyApiExecutionPermitMutations db (earlier ++ [request])).2 = (applyApiExecutionPermitMutations db earlier).2 ∨
        heldPermits (applyApiExecutionPermitMutations db (earlier ++ [request])).2 ≤ limit
  bounded : ∀ limit, db.apiThreadLimit = some limit →
    heldPermits (applyApiExecutionPermitMutations db requests).2 ≤ max limit (heldPermits db)

theorem admit_permit_within {acquiredAt : Timestamp} {granted : Bool} {limit : Nat}
    (limited : db.apiThreadLimit = some limit) (admitted : admitPermit db identity acquiredAt = .ok (granted, next)) :
    next = db ∨ heldPermits next ≤ limit := by
  unfold admitPermit at admitted
  split at admitted
  · simp only [Lib.bind_ok, Lib.pure_ok, Prod.mk.injEq] at admitted
    obtain ⟨_, _, _, rfl⟩ := admitted
    exact .inl rfl
  · simp only [Lib.bind_ok] at admitted
    obtain ⟨full, counted, admitted⟩ := admitted
    split at admitted
    · exact .inl (Prod.mk.inj (Except.ok.inj admitted)).2.symm
    · rename_i unfull
      simp only [capacityFull, limited, Lib.bind_ok, Lib.pure_ok] at counted
      obtain ⟨_, _, rfl⟩ := counted
      simp only [Lib.bind_ok, Lib.pure_ok, Prod.exists, Prod.mk.injEq] at admitted
      obtain ⟨_, _, inserted, _, rfl⟩ := admitted
      obtain ⟨_, _, permits, added, rfl⟩ := insert_permit_writes inserted
      have below : ¬ limit ≤ db.apiExecutionPermits.rows.length := by simpa using unfull
      refine .inr ?_
      simp only [heldPermits, (Table.insert_eq_some.mp added).2, List.length_append, List.length_singleton]
      omega

theorem apply_one_within {granted : Bool} {limit : Nat} (limited : db.apiThreadLimit = some limit)
    (action : request.action = .acquire) (done : applyOne db request = .ok (granted, next)) :
    next = db ∨ heldPermits next ≤ limit := by
  simp only [applyOne, action, acquireOne, tryAcquireApiExecutionPermit, Lib.bind_ok] at done
  obtain ⟨_, _, _, _, admitted⟩ := done
  exact admit_permit_within limited admitted

theorem release_one_shrinks {granted : Bool} (action : request.action = .release)
    (done : applyOne db request = .ok (granted, next)) : heldPermits next ≤ heldPermits db := by
  simp only [applyOne, action, releaseOne, releaseApiExecutionPermit, withdrawPermit, removePermit, Lib.bind_ok,
    Lib.pure_ok, Prod.mk.injEq] at done
  obtain ⟨_, _, _, _, _, _, _, ⟨permits, removed, rfl⟩, _, rfl⟩ := done
  unfold Table.removeOne at removed
  split at removed
  · obtain rfl := Except.ok.inj removed
    exact List.length_filter_le _ _
  · exact absurd removed (by simp)

theorem apply_in_turn_bounded {limit : Nat} (limited : db.apiThreadLimit = some limit) (requests : List PermitRequest) :
    heldPermits (applyInTurn db requests).2 ≤ max limit (heldPermits db) := by
  have kept : PermitsOnly db (applyInTurn db requests).2 ∧
      heldPermits (applyInTurn db requests).2 ≤ max limit (heldPermits db) := by
    refine Lib.in_turn_invariant (motive := fun current => PermitsOnly db current ∧
      heldPermits current ≤ max limit (heldPermits db)) ⟨PermitsOnly.refl db, le_max_right _ _⟩ ?_
    rintro current next granted request _ ⟨only, bound⟩ done
    refine ⟨only.trans (apply_one_only request done), ?_⟩
    cases action : request.action with
    | acquire =>
        rcases apply_one_within (only.limit.trans limited) action done with rfl | within
        · exact bound
        · exact within.trans (le_max_left _ _)
    | release => exact (release_one_shrinks action done).trans bound
  exact kept.2

theorem grouped_rows (requests : List PermitRequest) :
    (applyApiExecutionPermitMutations db requests).2 = (applyInTurn db requests).2 ∧
      SameAnswers db requests (applyApiExecutionPermitMutations db requests).1 (applyInTurn db requests).1 := by
  have runs := apply_runs_in_turn db (requests.splitBy fun left right => left.action == right.action)
    fun run member => split_runs_uniform member
  rw [List.flatten_splitBy] at runs
  exact runs

theorem grouped_permits_refine_individual (db : Database) (requests : List PermitRequest) :
    RefinesInTurn db requests := by
  obtain ⟨rows, answers⟩ : _ ∧ SameAnswers db requests _ _ := grouped_rows requests
  refine ⟨rows, answers, ?_, fun limit limited => ?_⟩
  · intro limit limited earlier request later _ action
    rw [(grouped_rows earlier).1, (grouped_rows (earlier ++ [request])).1]
    have last : (applyInTurn db (earlier ++ [request])).2 =
        (attempt applyOne (applyInTurn db earlier).2 request).2 := by
      rw [applyInTurn, Lib.in_turn_append]
      rfl
    have only : PermitsOnly db (applyInTurn db earlier).2 := apply_in_turn_only earlier
    rw [last]
    cases done : applyOne (applyInTurn db earlier).2 request with
    | error error =>
        rw [Lib.attempt_error done]
        exact .inl rfl
    | ok answer =>
        obtain ⟨granted, next⟩ := answer
        rw [Lib.attempt_ok done]
        exact apply_one_within (only.limit.trans limited) action done
  · rw [rows]
    exact apply_in_turn_bounded limited requests

def restartedProject : Database := { oneNodeProject with
  jobs := ⟨[⟨"a", 1, .running, [], 1, some "000000000000000000000000000000e2", some 1, some 1, some 2, none, none, none,
    none⟩], by decide⟩
  jobInstances := ⟨[⟨"a", 1, "00000000000000000000000000000001", some "000000000000000000000000000000e2", none⟩],
    by decide⟩
  jobExecutionOwners := ⟨[
    ⟨"000000000000000000000000000000e1", "a", 1, "00000000000000000000000000000001", 0, "s", ["a"], 1, 0, none⟩,
    ⟨"000000000000000000000000000000e2", "a", 1, "00000000000000000000000000000001", 1, "s", ["a"], 1, 0, none⟩],
    by decide⟩
  nodes := oneNodeRows }

def lateAcquisition : PermitRequest := ⟨⟨.acquire, ⟨"s", "a", 1, 0, "000000000000000000000000000000e1"⟩⟩, 3⟩

theorem late_acquisitions_other_error :
    (applyApiExecutionPermitMutations restartedProject [lateAcquisition, lateAcquisition]).1 =
        [.error immutableOwnerMismatch, .error immutableOwnerMismatch] ∧
      (applyInTurn restartedProject [lateAcquisition, lateAcquisition]).1 =
        [.error exactOwnerRequired, .error exactOwnerRequired] ∧
      ¬ ∀ db requests, applyApiExecutionPermitMutations db requests = applyInTurn db requests := by
  have grouped : (applyApiExecutionPermitMutations restartedProject [lateAcquisition, lateAcquisition]).1 =
      [.error immutableOwnerMismatch, .error immutableOwnerMismatch] := by decide +kernel
  have individual : (applyInTurn restartedProject [lateAcquisition, lateAcquisition]).1 =
      [.error exactOwnerRequired, .error exactOwnerRequired] := by decide +kernel
  refine ⟨grouped, individual, fun same => ?_⟩
  have equal := congrArg Prod.fst (same restartedProject [lateAcquisition, lateAcquisition])
  rw [grouped, individual] at equal
  exact absurd equal (by decide)

end Refinement

end MicroWorkflow
