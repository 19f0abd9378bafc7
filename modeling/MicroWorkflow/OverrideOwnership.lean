import MicroWorkflow.Lib.Machine
import MicroWorkflow.OverrideAdmissions

set_option autoImplicit false

namespace MicroWorkflow

open Lib (Run Table)

inductive OverrideOperation where
  | set (probe : Probe) (node : String) (value : Nat) (expected : ThreadOverrideObservation)
  | clear (probe : Probe) (node : String) (expected : ThreadOverrideObservation)
  | limit (value : Int) (relative : Bool)
  | clearLimit
  | create (probe : Probe) (request : SessionRequest)
  | reserve (probe : Probe) (sessionId : String) (shape : Shape)
  | interrupt (probe : Probe) (request : InterruptRequest)
  | heartbeat (sessionId : String) (heartbeatAt : Timestamp)
  | exit (probe : Probe) (coverage : SampleCoverage) (sessionId : String) (request : ExitRequest)
  | recover (probe : Probe) (coverage : SampleCoverage) (sessionId : String) (settlement : SessionSettlement)
  | finish (sessionId outcome : String) (finishedAt : Timestamp) (failures : List String)
  | release (sessionId : String)

def OverrideOperation.apply (db : Database) : OverrideOperation → Result Database
  | set probe node value expected => setThreadOverride db probe node value expected
  | clear probe node expected => (clearThreadOverride db probe node expected).map Prod.snd
  | limit value relative => updateApiTotalLimit db value relative
  | clearLimit => .ok (clearApiTotalLimit db).2
  | create probe request => (createExecutionSession db probe request).map Prod.snd
  | reserve probe sessionId shape => (reserveExecutionComponents db probe sessionId shape).map Prod.snd
  | interrupt probe request => (admitInterruptExecution db probe request).map Prod.snd
  | heartbeat sessionId heartbeatAt => (heartbeatExecutionSession db sessionId heartbeatAt).map Prod.snd
  | exit probe coverage sessionId request => (decideExecutionSessionExit db probe coverage sessionId request).map Prod.snd
  | recover probe coverage sessionId settlement =>
      (settleExecutionSession db probe coverage sessionId settlement).map Prod.snd
  | finish sessionId outcome finishedAt failures =>
      (finishExecutionSession db sessionId outcome finishedAt failures).map Prod.snd
  | release sessionId => (releaseExecutionComponents db sessionId).map Prod.snd

def OverrideOperation.setsLimits : OverrideOperation → Bool
  | set .. | clear .. | limit .. | clearLimit => true
  | _ => false

-- Every other writer of the store leaves the limits and the lives of sessions alone.
inductive OverrideStep : Database → Option OverrideOperation → Database → Prop where
  | applied {db next : Database} {operation : OverrideOperation} : operation.apply db = .ok next →
      OverrideStep db (some operation) next
  | elsewhere {db next : Database} : OverridesStill db next → OverrideStep db none next

-- A limit is set only while whoever reserves its node is live, and no session that still owns one is
-- finished without its settlement.
def OwnershipMet (db : Database) : Option OverrideOperation → Prop
  | some (.set probe node _ _) => ∀ owner, reservedFor db node owner → sessionLive db probe owner = true
  | some (.finish sessionId _ _ _) => (∀ node, ownedValue db node sessionId = none) ∧
      (db.apiThreadLimit = none ∨ ∃ owner, owner ≠ sessionId ∧ sessionRunning db owner = true)
  | _ => True

def MetStep (db : Database) (operation : Option OverrideOperation) (next : Database) : Prop :=
  OverrideStep db operation next ∧ OwnershipMet db operation

structure OverridesHeld (db : Database) : Prop where
  bound : ∀ node value, pendingValue db node = some value → 1 ≤ value ∧ ∀ owner, ¬ reservedFor db node owner
  owners : ∀ node owner value, ownedValue db node owner = some value → 1 ≤ value ∧ sessionRunning db owner = true

variable {db next : Database} {probe : Probe} {sessionId node : String}

section Moves

theorem OverridesHeld.moved (held : OverridesHeld db) (move : OverrideMove db next) : OverridesHeld next := by
  constructor
  · intro node value waiting
    obtain ⟨positive, free⟩ := held.bound node value (move.pending node value waiting)
    refine ⟨positive, fun owner reserved => ?_⟩
    cases move.reserved node owner reserved with
    | inl earlier =>
        obtain ⟨before, was⟩ := earlier
        exact free before was
    | inr unbound => simp [waiting] at unbound
  · intro node owner value has
    cases move.owned node owner value has with
    | inl same =>
        obtain ⟨positive, running⟩ := held.owners node owner value same
        cases move.running owner running with
        | inl still => exact ⟨positive, still⟩
        | inr gone => simp [gone node] at has
    | inr came =>
        obtain ⟨running, _, from_⟩ := came
        cases from_ with
        | inl waiting => exact ⟨(held.bound node value waiting).1, running⟩
        | inr taken =>
            obtain ⟨source, _, had⟩ := taken
            exact ⟨(held.owners node source value had).1, running⟩

theorem ScopeKept.move (kept : ScopeKept db next) : OverrideMove db next := by
  have pendings : ∀ node, pendingValue next node = pendingValue db node := by
    intro node
    rw [pendingValue, kept.pending]
    rfl
  have owneds : ∀ node owner, ownedValue next node owner = ownedValue db node owner := by
    intro node owner
    rw [ownedValue, kept.owned]
    rfl
  have still := running_of_same kept.sessions
  constructor
  · intro node value waiting
    rwa [pendings] at waiting
  · intro node value waiting
    left
    rwa [pendings]
  · intro node owner value has
    left
    rwa [owneds] at has
  · intro node owner value has
    left
    rwa [owneds]
  · intro owner running
    left
    rwa [still]
  · intro node owner reserved
    exact .inl (kept.reserved node owner reserved)
  · intro before after
    obtain ⟨owner, was⟩ := any_running_iff.mp before
    have now := any_running_iff.mpr ⟨owner, by rw [still]; exact was⟩
    exact absurd now (by simp [after])

theorem release_move {count : Nat} (released : releaseExecutionComponents db sessionId = .ok (count, next)) :
    OverrideMove db next := by
  simp only [releaseExecutionComponents, Lib.bind_ok, Lib.pure_ok, Prod.mk.injEq] at released
  obtain ⟨_, _, _, rfl⟩ := released
  apply ScopeKept.move
  refine ⟨rfl, rfl, rfl, rfl, fun node owner held => ?_⟩
  obtain ⟨row, present, inside, _⟩ := held
  exact ⟨row.sessionId, row, (Table.mem_delete.mp present).1, inside, rfl⟩

theorem heartbeat_move {heartbeatAt : Timestamp} {recorded : Bool}
    (beat : heartbeatExecutionSession db sessionId heartbeatAt = .ok (recorded, next)) : OverrideMove db next := by
  simp only [heartbeatExecutionSession, Lib.bind_ok, Lib.pure_ok, Prod.mk.injEq] at beat
  obtain ⟨_, _, _, rfl⟩ := beat
  apply OverrideFrame.move
  refine ⟨rfl, rfl, rfl, rfl, fun owner running => ?_⟩
  simp only [sessionRunning, Table.find_modify] at running ⊢
  cases found : db.executionSessions.find owner with
  | none => simp [found] at running
  | some row =>
      simp only [found] at running
      by_cases chosen : row.sessionId = sessionId ∧ row.status = .running
      · simp [chosen]
      · simpa [chosen] using running

theorem finish_ended {outcome : String} {finishedAt : Timestamp} {failures : List String}
    (finished : finishExecutionSession db sessionId outcome finishedAt failures = .ok (true, next))
    (unowned : ∀ node, ownedValue db node sessionId = none)
    (shared : db.apiThreadLimit = none ∨ ∃ owner, owner ≠ sessionId ∧ sessionRunning db owner = true) :
    SessionEnded db next sessionId := by
  simp only [finishExecutionSession, Lib.bind_ok] at finished
  obtain ⟨_, _, _, _, finished⟩ := finished
  split at finished
  · simp only [Lib.bind_ok, Lib.pure_ok, Prod.mk.injEq] at finished
    obtain ⟨_, _, _, _, _, rfl⟩ := finished
    have others : ∀ owner, owner ≠ sessionId → sessionRunning { db with
        executionSessions := db.executionSessions.modify
          (fun row => row.sessionId = sessionId && row.status = .running) fun row => { row with
            status := .terminal
            outcome := some outcome
            finishedAt := some finishedAt
            failures := failures } } owner = sessionRunning db owner := by
      intro owner other
      simp only [sessionRunning, Table.find_modify]
      cases found : db.executionSessions.find owner with
      | none => rfl
      | some row =>
          have apart : ¬ row.sessionId = sessionId := fun same => other ((Table.find_key found).symm.trans same)
          simp [apart]
    constructor
    · intro node
      rfl
    · intro node owner
      by_cases own : owner = sessionId
      · subst own
        rw [if_pos rfl]
        exact unowned node
      · rw [if_neg own]
        rfl
    · simp only [sessionRunning, Table.find_modify]
      cases found : db.executionSessions.find sessionId with
      | none => rfl
      | some row =>
          have own := Table.find_key found
          by_cases runs : row.status = .running <;> simp [own, runs]
    · exact others
    · intro node owner held
      exact ⟨owner, held⟩
    · intro idle
      cases shared with
      | inl none_ => exact none_
      | inr other =>
          obtain ⟨owner, apart, running⟩ := other
          have now := any_running_iff.mpr ⟨owner, by rw [others owner apart]; exact running⟩
          exact absurd now (by simp [idle])
  · simp only [Lib.pure_ok, Prod.mk.injEq] at finished
    exact absurd finished.1 (by simp)

theorem finish_refused {outcome : String} {finishedAt : Timestamp} {failures : List String}
    (finished : finishExecutionSession db sessionId outcome finishedAt failures = .ok (false, next)) : next = db := by
  simp only [finishExecutionSession, Lib.bind_ok] at finished
  obtain ⟨_, _, _, _, finished⟩ := finished
  split at finished
  · simp only [Lib.bind_ok, Lib.pure_ok, Prod.mk.injEq] at finished
    obtain ⟨_, _, _, _, done, _⟩ := finished
    exact absurd done (by simp)
  · simp only [Lib.pure_ok, Prod.mk.injEq] at finished
    exact finished.2.symm

theorem met_step_move {operation : Option OverrideOperation} (step : MetStep db operation next)
    (unsaid : ∀ said, operation = some said → said.setsLimits = false) : OverrideMove db next := by
  obtain ⟨step, met⟩ := step
  cases step with
  | elsewhere still => exact still.frame.move
  | applied done =>
      rename_i operation
      have quiet := unsaid operation rfl
      cases operation with
      | set probe node value expected => exact absurd quiet (by simp [OverrideOperation.setsLimits])
      | clear probe node expected => exact absurd quiet (by simp [OverrideOperation.setsLimits])
      | limit value relative => exact absurd quiet (by simp [OverrideOperation.setsLimits])
      | clearLimit => exact absurd quiet (by simp [OverrideOperation.setsLimits])
      | create probe request =>
          obtain ⟨⟨session, _⟩, created, rfl⟩ := Lib.map_ok.mp done
          exact create_execution_session_move created
      | reserve probe sessionId shape =>
          obtain ⟨⟨fresh, _⟩, reserved, rfl⟩ := Lib.map_ok.mp done
          exact reserve_execution_components_move reserved
      | interrupt probe request =>
          obtain ⟨⟨session, _⟩, admitted, rfl⟩ := Lib.map_ok.mp done
          exact admit_interrupt_move admitted
      | heartbeat sessionId heartbeatAt =>
          obtain ⟨⟨recorded, _⟩, beat, rfl⟩ := Lib.map_ok.mp done
          exact heartbeat_move beat
      | exit probe coverage sessionId request =>
          obtain ⟨⟨decision, _⟩, decided, rfl⟩ := Lib.map_ok.mp done
          exact session_exit_move decided
      | recover probe coverage sessionId settlement =>
          obtain ⟨⟨result, _⟩, settled, rfl⟩ := Lib.map_ok.mp done
          exact (settled_session_ended settled).move
      | finish sessionId outcome finishedAt failures =>
          obtain ⟨⟨ended, after⟩, finished, rfl⟩ := Lib.map_ok.mp done
          cases ended with
          | false =>
              obtain rfl := finish_refused finished
              exact (OverrideFrame.refl after).move
          | true => exact (finish_ended finished met.1 met.2).move
      | release sessionId =>
          obtain ⟨⟨count, _⟩, released, rfl⟩ := Lib.map_ok.mp done
          exact release_move released

end Moves

section Said

theorem observed_owner {allowTerminal : Bool} {observed : ThreadOverrideObservation}
    (read : readThreadOverrideObservation db probe node allowTerminal = .ok observed) :
    match observed.sessionId with
    | some owner => reservedFor db node owner ∧ sessionRunning db owner = true
    | none => (∀ owner, ¬ reservedFor db node owner) ∨
        ∃ owner, reservedFor db node owner ∧ sessionLive db probe owner = false := by
  obtain ⟨reservation, pending, stored, reserved, _, outcome⟩ := observation_parts read
  have holder := reservation_of_node reserved
  cases reservation with
  | none =>
      simp only [resolvedOverride, Lib.pure_ok] at outcome
      subst outcome
      left
      intro owner held
      obtain ⟨row, present, inside, _⟩ := held
      exact holder row present inside
  | some held =>
      obtain ⟨⟨present, inside⟩, living, running⟩ := holder
      have mine : reservedFor db node held.sessionId := ⟨_, present, inside, rfl⟩
      by_cases live : held.live = true
      · simp only [resolvedOverride, if_pos live, Lib.bind_ok, Lib.pure_ok] at outcome
        obtain ⟨_, _, rfl⟩ := outcome
        exact ⟨mine, running⟩
      · simp only [resolvedOverride, if_neg live, Lib.pure_ok] at outcome
        subst outcome
        right
        exact ⟨held.sessionId, mine, by rw [← living]; simpa using live⟩

theorem OverridesHeld.set {value : Nat} {expected : ThreadOverrideObservation} (held : OverridesHeld db)
    (live : ∀ owner, reservedFor db node owner → sessionLive db probe owner = true)
    (set : setThreadOverride db probe node value expected = .ok next) : OverridesHeld next := by
  obtain ⟨positive, current, read, rfl⟩ := set_thread_override_ok set
  have owner := observed_owner read
  have only : OverridesOnly db (storeOverride db node current.sessionId value) := store_only current.sessionId
  have still := running_of_same only.sessions
  have reserved : ∀ other session, reservedFor (storeOverride db node current.sessionId value) other session ↔
      reservedFor db other session := by
    intro other session
    simp only [reservedFor, only.reservations]
  constructor
  · intro other found waiting
    rw [pending_value_store] at waiting
    simp only [reserved]
    by_cases here : current.sessionId = none ∧ other = node
    · rw [if_pos here, Option.some.injEq] at waiting
      obtain ⟨nobody, rfl⟩ := here
      rw [nobody] at owner
      refine ⟨waiting ▸ positive, ?_⟩
      cases owner with
      | inl free => exact free
      | inr dead =>
          obtain ⟨session, mine, concluded⟩ := dead
          exact absurd (live session mine) (by simp [concluded])
    · rw [if_neg here] at waiting
      exact held.bound other found waiting
  · intro other session found has
    rw [owned_value_store] at has
    rw [still]
    by_cases here : current.sessionId = some session ∧ other = node
    · rw [if_pos here, Option.some.injEq] at has
      rw [here.1] at owner
      exact ⟨has ▸ positive, owner.2⟩
    · rw [if_neg here] at has
      exact held.owners other session found has

theorem OverridesHeld.clear {expected : ThreadOverrideObservation} {cleared : Bool} (held : OverridesHeld db)
    (clear : clearThreadOverride db probe node expected = .ok (cleared, next)) : OverridesHeld next := by
  cases clear_thread_override_ok clear with
  | inl same => exact same ▸ held
  | inr gone =>
      obtain ⟨owner, value, removed⟩ := gone
      have only := remove_override_only removed
      have still := running_of_same only.sessions
      constructor
      · intro other found waiting
        rw [pending_value_remove removed] at waiting
        simp only [reservedFor, only.reservations]
        by_cases here : owner = none ∧ other = node
        · simp [here] at waiting
        · rw [if_neg here] at waiting
          exact held.bound other found waiting
      · intro other session found has
        rw [owned_value_remove removed] at has
        rw [still]
        by_cases here : owner = some session ∧ other = node
        · simp [here] at has
        · rw [if_neg here] at has
          exact held.owners other session found has

theorem OverridesHeld.aggregate {limit : Option Nat} (held : OverridesHeld db) :
    OverridesHeld { db with apiThreadLimit := limit } :=
  ⟨held.bound, held.owners⟩

theorem OverridesHeld.step {operation : Option OverrideOperation} (held : OverridesHeld db)
    (step : MetStep db operation next) : OverridesHeld next := by
  by_cases quiet : ∀ said, operation = some said → said.setsLimits = false
  · exact held.moved (met_step_move step quiet)
  · obtain ⟨step, met⟩ := step
    cases step with
    | elsewhere still => exact absurd (fun said named => by simp at named) quiet
    | applied done =>
        rename_i operation
        cases operation with
        | set probe node value expected => exact held.set met done
        | clear probe node expected =>
            obtain ⟨⟨cleared, _⟩, clear, rfl⟩ := Lib.map_ok.mp done
            exact held.clear clear
        | limit value relative =>
            simp only [OverrideOperation.apply, updateApiTotalLimit, Lib.bind_ok, Lib.pure_ok] at done
            obtain ⟨_, _, _, _, _, _, rfl⟩ := done
            exact held.aggregate
        | clearLimit =>
            simp only [OverrideOperation.apply, clearApiTotalLimit, Except.ok.injEq] at done
            subst done
            exact held.aggregate
        | _ =>
            exfalso
            apply quiet
            intro said named
            obtain rfl := Option.some.inj named
            rfl

theorem said_keeps_running {operation : OverrideOperation} (said : operation.setsLimits = true)
    (done : operation.apply db = .ok next) (owner : String) : sessionRunning next owner = sessionRunning db owner := by
  cases operation with
  | set probe node value expected =>
      obtain ⟨_, current, _, rfl⟩ := set_thread_override_ok done
      exact running_of_same (store_only current.sessionId).sessions owner
  | clear probe node expected =>
      obtain ⟨⟨cleared, _⟩, clear, rfl⟩ := Lib.map_ok.mp done
      cases clear_thread_override_ok clear with
      | inl same =>
          dsimp only
          rw [same]
      | inr gone =>
          obtain ⟨_, _, removed⟩ := gone
          exact running_of_same (remove_override_only removed).sessions owner
  | limit value relative =>
      simp only [OverrideOperation.apply, updateApiTotalLimit, Lib.bind_ok, Lib.pure_ok] at done
      obtain ⟨_, _, _, _, _, _, rfl⟩ := done
      rfl
  | clearLimit =>
      simp only [OverrideOperation.apply, clearApiTotalLimit, Except.ok.injEq] at done
      subst done
      rfl
  | _ => exact absurd said (by simp [OverrideOperation.setsLimits])

end Said

section Claim

structure ReadyNode (db : Database) (probe : Probe) (sessionId : String) (component : Component) (node : String)
    (held : NodeReservation) : Prop where
  name : validateNodeName node = .ok ()
  active : readActiveComponentForNode db node = .ok (some component)
  reservation : reservationForNode db probe node = .ok (some held)
  live : held.live = true
  session : held.sessionId = sessionId
  owners : ActiveJobsOf db probe component held
  records : ∀ row ∈ db.nodeThreadOverrides.rows, row.nodeName = node →
    ∃ session live, overrideSession db probe row.sessionId true = .ok (session, live)

theorem running_record_read {session : SessionSnapshot} {live : Bool} (running : sessionRunning db sessionId = true)
    (read : overrideSession db probe sessionId true = .ok (session, live)) :
    overrideSession db probe sessionId false = .ok (session, live) := by
  simp only [overrideSession, Lib.bind_ok, Lib.orRaise_ok, Lib.require_ok, Lib.pure_ok, Bool.or_false] at read ⊢
  obtain ⟨row, found, snapshot, opened, _, valid, _, _, same⟩ := read
  refine ⟨row, found, snapshot, opened, (), valid, (), ?_, same⟩
  simp only [executionSessionFromRowSnapshot, Lib.bind_ok, Lib.pure_ok] at opened
  obtain ⟨_, _, _, _, _, _, _, _, rfl⟩ := opened
  simpa only [sessionRunning, found] using running

theorem stored_overrides_total (free : pendingValue db node = none)
    (each : ∀ row ∈ nodeOverrideRows db node, ∃ entry, storedOverride db probe node row = .ok entry) :
    ∃ stored, storedNodeOverrides db probe node = .ok (none, stored) := by
  obtain ⟨stored, collected⟩ := Lib.collect_total each
  refine ⟨stored, ?_⟩
  have absent : (db.pendingNodeThreadOverrides.find node).map PendingNodeThreadOverride.value = none := free
  simp only [storedNodeOverrides, absent]
  rw [Lib.bind_ok]
  exact ⟨stored, collected, rfl⟩

theorem OverridesHeld.claim {component : Component} (held : OverridesHeld db)
    (ready : ∀ node ∈ component, ∃ reserved, ReadyNode db probe sessionId component node reserved) :
    validateThreadOverrideClaim db probe sessionId component = .ok () := by
  rw [validate_thread_override_claim_ok]
  intro node member
  obtain ⟨reserved, node_⟩ := ready node member
  rw [read_thread_override_iff]
  obtain ⟨⟨present, inside⟩, _, _⟩ := reservation_of_node node_.reservation
  have free : pendingValue db node = none := by
    cases waiting : pendingValue db node with
    | none => rfl
    | some value => exact absurd ⟨_, present, inside, rfl⟩ ((held.bound node value waiting).2 reserved.sessionId)
  refine ⟨some component, reserved, node_.name, node_.active, node_.reservation, node_.live, node_.session, ?_, node_.owners⟩
  apply stored_overrides_total free
  intro row listed
  obtain ⟨there, named⟩ := mem_node_override_rows.mp listed
  have owned : ownedValue db row.nodeName row.sessionId = some row.value := by
    rw [ownedValue, ← NodeThreadOverride.key, Table.find_of_mem there]
    rfl
  obtain ⟨positive, running⟩ := held.owners row.nodeName row.sessionId row.value owned
  obtain ⟨session, live, read⟩ := node_.records row there named
  refine ⟨(row.sessionId, row.value), ?_⟩
  simp only [storedOverride, Lib.bind_ok, Lib.pure_ok, validatePositiveInt, Lib.require_ok, decide_eq_true_eq]
  exact ⟨(), positive, (session, live), running_record_read running read, trivial⟩

end Claim

section Runs

structure LimitsFollowSessions (db : Database) : Prop where
  unbound : ∀ node owner, reservedFor db node owner → pendingValue db node = none
  claims : ∀ probe sessionId component,
    (∀ node ∈ component, ∃ reserved, ReadyNode db probe sessionId component node reserved) →
      validateThreadOverrideClaim db probe sessionId component = .ok ()
  visible : ∀ probe node reader value, readThreadOverrideForSession db probe node (some reader) = .ok (some value) →
    ownedValue db node reader = some value ∧ reservedFor db node reader ∧ sessionRunning db reader = true
  alive : ∀ node owner value, ownedValue db node owner = some value → sessionRunning db owner = true

structure LimitsPassedOn (db : Database) (operation : Option OverrideOperation) (next : Database) : Prop where
  moved : (∀ said, operation = some said → said.setsLimits = false) → OverrideMove db next
  copied : ∀ probe request, operation = some (.interrupt probe request) → ∀ held ∈ db.componentReservations.rows,
    sessionRunning db held.sessionId = true →
      ⟨held.componentKey, request.sessionId⟩ ∈ next.componentReservations.rows →
        ∀ node ∈ held.componentKey, ownedValue next node request.sessionId = ownedValue db node held.sessionId
  ended : anyRunning db = true → anyRunning next = false →
    next.apiThreadLimit = none ∧ ∀ node owner, ownedValue next node owner = none

theorem OverridesHeld.follow (held : OverridesHeld db) : LimitsFollowSessions db := by
  constructor
  · intro node owner reserved
    cases waiting : pendingValue db node with
    | none => rfl
    | some value => exact absurd reserved ((held.bound node value waiting).2 owner)
  · intro probe sessionId component ready
    exact held.claim ready
  · intro probe node reader value read
    obtain ⟨shown, holder, reserved, live, mine⟩ := read_for_session_ok read (by simp)
    obtain ⟨⟨present, inside⟩, _, running⟩ := reservation_of_node reserved
    exact ⟨shown.symm, ⟨_, present, inside, mine⟩, mine ▸ running⟩
  · intro node owner value has
    exact (held.owners node owner value has).2

theorem OverridesHeld.pass_on {operation : Option OverrideOperation} (held : OverridesHeld db)
    (step : MetStep db operation next) : LimitsPassedOn db operation next := by
  have later := held.step step
  constructor
  · exact met_step_move step
  · intro probe request named reservation present running now node inside
    cases step.1 with
    | elsewhere still => exact absurd named (by simp)
    | applied done =>
        obtain rfl := Option.some.inj named
        obtain ⟨⟨session, _⟩, admitted, rfl⟩ := Lib.map_ok.mp done
        exact interrupt_copies_limits admitted present running now inside
  · intro before after
    constructor
    · by_cases quiet : ∀ said, operation = some said → said.setsLimits = false
      · exact (met_step_move step quiet).limit before after
      · obtain ⟨owner, running⟩ := any_running_iff.mp before
        cases step.1 with
        | elsewhere still => exact absurd (fun said named => by simp at named) quiet
        | applied done =>
            rename_i operation
            have said : operation.setsLimits = true := by
              by_contra unsaid
              apply quiet
              intro said named
              obtain rfl := Option.some.inj named
              simpa using unsaid
            have still := any_running_iff.mpr ⟨owner, by rw [said_keeps_running said done]; exact running⟩
            exact absurd still (by simp [after])
    · intro node owner
      cases has : ownedValue next node owner with
      | none => rfl
      | some value =>
          have running := (later.owners node owner value has).2
          exact absurd (any_running_iff.mpr ⟨owner, running⟩) (by simp [after])

theorem overrides_held_initially (unset : db.pendingNodeThreadOverrides.rows = []) (unowned : db.nodeThreadOverrides.rows = []) :
    OverridesHeld db := by
  constructor
  · intro node value waiting
    simp [pendingValue, Table.find, unset] at waiting
  · intro node owner value has
    simp [ownedValue, Table.find, unowned] at has

-- Along every run that meets the condition, limits follow the reservations of live sessions.
theorem limits_follow_live_sessions {first : Database} {operations : List (Option OverrideOperation)}
    (unset : first.pendingNodeThreadOverrides.rows = []) (unowned : first.nodeThreadOverrides.rows = [])
    (run : Run MetStep first operations db) :
    LimitsFollowSessions db ∧ ∀ operation next, MetStep db operation next → LimitsPassedOn db operation next := by
  have held : OverridesHeld db := run.invariant (overrides_held_initially unset unowned) fun before step => before.step step
  exact ⟨held.follow, fun operation next step => held.pass_on step⟩

def limitInForce : Database :=
  Lib.valueOr ((OverrideOperation.set oneNodeProbe "a" 4 ⟨"a", none, some "s"⟩).apply oneNodeProject) oneNodeProject

def interruptOfA : InterruptRequest where
  sessionId := "c"
  command := "interrupt"
  startComponent := ["a"]
  selectedComponents := [["a"]]
  selectedJobs := []
  startedAt := 0
  hostname := "host"
  pid := 2
  processIdentity := none
  details := []
  expectedShape := oneNodeShape
  reservedSample := none
  directPredecessors := []
  readinessOverridden := false

def deadInterruptProbe : Probe := ⟨"host", 0, fun pid => pid == 1, fun _ => none⟩

def interruptTakesA : OverrideOperation := .interrupt oneNodeProbe interruptOfA

def interruptRecovered : OverrideOperation :=
  .recover deadInterruptProbe (fun _ _ _ _ => .ok false) "c" ⟨"failed", 1, [], [], []⟩

def limitCopied : Database := Lib.valueOr (interruptTakesA.apply limitInForce) limitInForce

def limitReturned : Database := Lib.valueOr (interruptRecovered.apply limitCopied) limitCopied

-- An interrupt copies the limit of the component it takes; once it is recovered, the session that has the
-- component back still has its limit and the interrupt has none.
theorem limit_set_under_live_session :
    ownedValue limitCopied "a" "c" = ownedValue limitInForce "a" "s" ∧ ownedValue limitInForce "a" "s" = some 4 ∧
      reservedFor limitReturned "a" "s" ∧ ownedValue limitReturned "a" "s" = some 4 ∧
      ownedValue limitReturned "a" "c" = none ∧ LimitsFollowSessions limitReturned := by
  have reserved : ∀ owner, reservedFor oneNodeProject "a" owner → sessionLive oneNodeProject oneNodeProbe owner = true := by
    intro owner held
    obtain ⟨row, present, _, rfl⟩ := held
    obtain rfl := List.mem_singleton.mp present
    decide
  have set : MetStep oneNodeProject (some (.set oneNodeProbe "a" 4 ⟨"a", none, some "s"⟩)) limitInForce :=
    ⟨.applied (Lib.ok_valueOr (by decide +kernel)), reserved⟩
  have copied : MetStep limitInForce (some interruptTakesA) limitCopied :=
    ⟨.applied (Lib.ok_valueOr (by decide +kernel)), trivial⟩
  have returned : MetStep limitCopied (some interruptRecovered) limitReturned :=
    ⟨.applied (Lib.ok_valueOr (by decide +kernel)), trivial⟩
  have passed := (limits_follow_live_sessions rfl rfl ((Run.nil _).snoc set)).2 _ _ copied
  have follow := (limits_follow_live_sessions rfl rfl ((((Run.nil _).snoc set).snoc copied).snoc returned)).1
  refine ⟨?_, by decide +kernel, ⟨⟨["a"], "s"⟩, by decide +kernel, by decide, rfl⟩, by decide +kernel, by decide +kernel, follow⟩
  exact passed.copied _ _ rfl ⟨["a"], "s"⟩ (by decide +kernel) (by decide +kernel) (by decide +kernel) "a" (by decide)

def limitForA : OverrideOperation := .set deadInterruptProbe "a" 4 ⟨"a", none, none⟩

def takenProject : Database := Lib.valueOr (interruptTakesA.apply oneNodeProject) oneNodeProject

def limitedProject : Database := Lib.valueOr (limitForA.apply takenProject) takenProject

def returnedProject : Database := Lib.valueOr (interruptRecovered.apply limitedProject) limitedProject

-- The returned component has a limit that nobody bound: every claim of it is refused.
theorem limit_set_under_dead_interrupt :
    Run OverrideStep oneNodeProject [some interruptTakesA, some limitForA, some interruptRecovered] returnedProject ∧
      reservedFor returnedProject "a" "s" ∧ sessionLive returnedProject deadInterruptProbe "s" = true ∧
      pendingValue returnedProject "a" = some 4 ∧
      validateThreadOverrideClaim returnedProject deadInterruptProbe "s" ["a"] =
        .error (.runtime "Pending thread override was not bound to owner s: a") := by
  have taken : OverrideStep oneNodeProject (some interruptTakesA) takenProject :=
    .applied (Lib.ok_valueOr (by decide +kernel))
  have limited : OverrideStep takenProject (some limitForA) limitedProject :=
    .applied (Lib.ok_valueOr (by decide +kernel))
  have returned : OverrideStep limitedProject (some interruptRecovered) returnedProject :=
    .applied (Lib.ok_valueOr (by decide +kernel))
  have run := ((Run.nil oneNodeProject).snoc taken |>.snoc limited).snoc returned
  refine ⟨run, ⟨⟨["a"], "s"⟩, ?_, ?_, rfl⟩, ?_, ?_, ?_⟩
  all_goals decide +kernel

end Runs

end MicroWorkflow
