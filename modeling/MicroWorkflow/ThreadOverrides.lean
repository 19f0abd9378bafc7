import MicroWorkflow.Ownership

set_option autoImplicit false

namespace MicroWorkflow

open Lib (require refuse orRaise each collect)

structure ThreadOverrideObservation where
  node : String
  value : Option Nat
  sessionId : Option String
deriving DecidableEq, Repr

def validatePositiveInt (name : String) (value : Nat) : Result Unit :=
  require (1 ≤ value) (.value (name ++ " must be an integer >= 1"))

-- A session the overrides rely on, with its liveness; reads within one observation see one database, so the
-- per-call cache of the source is left out.
def overrideSession (db : Database) (probe : Probe) (sessionId : String) (allowTerminal : Bool) :
    Result (SessionSnapshot × Bool) := do
  let row ← orRaise (db.executionSessions.find sessionId)
    (.runtime ("Thread ownership names a missing session: " ++ sessionId))
  let session ← executionSessionFromRowSnapshot db row
  validateExecutionSessionSnapshot session
  require (session.row.status == .running || allowTerminal)
    (.runtime ("Thread ownership names a terminal session: " ++ sessionId))
  return (session, (executionSessionLiveness probe row).live)

def damagedThreadOwnership (row : Job) : Error :=
  .runtime ("Damaged active thread ownership for " ++ address row.nodeName row.jobId)

def activeJobSession (db : Database) (probe : Probe) (component : Component) (allowTerminal : Bool) (row : Job) :
    Result (Option String) := do
  require (row.status == .running && row.activeExecutionId.isSome && row.activeStartedAt.isSome
      && (match row.activePid with | some pid => 1 ≤ pid | none => false)
      && (match row.activeThreadId with | some threadId => 1 ≤ threadId | none => false))
    (damagedThreadOwnership row)
  let observed ← jobOwnerObservationFromRow db row
  let owner ← orRaise observed.owner (damagedThreadOwnership row)
  require (observed.activeExecutionId == row.activeExecutionId && owner.componentKey == component)
    (damagedThreadOwnership row)
  let (session, _) ← overrideSession db probe owner.sessionId allowTerminal
  return if session.row.status == .running then some owner.sessionId else none

def activeJobSessions (db : Database) (probe : Probe) (component : Component) (allowTerminal : Bool) :
    Result (List String) := do
  let owners ← collect (activeJobSession db probe component allowTerminal) (component.flatMap (activeJobRows db))
  return sortedNames (owners.filterMap id)
where
  sortedNames (names : List String) : List String := names.dedup.insertionSort (· ≤ ·)

structure NodeReservation where
  component : Component
  sessionId : String
  live : Bool
deriving DecidableEq, Repr

def reservationForNode (db : Database) (probe : Probe) (node : String) : Result (Option NodeReservation) := do
  let rows := db.componentReservations.rows.insertionSort fun left right => left.componentKey ≤ right.componentKey
  let found ← collect (fun (row : ComponentReservation) => do
    let (session, live) ← overrideSession db probe row.sessionId false
    require (row.componentKey ∈ session.selectedComponents)
      (.runtime ("Thread reservation is outside session selection: " ++ row.sessionId))
    return (⟨row.componentKey, row.sessionId, live⟩ : NodeReservation))
    (rows.filter fun row => node ∈ row.componentKey)
  match found with
  | [] => return none
  | [single] => return some single
  | _ => throw (.runtime ("Ambiguous thread reservations for " ++ node))

def storedNodeOverrides (db : Database) (probe : Probe) (node : String) :
    Result (Option Nat × List (String × Nat)) := do
  let pending := (db.pendingNodeThreadOverrides.find node).map PendingNodeThreadOverride.value
  match pending with
  | some value => validatePositiveInt ("pending thread override for " ++ node) value
  | none => pure ()
  let owned ← collect (fun (row : NodeThreadOverride) => do
    validatePositiveInt ("thread override for " ++ node) row.value
    let _ ← overrideSession db probe row.sessionId false
    return (row.sessionId, row.value))
    ((db.nodeThreadOverrides.select fun row => row.nodeName = node).insertionSort fun left right =>
      left.sessionId ≤ right.sessionId)
  return (pending, owned)

def readThreadOverrideObservation (db : Database) (probe : Probe) (node : String) (allowTerminalJobs : Bool) :
    Result ThreadOverrideObservation := do
  validateNodeName node
  let component ← readActiveComponentForNode db node
  let reservation ← reservationForNode db probe node
  let activeOwners ← match component with
    | none => do
        refuse (db.jobs.rows.any fun row => row.nodeName = node && row.showsActivity)
          (.runtime ("Active job has no current component ownership: " ++ node))
        pure []
    | some component => activeJobSessions db probe component allowTerminalJobs
  require (activeOwners.isEmpty || (match reservation with
      | none => false
      | some held => activeOwners == [held.sessionId] && some held.component == component))
    (.runtime ("Ambiguous thread owner for " ++ node))
  let (pending, stored) ← storedNodeOverrides db probe node
  match reservation with
  | some held =>
      if held.live then do
        require pending.isNone
          (.runtime ("Pending thread override was not bound to owner " ++ held.sessionId ++ ": " ++ node))
        return ⟨node, (stored.find? fun entry => entry.1 = held.sessionId).map Prod.snd, some held.sessionId⟩
      else return ⟨node, pending, none⟩
  | none => return ⟨node, pending, none⟩

def validateThreadOverrideClaim (db : Database) (probe : Probe) (sessionId : String) (component : Component) :
    Result Unit :=
  each (fun node => do
    let observed ← readThreadOverrideObservation db probe node false
    require (observed.sessionId == some sessionId)
      (.runtime ("Thread ownership for " ++ node ++ " is not bound to claiming session " ++ sessionId))) component

variable {db : Database} {probe : Probe} {node sessionId : String} {component : Component}

def ActiveJobsOf (db : Database) (probe : Probe) (component : Component) (held : NodeReservation) : Prop :=
  ∀ row ∈ db.jobs.rows, row.nodeName ∈ component → row.showsActivity = true →
    ∃ owner, activeJobSession db probe component false row = .ok owner ∧
      ∀ session, owner = some session → session = held.sessionId ∧ held.component = component

def ActiveJobsAround (db : Database) (probe : Probe) (node : String) (held : NodeReservation) : Option Component → Prop
  | none => ∀ row ∈ db.jobs.rows, row.nodeName = node → row.showsActivity = false
  | some component => ActiveJobsOf db probe component held

structure BoundNode (db : Database) (probe : Probe) (sessionId node : String) (active : Option Component)
    (held : NodeReservation) : Prop where
  name : validateNodeName node = .ok ()
  component : readActiveComponentForNode db node = .ok active
  reservation : reservationForNode db probe node = .ok (some held)
  live : held.live = true
  session : held.sessionId = sessionId
  overrides : ∃ stored, storedNodeOverrides db probe node = .ok (none, stored)
  owners : ActiveJobsAround db probe node held active

theorem override_session_running {session : SessionSnapshot} {live : Bool}
    (read : overrideSession db probe sessionId false = .ok (session, live)) : session.row.status = .running := by
  simp only [overrideSession, Lib.bind_ok, Lib.require_ok, Lib.pure_ok, Prod.mk.injEq, Bool.or_false, beq_iff_eq]
    at read
  obtain ⟨_, _, _, _, _, _, _, running, rfl, _⟩ := read
  exact running

theorem reservation_for_node_ok {held : NodeReservation} (read : reservationForNode db probe node = .ok (some held)) :
    (∃ session live, overrideSession db probe held.sessionId false = .ok (session, live)) ∧
      ∀ row ∈ db.componentReservations.rows, node ∈ row.componentKey →
        row.componentKey = held.component ∧ row.sessionId = held.sessionId := by
  unfold reservationForNode at read
  dsimp only at read
  rw [Lib.bind_ok] at read
  obtain ⟨found, collected, read⟩ := read
  have listed := Lib.mem_of_collect collected
  split at read
  · exact absurd read (by simp)
  · rename_i single
    simp only [Lib.pure_ok, Option.some.injEq] at read
    subst read
    have each : ∀ row ∈ db.componentReservations.rows, node ∈ row.componentKey →
        (∃ session live, overrideSession db probe row.sessionId false = .ok (session, live)) ∧
          row.componentKey = single.component ∧ row.sessionId = single.sessionId := by
      intro row member inside
      have filtered : row ∈ (db.componentReservations.rows.insertionSort fun left right =>
          left.componentKey ≤ right.componentKey).filter fun row => node ∈ row.componentKey := by
        rw [List.mem_filter, (List.perm_insertionSort _ _).mem_iff]
        exact ⟨member, by simpa using inside⟩
      obtain ⟨value, one, made⟩ := listed.2 row filtered
      simp only [Lib.bind_ok, Lib.pure_ok] at made
      obtain ⟨⟨session, live⟩, read, _, _, rfl⟩ := made
      rw [← List.mem_singleton.mp one]
      exact ⟨⟨session, live, read⟩, rfl, rfl⟩
    obtain ⟨row, member, made⟩ := listed.1 single (List.mem_singleton_self _)
    rw [List.mem_filter, (List.perm_insertionSort _ _).mem_iff] at member
    obtain ⟨session, key, owner⟩ := each row member.1 (by simpa using member.2)
    exact ⟨owner ▸ session, fun other inside holds => (each other inside holds).2⟩
  · exact absurd read (by simp)

theorem active_jobs_listed {row : Job} :
    row ∈ component.flatMap (activeJobRows db) ↔
      row ∈ db.jobs.rows ∧ row.nodeName ∈ component ∧ row.showsActivity = true := by
  simp only [List.mem_flatMap, activeJobRows, (List.perm_insertionSort _ _).mem_iff, Lib.Table.mem_select,
    Bool.and_eq_true, decide_eq_true_eq]
  constructor
  · rintro ⟨node, inside, member, rfl, active⟩
    exact ⟨member, inside, active⟩
  · rintro ⟨member, inside, active⟩
    exact ⟨row.nodeName, inside, member, rfl, active⟩

theorem sorted_names_of_one {names : List String} {only : String} (same : ∀ name ∈ names, name = only) :
    activeJobSessions.sortedNames names = [] ∨ activeJobSessions.sortedNames names = [only] := by
  have distinct : (activeJobSessions.sortedNames names).Nodup := component_key_nodup names
  have all : ∀ name ∈ activeJobSessions.sortedNames names, name = only :=
    fun name member => same name (mem_component_key.mp member)
  match found : activeJobSessions.sortedNames names with
  | [] => exact .inl rfl
  | [single] => exact .inr (by rw [all single (by simp [found])])
  | first :: second :: rest =>
      rw [found] at distinct all
      have equal : first = second := (all first (by simp)).trans (all second (by simp)).symm
      simp [equal] at distinct

theorem active_job_sessions_bound {held : NodeReservation} :
    (∃ owners, activeJobSessions db probe component false = .ok owners ∧
      (owners = [] ∨ (owners = [held.sessionId] ∧ held.component = component))) ↔
      ActiveJobsOf db probe component held := by
  constructor
  · rintro ⟨owners, read, bound⟩ row member inside active
    simp only [activeJobSessions, Lib.bind_ok, Lib.pure_ok] at read
    obtain ⟨found, collected, rfl⟩ := read
    obtain ⟨owner, listed, judged⟩ := (Lib.mem_of_collect collected).2 row (active_jobs_listed.mpr ⟨member, inside, active⟩)
    refine ⟨owner, judged, fun session named => ?_⟩
    have present : session ∈ activeJobSessions.sortedNames (found.filterMap id) :=
      mem_component_key.mpr (List.mem_filterMap.mpr ⟨owner, listed, named⟩)
    rcases bound with nothing | ⟨single, scope⟩
    · rw [nothing] at present
      exact absurd present List.not_mem_nil
    · rw [single] at present
      exact ⟨List.mem_singleton.mp present, scope⟩
  · intro owned
    have total : ∀ row ∈ component.flatMap (activeJobRows db),
        ∃ owner, activeJobSession db probe component false row = .ok owner := by
      intro row listed
      obtain ⟨member, inside, active⟩ := active_jobs_listed.mp listed
      obtain ⟨owner, judged, _⟩ := owned row member inside active
      exact ⟨owner, judged⟩
    obtain ⟨found, collected⟩ := Lib.collect_total total
    have each : ∀ session ∈ found.filterMap id, session = held.sessionId ∧ held.component = component := by
      intro session member
      obtain ⟨owner, listed, named⟩ := List.mem_filterMap.mp member
      obtain ⟨row, present, judged⟩ := (Lib.mem_of_collect collected).1 owner listed
      obtain ⟨here, inside, active⟩ := active_jobs_listed.mp present
      obtain ⟨other, again, bound⟩ := owned row here inside active
      rw [judged, Except.ok.injEq] at again
      exact bound session (again ▸ named)
    refine ⟨activeJobSessions.sortedNames (found.filterMap id),
      by simp only [activeJobSessions, collected, bind, Except.bind, pure, Except.pure], ?_⟩
    rcases sorted_names_of_one fun session member => (each session member).1 with nothing | single
    · exact .inl nothing
    · have present : held.sessionId ∈ activeJobSessions.sortedNames (found.filterMap id) := by
        rw [single]
        exact List.mem_singleton_self _
      exact .inr ⟨single, (each _ (mem_component_key.mp present)).2⟩

def activeOwners (db : Database) (probe : Probe) (node : String) : Option Component → Result (List String)
  | none => do
      refuse (db.jobs.rows.any fun row => row.nodeName = node && row.showsActivity)
        (.runtime ("Active job has no current component ownership: " ++ node))
      pure []
  | some component => activeJobSessions db probe component false

theorem active_owners_bound {active : Option Component} {held : NodeReservation} :
    (∃ owners, activeOwners db probe node active = .ok owners ∧
      (owners.isEmpty || (owners == [held.sessionId] && some held.component == active)) = true) ↔
      ActiveJobsAround db probe node held active := by
  cases active with
  | none =>
      simp only [activeOwners, Lib.bind_ok, Lib.refuse_ok, Lib.pure_ok, ActiveJobsAround, List.any_eq_false,
        Bool.and_eq_true, decide_eq_true_eq, not_and, Bool.not_eq_true]
      constructor
      · rintro ⟨_, ⟨_, quiet, _⟩, _⟩
        exact quiet
      · intro quiet
        exact ⟨[], ⟨(), quiet, rfl⟩, rfl⟩
  | some component =>
      have bounded : ∀ owners : List String,
          (owners.isEmpty || (owners == [held.sessionId] && some held.component == some component)) = true ↔
            (owners = [] ∨ (owners = [held.sessionId] ∧ held.component = component)) := by
        intro owners
        simp [List.isEmpty_iff]
      simp only [bounded]
      exact active_job_sessions_bound

def resolvedOverride (node : String) (reservation : Option NodeReservation) (pending : Option Nat)
    (stored : List (String × Nat)) : Result ThreadOverrideObservation :=
  match reservation with
  | some held =>
      if held.live then do
        require pending.isNone
          (.runtime ("Pending thread override was not bound to owner " ++ held.sessionId ++ ": " ++ node))
        return ⟨node, (stored.find? fun entry => entry.1 = held.sessionId).map Prod.snd, some held.sessionId⟩
      else return ⟨node, pending, none⟩
  | none => return ⟨node, pending, none⟩

theorem read_thread_override_iff :
    (∃ observed, readThreadOverrideObservation db probe node false = .ok observed ∧
      observed.sessionId = some sessionId) ↔ ∃ active held, BoundNode db probe sessionId node active held := by
  have unfolded : readThreadOverrideObservation db probe node false = (do
      validateNodeName node
      let component ← readActiveComponentForNode db node
      let reservation ← reservationForNode db probe node
      let owners ← activeOwners db probe node component
      require (owners.isEmpty || (match reservation with
          | none => false
          | some held => owners == [held.sessionId] && some held.component == component))
        (.runtime ("Ambiguous thread owner for " ++ node))
      let (pending, stored) ← storedNodeOverrides db probe node
      resolvedOverride node reservation pending stored) := by
    unfold readThreadOverrideObservation
    refine congrArg _ (funext fun _ => congrArg _ (funext fun component => ?_))
    cases component with
    | none =>
        simp only [activeOwners, bind_assoc]
        rfl
    | some component => rfl
  rw [unfolded]
  constructor
  · rintro ⟨observed, read, named⟩
    simp only [Lib.bind_ok, Lib.require_ok] at read
    obtain ⟨_, name, active, component, reservation, reserved, owners, sessions, _, allowed, ⟨pending, stored⟩,
      overrides, outcome⟩ := read
    cases reservation with
    | none =>
        simp only [resolvedOverride, Lib.pure_ok] at outcome
        rw [← outcome] at named
        exact absurd named (by simp)
    | some held =>
        dsimp only [resolvedOverride] at outcome
        split at outcome
        · rename_i live
          simp only [Lib.bind_ok, Lib.require_ok, Lib.pure_ok, Option.isNone_iff_eq_none] at outcome
          obtain ⟨_, rfl, rfl⟩ := outcome
          exact ⟨active, held, name, component, reserved, live, Option.some.inj named, ⟨stored, overrides⟩,
            active_owners_bound.mp ⟨owners, sessions, allowed⟩⟩
        · simp only [Lib.pure_ok] at outcome
          rw [← outcome] at named
          exact absurd named (by simp)
  · rintro ⟨active, held, bound⟩
    obtain ⟨owners, sessions, allowed⟩ := active_owners_bound.mpr bound.owners
    obtain ⟨stored, overrides⟩ := bound.overrides
    refine ⟨⟨node, (stored.find? fun entry => entry.1 = held.sessionId).map Prod.snd, some held.sessionId⟩, ?_,
      congrArg some bound.session⟩
    simp only [bound.name, bound.component, bound.reservation, sessions, overrides, bind, Except.bind, bound.live,
      resolvedOverride, allowed, require, if_true, Option.isNone_none, pure, Except.pure]

theorem validate_thread_override_claim_ok :
    validateThreadOverrideClaim db probe sessionId component = .ok () ↔
      ∀ node ∈ component, ∃ observed, readThreadOverrideObservation db probe node false = .ok observed ∧
        observed.sessionId = some sessionId := by
  unfold validateThreadOverrideClaim
  rw [Lib.each_ok]
  simp [Lib.bind_ok]

end MicroWorkflow
