import MicroWorkflow.OverrideTransitions

set_option autoImplicit false

namespace MicroWorkflow

open Lib (require refuse orRaise thread Table)

variable {db next : Database} {probe : Probe} {node sessionId : String} {value : Nat}

def OverridesOnly (db next : Database) : Prop :=
  ∃ pending owned, next = { db with
    pendingNodeThreadOverrides := pending
    nodeThreadOverrides := owned }

theorem OverridesOnly.refl (db : Database) : OverridesOnly db db :=
  ⟨db.pendingNodeThreadOverrides, db.nodeThreadOverrides, rfl⟩

theorem OverridesOnly.trans {last : Database} (first : OverridesOnly db next) (second : OverridesOnly next last) :
    OverridesOnly db last := by
  obtain ⟨_, _, rfl⟩ := first
  obtain ⟨pending, owned, rfl⟩ := second
  exact ⟨pending, owned, rfl⟩

theorem OverridesOnly.sessions (only : OverridesOnly db next) : next.executionSessions = db.executionSessions := by
  obtain ⟨_, _, rfl⟩ := only
  rfl

theorem OverridesOnly.reservations (only : OverridesOnly db next) :
    next.componentReservations = db.componentReservations := by
  obtain ⟨_, _, rfl⟩ := only
  rfl

theorem OverridesOnly.limit (only : OverridesOnly db next) : next.apiThreadLimit = db.apiThreadLimit := by
  obtain ⟨_, _, rfl⟩ := only
  rfl

section Store

theorem store_only (owner : Option String) : OverridesOnly db (storeOverride db node owner value) := by
  cases owner with
  | none => exact ⟨_, db.nodeThreadOverrides, rfl⟩
  | some sessionId => exact ⟨db.pendingNodeThreadOverrides, _, rfl⟩

theorem pending_value_store (owner : Option String) (other : String) :
    pendingValue (storeOverride db node owner value) other =
      if owner = none ∧ other = node then some value else pendingValue db other := by
  cases owner with
  | some sessionId => simp [storeOverride, pendingValue]
  | none =>
      simp only [storeOverride, pendingValue, true_and]
      rw [Table.find_upsert]
      by_cases here : other = node
      · subst here
        cases db.pendingNodeThreadOverrides.find other <;> simp
      · have apart : ¬ node = other := fun same => here same.symm
        simp [here, apart]

theorem owned_value_store (owner : Option String) (other session : String) :
    ownedValue (storeOverride db node owner value) other session =
      if owner = some session ∧ other = node then some value else ownedValue db other session := by
  cases owner with
  | none => simp [storeOverride, ownedValue]
  | some sessionId =>
      simp only [storeOverride, ownedValue, Option.some.injEq]
      rw [Table.find_upsert]
      by_cases here : sessionId = session ∧ other = node
      · obtain ⟨rfl, rfl⟩ := here
        cases db.nodeThreadOverrides.find (other, sessionId) <;> simp [NodeThreadOverride.key]
      · have apart : ¬ NodeThreadOverride.key ⟨node, sessionId, value⟩ = (other, session) := by
          intro same
          simp only [NodeThreadOverride.key, Prod.mk.injEq] at same
          exact here ⟨same.2, same.1.symm⟩
        rw [if_neg here, if_neg apart]

theorem set_thread_override_ok {expected : ThreadOverrideObservation}
    (set : setThreadOverride db probe node value expected = .ok next) :
    1 ≤ value ∧ ∃ current, readThreadOverrideObservation db probe node false = .ok current ∧
      next = storeOverride db node current.sessionId value := by
  simp only [setThreadOverride, validatePositiveInt, Lib.bind_ok, Lib.require_ok, Lib.pure_ok, decide_eq_true_eq] at set
  obtain ⟨_, _, _, positive, current, read, _, _, _, _, _, _, rfl⟩ := set
  exact ⟨positive, current, read, rfl⟩

end Store

section Clear

theorem remove_override_only {owner : Option String} (removed : removeOverride db node owner value = .ok next) :
    OverridesOnly db next := by
  cases owner with
  | none =>
      simp only [removeOverride, Lib.bind_ok, Lib.pure_ok] at removed
      obtain ⟨pending, _, rfl⟩ := removed
      exact ⟨pending, db.nodeThreadOverrides, rfl⟩
  | some sessionId =>
      simp only [removeOverride, Lib.bind_ok, Lib.pure_ok] at removed
      obtain ⟨owned, _, rfl⟩ := removed
      exact ⟨db.pendingNodeThreadOverrides, owned, rfl⟩

theorem pending_value_remove {owner : Option String} (removed : removeOverride db node owner value = .ok next)
    (other : String) :
    pendingValue next other = if owner = none ∧ other = node then none else pendingValue db other := by
  cases owner with
  | some sessionId =>
      simp only [removeOverride, Lib.bind_ok, Lib.pure_ok] at removed
      obtain ⟨owned, _, rfl⟩ := removed
      simp [pendingValue]
  | none =>
      simp only [removeOverride, Lib.bind_ok, Lib.pure_ok] at removed
      obtain ⟨pending, gone, rfl⟩ := removed
      obtain ⟨_, _, _, absent, others⟩ := Table.remove_one_ok gone
      by_cases here : other = node
      · subst here
        simp [pendingValue, absent]
      · simp [pendingValue, here, others other here]

theorem owned_value_remove {owner : Option String} (removed : removeOverride db node owner value = .ok next)
    (other session : String) :
    ownedValue next other session = if owner = some session ∧ other = node then none else ownedValue db other session := by
  cases owner with
  | none =>
      simp only [removeOverride, Lib.bind_ok, Lib.pure_ok] at removed
      obtain ⟨pending, _, rfl⟩ := removed
      simp [ownedValue]
  | some sessionId =>
      simp only [removeOverride, Lib.bind_ok, Lib.pure_ok] at removed
      obtain ⟨owned, gone, rfl⟩ := removed
      obtain ⟨_, _, _, absent, others⟩ := Table.remove_one_ok gone
      by_cases here : sessionId = session ∧ other = node
      · obtain ⟨rfl, rfl⟩ := here
        simp [ownedValue, absent]
      · have apart : (other, session) ≠ (node, sessionId) := by
          intro same
          simp only [Prod.mk.injEq] at same
          exact here ⟨same.2.symm, same.1⟩
        simp only [ownedValue, Option.some.injEq, if_neg here, others _ apart]

theorem clear_thread_override_ok {expected : ThreadOverrideObservation} {cleared : Bool}
    (clear : clearThreadOverride db probe node expected = .ok (cleared, next)) :
    next = db ∨ ∃ owner value, removeOverride db node owner value = .ok next := by
  simp only [clearThreadOverride, Lib.bind_ok, Lib.require_ok] at clear
  obtain ⟨_, _, current, _, _, _, clear⟩ := clear
  cases valued : current.value with
  | none =>
      simp only [valued, Lib.pure_ok, Prod.mk.injEq] at clear
      exact .inl clear.2.symm
  | some value =>
      simp only [valued, Lib.bind_ok, Lib.require_ok, Lib.pure_ok, Prod.mk.injEq] at clear
      obtain ⟨after, removed, _, _, _, _, _, rfl⟩ := clear
      exact .inr ⟨current.sessionId, value, removed⟩

end Clear

section Bind

structure BoundTo (db next : Database) (sessionId : String) (nodes : List String) : Prop where
  only : OverridesOnly db next
  pending : ∀ node, pendingValue next node = if node ∈ nodes then none else pendingValue db node
  owned : ∀ node owner, ownedValue next node owner =
    if node ∈ nodes ∧ owner = sessionId then (pendingValue db node).or (ownedValue db node sessionId)
    else ownedValue db node owner
  kept : ∀ node owner value, ownedValue db node owner = some value → ownedValue next node owner = some value

theorem move_pending_ok (waiting : pendingValue db node = some value)
    (moved : movePending db node sessionId value = .ok next) : BoundTo db next sessionId [node] := by
  simp only [movePending, Lib.bind_ok, Lib.orRaise_ok, Lib.pure_ok] at moved
  obtain ⟨_, _, owned, inserted, pending, gone, rfl⟩ := moved
  obtain ⟨_, _, _, absent, others⟩ := Table.remove_one_ok gone
  have free := (Table.insert_eq_some.mp inserted).1
  constructor
  · exact ⟨pending, owned, rfl⟩
  · intro other
    by_cases here : other = node
    · subst here
      simp [pendingValue, absent]
    · simp [pendingValue, here, others other here]
  · intro other owner
    by_cases here : other = node ∧ owner = sessionId
    · obtain ⟨rfl, rfl⟩ := here
      simp [ownedValue, Table.find_insert inserted, NodeThreadOverride.key, waiting]
    · have apart : ¬ NodeThreadOverride.key ⟨node, sessionId, value⟩ = (other, owner) := by
        intro same
        simp only [NodeThreadOverride.key, Prod.mk.injEq] at same
        exact here ⟨same.1.symm, same.2.symm⟩
      simp only [ownedValue, Table.find_insert inserted, if_neg apart, List.mem_singleton, if_neg here]
  · intro other owner found has
    have apart : ¬ NodeThreadOverride.key ⟨node, sessionId, value⟩ = (other, owner) := by
      intro same
      rw [same] at free
      simp [ownedValue, free] at has
    simp only [ownedValue, Table.find_insert inserted, if_neg apart]
    exact has

theorem nothing_to_bind (waiting : pendingValue db node = none) : BoundTo db db sessionId [node] := by
  constructor
  · exact OverridesOnly.refl db
  · intro other
    by_cases here : other = node
    · subst here
      simp [waiting]
    · simp [here]
  · intro other owner
    by_cases here : other = node ∧ owner = sessionId
    · obtain ⟨rfl, rfl⟩ := here
      simp [waiting]
    · simp [here]
  · intro other owner value has
    exact has

theorem bind_pending_ok (bound : bindPendingThreadOverride probe sessionId db node = .ok next) :
    BoundTo db next sessionId [node] := by
  simp only [bindPendingThreadOverride, Lib.bind_ok, Lib.refuse_ok, Lib.require_ok, Lib.pure_ok] at bound
  obtain ⟨_, _, after, moved, _, _, _, _, _, _, rfl⟩ := bound
  cases waiting : pendingValue db node with
  | none =>
      simp only [waiting, moveWaiting, Except.ok.injEq] at moved
      subst moved
      exact nothing_to_bind waiting
  | some value =>
      simp only [waiting, moveWaiting] at moved
      exact move_pending_ok waiting moved

theorem BoundTo.cons {after : Database} {rest : List String} (first : BoundTo db after sessionId [node])
    (later : BoundTo after next sessionId rest) : BoundTo db next sessionId (node :: rest) := by
  constructor
  · exact first.only.trans later.only
  · intro other
    rw [later.pending other, first.pending other]
    by_cases here : other = node <;> by_cases there : other ∈ rest <;> simp [here, there]
  · intro other owner
    rw [later.owned other owner, first.owned other owner, first.owned other sessionId, first.pending other]
    by_cases own : owner = sessionId
    · subst own
      by_cases here : other = node
      · subst here
        by_cases there : other ∈ rest <;> simp [there]
      · by_cases there : other ∈ rest <;> simp [here, there]
    · simp [own]
  · intro other owner value has
    exact later.kept other owner value (first.kept other owner value has)

theorem bind_all_ok {nodes : List String} (bound : thread (bindPendingThreadOverride probe sessionId) db nodes = .ok next) :
    BoundTo db next sessionId nodes := by
  induction nodes generalizing db with
  | nil =>
      simp only [thread, Except.ok.injEq] at bound
      subst bound
      exact ⟨OverridesOnly.refl db, by simp, by simp, fun _ _ _ has => has⟩
  | cons node rest ih =>
      rw [Lib.thread_cons, Lib.bind_ok] at bound
      obtain ⟨after, first, later⟩ := bound
      exact (bind_pending_ok first).cons (ih later)

theorem bind_pending_overrides_ok {nodes : List String}
    (bound : bindPendingThreadOverrides probe sessionId nodes db = .ok next) : BoundTo db next sessionId nodes := by
  have all := bind_all_ok bound
  have members : ∀ node, node ∈ sortedDistinct nodes ↔ node ∈ nodes := by
    intro node
    rw [sortedDistinct, (List.perm_insertionSort _ _).mem_iff, List.mem_dedup]
  constructor
  · exact all.only
  · intro node
    rw [all.pending node]
    simp only [members]
  · intro node owner
    rw [all.owned node owner]
    simp only [members]
  · exact all.kept

end Bind

section Transfer

theorem mem_override_rows {members : Component} {entry : String × Nat} :
    entry ∈ overrideRows db sessionId members ↔ entry.1 ∈ members ∧ ownedValue db entry.1 sessionId = some entry.2 := by
  simp only [overrideRows, List.mem_map, (List.perm_insertionSort _ _).mem_iff, Table.mem_select, Bool.and_eq_true,
    decide_eq_true_eq, ownedValue, Option.map_eq_some_iff]
  constructor
  · rintro ⟨row, ⟨present, rfl, inside⟩, rfl⟩
    exact ⟨inside, row, Table.find_of_mem present, rfl⟩
  · rintro ⟨inside, row, found, valued⟩
    have keyed := Table.find_key found
    simp only [NodeThreadOverride.key, Prod.mk.injEq] at keyed
    refine ⟨row, ⟨Table.find_mem found, keyed.2, keyed.1 ▸ inside⟩, ?_⟩
    rw [keyed.1, valued]

theorem owned_values_of_rows {members : Component} {left right : String}
    (same : overrideRows next left members = overrideRows db right members) {member : String} (inside : member ∈ members) :
    ownedValue next member left = ownedValue db member right := by
  apply Option.ext
  intro value
  have here := @mem_override_rows next left members (member, value)
  have there := @mem_override_rows db right members (member, value)
  rw [same] at here
  simp only [inside, true_and] at here there
  rw [← here, there]

theorem copy_overrides_ok {child : String} {rows : List (String × Nat)} (copied : copyOverrides db child rows = .ok next) :
    OverridesOnly db next ∧ next.pendingNodeThreadOverrides = db.pendingNodeThreadOverrides ∧
      ∀ node owner, (owner ≠ child ∨ ∀ entry ∈ rows, entry.1 ≠ node) → ownedValue next node owner = ownedValue db node owner := by
  simp only [copyOverrides, Lib.bind_ok, Lib.orRaise_ok, Lib.pure_ok] at copied
  obtain ⟨owned, inserted, rfl⟩ := copied
  refine ⟨⟨db.pendingNodeThreadOverrides, owned, rfl⟩, rfl, fun node owner apart => ?_⟩
  have absent : (rows.map fun entry => (⟨entry.1, child, entry.2⟩ : NodeThreadOverride)).find?
      (fun row => row.key = (node, owner)) = none := by
    rw [List.find?_eq_none]
    intro row member keyed
    obtain ⟨entry, listed, rfl⟩ := List.mem_map.mp member
    simp only [NodeThreadOverride.key, Prod.mk.injEq, decide_eq_true_eq] at keyed
    cases apart with
    | inl other => exact other keyed.2.symm
    | inr missing => exact missing entry listed keyed.1
  simp only [ownedValue, Table.find_insertAll inserted, absent, Option.none_or]

structure CopiedTo (db next : Database) (source child : String) (component : Component) : Prop where
  only : OverridesOnly db next
  unbound : ∀ node ∈ component, pendingValue db node = none
  pending : ∀ node, pendingValue next node = pendingValue db node
  copied : ∀ node ∈ component, ownedValue next node child = ownedValue db node source
  kept : ∀ node value, ownedValue db node child = some value → ownedValue next node child = some value
  others : ∀ node owner, (owner ≠ child ∨ node ∉ component) → ownedValue next node owner = ownedValue db node owner

theorem read_override_rows_ok {members : Component} {rows : List (String × Nat)}
    (read : readOverrideRows db sessionId members = .ok rows) : rows = overrideRows db sessionId members := by
  have mapped := Lib.collect_eq_map id (fun entry found made => by
    simp only [Lib.bind_ok, Lib.pure_ok] at made
    obtain ⟨_, _, rfl⟩ := made
    rfl) read
  rwa [List.map_id] at mapped

theorem transfer_overrides_ok {source child : String} {component : Component}
    (transferred : transferThreadOverrides db probe source child component = .ok next) :
    CopiedTo db next source child component ∧
      (∃ session live, overrideSession db probe child false = .ok (session, live)) := by
  simp only [transferThreadOverrides, Lib.bind_ok, Lib.require_ok, Lib.refuse_ok, Lib.pure_ok, Prod.exists] at transferred
  obtain ⟨_, _, _, _, _, childSession, childLive, childRead, _, _, _, _, _, free, sourceRows, sourceRead, childRows,
    childFound, _, agree, after, written, _, recorded, rfl⟩ := transferred
  unfold copyMissing at written
  have rows := read_override_rows_ok sourceRead
  have same : overrideRows after child component = overrideRows db source component := by
    rw [← rows]
    simpa using recorded
  have unbound : ∀ node ∈ component, pendingValue db node = none := by
    intro node inside
    have absent := (List.any_eq_false.mp free) node inside
    simpa [pendingValue, Table.contains] using absent
  refine ⟨⟨?_, unbound, ?_, fun node inside => owned_values_of_rows same inside, ?_, ?_⟩, childSession, childLive, childRead⟩
  · split at written
    · exact (copy_overrides_ok written).1
    · simp only [Except.ok.injEq] at written
      exact written ▸ OverridesOnly.refl db
  · intro node
    split at written
    · simp only [pendingValue, (copy_overrides_ok written).2.1]
    · simp only [Except.ok.injEq] at written
      rw [written]
  · intro node value has
    split at written
    · rename_i nothing
      have rowsOfChild := read_override_rows_ok childFound
      by_cases inside : node ∈ component
      · have listed := (@mem_override_rows db child component (node, value)).mpr ⟨inside, has⟩
        rw [← rowsOfChild, List.isEmpty_iff.mp nothing] at listed
        exact absurd listed List.not_mem_nil
      · rw [(copy_overrides_ok written).2.2 node child]
        · exact has
        · right
          intro entry listed named
          rw [rows, mem_override_rows] at listed
          exact inside (named ▸ listed.1)
    · simp only [Except.ok.injEq] at written
      rwa [← written]
  · intro node owner apart
    split at written
    · apply (copy_overrides_ok written).2.2
      cases apart with
      | inl other => exact .inl other
      | inr outside =>
          right
          intro entry listed named
          rw [rows, mem_override_rows] at listed
          exact outside (named ▸ listed.1)
    · simp only [Except.ok.injEq] at written
      rw [written]

end Transfer

section Observe

def storedOverride (db : Database) (probe : Probe) (node : String) (row : NodeThreadOverride) :
    Result (String × Nat) := do
  validatePositiveInt ("thread override for " ++ node) row.value
  let _ ← overrideSession db probe row.sessionId false
  return (row.sessionId, row.value)

def nodeOverrideRows (db : Database) (node : String) : List NodeThreadOverride :=
  (db.nodeThreadOverrides.select fun row => row.nodeName = node).insertionSort fun left right =>
    left.sessionId ≤ right.sessionId

theorem mem_node_override_rows {row : NodeThreadOverride} :
    row ∈ nodeOverrideRows db node ↔ row ∈ db.nodeThreadOverrides.rows ∧ row.nodeName = node := by
  rw [nodeOverrideRows, (List.perm_insertionSort _ _).mem_iff, Table.mem_select, decide_eq_true_eq]

theorem stored_overrides_read {pending : Option Nat} {stored : List (String × Nat)}
    (read : storedNodeOverrides db probe node = .ok (pending, stored)) :
    pending = pendingValue db node ∧
      Lib.collect (storedOverride db probe node) (nodeOverrideRows db node) = .ok stored := by
  simp only [storedNodeOverrides] at read
  split at read
  · simp only [Lib.bind_ok, Lib.pure_ok, Prod.mk.injEq] at read
    obtain ⟨_, _, owned, collected, rfl, rfl⟩ := read
    exact ⟨rfl, collected⟩
  · simp only [Lib.bind_ok, Lib.pure_ok, Prod.mk.injEq] at read
    obtain ⟨owned, collected, rfl, rfl⟩ := read
    exact ⟨rfl, collected⟩

theorem find_node_override (owner : String) :
    ((nodeOverrideRows db node).find? fun row => row.sessionId = owner).map NodeThreadOverride.value =
      ownedValue db node owner := by
  cases found : (nodeOverrideRows db node).find? fun row => row.sessionId = owner with
  | none =>
      rw [List.find?_eq_none] at found
      have absent : db.nodeThreadOverrides.find (node, owner) = none := by
        rw [Table.find_none_iff]
        intro row present keyed
        simp only [NodeThreadOverride.key, Prod.mk.injEq] at keyed
        apply found row (mem_node_override_rows.mpr ⟨present, keyed.1⟩)
        simp [keyed.2]
      rw [ownedValue, absent]
  | some row =>
      have listed := mem_node_override_rows.mp (List.mem_of_find?_eq_some found)
      have owned : row.sessionId = owner := by simpa using List.find?_some found
      have keyed : row.key = (node, owner) := by rw [NodeThreadOverride.key, listed.2, owned]
      rw [ownedValue, ← keyed, Table.find_of_mem listed.1]

theorem stored_overrides_ok {pending : Option Nat} {stored : List (String × Nat)}
    (read : storedNodeOverrides db probe node = .ok (pending, stored)) :
    pending = pendingValue db node ∧
      ∀ owner, (stored.find? fun entry => entry.1 = owner).map Prod.snd = ownedValue db node owner := by
  obtain ⟨same, collected⟩ := stored_overrides_read read
  have mapped := Lib.collect_eq_map (fun row : NodeThreadOverride => (row.sessionId, row.value)) (fun row found made => by
    simp only [storedOverride, Lib.bind_ok, Lib.pure_ok] at made
    obtain ⟨_, _, _, _, rfl⟩ := made
    rfl) collected
  refine ⟨same, fun owner => ?_⟩
  rw [mapped, List.find?_map, Option.map_map]
  exact find_node_override owner

def sessionLive (db : Database) (probe : Probe) (sessionId : String) : Bool :=
  (db.executionSessions.find sessionId).any fun row => (executionSessionLiveness probe row).live

theorem override_session_live {session : SessionSnapshot} {live allowTerminal : Bool}
    (read : overrideSession db probe sessionId allowTerminal = .ok (session, live)) :
    live = sessionLive db probe sessionId := by
  simp only [overrideSession, Lib.bind_ok, Lib.orRaise_ok, Lib.require_ok, Lib.pure_ok, Prod.mk.injEq] at read
  obtain ⟨row, found, _, _, _, _, _, _, _, rfl⟩ := read
  simp [sessionLive, found]

theorem override_session_owner {session : SessionSnapshot} {live : Bool}
    (read : overrideSession db probe sessionId false = .ok (session, live)) : sessionRunning db sessionId = true := by
  have running := override_session_running read
  simp only [overrideSession, Lib.bind_ok, Lib.orRaise_ok, Lib.require_ok, Lib.pure_ok, Prod.mk.injEq] at read
  obtain ⟨stored, here, snapshot, opened, _, _, _, _, rfl, _⟩ := read
  simp only [executionSessionFromRowSnapshot, Lib.bind_ok, Lib.pure_ok] at opened
  obtain ⟨_, _, _, _, _, _, _, _, rfl⟩ := opened
  dsimp only at running
  simp only [sessionRunning, here, running, beq_self_eq_true]

theorem reservation_of_node {reservation : Option NodeReservation}
    (read : reservationForNode db probe node = .ok reservation) :
    match reservation with
    | none => ∀ row ∈ db.componentReservations.rows, node ∉ row.componentKey
    | some held => (⟨held.component, held.sessionId⟩ ∈ db.componentReservations.rows ∧ node ∈ held.component) ∧
        held.live = sessionLive db probe held.sessionId ∧ sessionRunning db held.sessionId = true := by
  unfold reservationForNode at read
  dsimp only at read
  rw [Lib.bind_ok] at read
  obtain ⟨found, collected, read⟩ := read
  have listed := Lib.mem_of_collect collected
  have members : ∀ row, row ∈ (db.componentReservations.rows.insertionSort fun left right =>
      left.componentKey ≤ right.componentKey).filter (fun row => node ∈ row.componentKey) ↔
        row ∈ db.componentReservations.rows ∧ node ∈ row.componentKey := by
    intro row
    rw [List.mem_filter, (List.perm_insertionSort _ _).mem_iff, decide_eq_true_eq]
  split at read
  · simp only [Lib.pure_ok] at read
    subst read
    intro row present inside
    obtain ⟨value, member, _⟩ := listed.2 row ((members row).mpr ⟨present, inside⟩)
    exact absurd member List.not_mem_nil
  · rename_i single
    simp only [Lib.pure_ok] at read
    subst read
    obtain ⟨row, member, made⟩ := listed.1 single (List.mem_singleton_self _)
    obtain ⟨present, inside⟩ := (members row).mp member
    simp only [Lib.bind_ok, Lib.pure_ok] at made
    obtain ⟨⟨session, live⟩, opened, _, _, rfl⟩ := made
    exact ⟨⟨present, inside⟩, override_session_live opened, override_session_owner opened⟩
  · exact absurd read (by simp)

theorem observation_parts {allowTerminal : Bool} {observed : ThreadOverrideObservation}
    (read : readThreadOverrideObservation db probe node allowTerminal = .ok observed) :
    ∃ reservation pending stored, reservationForNode db probe node = .ok reservation ∧
      storedNodeOverrides db probe node = .ok (pending, stored) ∧
        resolvedOverride node reservation pending stored = .ok observed := by
  simp only [readThreadOverrideObservation, Lib.bind_ok] at read
  obtain ⟨_, _, component, _, reservation, reserved, outcome⟩ := read
  cases component with
  | none =>
      simp only [Lib.bind_ok, Prod.exists] at outcome
      obtain ⟨_, _, _, _, _, _, pending, stored, overrides, outcome⟩ := outcome
      exact ⟨reservation, pending, stored, reserved, overrides, outcome⟩
  | some component =>
      simp only [Lib.bind_ok, Prod.exists] at outcome
      obtain ⟨_, _, _, _, pending, stored, overrides, outcome⟩ := outcome
      exact ⟨reservation, pending, stored, reserved, overrides, outcome⟩

inductive Shown (db : Database) (probe : Probe) (node : String) : ThreadOverrideObservation → Prop where
  | pending : (∀ held, reservationForNode db probe node = .ok (some held) → held.live = false) →
      Shown db probe node ⟨node, pendingValue db node, none⟩
  | owned {held : NodeReservation} : reservationForNode db probe node = .ok (some held) → held.live = true →
      pendingValue db node = none → Shown db probe node ⟨node, ownedValue db node held.sessionId, some held.sessionId⟩

theorem observation_shown {allowTerminal : Bool} {observed : ThreadOverrideObservation}
    (read : readThreadOverrideObservation db probe node allowTerminal = .ok observed) : Shown db probe node observed := by
  obtain ⟨reservation, pending, stored, reserved, overrides, outcome⟩ := observation_parts read
  obtain ⟨rfl, values⟩ := stored_overrides_ok overrides
  cases reservation with
  | none =>
      simp only [resolvedOverride, Lib.pure_ok] at outcome
      subst outcome
      apply Shown.pending
      intro held again
      rw [reserved] at again
      exact absurd again (by simp)
  | some held =>
      by_cases live : held.live = true
      · simp only [resolvedOverride, if_pos live, Lib.bind_ok, Lib.require_ok, Lib.pure_ok, Option.isNone_iff_eq_none]
          at outcome
        obtain ⟨_, unbound, rfl⟩ := outcome
        rw [values held.sessionId]
        exact .owned reserved live unbound
      · simp only [resolvedOverride, if_neg live, Lib.pure_ok] at outcome
        subst outcome
        apply Shown.pending
        intro other again
        rw [reserved] at again
        obtain rfl := Option.some.inj (Except.ok.inj again)
        exact Bool.eq_false_iff.mpr live

theorem read_for_session_ok {found : Option Nat} {reader : String}
    (read : readThreadOverrideForSession db probe node (some reader) = .ok found) (present : found ≠ none) :
    found = ownedValue db node reader ∧
      ∃ held, reservationForNode db probe node = .ok (some held) ∧ held.live = true ∧ held.sessionId = reader := by
  simp only [readThreadOverrideForSession, Lib.bind_ok, Lib.pure_ok] at read
  obtain ⟨_, _, observed, seen, rfl⟩ := read
  by_cases mine : observed.sessionId = some reader
  · rw [if_pos mine] at present ⊢
    cases observation_shown seen with
    | pending free => exact absurd mine (by simp)
    | owned reserved live unbound =>
        obtain rfl := Option.some.inj mine
        exact ⟨rfl, _, reserved, live, rfl⟩
  · rw [if_neg mine] at present
    exact absurd rfl present

end Observe

end MicroWorkflow
