import MicroWorkflow.Database

set_option autoImplicit false

namespace MicroWorkflow

open Lib (require refuse orRaise collect each)

def normalizedMembers (label : String) (supplied : List String) : Result Component := do
  refuse supplied.isEmpty (.value (label ++ " must contain raw-node names"))
  each validateNodeName supplied
  require ((componentKey supplied).length == supplied.length) (.value (label ++ " contains duplicate raw-node names"))
  return componentKey supplied

def observationComponent (supplied : List String) : Result Component := do
  refuse supplied.isEmpty (.value "A selected component needs member node names")
  each validateNodeName supplied
  return componentKey supplied

structure ActiveComponentPartition where
  revision : Nat
  components : List ActiveComponent
deriving DecidableEq, Repr

def readPartitionRevision (db : Database) : Result (Option Nat) :=
  match db.componentPartitionState with
  | some revision => .ok (some revision)
  | none =>
      if db.activeComponents.rows.isEmpty && db.activeComponentMembers.rows.isEmpty then .ok none
      else .error (.runtime "Active membership rows have no partition state")

def memberNodes (db : Database) (key : Component) : List String :=
  ((db.activeComponentMembers.select fun row => row.componentKey = key).map fun row =>
    row.nodeName).insertionSort (· ≤ ·)

def decodeActiveComponent (db : Database) (row : ActiveComponent) (revision : Nat) : Result ActiveComponent := do
  let members ← match normalizedMembers "Stored active component" row.componentKey with
    | .ok members => .ok members
    | .error _ => .error (.runtime "Invalid stored active component")
  require (encodeComponentKey members == row.componentKey) (.runtime "Stored active component key is not canonical")
  require (memberNodes db row.componentKey == members) (.runtime "Active component disagrees with its member rows")
  require (row.establishedRevision ≤ revision)
    (.runtime "Active component was established after the partition revision")
  return ⟨members, row.establishedRevision⟩

def disjointMembers : List Component → Bool
  | [] => true
  | component :: rest => rest.all (fun other => component.all fun node => node ∉ other) && disjointMembers rest

def readActiveComponentPartition (db : Database) : Result (Option ActiveComponentPartition) := do
  match ← readPartitionRevision db with
  | none => return none
  | some revision =>
      let components ← collect (fun row => decodeActiveComponent db row revision)
        (db.activeComponents.rows.insertionSort fun left right => left.componentKey ≤ right.componentKey)
      require (db.activeComponentMembers.rows.length == (components.map fun item => item.componentKey.length).sum)
        (.runtime "Active membership contains an orphan member row")
      require (disjointMembers (components.map ActiveComponent.componentKey))
        (.runtime "Invalid active component partition")
      return some ⟨revision, components⟩

def readActiveComponentForNode (db : Database) (node : String) : Result (Option Component) := do
  validateNodeName node
  match ← readPartitionRevision db with
  | none => return none
  | some revision =>
      let member ← orRaise (db.activeComponentMembers.find node)
        (.runtime "Raw node has no active component membership")
      let row ← orRaise (db.activeComponents.find member.componentKey)
        (.runtime "Raw node has no active component membership")
      let component ← decodeActiveComponent db row revision
      require (node ∈ component.componentKey) (.runtime "Active component lookup returned the wrong raw node")
      return some component.componentKey

def validateActiveMembership (db : Database) (members : Component) : Result Unit :=
  each (fun node => do
    let active ← readActiveComponentForNode db node
    require (active == some members) (.runtime "Component differs from the active membership")) members

theorem normalized_members_ok {label : String} {supplied members : List String}
    (normalized : normalizedMembers label supplied = .ok members) : members = componentKey supplied := by
  simp only [normalizedMembers, Lib.bind_ok, Lib.pure_ok] at normalized
  obtain ⟨_, _, _, _, _, _, rfl⟩ := normalized
  rfl

theorem observation_component_ok {supplied members : List String}
    (observed : observationComponent supplied = .ok members) : members = componentKey supplied := by
  simp only [observationComponent, Lib.bind_ok, Lib.pure_ok] at observed
  obtain ⟨_, _, _, _, rfl⟩ := observed
  rfl

theorem decode_active_component_ok {db : Database} {row component : ActiveComponent} {revision : Nat}
    (decoded : decodeActiveComponent db row revision = .ok component) :
    component = row ∧ encodeComponentKey row.componentKey = row.componentKey ∧
      memberNodes db row.componentKey = row.componentKey := by
  unfold decodeActiveComponent at decoded
  split at decoded
  · rename_i members normalized
    have canonical := normalized_members_ok normalized
    simp only [Lib.bind_ok, Except.ok.injEq, Lib.require_ok, beq_iff_eq, Lib.pure_ok] at decoded
    obtain ⟨_, rfl, _, encoded, _, listed, _, _, rfl⟩ := decoded
    rw [canonical] at encoded listed ⊢
    have same : componentKey row.componentKey = row.componentKey := (component_key_idem _).symm.trans encoded
    exact ⟨by rw [same], same, listed.trans same⟩
  · exact absurd decoded (by simp [bind, Except.bind])

theorem read_active_component_for_node_ok {db : Database} {node : String} {component : Component}
    (read : readActiveComponentForNode db node = .ok (some component)) :
    node ∈ component ∧ encodeComponentKey component = component ∧ memberNodes db component = component := by
  unfold readActiveComponentForNode at read
  simp only [Lib.bind_ok] at read
  obtain ⟨_, _, revision, _, read⟩ := read
  split at read
  · exact absurd read (by simp)
  · simp only [Lib.bind_ok, Lib.require_ok, Lib.pure_ok, Option.some.injEq, decide_eq_true_eq] at read
    obtain ⟨_, _, row, _, decoded, built, _, inside, rfl⟩ := read
    obtain ⟨rfl, canonical, listed⟩ := decode_active_component_ok built
    exact ⟨inside, canonical, listed⟩

end MicroWorkflow
