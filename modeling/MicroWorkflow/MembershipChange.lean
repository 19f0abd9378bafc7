import MicroWorkflow.ComponentRecord
import MicroWorkflow.Lib.Statement

set_option autoImplicit false

namespace MicroWorkflow

open Lib (require refuse orRaise each collect thread Table)

structure HistoricalMembership where
  members : Component
  shapeId : Nat
  alignmentGeneration : Nat
  hasReusableWork : Bool
deriving DecidableEq, Repr

structure MembershipChange where
  source : ActiveComponentPartition
  targetShape : Shape
  requestedComponents : List Component
  sourceComponents : List Component
  targetComponents : List Component
  preparation : List (Component × Option Nat)
  historicalMemberships : List HistoricalMembership
  removedMembers : List String
deriving DecidableEq, Repr

def MembershipChange.changesActiveMembership (change : MembershipChange) : Bool :=
  !sameElements change.sourceComponents change.targetComponents

def meets (nodes : List String) (members : Component) : Bool := members.any fun node => node ∈ nodes

def historyLe (left right : HistoricalMembership) : Bool :=
  left.shapeId < right.shapeId || (left.shapeId == right.shapeId
    && (decide (left.members < right.members)
      || (left.members == right.members && left.alignmentGeneration ≤ right.alignmentGeneration)))

def historicalIdentity (item : HistoricalMembership) : Component × Nat × Nat :=
  (item.members, item.shapeId, item.alignmentGeneration)

def orderedHistory (history : List HistoricalMembership) : Result (List HistoricalMembership) := do
  require (decide (history.map historicalIdentity).Nodup)
    (.value "Historical membership observations contain duplicate identities")
  return history.insertionSort fun left right => historyLe left right

structure Region where
  target : List Component
  active : List Component
  reusable : List HistoricalMembership
deriving DecidableEq, Repr

namespace Region

def nodes (region : Region) : List String :=
  region.target.flatten ++ region.active.flatten ++ (region.reusable.map HistoricalMembership.members).flatten

def size (region : Region) : Nat := region.target.length + region.active.length + region.reusable.length

def grow (targets established : List Component) (history : List HistoricalMembership) (region : Region) : Region :=
  let active := established.filter fun item => item ∈ region.active || meets region.nodes item
  let withActive := region.nodes ++ active.flatten
  let reusable := history.filter fun item =>
    item ∈ region.reusable || (item.hasReusableWork && meets withActive item.members)
  let withWork := withActive ++ (reusable.map HistoricalMembership.members).flatten
  ⟨targets.filter fun item => item ∈ region.target || meets withWork item, active, reusable⟩

-- Every round but the last adds a member, so the candidates bound the rounds.
def close (targets established : List Component) (history : List HistoricalMembership) : Nat → Region → Region
  | 0, region => region
  | fuel + 1, region =>
      let next := region.grow targets established history
      if next.size = region.size then next else close targets established history fuel next

end Region

def generationFloor (history : List HistoricalMembership) (members : Component) : Option Nat :=
  ((history.filter fun item => meets item.members members).map HistoricalMembership.alignmentGeneration).max?

def observeMembershipChange (active : ActiveComponentPartition) (shape : Shape) (requested : List Component)
    (historical : List HistoricalMembership) : Result MembershipChange := do
  let targets ← snapshotOr shape (.value "Invalid producing graph shape")
  let requested ← collect (normalizedMembers "Requested membership") requested
  require (decide requested.Nodup) (.value "Requested membership contains duplicate components")
  require (!requested.isEmpty && requested.all fun item => item ∈ targets)
    (.value "Requested components must belong to the target graph")
  let history ← orderedHistory historical
  let established := active.components.map ActiveComponent.componentKey
  let region := Region.close targets established history (targets.length + established.length + history.length + 1)
    ⟨targets.filter fun item => item ∈ requested, [], []⟩
  let relevant := history.filter fun item => meets region.nodes item.members
  let reusableNodes := (region.reusable.map HistoricalMembership.members).flatten
  let prepared := targets.filter fun item =>
    item ∈ requested || (item ∈ region.target && meets reusableNodes item)
  return ⟨active, shape, requested, region.active.insertionSort (· ≤ ·), region.target,
    prepared.map fun item => (item, generationFloor relevant item), relevant,
    sortedDistinctNodes (region.nodes.filter fun node => node ∉ targets.flatten)⟩
where
  sortedDistinctNodes (nodes : List String) : List String := nodes.dedup.insertionSort (· ≤ ·)

def observeRemovedMemberships (active : ActiveComponentPartition) (shape : Shape)
    (historical : List HistoricalMembership) : Result MembershipChange := do
  let targets ← snapshotOr shape (.value "Removed membership observation requires a canonical target shape")
  let history ← orderedHistory historical
  let sources := (active.components.map ActiveComponent.componentKey).filter fun item =>
    !meets targets.flatten item && !history.any fun old => old.hasReusableWork && meets old.members item
  return ⟨active, shape, [], sources, [], [], history, sources.flatten.insertionSort (· ≤ ·)⟩

def expectedChange (change : MembershipChange) : Result MembershipChange :=
  if change.requestedComponents.isEmpty then
    observeRemovedMemberships change.source change.targetShape change.historicalMemberships
  else observeMembershipChange change.source change.targetShape change.requestedComponents change.historicalMemberships

def validateMembershipChange (db : Database) (change : MembershipChange) : Result Unit := do
  let current ← readActiveComponentPartition db
  require (current == some change.source) (.runtime "Active component membership changed after observation")
  match expectedChange change with
  | .error _ => throw (.runtime "Invalid observed membership change")
  | .ok expected =>
      require (expected == change) (.runtime "Membership change does not match its observations")

def memberRows (components : List Component) : List ActiveComponentMember :=
  components.flatMap fun component => component.map fun node => ⟨node, encodeComponentKey component⟩

def replacedMembership (db : Database) (source target : List Component) (revision : Nat) : Result Database := do
  let sourceKeys := source.map encodeComponentKey
  require ((db.activeComponentMembers.count fun row => row.componentKey ∈ sourceKeys)
      == (source.map List.length).sum) (.runtime "Active component members changed before replacement")
  require ((db.activeComponents.count fun row => row.componentKey ∈ sourceKeys) == source.length)
    (.runtime "Active components changed before replacement")
  let active ← orRaise ((db.activeComponents.delete fun row => row.componentKey ∈ sourceKeys).insertAll
      ((target.insertionSort (· ≤ ·)).map fun item => ⟨encodeComponentKey item, revision + 1⟩))
    (.integrity "UNIQUE constraint failed: active_components")
  let members ← orRaise ((db.activeComponentMembers.delete fun row => row.componentKey ∈ sourceKeys).insertAll
      (memberRows (target.insertionSort (· ≤ ·))))
    (.integrity "UNIQUE constraint failed: active_component_members")
  require (db.componentPartitionState == some revision)
    (.runtime "Component partition revision changed before replacement")
  return { db with
    activeComponents := active
    activeComponentMembers := members
    componentPartitionState := some (revision + 1) }

def replaceActiveComponentClosure (db : Database) (change : MembershipChange) :
    Result (ActiveComponentPartition × Database) := do
  validateMembershipChange db change
  let source := change.sourceComponents
  let target := change.targetComponents
  let known := change.source.components.map ActiveComponent.componentKey
  require (source.all fun item => item ∈ known) (.runtime "Membership replacement source is not active")
  let unaffected := known.filter fun item => item ∉ source
  refuse (target.any fun item => meets unaffected.flatten item)
    (.runtime "Membership replacement overlaps an unaffected active component")
  if sameElements source target then return (change.source, db) else
  let next ← replacedMembership db source target change.source.revision
  let result ← orRaise (← readActiveComponentPartition next)
    (.runtime "Active membership replacement did not persist exactly")
  require (result.revision == change.source.revision + 1
      && sameElements (result.components.map ActiveComponent.componentKey) (unaffected ++ target))
    (.runtime "Active membership replacement did not persist exactly")
  return (result, next)

variable {db next : Database} {change : MembershipChange} {partition : ActiveComponentPartition} {revision : Nat}

theorem replaced_membership_ok {source target : List Component}
    (replaced : replacedMembership db source target revision = .ok next) :
    ∃ active members, next = { db with
      activeComponents := active
      activeComponentMembers := members
      componentPartitionState := some (revision + 1) } := by
  simp only [replacedMembership, Lib.bind_ok, Lib.require_ok, Lib.orRaise_ok, Lib.pure_ok] at replaced
  obtain ⟨_, _, _, _, active, _, members, _, _, _, rfl⟩ := replaced
  exact ⟨active, members, rfl⟩

theorem replace_active_component_closure_ok
    (replaced : replaceActiveComponentClosure db change = .ok (partition, next)) :
    ∃ active members state, next = { db with
      activeComponents := active
      activeComponentMembers := members
      componentPartitionState := state } := by
  simp only [replaceActiveComponentClosure, Lib.bind_ok, Lib.require_ok, Lib.refuse_ok] at replaced
  obtain ⟨_, _, _, _, _, _, replaced⟩ := replaced
  split at replaced
  · rw [Lib.pure_ok] at replaced
    obtain ⟨_, rfl⟩ := Prod.mk.inj replaced
    exact ⟨db.activeComponents, db.activeComponentMembers, db.componentPartitionState, rfl⟩
  · simp only [Lib.bind_ok, Lib.orRaise_ok, Lib.require_ok, Lib.pure_ok, Prod.mk.injEq] at replaced
    obtain ⟨written, moved, _, _, _, _, _, _, _, rfl⟩ := replaced
    obtain ⟨active, members, rfl⟩ := replaced_membership_ok moved
    exact ⟨active, members, _, rfl⟩

theorem observe_membership_change_targets {active : ActiveComponentPartition} {shape : Shape}
    {requested : List Component} {history : List HistoricalMembership}
    (observed : observeMembershipChange active shape requested history = .ok change) :
    shape.wellFormed = true ∧ ∀ component ∈ change.targetComponents, component ∈ shape.hoefleinComponents := by
  simp only [observeMembershipChange, Lib.bind_ok, snapshot_or_ok, Lib.require_ok, Lib.pure_ok] at observed
  obtain ⟨_, ⟨rfl, formed⟩, _, _, _, _, _, _, ordered, _, rfl⟩ := observed
  refine ⟨formed, fun component member => ?_⟩
  have inside : ∀ fuel region, (∀ item ∈ region.target, item ∈ shape.hoefleinComponents) →
      ∀ item ∈ (Region.close shape.hoefleinComponents (active.components.map ActiveComponent.componentKey) ordered
        fuel region).target, item ∈ shape.hoefleinComponents := by
    intro fuel
    induction fuel with
    | zero => exact fun region held => held
    | succ fuel ih =>
        intro region held
        rw [Region.close]
        split
        · exact fun item listed => (List.mem_filter.mp listed).1
        · exact ih _ fun item listed => (List.mem_filter.mp listed).1
  exact inside _ _ (fun item listed => (List.mem_filter.mp listed).1) component member

end MicroWorkflow
