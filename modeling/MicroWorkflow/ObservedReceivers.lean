import MicroWorkflow.MisalignmentCauses

set_option autoImplicit false

namespace MicroWorkflow

open Lib (require refuse orRaise each Table)

variable {db : Database}

section Tables

structure PublishedTables where
  jobs : Table Job.address
  jobInstances : Table JobInstance.address
  jobEvents : List JobEvent
  nodes : Table NodeRow.nodeName
  componentStates : Table ComponentState.componentKey
  idempotency : Table IdempotencyRow.key
  jobSequences : Table JobSequence.nodeName

def Database.withTables (db : Database) (tables : PublishedTables) : Database :=
  { db with
    jobs := tables.jobs
    jobInstances := tables.jobInstances
    jobEvents := tables.jobEvents
    nodes := tables.nodes
    componentStates := tables.componentStates
    idempotency := tables.idempotency
    jobSequences := tables.jobSequences }

def misaligning (chosen : Bool) (row : ComponentState) : ComponentState :=
  { row with misaligned := row.misaligned || chosen }

structure StatesMisaligned (marked : Component → Bool) (states next : Table ComponentState.componentKey) : Prop where
  found : ∀ key, next.find key = (states.find key).map (misaligning (marked key))
  opened : ∀ key row, marked key = true → states.find key = some row → row.lifecycle ≠ .queued

def ComponentStateRecord.misalign (marked : Component → Bool) (record : ComponentStateRecord) : ComponentStateRecord :=
  { record with misaligned := record.misaligned || marked (encodeComponentKey record.members) }

def ComponentStateSnapshot.misalign (marked : Component → Bool) (state : ComponentStateSnapshot) :
    ComponentStateSnapshot :=
  { state with misaligned := state.misaligned || marked (encodeComponentKey state.members) }

def ObservedReceiver.misalign (marked : Component → Bool) (observed : ObservedReceiver) : ObservedReceiver :=
  { observed with state := observed.state.misalign marked }

variable {tables : PublishedTables} {marked : Component → Bool}

theorem valid_lifecycle_misaligning {row : ComponentState} {chosen : Bool}
    (opened : chosen = true → row.lifecycle ≠ .queued) :
    validLifecycle db (misaligning chosen row) = validLifecycle db row := by
  cases chosen with
  | false => simp [misaligning]
  | true =>
      have other := opened rfl
      cases life : row.lifecycle with
      | queued => exact absurd life other
      | running => simp [validLifecycle, misaligning, life]
      | sampled => simp [validLifecycle, misaligning, life]
      | done => simp [validLifecycle, misaligning, life]
      | failed => simp [validLifecycle, misaligning, life]

theorem read_record_misaligned (states : StatesMisaligned marked db.componentStates tables.componentStates)
    (component : Component) (requireActive : Bool) :
    readComponentStateRecord (db.withTables tables) component requireActive =
      (readComponentStateRecord db component requireActive).map
        (Option.map (ComponentStateRecord.misalign marked)) := by
  unfold readComponentStateRecord
  rw [Lib.map_bind]
  congr 1
  funext members
  have here : (db.withTables tables).componentStates.find (encodeComponentKey members) =
      (db.componentStates.find (encodeComponentKey members)).map (misaligning (marked (encodeComponentKey members))) :=
    states.found _
  dsimp only
  rw [here]
  cases found : db.componentStates.find (encodeComponentKey members) with
  | none =>
      simp only [Option.map_none, Lib.map_bind]
      rfl
  | some row =>
      have opened : marked (encodeComponentKey members) = true → row.lifecycle ≠ .queued :=
        fun chosen => states.opened _ _ chosen found
      have same : validLifecycle db (misaligning _ row) = validLifecycle db row := valid_lifecycle_misaligning opened
      simp only [Option.map_some, Lib.map_bind]
      rw [← same]
      rfl

theorem read_snapshot_misaligned (states : StatesMisaligned marked db.componentStates tables.componentStates)
    (component : Component) :
    readComponentStateSnapshot (db.withTables tables) component =
      (readComponentStateSnapshot db component).map (Option.map (ComponentStateSnapshot.misalign marked)) := by
  unfold readComponentStateSnapshot
  rw [Lib.map_bind]
  congr 1
  funext members
  rw [read_record_misaligned states, Lib.map_bind]
  cases readComponentStateRecord db members false with
  | error error => rfl
  | ok found => cases found <;> rfl

theorem producing_identity_misaligned (states : StatesMisaligned marked db.componentStates tables.componentStates)
    (component : Component) :
    readComponentProducingIdentity (db.withTables tables) component = readComponentProducingIdentity db component := by
  unfold readComponentProducingIdentity
  rw [read_snapshot_misaligned states]
  have here : (db.withTables tables).componentStates.find (encodeComponentKey component) =
      (db.componentStates.find (encodeComponentKey component)).map
        (misaligning (marked (encodeComponentKey component))) := states.found _
  rw [here]
  cases readComponentStateSnapshot db component with
  | error error => rfl
  | ok found =>
      cases found with
      | none => rfl
      | some state => cases db.componentStates.find (encodeComponentKey component) <;> rfl

theorem read_receiver_misaligned (states : StatesMisaligned marked db.componentStates tables.componentStates)
    (receiver : String) (expectedShape : Option Shape) :
    readJobReceiverState (db.withTables tables) receiver expectedShape =
      (readJobReceiverState db receiver expectedShape).map (Option.map (ComponentStateSnapshot.misalign marked)) := by
  unfold readJobReceiverState
  rw [Lib.map_bind]
  congr 1
  funext active
  cases active with
  | none => rfl
  | some members =>
      simp only [Lib.map_bind]
      rw [read_snapshot_misaligned states]
      congr 1
      funext _
      cases readComponentStateSnapshot db members with
      | error error => rfl
      | ok found =>
          cases found with
          | none => rfl
          | some state =>
              simp only [producing_identity_misaligned states]
              rfl

theorem observe_receiver_misaligned (states : StatesMisaligned marked db.componentStates tables.componentStates)
    (receiver : String) (expectedShape : Option Shape) :
    observeJobReceiver (db.withTables tables) receiver expectedShape =
      (observeJobReceiver db receiver expectedShape).map (Option.map (ObservedReceiver.misalign marked)) := by
  unfold observeJobReceiver
  rw [read_receiver_misaligned states]
  cases readJobReceiverState db receiver expectedShape with
  | error error => rfl
  | ok found =>
      cases found with
      | none => rfl
      | some state =>
          have same := producing_identity_misaligned states state.members
          have shown : (state.misalign marked).members = state.members := rfl
          simp only [Except.map, Option.map_some, bind, Except.bind, shown, same]
          cases readComponentProducingIdentity db state.members <;> rfl

end Tables

section Receivers

variable {receiver : String} {expectedShape : Option Shape} {observed : ObservedReceiver}

structure ReceiverRow (db : Database) (receiver : String) (observed : ObservedReceiver) (row : ComponentState)
    (shape : GraphShape) : Prop where
  inside : receiver ∈ observed.state.members
  canonical : encodeComponentKey observed.state.members = observed.state.members
  found : db.componentStates.find observed.state.members = some row
  shapeId : row.shapeId = observed.shapeId
  lifecycle : row.lifecycle = observed.state.lifecycle
  misaligned : row.misaligned = observed.state.misaligned
  generation : row.alignmentGeneration = observed.state.alignmentGeneration
  shapeRow : db.graphShapes.find observed.shapeId = some shape
  formed : shape.shapeJson.wellFormed = true
  producing : observed.state.members ∈ shape.shapeJson.hoefleinComponents

theorem read_snapshot_some {component : Component} {state : ComponentStateSnapshot}
    (read : readComponentStateSnapshot db component = .ok (some state)) :
    ∃ record row shape retained, record.snapshot = state ∧
      RecordRow db (componentKey component) false record row shape retained := by
  simp only [readComponentStateSnapshot, Lib.bind_ok, Lib.pure_ok] at read
  obtain ⟨members, normalized, found, recorded, named⟩ := read
  obtain ⟨record, rfl, same⟩ := Option.map_eq_some_iff.mp named
  rw [observation_component_ok normalized] at recorded
  obtain ⟨_, row, shape, retained, accepted⟩ := read_component_state_record_some.mp recorded
  have idem : componentKey (componentKey component) = componentKey component := component_key_idem component
  rw [idem] at accepted
  exact ⟨record, row, shape, retained, same, accepted⟩

theorem read_receiver_some {state : ComponentStateSnapshot}
    (read : readJobReceiverState db receiver expectedShape = .ok (some state)) :
    ∃ members, readActiveComponentForNode db receiver = .ok (some members) ∧
      readComponentStateSnapshot db members = .ok (some state) := by
  simp only [readJobReceiverState, Lib.bind_ok] at read
  obtain ⟨active, here, read⟩ := read
  cases active with
  | none => exact absurd read (by simp)
  | some members =>
      simp only [Lib.bind_ok, Lib.orRaise_ok, Lib.pure_ok, Option.some.injEq] at read
      obtain ⟨_, _, found, recorded, _, rfl, _, _, _, _, _, _, rfl⟩ := read
      exact ⟨members, here, recorded⟩

theorem observed_some (read : observeJobReceiver db receiver expectedShape = .ok (some observed)) :
    readJobReceiverState db receiver expectedShape = .ok (some observed.state) ∧
      ∃ generation, readComponentProducingIdentity db observed.state.members = .ok (observed.shapeId, generation) := by
  simp only [observeJobReceiver, Lib.bind_ok] at read
  obtain ⟨found, here, read⟩ := read
  cases found with
  | none => exact absurd read (by simp)
  | some state =>
      simp only [Lib.bind_ok, Lib.pure_ok, Option.some.injEq] at read
      obtain ⟨⟨shapeId, generation⟩, producing, rfl⟩ := read
      exact ⟨here, generation, producing⟩

theorem observed_row (read : observeJobReceiver db receiver expectedShape = .ok (some observed)) :
    ∃ row shape, ReceiverRow db receiver observed row shape := by
  obtain ⟨here, generation, producing⟩ := observed_some read
  obtain ⟨members, active, snapshot⟩ := read_receiver_some here
  obtain ⟨inside, canonical, _⟩ := read_active_component_for_node_ok active
  obtain ⟨record, row, shape, retained, same, accepted⟩ := read_snapshot_some snapshot
  have key : componentKey members = members := canonical
  rw [key] at accepted
  have named : observed.state.members = members := by
    rw [← same, accepted.record]
    rfl
  rw [named] at producing
  have shown : row.shapeId = observed.shapeId := by
    simp only [readComponentProducingIdentity, Lib.bind_ok, Lib.orRaise_ok, Lib.pure_ok] at producing
    obtain ⟨_, _, _, _, _, _, _, _, other, found, identity⟩ := producing
    rw [encodeComponentKey, key, accepted.found, Option.some.injEq] at found
    rw [found]
    exact (Prod.mk.inj identity).1
  refine ⟨row, shape, ?_⟩
  have record' := accepted.record
  constructor
  · rwa [named]
  · rw [named]
    exact canonical
  · rw [named]
    exact accepted.found
  · exact shown
  · rw [← same, record']
    rfl
  · rw [← same, record']
    rfl
  · rw [← same, record']
    rfl
  · rw [← shown]
    exact accepted.shapeRow
  · exact accepted.formed
  · rw [named]
    exact accepted.inside

theorem observed_unshaped {found : Option ObservedReceiver}
    (read : observeJobReceiver db receiver expectedShape = .ok found) :
    observeJobReceiver db receiver none = .ok found := by
  have plain : ∀ state, readJobReceiverState db receiver expectedShape = .ok state →
      readJobReceiverState db receiver none = .ok state := by
    intro state here
    simp only [readJobReceiverState, Lib.bind_ok] at here ⊢
    obtain ⟨active, there, here⟩ := here
    refine ⟨active, there, ?_⟩
    cases active with
    | none => exact here
    | some members =>
        simp only [Lib.bind_ok] at here ⊢
        obtain ⟨_, _, rest⟩ := here
        exact ⟨(), rfl, rest⟩
  simp only [observeJobReceiver, Lib.bind_ok] at read ⊢
  obtain ⟨state, here, rest⟩ := read
  exact ⟨state, plain state here, rest⟩

theorem observed_alike {other : String} {otherShape : Option Shape} {another : ObservedReceiver}
    (read : observeJobReceiver db receiver expectedShape = .ok (some observed))
    (also : observeJobReceiver db other otherShape = .ok (some another))
    (same : another.state.members = observed.state.members) : another = observed := by
  obtain ⟨here, _, producing⟩ := observed_some read
  obtain ⟨there, _, producingAlso⟩ := observed_some also
  obtain ⟨members, active, snapshot⟩ := read_receiver_some here
  obtain ⟨others, activeAlso, snapshotAlso⟩ := read_receiver_some there
  obtain ⟨record, _, _, _, shown, accepted⟩ := read_snapshot_some snapshot
  obtain ⟨recordAlso, _, _, _, shownAlso, acceptedAlso⟩ := read_snapshot_some snapshotAlso
  have first : observed.state.members = members := by
    rw [← shown, accepted.record]
    exact (read_active_component_for_node_ok active).2.1
  have second : another.state.members = others := by
    rw [← shownAlso, acceptedAlso.record]
    exact (read_active_component_for_node_ok activeAlso).2.1
  have equal : others = members := by rw [← second, same, first]
  rw [equal, snapshot, Except.ok.injEq, Option.some.injEq] at snapshotAlso
  rw [same, producing, Except.ok.injEq, Prod.mk.injEq] at producingAlso
  cases observed
  cases another
  simp only [ObservedReceiver.mk.injEq]
  exact ⟨producingAlso.1.symm, snapshotAlso.symm⟩

end Receivers

end MicroWorkflow
