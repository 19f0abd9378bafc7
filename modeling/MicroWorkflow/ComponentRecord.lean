import MicroWorkflow.Sessions

set_option autoImplicit false

namespace MicroWorkflow

open Lib (require refuse orRaise each)

structure ComponentGenerationIdentity where
  shapeId : Nat
  alignmentGeneration : Nat
deriving DecidableEq, Repr

def componentGenerationIdentity (shapeId alignmentGeneration : Nat) : Result ComponentGenerationIdentity := do
  require (1 ≤ shapeId) (.value "Component shape ID must be a positive integer")
  return ⟨shapeId, alignmentGeneration⟩

structure SuccessfulResultObservation where
  identity : ComponentGenerationIdentity
  lifecycle : Lifecycle
  stability : Stability
  instabilityOrigin : Option String
deriving DecidableEq, Repr

abbrev ResultTriple := Lifecycle × Option Stability × Option String
abbrev Lineage := Option Stability × Option String

def SuccessfulResultObservation.result (observed : SuccessfulResultObservation) : ResultTriple :=
  (observed.lifecycle, some observed.stability, observed.instabilityOrigin)

def SuccessfulResultObservation.lineage (observed : SuccessfulResultObservation) : Lineage :=
  (some observed.stability, observed.instabilityOrigin)

structure ComponentStateRecord where
  members : Component
  identity : ComponentGenerationIdentity
  shapeJson : Shape
  lifecycle : Lifecycle
  stability : Option Stability
  instabilityOrigin : Option String
  misaligned : Bool
  retainedResultIdentity : Option ComponentGenerationIdentity
deriving DecidableEq, Repr

structure ComponentStateSnapshot where
  members : Component
  shapeJson : Shape
  lifecycle : Lifecycle
  stability : Option Stability
  instabilityOrigin : Option String
  misaligned : Bool
  alignmentGeneration : Nat
deriving DecidableEq, Repr

def ComponentStateRecord.snapshot (state : ComponentStateRecord) : ComponentStateSnapshot :=
  ⟨state.members, state.shapeJson, state.lifecycle, state.stability, state.instabilityOrigin, state.misaligned,
    state.identity.alignmentGeneration⟩

structure AdmittedComponentShape where
  shapeId : Nat
  shapeJson : Shape
  partitionRevision : Nat
deriving DecidableEq, Repr

def admittedInterruptOrigin (db : Database) (origin : String) : Bool :=
  match db.executionSessions.find origin with
  | some session => session.sessionKind == .interrupt && session.scopeAdmitted
  | none => false

def lineageIsValid (db : Database) (stability : Option Stability) (origin : Option String) : Bool :=
  match stability, origin with
  | some .stable, none => true
  | some .unstable, some session => hasText session && admittedInterruptOrigin db session
  | _, _ => false

def readSuccessfulResult (db : Database) (component : Component) (identity : ComponentGenerationIdentity) :
    Result (Option SuccessfulResultObservation) := do
  let members ← normalizedMembers "A component" component
  let key := encodeComponentKey members
  match db.componentSuccessfulResults.find (key, identity.shapeId, identity.alignmentGeneration) with
  | none => return none
  | some row =>
      let _ ← orRaise (db.componentDefinitions.find (key, row.shapeId))
        (.runtime "Retained successful result lost its historical component definition")
      let shape ← orRaise (db.graphShapes.find row.shapeId)
        (.runtime "Retained successful result lost its historical component definition")
      let producing ← snapshotOr shape.shapeJson (.runtime "Invalid retained successful result graph shape")
      require (members ∈ producing) (.runtime "Retained successful result differs from its historical component")
      require ((row.lifecycle == .sampled || row.lifecycle == .done)
          && lineageIsValid db (some row.stability) row.instabilityOrigin)
        (.runtime "Invalid retained successful component result")
      return some ⟨identity, row.lifecycle, row.stability, row.instabilityOrigin⟩

def retainedIdentity (row : ComponentState) : Result (Option ComponentGenerationIdentity) :=
  match row.retainedResultShapeId, row.retainedResultAlignmentGeneration with
  | none, none => .ok none
  | some shapeId, some generation => do
      let identity ← componentGenerationIdentity shapeId generation
      require (generation == row.alignmentGeneration)
        (.runtime "Retained component result has a different alignment generation")
      return some identity
  | _, _ => .error (.runtime "Incomplete retained component result identity")

def validLifecycle (db : Database) (row : ComponentState) : Bool :=
  let noLineage := row.stability.isNone && row.instabilityOrigin.isNone
  let resultLineage := lineageIsValid db row.stability row.instabilityOrigin
  match row.lifecycle with
  | .queued => noLineage && !row.misaligned
  | .running => noLineage || resultLineage
  | .sampled | .done => resultLineage
  | .failed => noLineage

def retainedMatches (row : ComponentState) (retained : Option SuccessfulResultObservation) : Result Unit :=
  match row.lifecycle with
  | .queued => refuse retained.isSome (.runtime "Queued component unexpectedly retains successful history")
  | .sampled | .done =>
      require (retained.map SuccessfulResultObservation.result
          == some (row.lifecycle, row.stability, row.instabilityOrigin))
        (.runtime "Component state differs from its retained successful result")
  | .running =>
      require (if row.stability.isNone && row.instabilityOrigin.isNone then retained.isNone
          else retained.map SuccessfulResultObservation.lineage == some (row.stability, row.instabilityOrigin))
        (.runtime "Running component differs from its retained successful result")
  | .failed => .ok ()

def readRetained (db : Database) (members : Component) :
    Option ComponentGenerationIdentity → Result (Option SuccessfulResultObservation)
  | none => .ok none
  | some identity => do
      let found ← orRaise (← readSuccessfulResult db members identity)
        (.runtime "Component lost its retained successful result")
      return some found

def validateWhenActive (db : Database) (members : Component) (requireActive : Bool) : Result Unit :=
  if requireActive then validateActiveMembership db members else .ok ()

def readComponentStateRecord (db : Database) (component : Component) (requireActive : Bool) :
    Result (Option ComponentStateRecord) := do
  let members ← normalizedMembers "A component" component
  let key := encodeComponentKey members
  match db.componentStates.find key with
  | none =>
      refuse (db.componentDefinitions.rows.any fun row => row.componentKey = key)
        (.runtime "Component definition has no current state")
      return none
  | some row =>
      let _ ← orRaise (db.componentDefinitions.find (key, row.shapeId))
        (.runtime "Component state has no historical definition")
      let shape ← orRaise (db.graphShapes.find row.shapeId)
        (.runtime "Component state has no historical definition")
      let producing ← snapshotOr shape.shapeJson (.runtime "Invalid component state producing shape")
      require (members ∈ producing) (.runtime "Component state differs from its historical definition")
      validateWhenActive db members requireActive
      let identity ← componentGenerationIdentity row.shapeId row.alignmentGeneration
      let retainedIdentity ← retainedIdentity row
      let retained ← readRetained db members retainedIdentity
      require (validLifecycle db row) (.runtime "Invalid component state")
      retainedMatches row retained
      return some ⟨members, identity, shape.shapeJson, row.lifecycle, row.stability, row.instabilityOrigin,
        row.misaligned, retainedIdentity⟩

def readComponentStateSnapshot (db : Database) (component : Component) : Result (Option ComponentStateSnapshot) := do
  let state ← readComponentStateRecord db (← observationComponent component) false
  return state.map ComponentStateRecord.snapshot

def readRetainedSuccessfulResult (db : Database) (state : ComponentStateRecord) :
    Result (Option SuccessfulResultObservation) :=
  readRetained db state.members state.retainedResultIdentity

def observeCurrentSuccess (db : Database) (state : ComponentStateRecord) :
    Result (Option SuccessfulResultObservation) := do
  match ← readRetainedSuccessfulResult db state with
  | some retained => return some retained
  | none =>
      refuse (state.lifecycle == .sampled || state.lifecycle == .done)
        (.runtime "Component lost its retained successful result")
      return none

def readAdmittedComponentShape (db : Database) (sessionId : String) (component : Component)
    (expectedShape : Shape) : Result AdmittedComponentShape := do
  let members ← normalizedMembers "A component" component
  let key := encodeComponentKey members
  let session ← orRaise (db.executionSessions.find sessionId)
    (.runtime "Component start requires its selected running session")
  require (session.status == .running && db.sessionComponents.contains (sessionId, key))
    (.runtime "Component start requires its selected running session")
  require ((db.componentReservations.find key).map ComponentReservation.sessionId == some sessionId)
    (.runtime "Component start requires its exact reservation")
  require (1 ≤ session.admittedShapeId) (.runtime "Component session has no admitted graph shape")
  let selected := (selectionRows db sessionId).map SessionComponent.componentKey
  require (selected.all fun stored => encodeComponentKey stored == stored)
    (.runtime "Session has a noncanonical selected component")
  let shapeJson ← validateSessionShapeSnapshot db session.admittedShapeId session.partitionRevision selected
  require (shapeJson == expectedShape) (.runtime "Component start differs from its admitted graph shape")
  let active ← orRaise (← readActiveComponentPartition db)
    (.runtime "Active component membership predates session admission")
  require (session.partitionRevision ≤ active.revision)
    (.runtime "Active component membership predates session admission")
  let established ← orRaise (active.components.find? fun item => item.componentKey = members)
    (.runtime "Selected component membership changed after session admission")
  require (established.establishedRevision ≤ session.partitionRevision)
    (.runtime "Selected component membership changed after session admission")
  validateActiveMembership db members
  require (members ∈ selected) (.runtime "Component is outside its admitted session selection")
  return ⟨session.admittedShapeId, expectedShape, session.partitionRevision⟩

def readComponentProducingIdentity (db : Database) (component : Component) : Result (Nat × Nat) := do
  let state ← orRaise (← readComponentStateSnapshot db component) (.runtime "Missing producing component state")
  let snapshot ← snapshotOr state.shapeJson (.runtime "Invalid producing component shape")
  require (component ∈ snapshot) (.runtime "Producing component does not belong to its recorded shape")
  let row ← orRaise (db.componentStates.find (encodeComponentKey component))
    (.runtime "Missing producing component state")
  return (row.shapeId, state.alignmentGeneration)

structure RecordRow (db : Database) (members : Component) (requireActive : Bool) (state : ComponentStateRecord)
    (row : ComponentState) (shape : GraphShape) (retained : Option SuccessfulResultObservation) : Prop where
  found : db.componentStates.find members = some row
  defined : db.componentDefinitions.contains (members, row.shapeId) = true
  shapeRow : db.graphShapes.find row.shapeId = some shape
  formed : shape.shapeJson.wellFormed = true
  inside : members ∈ shape.shapeJson.hoefleinComponents
  active : validateWhenActive db members requireActive = .ok ()
  positive : 1 ≤ row.shapeId
  identity : retainedIdentity row = .ok state.retainedResultIdentity
  stored : readRetained db members state.retainedResultIdentity = .ok retained
  lifecycle : validLifecycle db row = true
  agrees : retainedMatches row retained = .ok ()
  record : state = ⟨members, ⟨row.shapeId, row.alignmentGeneration⟩, shape.shapeJson, row.lifecycle, row.stability,
    row.instabilityOrigin, row.misaligned, state.retainedResultIdentity⟩

variable {db : Database} {component : Component} {requireActive : Bool} {state : ComponentStateRecord}

theorem read_component_state_record_some :
    readComponentStateRecord db component requireActive = .ok (some state) ↔
      normalizedMembers "A component" component = .ok (componentKey component) ∧
        ∃ row shape retained, RecordRow db (componentKey component) requireActive state row shape retained := by
  have key : encodeComponentKey (componentKey component) = componentKey component := component_key_idem component
  constructor
  · intro read
    unfold readComponentStateRecord at read
    rw [Lib.bind_ok] at read
    obtain ⟨members, normalized, read⟩ := read
    have canonical := normalized_members_ok normalized
    subst canonical
    dsimp only at read
    rw [key] at read
    split at read
    · simp only [Lib.bind_ok, Lib.pure_ok, reduceCtorEq, and_false, exists_false] at read
    · rename_i row found
      simp only [Lib.bind_ok, Lib.orRaise_ok, snapshot_or_ok, Lib.require_ok, decide_eq_true_eq, Lib.pure_ok,
        Option.some.injEq, componentGenerationIdentity] at read
      obtain ⟨definition, defined, shape, here, _, ⟨rfl, formed⟩, _, inside, _, active, _, ⟨_, positive, rfl⟩,
        identity, retainedIs, retained, stored, _, lifecycle, _, agrees, rfl⟩ := read
      exact ⟨normalized, row, shape, retained, found, by rw [Lib.Table.contains, defined]; rfl, here, formed, inside,
        active, positive, retainedIs, stored, lifecycle, agrees, rfl⟩
  · rintro ⟨normalized, row, shape, retained, accepted⟩
    obtain ⟨definition, defined⟩ := Option.isSome_iff_exists.mp accepted.defined
    have producing : snapshotOr shape.shapeJson (.runtime "Invalid component state producing shape") =
        .ok shape.shapeJson.hoefleinComponents := snapshot_or_ok.mpr ⟨rfl, accepted.formed⟩
    rw [accepted.record]
    simp only [readComponentStateRecord, normalized, key, accepted.found, defined, accepted.shapeRow, producing,
      accepted.active, accepted.identity, accepted.stored, accepted.lifecycle, accepted.agrees, bind, Except.bind,
      orRaise, componentGenerationIdentity, accepted.positive, accepted.inside, require, decide_true, if_true, pure,
      Except.pure]

theorem read_component_producing_identity_ok {identity : Nat × Nat}
    (read : readComponentProducingIdentity db component = .ok identity) :
    ∃ shape, db.graphShapes.find identity.1 = some shape ∧ shape.shapeJson.wellFormed = true ∧
      component ∈ shape.shapeJson.hoefleinComponents ∧
      db.componentDefinitions.contains (component, identity.1) = true := by
  simp only [readComponentProducingIdentity, readComponentStateSnapshot, Lib.bind_ok, Lib.orRaise_ok, Lib.pure_ok,
    Lib.require_ok, decide_eq_true_eq, snapshot_or_ok] at read
  obtain ⟨_, ⟨members, normalized, state, recorded, rfl⟩, snapshot, named, _, ⟨rfl, formed⟩, _, inside, row, found,
    rfl⟩ := read
  obtain ⟨state, rfl, rfl⟩ := Option.map_eq_some_iff.mp named
  have canonical := hoeflein_component_canonical inside
  rw [observation_component_ok normalized, canonical] at recorded
  obtain ⟨_, stored, shape, retained, accepted⟩ := read_component_state_record_some.mp recorded
  rw [canonical] at accepted
  have same : row = stored := by
    have here := accepted.found
    rw [encodeComponentKey, canonical] at found
    exact Option.some.inj (found.symm.trans here)
  subst same
  exact ⟨shape, accepted.shapeRow, accepted.formed, accepted.inside, accepted.defined⟩

end MicroWorkflow
