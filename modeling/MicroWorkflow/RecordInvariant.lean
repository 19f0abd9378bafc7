import MicroWorkflow.ResumePreparation
import MicroWorkflow.MembershipPreparation
import MicroWorkflow.SessionExit

set_option autoImplicit false

namespace MicroWorkflow

open Lib (require refuse orRaise each collect thread Table)

structure Defined (db : Database) (component : Component) (shapeId : Nat) : Prop where
  positive : 1 ≤ shapeId
  recorded : db.componentDefinitions.contains (component, shapeId) = true
  produced : ∃ row, db.graphShapes.find shapeId = some row ∧ row.shapeJson.wellFormed = true ∧
    component ∈ row.shapeJson.hoefleinComponents

structure WholeShape (db : Database) (row : GraphShape) : Prop where
  positive : 1 ≤ row.shapeId
  formed : row.shapeJson.wellFormed = true
  complete : ∀ component ∈ row.shapeJson.hoefleinComponents,
    db.componentDefinitions.contains (component, row.shapeId) = true

structure GoodResult (db : Database) (row : ComponentSuccessfulResult) : Prop where
  defined : Defined db row.componentKey row.shapeId
  successful : row.lifecycle = .sampled ∨ row.lifecycle = .done
  lineage : lineageIsValid db (some row.stability) row.instabilityOrigin = true

inductive Retention (db : Database) (row : ComponentState) : Option ComponentSuccessfulResult → Prop where
  | nothing : row.retainedResultShapeId = none → row.retainedResultAlignmentGeneration = none → Retention db row none
  | result {result : ComponentSuccessfulResult} : row.retainedResultShapeId = some result.shapeId →
      row.retainedResultAlignmentGeneration = some row.alignmentGeneration →
      db.componentSuccessfulResults.find (row.componentKey, result.shapeId, row.alignmentGeneration) = some result →
      Retention db row (some result)

def NoLineage (row : ComponentState) : Prop := row.stability = none ∧ row.instabilityOrigin = none

def LineageOf (row : ComponentState) (result : ComponentSuccessfulResult) : Prop :=
  row.stability = some result.stability ∧ row.instabilityOrigin = result.instabilityOrigin

def LifecycleAgrees (row : ComponentState) (retained : Option ComponentSuccessfulResult) : Prop :=
  match row.lifecycle with
  | .queued => NoLineage row ∧ row.misaligned = false ∧ retained = none
  | .running => match retained with
      | none => NoLineage row
      | some result => LineageOf row result
  | .sampled | .done => ∃ result, retained = some result ∧ result.lifecycle = row.lifecycle ∧ LineageOf row result
  | .failed => NoLineage row

structure GoodState (db : Database) (row : ComponentState) : Prop where
  defined : Defined db row.componentKey row.shapeId
  retains : ∃ retained, Retention db row retained ∧ LifecycleAgrees row retained

structure RecordInvariant (db : Database) : Prop where
  shapes : ∀ row ∈ db.graphShapes.rows, WholeShape db row
  definitions : ∀ row ∈ db.componentDefinitions.rows, Defined db row.componentKey row.shapeId
  results : ∀ row ∈ db.componentSuccessfulResults.rows, GoodResult db row
  states : ∀ row ∈ db.componentStates.rows, GoodState db row

structure Keeps (db next : Database) : Prop where
  shapes : ∀ {shapeId row}, db.graphShapes.find shapeId = some row → next.graphShapes.find shapeId = some row
  definitions : ∀ {key}, db.componentDefinitions.contains key = true → next.componentDefinitions.contains key = true
  origins : ∀ {origin}, admittedInterruptOrigin db origin = true → admittedInterruptOrigin next origin = true

def Advances (db next : Database) : Prop :=
  ∀ component row, db.componentStates.find component = some row →
    ∃ later, next.componentStates.find component = some later ∧ row.alignmentGeneration ≤ later.alignmentGeneration

structure Preserved (db next : Database) : Prop where
  invariant : RecordInvariant next
  keeps : Keeps db next
  advances : Advances db next

section Keeping

variable {db next last : Database}

theorem Keeps.refl (db : Database) : Keeps db db := ⟨id, id, id⟩

theorem Keeps.trans (first : Keeps db next) (second : Keeps next last) : Keeps db last :=
  ⟨fun found => second.shapes (first.shapes found), fun recorded => second.definitions (first.definitions recorded),
    fun admitted => second.origins (first.origins admitted)⟩

theorem Advances.refl (db : Database) : Advances db db := fun _ row found => ⟨row, found, le_refl _⟩

theorem Preserved.trans (first : Preserved db next) (second : Preserved next last) : Preserved db last := by
  refine ⟨second.invariant, first.keeps.trans second.keeps, fun component row found => ?_⟩
  obtain ⟨middle, there, some⟩ := first.advances component row found
  obtain ⟨later, here, more⟩ := second.advances component middle there
  exact ⟨later, here, le_trans some more⟩

theorem Preserved.refl (held : RecordInvariant db) : Preserved db db := ⟨held, Keeps.refl db, Advances.refl db⟩

theorem Preserved.thread {α : Type} {action : Database → α → Result Database} {items : List α}
    (held : RecordInvariant db)
    (step : ∀ current after, ∀ item ∈ items, Preserved db current → action current item = .ok after →
      Preserved current after) (done : thread action db items = .ok next) : Preserved db next :=
  Lib.thread_invariant (Preserved.refl held)
    (fun current after item member before applied => before.trans (step current after item member before applied)) done

variable {component : Component} {shapeId : Nat}

theorem Defined.keep (keeps : Keeps db next) (defined : Defined db component shapeId) : Defined next component shapeId := by
  obtain ⟨row, found, produced⟩ := defined.produced
  exact ⟨defined.positive, keeps.definitions defined.recorded, row, keeps.shapes found, produced⟩

theorem lineage_is_valid_keep {stability : Option Stability} {origin : Option String} (keeps : Keeps db next)
    (valid : lineageIsValid db stability origin = true) : lineageIsValid next stability origin = true := by
  cases stability with
  | none => simp [lineageIsValid] at valid
  | some stability =>
      cases stability with
      | stable => cases origin with
          | none => rfl
          | some origin => simp [lineageIsValid] at valid
      | unstable => cases origin with
          | none => simp [lineageIsValid] at valid
          | some origin =>
              simp only [lineageIsValid, Bool.and_eq_true] at valid ⊢
              exact ⟨valid.1, keeps.origins valid.2⟩

theorem GoodResult.keep {row : ComponentSuccessfulResult} (keeps : Keeps db next) (good : GoodResult db row) :
    GoodResult next row :=
  ⟨good.defined.keep keeps, good.successful, lineage_is_valid_keep keeps good.lineage⟩

theorem GoodState.keep {row : ComponentState} (keeps : Keeps db next)
    (results : ∀ shapeId generation result,
      db.componentSuccessfulResults.find (row.componentKey, shapeId, generation) = some result →
        next.componentSuccessfulResults.find (row.componentKey, shapeId, generation) = some result)
    (good : GoodState db row) : GoodState next row := by
  obtain ⟨retained, points, agrees⟩ := good.retains
  refine ⟨good.defined.keep keeps, retained, ?_, agrees⟩
  cases points with
  | nothing noShape noGeneration => exact .nothing noShape noGeneration
  | result shape generation found => exact .result shape generation (results _ _ _ found)

theorem whole_defined {row : GraphShape} (whole : WholeShape db row)
    (found : db.graphShapes.find row.shapeId = some row) (inside : component ∈ row.shapeJson.hoefleinComponents) :
    Defined db component row.shapeId :=
  ⟨whole.positive, whole.complete component inside, row, found, whole.formed, inside⟩

structure RecordFrame (db next : Database) : Prop where
  shapes : next.graphShapes = db.graphShapes
  definitions : next.componentDefinitions = db.componentDefinitions
  states : next.componentStates = db.componentStates
  results : next.componentSuccessfulResults = db.componentSuccessfulResults
  origins : ∀ {origin}, admittedInterruptOrigin db origin = true → admittedInterruptOrigin next origin = true

theorem RecordFrame.trans (first : RecordFrame db next) (second : RecordFrame next last) : RecordFrame db last :=
  ⟨second.shapes.trans first.shapes, second.definitions.trans first.definitions, second.states.trans first.states,
    second.results.trans first.results, fun admitted => second.origins (first.origins admitted)⟩

theorem RecordFrame.keeps (frame : RecordFrame db next) : Keeps db next :=
  ⟨fun found => frame.shapes ▸ found, fun recorded => frame.definitions ▸ recorded, frame.origins⟩

theorem RecordFrame.preserved (frame : RecordFrame db next) (held : RecordInvariant db) : Preserved db next := by
  have keeps := frame.keeps
  refine ⟨⟨fun row member => ?_, fun row member => ?_, fun row member => ?_, fun row member => ?_⟩, keeps,
    fun component row found => ?_⟩
  · rw [frame.shapes] at member
    have whole := held.shapes row member
    exact ⟨whole.positive, whole.formed, fun component inside => keeps.definitions (whole.complete component inside)⟩
  · rw [frame.definitions] at member
    exact (held.definitions row member).keep keeps
  · rw [frame.results] at member
    exact (held.results row member).keep keeps
  · rw [frame.states] at member
    exact (held.states row member).keep keeps fun _ _ _ found => frame.results ▸ found
  · exact ⟨row, frame.states ▸ found, le_refl _⟩

theorem RecordFrame.thread {α : Type} {action : Database → α → Result Database} {items : List α}
    (step : ∀ current after, ∀ item ∈ items, action current item = .ok after → RecordFrame current after)
    (done : thread action db items = .ok next) : RecordFrame db next :=
  Lib.thread_invariant (motive := fun current => RecordFrame db current) ⟨rfl, rfl, rfl, rfl, id⟩
    (fun current after item member before applied => before.trans (step current after item member applied)) done

theorem change_state_preserved {states : Table ComponentState.componentKey} {p : ComponentState → Bool}
    {f : ComponentState → ComponentState} {keep : ∀ row, (f row).componentKey = row.componentKey} {error : Error}
    (held : RecordInvariant db) (keeps : Keeps db next)
    (changed : db.componentStates.changeOne component p f error keep = .ok states)
    (written : next.componentStates = states) (shapes : next.graphShapes = db.graphShapes)
    (definitions : next.componentDefinitions = db.componentDefinitions)
    (results : ∀ row ∈ next.componentSuccessfulResults.rows, GoodResult next row)
    (apart : ∀ other shapeId generation result, other ≠ component →
      db.componentSuccessfulResults.find (other, shapeId, generation) = some result →
        next.componentSuccessfulResults.find (other, shapeId, generation) = some result)
    (good : ∀ row ∈ db.componentStates.rows, row.componentKey = component → p row = true →
      GoodState next (f row) ∧ row.alignmentGeneration ≤ (f row).alignmentGeneration) :
    Preserved db next := by
  obtain ⟨old, found, met, here, elsewhere⟩ := Table.change_one_ok changed
  have keyed := Table.find_key found
  obtain ⟨goodNow, later⟩ := good old (Table.find_mem found) keyed met
  refine ⟨⟨fun row member => ?_, fun row member => ?_, results, fun row member => ?_⟩, keeps,
    fun other row there => ?_⟩
  · rw [shapes] at member
    have whole := held.shapes row member
    exact ⟨whole.positive, whole.formed, fun item inside => keeps.definitions (whole.complete item inside)⟩
  · rw [definitions] at member
    exact (held.definitions row member).keep keeps
  · rw [written] at member
    rcases (Table.mem_change_one changed).mp member with ⟨present, different⟩ | ⟨before, present, same, rfl⟩
    · exact (held.states row present).keep keeps fun shapeId generation result =>
        apart row.componentKey shapeId generation result different
    · have unique : before = old := Table.rows_inj present (Table.find_mem found) (same.trans keyed.symm)
      exact unique ▸ goodNow
  · rw [written]
    by_cases same : other = component
    · subst same
      rw [found, Option.some.injEq] at there
      exact ⟨f old, here, there ▸ later⟩
    · exact ⟨row, by rw [elsewhere other same, there], le_refl _⟩

end Keeping

section Reading

variable {db : Database} {component : Component} {shapeId : Nat} {row : ComponentState}
  {retained : Option ComponentSuccessfulResult}

def ComponentSuccessfulResult.identity (result : ComponentSuccessfulResult) : ComponentGenerationIdentity :=
  ⟨result.shapeId, result.alignmentGeneration⟩

def ComponentSuccessfulResult.observation (result : ComponentSuccessfulResult) : SuccessfulResultObservation :=
  ⟨result.identity, result.lifecycle, result.stability, result.instabilityOrigin⟩

theorem Defined.canonical (defined : Defined db component shapeId) : componentKey component = component := by
  obtain ⟨_, _, _, inside⟩ := defined.produced
  exact hoeflein_component_canonical inside

theorem Defined.normalized (defined : Defined db component shapeId) (label : String) :
    normalizedMembers label component = .ok component := by
  obtain ⟨_, _, formed, inside⟩ := defined.produced
  obtain ⟨present, valid⟩ := hoeflein_component_named formed inside
  have canonical := defined.canonical
  simp only [normalizedMembers, Lib.bind_ok, Lib.refuse_ok, Lib.each_ok, Lib.require_ok, Lib.pure_ok]
  refine ⟨(), by simpa using present, (), fun node member => ?_, (), by simp [canonical], canonical⟩
  simp only [validateNodeName, Lib.require_ok]
  exact valid node member

theorem Retention.keyed {result : ComponentSuccessfulResult} (points : Retention db row (some result)) :
    result.componentKey = row.componentKey ∧ result.alignmentGeneration = row.alignmentGeneration ∧
      result ∈ db.componentSuccessfulResults.rows := by
  cases points with
  | result _ _ found =>
      have keyed := Table.find_key found
      simp only [ComponentSuccessfulResult.key, Prod.mk.injEq] at keyed
      exact ⟨keyed.1, keyed.2.2, Table.find_mem found⟩

theorem retained_identity_of (held : RecordInvariant db) (points : Retention db row retained) :
    retainedIdentity row = .ok (retained.map ComponentSuccessfulResult.identity) := by
  cases points with
  | nothing noShape noGeneration => simp only [retainedIdentity, noShape, noGeneration, Option.map_none]
  | @result result shape generation found =>
      have keyed := (Retention.result shape generation found).keyed
      have positive := (held.results result keyed.2.2).defined.positive
      simp only [retainedIdentity, shape, generation, componentGenerationIdentity, bind, Except.bind, Lib.require,
        positive, decide_true, if_true, beq_self_eq_true, pure, Except.pure, Option.map_some,
        ComponentSuccessfulResult.identity, keyed.2.1]

theorem read_retained_of (held : RecordInvariant db) (points : Retention db row retained) :
    readRetained db row.componentKey (retained.map ComponentSuccessfulResult.identity) =
      .ok (retained.map ComponentSuccessfulResult.observation) := by
  cases retained with
  | none => rfl
  | some result =>
      obtain ⟨key, generation, member⟩ := points.keyed
      have good := held.results result member
      have defined := key ▸ good.defined
      obtain ⟨shape, here, formed, inside⟩ := defined.produced
      obtain ⟨definition, recorded⟩ := Option.isSome_iff_exists.mp defined.recorded
      have found : db.componentSuccessfulResults.find
          (row.componentKey, result.shapeId, result.alignmentGeneration) = some result := by
        rw [← key]
        exact Table.find_of_mem member
      have producing : snapshotOr shape.shapeJson (.runtime "Invalid retained successful result graph shape") =
          .ok shape.shapeJson.hoefleinComponents := snapshot_or_ok.mpr ⟨rfl, formed⟩
      have successful : (result.lifecycle == .sampled || result.lifecycle == .done) = true := by
        rcases good.successful with sampled | done
        · simp [sampled]
        · simp [done]
      simp only [readRetained, readSuccessfulResult, defined.normalized, encodeComponentKey, defined.canonical,
        ComponentSuccessfulResult.identity, found, recorded, here, producing, inside, successful, good.lineage, bind,
        Except.bind, orRaise, Lib.require, decide_true, Bool.and_self, if_true, pure, Except.pure, Option.map_some,
        ComponentSuccessfulResult.observation]

theorem LifecycleAgrees.valid (held : RecordInvariant db) (points : Retention db row retained)
    (agrees : LifecycleAgrees row retained) : validLifecycle db row = true ∧
      retainedMatches row (retained.map ComponentSuccessfulResult.observation) = .ok () := by
  have lineage : ∀ result, retained = some result →
      lineageIsValid db (some result.stability) result.instabilityOrigin = true := by
    rintro result rfl
    exact (held.results result points.keyed.2.2).lineage
  cases lifecycle : row.lifecycle with
  | queued =>
      simp only [LifecycleAgrees, lifecycle, NoLineage] at agrees
      obtain ⟨⟨stability, origin⟩, aligned, rfl⟩ := agrees
      simp [validLifecycle, retainedMatches, lifecycle, stability, origin, aligned, Lib.refuse]
  | running =>
      cases retained with
      | none =>
          simp only [LifecycleAgrees, lifecycle, NoLineage] at agrees
          simp [validLifecycle, retainedMatches, lifecycle, agrees.1, agrees.2, Lib.require]
      | some result =>
          simp only [LifecycleAgrees, lifecycle] at agrees
          have valid := lineage result rfl
          simp [validLifecycle, retainedMatches, lifecycle, valid, agrees.1, agrees.2, Lib.require,
            ComponentSuccessfulResult.observation, SuccessfulResultObservation.lineage]
  | sampled =>
      simp only [LifecycleAgrees, lifecycle] at agrees
      obtain ⟨result, rfl, same, agrees⟩ := agrees
      have valid := lineage result rfl
      simp [validLifecycle, retainedMatches, lifecycle, valid, same, agrees.1, agrees.2, Lib.require,
        ComponentSuccessfulResult.observation, SuccessfulResultObservation.result]
  | done =>
      simp only [LifecycleAgrees, lifecycle] at agrees
      obtain ⟨result, rfl, same, agrees⟩ := agrees
      have valid := lineage result rfl
      simp [validLifecycle, retainedMatches, lifecycle, valid, same, agrees.1, agrees.2, Lib.require,
        ComponentSuccessfulResult.observation, SuccessfulResultObservation.result]
  | failed =>
      simp only [LifecycleAgrees, lifecycle, NoLineage] at agrees
      simp [validLifecycle, retainedMatches, lifecycle, agrees.1, agrees.2]

theorem GoodState.read (held : RecordInvariant db) (member : row ∈ db.componentStates.rows) {requireActive : Bool}
    (active : validateWhenActive db row.componentKey requireActive = .ok ()) :
    ∃ state, readComponentStateRecord db row.componentKey requireActive = .ok (some state) := by
  have good := held.states row member
  obtain ⟨retained, points, agrees⟩ := good.retains
  obtain ⟨shape, here, formed, inside⟩ := good.defined.produced
  obtain ⟨valid, matched⟩ := agrees.valid held points
  have canonical := good.defined.canonical
  let state : ComponentStateRecord := ⟨row.componentKey, ⟨row.shapeId, row.alignmentGeneration⟩, shape.shapeJson,
    row.lifecycle, row.stability, row.instabilityOrigin, row.misaligned, retained.map ComponentSuccessfulResult.identity⟩
  refine ⟨state, read_component_state_record_some.mpr ⟨?_, row, shape,
    retained.map ComponentSuccessfulResult.observation, ?_⟩⟩
  · rw [canonical]
    exact good.defined.normalized _
  · rw [canonical]
    exact ⟨Table.find_of_mem member, good.defined.recorded, here, formed, inside, active, good.defined.positive,
      retained_identity_of held points, read_retained_of held points, valid, matched, rfl⟩

end Reading

end MicroWorkflow
