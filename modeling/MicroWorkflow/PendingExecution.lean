import MicroWorkflow.InterruptCommon

set_option autoImplicit false

namespace MicroWorkflow

open Lib (require refuse orRaise each)

structure ComponentTerminalOutcome where
  component : Component
  expectedShape : Shape
  expectedAlignmentGeneration : Nat
  lifecycle : Lifecycle
  stability : Option Stability
  instabilityOrigin : Option String
deriving DecidableEq, Repr

def outcomeLineageIsValid (stability : Option Stability) (origin : Option String) : Bool :=
  match stability, origin with
  | some .stable, none => true
  | some .unstable, some session => hasText session
  | _, _ => false

def normalizeComponentTerminalOutcome (outcome : ComponentTerminalOutcome) : Result ComponentTerminalOutcome := do
  let members ← observationComponent outcome.component
  require (match outcome.lifecycle with
      | .sampled | .done | .failed => true
      | .queued | .running => false)
    (.value "A terminal component outcome must be sampled, done, or failed")
  require (match outcome.lifecycle with
      | .failed => outcome.stability.isNone && outcome.instabilityOrigin.isNone
      | _ => outcomeLineageIsValid outcome.stability outcome.instabilityOrigin)
    (.value "Invalid terminal component lineage")
  return { outcome with component := members }

def normalizeComponentTerminalOutcomes (outcomes : List ComponentTerminalOutcome) :
    Result (List ComponentTerminalOutcome) :=
  Lib.thread (fun normalized outcome => do
    let outcome ← normalizeComponentTerminalOutcome outcome
    refuse (normalized.any fun other => other.component == outcome.component)
      (.value "A component may have only one terminal outcome")
    return normalized ++ [outcome]) [] outcomes

def validatePendingComponentRow (db : Database) (row : PendingComponentExecution) : Result Unit := do
  require (1 ≤ row.shapeId && 1 ≤ row.startingShapeId && row.startingLifecycle != .running
      && (match row.executionKind with
        | .full => row.startingLifecycle == .queued && !row.startingMisaligned
        | .resume => row.startingLifecycle == .sampled && !row.startingMisaligned
        | .jobs => true)
      && !(row.startingLifecycle == .queued && row.startingMisaligned))
    (.runtime "Invalid pending component execution kind or starting state")
  require (outcomeLineageIsValid (some row.stability) row.instabilityOrigin)
    (.runtime "Invalid pending component completion lineage")
  require (match row.instabilityOrigin with
      | none => true
      | some origin => admittedInterruptOrigin db origin)
    (.runtime "A pending component requires an admitted interrupt origin")
  require (db.componentDefinitions.contains (row.componentKey, row.shapeId)
      && db.componentDefinitions.contains (row.componentKey, row.startingShapeId))
    (.runtime "Pending component execution has an invalid historical shape")

def reservationOwner (db : Database) (key : Component) : Option String :=
  (db.componentReservations.find key).map ComponentReservation.sessionId

def pendingWithShape (db : Database) (sessionId : String) (key : Component) :
    Option (PendingComponentExecution × Shape) := do
  let row ← db.pendingComponentExecutions.find (sessionId, key)
  let shape ← db.graphShapes.find row.shapeId
  return (row, shape.shapeJson)

def validateComponentTerminalOutcome (db : Database) (sessionId : String) (outcome : ComponentTerminalOutcome) :
    Result Unit := do
  let key := encodeComponentKey outcome.component
  require (sessionRunning db sessionId && reservationOwner db key == some sessionId
      && db.sessionComponents.contains (sessionId, key))
    (.runtime "Component settlement requires its selected running owner and reservation")
  let admitted ← readAdmittedComponentShape db sessionId outcome.component outcome.expectedShape
  let (pending, shapeJson) ← orRaise (pendingWithShape db sessionId key)
    (.runtime "Component settlement requires its matching pending execution")
  require (shapeJson == outcome.expectedShape && pending.shapeId == admitted.shapeId
      && pending.alignmentGeneration == outcome.expectedAlignmentGeneration)
    (.runtime "Component settlement requires its matching pending execution")
  validatePendingComponentRow db pending
  refuse (outcome.lifecycle == .sampled && pending.executionKind != .jobs)
    (.runtime "Only selected execution may settle as sampled")
  refuse (outcome.lifecycle != .failed
      && (some pending.stability, pending.instabilityOrigin) != (outcome.stability, outcome.instabilityOrigin))
    (.runtime "Component completion cannot replace recorded successful lineage")
  let state ← orRaise (← readComponentStateRecord db outcome.component true)
    (.runtime "Incomplete component state or producing graph shape")
  require (state.identity == ⟨pending.shapeId, outcome.expectedAlignmentGeneration⟩
      && state.lifecycle == .running && state.misaligned == pending.startingMisaligned)
    (.runtime "Component settlement requires the expected aligned running state")
  if pending.executionKind == .resume then
    require ((state.stability, state.instabilityOrigin) == (some pending.stability, pending.instabilityOrigin))
      (.runtime "Sampled resume lost its retained successful lineage")
    let retained ← readRetainedSuccessfulResult db state
    require (retained.map SuccessfulResultObservation.result
        == some (.sampled, some pending.stability, pending.instabilityOrigin))
      (.runtime "Sampled resume lost its retained successful result")
  if outcome.lifecycle != .failed then
    refuse (state.stability.isSome
        && (state.stability, state.instabilityOrigin) != (outcome.stability, outcome.instabilityOrigin))
      (.runtime "Component settlement cannot replace retained successful lineage")
    require (match outcome.instabilityOrigin with
        | none => true
        | some origin => admittedInterruptOrigin db origin)
      (.runtime "An unstable component requires an admitted interrupt origin")

def validateComponentTerminalOutcomes (db : Database) (sessionId : String)
    (outcomes : List ComponentTerminalOutcome) : Result Unit :=
  each (validateComponentTerminalOutcome db sessionId) outcomes

def mayOweWork (row : Job) : Bool :=
  row.status == .failed || row.status == .cancelled || row.restartRequestedAt.isSome
    || (0 < row.generation && (row.activeExecutionId.isSome || row.status == .queued))

def unfinishedJob (db : Database) (sessionId : String) (component : Component) (row : Job) :
    Result (Option JobAddress) := do
  let observed ← jobOwnerObservationFromRow db row
  match observed.owner with
  | none => return none
  | some owner =>
      if owner.sessionId != sessionId || owner.componentKey != component then return none else
      let claimed ← if row.status == .queued || row.status == .running then isClaimedComponentRestart db observed owner
        else pure false
      if claimed then return some row.address else
      if row.status == .running then return none else
      refuse observed.activeExecutionId.isSome (.runtime "Unfinished component work still has an active execution")
      if row.status == .queued then
        let expected ← readOwnedRestart db row.nodeName row.jobId sessionId component
        return expected.map fun _ => row.address
      else return some row.address

def readPendingComponentWork (db : Database) (sessionId : String) (component : Component) :
    Result (List JobAddress) := do
  match db.pendingComponentExecutions.find (sessionId, encodeComponentKey component) with
  | none => return []
  | some pending =>
      let shape ← orRaise (db.graphShapes.find pending.shapeId)
        (.runtime "Component start differs from its admitted graph shape")
      validateComponentTerminalOutcomes db sessionId
        [⟨component, shape.shapeJson, pending.alignmentGeneration, .done, some pending.stability,
          pending.instabilityOrigin⟩]
      let unfinished ← Lib.collect (unfinishedJob db sessionId component)
        (component.flatMap fun node => db.jobs.select fun row => row.nodeName = node && mayOweWork row)
      return unfinished.filterMap id

variable {db : Database} {sessionId : String} {component : Component} {row : Job}

theorem read_pending_component_work_nil :
    readPendingComponentWork db sessionId component = .ok [] ↔
      (∀ pending, db.pendingComponentExecutions.find (sessionId, encodeComponentKey component) = some pending →
        ∃ shape, db.graphShapes.find pending.shapeId = some shape ∧
          validateComponentTerminalOutcomes db sessionId
            [⟨component, shape.shapeJson, pending.alignmentGeneration, .done, some pending.stability,
              pending.instabilityOrigin⟩] = .ok () ∧
          ∀ row ∈ db.jobs.rows, row.nodeName ∈ component → mayOweWork row = true →
            unfinishedJob db sessionId component row = .ok none) := by
  unfold readPendingComponentWork
  cases found : db.pendingComponentExecutions.find (sessionId, encodeComponentKey component) with
  | none => simp
  | some pending =>
      have scanned : ∀ row, row ∈ (component.flatMap fun node =>
          db.jobs.select fun row => row.nodeName = node && mayOweWork row) ↔
            row ∈ db.jobs.rows ∧ row.nodeName ∈ component ∧ mayOweWork row = true := by
        intro row
        simp only [List.mem_flatMap, Lib.Table.mem_select, Bool.and_eq_true, decide_eq_true_eq]
        constructor
        · rintro ⟨node, inside, member, rfl, owes⟩
          exact ⟨member, inside, owes⟩
        · rintro ⟨member, inside, owes⟩
          exact ⟨row.nodeName, inside, member, rfl, owes⟩
      simp only [Lib.bind_ok, Lib.orRaise_ok, Lib.pure_ok, Option.some.injEq, forall_eq']
      constructor
      · rintro ⟨shape, here, _, valid, unfinished, collected, nothing⟩
        refine ⟨shape, here, valid, fun row member inside owes => ?_⟩
        obtain ⟨outcome, kept, judged⟩ := (Lib.mem_of_collect collected).2 row ((scanned row).mpr ⟨member, inside, owes⟩)
        cases outcome with
        | none => exact judged
        | some item =>
            have listed : item ∈ unfinished.filterMap id := List.mem_filterMap.mpr ⟨some item, kept, rfl⟩
            rw [nothing] at listed
            exact absurd listed List.not_mem_nil
      · rintro ⟨shape, here, valid, idle⟩
        have total : ∀ row ∈ component.flatMap fun node =>
            db.jobs.select fun row => row.nodeName = node && mayOweWork row,
            unfinishedJob db sessionId component row = .ok none := by
          intro row listed
          obtain ⟨member, inside, owes⟩ := (scanned row).mp listed
          exact idle row member inside owes
        obtain ⟨unfinished, collected⟩ := Lib.collect_total fun row listed => ⟨none, total row listed⟩
        refine ⟨shape, here, (), valid, unfinished, collected, ?_⟩
        rw [List.filterMap_eq_nil_iff]
        intro outcome kept
        obtain ⟨row, listed, judged⟩ := (Lib.mem_of_collect collected).1 outcome kept
        rw [total row listed, Except.ok.injEq] at judged
        exact judged ▸ rfl

theorem accepted_restart_unfinished {observed : JobOwnerObservation} {owner : ExecutionOwner} {event : JobEvent}
    {restart : OwnedRestart} (accepted : AcceptedRestart db sessionId component row observed owner event)
    (read : readOwnedRestart db row.nodeName row.jobId sessionId component = .ok (some restart)) :
    mayOweWork row = true ∧ unfinishedJob db sessionId component row ≠ .ok none := by
  obtain ⟨generation, _, active, _⟩ := observation_row accepted.seen
  have raised := accepted.raised
  have positive : 0 < row.generation := by omega
  constructor
  · simp [mayOweWork, accepted.queued, positive]
  · have apart : (owner.generation != observed.generation) = true := by
      rw [generation]
      simp only [bne_iff_ne, ne_eq]
      omega
    have unclaimed : isClaimedComponentRestart db observed owner = .ok false := by
      simp [isClaimedComponentRestart, apart, pure, Except.pure]
    intro finished
    simp [unfinishedJob, accepted.seen, accepted.owned, accepted.session, accepted.scope, accepted.queued, unclaimed,
      active, accepted.inactive, read, Lib.refuse, bind, Except.bind, pure, Except.pure] at finished

end MicroWorkflow
