import MicroWorkflow.ComponentRecords
import MicroWorkflow.Lib.Statement

set_option autoImplicit false

namespace MicroWorkflow

open Lib (Table Run)

inductive ComponentOperation where
  | register (records : MembershipRecords) (shape : Shape)
  | begin (start : ComponentStart)
  | beginSelected (start : SelectedStart)
  | finishSuccessful (coverage : SampleCoverage) (sessionId : String) (outcome : ComponentTerminalOutcome)
      (taskParent : Option ComponentTaskParent) (settledAt : Timestamp)
  | markReady (coverage : SampleCoverage) (sessionId : String) (proposal : ComponentTerminalOutcome)
  | exit (probe : Probe) (coverage : SampleCoverage) (sessionId : String) (request : ExitRequest)
  | settle (probe : Probe) (coverage : SampleCoverage) (sessionId : String) (settlement : SessionSettlement)
  | fail (failure : ComponentFailure)
  | prepare (request : FullPreparation)
  | resume (request : ResumePreparation)
  | jobArrival (causes : ArrivalCauses) (receiver : String) (jobId : Nat) (shape : Option Shape) (latched : Bool)
  | inputArrival (causes : ArrivalCauses) (receiver : String) (owner : ExecutionOwner) (latched : Bool)
  | preparationChange (causes : ArrivalCauses) (receiver : String) (latched : Bool)
  | membershipUnit (repair : MembershipRepair)
  | finishMembership (repair : MembershipRepair)

def ComponentOperation.apply (db : Database) : ComponentOperation → Result Database
  | register records shape => registerComponentTopology records db shape
  | begin start => (beginComponentExecution db start).map Prod.snd
  | beginSelected start => (beginSelectedComponentExecution db start).map Prod.snd
  | finishSuccessful coverage sessionId outcome taskParent settledAt =>
      (finishSuccessfulComponentExecution db coverage sessionId outcome taskParent settledAt).map Prod.snd
  | markReady coverage sessionId proposal => markSelectedComponentExecutionReady db coverage sessionId proposal
  | exit probe coverage sessionId request =>
      (decideExecutionSessionExit db probe coverage sessionId request).map Prod.snd
  | settle probe coverage sessionId settlement =>
      (settleExecutionSession db probe coverage sessionId settlement).map Prod.snd
  | fail failure => failRunningComponent db failure
  | prepare request => (completeComponentPreparation db request).map Prod.snd
  | resume request => (prepareResumeComponents db request).map Prod.snd
  | jobArrival causes receiver jobId shape latched => markComponentJobArrival causes db receiver jobId shape latched
  | inputArrival causes receiver owner latched => markComponentInputArrival causes db receiver owner latched
  | preparationChange causes receiver latched => markComponentPreparationChange causes db receiver latched
  | membershipUnit repair => completeUnit db repair
  | finishMembership repair => finishMembershipPreparation db repair

-- Every other call of the store leaves the component records where they are.
inductive ComponentStep : Database → Option ComponentOperation → Database → Prop where
  | applied {db next : Database} {operation : ComponentOperation} : operation.apply db = .ok next →
      ComponentStep db (some operation) next
  | elsewhere {db next : Database} : RecordFrame db next → ComponentStep db none next

def NoComponents (db : Database) : Prop :=
  db.graphShapes.rows = [] ∧ db.componentDefinitions.rows = [] ∧ db.componentStates.rows = [] ∧
    db.componentSuccessfulResults.rows = []

def RecordAccepted (db : Database) (row : ComponentState) : Prop :=
  ∀ requireActive, validateWhenActive db row.componentKey requireActive = .ok () →
    ∃ state, readComponentStateRecord db row.componentKey requireActive = .ok (some state)

variable {start db next : Database}

theorem no_components_invariant (fresh : NoComponents db) : RecordInvariant db := by
  obtain ⟨shapes, definitions, states, results⟩ := fresh
  constructor
  · simp [shapes]
  · simp [definitions]
  · simp [results]
  · simp [states]

theorem map_snd_ok {α : Type} {done : Result (α × Database)} (mapped : done.map Prod.snd = .ok next) :
    ∃ value, done = .ok (value, next) := by
  cases done with
  | error error => exact absurd mapped (by simp [Except.map])
  | ok result =>
      obtain ⟨value, written⟩ := result
      obtain rfl := Except.ok.inj mapped
      exact ⟨value, rfl⟩

theorem component_operation_preserved {operation : ComponentOperation} (held : RecordInvariant db)
    (applied : operation.apply db = .ok next) : Preserved db next := by
  cases operation with
  | register records shape => exact register_component_topology_preserved held applied
  | begin start =>
      obtain ⟨_, begun⟩ := map_snd_ok applied
      exact begin_component_execution_preserved held begun
  | beginSelected start =>
      obtain ⟨_, begun⟩ := map_snd_ok applied
      exact begin_selected_component_execution_preserved held begun
  | finishSuccessful coverage sessionId outcome taskParent settledAt =>
      obtain ⟨_, finished⟩ := map_snd_ok applied
      exact finish_successful_component_execution_preserved held finished
  | markReady coverage sessionId proposal => exact mark_selected_ready_preserved held applied
  | exit probe coverage sessionId request =>
      obtain ⟨_, decided⟩ := map_snd_ok applied
      exact decide_execution_session_exit_preserved held decided
  | settle probe coverage sessionId settlement =>
      obtain ⟨_, settled⟩ := map_snd_ok applied
      exact settle_execution_session_preserved held settled
  | fail failure => exact fail_running_component_preserved held applied
  | prepare request =>
      obtain ⟨_, prepared⟩ := map_snd_ok applied
      exact complete_component_preparation_preserved held prepared
  | resume request =>
      obtain ⟨_, resumed⟩ := map_snd_ok applied
      exact prepare_resume_components_preserved held resumed
  | jobArrival causes receiver jobId shape latched => exact mark_component_job_arrival_preserved held applied
  | inputArrival causes receiver owner latched => exact mark_component_input_arrival_preserved held applied
  | preparationChange causes receiver latched => exact mark_component_preparation_change_preserved held applied
  | membershipUnit repair => exact complete_unit_preserved held applied
  | finishMembership repair => exact finish_membership_preparation_preserved held applied

theorem component_step_preserved {label : Option ComponentOperation} (held : RecordInvariant db)
    (step : ComponentStep db label next) : Preserved db next := by
  cases step with
  | applied accepted => exact component_operation_preserved held accepted
  | elsewhere frame => exact frame.preserved held

theorem component_run_preserved {labels : List (Option ComponentOperation)} (held : RecordInvariant start)
    (run : Run ComponentStep start labels db) : Preserved start db :=
  run.invariant (Preserved.refl held) fun before step => before.trans (component_step_preserved before.invariant step)

-- Every row of every run is readable, agrees with its retained result, and keeps or raises its alignment
-- generation in whatever follows.
theorem component_records_hold {labels : List (Option ComponentOperation)} (fresh : NoComponents start)
    (run : Run ComponentStep start labels db) :
    (∀ row ∈ db.componentStates.rows, RecordAccepted db row ∧
      ∃ retained, Retention db row retained ∧ LifecycleAgrees row retained) ∧
    ∀ (later : Database) (more : List (Option ComponentOperation)), Run ComponentStep db more later →
      Advances db later := by
  have held := (component_run_preserved (no_components_invariant fresh) run).invariant
  refine ⟨fun row member => ⟨fun _ active => GoodState.read held member active, ?_⟩, fun later more further => ?_⟩
  · exact (held.states row member).retains
  · exact (component_run_preserved held further).advances

section OneNode

def noRecords : MembershipRecords := ⟨fun _ => .ok [], fun _ _ => false⟩

def oneNodeRegistration : ComponentOperation := .register noRecords oneNodeShape

def ComponentOperation.after (db : Database) (operation : ComponentOperation) : Database :=
  Lib.valueOr (operation.apply db) db

def oneNodeRegistered : Database := oneNodeRegistration.after Database.empty

def oneNodeAdmitted : Database := { oneNodeRegistered with
  executionSessions := oneNodeProject.executionSessions
  sessionComponents := oneNodeProject.sessionComponents
  componentReservations := oneNodeProject.componentReservations }

def oneNodeBegin : ComponentOperation := .begin ⟨"s", ["a"], oneNodeShape, 0, some (some .stable, none), [], none, .queued⟩

def oneNodeFinish : ComponentOperation :=
  .finishSuccessful (fun _ _ _ _ => .ok true) "s" ⟨["a"], oneNodeShape, 0, .done, some .stable, none⟩ none 5

def oneNodeArrival : ComponentOperation := .preparationChange ⟨fun _ _ => .ok [], fun _ _ _ => .ok ()⟩ "a" true

def oneNodeCompleted : Database := oneNodeFinish.after (oneNodeBegin.after oneNodeAdmitted)

def oneNodeMisaligned : Database := oneNodeArrival.after oneNodeCompleted

theorem after_component_step {db : Database} {operation : ComponentOperation} (accepted : (operation.apply db).isOk = true) :
    ComponentStep db (some operation) (operation.after db) := .applied (Lib.ok_valueOr accepted)

-- A component is registered, begun by a session, finished and then reached by a change: its record keeps
-- the result it had.
theorem component_records_hold_one_node :
    ∃ row ∈ oneNodeMisaligned.componentStates.rows, row.lifecycle = .done ∧ row.misaligned = true ∧
      RecordAccepted oneNodeMisaligned row ∧
      ∃ retained, Retention oneNodeMisaligned row retained ∧ LifecycleAgrees row retained := by
  have registered : ComponentStep Database.empty (some oneNodeRegistration) oneNodeRegistered := after_component_step (by decide)
  have admitted : ComponentStep oneNodeRegistered none oneNodeAdmitted := by
    refine .elsewhere ⟨rfl, rfl, rfl, rfl, fun {origin} earlier => ?_⟩
    have nobody : oneNodeRegistered.executionSessions.find origin = none := rfl
    rw [admittedInterruptOrigin, nobody] at earlier
    cases earlier
  have begun := @after_component_step oneNodeAdmitted oneNodeBegin (by decide)
  have finished := @after_component_step (oneNodeBegin.after oneNodeAdmitted) oneNodeFinish (by decide)
  have reached := @after_component_step oneNodeCompleted oneNodeArrival (by decide)
  have held := component_records_hold ⟨rfl, rfl, rfl, rfl⟩
    (.snoc (.snoc (.snoc (.snoc (.snoc (.nil _) registered) admitted) begun) finished) reached)
  have ended : ∃ row ∈ oneNodeMisaligned.componentStates.rows, row.lifecycle = .done ∧ row.misaligned = true := by decide
  obtain ⟨row, member, done, misaligned⟩ := ended
  exact ⟨row, member, done, misaligned, held.1 row member⟩

end OneNode

end MicroWorkflow
