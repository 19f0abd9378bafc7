import MicroWorkflow.RecordPreservation

set_option autoImplicit false

namespace MicroWorkflow

open Lib (require refuse orRaise each collect thread Table)

variable {db next : Database}

section Preparation

theorem apply_job_preparation_frame {preparations : List NodeJobPreparation} {keepTrace : Bool} {eventTime : Timestamp}
    (applied : applyJobPreparation db preparations keepTrace eventTime = .ok next) : RecordFrame db next := by
  simp only [applyJobPreparation, Lib.bind_ok] at applied
  obtain ⟨_, _, threaded⟩ := applied
  refine RecordFrame.thread (fun current after plan _ step => ?_) threaded
  simp only [applyNodePreparation, Lib.bind_ok, Lib.pure_ok] at step
  obtain ⟨_, _, _, _, _, _, rfl⟩ := step
  exact ⟨rfl, rfl, rfl, rfl, id⟩

theorem realigned_good {component : Component} {shapeId generation : Nat} {row : ComponentState}
    (defined : Defined db component shapeId) (keyed : row.componentKey = component) :
    GoodState db (realigned shapeId generation row) :=
  ⟨keyed ▸ defined, none, .nothing rfl rfl, ⟨rfl, rfl⟩, rfl, rfl⟩

theorem find_shape_found {shape : Shape} {row : GraphShape} (located : findShape db shape = some row) :
    row ∈ db.graphShapes.rows ∧ row.shapeJson = shape :=
  ⟨List.mem_of_find?_eq_some located, by simpa using List.find?_some located⟩

theorem defined_shape_id_ok {key : Component} {shape : Shape} {shapeId : Nat} (held : RecordInvariant db)
    (read : definedShapeId db key shape = some shapeId) : Defined db key shapeId := by
  simp only [definedShapeId, Option.bind_eq_bind, Option.bind_eq_some_iff, Option.ite_none_right_eq_some,
    Option.some.injEq] at read
  obtain ⟨row, _, recorded, rfl⟩ := read
  obtain ⟨definition, found⟩ := Option.isSome_iff_exists.mp recorded
  have keyed := Table.find_key found
  simp only [ComponentDefinition.key, Prod.mk.injEq] at keyed
  have defined := held.definitions definition (Table.find_mem found)
  rw [keyed.1, keyed.2] at defined
  exact defined

theorem complete_component_preparation_preserved {request : FullPreparation} {generation : Nat}
    (held : RecordInvariant db) (done : completeComponentPreparation db request = .ok (generation, next)) :
    Preserved db next := by
  simp only [completeComponentPreparation, Lib.bind_ok, Lib.orRaise_ok, Lib.pure_ok, Prod.mk.injEq] at done
  obtain ⟨members, _, _, _, _, _, state, _, _, _, target, found, _, _, prepared, applied, states, changed, _, rfl⟩ := done
  have frame := apply_job_preparation_frame applied
  have defined := (defined_shape_id_ok held found).keep frame.keeps
  have first := frame.preserved held
  refine first.trans (state_written_preserved first.invariant changed ⟨rfl, rfl, rfl, rfl, id⟩ ?_)
  intro row _ keyed same
  simp only [unchangedSnapshot, Bool.and_eq_true, beq_iff_eq] at same
  exact ⟨realigned_good defined keyed, by rw [same.2]; exact Nat.le_succ _⟩

theorem fail_running_component_preserved {failure : ComponentFailure} (held : RecordInvariant db)
    (failed : failRunningComponent db failure = .ok next) : Preserved db next := by
  simp only [failRunningComponent, Lib.bind_ok, Lib.pure_ok] at failed
  obtain ⟨key, _, _, _, _, _, _, _, row, _, _, _, shape, _, _, _, _, _, _, _, states, changed, rfl⟩ := failed
  refine state_written_preserved held changed ⟨rfl, rfl, rfl, rfl, id⟩ fun current member _ _ => ⟨?_, le_refl _⟩
  have was := held.states current member
  obtain ⟨retained, retains, _⟩ := was.retains
  exact ⟨was.defined, retained, retains.moved rfl rfl rfl rfl, rfl, rfl⟩

theorem misaligned_good {row : ComponentState} (finished : row.lifecycle = .done ∨ row.lifecycle = .sampled ∨
    row.lifecycle = .failed) (was : GoodState db row) : GoodState db { row with misaligned := true } := by
  obtain ⟨retained, retains, agrees⟩ := was.retains
  refine ⟨was.defined, retained, retains.moved rfl rfl rfl rfl, ?_⟩
  rcases finished with done | sampled | failed
  · simp only [LifecycleAgrees, done] at agrees ⊢
    exact agrees
  · simp only [LifecycleAgrees, sampled] at agrees ⊢
    exact agrees
  · simp only [LifecycleAgrees, failed] at agrees ⊢
    exact agrees

theorem mark_component_arrival_preserved {causes : ArrivalCauses} {arrival : Arrival} (held : RecordInvariant db)
    (marked : markComponentArrival causes db arrival = .ok next) : Preserved db next := by
  simp only [markComponentArrival] at marked
  split at marked
  · exact Except.ok.inj marked ▸ Preserved.refl held
  simp only [Lib.bind_ok] at marked
  obtain ⟨receivers, _, marked⟩ := marked
  split at marked
  · exact Except.ok.inj marked ▸ Preserved.refl held
  split at marked
  · exact Except.ok.inj marked ▸ Preserved.refl held
  simp only [Lib.bind_ok, Lib.pure_ok] at marked
  obtain ⟨after, moved, _, _, rfl⟩ := marked
  unfold misalign at moved
  split at moved
  · exact Except.ok.inj moved ▸ Preserved.refl held
  · simp only [Lib.bind_ok, Lib.pure_ok] at moved
    obtain ⟨states, changed, rfl⟩ := moved
    refine state_written_preserved held changed ⟨rfl, rfl, rfl, rfl, id⟩ fun row member _ met => ⟨?_, le_refl _⟩
    simp only [misalignable, Bool.and_eq_true, Bool.or_eq_true, beq_iff_eq] at met
    exact misaligned_good (or_assoc.mp met.2) (held.states row member)

theorem mark_component_job_arrival_preserved {causes : ArrivalCauses} {receiver : String} {jobId : Nat}
    {shape : Option Shape} {latched : Bool} (held : RecordInvariant db)
    (marked : markComponentJobArrival causes db receiver jobId shape latched = .ok next) : Preserved db next := by
  simp only [markComponentJobArrival, Lib.bind_ok] at marked
  obtain ⟨_, _, state, _, marked⟩ := marked
  cases state with
  | none => exact Except.ok.inj marked ▸ Preserved.refl held
  | some state =>
      simp only [Lib.bind_ok] at marked
      obtain ⟨_, _, marked⟩ := marked
      exact mark_component_arrival_preserved held marked

theorem mark_component_input_arrival_preserved {causes : ArrivalCauses} {receiver : String} {owner : ExecutionOwner}
    {latched : Bool} (held : RecordInvariant db)
    (marked : markComponentInputArrival causes db receiver owner latched = .ok next) : Preserved db next := by
  simp only [markComponentInputArrival, Lib.bind_ok] at marked
  obtain ⟨_, _, _, _, _, _, marked⟩ := marked
  exact mark_component_arrival_preserved held marked

theorem mark_component_preparation_change_preserved {causes : ArrivalCauses} {receiver : String} {latched : Bool}
    (held : RecordInvariant db) (marked : markComponentPreparationChange causes db receiver latched = .ok next) :
    Preserved db next := by
  simp only [markComponentPreparationChange, Lib.bind_ok] at marked
  obtain ⟨state, _, marked⟩ := marked
  cases state with
  | none => exact Except.ok.inj marked ▸ Preserved.refl held
  | some state => exact mark_component_arrival_preserved held marked

end Preparation

section Resume

def Witnessed (db : Database) (component : Component) (retained : Option SuccessfulResultObservation) : Prop :=
  ∀ observed, retained = some observed → ∃ result : ComponentSuccessfulResult,
    db.componentSuccessfulResults.find (componentKey component, result.shapeId, result.alignmentGeneration) =
      some result ∧ observed = result.observation

theorem read_resume_witnessed {component : Component} {state : ComponentStateSnapshot}
    {retained : Option SuccessfulResultObservation} (held : RecordInvariant db)
    (read : readResumeSuccessfulResult db component state = .ok retained) : Witnessed db component retained := by
  simp only [readResumeSuccessfulResult, Lib.bind_ok, Lib.orRaise_ok] at read
  obtain ⟨_, record, state, rfl, _, _, observed⟩ := read
  obtain ⟨row, result, recorded⟩ := recorded_row held record
  have same := recorded.observe held observed
  rintro _ rfl
  obtain ⟨result, rfl, rfl⟩ := Option.map_eq_some_iff.mp same.symm
  obtain ⟨key, _, member⟩ := recorded.retains.keyed
  refine ⟨result, ?_, rfl⟩
  rw [← Table.find_key recorded.found, ← key]
  exact Table.find_of_mem member

theorem resumed_state_good {component : Component} {retained : Option SuccessfulResultObservation}
    {shapeId : Nat} {state : ComponentStateSnapshot} {row : ComponentState} (witnessed : Witnessed db component retained)
    (keyed : row.componentKey = componentKey component) (met : failedAsRead shapeId state retained row = true)
    (was : GoodState db row) : GoodState db (resumedState retained row) := by
  simp only [failedAsRead, Bool.and_eq_true, beq_iff_eq, Bool.not_eq_true'] at met
  obtain ⟨⟨⟨⟨⟨⟨_, aligned⟩, _⟩, _⟩, _⟩, shape⟩, generation⟩ := met
  unfold resumedState
  split
  · rename_i restored chosen
    rw [restoredResult, Option.filter_eq_some_iff, beq_iff_eq] at chosen
    obtain ⟨result, found, rfl⟩ := witnessed restored chosen.1
    rw [chosen.1] at shape generation
    obtain ⟨kept, retains, _⟩ := was.retains
    cases retains with
    | nothing noShape _ => exact absurd (shape.symm.trans noShape) (by simp)
    | result pointed at_ stored =>
        have gen : result.alignmentGeneration = row.alignmentGeneration :=
          Option.some.inj (generation.symm.trans at_)
        rw [← keyed, gen] at found
        refine ⟨was.defined, some result, .result rfl (by rw [← gen]; rfl) found, ?_⟩
        have sampled : result.lifecycle = .sampled := chosen.2
        simp only [LifecycleAgrees, ComponentSuccessfulResult.observation, sampled]
        exact ⟨result, rfl, sampled, rfl, rfl⟩
  · exact ⟨was.defined, none, .nothing rfl rfl, ⟨rfl, rfl⟩, aligned, rfl⟩

theorem resumed_state_generation (retained : Option SuccessfulResultObservation) (row : ComponentState) :
    (resumedState retained row).alignmentGeneration = row.alignmentGeneration := by
  unfold resumedState
  split <;> rfl

theorem validate_resume_witnessed {request : ResumePreparation} (held : RecordInvariant db)
    (valid : validateResume db request = .ok ()) : ∀ entry ∈ request.expectedStates, Witnessed db entry.1
      ((request.successfulResults.find? fun result => result.1 = entry.1).bind Prod.snd) := by
  simp only [validateResume, Lib.bind_ok] at valid
  obtain ⟨_, components, _⟩ := valid
  intro entry member
  have checked := Lib.each_ok.mp components entry member
  simp only [validateResumeComponent, Lib.bind_ok, Lib.require_ok, beq_iff_eq] at checked
  obtain ⟨_, _, _, _, _, _, _, _, _, _, retained, read, _, same, _⟩ := checked
  rw [same]
  exact read_resume_witnessed held read

theorem resume_component_preserved {request : ResumePreparation} {entry : Component × ComponentStateSnapshot}
    (held : RecordInvariant db) (witnessed : Witnessed db entry.1
      ((request.successfulResults.find? fun result => result.1 = entry.1).bind Prod.snd))
    (resumed : resumeComponent request db entry = .ok next) : Preserved db next := by
  simp only [resumeComponent, Lib.bind_ok, Lib.pure_ok] at resumed
  obtain ⟨after, moved, rfl⟩ := resumed
  unfold resumeFailedState at moved
  split at moved
  · simp only [Lib.bind_ok, Lib.pure_ok] at moved
    obtain ⟨_, _, current, _, _, _, states, changed, rfl⟩ := moved
    refine state_written_preserved held changed ⟨rfl, rfl, rfl, rfl, id⟩ fun row member keyed met => ?_
    exact ⟨resumed_state_good witnessed keyed met (held.states row member),
      le_of_eq (resumed_state_generation _ row).symm⟩
  · obtain rfl := Except.ok.inj moved
    refine RecordFrame.preserved ?_ held
    exact ⟨rfl, rfl, rfl, rfl, id⟩

theorem apply_terminal_updates_frame {eventTime : Timestamp} {updates : List TerminalUpdate}
    {outcomes : List TerminalOutcome} (applied : applyTerminalUpdates db eventTime updates = .ok (outcomes, next)) :
    RecordFrame db next := by
  simp only [applyTerminalUpdates, Lib.bind_ok, Lib.pure_ok, Prod.mk.injEq] at applied
  obtain ⟨_, _, _, rfl⟩ := applied
  exact ⟨rfl, rfl, rfl, rfl, id⟩

theorem prepare_resume_components_preserved {request : ResumePreparation} {changed : Nat} (held : RecordInvariant db)
    (prepared : prepareResumeComponents db request = .ok (changed, next)) : Preserved db next := by
  simp only [prepareResumeComponents, Lib.bind_ok, Lib.pure_ok, Prod.mk.injEq] at prepared
  obtain ⟨_, _, _, _, _, valid, ⟨outcomes, settled⟩, applied, _, _, requeued, jobs, resumed, components, _, rfl⟩ :=
    prepared
  have witnessed := validate_resume_witnessed held valid
  have start : RecordFrame db (withoutTraces db request.clearTraceNodes) := ⟨rfl, rfl, rfl, rfl, id⟩
  have moved : RecordFrame settled requeued := RecordFrame.thread (fun current after job _ step => by
    simp only [resumeJob, Lib.bind_ok, Lib.pure_ok] at step
    obtain ⟨_, _, rfl⟩ := step
    exact ⟨rfl, rfl, rfl, rfl, id⟩) jobs
  have frame := (start.trans (apply_terminal_updates_frame applied)).trans moved
  have first := frame.preserved held
  have loop : Preserved requeued resumed ∧ resumed.componentSuccessfulResults = requeued.componentSuccessfulResults := by
    refine Lib.thread_invariant (motive := fun current => Preserved requeued current ∧
      current.componentSuccessfulResults = requeued.componentSuccessfulResults)
      ⟨Preserved.refl first.invariant, rfl⟩ ?_ components
    rintro current after entry member ⟨before, same⟩ step
    have still : Witnessed current entry.1
        ((request.successfulResults.find? fun result => result.1 = entry.1).bind Prod.snd) := by
      intro observed chosen
      obtain ⟨result, found, seen⟩ := witnessed entry member observed chosen
      exact ⟨result, by rw [same, frame.results]; exact found, seen⟩
    refine ⟨before.trans (resume_component_preserved before.invariant still step), ?_⟩
    simp only [resumeComponent, Lib.bind_ok, Lib.pure_ok] at step
    obtain ⟨middle, wrote, rfl⟩ := step
    unfold resumeFailedState at wrote
    split at wrote
    · simp only [Lib.bind_ok, Lib.pure_ok] at wrote
      obtain ⟨_, _, _, _, _, _, _, _, rfl⟩ := wrote
      exact same
    · exact Except.ok.inj wrote ▸ same
  have last : RecordFrame resumed (bumpRestarts resumed (restartedJobs request).length) := by
    unfold bumpRestarts
    split
    · exact RecordFrame.refl resumed
    · exact ⟨rfl, rfl, rfl, rfl, id⟩
  exact (first.trans loop.1).trans (last.preserved loop.1.invariant)

end Resume

end MicroWorkflow
