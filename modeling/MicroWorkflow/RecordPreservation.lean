import MicroWorkflow.RecordInvariant

set_option autoImplicit false

namespace MicroWorkflow

open Lib (require refuse orRaise each collect thread Table)

section Observed

variable {db next : Database} {component : Component} {state : ComponentStateRecord} {requireActive : Bool}

structure RecordedRow (db : Database) (component : Component) (state : ComponentStateRecord) (row : ComponentState)
    (retained : Option ComponentSuccessfulResult) : Prop where
  found : db.componentStates.find (componentKey component) = some row
  retains : Retention db row retained
  agrees : LifecycleAgrees row retained
  members : state.members = row.componentKey
  identity : state.identity = ⟨row.shapeId, row.alignmentGeneration⟩
  lifecycle : state.lifecycle = row.lifecycle
  lineage : state.stability = row.stability ∧ state.instabilityOrigin = row.instabilityOrigin
  misaligned : state.misaligned = row.misaligned
  pointer : state.retainedResultIdentity = retained.map ComponentSuccessfulResult.identity

theorem recorded_row (held : RecordInvariant db)
    (read : readComponentStateRecord db component requireActive = .ok (some state)) :
    ∃ row retained, RecordedRow db component state row retained := by
  obtain ⟨_, row, shape, _, accepted⟩ := read_component_state_record_some.mp read
  have member := Table.find_mem accepted.found
  obtain ⟨retained, retains, agrees⟩ := (held.states row member).retains
  have identity := accepted.identity
  rw [retained_identity_of held retains, Except.ok.injEq] at identity
  have keyed := Table.find_key accepted.found
  refine ⟨row, retained, accepted.found, retains, agrees, ?_, ?_, ?_, ?_, ?_, identity.symm⟩
  · rw [accepted.record, keyed]
  · rw [accepted.record]
  · rw [accepted.record]
  · rw [accepted.record]
    exact ⟨rfl, rfl⟩
  · rw [accepted.record]

theorem RecordedRow.read_retained {row : ComponentState} {retained : Option ComponentSuccessfulResult}
    (held : RecordInvariant db) (recorded : RecordedRow db component state row retained) :
    readRetainedSuccessfulResult db state = .ok (retained.map ComponentSuccessfulResult.observation) := by
  rw [readRetainedSuccessfulResult, recorded.members, recorded.pointer]
  exact read_retained_of held recorded.retains

theorem RecordedRow.observe {row : ComponentState} {retained : Option ComponentSuccessfulResult}
    {prior : Option SuccessfulResultObservation} (held : RecordInvariant db)
    (recorded : RecordedRow db component state row retained) (observed : observeCurrentSuccess db state = .ok prior) :
    prior = retained.map ComponentSuccessfulResult.observation := by
  simp only [observeCurrentSuccess, recorded.read_retained held, Lib.bind_ok, Except.ok.injEq, exists_eq_left'] at observed
  cases retained with
  | none =>
      simp only [Option.map_none, Lib.bind_ok, Lib.pure_ok] at observed
      obtain ⟨_, _, rfl⟩ := observed
      rfl
  | some result =>
      simp only [Option.map_some, Lib.pure_ok] at observed
      exact observed.symm

theorem admitted_defined {sessionId : String} {shape : Shape} {admitted : AdmittedComponentShape}
    (read : readAdmittedComponentShape db sessionId component shape = .ok admitted) :
    Defined db (componentKey component) admitted.shapeId := by
  simp only [readAdmittedComponentShape, validateSessionShapeSnapshot, readAdmissionShape, Lib.bind_ok, Lib.require_ok,
    Lib.orRaise_ok, Lib.pure_ok, snapshot_or_ok, decide_eq_true_eq, Bool.and_eq_true, List.all_eq_true] at read
  obtain ⟨members, normalized, session, _, _, _, _, _, _, positive, _, _, produced, ⟨_, _, shapeRow, here, identity,
    ⟨_, ⟨rfl, formed⟩, _, ⟨_, inside⟩, row, located, _, complete, _, _, active, _, rfl⟩, _, ⟨same, _⟩, rfl⟩, _, _, _, _,
    _, _, _, _, _, _, _, _, _, _, _, selected, rfl⟩ := read
  have canonical := normalized_members_ok normalized
  subst canonical
  have listed := inside _ selected
  have rowId : row.shapeId = session.admittedShapeId := by simpa using same
  refine ⟨positive, ?_, shapeRow, here, formed, listed⟩
  simp only [sameElements, Bool.and_eq_true, List.all_eq_true, decide_eq_true_eq] at complete
  have keyed := complete.2 _ (List.mem_map_of_mem (f := encodeComponentKey) listed)
  simp only [definitionKeys, List.mem_map, Table.mem_select, decide_eq_true_eq] at keyed
  obtain ⟨definition, ⟨member, shapeOf⟩, keyOf⟩ := keyed
  have key : definition.key = (componentKey component, session.admittedShapeId) := by
    rw [ComponentDefinition.key, keyOf, shapeOf, rowId, encodeComponentKey, component_key_idem]
  rw [Table.contains, ← key, Table.find_of_mem member]
  rfl

end Observed

section Begin

variable {db next : Database}

theorem unchanged_state_ok {state : ComponentStateRecord} {row : ComponentState} (same : unchangedState state row = true) :
    row.lifecycle = state.lifecycle ∧ row.misaligned = state.misaligned := by
  simp only [unchangedState, Bool.and_eq_true, beq_iff_eq] at same
  exact ⟨same.1.1.1.1.1.1.2, same.1.1.1.1.1.2⟩

theorem Retention.moved {row later : ComponentState} {retained : Option ComponentSuccessfulResult}
    (retains : Retention db row retained) (key : later.componentKey = row.componentKey)
    (shape : later.retainedResultShapeId = row.retainedResultShapeId)
    (generation : later.retainedResultAlignmentGeneration = row.retainedResultAlignmentGeneration)
    (aligned : later.alignmentGeneration = row.alignmentGeneration) : Retention db later retained := by
  cases retains with
  | nothing noShape noGeneration => exact .nothing (shape.trans noShape) (generation.trans noGeneration)
  | result pointed at_ found =>
      refine .result (shape.trans pointed) ?_ ?_
      · rw [generation, at_, aligned]
      · rw [key, aligned]
        exact found

theorem state_written_preserved {component : Component} {states : Table ComponentState.componentKey}
    {p : ComponentState → Bool} {f : ComponentState → ComponentState}
    {keep : ∀ row, (f row).componentKey = row.componentKey} {error : Error} (held : RecordInvariant db)
    (changed : db.componentStates.changeOne component p f error keep = .ok states)
    (frame : RecordFrame { db with componentStates := states } next)
    (good : ∀ row ∈ db.componentStates.rows, row.componentKey = component → p row = true →
      GoodState db (f row) ∧ row.alignmentGeneration ≤ (f row).alignmentGeneration) : Preserved db next := by
  have keeps : Keeps db next :=
    ⟨fun found => frame.shapes ▸ found, fun recorded => frame.definitions ▸ recorded, frame.origins⟩
  refine change_state_preserved held keeps changed frame.states frame.shapes frame.definitions (fun row member => ?_)
    (fun other shapeId generation result _ found => frame.results ▸ found) (fun row member key met => ?_)
  · rw [frame.results] at member
    exact (held.results row member).keep keeps
  · obtain ⟨now, later⟩ := good row member key met
    exact ⟨now.keep keeps fun _ _ _ found => frame.results ▸ found, later⟩

theorem begun_state_good {component : Component} {shapeId : Nat} {row : ComponentState}
    (defined : Defined db component shapeId) (keyed : row.componentKey = component)
    (start : row.lifecycle = .queued ∨ row.lifecycle = .sampled) (was : GoodState db row) :
    GoodState db { row with shapeId := shapeId, lifecycle := .running } := by
  obtain ⟨retained, retains, agrees⟩ := was.retains
  refine ⟨keyed ▸ defined, retained, retains.moved rfl rfl rfl rfl, ?_⟩
  rcases start with queued | sampled
  · simp only [LifecycleAgrees, queued] at agrees
    obtain ⟨clear, _, rfl⟩ := agrees
    exact clear
  · simp only [LifecycleAgrees, sampled] at agrees
    obtain ⟨result, rfl, _, lineage⟩ := agrees
    exact lineage

theorem pending_start_kind {start : ComponentStart} {key : Component} {state : ComponentStateRecord} {shapeId : Nat}
    {stability : Stability} {origin : Option String}
    (valid : validatePendingComponentRow db (startedPending start key state shapeId stability origin) = .ok ()) :
    start.startingLifecycle = .queued ∨ start.startingLifecycle = .sampled := by
  simp only [validatePendingComponentRow, startedPending, Lib.bind_ok, Lib.require_ok, Bool.and_eq_true] at valid
  obtain ⟨_, ⟨⟨⟨_, _⟩, kind⟩, _⟩, _⟩ := valid
  by_cases sampled : start.startingLifecycle = .sampled
  · exact .inr sampled
  · rw [if_neg sampled] at kind
    simp only [Bool.and_eq_true, beq_iff_eq] at kind
    exact .inl kind.1

theorem begin_component_execution_preserved {start : ComponentStart} {recorded : Bool} (held : RecordInvariant db)
    (begun : beginComponentExecution db start = .ok (recorded, next)) : Preserved db next := by
  simp only [beginComponentExecution, Lib.bind_ok, Lib.orRaise_ok, Lib.refuse_ok] at begun
  obtain ⟨members, named, proposal, _, _, _, _, _, admitted, admission, owner, _, _, _, found, read, state, rfl, begun⟩ :=
    begun
  split at begun
  · -- the task's own start was recorded before
    simp only [Lib.bind_ok, Lib.pure_ok, Prod.mk.injEq] at begun
    obtain ⟨_, _, _, rfl⟩ := begun
    exact Preserved.refl held
  · simp only [Lib.bind_ok, Lib.require_ok, Lib.orRaise_ok, Lib.pure_ok, Prod.mk.injEq, Bool.and_eq_true,
      beq_iff_eq] at begun
    obtain ⟨_, ⟨⟨starting, _⟩, _⟩, proposal, _, stability, _, _, _, _, _, _, valid, _, _, states, changed, pendings, _, _,
      rfl⟩ := begun
    have canonical := observation_component_ok named
    have defined := admitted_defined admission
    rw [canonical, encodeComponentKey, component_key_idem] at changed
    have kind := pending_start_kind valid
    rw [← starting] at kind
    refine state_written_preserved held changed ⟨rfl, rfl, rfl, rfl, id⟩ fun row member keyed same => ?_
    have lifecycle := (unchanged_state_ok same).1
    exact ⟨begun_state_good defined keyed (by rw [lifecycle]; exact kind) (held.states row member), le_refl _⟩

theorem begin_selected_component_execution_preserved {start : SelectedStart}
    {result : ComponentTerminalOutcome × Nat × Nat} (held : RecordInvariant db)
    (begun : beginSelectedComponentExecution db start = .ok (result, next)) : Preserved db next := by
  simp only [beginSelectedComponentExecution, Lib.bind_ok, Lib.orRaise_ok, Lib.refuse_ok, Lib.require_ok, Lib.pure_ok,
    Prod.mk.injEq] at begun
  obtain ⟨proposal, _, stability, _, _, _, identity, _, admitted, admission, _, _, found, read, state, rfl, _, _, _, _, _,
    _, _, _, prior, observed, _, _, _, _, states, changed, pendings, _, _, rfl⟩ := begun
  obtain ⟨row, retained, recorded⟩ := recorded_row held read
  have defined := admitted_defined admission
  have seen := recorded.observe held observed
  refine state_written_preserved held changed ⟨rfl, rfl, rfl, rfl, id⟩ fun current member keyed same => ?_
  have here : row = current := Table.rows_inj (Table.find_mem recorded.found) member
    ((Table.find_key recorded.found).trans keyed.symm)
  subst here
  refine ⟨⟨keyed ▸ defined, retained, recorded.retains.moved rfl rfl rfl rfl, ?_⟩, le_refl _⟩
  cases retained with
  | none => rw [seen]; exact ⟨rfl, rfl⟩
  | some result => rw [seen]; exact ⟨rfl, rfl⟩

end Begin

section Settle

variable {db next : Database} {outcome : ComponentTerminalOutcome}

def GoodOutcome (db : Database) (outcome : ComponentTerminalOutcome) : Prop :=
  match outcome.lifecycle with
  | .failed => outcome.stability = none ∧ outcome.instabilityOrigin = none
  | .sampled | .done => lineageIsValid db outcome.stability outcome.instabilityOrigin = true
  | .queued | .running => False

theorem GoodOutcome.keep (keeps : Keeps db next) (good : GoodOutcome db outcome) : GoodOutcome next outcome := by
  unfold GoodOutcome at good ⊢
  cases lifecycle : outcome.lifecycle <;> simp only [lifecycle] at good ⊢
  · exact lineage_is_valid_keep keeps good
  · exact lineage_is_valid_keep keeps good
  · exact good

theorem normalized_outcomes {outcomes normalized : List ComponentTerminalOutcome}
    (done : normalizeComponentTerminalOutcomes outcomes = .ok normalized) :
    ∀ outcome ∈ normalized, ∃ raw, normalizeComponentTerminalOutcome raw = .ok outcome := by
  refine Lib.thread_invariant (motive := fun known : List ComponentTerminalOutcome => ∀ outcome ∈ known,
    ∃ raw, normalizeComponentTerminalOutcome raw = .ok outcome) (by simp) ?_ done
  intro known after raw _ before step
  simp only [Lib.bind_ok, Lib.refuse_ok, Lib.pure_ok] at step
  obtain ⟨value, normal, _, _, rfl⟩ := step
  intro outcome member
  rcases List.mem_append.mp member with old | new
  · exact before outcome old
  · exact ⟨raw, by rw [normal, List.mem_singleton.mp new]⟩

theorem validated_origin {sessionId : String} (successful : outcome.lifecycle ≠ .failed)
    (valid : validateComponentTerminalOutcome db sessionId outcome = .ok ()) :
    ∀ origin, outcome.instabilityOrigin = some origin → admittedInterruptOrigin db origin = true := by
  intro origin named
  have notFailed : (outcome.lifecycle != .failed) = true := by simpa using successful
  simp only [validateComponentTerminalOutcome, Lib.bind_ok, notFailed, if_true] at valid
  obtain ⟨_, _, admitted, _, pending, _, _, _, _, _, _, _, _, _, read, _, state, _, _, _, valid⟩ := valid
  split at valid
  · simp only [Lib.bind_ok, Lib.require_ok, named] at valid
    obtain ⟨_, _, _, _, _, _, _, _, allowed⟩ := valid
    exact allowed
  · simp only [Lib.bind_ok, Lib.require_ok, named] at valid
    obtain ⟨_, _, allowed⟩ := valid
    exact allowed

theorem vouched_lineage {stability : Option Stability} {origin : Option String}
    (valid : outcomeLineageIsValid stability origin = true)
    (vouched : ∀ name, origin = some name → admittedInterruptOrigin db name = true) :
    lineageIsValid db stability origin = true := by
  cases stability with
  | none => simp [outcomeLineageIsValid] at valid
  | some stability => cases stability with
      | stable => cases origin with
          | none => rfl
          | some name => simp [outcomeLineageIsValid] at valid
      | unstable => cases origin with
          | none => simp [outcomeLineageIsValid] at valid
          | some name =>
              simp only [outcomeLineageIsValid] at valid
              simp only [lineageIsValid, valid, vouched name rfl, Bool.and_self]

theorem validated_outcome_good {sessionId : String} {raw : ComponentTerminalOutcome}
    (normal : normalizeComponentTerminalOutcome raw = .ok outcome)
    (valid : validateComponentTerminalOutcome db sessionId outcome = .ok ()) : GoodOutcome db outcome := by
  simp only [normalizeComponentTerminalOutcome, Lib.bind_ok, Lib.require_ok, Lib.pure_ok] at normal
  obtain ⟨members, _, _, terminal, _, lineage, rfl⟩ := normal
  cases lifecycle : raw.lifecycle with
  | queued => simp [lifecycle] at terminal
  | running => simp [lifecycle] at terminal
  | failed =>
      simp only [lifecycle, Bool.and_eq_true, Option.isNone_iff_eq_none] at lineage
      simpa only [GoodOutcome, lifecycle] using lineage
  | sampled | done =>
      have origin := validated_origin (by simp [lifecycle]) valid
      simp only [lifecycle] at lineage
      simp only [GoodOutcome]
      exact vouched_lineage lineage origin

theorem settle_interrupt_component_frame {sessionId : String} {settledAt : Timestamp}
    (settled : settleInterruptComponent db sessionId outcome settledAt = .ok next) : RecordFrame db next := by
  unfold settleInterruptComponent at settled
  split at settled
  · obtain rfl := Except.ok.inj settled
    exact ⟨rfl, rfl, rfl, rfl, id⟩
  · split at settled
    · simp only [settleInterruptTarget, Lib.bind_ok, Lib.pure_ok] at settled
      obtain ⟨_, _, holds, _, fences, _, admissions, _, _, _, rfl⟩ := settled
      exact ⟨rfl, rfl, rfl, rfl, id⟩
    · obtain rfl := Except.ok.inj settled
      exact ⟨rfl, rfl, rfl, rfl, id⟩

def publishedRow (pending : PendingComponentExecution) (outcome : ComponentTerminalOutcome) (stability : Stability) :
    ComponentSuccessfulResult :=
  ⟨encodeComponentKey outcome.component, pending.shapeId, outcome.expectedAlignmentGeneration, outcome.lifecycle,
    stability, outcome.instabilityOrigin⟩

variable {pending : PendingComponentExecution} {stability : Stability}

theorem find_published (k : Component × Nat × Nat) :
    (publishedResults db pending outcome stability).find k =
      if (publishedRow pending outcome stability).key = k then some (publishedRow pending outcome stability)
      else db.componentSuccessfulResults.find k := by
  refine Eq.trans Table.find_upsert ?_
  by_cases here : (publishedRow pending outcome stability).key = k
  · refine (if_pos here).trans (Eq.trans ?_ (if_pos here).symm)
    cases found : db.componentSuccessfulResults.find k with
    | none => rfl
    | some old =>
        have keyed := (Table.find_key found).trans here.symm
        simp only [ComponentSuccessfulResult.key, publishedRow, Prod.mk.injEq] at keyed
        simp only [Option.elim_some, publishedRow, ← keyed.1, ← keyed.2.1, ← keyed.2.2]
  · exact (if_neg here).trans (if_neg here).symm

theorem record_result_ok {results : Table ComponentSuccessfulResult.key} (good : GoodOutcome db outcome)
    (recorded : recordResult db pending outcome = .ok results) :
    (outcome.lifecycle = .failed ∧ results = db.componentSuccessfulResults) ∨
      ∃ stability, (outcome.lifecycle = .sampled ∨ outcome.lifecycle = .done) ∧ outcome.stability = some stability ∧
        results = publishedResults db pending outcome stability := by
  unfold GoodOutcome at good
  cases lifecycle : outcome.lifecycle <;> simp only [lifecycle] at good
  · cases named : outcome.stability with
    | none => simp [recordResult, lifecycle, named] at recorded
    | some stability =>
        simp only [recordResult, lifecycle, named, Except.ok.injEq] at recorded
        exact .inr ⟨stability, .inl rfl, rfl, recorded.symm⟩
  · cases named : outcome.stability with
    | none => simp [recordResult, lifecycle, named] at recorded
    | some stability =>
        simp only [recordResult, lifecycle, named, Except.ok.injEq] at recorded
        exact .inr ⟨stability, .inr rfl, rfl, recorded.symm⟩
  · simp only [recordResult, lifecycle, Except.ok.injEq] at recorded
    exact .inl ⟨rfl, recorded.symm⟩

theorem awaits_outcome_ok {row : ComponentState} (met : awaitsOutcome pending outcome row = true) :
    row.shapeId = pending.shapeId ∧ row.alignmentGeneration = outcome.expectedAlignmentGeneration := by
  simp only [awaitsOutcome, Bool.and_eq_true, beq_iff_eq] at met
  exact ⟨met.1.1.1, met.2⟩

theorem failed_state_good {row : ComponentState} (failed : outcome.lifecycle = .failed) (good : GoodOutcome db outcome)
    (was : GoodState db row) : GoodState db (publishedState pending outcome row) := by
  obtain ⟨retained, retains, _⟩ := was.retains
  simp only [GoodOutcome, failed] at good
  simp only [publishedState, failed, if_true]
  exact ⟨was.defined, retained, retains.moved rfl rfl rfl rfl, good⟩

theorem published_state_good {row : ComponentState} (successful : outcome.lifecycle = .sampled ∨ outcome.lifecycle = .done)
    (named : outcome.stability = some stability) (keyed : row.componentKey = encodeComponentKey outcome.component)
    (met : awaitsOutcome pending outcome row = true) (defined : Defined next row.componentKey row.shapeId)
    (results : next.componentSuccessfulResults = publishedResults db pending outcome stability) :
    GoodState next (publishedState pending outcome row) := by
  obtain ⟨shape, generation⟩ := awaits_outcome_ok met
  have recorded : next.componentSuccessfulResults.find (row.componentKey, pending.shapeId, row.alignmentGeneration) =
      some (publishedRow pending outcome stability) := by
    rw [results, find_published, if_pos]
    rw [keyed, generation]
    rfl
  have notFailed : outcome.lifecycle ≠ .failed := by
    rcases successful with sampled | done
    · simp [sampled]
    · simp [done]
  simp only [publishedState, notFailed, if_false]
  refine ⟨defined, some (publishedRow pending outcome stability), .result rfl (by rw [generation]) recorded, ?_⟩
  rcases successful with sampled | done
  · simp only [LifecycleAgrees, sampled]
    exact ⟨_, rfl, sampled, named, rfl⟩
  · simp only [LifecycleAgrees, done]
    exact ⟨_, rfl, done, named, rfl⟩

theorem published_result_good {row : ComponentSuccessfulResult} (held : RecordInvariant db) (keeps : Keeps db next)
    (successful : outcome.lifecycle = .sampled ∨ outcome.lifecycle = .done) (good : GoodOutcome db outcome)
    (named : outcome.stability = some stability)
    (defined : Defined next (encodeComponentKey outcome.component) pending.shapeId)
    (member : row ∈ (publishedResults db pending outcome stability).rows) : GoodResult next row := by
  have found := Table.find_of_mem member
  rw [find_published] at found
  split at found
  · obtain rfl := Option.some.inj found
    refine ⟨defined, successful, ?_⟩
    have lineage : lineageIsValid db outcome.stability outcome.instabilityOrigin = true := by
      rcases successful with sampled | done
      · simpa only [GoodOutcome, sampled] using good
      · simpa only [GoodOutcome, done] using good
    exact lineage_is_valid_keep keeps (named ▸ lineage)
  · exact (held.results row (Table.find_mem found)).keep keeps

theorem publish_component_terminal_outcome_preserved {coverage : SampleCoverage} {sessionId : String}
    {settledAt : Timestamp} (held : RecordInvariant db) (good : GoodOutcome db outcome)
    (published : publishComponentTerminalOutcome coverage sessionId settledAt db outcome = .ok next) :
    Preserved db next := by
  obtain ⟨pending, results, states, pendings, ⟨_, _, recorded, changed, _, settled⟩⟩ :=
    publish_component_terminal_outcome_ok published
  obtain ⟨old, found, met, _, _⟩ := Table.change_one_ok changed
  have keyed := Table.find_key found
  have was := held.states old (Table.find_mem found)
  have frame := settle_interrupt_component_frame settled
  let middle : Database := { db with
    componentSuccessfulResults := results
    componentStates := states
    pendingComponentExecutions := pendings }
  have keeps : Keeps db middle := ⟨id, id, id⟩
  have stored : middle.componentSuccessfulResults = results := rfl
  have defined : Defined middle (encodeComponentKey outcome.component) pending.shapeId :=
    keyed ▸ (awaits_outcome_ok met).1 ▸ was.defined.keep keeps
  have published : Preserved db middle := by
    rcases record_result_ok good recorded with ⟨failed, unchanged⟩ | ⟨stability, successful, named, upserted⟩
    · refine change_state_preserved held keeps changed rfl rfl rfl (fun row member => ?_) ?_ ?_
      · exact (held.results row (unchanged ▸ stored ▸ member)).keep keeps
      · exact fun _ _ _ _ _ there => by rw [stored, unchanged]; exact there
      · intro row member same met
        have now : GoodState db (publishedState pending outcome row) :=
          failed_state_good failed good (held.states row member)
        exact ⟨now.keep keeps fun _ _ _ there => by rw [stored, unchanged]; exact there, by simp [publishedState, failed]⟩
    · have notFailed : outcome.lifecycle ≠ .failed := by
        rcases successful with sampled | done
        · simp [sampled]
        · simp [done]
      refine change_state_preserved held keeps changed rfl rfl rfl (fun row member => ?_) ?_ ?_
      · exact published_result_good held keeps successful good named defined (upserted ▸ stored ▸ member)
      · intro other shapeId generation result different there
        rw [stored, upserted, find_published, if_neg]
        · exact there
        · exact fun same => different (congrArg Prod.fst same).symm
      · intro row member same met
        have here := (held.states row member).defined.keep keeps
        exact ⟨published_state_good successful named same met here (stored.trans upserted), by simp [publishedState, notFailed]⟩
  exact published.trans (frame.preserved published.invariant)

theorem publish_component_terminal_outcomes_preserved {coverage : SampleCoverage} {sessionId : String}
    {settledAt : Timestamp} {outcomes : List ComponentTerminalOutcome} (held : RecordInvariant db)
    (good : ∀ outcome ∈ outcomes, GoodOutcome db outcome)
    (published : publishComponentTerminalOutcomes db coverage sessionId outcomes settledAt = .ok next) :
    Preserved db next :=
  Preserved.thread held (fun _ _ outcome member before step =>
    publish_component_terminal_outcome_preserved before.invariant ((good outcome member).keep before.keeps) step) published

theorem settled_outcomes_good {sessionId : String} {outcomes normalized : List ComponentTerminalOutcome}
    (normal : normalizeComponentTerminalOutcomes outcomes = .ok normalized)
    (valid : validateComponentTerminalOutcomes db sessionId normalized = .ok ()) :
    ∀ outcome ∈ normalized, GoodOutcome db outcome := by
  intro outcome member
  obtain ⟨raw, from_⟩ := normalized_outcomes normal outcome member
  exact validated_outcome_good from_ (Lib.each_ok.mp valid outcome member)

theorem RecordFrame.refl (db : Database) : RecordFrame db db := ⟨rfl, rfl, rfl, rfl, id⟩

theorem mark_ready_frame {sessionId : String} {component : Component}
    (marked : markReady db sessionId component = .ok next) : RecordFrame db next := by
  simp only [markReady, Lib.bind_ok, Lib.pure_ok] at marked
  obtain ⟨_, _, rfl⟩ := marked
  exact ⟨rfl, rfl, rfl, rfl, id⟩

theorem finish_successful_component_execution_preserved {coverage : SampleCoverage} {sessionId : String}
    {taskParent : Option ComponentTaskParent} {settledAt : Timestamp} {finished : Bool} (held : RecordInvariant db)
    (done : finishSuccessfulComponentExecution db coverage sessionId outcome taskParent settledAt = .ok (finished, next)) :
    Preserved db next := by
  simp only [finishSuccessfulComponentExecution, Lib.bind_ok] at done
  obtain ⟨outcomes, normal, _, _, _, _, _, valid, done⟩ := done
  split at done
  · simp only [Lib.bind_ok, Lib.pure_ok, Prod.mk.injEq] at done
    obtain ⟨_, marked, _, rfl⟩ := done
    exact (mark_ready_frame marked).preserved held
  · simp only [Lib.bind_ok, Lib.pure_ok, Prod.mk.injEq] at done
    obtain ⟨_, published, _, rfl⟩ := done
    exact publish_component_terminal_outcomes_preserved held (settled_outcomes_good normal valid) published

theorem mark_selected_ready_preserved {coverage : SampleCoverage} {sessionId : String} (held : RecordInvariant db)
    (marked : markSelectedComponentExecutionReady db coverage sessionId outcome = .ok next) : Preserved db next := by
  simp only [markSelectedComponentExecutionReady, Lib.bind_ok] at marked
  obtain ⟨_, _, _, _, _, _, _, _, marked⟩ := marked
  exact (mark_ready_frame marked).preserved held

end Settle

section Exit

variable {db next : Database} {sessionId : String}

theorem clear_permits_frame (cleared : clearApiExecutionPermitsForSession db sessionId = .ok next) :
    RecordFrame db next := by
  simp only [clearApiExecutionPermitsForSession, Lib.bind_ok, Lib.pure_ok] at cleared
  obtain ⟨_, _, _, _, _, released, _, _, rfl⟩ := cleared
  refine RecordFrame.thread (fun current after permit _ step => ?_) released
  simp only [releaseApiExecutionPermit, withdrawPermit, Lib.bind_ok, Lib.pure_ok, Prod.exists, Prod.mk.injEq] at step
  obtain ⟨_, _, _, _, ⟨_, _, _, _, _, _, _, removed, _, rfl⟩, rfl⟩ := step
  obtain ⟨_, rfl, _⟩ := remove_permit_writes removed
  exact ⟨rfl, rfl, rfl, rfl, id⟩

theorem end_interrupt_admission_frame {admission : InterruptAdmission} {finishedAt : Timestamp}
    (ended : endInterruptAdmission db admission finishedAt = .ok next) : RecordFrame db next := by
  simp only [endInterruptAdmission, Lib.bind_ok] at ended
  obtain ⟨holds, _, ended⟩ := ended
  split at ended
  · obtain rfl := Except.ok.inj ended
    exact ⟨rfl, rfl, rfl, rfl, id⟩
  · simp only [Lib.bind_ok, Lib.pure_ok] at ended
    obtain ⟨_, _, rfl⟩ := ended
    exact ⟨rfl, rfl, rfl, rfl, id⟩

theorem finish_interrupt_session_scope_frame {probe : Probe} {finishedAt : Timestamp} {scope : ScopeExit}
    (finished : finishInterruptSessionScope db probe sessionId finishedAt = .ok (scope, next)) : RecordFrame db next := by
  unfold finishInterruptSessionScope at finished
  split at finished
  · obtain ⟨_, rfl⟩ := Prod.mk.inj (Except.ok.inj finished)
    exact RecordFrame.refl db
  · simp only [Lib.bind_ok, Lib.pure_ok, Prod.mk.injEq] at finished
    obtain ⟨ended, first, after, moved, _, rfl⟩ := finished
    refine (end_interrupt_admission_frame first).trans (RecordFrame.thread (fun current after transfer _ step => ?_) moved)
    simp only [finishTransfer, Lib.bind_ok, Lib.pure_ok] at step
    obtain ⟨_, _, _, _, rfl⟩ := step
    exact ⟨rfl, rfl, rfl, rfl, id⟩

theorem origins_of_sessions {sessions : Table ExecutionSession.sessionId} {p : ExecutionSession → Bool}
    {f : ExecutionSession → ExecutionSession} {keep : ∀ row, (f row).sessionId = row.sessionId} {error : Error}
    (changed : db.executionSessions.changeOne sessionId p f error keep = .ok sessions)
    (same : ∀ row, (f row).sessionKind = row.sessionKind ∧ (f row).scopeAdmitted = row.scopeAdmitted)
    (written : next.executionSessions = sessions) {origin : String} (admitted : admittedInterruptOrigin db origin = true) :
    admittedInterruptOrigin next origin = true := by
  obtain ⟨row, found, _, here, elsewhere⟩ := Table.change_one_ok changed
  unfold admittedInterruptOrigin at admitted ⊢
  rw [written]
  by_cases own : origin = sessionId
  · subst own
    rw [found] at admitted
    rw [here]
    simpa only [(same row).1, (same row).2] using admitted
  · rw [elsewhere origin own]
    exact admitted

theorem close_session_frame {settlement : SessionSettlement} {boundaries : Option Details} {reserved : List Component}
    {scope : ScopeExit} {result : SettledSession}
    (closed : closeSession db sessionId settlement boundaries reserved scope = .ok (result, next)) :
    RecordFrame db next := by
  simp only [closeSession, Lib.bind_ok, Lib.require_ok, Lib.pure_ok, Prod.mk.injEq] at closed
  obtain ⟨nodes, _, sessions, changed, _, _, _, _, _, rfl⟩ := closed
  exact ⟨rfl, rfl, rfl, rfl, origins_of_sessions changed (fun _ => ⟨rfl, rfl⟩) rfl⟩

theorem settle_execution_session_preserved {probe : Probe} {coverage : SampleCoverage} {settlement : SessionSettlement}
    {result : SettledSession} (held : RecordInvariant db)
    (settled : settleExecutionSession db probe coverage sessionId settlement = .ok (result, next)) :
    Preserved db next := by
  simp only [settleExecutionSession, validateSettlement, Lib.bind_ok, Lib.pure_ok] at settled
  obtain ⟨_, ⟨_, _, outcomes, normal, _, _, _, valid, _, _, _, _, rfl⟩, cleared, permits, published, written,
    ⟨scope, finished⟩, moved, _, _, closed⟩ := settled
  have frame := clear_permits_frame permits
  have first := frame.preserved held
  have good := settled_outcomes_good normal valid
  have second := publish_component_terminal_outcomes_preserved first.invariant
    (fun outcome member => (good outcome member).keep frame.keeps) written
  have last := (finish_interrupt_session_scope_frame moved).trans (close_session_frame closed)
  exact (first.trans second).trans (last.preserved second.invariant)

theorem decide_execution_session_exit_preserved {probe : Probe} {coverage : SampleCoverage} {request : ExitRequest}
    {decision : ExitDecision} (held : RecordInvariant db)
    (decided : decideExecutionSessionExit db probe coverage sessionId request = .ok (decision, next)) :
    Preserved db next := by
  simp only [decideExecutionSessionExit, Lib.bind_ok] at decided
  obtain ⟨outcomes, _, _, _, components, _, roots, _, _, _, choice, _, decided⟩ := decided
  split at decided
  · simp only [endSession, Lib.bind_ok, Lib.pure_ok, Prod.mk.injEq] at decided
    obtain ⟨_, _, ⟨_, _⟩, settled, _, rfl⟩ := decided
    exact settle_execution_session_preserved held settled
  · simp only [Lib.pure_ok, Prod.mk.injEq] at decided
    obtain ⟨_, rfl⟩ := decided
    exact Preserved.refl held

end Exit

end MicroWorkflow
