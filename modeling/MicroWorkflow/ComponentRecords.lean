import MicroWorkflow.Lib.Machine
import MicroWorkflow.RecordPreparation

set_option autoImplicit false

namespace MicroWorkflow

open Lib (require refuse orRaise each collect thread Table Run)

variable {db next : Database}

section Membership

theorem replaced_membership_frame {change : MembershipChange} {active : ActiveComponentPartition}
    (replaced : replaceActiveComponentClosure db change = .ok (active, next)) : RecordFrame db next := by
  obtain ⟨_, _, _, rfl⟩ := replace_active_component_closure_ok replaced
  exact ⟨rfl, rfl, rfl, rfl, id⟩

theorem validated_change_targets {change : MembershipChange} {component : Component}
    (valid : validateMembershipChange db change = .ok ()) (target : component ∈ change.targetComponents) :
    component ∈ change.targetShape.hoefleinComponents := by
  simp only [validateMembershipChange, Lib.bind_ok] at valid
  obtain ⟨_, _, _, _, valid⟩ := valid
  split at valid
  · exact absurd valid (by simp)
  · rename_i expected observed
    rw [Lib.require_ok, beq_iff_eq] at valid
    subst valid
    unfold expectedChange at observed
    split at observed
    · simp only [observeRemovedMemberships, Lib.bind_ok, Lib.pure_ok] at observed
      obtain ⟨_, _, _, _, same⟩ := observed
      rw [← same] at target
      exact absurd target List.not_mem_nil
    · exact (observe_membership_change_targets observed).2 component target

theorem registered_defined {shape : Shape} {row : GraphShape} {component : Component} (held : RecordInvariant db)
    (located : findShape db shape = some row) (inside : component ∈ shape.hoefleinComponents) :
    Defined db component row.shapeId := by
  obtain ⟨member, rfl⟩ := find_shape_found located
  exact whole_defined (held.shapes row member) (Table.find_of_mem member) inside

theorem complete_unit_preserved {repair : MembershipRepair} (held : RecordInvariant db)
    (done : completeUnit db repair = .ok next) : Preserved db next := by
  simp only [completeUnit, Lib.bind_ok, Lib.orRaise_ok, Lib.require_ok, Lib.pure_ok, Bool.and_eq_true, beq_iff_eq,
    decide_eq_true_eq] at done
  obtain ⟨row, located, _, valid, _, _, _, _, _, ⟨_, target⟩, _, ⟨before, _⟩, prepared, applied, states, changed, rfl⟩ :=
    done
  have frame := apply_job_preparation_frame applied
  have first := frame.preserved held
  have inside := validated_change_targets valid target
  have keyed : repair.unit.before.componentKey = repair.unit.component := by
    rw [Table.find_key before, encodeComponentKey, hoeflein_component_canonical inside]
  have defined := (registered_defined held located inside).keep frame.keeps
  refine first.trans (state_written_preserved first.invariant changed ⟨rfl, rfl, rfl, rfl, id⟩ fun current _ same met => ?_)
  simp only [Bool.and_eq_true, beq_iff_eq] at met
  refine ⟨realigned_good defined (same.trans keyed), ?_⟩
  have raised : current.alignmentGeneration ≤ repair.unit.generation := by
    rw [met.2, MembershipUnit.generation]
    omega
  exact raised

theorem finish_membership_preparation_preserved {repair : MembershipRepair} (held : RecordInvariant db)
    (done : finishMembershipPreparation db repair = .ok next) : Preserved db next := by
  simp only [finishMembershipPreparation, Lib.bind_ok] at done
  obtain ⟨_, _, _, _, ⟨active, replaced⟩, swapped, moved⟩ := done
  have first := replaced_membership_frame swapped
  unfold movePartitionRevision at moved
  split at moved
  · exact Except.ok.inj moved ▸ first.preserved held
  · simp only [Lib.bind_ok, Lib.pure_ok] at moved
    obtain ⟨sessions, changed, rfl⟩ := moved
    have last : RecordFrame replaced { replaced with executionSessions := sessions } :=
      ⟨rfl, rfl, rfl, rfl, origins_of_sessions changed (fun _ => ⟨rfl, rfl⟩) rfl⟩
    exact (first.trans last).preserved held

end Membership

section Registration

theorem find_defined {shapeId : Nat} {components : List Component} {definitions : Table ComponentDefinition.key}
    (key : Component × Nat) :
    (components.foldl (defineComponent shapeId) definitions).contains key =
      (definitions.contains key || decide (key.2 = shapeId ∧ key.1 ∈ components.map encodeComponentKey)) := by
  induction components generalizing definitions with
  | nil => simp
  | cons component rest ih =>
      rw [List.foldl_cons, ih]
      have one : (defineComponent shapeId definitions component).contains key =
          (definitions.contains key || decide ((encodeComponentKey component, shapeId) = key)) := by
        unfold Table.contains defineComponent
        rw [Table.find_upsert]
        by_cases here : (encodeComponentKey component, shapeId) = key
        · simp [ComponentDefinition.key, here]
        · simp [ComponentDefinition.key, here]
      rw [one, Bool.or_assoc]
      congr 1
      obtain ⟨component', shape'⟩ := key
      rw [← Bool.decide_or, decide_eq_decide]
      simp only [Prod.mk.injEq, List.map_cons, List.mem_cons]
      constructor
      · rintro (⟨rfl, rfl⟩ | ⟨rfl, later⟩)
        · exact ⟨rfl, .inl rfl⟩
        · exact ⟨rfl, .inr later⟩
      · rintro ⟨rfl, rfl | later⟩
        · exact .inl ⟨rfl, rfl⟩
        · exact .inr ⟨rfl, later⟩

theorem definition_of_contains {definitions : Table ComponentDefinition.key} {row : ComponentDefinition}
    (member : row ∈ definitions.rows) : definitions.contains (row.componentKey, row.shapeId) = true := by
  have found := Table.find_of_mem member
  unfold Table.contains
  rw [show (row.componentKey, row.shapeId) = row.key from rfl, found]
  rfl

theorem insert_shape_ok {shape : Shape} {shapeId : Nat} {shapes : Table GraphShape.shapeId}
    (held : RecordInvariant db) (inserted : insertShape db shape = .ok (shapeId, shapes)) :
    1 ≤ shapeId ∧ shapes.find shapeId = some ⟨shapeId, shape⟩ ∧
      (∀ {other row}, db.graphShapes.find other = some row → shapes.find other = some row) ∧
      ∀ row ∈ shapes.rows, row ∈ db.graphShapes.rows ∨ row = ⟨shapeId, shape⟩ := by
  unfold insertShape at inserted
  split at inserted
  · rename_i row located
    obtain ⟨rfl, rfl⟩ := Prod.mk.inj (Except.ok.inj inserted)
    obtain ⟨member, rfl⟩ := find_shape_found located
    exact ⟨(held.shapes row member).positive, Table.find_of_mem member, id, fun _ member => .inl member⟩
  · simp only [Lib.bind_ok, Lib.orRaise_ok, Lib.pure_ok, Prod.mk.injEq] at inserted
    obtain ⟨table, added, rfl, rfl⟩ := inserted
    refine ⟨Nat.le_add_left 1 _, ?_, fun {other row} found => ?_, fun row member => (Table.mem_insert added).mp member⟩
    · rw [Table.find_insert added, if_pos rfl]
    · rw [Table.find_insert added, if_neg]
      · exact found
      · rintro rfl
        rw [(Table.insert_eq_some.mp added).1] at found
        exact absurd found (by simp)

theorem insert_topology_preserved {shape : Shape} {created : List Component} (held : RecordInvariant db)
    (formed : shape.wellFormed = true) (new : ∀ component ∈ created, component ∈ shape.hoefleinComponents)
    (inserted : insertTopology db shape created = .ok next) : Preserved db next := by
  simp only [insertTopology, Lib.bind_ok, Lib.orRaise_ok, Lib.pure_ok] at inserted
  obtain ⟨⟨shapeId, shapes⟩, added, states, started, rfl⟩ := inserted
  obtain ⟨positive, here, shapesKept, shapeRows⟩ := insert_shape_ok held added
  have canonical : ∀ component ∈ shape.hoefleinComponents, encodeComponentKey component = component :=
    fun component inside => hoeflein_component_canonical inside
  let definitions := shape.hoefleinComponents.foldl (defineComponent shapeId) db.componentDefinitions
  have kept : ∀ {key}, db.componentDefinitions.contains key = true → definitions.contains key = true := by
    intro key recorded
    rw [find_defined, recorded, Bool.true_or]
  have complete : ∀ component ∈ shape.hoefleinComponents, definitions.contains (component, shapeId) = true := by
    intro component inside
    rw [find_defined, Bool.or_eq_true, decide_eq_true_eq]
    exact .inr ⟨rfl, List.mem_map.mpr ⟨component, inside, canonical component inside⟩⟩
  let after : Database := { db with
    graphShapes := shapes
    componentDefinitions := definitions
    componentStates := states }
  have keeps : Keeps db after := ⟨shapesKept, kept, id⟩
  have defined : ∀ component ∈ shape.hoefleinComponents, Defined after component shapeId :=
    fun component inside => ⟨positive, complete component inside, _, here, formed, inside⟩
  have rows := Table.insertAll_rows started
  refine ⟨⟨fun row member => ?_, fun row member => ?_, fun row member => ?_, fun row member => ?_⟩, keeps,
    fun component row found => ⟨row, ?_, le_refl _⟩⟩
  · rcases shapeRows row member with old | rfl
    · have whole := held.shapes row old
      exact ⟨whole.positive, whole.formed, fun component inside => kept (whole.complete component inside)⟩
    · exact ⟨positive, formed, complete⟩
  · have recorded := definition_of_contains member
    rw [find_defined, Bool.or_eq_true, decide_eq_true_eq] at recorded
    rcases recorded with old | ⟨same, listed⟩
    · obtain ⟨definition, found⟩ := Option.isSome_iff_exists.mp old
      have keyed := Table.find_key found
      simp only [ComponentDefinition.key, Prod.mk.injEq] at keyed
      have was := (held.definitions definition (Table.find_mem found)).keep keeps
      rw [keyed.1, keyed.2] at was
      exact was
    · obtain ⟨component, inside, encoded⟩ := List.mem_map.mp listed
      rw [canonical component inside] at encoded
      have named : row.componentKey = component := encoded.symm
      have shaped : row.shapeId = shapeId := same
      rw [named, shaped]
      exact defined component inside
  · exact (held.results row member).keep keeps
  · rw [show after.componentStates.rows = _ from rows, List.mem_append, List.mem_map] at member
    rcases member with old | ⟨component, listed, rfl⟩
    · exact (held.states row old).keep keeps fun _ _ _ found => found
    · have inside := new component listed
      refine ⟨?_, none, .nothing rfl rfl, ⟨rfl, rfl⟩, rfl, rfl⟩
      rw [freshState, canonical component inside]
      exact defined component inside
  · have located := Table.find_insertAll started component
    rw [found] at located
    cases fresh : (created.map (freshState shapeId)).find? fun r => r.componentKey = component with
    | none => rw [fresh] at located; exact located
    | some clash =>
        have taken := Table.insertAll_free started clash (List.mem_of_find?_eq_some fresh)
        have same : clash.componentKey = component := by simpa using List.find?_some fresh
        rw [same, found] at taken
        exact absurd taken (by simp)

def Raised (db : Database) (shape : Shape) (projected : Projection) : Prop :=
  ∀ entry ∈ projected, entry.1 ∈ shape.hoefleinComponents ∧
    ∀ row, db.componentStates.find entry.1 = some row → row.alignmentGeneration ≤ entry.2

def Unstarted (db : Database) (created : List Component) : Prop :=
  ∀ component ∈ created, ∀ row, db.componentStates.find component = some row → row.alignmentGeneration = 0

theorem read_snapshot_generation {component : Component} {observed : Option ComponentStateSnapshot}
    (read : readComponentStateSnapshot db component = .ok observed) {row : ComponentState}
    (found : db.componentStates.find (componentKey component) = some row) :
    ∃ state, observed = some state ∧ state.alignmentGeneration = row.alignmentGeneration := by
  simp only [readComponentStateSnapshot, Lib.bind_ok, Lib.pure_ok] at read
  obtain ⟨members, named, state, record, rfl⟩ := read
  have canonical := observation_component_ok named
  subst canonical
  cases state with
  | some state =>
      obtain ⟨_, stored, shape, _, accepted⟩ := read_component_state_record_some.mp record
      have here := accepted.found
      rw [component_key_idem, found, Option.some.injEq] at here
      refine ⟨state.snapshot, rfl, ?_⟩
      rw [accepted.record]
      exact here ▸ rfl
  | none =>
      unfold readComponentStateRecord at record
      rw [Lib.bind_ok] at record
      obtain ⟨members, normalized, record⟩ := record
      have same := normalized_members_ok normalized
      subst same
      simp only [encodeComponentKey, component_key_idem, found, Lib.bind_ok, Lib.pure_ok, reduceCtorEq, and_false,
        exists_false] at record

theorem project_target_raised {shape : Shape} {created established : List Component} {change : MembershipChange}
    {projected after : Projection} {target : Component} (inside : target ∈ shape.hoefleinComponents)
    (unstarted : Unstarted db created) (held : Raised db shape projected)
    (step : projectTarget db created established change projected target = .ok after) : Raised db shape after := by
  have canonical := hoeflein_component_canonical inside
  have extend : ∀ generation, (∀ row, db.componentStates.find target = some row →
      row.alignmentGeneration ≤ generation) → Raised db shape (projected ++ [(target, generation)]) := by
    intro generation above entry member
    rcases List.mem_append.mp member with old | new
    · exact held entry old
    · rw [List.mem_singleton.mp new]
      exact ⟨inside, above⟩
  unfold projectTarget at step
  split at step
  · exact Except.ok.inj step ▸ held
  · rw [Lib.bind_ok] at step
    obtain ⟨observed, read, step⟩ := step
    cases observed with
    | none =>
        obtain rfl := Except.ok.inj step
        refine extend 0 fun row found => ?_
        obtain ⟨_, absent, _⟩ := read_snapshot_generation read (by rw [canonical]; exact found)
        exact absurd absent (by simp)
    | some state =>
        dsimp only at step
        split at step
        · rename_i fresh
          obtain rfl := Except.ok.inj step
          exact extend 0 fun row found => le_of_eq (unstarted target fresh row found)
        · obtain rfl := Except.ok.inj step
          refine extend _ fun row found => ?_
          obtain ⟨_, same, generation⟩ := read_snapshot_generation read (by rw [canonical]; exact found)
          obtain rfl := Option.some.inj same
          omega

theorem project_component_raised {shape : Shape} {created : List Component} {active : ActiveComponentPartition}
    {history : List HistoricalMembership} {projected after : Projection} {component : Component}
    (unstarted : Unstarted db created) (held : Raised db shape projected)
    (step : projectComponent db active shape created history projected component = .ok after) :
    Raised db shape after := by
  simp only [projectComponent, Lib.bind_ok] at step
  obtain ⟨change, observed, step⟩ := step
  split at step
  · exact Except.ok.inj step ▸ held
  · exact Lib.thread_invariant held (fun current later target member before moved =>
      project_target_raised ((observe_membership_change_targets observed).2 target member) unstarted before moved) step

theorem unproduced_raised {records : MembershipRecords} {shape : Shape} {created : List Component}
    {projected : Projection} (unstarted : Unstarted db created)
    (read : readUnproducedComponentStates records db shape created = .ok projected) : Raised db shape projected := by
  simp only [readUnproducedComponentStates, Lib.bind_ok] at read
  obtain ⟨active, _, read⟩ := read
  cases active with
  | none =>
      obtain rfl := Except.ok.inj read
      exact fun _ member => absurd member List.not_mem_nil
  | some active =>
      simp only [Lib.bind_ok] at read
      obtain ⟨history, _, threaded⟩ := read
      exact Lib.thread_invariant (fun _ member => absurd member List.not_mem_nil)
        (fun current later component _ before moved => project_component_raised unstarted before moved) threaded

theorem projected_generation_member {projected : Projection} {target : Component} {generation : Nat}
    (chosen : projectedGeneration projected target = some generation) : (target, generation) ∈ projected := by
  simp only [projectedGeneration, Option.map_eq_some_iff] at chosen
  obtain ⟨entry, found, rfl⟩ := chosen
  have same : entry.1 = target := by simpa using List.find?_some found
  exact same ▸ List.mem_of_find?_eq_some found

def Realigning (db next : Database) (shape : Shape) (projected : Projection) : Prop :=
  Preserved db next ∧ (∀ entry ∈ projected, entry.1 ∈ shape.hoefleinComponents) ∧
    ∀ target generation, projectedGeneration projected target = some generation →
      ∀ row, next.componentStates.find target = some row → row.alignmentGeneration ≤ generation

theorem realign_target_preserved {start : Database} {shape : Shape} {row : GraphShape} {projected : Projection}
    {target : Component} (located : findShape db shape = some row) (held : Realigning start db shape projected)
    (inside : target ∈ shape.hoefleinComponents) (step : realignTarget row.shapeId projected db target = .ok next) :
    Realigning start next shape projected ∧ findShape next shape = some row := by
  obtain ⟨before, named, raised⟩ := held
  unfold realignTarget at step
  split at step
  · exact Except.ok.inj step ▸ ⟨⟨before, named, raised⟩, located⟩
  · rename_i generation chosen
    simp only [Lib.bind_ok, Lib.pure_ok] at step
    obtain ⟨states, changed, rfl⟩ := step
    have canonical := hoeflein_component_canonical inside
    rw [encodeComponentKey, canonical] at changed
    have defined := registered_defined before.invariant located inside
    have moved := state_written_preserved before.invariant changed ⟨rfl, rfl, rfl, rfl, id⟩ fun current member keyed _ =>
      ⟨realigned_good defined keyed, raised target generation chosen current (keyed ▸ Table.find_of_mem member)⟩
    refine ⟨⟨before.trans moved, named, fun other above picked current found => ?_⟩, located⟩
    obtain ⟨old, _, _, here, elsewhere⟩ := Table.change_one_ok changed
    by_cases same : other = target
    · subst same
      rw [chosen, Option.some.injEq] at picked
      dsimp only at found
      rw [here, Option.some.injEq] at found
      exact picked ▸ found ▸ le_refl _
    · dsimp only at found
      rw [elsewhere other same] at found
      exact raised other above picked current found

theorem reconcile_component_preserved {start : Database} {records : MembershipRecords} {shape : Shape}
    {history : List HistoricalMembership} {projected : Projection} {active active' : ActiveComponentPartition}
    {component : Component} (held : Realigning start db shape projected)
    (step : reconcileComponent records shape history projected (active, db) component = .ok (active', next)) :
    Realigning start next shape projected := by
  simp only [reconcileComponent, Lib.bind_ok] at step
  obtain ⟨change, observed, step⟩ := step
  split at step
  · obtain ⟨_, rfl⟩ := Prod.mk.inj (Except.ok.inj step)
    exact held
  · simp only [Lib.bind_ok, Lib.orRaise_ok] at step
    obtain ⟨_, _, row, located, realigned, threaded, replaced⟩ := step
    have targets := (observe_membership_change_targets observed).2
    have loop : Realigning start realigned shape projected ∧ findShape realigned shape = some row := by
      refine Lib.thread_invariant (motive := fun current => Realigning start current shape projected ∧
        findShape current shape = some row) ⟨held, located⟩ ?_ threaded
      exact fun current after target member before moved =>
        realign_target_preserved before.2 before.1 (targets target member) moved
    obtain ⟨⟨before, named, raised⟩, _⟩ := loop
    have frame := replaced_membership_frame replaced
    exact ⟨before.trans (frame.preserved before.invariant), named, fun target generation chosen current found =>
      raised target generation chosen current (frame.states ▸ found)⟩

theorem retire_removed_preserved {records : MembershipRecords} {shape : Shape} {active : ActiveComponentPartition}
    (held : RecordInvariant db) (retired : retireRemoved records db active shape = .ok next) : Preserved db next := by
  simp only [retireRemoved, Lib.bind_ok] at retired
  obtain ⟨_, _, _, _, retired⟩ := retired
  split at retired
  · exact Except.ok.inj retired ▸ Preserved.refl held
  · simp only [Lib.bind_ok, Lib.pure_ok] at retired
    obtain ⟨_, _, ⟨_, _⟩, replaced, rfl⟩ := retired
    exact (replaced_membership_frame replaced).preserved held

theorem reconcile_preserved {records : MembershipRecords} {shape : Shape} {created : List Component}
    (held : RecordInvariant db) (unstarted : Unstarted db created)
    (done : reconcileUnproducedMemberships records db shape created = .ok next) : Preserved db next := by
  simp only [reconcileUnproducedMemberships, Lib.bind_ok, Lib.orRaise_ok] at done
  obtain ⟨_, _, active, _, history, _, projected, read, ⟨active', middle⟩, threaded, retired⟩ := done
  have raised := unproduced_raised unstarted read
  have loop : Realigning db middle shape projected := by
    refine Lib.thread_invariant (motive := fun current : ActiveComponentPartition × Database =>
      Realigning db current.2 shape projected) ⟨Preserved.refl held, fun entry member => (raised entry member).1, ?_⟩ ?_
      threaded
    · exact fun target generation chosen row found => (raised _ (projected_generation_member chosen)).2 row found
    · exact fun current after component _ before step => reconcile_component_preserved before step
  exact loop.1.trans (retire_removed_preserved loop.1.invariant retired)

theorem initialize_frame {active : Option ActiveComponentPartition} {components : List Component}
    (done : initializeWhenMissing db active components = .ok next) : RecordFrame db next := by
  cases active with
  | some _ => exact Except.ok.inj done ▸ RecordFrame.refl db
  | none =>
      simp only [initializeWhenMissing, initializeActiveComponentPartition, Lib.bind_ok, Lib.pure_ok] at done
      obtain ⟨_, _, _, _, _, _, _, _, _, _, _, _, rfl⟩ := done
      exact ⟨rfl, rfl, rfl, rfl, id⟩

theorem created_unstarted {shape : Shape} {created : List Component} {inserted : Database}
    (canonical : ∀ component ∈ created, encodeComponentKey component = component)
    (done : insertTopology db shape created = .ok inserted) : Unstarted inserted created := by
  simp only [insertTopology, Lib.bind_ok, Lib.orRaise_ok, Lib.pure_ok] at done
  obtain ⟨⟨shapeId, shapes⟩, _, states, started, rfl⟩ := done
  intro component member row found
  have located := Table.find_insertAll started component
  have listed : freshState shapeId component ∈ created.map (freshState shapeId) := List.mem_map_of_mem member
  have present : (created.map (freshState shapeId)).find? (fun r => r.componentKey = component) ≠ none := by
    rw [ne_eq, List.find?_eq_none]
    intro none
    exact none _ listed (decide_eq_true (canonical component member))
  obtain ⟨fresh, chosen⟩ := Option.ne_none_iff_exists'.mp present
  rw [chosen, Option.some_or] at located
  obtain ⟨other, _, rfl⟩ := List.mem_map.mp (List.mem_of_find?_eq_some chosen)
  have same : freshState shapeId other = row := Option.some.inj (located.symm.trans found)
  exact same ▸ rfl

theorem register_component_topology_preserved {records : MembershipRecords} {shape : Shape} (held : RecordInvariant db)
    (registered : registerComponentTopology records db shape = .ok next) : Preserved db next := by
  simp only [registerComponentTopology, Lib.bind_ok, snapshot_or_ok] at registered
  obtain ⟨_, ⟨rfl, formed⟩, active, _, _, _, _, _, existing, _, inserted, added, initialized, started, reconciled⟩ :=
    registered
  have new : ∀ component ∈ ((shape.hoefleinComponents.zip existing).filter fun entry => !entry.2).map Prod.fst,
      component ∈ shape.hoefleinComponents := by
    intro component member
    obtain ⟨entry, listed, rfl⟩ := List.mem_map.mp member
    exact (List.of_mem_zip (List.mem_filter.mp listed).1).1
  have first := insert_topology_preserved held formed new added
  have frame := initialize_frame started
  have unstarted := created_unstarted (fun component member => hoeflein_component_canonical (new component member)) added
  have still : Unstarted initialized (((shape.hoefleinComponents.zip existing).filter fun entry => !entry.2).map Prod.fst) :=
    fun component member row found => unstarted component member row (frame.states ▸ found)
  have second := first.trans (frame.preserved first.invariant)
  exact second.trans (reconcile_preserved second.invariant still reconciled)

end Registration

end MicroWorkflow
