import MicroWorkflow.DagScheduler

set_option autoImplicit false

namespace MicroWorkflow

open Lib (Run Dict.get Dict.set Dict.pop)

structure FlightRecord where
  future : Nat
  unit : Component
  pumps : ApiPumps

def UnitScheduler.Covers (scheduler : UnitScheduler) (unit : Component) (pumps : ApiPumps) : Prop :=
  pumps.map Prod.fst = scheduler.unitApiNodes unit ∧ ∀ entry ∈ pumps, 1 ≤ entry.2

structure Tracked (scheduler : UnitScheduler) (run : DagExecution) (records : List FlightRecord) : Prop where
  futures : run.futures = records.map fun record => (record.future, record.unit)
  pumps : run.futureApiPumps = records.map fun record => (record.future, record.pumps)
  flight : ∀ unit, unit ∈ run.inFlight ↔ unit ∈ records.map FlightRecord.unit
  numbered : (records.map FlightRecord.future).Nodup
  below : ∀ record ∈ records, record.future < run.submitted
  distinct : (records.map FlightRecord.unit).Nodup
  inside : ∀ record ∈ records, record.unit ∈ scheduler.units
  covered : ∀ record ∈ records, scheduler.Covers record.unit record.pumps
  begun : ∀ record ∈ records, Dict.get run.operations record.unit ≠ none
  kept : ∀ entry ∈ run.operations, scheduler.Covers entry.1 entry.2.apiPumpAllocations
  direct : scheduler.sequential = true → records = []

def Within (run : DagExecution) (records : List FlightRecord) : Prop :=
  ∀ record ∈ records, (run.heldPumps record.unit).total ≤ record.pumps.total

def DagExecution.KeepsWithin (run : DagExecution) (unit : Component) (apiPumps : ApiPumps) : Prop :=
  ∀ operation, Dict.get run.operations unit = some operation → operation.apiPumpAllocations.total ≤ apiPumps.total

section Operations

variable {scheduler : UnitScheduler} {run after : DagExecution} {records : List FlightRecord} {unit other : Component}
variable {apiPumps : ApiPumps} {written : OperationChange}

theorem Tracked.operations (tracked : Tracked scheduler run records)
    (operations : List (Component × ComponentExecutionOperation))
    (begun : ∀ record ∈ records, Dict.get operations record.unit ≠ none)
    (kept : ∀ entry ∈ operations, scheduler.Covers entry.1 entry.2.apiPumpAllocations) :
    Tracked scheduler { run with operations } records :=
  ⟨tracked.futures, tracked.pumps, tracked.flight, tracked.numbered, tracked.below, tracked.distinct, tracked.inside,
    tracked.covered, begun, kept, tracked.direct⟩

theorem Tracked.flags (tracked : Tracked scheduler run records) (stopAdmission admissionStopped : Bool) (phase : DagPhase) :
    Tracked scheduler { run with stopAdmission, admissionStopped, phase } records :=
  ⟨tracked.futures, tracked.pumps, tracked.flight, tracked.numbered, tracked.below, tracked.distinct, tracked.inside,
    tracked.covered, tracked.begun, tracked.kept, tracked.direct⟩

theorem change_held (unit other : Component) (written : OperationChange) :
    (run.change unit written).heldPumps other = run.heldPumps other := by
  rw [DagExecution.change]
  cases found : Dict.get run.operations unit with
  | none => rfl
  | some operation =>
      rw [DagExecution.heldPumps, DagExecution.heldPumps]
      by_cases here : other = unit
      · rw [here, Lib.Dict.get_set_self, found]
        rfl
      · rw [Lib.Dict.get_set_other here]

theorem change_get_other (different : other ≠ unit) :
    Dict.get (run.change unit written).operations other = Dict.get run.operations other := by
  rw [DagExecution.change]
  cases found : Dict.get run.operations unit with
  | none => rfl
  | some operation => exact Lib.Dict.get_set_other different

theorem change_get_none : Dict.get (run.change unit written).operations other = none ↔ Dict.get run.operations other = none := by
  by_cases here : other = unit
  · subst other
    rw [DagExecution.change]
    cases found : Dict.get run.operations unit with
    | none => rw [found]
    | some operation => simp
  · rw [change_get_other here]

theorem change_tables : (run.change unit written).futures = run.futures ∧
    (run.change unit written).futureApiPumps = run.futureApiPumps ∧ (run.change unit written).inFlight = run.inFlight ∧
    (run.change unit written).phase = run.phase := by
  rw [DagExecution.change]
  cases Dict.get run.operations unit with
  | none => exact ⟨rfl, rfl, rfl, rfl⟩
  | some operation => exact ⟨rfl, rfl, rfl, rfl⟩

theorem change_tracked (tracked : Tracked scheduler run records) : Tracked scheduler (run.change unit written) records := by
  have begun : ∀ record ∈ records, Dict.get (run.change unit written).operations record.unit ≠ none :=
    fun record member missing => tracked.begun record member (change_get_none.mp missing)
  rw [DagExecution.change] at begun ⊢
  cases found : Dict.get run.operations unit with
  | none => exact tracked
  | some operation =>
      rw [found] at begun
      refine tracked.operations _ begun fun entry member => ?_
      rcases Lib.Dict.mem_set member with inside | rfl
      · exact tracked.kept entry inside
      · exact tracked.kept (unit, operation) (Lib.Dict.get_mem found)

theorem change_within (within : Within run records) : Within (run.change unit written) records := by
  intro record member
  rw [change_held]
  exact within record member

theorem operation_held (run : DagExecution) (unit : Component) (apiPumps : ApiPumps) :
    (run.componentOperation unit apiPumps).heldPumps unit =
      ((Dict.get run.operations unit).map ComponentExecutionOperation.apiPumpAllocations).getD apiPumps := by
  rw [DagExecution.componentOperation]
  cases found : Dict.get run.operations unit with
  | none =>
      rw [DagExecution.heldPumps, Lib.Dict.get_set_self]
      rfl
  | some operation =>
      rw [DagExecution.heldPumps, found]
      rfl

theorem operation_held_within (keeps : run.KeepsWithin unit apiPumps) :
    ((run.componentOperation unit apiPumps).heldPumps unit).total ≤ apiPumps.total := by
  rw [operation_held]
  cases found : Dict.get run.operations unit with
  | none => exact Nat.le_refl _
  | some operation => exact keeps operation found

theorem operation_get_other (different : other ≠ unit) :
    Dict.get (run.componentOperation unit apiPumps).operations other = Dict.get run.operations other := by
  rw [DagExecution.componentOperation]
  cases found : Dict.get run.operations unit with
  | none => exact Lib.Dict.get_set_other different
  | some operation => rfl

theorem operation_phase : (run.componentOperation unit apiPumps).phase = run.phase := by
  rw [DagExecution.componentOperation]
  cases Dict.get run.operations unit with
  | none => rfl
  | some operation => rfl

theorem operation_begun : Dict.get (run.componentOperation unit apiPumps).operations unit ≠ none := by
  rw [DagExecution.componentOperation]
  cases found : Dict.get run.operations unit with
  | none => simp
  | some operation => simp [found]

theorem operation_tracked (tracked : Tracked scheduler run records) (covers : scheduler.Covers unit apiPumps) :
    Tracked scheduler (run.componentOperation unit apiPumps) records := by
  rw [DagExecution.componentOperation]
  cases found : Dict.get run.operations unit with
  | some operation => exact tracked
  | none =>
      refine tracked.operations _ (fun record member => ?_) fun entry member => ?_
      · have other : record.unit ≠ unit := by
          intro same
          exact tracked.begun record member (same ▸ found)
        rw [Lib.Dict.get_set_other other]
        exact tracked.begun record member
      · rcases Lib.Dict.mem_set member with inside | rfl
        · exact tracked.kept entry inside
        · exact covers

theorem operation_covers (tracked : Tracked scheduler run records) (covers : scheduler.Covers unit apiPumps) :
    scheduler.Covers unit ((run.componentOperation unit apiPumps).heldPumps unit) := by
  rw [operation_held]
  cases found : Dict.get run.operations unit with
  | none => exact covers
  | some operation => exact tracked.kept (unit, operation) (Lib.Dict.get_mem found)

theorem discard_eq (discarded : run.discardUnstartedOperation unit = some after) :
    ∃ operations, after = { run with operations } ∧ (∀ entry ∈ operations, entry ∈ run.operations) ∧
      ∀ other, other ≠ unit → Dict.get operations other = Dict.get run.operations other := by
  rw [DagExecution.discardUnstartedOperation] at discarded
  cases found : Dict.get run.operations unit with
  | none =>
      rw [found] at discarded
      cases discarded
      exact ⟨run.operations, rfl, fun _ member => member, fun _ _ => rfl⟩
  | some operation =>
      rw [found] at discarded
      dsimp only at discarded
      by_cases started : operation.started
      · rw [if_pos started] at discarded
        cases discarded
      · rw [if_neg started] at discarded
        cases discarded
        exact ⟨_, rfl, fun _ member => (Lib.Dict.mem_pop.mp member).1, fun _ different => Lib.Dict.get_pop_other different⟩

theorem discard_tracked (tracked : Tracked scheduler run records) (away : unit ∉ records.map FlightRecord.unit)
    (discarded : run.discardUnstartedOperation unit = some after) :
    Tracked scheduler after records ∧ (Within run records → Within after records) := by
  obtain ⟨operations, rfl, kept, same⟩ := discard_eq discarded
  have different : ∀ record ∈ records, record.unit ≠ unit := by
    intro record member here
    exact away (here ▸ List.mem_map_of_mem member)
  refine ⟨tracked.operations operations (fun record member => ?_) fun entry member => tracked.kept entry (kept entry member),
    fun within record member => ?_⟩
  · rw [same record.unit (different record member)]
    exact tracked.begun record member
  · have held := within record member
    rw [DagExecution.heldPumps] at held ⊢
    rw [same record.unit (different record member)]
    exact held

theorem submit_tracked (tracked : Tracked scheduler run records) (idle : scheduler.sequential = false)
    (free : unit ∉ run.inFlight) (inside : unit ∈ scheduler.units) (covers : scheduler.Covers unit apiPumps)
    (begun : Dict.get run.operations unit ≠ none) :
    Tracked scheduler (run.submit unit apiPumps) (records ++ [⟨run.submitted, unit, apiPumps⟩]) := by
  have absent : unit ∉ records.map FlightRecord.unit := fun member => free ((tracked.flight unit).mpr member)
  have unused : run.submitted ∉ records.map FlightRecord.future := by
    intro member
    obtain ⟨record, listed, same⟩ := List.mem_map.mp member
    have below := tracked.below record listed
    omega
  constructor
  · show run.futures ++ [(run.submitted, unit)] = _
    rw [tracked.futures, List.map_append]
    rfl
  · show run.futureApiPumps ++ [(run.submitted, apiPumps)] = _
    rw [tracked.pumps, List.map_append]
    rfl
  · intro other
    show other ∈ insert unit run.inFlight ↔ _
    rw [Finset.mem_insert, tracked.flight, List.map_append, List.mem_append, or_comm]
    simp
  · rw [List.map_append, List.map_singleton, ← List.concat_eq_append]
    exact tracked.numbered.concat unused
  · intro record member
    show record.future < run.submitted + 1
    rcases List.mem_append.mp member with earlier | last
    · exact Nat.lt_succ_of_lt (tracked.below record earlier)
    · rw [List.mem_singleton.mp last]
      exact Nat.lt_succ_self _
  · rw [List.map_append, List.map_singleton, ← List.concat_eq_append]
    exact tracked.distinct.concat absent
  · intro record member
    rcases List.mem_append.mp member with earlier | last
    · exact tracked.inside record earlier
    · rw [List.mem_singleton.mp last]
      exact inside
  · intro record member
    rcases List.mem_append.mp member with earlier | last
    · exact tracked.covered record earlier
    · rw [List.mem_singleton.mp last]
      exact covers
  · intro record member
    rcases List.mem_append.mp member with earlier | last
    · exact tracked.begun record earlier
    · rw [List.mem_singleton.mp last]
      exact begun
  · exact tracked.kept
  · intro direct
    rw [idle] at direct
    cases direct

theorem release_tracked {record : FlightRecord} (tracked : Tracked scheduler run records) (member : record ∈ records) :
    Tracked scheduler (run.release record.future record.unit)
      (records.filter fun other => other.future ≠ record.future) := by
  have still : ∀ {other : FlightRecord}, other ∈ records.filter (fun other => other.future ≠ record.future) → other ∈ records :=
    fun inside => (List.mem_filter.mp inside).1
  have sublist : (records.filter fun other => other.future ≠ record.future).Sublist records := List.filter_sublist
  constructor
  · show Dict.pop run.futures record.future = _
    rw [tracked.futures, Dict.pop, List.filter_map]
    rfl
  · show Dict.pop run.futureApiPumps record.future = _
    rw [tracked.pumps, Dict.pop, List.filter_map]
    rfl
  · intro unit
    show unit ∈ run.inFlight.erase record.unit ↔ _
    rw [Finset.mem_erase, tracked.flight, List.mem_map, List.mem_map]
    constructor
    · rintro ⟨different, other, inside, rfl⟩
      refine ⟨other, List.mem_filter.mpr ⟨inside, decide_eq_true ?_⟩, rfl⟩
      intro same
      exact different (congrArg FlightRecord.unit (List.inj_on_of_nodup_map tracked.numbered inside member same))
    · rintro ⟨other, inside, rfl⟩
      refine ⟨?_, other, still inside, rfl⟩
      intro same
      have equal := List.inj_on_of_nodup_map tracked.distinct (still inside) member same
      exact of_decide_eq_true (List.mem_filter.mp inside).2 (congrArg FlightRecord.future equal)
  · exact tracked.numbered.sublist (sublist.map _)
  · exact fun other inside => tracked.below other (still inside)
  · exact tracked.distinct.sublist (sublist.map _)
  · exact fun other inside => tracked.inside other (still inside)
  · exact fun other inside => tracked.covered other (still inside)
  · exact fun other inside => tracked.begun other (still inside)
  · exact tracked.kept
  · intro direct
    rw [tracked.direct direct]
    rfl

theorem settle_unit_phase (outcome : UnitOutcome) : (scheduler.settleUnit run unit outcome).phase = run.phase ∨
    (scheduler.settleUnit run unit outcome).phase = .raised := by
  cases outcome with
  | finished written => exact .inl change_tables.2.2.2
  | paused written =>
      rw [UnitScheduler.settleUnit]
      cases discarded : (run.change unit written).discardUnstartedOperation unit with
      | none => exact .inr rfl
      | some after =>
          obtain ⟨operations, rfl, _⟩ := discard_eq discarded
          exact .inl change_tables.2.2.2
  | failed written => exact .inr rfl

theorem settle_unit_sound (tracked : Tracked scheduler run records) (away : unit ∉ records.map FlightRecord.unit)
    (outcome : UnitOutcome) :
    Tracked scheduler (scheduler.settleUnit run unit outcome) records ∧
      (Within run records → Within (scheduler.settleUnit run unit outcome) records) ∧
      ∀ other, other ≠ unit →
        Dict.get (scheduler.settleUnit run unit outcome).operations other = Dict.get run.operations other := by
  cases outcome with
  | finished written =>
      exact ⟨(change_tracked tracked).flags _ _ _, change_within, fun other different => change_get_other different⟩
  | paused written =>
      rw [UnitScheduler.settleUnit]
      cases discarded : (run.change unit written).discardUnstartedOperation unit with
      | none => exact ⟨(change_tracked tracked).flags _ _ _, change_within, fun other different => change_get_other different⟩
      | some after =>
          obtain ⟨kept, within⟩ := discard_tracked (change_tracked tracked) away discarded
          refine ⟨kept, fun before => within (change_within before), fun other different => ?_⟩
          obtain ⟨operations, rfl, _, same⟩ := discard_eq discarded
          exact (same other different).trans (change_get_other different)
  | failed written =>
      exact ⟨(change_tracked tracked).flags _ _ _, change_within, fun other different => change_get_other different⟩

theorem settle_sound (tracked : Tracked scheduler run records) (done : Nat × UnitOutcome) :
    ∃ left, Tracked scheduler (scheduler.settle run done) left ∧
      (Within run records → Within (scheduler.settle run done) left) := by
  rw [UnitScheduler.settle]
  by_cases concluded : run.phase = .raised
  · rw [if_pos concluded]
    exact ⟨records, tracked, id⟩
  · rw [if_neg concluded]
    cases found : Dict.get run.futures done.1 with
    | none => exact ⟨records, tracked.flags _ _ _, id⟩
    | some unit =>
        dsimp only
        by_cases flying : unit ∈ run.inFlight
        · rw [if_pos flying]
          have listed := Lib.Dict.get_mem found
          rw [tracked.futures] at listed
          obtain ⟨record, member, same⟩ := List.mem_map.mp listed
          obtain ⟨number, name⟩ := Prod.mk.inj same
          subst name
          rw [← number]
          have released := release_tracked tracked member
          have away : record.unit ∉ (records.filter fun other => other.future ≠ record.future).map FlightRecord.unit := by
            intro present
            have gone := (released.flight record.unit).mpr present
            exact Finset.notMem_erase record.unit run.inFlight gone
          obtain ⟨kept, within, _⟩ := settle_unit_sound released away done.2
          exact ⟨_, kept, fun before => within fun other inside => before other (List.mem_filter.mp inside).1⟩
        · rw [if_neg flying]
          exact ⟨records, tracked.flags _ _ _, id⟩

theorem settle_all_sound (tracked : Tracked scheduler run records) (done : List (Nat × UnitOutcome)) :
    ∃ left, Tracked scheduler (scheduler.settleAll run done) left ∧
      (Within run records → Within (scheduler.settleAll run done) left) := by
  have folded : ∃ left, Tracked scheduler (done.foldl scheduler.settle run) left ∧
      (Within run records → Within (done.foldl scheduler.settle run) left) := by
    induction done generalizing run records with
    | nil => exact ⟨records, tracked, id⟩
    | cons first rest ih =>
        obtain ⟨left, kept, within⟩ := settle_sound tracked first
        obtain ⟨last, ended, also⟩ := ih kept
        exact ⟨last, ended, fun before => also (within before)⟩
  obtain ⟨left, kept, within⟩ := folded
  rw [UnitScheduler.settleAll]
  by_cases concluded : (done.foldl scheduler.settle run).phase = .raised
  · rw [if_pos concluded]
    exact ⟨left, kept, within⟩
  · rw [if_neg concluded]
    exact ⟨left, kept.flags _ _ _, within⟩

end Operations

end MicroWorkflow
