import Mathlib.Data.List.ReduceOption
import MicroWorkflow.RetryLadder

set_option autoImplicit false

namespace MicroWorkflow

def Stage.key (stage : Stage) : String × Nat := (stage.kind, stage.attempt)

variable {ρ ε : Type} {keys executed : List (String × Nat)} {key : String × Nat} {node : MountedNode}
  {outside : LadderOutside ρ ε}

def rungKeys (node : MountedNode) : List (String × Nat) := (ladderRungs node).map LadderRung.key

theorem task_stage_keys (kind : String) (task : MountedTask) :
    (taskStages kind task).map Stage.key = (taskRungs kind task 1 (task.retries + 1)).map LadderRung.key := by
  rw [taskStages, taskRungs, List.map_map, List.map_map]
  refine List.map_congr_left fun before _ => ?_
  show (kind, before + 1) = (kind, 1 + before)
  rw [Nat.add_comm]

theorem filter_stage_keys (node : MountedNode) : (filterStages node).map Stage.key = rungKeys node := by
  rw [filterStages, rungKeys, ladderRungs, List.map_append, List.map_append, task_stage_keys, fallbackRungs, List.map_flatMap,
    List.map_flatMap]
  congr 1
  congr 1
  funext fallback
  exact task_stage_keys fallback.name fallback

section Segment

variable {events : List (LadderEvent ε)}

theorem no_segment (unstarted : ∀ event ∈ events, event.isStarted = false) : currentExecutionEvents events = [] := by
  induction events with
  | nil => rfl
  | cons event rest ih =>
      rw [currentExecutionEvents, ih fun other member => unstarted other (List.mem_cons_of_mem event member)]
      dsimp only
      rw [unstarted event List.mem_cons_self]
      rfl

theorem current_execution_segment (older : List (LadderEvent ε)) (unstarted : ∀ event ∈ events, event.isStarted = false) :
    currentExecutionEvents (older ++ .started :: events) = .started :: events := by
  induction older with
  | nil =>
      rw [List.nil_append, currentExecutionEvents, no_segment unstarted]
      rfl
  | cons event rest ih =>
      rw [List.cons_append, currentExecutionEvents, ih]

end Segment

section Lookup

theorem stage_lookup_present (present : key ∈ keys) : stageLookup key keys ≠ none := by
  induction keys with
  | nil => cases present
  | cons first rest ih =>
      rw [stageLookup]
      cases below : stageLookup key rest with
      | some index => nofun
      | none =>
          rcases List.mem_cons.mp present with rfl | inside
          · rw [if_pos rfl]
            nofun
          · exact absurd below (ih inside)

theorem stage_lookup_found {index : Nat} (found : stageLookup key keys = some index) :
    keys[index]? = some key ∧ ∀ later, index < later → keys[later]? ≠ some key := by
  induction keys generalizing index with
  | nil => cases found
  | cons first rest ih =>
      rw [stageLookup] at found
      cases inner : stageLookup key rest with
      | some deeper =>
          rw [inner] at found
          cases found
          obtain ⟨here, none_later⟩ := ih inner
          refine ⟨by simpa using here, fun later less => ?_⟩
          obtain ⟨before, rfl⟩ : ∃ before, later = before + 1 := ⟨later - 1, by omega⟩
          simpa using none_later before (by omega)
      | none =>
          rw [inner] at found
          by_cases same : first = key
          · rw [if_pos same] at found
            cases found
            refine ⟨by simp [same], fun later less again => ?_⟩
            obtain ⟨before, rfl⟩ : ∃ before, later = before + 1 := ⟨later - 1, by omega⟩
            have member : key ∈ rest := by
              rw [List.getElem?_cons_succ] at again
              exact List.mem_of_getElem? again
            exact stage_lookup_present member inner
          · rw [if_neg same] at found
            cases found

theorem mem_seen_stages {index : Nat} :
    index ∈ seenStages keys executed ↔ index = 0 ∨ ∃ key ∈ executed.tail, stageLookup key keys = some index := by
  have marked : ∀ (items : List (String × Nat)) (indexes : Finset Nat),
      index ∈ items.foldl (markStage keys) indexes ↔ index ∈ indexes ∨ ∃ key ∈ items, stageLookup key keys = some index := by
    intro items
    induction items with
    | nil => simp
    | cons item rest ih =>
        intro indexes
        rw [List.foldl_cons, ih, markStage]
        cases found : stageLookup item keys with
        | some place =>
            dsimp only
            rw [Finset.mem_insert]
            constructor
            · rintro ((here | before) | ⟨key, member, known⟩)
              · exact .inr ⟨item, List.mem_cons_self, by rw [found, here]⟩
              · exact .inl before
              · exact .inr ⟨key, List.mem_cons_of_mem item member, known⟩
            · rintro (before | ⟨key, member, known⟩)
              · exact .inl (.inr before)
              · rcases List.mem_cons.mp member with rfl | later
                · rw [found] at known
                  cases known
                  exact .inl (.inl rfl)
                · exact .inr ⟨key, later, known⟩
        | none =>
            dsimp only
            constructor
            · rintro (before | ⟨key, member, known⟩)
              · exact .inl before
              · exact .inr ⟨key, List.mem_cons_of_mem item member, known⟩
            · rintro (before | ⟨key, member, known⟩)
              · exact .inl before
              · rcases List.mem_cons.mp member with rfl | later
                · rw [found] at known
                  cases known
                · exact .inr ⟨key, later, known⟩
  rw [seenStages, marked, Finset.mem_singleton]

end Lookup

section Configured

theorem mem_task_keys {kind : String} {task : MountedTask} {first count : Nat} :
    key ∈ (taskRungs kind task first count).map LadderRung.key ↔
      key.1 = kind ∧ first ≤ key.2 ∧ key.2 < first + count := by
  rw [taskRungs, List.map_map, List.mem_map]
  constructor
  · rintro ⟨before, inside, rfl⟩
    have less := List.mem_range.mp inside
    exact ⟨rfl, Nat.le_add_right first before, Nat.add_lt_add_left less first⟩
  · rintro ⟨kindSame, low, high⟩
    refine ⟨key.2 - first, List.mem_range.mpr (by omega), ?_⟩
    show (kind, first + (key.2 - first)) = key
    rw [Nat.add_sub_cancel' low, ← kindSame]

theorem task_keys_nodup (kind : String) (task : MountedTask) (first count : Nat) :
    ((taskRungs kind task first count).map LadderRung.key).Nodup := by
  rw [taskRungs, List.map_map]
  refine List.nodup_range.map ?_
  intro before other same
  have numbers : first + before = first + other := congrArg Prod.snd same
  omega

def fallbackKeys (fallbacks : List MountedTask) : List (String × Nat) := (fallbackRungs fallbacks).map LadderRung.key

theorem mem_fallback_keys {fallbacks : List MountedTask} :
    key ∈ fallbackKeys fallbacks ↔ ∃ fallback ∈ fallbacks, key.1 = fallback.name ∧ 1 ≤ key.2 ∧ key.2 ≤ fallback.retries + 1 := by
  rw [fallbackKeys, fallbackRungs, List.map_flatMap, List.mem_flatMap]
  constructor
  · rintro ⟨fallback, mounted, member⟩
    obtain ⟨named, low, high⟩ := mem_task_keys.mp member
    exact ⟨fallback, mounted, named, low, by omega⟩
  · rintro ⟨fallback, mounted, named, low, high⟩
    exact ⟨fallback, mounted, mem_task_keys.mpr ⟨named, low, by omega⟩⟩

theorem fallback_keys_nodup {fallbacks : List MountedTask} (distinct : (fallbacks.map MountedTask.name).Nodup) :
    (fallbackKeys fallbacks).Nodup := by
  rw [fallbackKeys, fallbackRungs, List.map_flatMap, List.nodup_flatMap]
  refine ⟨fun fallback _ => task_keys_nodup fallback.name fallback 1 _, ?_⟩
  refine (List.pairwise_map.mp distinct).imp ?_
  intro fallback other different key here there
  have named := (mem_task_keys.mp here).1
  have renamed := (mem_task_keys.mp there).1
  exact different (named.symm.trans renamed)

theorem rung_keys_tail (node : MountedNode) :
    (rungKeys node).tail =
      (taskRungs "main" node.mainTask 2 node.mainTask.retries).map LadderRung.key ++ fallbackKeys node.fallbacks := by
  rw [rungKeys, ladderRungs, task_rungs_succ, List.map_append]
  rfl

def Collides (node : MountedNode) : Prop :=
  1 ≤ node.mainTask.retries ∧ ∃ fallback ∈ node.fallbacks, fallback.name = "main" ∧ 1 ≤ fallback.retries

theorem rung_keys_tail_nodup (apart : ¬ Collides node) : (rungKeys node).tail.Nodup := by
  rw [rung_keys_tail]
  refine (task_keys_nodup _ _ _ _).append (fallback_keys_nodup node.distinct) ?_
  intro key here there
  obtain ⟨kindMain, low, high⟩ := mem_task_keys.mp here
  obtain ⟨fallback, mounted, named, _, most⟩ := mem_fallback_keys.mp there
  exact apart ⟨by omega, fallback, mounted, named.symm.trans kindMain, by omega⟩

theorem second_key (collides : Collides node) : (rungKeys node)[1]? = some ("main", 2) := by
  obtain ⟨before, counted⟩ : ∃ before, node.mainTask.retries = before + 1 :=
    ⟨node.mainTask.retries - 1, by have := collides.1; omega⟩
  rw [← List.getElem?_tail, rung_keys_tail, counted, task_rungs_succ]
  rfl

theorem second_key_again (collides : Collides node) : ∃ later, 1 < later ∧ (rungKeys node)[later]? = some ("main", 2) := by
  obtain ⟨_, fallback, mounted, named, retried⟩ := collides
  have member : ("main", 2) ∈ fallbackKeys node.fallbacks :=
    mem_fallback_keys.mpr ⟨fallback, mounted, named.symm, by decide, by show 2 ≤ fallback.retries + 1; omega⟩
  obtain ⟨place, found⟩ := List.mem_iff_getElem?.mp member
  refine ⟨node.mainTask.retries + place + 1, by omega, ?_⟩
  rw [← List.getElem?_tail, rung_keys_tail, List.getElem?_append_right (by simp [taskRungs])]
  simpa [taskRungs] using found

end Configured

section Reading

def FirstFails (node : MountedNode) (outside : LadderOutside ρ ε) : Prop :=
  (∃ repeatIndex error, attemptEnd outside 0 node.mainTask.repeats = .failed repeatIndex error) ∧ outside.check 0 = none

theorem found_where_written {index : Nat} (alone : keys.tail.Nodup) (later : 1 ≤ index) (here : keys[index]? = some key) :
    stageLookup key keys = some index := by
  cases found : stageLookup key keys with
  | none => exact absurd found (stage_lookup_present (List.mem_of_getElem? here))
  | some place =>
      obtain ⟨there, none_later⟩ := stage_lookup_found found
      have low : index ≤ place := by
        by_contra before
        exact none_later index (by omega) here
      have tails : keys.tail[index - 1]? = keys.tail[place - 1]? := by
        rw [List.getElem?_tail, List.getElem?_tail, Nat.sub_add_cancel later, Nat.sub_add_cancel (later.trans low), here, there]
      have inside : index - 1 < keys.tail.length := by
        obtain ⟨less, _⟩ := List.getElem?_eq_some_iff.mp here
        rw [List.length_tail]
        omega
      have same := (List.getElem?_inj inside alone).mp tails
      rw [show place = index by omega]

theorem seen_prefix (alone : keys.tail.Nodup) {rest : List (String × Nat)} (split : keys = executed ++ rest)
    (some_attempt : executed ≠ []) : seenStages keys executed = Finset.range executed.length := by
  have at_key : ∀ index, index < executed.length → keys[index]? = executed[index]? := fun index less => by
    rw [split, List.getElem?_append_left less]
  have positive := List.length_pos_of_ne_nil some_attempt
  ext index
  rw [mem_seen_stages, Finset.mem_range]
  constructor
  · rintro (rfl | ⟨key, member, found⟩)
    · exact positive
    · obtain ⟨place, written⟩ := List.mem_iff_getElem?.mp member
      rw [List.getElem?_tail] at written
      obtain ⟨less, _⟩ := List.getElem?_eq_some_iff.mp written
      have same := found_where_written alone (Nat.le_add_left 1 place) ((at_key _ less).trans written)
      rw [found] at same
      cases same
      exact less
  · intro less
    rcases Nat.eq_zero_or_pos index with zero | later
    · exact .inl zero
    · have written := List.getElem?_eq_getElem less
      refine .inr ⟨executed[index], ?_, found_where_written alone later ((at_key index less).trans written)⟩
      refine List.mem_iff_getElem?.mpr ⟨index - 1, ?_⟩
      rw [List.getElem?_tail, Nat.sub_add_cancel later, written]

theorem second_never_seen (executed : List (String × Nat)) (collides : Collides node) :
    1 ∉ seenStages (rungKeys node) executed := by
  rw [mem_seen_stages]
  rintro (one | ⟨key, _, found⟩)
  · cases one
  · obtain ⟨here, none_later⟩ := stage_lookup_found found
    rw [second_key collides] at here
    obtain ⟨later, less, again⟩ := second_key_again collides
    exact none_later later less (again.trans here)

theorem ladder_length (node : MountedNode) : node.mainTask.retries + 1 ≤ (ladderRungs node).length := by
  rw [ladderRungs, List.length_append, taskRungs, List.length_map, List.length_range]
  exact Nat.le_add_right _ _

theorem first_rung {done rest : List LadderRung} {last : LadderRung} (rungs : ladderRungs node = done ++ last :: rest) :
    (done ++ [last])[0]? = some ⟨"main", 1, node.mainTask.repeats⟩ := by
  have first : (ladderRungs node)[0]? = some ⟨"main", 1, node.mainTask.repeats⟩ := by
    rw [ladderRungs, task_rungs_succ]
    rfl
  rw [rungs, List.append_cons, List.getElem?_append_left (by simp)] at first
  exact first

theorem failure_at_some {serial : Nat} {rung : LadderRung} {error : ε} (failed : failureAt outside serial rung = some error) :
    ∃ repeatIndex, attemptEnd outside serial rung.repeats = .failed repeatIndex error := by
  rw [failureAt] at failed
  cases ended : attemptEnd outside serial rung.repeats with
  | results values =>
      rw [ended] at failed
      cases failed
  | stopped stop =>
      rw [ended] at failed
      cases failed
  | failed repeatIndex known =>
      rw [ended] at failed
      cases failed
      exact ⟨repeatIndex, rfl⟩

def readStages (node : MountedNode) (older events : List (LadderEvent ε)) : Finset Nat :=
  stageIndexesForEvents (currentExecutionEvents (older ++ .started :: events)) (filterStages node)

theorem read_stages_seen (node : MountedNode) (older : List (LadderEvent ε)) {announced : List LadderRung} {kind : String}
    {state : LadderState ε} (told : Told (rungKeys node) announced kind state) :
    readStages node older state.events = seenStages (rungKeys node) (announced.map LadderRung.key) := by
  have stages : filterStages node ≠ [] := fun none => by
    have known := filter_stage_keys node
    rw [none, rungKeys, ladderRungs, task_rungs_succ] at known
    cases known
  rw [readStages, current_execution_segment older told.unstarted, stageIndexesForEvents]
  rw [if_neg fun empty => empty.elim (by simp) stages, List.tail_cons]
  have keyed : ((filterStages node).map fun stage => (stage.kind, stage.attempt)) = rungKeys node := filter_stage_keys node
  rw [keyed, told.read]

-- The attempts a run makes: a prefix of the configured stages up to the first attempt that does not fail,
-- or to the last; its failures are recorded in order and the one it reports is the last of them.
structure ClimbsLadder (node : MountedNode) (outside : LadderOutside ρ ε) (ending : TaskEnd ρ ε) (final : LadderState ε)
    (done : List LadderRung) (last : LadderRung) (rest : List LadderRung) : Prop where
  configured : (filterStages node).map Stage.key = (done ++ last :: rest).map LadderRung.key
  executed : final.executed = (done ++ [last]).map LadderRung.key
  earlierFailed : ∀ serial rung, done[serial]? = some rung →
    (∃ error, failureAt outside serial rung = some error) ∧ outside.check serial = none
  failures : final.failureHistory = ((done ++ [last]).mapIdx (failureAt outside)).reduceOption
  recorded : final.events.filterMap taskFailure = final.failureHistory
  ended : EndsAt outside done.length last ending ∨
    rest = [] ∧ outside.check done.length = none ∧ ∃ error, failureAt outside done.length last = some error ∧
      ending = .failed error ∧ final.failureHistory.getLast? = some error

def LadderAgrees (node : MountedNode) (outside : LadderOutside ρ ε) (preRecorded : Bool) (older : List (LadderEvent ε)) : Prop :=
  ∃ ending final done last rest, executeWithFallbacks node outside preRecorded = (ending, final) ∧
    ClimbsLadder node outside ending final done last rest ∧
    readStages node older final.events = Finset.range final.executed.length

theorem made_climbs {done rest : List LadderRung} {last : LadderRung} {ending : TaskEnd ρ ε} {final : LadderState ε}
    (rungs : ladderRungs node = done ++ last :: rest) (made : Made outside keys done last final)
    (ended : EndsAt outside done.length last ending ∨
      rest = [] ∧ outside.check done.length = none ∧ ∃ error, failureAt outside done.length last = some error ∧
        ending = .failed error) :
    ClimbsLadder node outside ending final done last rest where
  configured := by rw [filter_stage_keys, rungKeys, rungs]
  executed := made.executed
  earlierFailed := by
    intro serial rung here
    obtain ⟨earlier, failed, _⟩ := made.failures
    have less := (List.getElem?_eq_some_iff.mp here).1
    refine ⟨?_, made.checked serial less⟩
    have both : (done.mapIdx (failureAt outside))[serial]? = (earlier.map some)[serial]? := by rw [failed]
    rw [List.getElem?_mapIdx, here, List.getElem?_map, Option.map_some] at both
    cases known : earlier[serial]? with
    | none =>
        rw [known] at both
        cases both
    | some error =>
        rw [known] at both
        exact ⟨error, Option.some.inj both⟩
  failures := by
    obtain ⟨earlier, failed, history⟩ := made.failures
    rw [history, List.mapIdx_concat, failed, List.reduceOption_append, List.reduceOption_singleton]
    congr 1
    simp [List.reduceOption]
  recorded := made.told.elim fun _ told => told.failures
  ended := by
    rcases ended with passed | ⟨whole, checked, error, failed, reported⟩
    · exact .inl passed
    · obtain ⟨earlier, _, history⟩ := made.failures
      refine .inr ⟨whole, checked, error, failed, reported, ?_⟩
      rw [history, failed, Option.toList_some, List.getLast?_concat]

def collidingNode : MountedNode where
  mainTask := ⟨"fetch", 1, 1, by decide⟩
  fallbacks := [⟨"main", 1, 1, by decide⟩]
  distinct := by decide

def alwaysFails : LadderOutside Nat String := ⟨fun serial _ => .fails (toString serial), fun _ _ => [], fun _ => none⟩

end Reading

end MicroWorkflow
