import MicroWorkflow.RuntimeObservations

set_option autoImplicit false

namespace MicroWorkflow

open Lib (Table LastOfHighest keepHighest)

structure Invocation where
  nodeName : String
  jobId : Nat
  generation : Nat
  executionId : Option String
  sequence : Nat
deriving DecidableEq, Repr

namespace Invocation

def address (invocation : Invocation) : JobAddress := (invocation.nodeName, invocation.jobId)

def attempt (invocation : Invocation) : AttemptKey :=
  (invocation.nodeName, invocation.jobId, invocation.generation, invocation.executionId)

end Invocation

def observedStates : List String := "running" :: endingStates

structure Observation (invocation : Invocation) (sequences : RuntimeSequences) (update : RuntimeUpdate)
    (watchId : String) (position : Nat) : Prop where
  attempt : update.attempt = invocation.attempt
  order : update.order = some ⟨invocation.sequence, position⟩
  watch : update.watchId = some watchId
  registered : (sequences invocation.sequence).positions.lookup watchId = some position
  storedWatch : update.serialized.get "watch_id" = .text watchId
  storedState : update.serialized.get "state" = .text update.state
  known : update.state ∈ observedStates

def Observed (invocation : Invocation) (sequences : RuntimeSequences) (update : RuntimeUpdate) : Prop :=
  ∃ watchId position, Observation invocation sequences update watchId position

def RuntimeUpdate.position (update : RuntimeUpdate) : Nat := update.order.elim 0 RuntimeObservationOrder.position

def PositionsDistinct (sequence : RuntimeObservationSequence) : Prop :=
  ∀ left right position, sequence.positions.lookup left = some position →
    sequence.positions.lookup right = some position → left = right

def admits (row : Job) (update : RuntimeUpdate) : Bool := row.generation == update.generation && runtimeFence update row

def storable (sequences : RuntimeSequences) (row : Job) (update : RuntimeUpdate) : Bool :=
  !runtimeSuperseded sequences (some row) update && runtimeGuard update row

-- The order of submission decides: no write of the group can be stored, or the one merged last among those
-- of the group's latest watch can be, and of the other writes of that watch the later ones run after it has
-- ended and none has ended before it runs.
def SubmissionDecides (sequences : RuntimeSequences) (row : Job) (writes : List RuntimeUpdate) : Prop :=
  (∀ update ∈ writes, storable sequences row update = false) ∨
    ∀ latest, LastOfHighest RuntimeUpdate.position latest writes → admits row latest = true ∧
      ∀ update ∈ writes, update.watchId = latest.watchId →
        (latest.submission < update.submission → latest.state ≠ "running" ∧ update.state = "running") ∧
        (update.submission < latest.submission → latest.state = "running" → update.state = "running")

def submissionOrder (writes : List RuntimeUpdate) : List RuntimeUpdate :=
  writes.insertionSort fun left right => left.submission ≤ right.submission

def singleSlot (update : RuntimeUpdate) : RuntimeUpdateSlot := ⟨update.submission, 0, update, [update]⟩

def observationsInTurn (sequences : RuntimeSequences) (jobs : Table Job.address)
    (writes : List RuntimeUpdate) : Table Job.address :=
  writes.foldl (fun jobs update => applyRuntimeUpdates sequences jobs [singleSlot update]) jobs

section Observations

variable {invocation : Invocation} {sequences : RuntimeSequences} {update latest : RuntimeUpdate} {row : Job}
  {watchId : String} {position : Nat} {writes : List RuntimeUpdate}

theorem Observation.position_eq (observed : Observation invocation sequences update watchId position) :
    update.position = position := by
  rw [RuntimeUpdate.position, observed.order, Option.elim_some]

theorem Observed.attempt_eq (observed : Observed invocation sequences update) : update.attempt = invocation.attempt := by
  obtain ⟨_, _, facts⟩ := observed
  exact facts.attempt

theorem Observed.address_eq (observed : Observed invocation sequences update) : update.address = invocation.address := by
  have same := observed.attempt_eq
  simp only [RuntimeUpdate.attempt, Invocation.attempt, Prod.mk.injEq] at same
  simp only [RuntimeUpdate.address, Invocation.address, same]

theorem Observed.known_state (observed : Observed invocation sequences update) :
    update.state = "running" ∨ update.state ∈ endingStates := by
  obtain ⟨_, _, facts⟩ := observed
  exact List.mem_cons.mp facts.known

theorem ending_is_settled {state : String} (ending : state ∈ endingStates) : state ∈ settledStates := by
  simp only [endingStates, settledStates, List.mem_cons] at ending ⊢
  tauto

theorem running_not_settled : "running" ∉ settledStates := by decide

theorem same_watch (distinct : PositionsDistinct (sequences invocation.sequence))
    (first : Observed invocation sequences update) (second : Observed invocation sequences latest)
    (same : update.position = latest.position) : update.watchId = latest.watchId := by
  obtain ⟨left, leftPosition, leftFacts⟩ := first
  obtain ⟨right, rightPosition, rightFacts⟩ := second
  rw [leftFacts.position_eq, rightFacts.position_eq] at same
  rw [leftFacts.watch, rightFacts.watch]
  exact congrArg some (distinct left right leftPosition leftFacts.registered (same ▸ rightFacts.registered))

theorem same_position (first : Observed invocation sequences update) (second : Observed invocation sequences latest)
    (same : update.watchId = latest.watchId) : update.position = latest.position := by
  obtain ⟨left, leftPosition, leftFacts⟩ := first
  obtain ⟨right, rightPosition, rightFacts⟩ := second
  rw [leftFacts.watch, rightFacts.watch, Option.some.injEq] at same
  have registered := leftFacts.registered
  rw [same, rightFacts.registered, Option.some.injEq] at registered
  rw [leftFacts.position_eq, rightFacts.position_eq, registered]

theorem latest_keeps_highest (first : Observed invocation sequences update) (second : Observed invocation sequences latest) :
    latestRuntimeUpdate update latest = keepHighest RuntimeUpdate.position update latest := by
  obtain ⟨left, leftPosition, leftFacts⟩ := first
  obtain ⟨right, rightPosition, rightFacts⟩ := second
  simp [latestRuntimeUpdate, keepHighest, RuntimeUpdate.position, leftFacts.order, rightFacts.order]

theorem foldl_keeps_highest {rest : List RuntimeUpdate} (own : Observed invocation sequences update)
    (each : ∀ other ∈ rest, Observed invocation sequences other) :
    rest.foldl latestRuntimeUpdate update = rest.foldl (keepHighest RuntimeUpdate.position) update := by
  induction rest generalizing update with
  | nil => rfl
  | cons other rest ih =>
      have next := each other List.mem_cons_self
      have moved := latest_keeps_highest own next
      have kept : Observed invocation sequences (latestRuntimeUpdate update other) := by
        cases latest_of_two update other with
        | inl before => rw [before]; exact own
        | inr after => rw [after]; exact next
      rw [List.foldl_cons, List.foldl_cons, ih kept fun later listed => each later (List.mem_cons_of_mem _ listed), moved]

theorem kept_is_last (each : ∀ update ∈ writes, Observed invocation sequences update) (kept : keptUpdate writes = some latest) :
    LastOfHighest RuntimeUpdate.position latest writes := by
  cases writes with
  | nil => exact absurd kept (by simp [keptUpdate])
  | cons first rest =>
      have same := foldl_keeps_highest (each first List.mem_cons_self)
        fun other listed => each other (List.mem_cons_of_mem _ listed)
      rw [keptUpdate, same, Option.some.injEq] at kept
      rw [← kept]
      exact Lib.foldl_keepHighest first rest

theorem superseded_after (own : Observed invocation sequences update) (stored : Observed invocation sequences latest) :
    runtimeSuperseded sequences (some (setRuntime latest row)) update = decide (update.position < latest.position) := by
  obtain ⟨left, leftPosition, leftFacts⟩ := own
  obtain ⟨right, rightPosition, rightFacts⟩ := stored
  simp [runtimeSuperseded, leftFacts.order, setRuntime, watchOf, rightFacts.storedWatch, textOf, precedes,
    rightFacts.registered, RuntimeUpdate.position, rightFacts.order]

theorem settled_after (own : Observed invocation sequences update) (stored : Observed invocation sequences latest) :
    runningAfterSettled update (setRuntime latest row) =
      (update.state == "running" && (update.watchId == latest.watchId && settledStates.contains latest.state)) := by
  obtain ⟨left, leftPosition, leftFacts⟩ := own
  obtain ⟨right, rightPosition, rightFacts⟩ := stored
  have watches : otherWatch update.watchId latest.serialized = !(update.watchId == latest.watchId) := by
    by_cases same : left = right
    · simp [otherWatch, leftFacts.watch, rightFacts.watch, rightFacts.storedWatch, same]
    · have apart : (left == right) = false := beq_false_of_ne same
      have other : (Value.text right != Value.text left) = true := bne_iff_ne.mpr (by simpa using Ne.symm same)
      simp [otherWatch, leftFacts.watch, rightFacts.watch, rightFacts.storedWatch, apart, other]
  have states : unsettledState latest.serialized = !settledStates.contains latest.state := by
    simp [unsettledState, rightFacts.storedState]
  simp [runningAfterSettled, setRuntime, watches, states]

theorem guard_of_row (here : row.address = update.address) :
    runtimeGuard update row = (admits row update && !runningAfterSettled update row) := by
  simp [runtimeGuard, admits, here]

theorem store_refused
    (refused : runtimeSuperseded sequences (some row) update = true ∨ admits row update = false ∨
      runningAfterSettled update row = true) : storeRuntime sequences row update = row := by
  by_cases superseded : runtimeSuperseded sequences (some row) update = true
  · rw [storeRuntime, if_pos superseded]
  · have closed : ¬ runtimeGuard update row = true := by
      intro opened
      simp only [runtimeGuard, Bool.and_eq_true, Bool.not_eq_true'] at opened
      cases refused with
      | inl before => exact superseded before
      | inr rest =>
          cases rest with
          | inl fenced => simp [admits, opened.1.1.2, opened.1.2] at fenced
          | inr settled => exact absurd settled (by simp [opened.2])
    rw [storeRuntime, if_neg superseded, if_neg closed]

theorem store_unstorable (closed : storable sequences row update = false) : storeRuntime sequences row update = row := by
  by_cases superseded : runtimeSuperseded sequences (some row) update = true
  · rw [storeRuntime, if_pos superseded]
  · have shut : runtimeGuard update row = false := by simpa [storable, superseded] using closed
    rw [storeRuntime, if_neg superseded, if_neg (by simp [shut])]

theorem store_admitted (here : row.address = update.address) (current : runtimeSuperseded sequences (some row) update = false)
    (admitted : admits row update = true) (unsettled : runningAfterSettled update row = false) :
    storeRuntime sequences row update = setRuntime update row := by
  simp [storeRuntime, current, guard_of_row here, admitted, unsettled]

theorem store_cases (sequences : RuntimeSequences) (row : Job) (update : RuntimeUpdate) :
    storeRuntime sequences row update = row ∨
      (storeRuntime sequences row update = setRuntime update row ∧
        runtimeSuperseded sequences (some row) update = false ∧ runningAfterSettled update row = false) := by
  by_cases superseded : runtimeSuperseded sequences (some row) update = true
  · exact .inl (by rw [storeRuntime, if_pos superseded])
  · by_cases opened : runtimeGuard update row = true
    · refine .inr ⟨by rw [storeRuntime, if_neg superseded, if_pos opened], by simpa using superseded, ?_⟩
      simp only [runtimeGuard, Bool.and_eq_true, Bool.not_eq_true'] at opened
      exact opened.2
    · exact .inl (by rw [storeRuntime, if_neg superseded, if_neg opened])

theorem superseded_below (own : Observed invocation sequences update) (other : Observed invocation sequences latest)
    (below : update.position ≤ latest.position) (superseded : runtimeSuperseded sequences (some row) latest = true) :
    runtimeSuperseded sequences (some row) update = true := by
  obtain ⟨left, leftPosition, leftFacts⟩ := own
  obtain ⟨right, rightPosition, rightFacts⟩ := other
  rw [leftFacts.position_eq, rightFacts.position_eq] at below
  simp only [runtimeSuperseded, leftFacts.order, rightFacts.order, Option.bind_some] at superseded ⊢
  cases watch : watchOf row.runtimeJson with
  | none => simp [watch, precedes] at superseded
  | some stored =>
      cases registered : (sequences invocation.sequence).positions.lookup stored with
      | none => simp [watch, precedes, registered] at superseded
      | some position =>
          simp only [watch, precedes, registered, decide_eq_true_eq] at superseded ⊢
          exact Nat.lt_of_le_of_lt below superseded

def HoldsObservation (invocation : Invocation) (sequences : RuntimeSequences) (runtime : Option Details) : Prop :=
  runtime = none ∨ ∃ update, Observed invocation sequences update ∧ runtime = some update.serialized

theorem fresh_row_refuses_nothing (empty : row.runtimeJson = none) :
    runtimeSuperseded sequences (some row) update = false ∧ runningAfterSettled update row = false := by
  have unordered : runtimeSuperseded sequences (some row) update = false := by
    cases ordered : update.order with
    | none => simp [runtimeSuperseded, ordered]
    | some order => simp [runtimeSuperseded, ordered, empty, watchOf, precedes]
  exact ⟨unordered, by simp [runningAfterSettled, empty]⟩

theorem set_stored {stored : RuntimeUpdate} (same : row.runtimeJson = some stored.serialized) :
    setRuntime stored row = row := by
  cases row
  simp only at same
  rw [setRuntime, ← same]

theorem all_refused (distinct : PositionsDistinct (sequences invocation.sequence))
    (each : ∀ update ∈ writes, Observed invocation sequences update)
    (holds : HoldsObservation invocation sequences row.runtimeJson)
    (last : LastOfHighest RuntimeUpdate.position latest writes)
    (running : ∀ update ∈ writes, update.watchId = latest.watchId → latest.state = "running" → update.state = "running")
    (refused : runtimeSuperseded sequences (some row) latest = true ∨ runningAfterSettled latest row = true) :
    ∀ update ∈ writes, storeRuntime sequences row update = row := by
  intro update listed
  have own := each update listed
  have chosen := each latest last.mem
  have below := last.bound listed
  by_cases superseded : runtimeSuperseded sequences (some row) latest = true
  · exact store_refused (.inl (superseded_below own chosen below superseded))
  · have settled := refused.resolve_left superseded
    cases holds with
    | inl empty =>
        have fresh : runtimeSuperseded sequences (some row) latest = false ∧ runningAfterSettled latest row = false :=
          fresh_row_refuses_nothing empty
        exact absurd settled (by simp [fresh.2])
    | inr found =>
        obtain ⟨stored, observed, holds⟩ := found
        rw [← set_stored holds] at settled ⊢
        rw [settled_after chosen observed, Bool.and_eq_true, Bool.and_eq_true, beq_iff_eq, beq_iff_eq] at settled
        obtain ⟨runs, watch, ended⟩ := settled
        have position := same_position chosen observed watch
        by_cases lower : update.position < latest.position
        · apply store_refused
          left
          rw [superseded_after own observed, ← position]
          exact decide_eq_true lower
        · have same := same_watch distinct own chosen (Nat.le_antisymm below (Nat.le_of_not_lt lower))
          apply store_refused
          right; right
          rw [settled_after own observed, same, running update listed same runs]
          simpa [watch] using ended

structure StillOpen (sequences : RuntimeSequences) (latest : RuntimeUpdate) (row reached : Job) : Prop where
  address : reached.address = latest.address
  admitted : admits reached latest = true
  current : runtimeSuperseded sequences (some reached) latest = false
  unsettled : runningAfterSettled latest reached = false
  result : setRuntime latest reached = setRuntime latest row

theorem StillOpen.store {reached : Job} (still : StillOpen sequences latest row reached) :
    storeRuntime sequences reached latest = setRuntime latest row := by
  rw [store_admitted still.address still.current still.admitted still.unsettled, still.result]

theorem StillOpen.after_write {reached : Job} (still : StillOpen sequences latest row reached)
    (own : Observed invocation sequences update) (chosen : Observed invocation sequences latest)
    (below : update.position ≤ latest.position)
    (running : update.watchId = latest.watchId → latest.state = "running" → update.state = "running") :
    StillOpen sequences latest row (storeRuntime sequences reached update) := by
  cases store_cases sequences reached update with
  | inl same => rw [same]; exact still
  | inr written =>
      rw [written.1]
      refine ⟨still.address, still.admitted, ?_, ?_, still.result⟩
      · rw [superseded_after chosen own]
        exact decide_eq_false (Nat.not_lt.mpr below)
      · rw [settled_after chosen own]
        by_cases runs : latest.state = "running"
        · by_cases watch : latest.watchId = update.watchId
          · have state := running watch.symm runs
            simp [state, running_not_settled]
          · simp [watch]
        · simp [runs]

theorem refused_after_decision (distinct : PositionsDistinct (sequences invocation.sequence))
    (own : Observed invocation sequences update) (chosen : Observed invocation sequences latest)
    (below : update.position ≤ latest.position)
    (ended : update.watchId = latest.watchId → latest.state ≠ "running" ∧ update.state = "running") :
    storeRuntime sequences (setRuntime latest row) update = setRuntime latest row := by
  by_cases lower : update.position < latest.position
  · apply store_refused
    left
    rw [superseded_after own chosen]
    exact decide_eq_true lower
  · have watch := same_watch distinct own chosen (Nat.le_antisymm below (Nat.le_of_not_lt lower))
    have settled := ending_is_settled (chosen.known_state.resolve_left (ended watch).1)
    apply store_refused
    right; right
    rw [settled_after own chosen, (ended watch).2, watch]
    simp [settled]

theorem submission_split (numbered : (writes.map RuntimeUpdate.submission).Nodup) (member : latest ∈ writes) :
    ∃ before after, submissionOrder writes = before ++ latest :: after ∧ (∀ update ∈ before, update ∈ writes) ∧
      ∀ update ∈ after, update ∈ writes ∧ latest.submission < update.submission := by
  have perm : (submissionOrder writes).Perm writes := List.perm_insertionSort _ _
  obtain ⟨before, after, split⟩ := List.append_of_mem (perm.mem_iff.mpr member)
  have sorted : (submissionOrder writes).Pairwise fun left right => left.submission ≤ right.submission :=
    List.pairwise_insertionSort _ _
  have unique := (perm.map RuntimeUpdate.submission).nodup_iff.mpr numbered
  have listed : ∀ update, update ∈ before ++ latest :: after → update ∈ writes := by
    intro update inside
    rw [← split] at inside
    exact perm.mem_iff.mp inside
  rw [split] at sorted unique
  refine ⟨before, after, split, fun update early => listed update (List.mem_append_left _ early), ?_⟩
  intro update late
  refine ⟨listed update (List.mem_append_right _ (List.mem_cons_of_mem _ late)), ?_⟩
  have order : latest.submission ≤ update.submission :=
    (List.pairwise_cons.mp (List.pairwise_append.mp sorted).2.1).1 update late
  have apart : latest.submission ≠ update.submission := by
    intro same
    rw [List.map_append, List.map_cons] at unique
    have fresh := (List.nodup_cons.mp (List.nodup_append.mp unique).2.1).1
    exact fresh (same ▸ List.mem_map_of_mem late)
  exact Nat.lt_of_le_of_ne order apart

theorem row_in_turn (distinct : PositionsDistinct (sequences invocation.sequence)) (here : row.address = invocation.address)
    (each : ∀ update ∈ writes, Observed invocation sequences update) (numbered : (writes.map RuntimeUpdate.submission).Nodup)
    (holds : HoldsObservation invocation sequences row.runtimeJson) (decides : SubmissionDecides sequences row writes)
    (last : LastOfHighest RuntimeUpdate.position latest writes) :
    (submissionOrder writes).foldl (storeRuntime sequences) row = storeRuntime sequences row latest := by
  have perm : (submissionOrder writes).Perm writes := List.perm_insertionSort _ _
  have chosen := each latest last.mem
  have unchanged : (∀ update ∈ writes, storeRuntime sequences row update = row) →
      (submissionOrder writes).foldl (storeRuntime sequences) row = storeRuntime sequences row latest := by
    intro refused
    rw [refused latest last.mem]
    exact Lib.foldl_refused fun update listed => refused update (perm.mem_iff.mp listed)
  cases decides with
  | inl closed =>
      exact unchanged fun update listed => store_unstorable (closed update listed)
  | inr decided =>
      obtain ⟨admitted, others⟩ := decided latest last
      have running : ∀ update ∈ writes, update.watchId = latest.watchId → latest.state = "running" →
          update.state = "running" := by
        intro update listed watch runs
        by_cases later : latest.submission < update.submission
        · exact ((others update listed watch).1 later).2
        · by_cases earlier : update.submission < latest.submission
          · exact (others update listed watch).2 earlier runs
          · have same := List.inj_on_of_nodup_map numbered listed last.mem
              (Nat.le_antisymm (Nat.le_of_not_lt later) (Nat.le_of_not_lt earlier))
            rw [same]
            exact runs
      by_cases refused : runtimeSuperseded sequences (some row) latest = true ∨ runningAfterSettled latest row = true
      · exact unchanged (all_refused distinct each holds last running refused)
      · have current : runtimeSuperseded sequences (some row) latest = false := by
          simpa using fun superseded => refused (.inl superseded)
        have unsettled : runningAfterSettled latest row = false := by simpa using fun settled => refused (.inr settled)
        have start : StillOpen sequences latest row row :=
          ⟨here.trans chosen.address_eq.symm, admitted, current, unsettled, rfl⟩
        obtain ⟨before, after, split, early, late⟩ := submission_split numbered last.mem
        rw [split, start.store]
        apply Lib.foldl_settled start
        · intro update listed reached still
          have member := early update listed
          exact still.after_write (each update member) chosen (last.bound member) (running update member)
        · exact fun reached still => still.store
        · intro update listed
          obtain ⟨member, later⟩ := late update listed
          exact refused_after_decision distinct (each update member) chosen (last.bound member)
            fun watch => (others update member watch).1 later

end Observations

end MicroWorkflow
