import MicroWorkflow.FiberPumpRuns

set_option autoImplicit false

namespace MicroWorkflow

open Lib (Run)

variable {Any Failure Future : Type}

section Order

variable {α : Type} {left middle right : HeapEntry α}

theorem before_total (left right : HeapEntry α) : left.before right ∨ right.before left := by
  rcases lt_trichotomy left.deadline right.deadline with earlier | same | later
  · exact .inl (.inl earlier)
  · exact (Nat.le_total left.serial right.serial).imp (fun first => .inr ⟨same, first⟩) fun second => .inr ⟨same.symm, second⟩
  · exact .inr (.inl later)

theorem before_deadline (order : left.before right) : left.deadline ≤ right.deadline := by
  rcases order with earlier | ⟨same, _⟩
  · exact le_of_lt earlier
  · exact le_of_eq same

theorem before_trans (first : left.before middle) (second : middle.before right) : left.before right := by
  rcases first with earlier | ⟨same, early⟩
  · exact .inl (lt_of_lt_of_le earlier (before_deadline second))
  · rcases second with later | ⟨equal, late⟩
    · exact .inl (same ▸ later)
    · exact .inr ⟨same.trans equal, Nat.le_trans early late⟩

theorem heap_push_sorted {heap : List (HeapEntry α)} (sorted : heap.Pairwise HeapEntry.before) (entry : HeapEntry α) :
    (heapPush heap entry).Pairwise HeapEntry.before := by
  have total : Std.Total (HeapEntry.before : HeapEntry α → HeapEntry α → Prop) := ⟨before_total⟩
  have chain : IsTrans (HeapEntry α) HeapEntry.before := ⟨fun _ _ _ => before_trans⟩
  exact sorted.orderedInsert entry heap

theorem heap_rebuilt_sorted (entries : List (HeapEntry α)) {heap : List (HeapEntry α)} (sorted : heap.Pairwise HeapEntry.before) :
    (entries.foldl heapPush heap).Pairwise HeapEntry.before := by
  induction entries generalizing heap with
  | nil => exact sorted
  | cons first rest ih => exact ih (heap_push_sorted sorted first)

theorem undue_of_sorted {heap : List (HeapEntry α)} (sorted : heap.Pairwise HeapEntry.before) (now : Rat) :
    ∀ entry ∈ heap.dropWhile fun entry => entry.deadline ≤ now, now < entry.deadline := by
  induction heap with
  | nil => exact nofun
  | cons first rest ih =>
      intro entry inside
      rw [List.dropWhile_cons] at inside
      by_cases due : first.deadline ≤ now
      · rw [if_pos (decide_eq_true due)] at inside
        exact ih sorted.of_cons entry inside
      · rw [if_neg (by simpa using due)] at inside
        rcases List.mem_cons.mp inside with rfl | later
        · exact lt_of_not_ge due
        · exact lt_of_lt_of_le (lt_of_not_ge due) (before_deadline (List.rel_of_pairwise_cons sorted later))

end Order

theorem HeapsOrdered.same {before after : FiberRuntime Any Failure Future} (ordered : HeapsOrdered before)
    (sleepers : after.sleepers = before.sleepers) (deadlines : after.futureDeadlines = before.futureDeadlines) :
    HeapsOrdered after :=
  ⟨sleepers ▸ ordered.sleepers, deadlines ▸ ordered.deadlines⟩

variable [DecidableEq Future]

section Heaps

variable {runtime : FiberRuntime Any Failure Future}

theorem process_deadlines_ordered (ordered : HeapsOrdered runtime) (now : Rat) (checks : WaitKey → Option Failure) :
    HeapsOrdered (runtime.processDeadlines now checks) := by
  have quiet := process_deadlines_quiet now checks runtime
  refine ⟨?_, ?_⟩
  · rw [quiet.sleepers]
    exact ordered.sleepers.sublist (List.dropWhile_sublist _)
  · rw [quiet.deadlines]
    exact ordered.deadlines.sublist (List.dropWhile_sublist _)

theorem poll_cancellation_ordered (ordered : HeapsOrdered runtime) (distinct : (runtime.futureWaiters.map Prod.fst).Nodup)
    (checks : WaitKey → Option Failure) : HeapsOrdered (runtime.pollCancellation checks) := by
  refine ⟨heap_rebuilt_sorted _ List.Pairwise.nil, ?_⟩
  rw [(poll_cancellation_quiet checks runtime distinct).deadlines]
  exact ordered.deadlines

theorem suspend_ordered (ordered : HeapsOrdered runtime) (index : Nat) (state : FiberState Any Future)
    (request : FiberRequest Future) :
    HeapsOrdered (runtime.suspend index state request) := by
  cases request with
  | sleep deadline checked => exact ⟨heap_push_sorted ordered.sleepers _, ordered.deadlines⟩
  | future future deadline checked =>
      have entered : ∀ before : FiberRuntime Any Failure Future, HeapsOrdered before →
        HeapsOrdered (before.enterFuture future) := by
        intro before sorted
        have core := enter_future_core before future
        exact sorted.same (congrArg FiberRuntime.sleepers core :) (congrArg FiberRuntime.futureDeadlines core :)
      unfold FiberRuntime.suspend
      dsimp only
      have waiting := entered { runtime with
        states := runtime.states.set index { state with waitToken := state.waitToken + 1, pendingFuture := some future } }
        (ordered.same rfl rfl)
      cases deadline with
      | none => exact ⟨waiting.sleepers, waiting.deadlines⟩
      | some limit => exact ⟨waiting.sleepers, heap_push_sorted waiting.deadlines _⟩

theorem resume_state_ordered (ordered : HeapsOrdered runtime) (index : Nat) (yielded : FiberYield Any Failure Future) :
    HeapsOrdered (runtime.resumeState index yielded) := by
  refine resume_state_elim index yielded ordered (fun state results error => ?_) fun state request => ?_
  · exact ordered.same rfl rfl
  · exact suspend_ordered ordered index state request

theorem pump_step_ordered {pump pump' : FiberPump Any Failure Future} {label : PumpLabel} (held : PumpHeld pump)
    (ordered : HeapsOrdered pump.runtime) (step : PumpStep pump label pump') : HeapsOrdered pump'.runtime := by
  cases step with
  | settled fresh => exact ⟨ordered.sleepers, ordered.deadlines⟩
  | elapsed passed => exact ordered
  | @started item _ _ =>
      have created : HeapsOrdered (pump.runtime.newState item) := ordered.same rfl rfl
      exact resume_state_ordered created _ _
  | resumed _ =>
      unfold FiberPump.resume
      cases pump.runtime.ready with
      | nil => exact ordered
      | cons first rest =>
          have popped : HeapsOrdered { pump.runtime with ready := rest } := ordered.same rfl rfl
          dsimp only
          cases pump.runtime.states[first.1]? with
          | none => exact popped
          | some state =>
              dsimp only
              split
              · exact popped
              · exact resume_state_ordered popped _ _
  | taken _ waiting =>
      obtain ⟨future, rest, top⟩ := List.exists_cons_of_ne_nil waiting
      obtain ⟨quiet, _⟩ := take_future_quiet top
      exact ordered.same quiet.sleepers quiet.deadlines
  | rechecked _ =>
      have rechecked := recheck_same pump.runtime
      exact ordered.same (congrArg FiberRuntime.sleepers rechecked :) (congrArg FiberRuntime.futureDeadlines rechecked :)
  | put _ => exact ⟨ordered.sleepers, ordered.deadlines⟩
  | set _ => exact ⟨ordered.sleepers, ordered.deadlines⟩
  | entered _ => exact ordered
  | drained _ _ => exact ordered
  | cleared _ => exact ⟨ordered.sleepers, ordered.deadlines⟩
  | deadlines _ passed => exact process_deadlines_ordered ordered _ _
  | polled _ => exact poll_cancellation_ordered ordered held.runtime.tabled.distinct _
  | dropped _ => exact ⟨ordered.sleepers, ordered.deadlines.sublist (List.dropWhile_sublist _)⟩

structure TimersHeld (pump : FiberPump Any Failure Future) : Prop where
  held : PumpHeld pump
  heaps : HeapsOrdered pump.runtime

theorem reachable_timers_held {clock : Rat} {labels : List PumpLabel} {pump : FiberPump Any Failure Future}
    (run : Run PumpStep (FiberPump.fresh clock) labels pump) : TimersHeld pump :=
  run.invariant ⟨fresh_pump_held clock, List.Pairwise.nil, List.Pairwise.nil⟩ fun kept step =>
    ⟨pump_step_held kept.held step, pump_step_ordered kept.held kept.heaps step⟩

end Heaps

section Timers

variable {runtime : FiberRuntime Any Failure Future} {clock : Rat} {polls : List (WaitKey → Option Failure)}
  {requests : List (WaitKey × FiberRequest Future)} {key : WaitKey}
  {request : FiberRequest Future} {limit : Rat}

def FiberRequest.due : FiberRequest Future → Option Rat
  | .future _ deadline _ => deadline
  | .sleep deadline _ => some deadline

theorem due_listed (held : RuntimeHeld runtime clock polls requests) (asked : (key, request) ∈ requests)
    (waits : runtime.stillWaits key = true) (unready : runtime.readyOf key.1 = []) (due : request.due = some limit) :
    (∃ entry ∈ runtime.sleepers, entry.deadline = limit) ∨
      ∃ entry ∈ runtime.futureDeadlines, entry.deadline = limit ∧ entry.entry.2 = key ∧ key ∉ runtime.retired ∧
        runtime.awaitsFuture entry.entry.1 key = true := by
  obtain ⟨state, found, live, token⟩ := still_waits_iff.mp waits
  have placed := held.placed.suspended key.1 state found live
  rw [token] at placed
  cases placed with
  | ready _ ready _ _ _ =>
      rw [unready] at ready
      cases ready
  | @awaiting future deadline checked wanted _ pending _ active _ timed =>
      cases request_unique held.asked asked wanted
      obtain ⟨entry, inside, same, who⟩ := timed limit due
      refine .inr ⟨entry, inside, same, by rw [who], active, ?_⟩
      rw [who]
      exact awaits_future_iff.mpr ⟨state, found, live, token, pending⟩
  | @asleep deadline checked wanted _ _ sleeper =>
      cases request_unique held.asked asked wanted
      cases due
      obtain ⟨entry, inside, same, _⟩ := sleeper
      exact .inl ⟨entry, inside, same⟩

theorem kept_of_awaited {entry : HeapEntry (Future × WaitKey)} (inside : entry ∈ runtime.futureDeadlines)
    (active : entry.entry.2 ∉ runtime.retired) (awaited : runtime.awaitsFuture entry.entry.1 entry.entry.2 = true) :
    entry ∈ runtime.dropStaleDeadlines.futureDeadlines := by
  have parts := List.takeWhile_append_dropWhile (p := fun entry : HeapEntry (Future × WaitKey) =>
    decide (entry.entry.2 ∈ runtime.retired) || !runtime.awaitsFuture entry.entry.1 entry.entry.2) (l := runtime.futureDeadlines)
  rw [← parts, List.mem_append] at inside
  rcases inside with early | late
  · have stale := List.mem_takeWhile_imp early
    simp [active, awaited] at stale
  · exact late

theorem timeout_bounds (runtime : FiberRuntime Any Failure Future) (now nextPoll : Rat) :
    (∀ first rest, runtime.sleepers = first :: rest → runtime.nextWaitTimeout now nextPoll ≤ max 0 (first.deadline - now)) ∧
      ∀ first rest, runtime.dropStaleDeadlines.futureDeadlines = first :: rest →
        runtime.nextWaitTimeout now nextPoll ≤ max 0 (first.deadline - now) := by
  unfold FiberRuntime.nextWaitTimeout
  cases runtime.sleepers with
  | nil =>
      cases runtime.dropStaleDeadlines.futureDeadlines with
      | nil => exact ⟨by rintro _ _ ⟨⟩, by rintro _ _ ⟨⟩⟩
      | cons timed later =>
          refine ⟨by rintro _ _ ⟨⟩, ?_⟩
          rintro _ _ ⟨⟩
          exact min_le_right _ _
  | cons slept rest =>
      cases runtime.dropStaleDeadlines.futureDeadlines with
      | nil =>
          refine ⟨?_, by rintro _ _ ⟨⟩⟩
          rintro _ _ ⟨⟩
          exact min_le_right _ _
      | cons timed later =>
          refine ⟨?_, ?_⟩
          · rintro _ _ ⟨⟩
            exact (min_le_left _ _).trans (min_le_right _ _)
          · rintro _ _ ⟨⟩
            exact min_le_right _ _

theorem first_deadline_le {α : Type} {heap rest : List (HeapEntry α)} {first entry : HeapEntry α}
    (sorted : heap.Pairwise HeapEntry.before) (top : heap = first :: rest) (inside : entry ∈ heap) :
    first.deadline ≤ entry.deadline := by
  rw [top] at sorted inside
  rcases List.mem_cons.mp inside with rfl | later
  · exact le_rfl
  · exact before_deadline (List.rel_of_pairwise_cons sorted later)

theorem waits_until_due (held : RuntimeHeld runtime clock polls requests) (ordered : HeapsOrdered runtime)
    (asked : (key, request) ∈ requests) (waits : runtime.stillWaits key = true) (unready : runtime.readyOf key.1 = [])
    (due : request.due = some limit) (now nextPoll : Rat) : runtime.nextWaitTimeout now nextPoll ≤ max 0 (limit - now) := by
  obtain ⟨slept, timed⟩ := timeout_bounds runtime now nextPoll
  have sooner : ∀ first : Rat, first ≤ limit → max 0 (first - now) ≤ max 0 (limit - now) :=
    fun first earlier => max_le_max_left 0 (sub_le_sub_right earlier now)
  rcases due_listed held asked waits unready due with ⟨entry, inside, rfl⟩ | ⟨entry, inside, rfl, rfl, active, awaited⟩
  · cases top : runtime.sleepers with
    | nil =>
        rw [top] at inside
        cases inside
    | cons first rest => exact (slept first rest top).trans (sooner _ (first_deadline_le ordered.sleepers top inside))
  · have kept := kept_of_awaited inside active awaited
    have sorted : runtime.dropStaleDeadlines.futureDeadlines.Pairwise HeapEntry.before :=
      ordered.deadlines.sublist (List.dropWhile_sublist _)
    cases top : runtime.dropStaleDeadlines.futureDeadlines with
    | nil =>
        rw [top] at kept
        cases kept
    | cons first rest => exact (timed first rest top).trans (sooner _ (first_deadline_le sorted top kept))

theorem undue_after_deadlines (held : RuntimeHeld runtime clock polls requests) (ordered : HeapsOrdered runtime) {now : Rat}
    (passed : now ≤ clock) {checks : WaitKey → Option Failure} (polled : checks ∈ polls) (asked : (key, request) ∈ requests)
    (waits : (runtime.processDeadlines now checks).stillWaits key = true)
    (unready : (runtime.processDeadlines now checks).readyOf key.1 = []) (due : request.due = some limit) : now < limit := by
  have quiet := process_deadlines_quiet now checks runtime
  rcases due_listed (process_deadlines_held held passed polled) asked waits unready due with ⟨entry,
    inside, rfl⟩ | ⟨entry, inside, rfl, _⟩
  · rw [quiet.sleepers] at inside
    exact undue_of_sorted ordered.sleepers now entry inside
  · rw [quiet.deadlines] at inside
    exact undue_of_sorted ordered.deadlines now entry inside

theorem awaited_future (held : RuntimeHeld runtime clock polls requests) (signalled : Signalled runtime) {index : Nat}
    {state : FiberState Any Future} {future : Future} (found : runtime.states[index]? = some state) (live : state.done = false)
    (pending : state.pendingFuture = some future) (settled : (Lib.Dict.get runtime.settled future).isSome) :
    future ∈ runtime.calling ∨ future ∈ runtime.completedFutures := by
  have placed := held.placed.suspended index state found live
  rw [pending] at placed
  cases placed with
  | ready _ _ _ unpending _ => cases unpending
  | asleep _ _ unpending _ => cases unpending
  | awaiting _ _ same waiter _ _ _ =>
      cases same
      obtain ⟨waiters, known, _⟩ := waiter
      refine (signalled.heard _ (by rw [known]; rfl)).resolve_left fun waiting => ?_
      rw [signalled.unsettled _ waiting] at settled
      cases settled

-- No wake-up is lost. Where the pump may wait, the settled future of a waiting fiber has set the event, or its
-- callback is still to put it in or to set the event; a pass that has found the queue empty leaves only futures whose
-- callback is still to come, the deadlines leave nothing that is due, and no wait lasts past a deadline.
theorem pump_leaves_no_wait_behind {clock : Rat} {labels : List PumpLabel} {pump : FiberPump Any Failure Future}
    (run : Run PumpStep (FiberPump.fresh clock) labels pump) :
    (pump.phase = .outside → ∀ (index : Nat) state future, pump.runtime.states[index]? = some state → state.done = false →
        state.pendingFuture = some future → (Lib.Dict.get pump.runtime.settled future).isSome →
        pump.runtime.wake = true ∨ future ∈ pump.runtime.calling ∨ future ∈ pump.runtime.signalling) ∧
      (∀ next, PumpStep pump .drained next → ∀ (index : Nat) state future, next.runtime.states[index]? = some state →
        state.done = false → state.pendingFuture = some future → (Lib.Dict.get next.runtime.settled future).isSome →
        future ∈ next.runtime.calling) ∧
      (∀ now checks asked limit, now ≤ pump.clock → asked ∈ pump.requests →
        (pump.runtime.processDeadlines now checks).stillWaits asked.1 = true →
        (pump.runtime.processDeadlines now checks).readyOf asked.1.1 = [] → asked.2.due = some limit → now < limit) ∧
      ∀ now nextPoll asked limit, asked ∈ pump.requests → pump.runtime.stillWaits asked.1 = true →
        pump.runtime.readyOf asked.1.1 = [] → asked.2.due = some limit →
        pump.runtime.nextWaitTimeout now nextPoll ≤ max 0 (limit - now) := by
  obtain ⟨held, ordered⟩ := reachable_timers_held run
  refine ⟨?_, ?_, ?_, ?_⟩
  · intro outside index state future found live pending settled
    rcases awaited_future held.runtime held.signalled found live pending settled with calling | done
    · exact .inr (.inl calling)
    · exact (held.woken outside future done).imp id .inr
  · intro next step index state future found live pending settled
    have after := pump_step_held held step
    rcases awaited_future after.runtime after.signalled found live pending settled with calling | done
    · exact calling
    · cases step with
      | drained _ empty => cases empty ▸ done
  · intro now checks asked limit passed inside waits unready due
    have polled : RuntimeHeld pump.runtime pump.clock (pump.polls ++ [checks]) pump.requests :=
      elapse_held held.runtime le_rfl fun _ => List.mem_append_left _
    exact undue_after_deadlines polled ordered passed (List.mem_append_right _ List.mem_cons_self) inside waits unready due
  · intro now nextPoll asked limit inside waits unready due
    exact waits_until_due held.runtime ordered inside waits unready due now nextPoll

def racedPump : FiberPump Nat Nat Nat :=
  { waitingPump with
    runtime := (((waitingPump.runtime.settleFuture 5 (.ok 4)).putCompleted 5).setWake 5).clearWake.recheckWake }

theorem raced_clear_wakes : racedPump.runtime.wake = true ∨ 5 ∈ racedPump.runtime.calling ∨ 5 ∈ racedPump.runtime.signalling := by
  have drained := (waiting_run.snoc (.entered rfl)).snoc (.drained rfl (by decide +kernel))
  have settled := drained.snoc (@PumpStep.settled _ _ _ _ _ 5 (.ok 4) (by decide +kernel))
  have put := (settled.snoc (@PumpStep.put _ _ _ _ _ 5 (by decide +kernel))).snoc (@PumpStep.set _ _ _ _ _ 5 (by decide +kernel))
  have run : Run PumpStep (FiberPump.fresh 0) _ racedPump := (put.snoc (.cleared rfl)).snoc (.rechecked rfl)
  exact (pump_leaves_no_wait_behind run).1 rfl 0 ⟨7, false, 1, some 5⟩ 5 rfl rfl rfl (by decide +kernel)

end Timers

end MicroWorkflow
