import MicroWorkflow.FiberSuspension

set_option autoImplicit false

namespace MicroWorkflow

open Lib (Run)

variable {Any Failure Future : Type} [DecidableEq Future]

section Quiet

theorem Quiet.sleepers_set {before after : FiberRuntime Any Failure Future} (quiet : Quiet before after)
    (heap : List (HeapEntry (WaitKey × Bool))) : Quiet { before with sleepers := heap } { after with sleepers := heap } :=
  ⟨quiet.marks, quiet.settled, quiet.callbacks, quiet.completed, quiet.calling, quiet.signalling,
    quiet.wake, quiet.waiters, rfl, quiet.deadlines⟩

theorem Quiet.deadlines_set {before after : FiberRuntime Any Failure Future} (quiet : Quiet before after)
    (heap : List (HeapEntry (Future × WaitKey))) :
    Quiet { before with futureDeadlines := heap } { after with futureDeadlines := heap } :=
  ⟨quiet.marks, quiet.settled, quiet.callbacks, quiet.completed, quiet.calling, quiet.signalling,
    quiet.wake, quiet.waiters, quiet.sleepers, rfl⟩

theorem process_sleepers_quiet (now : Rat) (checks : WaitKey → Option Failure) (heap : List (HeapEntry (WaitKey × Bool)))
    (runtime : FiberRuntime Any Failure Future) (whole : runtime.sleepers = heap) :
    Quiet { runtime with sleepers := heap.dropWhile fun entry => entry.deadline ≤ now }
      (FiberRuntime.processSleepers now checks heap runtime) := by
  induction heap generalizing runtime with
  | nil => exact ⟨rfl, rfl, rfl, rfl, rfl, rfl, rfl, fun _ => id, whole, rfl⟩
  | cons first rest ih =>
      unfold FiberRuntime.processSleepers
      rw [List.dropWhile_cons]
      by_cases due : first.deadline ≤ now
      · rw [if_pos due, if_pos (decide_eq_true due)]
        have woken := wake_sleeper_quiet checks { runtime with sleepers := rest } first.entry.1 first.entry.2
        exact (woken.sleepers_set _).trans (ih _ woken.sleepers)
      · rw [if_neg due, if_neg (by simpa using due)]
        exact ⟨rfl, rfl, rfl, rfl, rfl, rfl, rfl, fun _ => id, whole, rfl⟩

theorem process_future_deadlines_quiet (now : Rat) (heap : List (HeapEntry (Future × WaitKey)))
    (runtime : FiberRuntime Any Failure Future)
    (whole : runtime.futureDeadlines = heap) :
    Quiet { runtime with futureDeadlines := heap.dropWhile fun entry => entry.deadline ≤ now }
      (FiberRuntime.processFutureDeadlines now heap runtime) := by
  induction heap generalizing runtime with
  | nil => exact ⟨rfl, rfl, rfl, rfl, rfl, rfl, rfl, fun _ => id, rfl, whole⟩
  | cons first rest ih =>
      unfold FiberRuntime.processFutureDeadlines
      rw [List.dropWhile_cons]
      by_cases due : first.deadline ≤ now
      · rw [if_pos due, if_pos (decide_eq_true due)]
        dsimp only
        split
        · exact ih { runtime with futureDeadlines := rest } rfl
        · have answered := answer_quiet { runtime with futureDeadlines := rest } first.entry.1 first.entry.2 .timedOut
          exact (answered.deadlines_set _).trans (ih _ answered.deadlines)
      · rw [if_neg due, if_neg (by simpa using due)]
        exact ⟨rfl, rfl, rfl, rfl, rfl, rfl, rfl, fun _ => id, rfl, whole⟩

theorem process_deadlines_quiet (now : Rat) (checks : WaitKey → Option Failure) (runtime : FiberRuntime Any Failure Future) :
    Quiet { runtime with
      sleepers := runtime.sleepers.dropWhile fun entry => entry.deadline ≤ now
      futureDeadlines := runtime.futureDeadlines.dropWhile fun entry => entry.deadline ≤ now }
      (runtime.processDeadlines now checks) := by
  have woken := process_sleepers_quiet now checks _ runtime rfl
  have same : runtime.processDeadlines now checks = FiberRuntime.processFutureDeadlines now runtime.futureDeadlines
      (FiberRuntime.processSleepers now checks runtime.sleepers runtime) :=
    congrArg (fun heap => FiberRuntime.processFutureDeadlines now heap _) woken.deadlines
  rw [same]
  exact (woken.deadlines_set _).trans (process_future_deadlines_quiet now _ _ woken.deadlines)

theorem poll_waiters_quiet (checks : WaitKey → Option Failure) (future : Future) (waiters : List FutureWaiter)
    (runtime : FiberRuntime Any Failure Future) :
    Quiet runtime (FiberRuntime.pollWaiters checks future waiters runtime).1 := by
  induction waiters generalizing runtime with
  | nil => exact Quiet.refl runtime
  | cons waiter rest ih =>
      rcases poll_waiters_cases checks future waiter rest runtime with ⟨_, same⟩ | ⟨error, _, same⟩ | same | ⟨_, same⟩
      · exact same ▸ ih runtime
      · exact same ▸ (answer_quiet runtime future waiter.key (.error error)).trans (ih _)
      · exact same ▸ ih runtime
      · have retired : Quiet runtime (runtime.retire waiter.key) := ⟨rfl, rfl, rfl, rfl, rfl, rfl, rfl, fun _ => id, rfl, rfl⟩
        exact same ▸ retired.trans (ih _)

theorem poll_future_quiet (checks : WaitKey → Option Failure) {entry : Future × List FutureWaiter}
    (runtime : FiberRuntime Any Failure Future)
    (present : (Lib.Dict.get runtime.futureWaiters entry.1).isSome) : Quiet runtime (runtime.pollFuture checks entry) := by
  have polled := poll_waiters_quiet checks entry.1 entry.2 runtime
  refine ⟨polled.marks, polled.settled, polled.callbacks, polled.completed, polled.calling,
    polled.signalling, polled.wake, fun other here => ?_, polled.sleepers,
    polled.deadlines⟩
  by_cases same : other = entry.1
  · rw [same]
    exact present
  · rw [FiberRuntime.pollFuture, kept_others _ _ same] at here
    exact polled.waiters other here

theorem poll_table_quiet (checks : WaitKey → Option Failure) (entries : List (Future × List FutureWaiter))
    (runtime : FiberRuntime Any Failure Future)
    (distinct : (entries.map Prod.fst).Nodup) (present : ∀ entry ∈ entries, (Lib.Dict.get runtime.futureWaiters entry.1).isSome) :
    Quiet runtime (entries.foldl (fun runtime entry => runtime.pollFuture checks entry) runtime) := by
  induction entries generalizing runtime with
  | nil => exact Quiet.refl runtime
  | cons entry rest ih =>
      rw [List.map_cons, List.nodup_cons] at distinct
      refine (poll_future_quiet checks runtime (present entry List.mem_cons_self)).trans (ih _ distinct.2 fun other later => ?_)
      rw [poll_future_others checks entry fun same => distinct.1 (same ▸ List.mem_map_of_mem later)]
      exact present other (List.mem_cons_of_mem _ later)

theorem poll_sleepers_quiet (checks : WaitKey → Option Failure) (heap : List (HeapEntry (WaitKey × Bool)))
    (runtime : FiberRuntime Any Failure Future) : Quiet runtime (FiberRuntime.pollSleepers checks heap runtime).1 := by
  induction heap generalizing runtime with
  | nil => exact Quiet.refl runtime
  | cons first rest ih =>
      rw [FiberRuntime.pollSleepers]
      by_cases waits : runtime.stillWaits first.entry.1 = true
      · rw [if_pos waits]
        cases FiberRuntime.raisedCheck checks first.entry.1 first.entry.2 with
        | some error =>
            have pushed : Quiet runtime (runtime.pushReady first.entry.1.1 (.error error)) :=
              ⟨rfl, rfl, rfl, rfl, rfl, rfl, rfl, fun _ => id, rfl, rfl⟩
            exact pushed.trans (ih _)
        | none => exact ih runtime
      · rw [if_neg waits]
        exact ih runtime

theorem poll_cancellation_quiet (checks : WaitKey → Option Failure) (runtime : FiberRuntime Any Failure Future)
    (distinct : (runtime.futureWaiters.map Prod.fst).Nodup) :
    Quiet { runtime with sleepers := (runtime.pollCancellation checks).sleepers } (runtime.pollCancellation checks) := by
  have polled := poll_table_quiet checks runtime.futureWaiters runtime distinct fun entry inside => by
    rw [Lib.Dict.get_of_mem distinct inside]
    rfl
  exact (polled.trans (poll_sleepers_quiet checks _ _)).sleepers_set _

end Quiet

section Signals

variable {runtime before after : FiberRuntime Any Failure Future} {future : Future}

theorem Signalled.of_parts (signalled : Signalled before) (settled : after.settled = before.settled)
    (callbacks : after.callbacks = before.callbacks) (calling : after.calling = before.calling)
    (completed : after.completedFutures = before.completedFutures)
    (waiters : ∀ future, (Lib.Dict.get after.futureWaiters future).isSome → (Lib.Dict.get before.futureWaiters future).isSome) :
    Signalled after := by
  refine ⟨fun future here => ?_, fun future waiting => ?_, fun future waiting => ?_, fun future done => ?_⟩
  · rw [callbacks, calling, completed]
    exact signalled.heard future (waiters future here)
  · rw [callbacks] at waiting
    rw [settled]
    exact signalled.unsettled future waiting
  · rw [calling] at waiting
    rw [settled]
    exact signalled.calling future waiting
  · rw [completed] at done
    rw [settled]
    exact signalled.completed future done

theorem Signalled.quiet {sleepers : List (HeapEntry (WaitKey × Bool))} {deadlines : List (HeapEntry (Future × WaitKey))}
    (signalled : Signalled before) (quiet : Quiet { before with sleepers := sleepers, futureDeadlines := deadlines } after) :
    Signalled after :=
  signalled.of_parts quiet.settled quiet.callbacks quiet.calling quiet.completed quiet.waiters

theorem Quiet.woken {sleepers : List (HeapEntry (WaitKey × Bool))} {deadlines : List (HeapEntry (Future × WaitKey))}
    (quiet : Quiet { before with sleepers := sleepers, futureDeadlines := deadlines } after)
    (woken : before.Woken) : after.Woken := by
  unfold FiberRuntime.Woken
  rw [quiet.completed, quiet.wake, quiet.signalling]
  exact woken

theorem take_future_quiet {rest : List Future} (top : runtime.completedFutures = future :: rest) :
    Quiet { runtime with completedFutures := rest } runtime.takeFuture ∧
      Lib.Dict.get runtime.takeFuture.futureWaiters future = none := by
  unfold FiberRuntime.takeFuture
  rw [top]
  exact process_future_quiet _ _

theorem take_future_signalled (signalled : Signalled runtime) : Signalled runtime.takeFuture := by
  cases top : runtime.completedFutures with
  | nil =>
      unfold FiberRuntime.takeFuture
      rw [top]
      exact signalled
  | cons future rest =>
      obtain ⟨quiet, gone⟩ := take_future_quiet top
      refine ⟨fun other here => ?_, fun other waiting => ?_, fun other waiting => ?_, fun other done => ?_⟩
      · rw [quiet.callbacks, quiet.calling, quiet.completed]
        refine (signalled.heard other (quiet.waiters other here)).imp id (Or.imp id fun done => ?_)
        rw [top] at done
        rcases List.mem_cons.mp done with rfl | later
        · rw [gone] at here
          cases here
        · exact later
      · rw [quiet.callbacks] at waiting
        rw [quiet.settled]
        exact signalled.unsettled other waiting
      · rw [quiet.calling] at waiting
        rw [quiet.settled]
        exact signalled.calling other waiting
      · rw [quiet.completed] at done
        rw [quiet.settled]
        exact signalled.completed other (top ▸ List.mem_cons_of_mem _ done)

theorem settled_fresh {settled : List (Future × Except Failure Any)} {outcome : Except Failure Any}
    (fresh : Lib.Dict.get settled future = none) :
    settled ++ [(future, outcome)] = Lib.Dict.set settled future outcome :=
  (Lib.Dict.set_fresh (Lib.Dict.get_none_iff.mp fresh)).symm

theorem settled_kept {settled : List (Future × Except Failure Any)} {outcome known : Except Failure Any} {other : Future}
    (fresh : Lib.Dict.get settled future = none) (found : Lib.Dict.get settled other = some known) :
    Lib.Dict.get (settled ++ [(future, outcome)]) other = some known := by
  have apart : other ≠ future := by
    rintro rfl
    rw [fresh] at found
    cases found
  rw [settled_fresh fresh, Lib.Dict.get_set_other apart, found]

theorem settled_some {settled : List (Future × Except Failure Any)} {outcome : Except Failure Any} {other : Future}
    (fresh : Lib.Dict.get settled future = none) (known : (Lib.Dict.get settled other).isSome) :
    (Lib.Dict.get (settled ++ [(future, outcome)]) other).isSome := by
  obtain ⟨before, found⟩ := Option.isSome_iff_exists.mp known
  rw [settled_kept fresh found]
  rfl

theorem settle_signalled {outcome : Except Failure Any} (signalled : Signalled runtime)
    (fresh : Lib.Dict.get runtime.settled future = none) : Signalled (runtime.settleFuture future outcome) := by
  refine ⟨fun other here => ?_, fun other waiting => ?_, fun other waiting => ?_, fun other done => ?_⟩
  · rcases signalled.heard other here with waiting | calling | done
    · by_cases same : other = future
      · exact .inr (.inl (List.mem_append_right _ (List.mem_filter.mpr ⟨waiting, decide_eq_true same⟩)))
      · exact .inl (List.mem_filter.mpr ⟨waiting, decide_eq_true same⟩)
    · exact .inr (.inl (List.mem_append_left _ calling))
    · exact .inr (.inr done)
  · obtain ⟨before, apart⟩ := List.mem_filter.mp waiting
    show Lib.Dict.get (runtime.settled ++ [(future, outcome)]) other = none
    rw [settled_fresh fresh, Lib.Dict.get_set_other (of_decide_eq_true apart)]
    exact signalled.unsettled other before
  · show (Lib.Dict.get (runtime.settled ++ [(future, outcome)]) other).isSome
    rcases List.mem_append.mp waiting with before | now
    · exact settled_some fresh (signalled.calling other before)
    · have same : other = future := of_decide_eq_true (List.mem_filter.mp now).2
      rw [same, settled_fresh fresh, Lib.Dict.get_set_self]
      rfl
  · exact settled_some fresh (signalled.completed other done)

theorem put_signalled (signalled : Signalled runtime) (called : future ∈ runtime.calling) :
    Signalled (runtime.putCompleted future) := by
  refine ⟨fun other here => ?_, signalled.unsettled, fun other waiting => ?_, fun other done => ?_⟩
  · refine (signalled.heard other here).imp id fun known => ?_
    rcases known with calling | done
    · by_cases same : other = future
      · exact .inr (List.mem_append_right _ (List.mem_singleton.mpr same))
      · exact .inl ((List.mem_erase_of_ne same).mpr calling)
    · exact .inr (List.mem_append_left _ done)
  · exact signalled.calling other (List.mem_of_mem_erase waiting)
  · rcases List.mem_append.mp done with before | new
    · exact signalled.completed other before
    · cases List.mem_singleton.mp new
      exact signalled.calling future called

theorem enter_future_signalled (signalled : Signalled runtime) (future : Future) : Signalled (runtime.enterFuture future) := by
  unfold FiberRuntime.enterFuture
  cases found : Lib.Dict.get runtime.futureWaiters future with
  | some _ => exact signalled
  | none =>
      unfold FiberRuntime.addDoneCallback
      have entered : ∀ other, (Lib.Dict.get (Lib.Dict.set runtime.futureWaiters future []) other).isSome →
          other = future ∨ (Lib.Dict.get runtime.futureWaiters other).isSome := by
        intro other here
        by_cases same : other = future
        · exact .inl same
        · rw [Lib.Dict.get_set_other same] at here
          exact .inr here
      by_cases known : (Lib.Dict.get runtime.settled future).isSome
      · rw [if_pos known]
        refine ⟨fun other here => ?_, signalled.unsettled, signalled.calling, fun other done => ?_⟩
        · rcases entered other here with rfl | before
          · exact .inr (.inr (List.mem_append_right _ List.mem_cons_self))
          · exact (signalled.heard other before).imp id (Or.imp id (List.mem_append_left _))
        · rcases List.mem_append.mp done with before | new
          · exact signalled.completed other before
          · cases List.mem_singleton.mp new
            exact known
      · rw [if_neg known]
        refine ⟨fun other here => ?_, fun other waiting => ?_, signalled.calling, signalled.completed⟩
        · rcases entered other here with rfl | before
          · exact .inl (List.mem_append_right _ List.mem_cons_self)
          · exact (signalled.heard other before).imp (List.mem_append_left _) id
        · rcases List.mem_append.mp waiting with before | new
          · exact signalled.unsettled other before
          · cases List.mem_singleton.mp new
            exact Option.not_isSome_iff_eq_none.mp known

theorem enter_future_woken (runtime : FiberRuntime Any Failure Future) (woken : runtime.Woken)
    (future : Future) : (runtime.enterFuture future).Woken := by
  unfold FiberRuntime.enterFuture
  cases Lib.Dict.get runtime.futureWaiters future with
  | some _ => exact woken
  | none =>
      unfold FiberRuntime.addDoneCallback
      by_cases known : (Lib.Dict.get runtime.settled future).isSome
      · rw [if_pos known]
        exact fun _ _ => .inl rfl
      · rw [if_neg known]
        exact woken

theorem append_waiter_signalled (signalled : Signalled runtime) (added : FutureWaiter)
    (present : (Lib.Dict.get runtime.futureWaiters future).isSome) : Signalled (runtime.appendWaiter future added) := by
  refine signalled.of_parts rfl rfl rfl rfl fun other here => ?_
  by_cases same : other = future
  · rw [same]
    exact present
  · unfold FiberRuntime.appendWaiter at here
    rw [Lib.Dict.get_set_other same] at here
    exact here

theorem entered_future (runtime : FiberRuntime Any Failure Future) (future : Future) :
    (Lib.Dict.get (runtime.enterFuture future).futureWaiters future).isSome := by
  rw [enter_future_waiters]
  split
  · assumption
  · rw [Lib.Dict.get_set_self]
    rfl

theorem suspend_signalled {state : FiberState Any Future} (signalled : Signalled runtime) (index : Nat)
    (request : FiberRequest Future) : Signalled (runtime.suspend index state request) := by
  cases request with
  | sleep deadline checked => exact signalled.of_parts rfl rfl rfl rfl fun _ => id
  | future future deadline checked =>
      unfold FiberRuntime.suspend
      dsimp only
      have waiting : Signalled { runtime with
          states := runtime.states.set index { state with waitToken := state.waitToken + 1, pendingFuture := some future } } :=
        signalled.of_parts rfl rfl rfl rfl fun _ => id
      have appended := append_waiter_signalled (enter_future_signalled waiting future) ⟨(index, state.waitToken + 1), checked⟩
        (entered_future _ future)
      cases deadline with
      | none => exact appended
      | some limit => exact appended.of_parts rfl rfl rfl rfl fun _ => id

theorem suspend_woken {state : FiberState Any Future} (woken : runtime.Woken) (index : Nat) (request : FiberRequest Future) :
    (runtime.suspend index state request).Woken := by
  cases request with
  | sleep deadline checked => exact woken
  | future future deadline checked =>
      let waiting := { runtime with
        states := runtime.states.set index { state with waitToken := state.waitToken + 1, pendingFuture := some future } }
      have entered : (waiting.enterFuture future).Woken := enter_future_woken waiting woken future
      cases deadline with
      | none => exact entered
      | some limit => exact entered

theorem resume_state_signalled (signalled : Signalled runtime) (woken : runtime.Woken) (index : Nat)
    (yielded : FiberYield Any Failure Future) :
    Signalled (runtime.resumeState index yielded) ∧ (runtime.resumeState index yielded).Woken := by
  refine resume_state_elim index yielded ⟨signalled, woken⟩ (fun state results error => ⟨?_, woken⟩) fun state request => ?_
  · exact signalled.of_parts rfl rfl rfl rfl fun _ => id
  · exact ⟨suspend_signalled signalled index request, suspend_woken woken index request⟩

end Signals

section Answered

variable {runtime : FiberRuntime Any Failure Future} {index : Nat} {state : FiberState Any Future} {key : WaitKey}

theorem resume_state_still_waits (found : runtime.states[index]? = some state) (live : state.done = false)
    (yielded : FiberYield Any Failure Future) :
    (runtime.resumeState index yielded).stillWaits key = true ↔ (key.1 ≠ index ∧ runtime.stillWaits key = true) ∨
      key ∈ (yielded.requested (index, state.waitToken + 1)).map Prod.fst := by
  have bound := (List.getElem?_eq_some_iff.mp found).1
  unfold FiberRuntime.resumeState
  rw [found]
  dsimp only
  rw [live, if_neg Bool.false_ne_true]
  cases yielded with
  | raises error => exact (still_waits_set bound rfl).trans (by simp [FiberYield.requested])
  | returns value => exact (still_waits_set bound rfl).trans (by simp [FiberYield.requested])
  | unsupported error => exact (still_waits_set bound rfl).trans (by simp [FiberYield.requested])
  | waits request =>
      cases request with
      | future future deadline checked =>
          have states := congrArg FiberRuntime.states (suspend_future_core runtime index state future deadline checked)
          refine (still_waits_set bound states).trans (or_congr_right ?_)
          simp [FiberYield.requested, Prod.ext_iff, live, eq_comm]
      | sleep deadline checked =>
          refine (still_waits_set bound rfl).trans (or_congr_right ?_)
          simp [FiberYield.requested, Prod.ext_iff, live, eq_comm]

end Answered

section Pump

variable {pump pump' : FiberPump Any Failure Future} {labels : List PumpLabel}

structure PumpHeld (pump : FiberPump Any Failure Future) : Prop where
  runtime : RuntimeHeld pump.runtime pump.clock pump.polls pump.requests
  signalled : Signalled pump.runtime
  woken : pump.phase = .outside → pump.runtime.Woken
  answered : ∀ answer ∈ pump.answers, ∃ request, (answer.key, request) ∈ pump.requests ∧
    Answers pump.runtime.settled answer.clock pump.polls answer.key request answer.resume
  once : (pump.answers.map PumpAnswer.key).Nodup
  past : ∀ answer ∈ pump.answers, pump.runtime.stillWaits answer.key = false
  current : ∀ asked ∈ pump.requests, asked.1 ∈ pump.answers.map PumpAnswer.key ∨ pump.runtime.stillWaits asked.1 = true

theorem fresh_pump_held (clock : Rat) : PumpHeld (FiberPump.fresh clock : FiberPump Any Failure Future) where
  runtime := by
    refine ⟨⟨nofun, nofun, nofun⟩, ⟨List.nodup_nil, nofun, ?_, nofun, List.nodup_nil⟩, List.nodup_nil, rfl, nofun, nofun⟩
    rintro future waiter ⟨waiters, found, _⟩
    cases found
  signalled := ⟨nofun, nofun, nofun, nofun⟩
  woken := fun _ => nofun
  answered := nofun
  once := List.nodup_nil
  past := nofun
  current := nofun

theorem PumpHeld.unresumed (held : PumpHeld pump)
    (runtime : RuntimeHeld pump'.runtime pump'.clock pump'.polls pump.requests) (signalled : Signalled pump'.runtime)
    (woken : pump'.phase = .outside → pump'.runtime.Woken)
    (marks : pump'.runtime.states.map FiberState.mark = pump.runtime.states.map FiberState.mark)
    (kept : ∀ future outcome, Lib.Dict.get pump.runtime.settled future = some outcome →
      Lib.Dict.get pump'.runtime.settled future = some outcome)
    (polls : ∀ checks ∈ pump.polls, checks ∈ pump'.polls)
    (requests : pump'.requests = pump.requests) (answers : pump'.answers = pump.answers) : PumpHeld pump' := by
  have same : ∀ key, pump'.runtime.stillWaits key = pump.runtime.stillWaits key := fun key => still_waits_of_marks marks
  refine ⟨?_, signalled, woken, ?_, ?_, ?_, ?_⟩
  · rw [requests]
    exact runtime
  · intro answer inside
    rw [answers] at inside
    obtain ⟨request, asked, given⟩ := held.answered answer inside
    rw [requests]
    exact ⟨request, asked, given.mono kept le_rfl polls⟩
  · rw [answers]
    exact held.once
  · rw [answers]
    exact fun answer inside => (same answer.key).trans (held.past answer inside)
  · rw [requests, answers]
    intro asked inside
    rw [same]
    exact held.current asked inside

theorem settle_held {runtime : FiberRuntime Any Failure Future} {clock : Rat} {polls : List (WaitKey → Option Failure)}
    {requests : List (WaitKey × FiberRequest Future)} {future : Future} {outcome : Except Failure Any}
    (held : RuntimeHeld runtime clock polls requests) (fresh : Lib.Dict.get runtime.settled future = none) :
    RuntimeHeld (runtime.settleFuture future outcome) clock polls requests := by
  refine ⟨⟨?_, held.placed.finished, held.placed.known⟩, ?_, held.asked, held.active, held.retired, held.tokens⟩
  · intro index state found live
    exact (held.placed.suspended index state found live).moved
      ⟨rfl, fun _ _ waiter _ => waiter, id, fun _ _ => Iff.rfl, fun _ _ => id, fun _ _ => settled_kept fresh⟩
      (fun _ => id) le_rfl fun _ => id
  · exact held.tabled.same rfl rfl rfl

theorem elapse_held {runtime : FiberRuntime Any Failure Future} {clock later : Rat}
    {polls morePolls : List (WaitKey → Option Failure)} {requests : List (WaitKey × FiberRequest Future)}
    (held : RuntimeHeld runtime clock polls requests) (passed : clock ≤ later) (further : ∀ checks ∈ polls, checks ∈ morePolls) :
    RuntimeHeld runtime later morePolls requests := by
  refine ⟨⟨?_, held.placed.finished, held.placed.known⟩, held.tabled, held.asked, held.active, held.retired, held.tokens⟩
  intro index state found live
  exact (held.placed.suspended index state found live).moved
    ⟨rfl, fun _ _ waiter _ => waiter, id, fun _ _ => Iff.rfl, fun _ _ => id, fun _ _ => id⟩ (fun _ => id) passed further

theorem resume_state_settled (runtime : FiberRuntime Any Failure Future) (index : Nat) (yielded : FiberYield Any Failure Future) :
    (runtime.resumeState index yielded).settled = runtime.settled := by
  refine resume_state_elim index yielded rfl (fun _ _ _ => rfl) fun state request => ?_
  cases request with
  | future future deadline checked =>
      have core := suspend_future_core runtime index state future deadline checked
      exact (congrArg FiberRuntime.settled core :)
  | sleep deadline checked => rfl

section Ran

variable {runtime : FiberRuntime Any Failure Future} {clock : Rat} {polls : List (WaitKey → Option Failure)}
  {requests : List (WaitKey × FiberRequest Future)}
  {index : Nat} {state : FiberState Any Future} {answers : List (PumpAnswer Any Failure)}

theorem ran_held (running : FiberRunning runtime clock polls requests index state) (signalled : Signalled runtime)
    (woken : runtime.Woken) (yielded : FiberYield Any Failure Future)
    (answered : ∀ answer ∈ answers, ∃ request, (answer.key, request) ∈ requests ∧
      Answers runtime.settled answer.clock polls answer.key request answer.resume)
    (once : (answers.map PumpAnswer.key).Nodup)
    (past : ∀ answer ∈ answers, answer.key.1 ≠ index → runtime.stillWaits answer.key = false)
    (current : ∀ asked ∈ requests, asked.1 ∈ answers.map PumpAnswer.key ∨
    (asked.1.1 ≠ index ∧ runtime.stillWaits asked.1 = true)) :
    PumpHeld ⟨runtime.resumeState index yielded, .outside, clock,
      requests ++ yielded.requested (index, state.waitToken + 1), polls, answers⟩ := by
  have waits : ∀ key, (runtime.resumeState index yielded).stillWaits key = true ↔
    (key.1 ≠ index ∧ runtime.stillWaits key = true) ∨
      key ∈ (yielded.requested (index, state.waitToken + 1)).map Prod.fst :=
    fun key => resume_state_still_waits running.found running.live yielded
  obtain ⟨heard, signal⟩ := resume_state_signalled signalled woken index yielded
  refine ⟨resume_state_held running yielded, heard, fun _ => signal, ?_, once, ?_, ?_⟩
  · intro answer inside
    obtain ⟨request, asked, given⟩ := answered answer inside
    refine ⟨request, List.mem_append_left _ asked, ?_⟩
    rw [resume_state_settled]
    exact given
  · intro answer inside
    obtain ⟨request, asked, _⟩ := answered answer inside
    refine Bool.eq_false_iff.mpr fun still => ?_
    rcases (waits answer.key).mp still with ⟨apart, before⟩ | new
    · rw [past answer inside apart] at before
      cases before
    · cases yielded with
      | waits wanted =>
          have same : answer.key = (index, state.waitToken + 1) := List.mem_singleton.mp new
          exact running.unasked (same ▸ List.mem_map_of_mem asked)
      | returns value => cases new
      | raises error => cases new
      | unsupported error => cases new
  · intro asked inside
    rcases List.mem_append.mp inside with before | new
    · exact (current asked before).imp id fun still => (waits asked.1).mpr (.inl still)
    · exact .inr ((waits asked.1).mpr (.inr (List.mem_map_of_mem new)))

end Ran

theorem start_held (held : PumpHeld pump) (outside : pump.phase = .outside) (item : Any)
    (yielded : FiberYield Any Failure Future) : PumpHeld (pump.start item yielded) := by
  obtain ⟨runtime, phase, clock, requests, polls, answers⟩ := pump
  cases outside
  have signalled : Signalled (runtime.newState item) := held.signalled.of_parts rfl rfl rfl rfl fun _ => id
  refine ran_held (new_running held.runtime item) signalled (held.woken rfl) yielded held.answered held.once ?_ ?_
  · intro answer inside apart
    rw [new_state_still_waits item apart]
    exact held.past answer inside
  · intro asked inside
    have known : asked.1.1 ≠ runtime.states.length := by
      intro same
      obtain ⟨state, there, _⟩ := held.runtime.tokens asked.1 (List.mem_map_of_mem inside)
      have bound : asked.1.1 < runtime.states.length := (List.getElem?_eq_some_iff.mp there).1
      omega
    rw [new_state_still_waits item known]
    exact (held.current asked inside).imp id fun still => ⟨known, still⟩

theorem resume_held (held : PumpHeld pump) (outside : pump.phase = .outside) (yielded : FiberYield Any Failure Future) :
    PumpHeld (pump.resume yielded) := by
  obtain ⟨runtime, phase, clock, requests, polls, answers⟩ := pump
  cases outside
  unfold FiberPump.resume
  dsimp only
  cases top : runtime.ready with
  | nil => exact held
  | cons first rest =>
      obtain ⟨index, resume⟩ := first
      have listed : (index, resume) ∈ runtime.ready := top ▸ List.mem_cons_self
      have bound := held.runtime.placed.known _ listed
      obtain ⟨state, found⟩ : ∃ state, runtime.states[index]? = some state := ⟨_, List.getElem?_eq_getElem bound⟩
      dsimp only
      rw [found]
      dsimp only
      cases live : state.done with
      | true =>
          have unready := held.runtime.placed.finished index state found live
          have inside : (index, resume) ∈ runtime.readyOf index := List.mem_filter.mpr ⟨listed, decide_eq_true rfl⟩
          rw [unready] at inside
          cases inside
      | false =>
          rw [if_neg Bool.false_ne_true]
          obtain ⟨running, request, asked, given⟩ := pop_running held.runtime top found live
          have current : runtime.stillWaits (index, state.waitToken) = true := still_waits_iff.mpr ⟨state, found, live, rfl⟩
          have signalled : Signalled { runtime with ready := rest } := held.signalled.of_parts rfl rfl rfl rfl fun _ => id
          refine ran_held running signalled (held.woken rfl) yielded ?_ ?_ ?_ ?_
          · intro answer inside
            rcases List.mem_append.mp inside with before | new
            · exact held.answered answer before
            · cases List.mem_singleton.mp new
              exact ⟨request, asked, given⟩
          · rw [List.map_append, List.nodup_append]
            refine ⟨held.once, List.nodup_singleton _, ?_⟩
            rintro key before _ new rfl
            obtain ⟨answer, inside, same⟩ := List.mem_map.mp before
            have gone := held.past answer inside
            rw [same, List.mem_singleton.mp new, current] at gone
            cases gone
          · intro answer inside apart
            rcases List.mem_append.mp inside with before | new
            · exact held.past answer before
            · cases List.mem_singleton.mp new
              exact absurd rfl apart
          · intro wanted inside
            rw [List.map_append, List.mem_append]
            rcases held.current wanted inside with answered | still
            · exact .inl (.inl answered)
            · by_cases own : wanted.1.1 = index
              · obtain ⟨other, there, _, token⟩ := still_waits_iff.mp still
                rw [own, found] at there
                cases there
                exact .inl (.inr (List.mem_singleton.mpr (Prod.ext own token.symm)))
              · exact .inr ⟨own, still⟩

theorem put_woken {runtime : FiberRuntime Any Failure Future} {future : Future} (woken : runtime.Woken) :
    (runtime.putCompleted future).Woken := by
  intro other waiting
  rcases List.mem_append.mp waiting with before | new
  · exact (woken other before).imp id (List.mem_append_left _)
  · exact .inr (List.mem_append_right _ new)

theorem pump_step_held {label : PumpLabel} (held : PumpHeld pump) (step : PumpStep pump label pump') : PumpHeld pump' := by
  have same : ∀ future outcome, Lib.Dict.get pump.runtime.settled future = some outcome →
      Lib.Dict.get pump.runtime.settled future = some outcome := fun _ _ => id
  cases step with
  | settled fresh =>
      exact held.unresumed (settle_held held.runtime fresh) (settle_signalled held.signalled fresh) held.woken rfl
        (fun _ _ => settled_kept fresh) (fun _ => id) rfl rfl
  | put called =>
      exact held.unresumed (held.runtime.of_core rfl) (put_signalled held.signalled called) (fun outside =>
        put_woken (held.woken outside)) rfl same
        (fun _ => id) rfl rfl
  | set _ =>
      exact held.unresumed (held.runtime.of_core rfl) (held.signalled.of_parts rfl rfl rfl rfl fun _ => id)
        (fun _ _ _ => .inl rfl) rfl same (fun _ => id) rfl rfl
  | elapsed passed =>
      exact held.unresumed (elapse_held held.runtime passed fun _ => id) held.signalled held.woken rfl same (fun _ => id) rfl rfl
  | started outside => exact start_held held outside _ _
  | resumed outside => exact resume_held held outside _
  | entered _ => exact held.unresumed held.runtime held.signalled nofun rfl same (fun _ => id) rfl rfl
  | taken draining waiting =>
      obtain ⟨future, rest, top⟩ := List.exists_cons_of_ne_nil waiting
      obtain ⟨quiet, _⟩ := take_future_quiet top
      refine held.unresumed (take_future_held held.runtime held.signalled.completed) (take_future_signalled held.signalled)
        (fun outside => ?_) quiet.marks (fun _ _ known => (congrArg (Lib.Dict.get · _) quiet.settled).trans known)
          (fun _ => id) rfl rfl
      rw [draining] at outside
      cases outside
  | drained _ _ => exact held.unresumed held.runtime held.signalled nofun rfl same (fun _ => id) rfl rfl
  | cleared _ =>
      exact held.unresumed (held.runtime.of_core rfl) (held.signalled.of_parts rfl rfl rfl rfl fun _ => id) nofun rfl same
        (fun _ => id) rfl rfl
  | rechecked _ =>
      have rechecked := recheck_same pump.runtime
      refine held.unresumed ?_ ?_ (fun _ => recheck_woken _) ?_ ?_ (fun _ => id) rfl rfl
      · exact rechecked ▸ held.runtime.of_core rfl
      · exact rechecked ▸ held.signalled.of_parts rfl rfl rfl rfl fun _ => id
      · exact rechecked ▸ rfl
      · exact rechecked ▸ same
  | @deadlines now checks outside passed =>
      have quiet := process_deadlines_quiet now checks pump.runtime
      have polled : RuntimeHeld pump.runtime pump.clock (pump.polls ++ [checks]) pump.requests :=
        elapse_held held.runtime le_rfl fun _ => List.mem_append_left _
      exact held.unresumed (process_deadlines_held polled passed (List.mem_append_right _ List.mem_cons_self))
        (held.signalled.quiet quiet) (fun _ => quiet.woken (held.woken outside)) quiet.marks
        (fun _ _ known => (congrArg (Lib.Dict.get · _) quiet.settled).trans known) (fun _ => List.mem_append_left _) rfl rfl
  | @polled checks outside =>
      have quiet := poll_cancellation_quiet checks pump.runtime held.runtime.tabled.distinct
      have polled : RuntimeHeld pump.runtime pump.clock (pump.polls ++ [checks]) pump.requests :=
        elapse_held held.runtime le_rfl fun _ => List.mem_append_left _
      exact held.unresumed (poll_cancellation_held polled (List.mem_append_right _ List.mem_cons_self))
        (held.signalled.quiet quiet) (fun _ => quiet.woken (held.woken outside)) quiet.marks
        (fun _ _ known => (congrArg (Lib.Dict.get · _) quiet.settled).trans known) (fun _ => List.mem_append_left _) rfl rfl
  | dropped outside =>
      exact held.unresumed (drop_stale_held held.runtime) (held.signalled.of_parts rfl rfl rfl rfl fun _ => id)
        (fun _ => held.woken outside) rfl same (fun _ => id) rfl rfl

theorem reachable_pump_held {clock : Rat} (run : Run PumpStep (FiberPump.fresh clock) labels pump) : PumpHeld pump :=
  run.invariant (fresh_pump_held clock) fun held step => pump_step_held held step

-- Each wait is resumed at most once and with its own answer, and a wait that is not yet resumed is that of
-- a fiber in one place.
theorem pump_resumes_each_wait_once {clock : Rat} (run : Run PumpStep (FiberPump.fresh clock) labels pump) :
    (pump.answers.map PumpAnswer.key).Nodup ∧
      (∀ answer ∈ pump.answers, ∃ request, (answer.key, request) ∈ pump.requests ∧
        Answers pump.runtime.settled answer.clock pump.polls answer.key request answer.resume) ∧
      (∀ asked ∈ pump.requests, asked.1 ∈ pump.answers.map PumpAnswer.key ∨
        ∃ state, pump.runtime.states[asked.1.1]? = some state ∧ state.done = false ∧ state.waitToken = asked.1.2 ∧
          Suspended pump.runtime pump.clock pump.polls pump.requests asked.1 state.pendingFuture) ∧
      pump.runtime.activeCount = pump.runtime.states.countP (fun state => !state.done) ∧
      (pump.runtime.activeCount = 0 → ∀ asked ∈ pump.requests, ∃ answer ∈ pump.answers, answer.key = asked.1) := by
  have held := reachable_pump_held run
  have waiting : ∀ asked ∈ pump.requests, asked.1 ∈ pump.answers.map PumpAnswer.key ∨
      ∃ state, pump.runtime.states[asked.1.1]? = some state ∧ state.done = false ∧ state.waitToken = asked.1.2 ∧
        Suspended pump.runtime pump.clock pump.polls pump.requests asked.1 state.pendingFuture := by
    intro asked inside
    refine (held.current asked inside).imp id fun still => ?_
    obtain ⟨state, found, live, token⟩ := still_waits_iff.mp still
    have placed := held.runtime.placed.suspended asked.1.1 state found live
    rw [token] at placed
    exact ⟨state, found, live, token, placed⟩
  refine ⟨held.once, held.answered, waiting, held.runtime.active, fun idle asked inside => ?_⟩
  rcases waiting asked inside with answered | ⟨state, found, live, _, _⟩
  · exact List.mem_map.mp answered
  · obtain ⟨bound, here⟩ := List.getElem?_eq_some_iff.mp found
    have active : 0 < pump.runtime.states.countP fun state => !state.done :=
      List.countP_pos_iff.mpr ⟨state, here ▸ List.getElem_mem bound, by simp [live]⟩
    rw [held.runtime.active] at idle
    omega

def checkOfSecond (key : WaitKey) : Option Nat := if key = (1, 1) then some 9 else none

def waitingPump : FiberPump Nat Nat Nat :=
  ((FiberPump.fresh 0).start 7 (.waits (.future 5 none false))).start 8 (.waits (.future 5 (some 3) true))

def cancelledPump : FiberPump Nat Nat Nat :=
  FiberPump.resume { waitingPump with
    runtime := waitingPump.runtime.pollCancellation checkOfSecond
    polls := waitingPump.polls ++ [checkOfSecond] } (.raises 9)

def servedPump : FiberPump Nat Nat Nat :=
  FiberPump.resume { cancelledPump with
    runtime := (((cancelledPump.runtime.settleFuture 5 (.ok 4)).putCompleted 5).setWake 5).takeFuture.clearWake.recheckWake }
    (.returns 4)

theorem waiting_run : Run PumpStep (FiberPump.fresh 0) [.started, .started] waitingPump :=
  ((Run.nil _).snoc (.started rfl)).snoc (.started rfl)

theorem served_run : Run PumpStep (FiberPump.fresh 0) [.started, .started, .polled, .resumed, .settled,
    .entered, .put, .set, .taken,
    .drained, .cleared, .rechecked, .resumed] servedPump := by
  have cancelled : Run PumpStep (FiberPump.fresh 0) [.started, .started, .polled, .resumed] cancelledPump :=
    (waiting_run.snoc (.polled rfl)).snoc (.resumed rfl)
  have settled := cancelled.snoc (@PumpStep.settled _ _ _ _ cancelledPump 5 (.ok 4) (by decide +kernel))
  have put := (settled.snoc (.entered rfl)).snoc (@PumpStep.put _ _ _ _ _ 5 (by decide +kernel))
  have taken := (put.snoc (@PumpStep.set _ _ _ _ _ 5 (by decide +kernel))).snoc (.taken rfl (by decide +kernel))
  exact (((taken.snoc (.drained rfl (by decide +kernel))).snoc (.cleared rfl)).snoc (.rechecked rfl)).snoc (.resumed rfl)

theorem served_once : servedPump.runtime.activeCount = 0 ∧ servedPump.answers.map PumpAnswer.key = [(1, 1), (0, 1)] ∧
    (∃ request, ((1, 1), request) ∈ servedPump.requests ∧
      Answers servedPump.runtime.settled 0 servedPump.polls (1, 1) request (.error 9)) ∧
    ∀ asked ∈ servedPump.requests, ∃ answer ∈ servedPump.answers, answer.key = asked.1 := by
  obtain ⟨_, answered, _, _, idle⟩ := pump_resumes_each_wait_once served_run
  exact ⟨by decide +kernel, by decide +kernel, answered ⟨(1, 1), .error 9, 0⟩ List.mem_cons_self, idle (by decide +kernel)⟩

end Pump

end MicroWorkflow
