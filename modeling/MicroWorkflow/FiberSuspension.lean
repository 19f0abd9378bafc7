import MicroWorkflow.FiberWaitRuns

set_option autoImplicit false

namespace MicroWorkflow

variable {Any Failure Future : Type}

section States

variable {runtime : FiberRuntime Any Failure Future} {index : Nat} {resume : FiberResume Any Failure}
  {rest : List (Nat × FiberResume Any Failure)} {state changed : FiberState Any Future}

theorem ready_of_pop (top : runtime.ready = (index, resume) :: rest) (other : Nat) :
    runtime.readyOf other = if index = other then (index, resume) :: { runtime with ready := rest }.readyOf other
      else { runtime with ready := rest }.readyOf other := by
  unfold FiberRuntime.readyOf
  rw [top, List.filter_cons]
  by_cases same : index = other
  · rw [if_pos (decide_eq_true same), if_pos same]
  · rw [if_neg (by simpa using same), if_neg same]

theorem new_state_known {other : Nat} {item : Any} {old : FiberState Any Future}
    (there : (runtime.newState item).states[other]? = some old) (apart : other ≠ runtime.states.length) :
    runtime.states[other]? = some old := by
  have bound : other < runtime.states.length := by
    have sized := (List.getElem?_eq_some_iff.mp there).1
    have total : (runtime.newState item).states.length = runtime.states.length + 1 := by simp [FiberRuntime.newState]
    omega
  rw [← there]
  exact (List.getElem?_append_left bound).symm

theorem new_state_still_waits {key : WaitKey} (item : Any)
    (apart : key.1 ≠ runtime.states.length) : (runtime.newState item).stillWaits key = runtime.stillWaits key := by
  unfold FiberRuntime.stillWaits
  have same : (runtime.newState item).states[key.1]? = runtime.states[key.1]? := by
    rcases Nat.lt_or_gt_of_ne apart with early | late
    · exact List.getElem?_append_left early
    · have beyond : runtime.states.length + 1 ≤ key.1 := late
      rw [List.getElem?_eq_none (by simpa [FiberRuntime.newState] using beyond), List.getElem?_eq_none (by omega)]
  rw [same]

theorem set_state_other {other : Nat} {resting : FiberState Any Future} (apart : other ≠ index)
    (there : (runtime.states.set index changed)[other]? = some resting) : runtime.states[other]? = some resting := by
  rw [List.getElem?_set_ne (Ne.symm apart)] at there
  exact there

theorem set_state_self {old : FiberState Any Future} (found : runtime.states[index]? = some state)
    (there : (runtime.states.set index changed)[index]? = some old) : old = changed := by
  rw [List.getElem?_set_self (List.getElem?_eq_some_iff.mp found).1] at there
  exact (Option.some.inj there).symm

theorem finished_count (found : runtime.states[index]? = some state) (live : state.done = false) :
    ((runtime.states.set index { changed with done := true }).countP (fun state => !state.done) : Int) =
      runtime.states.countP (fun state => !state.done) - 1 := by
  obtain ⟨bound, here⟩ := List.getElem?_eq_some_iff.mp found
  have positive : 0 < runtime.states.countP fun state => !state.done :=
    List.countP_pos_iff.mpr ⟨state, here ▸ List.getElem_mem bound, by simp [live]⟩
  rw [List.countP_set bound, here, live]
  simp
  omega

theorem push_deadline_core (future : Future) (key : WaitKey) (deadline : Option Rat) :
    (runtime.pushDeadline future key deadline).core =
      { runtime.core with futureDeadlines := (runtime.pushDeadline future key deadline).futureDeadlines } := by
  cases deadline with
  | none => rfl
  | some limit => rfl

theorem push_deadline_mem {future : Future} {key : WaitKey} {deadline : Option Rat} {entry : HeapEntry (Future × WaitKey)} :
    entry ∈ (runtime.pushDeadline future key deadline).futureDeadlines ↔
      entry ∈ runtime.futureDeadlines ∨ ∃ limit, deadline = some limit ∧ entry = ⟨limit, runtime.serial + 1, (future, key)⟩ := by
  cases deadline with
  | none => simp [FiberRuntime.pushDeadline]
  | some limit =>
      unfold FiberRuntime.pushDeadline heapPush
      rw [List.mem_orderedInsert]
      constructor
      · rintro (rfl | before)
        · exact .inr ⟨limit, rfl, rfl⟩
        · exact .inl before
      · rintro (before | ⟨_, ⟨⟩, rfl⟩)
        · exact .inr before
        · exact .inl rfl

theorem unfinished_count (changed : FiberState Any Future) (found : runtime.states[index]? = some state)
    (live : state.done = changed.done) :
    (runtime.states.set index changed).countP (fun state => !state.done) = runtime.states.countP fun state => !state.done := by
  obtain ⟨bound, here⟩ := List.getElem?_eq_some_iff.mp found
  have member : state ∈ runtime.states := here ▸ List.getElem_mem bound
  rw [List.countP_set bound, here, live]
  cases ends : changed.done with
  | true => simp
  | false =>
      have positive : 0 < runtime.states.countP fun state => !state.done :=
        List.countP_pos_iff.mpr ⟨state, member, by simp [live, ends]⟩
      simp
      omega

theorem asked_before {key : WaitKey} {requests : List (WaitKey × FiberRequest Future)} (request : WaitKey × FiberRequest Future)
    (inside : key ∈ requests.map Prod.fst) :
    key ∈ (requests ++ [request]).map Prod.fst := by
  rw [List.map_append]
  exact List.mem_append_left _ inside

end States

variable [DecidableEq Future]

section Starting

variable {runtime : FiberRuntime Any Failure Future} {clock : Rat} {polls : List (WaitKey → Option Failure)}
  {requests : List (WaitKey × FiberRequest Future)}
  {index : Nat} {resume : FiberResume Any Failure} {rest : List (Nat × FiberResume Any Failure)} {state : FiberState Any Future}

theorem pop_running (held : RuntimeHeld runtime clock polls requests) (top : runtime.ready = (index, resume) :: rest)
    (found : runtime.states[index]? = some state) (live : state.done = false) :
    FiberRunning { runtime with ready := rest } clock polls requests index state ∧
      ∃ request, ((index, state.waitToken), request) ∈ requests ∧
        Answers runtime.settled clock polls (index, state.waitToken) request resume := by
  have here := ready_of_pop top index
  rw [if_pos rfl] at here
  cases held.placed.suspended index state found live with
  | ready request ready answers unpending none =>
      rw [here, List.cons.injEq] at ready
      obtain ⟨same, unready⟩ := ready
      cases same
      refine ⟨⟨found, live, unpending, unready, ?_, ?_, ?_, ?_, held.asked, held.active, held.retired, held.tokens⟩,
        _, request, answers⟩
      · intro other resting apart there awake
        refine (held.placed.suspended other resting there awake).moved
          ⟨?_, fun _ _ waiter _ => waiter, id, fun _ _ => Iff.rfl, fun _ _ => id, fun _ _ => id⟩ (fun _ => id) le_rfl fun _ => id
        have same := ready_of_pop top other
        rw [if_neg (Ne.symm apart)] at same
        exact same.symm
      · intro other ended there dead
        by_cases own : index = other
        · subst own
          exact unready
        · have same := ready_of_pop top other
          rw [if_neg own] at same
          exact same.symm.trans (held.placed.finished other ended there dead)
      · exact fun entry later => held.placed.known entry (top ▸ List.mem_cons_of_mem _ later)
      · exact held.tabled.same rfl rfl rfl
  | awaiting _ unready _ _ _ _ _ =>
      rw [here] at unready
      cases unready
  | asleep _ unready _ _ =>
      rw [here] at unready
      cases unready

theorem new_running (held : RuntimeHeld runtime clock polls requests) (item : Any) :
    FiberRunning (runtime.newState item) clock polls requests runtime.states.length ⟨item, false, 0, none⟩ := by
  have unready : runtime.readyOf runtime.states.length = [] := by
    refine List.filter_eq_nil_iff.mpr fun entry inside => ?_
    have bound := held.placed.known entry inside
    simp
    omega
  refine ⟨List.getElem?_concat_length, rfl, rfl, unready, ?_, ?_, ?_, ?_, held.asked, ?_, held.retired, ?_⟩
  · intro other resting apart there awake
    exact (held.placed.suspended other resting (new_state_known there apart) awake).moved
      ⟨rfl, fun _ _ waiter _ => waiter, id, fun _ _ => Iff.rfl, fun _ _ => id, fun _ _ => id⟩ (fun _ => id) le_rfl fun _ => id
  · intro other ended there dead
    by_cases own : other = runtime.states.length
    · rw [own]
      exact unready
    · exact held.placed.finished other ended (new_state_known there own) dead
  · intro entry inside
    have bound := held.placed.known entry inside
    have total : (runtime.newState item).states.length = runtime.states.length + 1 := by simp [FiberRuntime.newState]
    omega
  · exact held.tabled.same rfl rfl rfl
  · show runtime.activeCount + 1 = _
    rw [held.active]
    simp [FiberRuntime.newState]
  · intro key inside
    obtain ⟨old, there, bound⟩ := held.tokens key inside
    exact ⟨old, (List.getElem?_append_left (List.getElem?_eq_some_iff.mp there).1).trans there, bound⟩

end Starting

section Yielding

variable {runtime : FiberRuntime Any Failure Future} {clock : Rat} {polls : List (WaitKey → Option Failure)}
  {requests : List (WaitKey × FiberRequest Future)}
  {index : Nat} {state changed : FiberState Any Future}

theorem set_state_tokens (running : FiberRunning runtime clock polls requests index state)
    (later : state.waitToken ≤ changed.waitToken) :
    ∀ key ∈ requests.map Prod.fst, ∃ state, (runtime.states.set index changed)[key.1]? = some state ∧
      key.2 ≤ state.waitToken := by
  intro key inside
  obtain ⟨old, there, bound⟩ := running.tokens key inside
  by_cases own : key.1 = index
  · subst own
    cases running.found.symm.trans there
    exact ⟨changed, List.getElem?_set_self (List.getElem?_eq_some_iff.mp there).1, le_trans bound later⟩
  · exact ⟨old, (List.getElem?_set_ne (Ne.symm own)).trans there, bound⟩

theorem finish_held (running : FiberRunning runtime clock polls requests index state)
    (later : state.waitToken ≤ changed.waitToken) :
    RuntimeHeld (runtime.finish index changed) clock polls requests := by
  refine ⟨⟨?_, ?_, ?_⟩, ?_, running.asked, ?_, running.retired, set_state_tokens running later⟩
  · intro other resting there awake
    by_cases own : other = index
    · subst own
      cases set_state_self running.found there
      cases awake
    · exact (running.suspended other resting own (set_state_other own there) awake).moved
        ⟨rfl, fun _ _ waiter _ => waiter, id, fun _ _ => Iff.rfl, fun _ _ => id, fun _ _ => id⟩ (fun _ => id) le_rfl fun _ => id
  · intro other ended there dead
    by_cases own : other = index
    · rw [own]
      exact running.unready
    · exact running.finished other ended (set_state_other own there) dead
  · intro entry inside
    exact (running.known entry inside).trans_eq (List.length_set ..).symm
  · exact running.tabled.same rfl rfl rfl
  · show runtime.activeCount - 1 = _
    rw [running.active]
    exact (finished_count running.found running.live).symm

theorem enter_future_core (runtime : FiberRuntime Any Failure Future) (future : Future) :
    (runtime.enterFuture future).core = { runtime.core with futureWaiters := (runtime.enterFuture future).futureWaiters } := by
  unfold FiberRuntime.enterFuture
  cases Lib.Dict.get runtime.futureWaiters future with
  | some _ => rfl
  | none =>
      unfold FiberRuntime.addDoneCallback
      dsimp only
      split <;> rfl

theorem enter_future_waiters (runtime : FiberRuntime Any Failure Future) (future : Future) :
    (runtime.enterFuture future).futureWaiters =
      if (Lib.Dict.get runtime.futureWaiters future).isSome then runtime.futureWaiters
      else Lib.Dict.set runtime.futureWaiters future [] := by
  unfold FiberRuntime.enterFuture
  cases Lib.Dict.get runtime.futureWaiters future with
  | some _ => rfl
  | none =>
      unfold FiberRuntime.addDoneCallback
      dsimp only
      split <;> rfl

variable {future other : Future} {waiter : FutureWaiter}

theorem enter_future_waiter : (runtime.enterFuture future).Waiter other waiter ↔ runtime.Waiter other waiter := by
  rw [waiter_iff, waiter_iff, enter_future_waiters]
  cases known : Lib.Dict.get runtime.futureWaiters future with
  | some waiters => rfl
  | none =>
      by_cases same : other = future
      · subst same
        simp [known]
      · simp [Lib.Dict.get_set_other same]

theorem append_waiter_iff (added : FutureWaiter) :
    (runtime.appendWaiter future added).Waiter other waiter ↔ runtime.Waiter other waiter ∨
      (other = future ∧ waiter = added) := by
  rw [waiter_iff, waiter_iff]
  unfold FiberRuntime.appendWaiter
  by_cases same : other = future
  · subst same
    simp
  · simp [Lib.Dict.get_set_other same, same]

theorem append_waiter_core (runtime : FiberRuntime Any Failure Future) (future : Future) (added : FutureWaiter) :
    (runtime.appendWaiter future added).core =
      { runtime.core with futureWaiters := (runtime.appendWaiter future added).futureWaiters } :=
  rfl

theorem suspend_future_core (runtime : FiberRuntime Any Failure Future) (index : Nat) (state : FiberState Any Future)
    (future : Future) (deadline : Option Rat) (checked : Bool) :
    (runtime.suspend index state (.future future deadline checked)).core = FiberRuntime.core { runtime with
      states := runtime.states.set index { state with waitToken := state.waitToken + 1, pendingFuture := some future }
      futureWaiters := (runtime.suspend index state (.future future deadline checked)).futureWaiters
      futureDeadlines := (runtime.suspend index state (.future future deadline checked)).futureDeadlines } := by
  unfold FiberRuntime.suspend
  dsimp only
  rw [push_deadline_core, append_waiter_core, enter_future_core]
  cases deadline with
  | none => rfl
  | some limit => rfl

theorem suspend_future_waiter {deadline : Option Rat} {checked : Bool} :
    (runtime.suspend index state (.future future deadline checked)).Waiter other waiter ↔
      runtime.Waiter other waiter ∨ (other = future ∧ waiter = ⟨(index, state.waitToken + 1), checked⟩) := by
  have pushed : ∀ (before : FiberRuntime Any Failure Future) (key : WaitKey),
      (before.pushDeadline future key deadline).Waiter other waiter ↔ before.Waiter other waiter := by
    intro before key
    cases deadline with
    | none => exact Iff.rfl
    | some limit => exact Iff.rfl
  unfold FiberRuntime.suspend
  dsimp only
  rw [pushed, append_waiter_iff, enter_future_waiter]
  exact Iff.rfl

theorem suspend_future_deadline {deadline : Option Rat} {checked : Bool} {entry : HeapEntry (Future × WaitKey)} :
    entry ∈ (runtime.suspend index state (.future future deadline checked)).futureDeadlines ↔
      entry ∈ runtime.futureDeadlines ∨ ∃ limit, deadline = some limit ∧
        entry = ⟨limit, runtime.serial + 1, (future, (index, state.waitToken + 1))⟩ := by
  have entered : ∀ before : FiberRuntime Any Failure Future,
    (before.enterFuture future).futureDeadlines = before.futureDeadlines ∧
      (before.enterFuture future).serial = before.serial := by
    intro before
    unfold FiberRuntime.enterFuture
    cases Lib.Dict.get before.futureWaiters future with
    | some _ => exact ⟨rfl, rfl⟩
    | none =>
        unfold FiberRuntime.addDoneCallback
        dsimp only
        split <;> exact ⟨rfl, rfl⟩
  unfold FiberRuntime.suspend
  dsimp only
  rw [push_deadline_mem]
  show entry ∈ (FiberRuntime.enterFuture _ future).futureDeadlines ∨ (∃ limit, deadline = some limit ∧
    entry = ⟨limit, (FiberRuntime.enterFuture _ future).serial + 1, _⟩) ↔ _
  rw [(entered _).1, (entered _).2]

theorem suspend_future_nodup {deadline : Option Rat} {checked : Bool} (distinct : (runtime.futureWaiters.map Prod.fst).Nodup) :
    ((runtime.suspend index state (.future future deadline checked)).futureWaiters.map Prod.fst).Nodup := by
  have pushed : ∀ (before : FiberRuntime Any Failure Future) (key : WaitKey),
      (before.pushDeadline future key deadline).futureWaiters = before.futureWaiters := by
    intro before key
    cases deadline with
    | none => rfl
    | some limit => rfl
  unfold FiberRuntime.suspend
  dsimp only
  rw [pushed]
  refine Lib.Dict.set_nodup ?_
  rw [enter_future_waiters]
  split
  · exact distinct
  · exact Lib.Dict.set_nodup distinct

theorem FiberRunning.unasked (running : FiberRunning runtime clock polls requests index state) :
    (index, state.waitToken + 1) ∉ requests.map Prod.fst := by
  intro inside
  obtain ⟨old, there, bound⟩ := running.tokens _ inside
  cases running.found.symm.trans there
  omega

theorem FiberRunning.asked_next (running : FiberRunning runtime clock polls requests index state)
    (request : FiberRequest Future) :
    ((requests ++ [((index, state.waitToken + 1), request)]).map Prod.fst).Nodup := by
  rw [List.map_append, List.nodup_append]
  refine ⟨running.asked, List.nodup_singleton _, ?_⟩
  rintro key before _ new rfl
  cases List.mem_singleton.mp new
  exact running.unasked before

theorem FiberRunning.next_tokens (running : FiberRunning runtime clock polls requests index state) (request : FiberRequest Future)
    (later : changed.waitToken = state.waitToken + 1) :
    ∀ key ∈ (requests ++ [((index, state.waitToken + 1), request)]).map Prod.fst,
      ∃ state, (runtime.states.set index changed)[key.1]? = some state ∧ key.2 ≤ state.waitToken := by
  intro key inside
  rw [List.map_append] at inside
  rcases List.mem_append.mp inside with before | new
  · exact set_state_tokens running (by omega) key before
  · cases List.mem_singleton.mp new
    exact ⟨changed, List.getElem?_set_self (List.getElem?_eq_some_iff.mp running.found).1, later.ge⟩

theorem FiberRunning.unslept (running : FiberRunning runtime clock polls requests index state) :
    ∀ entry ∈ runtime.sleepers, entry.entry.1 ≠ (index, state.waitToken + 1) :=
  fun entry inside same => running.unasked (List.mem_map.mpr ⟨_, running.tabled.sleepers entry inside, same⟩)

theorem suspend_future_held (running : FiberRunning runtime clock polls requests index state)
    (deadline : Option Rat) (checked : Bool) :
    RuntimeHeld (runtime.suspend index state (.future future deadline checked)) clock polls
      (requests ++ [((index, state.waitToken + 1), .future future deadline checked)]) := by
  refine RuntimeHeld.of_core ?_ (suspend_future_core runtime index state future deadline checked)
  have older : ∀ request ∈ requests, request ∈ requests ++
    [((index, state.waitToken + 1), FiberRequest.future future deadline checked)] :=
    fun request => List.mem_append_left _
  have newest : ((index, state.waitToken + 1), FiberRequest.future future deadline checked) ∈
      requests ++ [((index, state.waitToken + 1), FiberRequest.future future deadline checked)] :=
    List.mem_append_right _ List.mem_cons_self
  refine ⟨⟨?_, ?_, ?_⟩, ⟨running.tabled.once, ?_, ?_, ?_, suspend_future_nodup running.tabled.distinct⟩,
    running.asked_next _, ?_, ?_,
    running.next_tokens _ rfl⟩
  · intro other resting there awake
    by_cases own : other = index
    · subst own
      cases set_state_self running.found there
      refine .awaiting newest running.unready rfl (suspend_future_waiter.mpr (.inr ⟨rfl, rfl⟩)) ?_ running.unslept ?_
      · exact fun gone => running.unasked (running.retired _ gone)
      · intro limit named
        exact ⟨⟨limit, _, _⟩, suspend_future_deadline.mpr (.inr ⟨limit, named, rfl⟩), rfl, rfl⟩
    · refine (running.suspended other resting own (set_state_other own there) awake).moved
        ⟨rfl, ?_, id, fun _ _ => Iff.rfl, ?_, fun _ _ => id⟩ older le_rfl fun _ => id
      · exact fun asked checks waiter _ => suspend_future_waiter.mpr (.inl waiter)
      · exact fun entry _ before => suspend_future_deadline.mpr (.inl before)
  · intro other ended there dead
    by_cases own : other = index
    · rw [own]
      exact running.unready
    · exact running.finished other ended (set_state_other own there) dead
  · intro entry inside
    exact (running.known entry inside).trans_eq (List.length_set ..).symm
  · exact fun entry inside => older _ (running.tabled.sleepers entry inside)
  · intro asked waiting inside
    rcases suspend_future_waiter.mp inside with before | ⟨rfl, rfl⟩
    · obtain ⟨limit, request⟩ := running.tabled.waiters asked waiting before
      exact ⟨limit, older _ request⟩
    · exact ⟨deadline, newest⟩
  · intro entry inside
    rcases suspend_future_deadline.mp inside with before | ⟨limit, rfl, rfl⟩
    · obtain ⟨wasChecked, request⟩ := running.tabled.deadlines entry before
      exact ⟨wasChecked, older _ request⟩
    · exact ⟨checked, newest⟩
  · exact running.active.trans (congrArg Nat.cast (unfinished_count _ running.found (by rfl)).symm)
  · exact fun key gone => asked_before _ (running.retired key gone)

theorem suspend_sleep_held (running : FiberRunning runtime clock polls requests index state) (deadline : Rat) (checked : Bool) :
    RuntimeHeld (runtime.suspend index state (.sleep deadline checked)) clock polls
      (requests ++ [((index, state.waitToken + 1), .sleep deadline checked)]) := by
  have older : ∀ request ∈ requests, request ∈ requests ++
    [((index, state.waitToken + 1), FiberRequest.sleep deadline checked)] :=
    fun request => List.mem_append_left _
  have newest : ((index, state.waitToken + 1), FiberRequest.sleep deadline checked) ∈
      requests ++ [((index, state.waitToken + 1), FiberRequest.sleep deadline checked)] :=
    List.mem_append_right _ List.mem_cons_self
  have sleepers : ∀ entry, entry ∈ (runtime.suspend index state (.sleep deadline checked)).sleepers ↔
      entry = ⟨deadline, runtime.serial + 1, ((index, state.waitToken + 1), checked)⟩ ∨ entry ∈ runtime.sleepers :=
    fun entry => List.mem_orderedInsert ..
  refine ⟨⟨?_, ?_, ?_⟩, ⟨?_, ?_, ?_, ?_, running.tabled.distinct⟩, running.asked_next _, ?_, ?_, running.next_tokens _ rfl⟩
  · intro other resting there awake
    by_cases own : other = index
    · subst own
      cases set_state_self running.found there
      exact .asleep newest running.unready running.unpending ⟨_, (sleepers _).mpr (.inl rfl), rfl, rfl⟩
    · refine (running.suspended other resting own (set_state_other own there) awake).moved
        ⟨rfl, fun _ _ waiter _ => waiter, id, ?_, fun _ _ => id, fun _ _ => id⟩ older le_rfl fun _ => id
      intro entry same
      rw [sleepers]
      constructor
      · rintro (rfl | before)
        · exact absurd (congrArg Prod.fst same).symm own
        · exact before
      · exact .inr
  · intro other ended there dead
    by_cases own : other = index
    · rw [own]
      exact running.unready
    · exact running.finished other ended (set_state_other own there) dead
  · intro entry inside
    exact (running.known entry inside).trans_eq (List.length_set ..).symm
  · refine (((List.perm_orderedInsert HeapEntry.before _ runtime.sleepers).map fun entry => entry.entry.1).nodup_iff).mpr ?_
    rw [List.map_cons, List.nodup_cons]
    refine ⟨fun inside => ?_, running.tabled.once⟩
    obtain ⟨entry, before, same⟩ := List.mem_map.mp inside
    exact running.unslept entry before same
  · intro entry inside
    rcases (sleepers entry).mp inside with rfl | before
    · exact newest
    · exact older _ (running.tabled.sleepers entry before)
  · intro asked waiting inside
    obtain ⟨limit, request⟩ := running.tabled.waiters asked waiting inside
    exact ⟨limit, older _ request⟩
  · intro entry inside
    obtain ⟨wasChecked, request⟩ := running.tabled.deadlines entry inside
    exact ⟨wasChecked, older _ request⟩
  · exact running.active.trans (congrArg Nat.cast (unfinished_count _ running.found (by rfl)).symm)
  · exact fun key gone => asked_before _ (running.retired key gone)

@[elab_as_elim]
theorem resume_state_elim {motive : FiberRuntime Any Failure Future → Prop} (index : Nat)
    (yielded : FiberYield Any Failure Future)
    (idle : motive runtime)
    (ended : ∀ state results error, motive { runtime.finish index state with results := results, firstError := error })
    (waits : ∀ state request, motive (runtime.suspend index state request)) : motive (runtime.resumeState index yielded) := by
  unfold FiberRuntime.resumeState
  cases runtime.states[index]? with
  | none => exact idle
  | some state =>
      dsimp only
      split
      · exact idle
      · cases yielded with
        | raises error => exact ended _ _ _
        | returns value => exact ended _ _ _
        | unsupported error => exact ended _ _ _
        | waits request => exact waits state request

theorem resume_state_held (running : FiberRunning runtime clock polls requests index state)
    (yielded : FiberYield Any Failure Future) :
    RuntimeHeld (runtime.resumeState index yielded) clock polls (requests ++ yielded.requested (index, state.waitToken + 1)) := by
  unfold FiberRuntime.resumeState
  rw [running.found]
  dsimp only
  rw [running.live, if_neg Bool.false_ne_true]
  cases yielded with
  | raises error =>
      show RuntimeHeld _ clock polls (requests ++ [])
      rw [List.append_nil]
      exact (finish_held running le_rfl).of_core rfl
  | returns value =>
      show RuntimeHeld _ clock polls (requests ++ [])
      rw [List.append_nil]
      exact (finish_held running le_rfl).of_core rfl
  | unsupported error =>
      show RuntimeHeld _ clock polls (requests ++ [])
      rw [List.append_nil]
      exact (finish_held running (Nat.le_succ _)).of_core rfl
  | waits request =>
      cases request with
      | future future deadline checked => exact suspend_future_held running deadline checked
      | sleep deadline checked => exact suspend_sleep_held running deadline checked

end Yielding

end MicroWorkflow
