import Mathlib.Data.List.TakeWhile
import MicroWorkflow.FiberWaits

set_option autoImplicit false

namespace MicroWorkflow

open Lib (Run)

variable {Any Failure Future : Type}

section Readying

variable {runtime : FiberRuntime Any Failure Future} {requests : List (WaitKey × FiberRequest Future)} {key : WaitKey}

def FiberRuntime.readyOf (runtime : FiberRuntime Any Failure Future) (index : Nat) : List (Nat × FiberResume Any Failure) :=
  runtime.ready.filter fun entry => entry.1 = index

theorem ready_of_push (index other : Nat) (resume : FiberResume Any Failure) :
    (runtime.pushReady index resume).readyOf other =
      if index = other then runtime.readyOf other ++ [(index, resume)] else runtime.readyOf other := by
  by_cases same : index = other
  · simp [FiberRuntime.pushReady, FiberRuntime.readyOf, same]
  · simp [FiberRuntime.pushReady, FiberRuntime.readyOf, same]

theorem still_waits_iff : runtime.stillWaits key = true ↔ ∃ state, runtime.states[key.1]? = some state ∧
    state.done = false ∧ state.waitToken = key.2 := by
  unfold FiberRuntime.stillWaits
  cases runtime.states[key.1]? with
  | none => simp
  | some state => simp

theorem clear_pending_state {index other : Nat} {state : FiberState Any Future}
    (found : (runtime.clearPending index).states[other]? = some state) :
    ∃ old, runtime.states[other]? = some old ∧ state.done = old.done ∧ state.waitToken = old.waitToken ∧
      state.pendingFuture = if index = other then none else old.pendingFuture := by
  rw [FiberRuntime.clearPending, List.getElem?_modify, Option.map_eq_map, Option.map_eq_some_iff] at found
  obtain ⟨old, here, rfl⟩ := found
  refine ⟨old, here, ?_⟩
  by_cases same : index = other
  · rw [if_pos same, if_pos same]
    exact ⟨rfl, rfl, rfl⟩
  · rw [if_neg same, if_neg same]
    exact ⟨rfl, rfl, rfl⟩

def FiberState.mark (state : FiberState Any Future) : Bool × Nat := (state.done, state.waitToken)

theorem clear_pending_marks (states : List (FiberState Any Future)) (index : Nat) :
    (states.modify index fun state => { state with pendingFuture := none }).map FiberState.mark = states.map FiberState.mark := by
  refine List.ext_getElem? fun other => ?_
  rw [List.getElem?_map, List.getElem?_map, List.getElem?_modify]
  cases states[other]? with
  | none => rfl
  | some state =>
      by_cases here : index = other
      · simp [here, FiberState.mark]
      · simp [here]

theorem clear_pending_active (index : Nat) :
    (runtime.clearPending index).states.countP (fun state => !state.done) = runtime.states.countP fun state => !state.done := by
  have counted : ∀ states : List (FiberState Any Future),
      states.countP (fun state => !state.done) = (states.map FiberState.mark).countP (!·.1) := fun states => by
    rw [List.countP_map]
    rfl
  rw [counted, counted]
  exact congrArg _ (clear_pending_marks runtime.states index)

theorem still_waits_mark : runtime.stillWaits key = true ↔
    (runtime.states.map FiberState.mark)[key.1]? = some (false, key.2) := by
  rw [still_waits_iff, List.getElem?_map]
  cases runtime.states[key.1]? with
  | none => simp
  | some state => simp [FiberState.mark]

theorem still_waits_of_marks {before after : FiberRuntime Any Failure Future}
    (same : after.states.map FiberState.mark = before.states.map FiberState.mark) :
    after.stillWaits key = before.stillWaits key := by
  rw [Bool.eq_iff_iff, still_waits_mark, still_waits_mark, same]

theorem still_waits_set {before after : FiberRuntime Any Failure Future} {index : Nat} {changed : FiberState Any Future}
    (bound : index < before.states.length)
    (states : after.states = before.states.set index changed) :
    after.stillWaits key = true ↔ (key.1 ≠ index ∧ before.stillWaits key = true) ∨
      (key.1 = index ∧ changed.done = false ∧ changed.waitToken = key.2) := by
  rw [still_waits_iff, still_waits_iff, states]
  by_cases own : key.1 = index
  · rw [own, List.getElem?_set_self bound]
    simp
  · rw [List.getElem?_set_ne (Ne.symm own)]
    simp [own]

theorem request_unique {request other : FiberRequest Future} (asked : (requests.map Prod.fst).Nodup)
    (here : (key, request) ∈ requests) (there : (key, other) ∈ requests) : request = other :=
  congrArg Prod.snd (List.inj_on_of_nodup_map asked here there rfl)

def FiberRuntime.Woken (runtime : FiberRuntime Any Failure Future) : Prop :=
  ∀ future ∈ runtime.completedFutures, runtime.wake = true ∨ future ∈ runtime.signalling

theorem recheck_woken (runtime : FiberRuntime Any Failure Future) : runtime.recheckWake.Woken := by
  unfold FiberRuntime.recheckWake
  cases top : runtime.completedFutures with
  | nil =>
      intro future waiting
      cases top ▸ waiting
  | cons future rest => exact fun _ _ => .inl rfl

theorem recheck_same (runtime : FiberRuntime Any Failure Future) :
    runtime.recheckWake = { runtime with wake := runtime.recheckWake.wake } := by
  unfold FiberRuntime.recheckWake
  split <;> rfl

end Readying

variable [DecidableEq Future]

section Invariant

def CheckRaised (polls : List (WaitKey → Option Failure)) (key : WaitKey) (checked : Bool)
    (resume : FiberResume Any Failure) : Prop :=
  checked = true ∧ ∃ checks ∈ polls, ∃ error, checks key = some error ∧ resume = .error error

-- What may resume a wait: its future's outcome, its deadline, or what its own check raised in one of the polls.
def Answers (settled : List (Future × Except Failure Any)) (clock : Rat) (polls : List (WaitKey → Option Failure))
    (key : WaitKey) :
    FiberRequest Future → FiberResume Any Failure → Prop
  | .future future deadline checked, resume =>
      (∃ outcome, Lib.Dict.get settled future = some outcome ∧ resume = .ofOutcome outcome) ∨
        (resume = .timedOut ∧ ∃ limit, deadline = some limit ∧ limit ≤ clock) ∨ CheckRaised polls key checked resume
  | .sleep deadline checked, resume => (resume = .plain ∧ deadline ≤ clock) ∨ CheckRaised polls key checked resume

def FiberRuntime.Waiter (runtime : FiberRuntime Any Failure Future) (future : Future) (waiter : FutureWaiter) : Prop :=
  ∃ waiters, Lib.Dict.get runtime.futureWaiters future = some waiters ∧ waiter ∈ waiters

variable (runtime : FiberRuntime Any Failure Future) (clock : Rat) (polls : List (WaitKey → Option Failure))
  (requests : List (WaitKey × FiberRequest Future))

inductive Suspended (key : WaitKey) (pending : Option Future) : Prop where
  | ready {request : FiberRequest Future} {resume : FiberResume Any Failure} : (key, request) ∈ requests →
      runtime.readyOf key.1 = [(key.1, resume)] → Answers runtime.settled clock polls key request resume → pending = none →
      (∀ entry ∈ runtime.sleepers, entry.entry.1 ≠ key) → Suspended key pending
  | awaiting {future : Future} {deadline : Option Rat} {checked : Bool} : (key, .future future deadline checked) ∈ requests →
      runtime.readyOf key.1 = [] → pending = some future → runtime.Waiter future ⟨key, checked⟩ → key ∉ runtime.retired →
      (∀ entry ∈ runtime.sleepers, entry.entry.1 ≠ key) →
      (∀ limit, deadline = some limit → ∃ entry ∈ runtime.futureDeadlines, entry.deadline = limit ∧ entry.entry = (future, key)) →
      Suspended key pending
  | asleep {deadline : Rat} {checked : Bool} : (key, .sleep deadline checked) ∈ requests →
      runtime.readyOf key.1 = [] → pending = none →
      (∃ entry ∈ runtime.sleepers, entry.deadline = deadline ∧ entry.entry = (key, checked)) → Suspended key pending

structure Placed : Prop where
  suspended : ∀ (index : Nat) state, runtime.states[index]? = some state → state.done = false →
    Suspended runtime clock polls requests (index, state.waitToken) state.pendingFuture
  finished : ∀ (index : Nat) state, runtime.states[index]? = some state → state.done = true → runtime.readyOf index = []
  known : ∀ entry ∈ runtime.ready, entry.1 < runtime.states.length

structure Tabled : Prop where
  once : (runtime.sleepers.map fun entry => entry.entry.1).Nodup
  sleepers : ∀ entry ∈ runtime.sleepers, (entry.entry.1, .sleep entry.deadline entry.entry.2) ∈ requests
  waiters : ∀ future waiter, runtime.Waiter future waiter →
    ∃ deadline, (waiter.key, .future future deadline waiter.checked) ∈ requests
  deadlines : ∀ entry ∈ runtime.futureDeadlines,
    ∃ checked, (entry.entry.2, .future entry.entry.1 (some entry.deadline) checked) ∈ requests
  distinct : (runtime.futureWaiters.map Prod.fst).Nodup

structure Signalled : Prop where
  heard : ∀ future, (Lib.Dict.get runtime.futureWaiters future).isSome →
    future ∈ runtime.callbacks ∨ future ∈ runtime.calling ∨ future ∈ runtime.completedFutures
  unsettled : ∀ future ∈ runtime.callbacks, Lib.Dict.get runtime.settled future = none
  calling : ∀ future ∈ runtime.calling, (Lib.Dict.get runtime.settled future).isSome
  completed : ∀ future ∈ runtime.completedFutures, (Lib.Dict.get runtime.settled future).isSome

structure HeapsOrdered : Prop where
  sleepers : runtime.sleepers.Pairwise HeapEntry.before
  deadlines : runtime.futureDeadlines.Pairwise HeapEntry.before

structure RuntimeHeld : Prop where
  placed : Placed runtime clock polls requests
  tabled : Tabled runtime requests
  asked : (requests.map Prod.fst).Nodup
  active : runtime.activeCount = runtime.states.countP fun state => !state.done
  retired : ∀ key ∈ runtime.retired, key ∈ requests.map Prod.fst
  tokens : ∀ key ∈ requests.map Prod.fst, ∃ state, runtime.states[key.1]? = some state ∧ key.2 ≤ state.waitToken

structure FiberRunning (index : Nat) (state : FiberState Any Future) : Prop where
  found : runtime.states[index]? = some state
  live : state.done = false
  unpending : state.pendingFuture = none
  unready : runtime.readyOf index = []
  suspended : ∀ (other : Nat) resting, other ≠ index → runtime.states[other]? = some resting → resting.done = false →
    Suspended runtime clock polls requests (other, resting.waitToken) resting.pendingFuture
  finished : ∀ (other : Nat) ended, runtime.states[other]? = some ended → ended.done = true → runtime.readyOf other = []
  known : ∀ entry ∈ runtime.ready, entry.1 < runtime.states.length
  tabled : Tabled runtime requests
  asked : (requests.map Prod.fst).Nodup
  active : runtime.activeCount = runtime.states.countP fun state => !state.done
  retired : ∀ key ∈ runtime.retired, key ∈ requests.map Prod.fst
  tokens : ∀ key ∈ requests.map Prod.fst, ∃ state, runtime.states[key.1]? = some state ∧ key.2 ≤ state.waitToken

end Invariant

section Frame

variable {before after : FiberRuntime Any Failure Future} {clock later : Rat} {polls morePolls : List (WaitKey → Option Failure)}
  {requests more : List (WaitKey × FiberRequest Future)} {key : WaitKey} {pending : Option Future}

structure Unmoved (before after : FiberRuntime Any Failure Future) (key : WaitKey) : Prop where
  ready : after.readyOf key.1 = before.readyOf key.1
  waiters : ∀ future checked, before.Waiter future ⟨key, checked⟩ → key ∉ after.retired → after.Waiter future ⟨key, checked⟩
  retired : key ∈ after.retired → key ∈ before.retired
  sleepers : ∀ entry, entry.entry.1 = key → (entry ∈ after.sleepers ↔ entry ∈ before.sleepers)
  deadlines : ∀ entry, entry.entry.2 = key → entry ∈ before.futureDeadlines → entry ∈ after.futureDeadlines
  settled : ∀ future outcome, Lib.Dict.get before.settled future = some outcome → Lib.Dict.get after.settled future = some outcome

theorem CheckRaised.mono {checked : Bool} {resume : FiberResume Any Failure} (raised : CheckRaised polls key checked resume)
    (further : ∀ checks ∈ polls, checks ∈ morePolls) : CheckRaised morePolls key checked resume := by
  obtain ⟨given, checks, polled, raised⟩ := raised
  exact ⟨given, checks, further checks polled, raised⟩

theorem Answers.mono {settled known : List (Future × Except Failure Any)} {request : FiberRequest Future}
    {resume : FiberResume Any Failure} (answers : Answers settled clock polls key request resume)
    (kept : ∀ future outcome, Lib.Dict.get settled future = some outcome → Lib.Dict.get known future = some outcome)
    (passed : clock ≤ later) (further : ∀ checks ∈ polls, checks ∈ morePolls) :
    Answers known later morePolls key request resume := by
  cases request with
  | future future deadline checked =>
      rcases answers with ⟨outcome, found, same⟩ | ⟨same, limit, named, reached⟩ | raised
      · exact .inl ⟨outcome, kept _ _ found, same⟩
      · exact .inr (.inl ⟨same, limit, named, le_trans reached passed⟩)
      · exact .inr (.inr (raised.mono further))
  | sleep deadline checked =>
      rcases answers with ⟨same, reached⟩ | raised
      · exact .inl ⟨same, le_trans reached passed⟩
      · exact .inr (raised.mono further)

theorem Suspended.moved (here : Suspended before clock polls requests key pending) (unmoved : Unmoved before after key)
    (asked : ∀ request ∈ requests, request ∈ more) (passed : clock ≤ later) (further : ∀ checks ∈ polls, checks ∈ morePolls) :
    Suspended after later morePolls more key pending := by
  have unslept : (∀ entry ∈ before.sleepers, entry.entry.1 ≠ key) → ∀ entry ∈ after.sleepers, entry.entry.1 ≠ key :=
    fun none entry inside same => none entry ((unmoved.sleepers entry same).mp inside) same
  cases here with
  | ready request ready answers unpending none =>
      exact .ready (asked _ request) (unmoved.ready.trans ready) (answers.mono unmoved.settled passed further) unpending
        (unslept none)
  | awaiting request ready pending waiter active none timed =>
      refine .awaiting (asked _ request) (unmoved.ready.trans ready) pending ?_ ?_ (unslept none) ?_
      · exact unmoved.waiters _ _ waiter fun gone => active (unmoved.retired gone)
      · exact fun gone => active (unmoved.retired gone)
      · intro limit named
        obtain ⟨entry, inside, due, same⟩ := timed limit named
        exact ⟨entry, unmoved.deadlines entry (by rw [same]) inside, due, same⟩
  | asleep request ready unpending sleeper =>
      obtain ⟨entry, inside, due, same⟩ := sleeper
      exact .asleep (asked _ request) (unmoved.ready.trans ready) unpending
        ⟨entry, (unmoved.sleepers entry (by rw [same])).mpr inside, due, same⟩

theorem Tabled.same (tabled : Tabled before requests) (sleepers : after.sleepers = before.sleepers)
    (waiters : after.futureWaiters = before.futureWaiters) (deadlines : after.futureDeadlines = before.futureDeadlines) :
    Tabled after requests := by
  refine ⟨sleepers ▸ tabled.once, sleepers ▸ tabled.sleepers, ?_, deadlines ▸ tabled.deadlines, waiters ▸ tabled.distinct⟩
  unfold FiberRuntime.Waiter
  rw [waiters]
  exact tabled.waiters

def FiberRuntime.core (runtime : FiberRuntime Any Failure Future) : FiberRuntime Any Failure Future :=
  { runtime with
    serial := 0
    completedFutures := []
    wake := false
    results := []
    firstError := none
    callbacks := []
    calling := []
    signalling := [] }

theorem RuntimeHeld.of_core (held : RuntimeHeld before clock polls requests) (same : after.core = before.core) :
    RuntimeHeld after clock polls requests := by
  obtain ⟨states, waiters, retired, deadlines, sleepers, serial, ready, completed, wake, active, results, error, settled,
    callbacks, calling, signalling⟩ := after
  cases before
  cases same
  refine ⟨⟨?_, held.placed.finished, held.placed.known⟩, ?_, held.asked, held.active, held.retired, held.tokens⟩
  · intro index state found live
    exact (held.placed.suspended index state found live).moved
      ⟨rfl, fun _ _ waiter _ => waiter, id, fun _ _ => Iff.rfl, fun _ _ => id, fun _ _ => id⟩ (fun _ => id) le_rfl fun _ => id
  · exact held.tabled.same rfl rfl rfl

end Frame

section Answering

variable {runtime : FiberRuntime Any Failure Future} {clock : Rat} {polls : List (WaitKey → Option Failure)}
  {requests : List (WaitKey × FiberRequest Future)}
  {future : Future} {key : WaitKey} {resume : FiberResume Any Failure} {deadline : Option Rat} {checked : Bool}

theorem awaits_future_iff : runtime.awaitsFuture future key = true ↔ ∃ state, runtime.states[key.1]? = some state ∧
    state.done = false ∧ state.waitToken = key.2 ∧ state.pendingFuture = some future := by
  unfold FiberRuntime.awaitsFuture
  cases runtime.states[key.1]? with
  | none => simp
  | some state => simp [and_assoc]

theorem Suspended.of_pending (here : Suspended runtime clock polls requests key (some future)) :
    (∃ deadline checked, (key, .future future deadline checked) ∈ requests) ∧ runtime.readyOf key.1 = [] ∧
      ∀ entry ∈ runtime.sleepers, entry.entry.1 ≠ key := by
  cases here with
  | ready _ _ _ unpending _ => cases unpending
  | awaiting request ready pending _ _ none _ =>
      cases pending
      exact ⟨⟨_, _, request⟩, ready, none⟩
  | asleep _ _ unpending _ => cases unpending

theorem retired_asked {request : FiberRequest Future} (held : RuntimeHeld runtime clock polls requests)
    (asked : (key, request) ∈ requests) :
    ∀ gone ∈ (runtime.retire key).retired, gone ∈ requests.map Prod.fst := by
  intro gone inside
  rcases List.mem_cons.mp inside with rfl | before
  · exact List.mem_map_of_mem asked
  · exact held.retired gone before

theorem retire_held (held : RuntimeHeld runtime clock polls requests) (asked : (key, .future future deadline checked) ∈ requests)
    (gone : runtime.awaitsFuture future key = false) : RuntimeHeld (runtime.retire key) clock polls requests := by
  refine ⟨⟨?_, held.placed.finished, held.placed.known⟩, ?_, held.asked, held.active, retired_asked held asked, held.tokens⟩
  · intro index state found live
    have here := held.placed.suspended index state found live
    by_cases same : (index, state.waitToken) = key
    · subst same
      cases pending : state.pendingFuture with
      | none =>
          rw [pending] at here
          cases here with
          | ready request ready answers unpending none => exact .ready request ready answers unpending none
          | awaiting _ _ pending _ _ _ _ => cases pending
          | asleep request ready unpending sleeper => exact .asleep request ready unpending sleeper
      | some other =>
          rw [pending] at here
          obtain ⟨⟨_, _, request⟩, _, _⟩ := here.of_pending
          cases request_unique held.asked asked request
          have waits : runtime.awaitsFuture future (index, state.waitToken) = true :=
            awaits_future_iff.mpr ⟨state, found, live, rfl, pending⟩
          rw [gone] at waits
          cases waits
    · refine here.moved ⟨rfl, fun _ _ waiter _ => waiter, fun inside => ?_, fun _ _ => Iff.rfl, fun _ _ => id, fun _ _ => id⟩
        (fun _ => id) le_rfl fun _ => id
      rcases List.mem_cons.mp inside with here | before
      · exact absurd here same
      · exact before
  · exact held.tabled.same rfl rfl rfl

theorem FiberRunning.ready_again {index : Nat} {state : FiberState Any Future} {request : FiberRequest Future}
    (running : FiberRunning runtime clock polls requests index state) (asked : ((index, state.waitToken), request) ∈ requests)
    (answers : Answers runtime.settled clock polls (index, state.waitToken) request resume)
    (unslept : ∀ entry ∈ runtime.sleepers, entry.entry.1 ≠ (index, state.waitToken)) :
    RuntimeHeld (runtime.pushReady index resume) clock polls requests := by
  refine ⟨⟨?_, ?_, ?_⟩, running.tabled.same rfl rfl rfl, running.asked, running.active, running.retired, running.tokens⟩
  · intro other resting found live
    by_cases own : index = other
    · subst own
      cases running.found.symm.trans found
      rw [running.unpending]
      refine .ready asked ?_ answers rfl unslept
      rw [ready_of_push, if_pos rfl, running.unready]
      rfl
    · refine (running.suspended other resting (Ne.symm own) found live).moved
        ⟨?_, fun _ _ waiter _ => waiter, id, fun _ _ => Iff.rfl, fun _ _ => id, fun _ _ => id⟩ (fun _ => id) le_rfl fun _ => id
      rw [ready_of_push, if_neg own]
  · intro other ended found dead
    have apart : index ≠ other := by
      rintro rfl
      cases running.found.symm.trans found
      rw [running.live] at dead
      cases dead
    rw [ready_of_push, if_neg apart]
    exact running.finished other ended found dead
  · intro entry inside
    rcases List.mem_append.mp inside with before | new
    · exact running.known entry before
    · cases List.mem_singleton.mp new
      exact (List.getElem?_eq_some_iff.mp running.found).1

theorem answer_awaited_held (held : RuntimeHeld runtime clock polls requests) (awaited : runtime.awaitsFuture future key = true)
    (asked : (key, .future future deadline checked) ∈ requests)
    (answers : Answers runtime.settled clock polls key (.future future deadline checked) resume) :
    RuntimeHeld (((runtime.retire key).clearPending key.1).pushReady key.1 resume) clock polls requests := by
  obtain ⟨waiting, here, alive, token, pending⟩ := awaits_future_iff.mp awaited
  have placed := held.placed.suspended key.1 waiting here alive
  rw [token, pending] at placed
  obtain ⟨_, unready, unslept⟩ := placed.of_pending
  have running : FiberRunning ((runtime.retire key).clearPending key.1) clock polls requests key.1
      { waiting with pendingFuture := none } := by
    have cleared : ((runtime.retire key).clearPending key.1).states =
        runtime.states.modify key.1 fun state => { state with pendingFuture := none } := rfl
    refine ⟨?_, alive, rfl, unready, ?_, ?_, ?_, held.tabled.same rfl rfl rfl, held.asked, ?_, retired_asked held asked, ?_⟩
    · rw [cleared, List.getElem?_modify_eq, here]
      rfl
    · intro other resting apart found live
      rw [cleared, List.getElem?_modify_ne _ _ (Ne.symm apart)] at found
      refine (held.placed.suspended other resting found live).moved ⟨rfl, fun _ _ waiter _ => waiter, fun inside => ?_,
        fun _ _ => Iff.rfl, fun _ _ => id, fun _ _ => id⟩ (fun _ => id) le_rfl fun _ => id
      rcases List.mem_cons.mp inside with taken | kept
      · exact absurd (congrArg Prod.fst taken) apart
      · exact kept
    · intro other ended found dead
      obtain ⟨old, before, done, _, _⟩ := clear_pending_state found
      exact held.placed.finished other old before (done ▸ dead)
    · intro entry inside
      exact (held.placed.known entry inside).trans_eq (List.length_modify ..).symm
    · exact held.active.trans (congrArg Nat.cast (clear_pending_active key.1).symm)
    · intro other inside
      obtain ⟨old, before, bound⟩ := held.tokens other inside
      refine ⟨if key.1 = other.1 then { old with pendingFuture := none } else old, ?_, ?_⟩
      · rw [cleared, List.getElem?_modify, before]
        split <;> rfl
      · split <;> exact bound
  have current : key = (key.1, waiting.waitToken) := Prod.ext rfl token.symm
  rw [current] at asked answers
  exact running.ready_again asked answers (token ▸ unslept)

theorem answer_held (held : RuntimeHeld runtime clock polls requests) (asked : (key, .future future deadline checked) ∈ requests)
    (answers : Answers runtime.settled clock polls key (.future future deadline checked) resume) :
    RuntimeHeld (runtime.answer future key resume) clock polls requests := by
  unfold FiberRuntime.answer
  split
  · rename_i awaited
    exact answer_awaited_held held awaited asked answers
  · rename_i gone
    exact retire_held held asked (by simpa using gone)

theorem answer_of_awaited (awaited : runtime.awaitsFuture future key = true) :
    runtime.answer future key resume = ((runtime.retire key).clearPending key.1).pushReady key.1 resume := if_pos awaited

theorem answer_of_gone (gone : ¬runtime.awaitsFuture future key = true) : runtime.answer future key resume = runtime.retire key :=
  if_neg gone

theorem answer_retires (runtime : FiberRuntime Any Failure Future) (future : Future) (key : WaitKey)
    (resume : FiberResume Any Failure) : (runtime.answer future key resume).retired = key :: runtime.retired := by
  unfold FiberRuntime.answer
  split <;> rfl

theorem answer_tables (runtime : FiberRuntime Any Failure Future) (waiters : List (Future × List FutureWaiter))
    (deadlines : List (HeapEntry (Future × WaitKey))) (future : Future) (key : WaitKey) (resume : FiberResume Any Failure) :
    { runtime with futureWaiters := waiters, futureDeadlines := deadlines }.answer future key resume =
      { runtime.answer future key resume with futureWaiters := waiters, futureDeadlines := deadlines } := by
  by_cases awaited : runtime.awaitsFuture future key = true
  · rw [answer_of_awaited awaited]
    exact answer_of_awaited awaited
  · rw [answer_of_gone awaited]
    exact answer_of_gone awaited

theorem answer_waiters (runtime : FiberRuntime Any Failure Future) (future : Future) (key : WaitKey)
    (resume : FiberResume Any Failure) : (runtime.answer future key resume).futureWaiters = runtime.futureWaiters :=
  (congrArg FiberRuntime.futureWaiters (answer_tables runtime runtime.futureWaiters runtime.futureDeadlines future key resume) :)

structure Quiet (before after : FiberRuntime Any Failure Future) : Prop where
  marks : after.states.map FiberState.mark = before.states.map FiberState.mark
  settled : after.settled = before.settled
  callbacks : after.callbacks = before.callbacks
  completed : after.completedFutures = before.completedFutures
  calling : after.calling = before.calling
  signalling : after.signalling = before.signalling
  wake : after.wake = before.wake
  waiters : ∀ future, (Lib.Dict.get after.futureWaiters future).isSome → (Lib.Dict.get before.futureWaiters future).isSome
  sleepers : after.sleepers = before.sleepers
  deadlines : after.futureDeadlines = before.futureDeadlines

theorem Quiet.refl (runtime : FiberRuntime Any Failure Future) : Quiet runtime runtime :=
  ⟨rfl, rfl, rfl, rfl, rfl, rfl, rfl, fun _ => id, rfl, rfl⟩

theorem Quiet.trans {first second third : FiberRuntime Any Failure Future} (left : Quiet first second)
    (right : Quiet second third) :
    Quiet first third :=
  ⟨right.marks.trans left.marks, right.settled.trans left.settled, right.callbacks.trans left.callbacks,
    right.completed.trans left.completed, right.calling.trans left.calling, right.signalling.trans left.signalling,
    right.wake.trans left.wake, fun future here => left.waiters future (right.waiters future here),
    right.sleepers.trans left.sleepers, right.deadlines.trans left.deadlines⟩

theorem answer_quiet (runtime : FiberRuntime Any Failure Future) (future : Future) (key : WaitKey)
    (resume : FiberResume Any Failure) :
    Quiet runtime (runtime.answer future key resume) := by
  unfold FiberRuntime.answer
  split
  · exact ⟨clear_pending_marks _ _, rfl, rfl, rfl, rfl, rfl, rfl, fun _ => id, rfl, rfl⟩
  · exact ⟨rfl, rfl, rfl, rfl, rfl, rfl, rfl, fun _ => id, rfl, rfl⟩

end Answering

section Sleeping

variable {runtime : FiberRuntime Any Failure Future} {clock : Rat} {polls : List (WaitKey → Option Failure)}
  {requests : List (WaitKey × FiberRequest Future)}
  {first : HeapEntry (WaitKey × Bool)} {rest other : List (HeapEntry (WaitKey × Bool))} {resume : FiberResume Any Failure}

theorem sleepers_perm_held (runtime : FiberRuntime Any Failure Future) (held : RuntimeHeld runtime clock polls requests)
    (same : other.Perm runtime.sleepers) :
    RuntimeHeld { runtime with sleepers := other } clock polls requests := by
  have members : ∀ entry, entry ∈ other ↔ entry ∈ runtime.sleepers := fun entry => same.mem_iff
  refine ⟨⟨?_, held.placed.finished, held.placed.known⟩, ?_, held.asked, held.active, held.retired, held.tokens⟩
  · intro index state found live
    exact (held.placed.suspended index state found live).moved
      ⟨rfl, fun _ _ waiter _ => waiter, id, fun entry _ => members entry, fun _ _ => id,
        fun _ _ => id⟩ (fun _ => id) le_rfl fun _ => id
  · refine ⟨?_, fun entry inside => held.tabled.sleepers entry ((members entry).mp inside), held.tabled.waiters,
      held.tabled.deadlines, held.tabled.distinct⟩
    exact (same.map _).nodup_iff.mpr held.tabled.once

theorem popped_tables (held : RuntimeHeld runtime clock polls requests) (top : runtime.sleepers = first :: rest) :
    Tabled { runtime with sleepers := rest } requests ∧ (∀ entry ∈ rest, entry.entry.1 ≠ first.entry.1) ∧
      (first.entry.1, .sleep first.deadline first.entry.2) ∈ requests := by
  have once := held.tabled.once
  rw [top, List.map_cons, List.nodup_cons] at once
  have inside : ∀ entry ∈ rest, entry ∈ runtime.sleepers := fun entry later => top ▸ List.mem_cons_of_mem _ later
  refine ⟨⟨once.2, fun entry later => held.tabled.sleepers entry (inside entry later), held.tabled.waiters, held.tabled.deadlines,
    held.tabled.distinct⟩, ?_, held.tabled.sleepers first (top ▸ List.mem_cons_self)⟩
  intro entry later same
  exact once.1 (List.mem_map.mpr ⟨entry, later, same⟩)

theorem popped_unmoved {key : WaitKey} (top : runtime.sleepers = first :: rest) (apart : first.entry.1 ≠ key) :
    Unmoved runtime { runtime with sleepers := rest } key := by
  refine ⟨rfl, fun _ _ waiter _ => waiter, id, fun entry same => ?_, fun _ _ => id, fun _ _ => id⟩
  rw [top, List.mem_cons]
  constructor
  · exact fun later => .inr later
  · rintro (rfl | later)
    · exact absurd same apart
    · exact later

theorem stale_sleeper_held (runtime : FiberRuntime Any Failure Future) (held : RuntimeHeld runtime clock polls requests)
    (top : runtime.sleepers = first :: rest)
    (gone : runtime.stillWaits first.entry.1 = false) : RuntimeHeld { runtime with sleepers := rest } clock polls requests := by
  obtain ⟨tables, _, _⟩ := popped_tables held top
  refine ⟨⟨?_, held.placed.finished, held.placed.known⟩, tables, held.asked, held.active, held.retired, held.tokens⟩
  intro index state found live
  have apart : first.entry.1 ≠ (index, state.waitToken) := by
    intro same
    have waits : runtime.stillWaits first.entry.1 = true :=
      still_waits_iff.mpr ⟨state, by rw [same]; exact found, live, by rw [same]⟩
    rw [gone] at waits
    cases waits
  exact (held.placed.suspended index state found live).moved (popped_unmoved top apart) (fun _ => id) le_rfl fun _ => id

theorem woken_sleeper_held (runtime : FiberRuntime Any Failure Future) (held : RuntimeHeld runtime clock polls requests)
    (top : runtime.sleepers = first :: rest)
    (waits : runtime.stillWaits first.entry.1 = true)
    (answers : Answers runtime.settled clock polls first.entry.1 (.sleep first.deadline first.entry.2) resume) :
    RuntimeHeld ({ runtime with sleepers := rest }.pushReady first.entry.1.1 resume) clock polls requests := by
  obtain ⟨tables, fresh, asked⟩ := popped_tables held top
  obtain ⟨sleeping, here, alive, token⟩ := still_waits_iff.mp waits
  have inside : first ∈ runtime.sleepers := top ▸ List.mem_cons_self
  have placed := held.placed.suspended first.entry.1.1 sleeping here alive
  rw [token] at placed
  have resting : runtime.readyOf first.entry.1.1 = [] ∧ sleeping.pendingFuture = none := by
    cases placed with
    | ready _ _ _ _ none => exact absurd rfl (none first inside)
    | awaiting _ _ _ _ _ none _ => exact absurd rfl (none first inside)
    | asleep _ unready unpending _ => exact ⟨unready, unpending⟩
  have running : FiberRunning { runtime with sleepers := rest } clock polls requests first.entry.1.1 sleeping := by
    refine ⟨here, alive, resting.2, resting.1, fun other state apart found live => ?_, held.placed.finished, held.placed.known,
      tables, held.asked, held.active, held.retired, held.tokens⟩
    have own : first.entry.1 ≠ (other, state.waitToken) := fun same => apart (congrArg Prod.fst same).symm
    exact (held.placed.suspended other state found live).moved (popped_unmoved top own) (fun _ => id) le_rfl fun _ => id
  have current : first.entry.1 = (first.entry.1.1, sleeping.waitToken) := Prod.ext rfl token.symm
  rw [current] at asked fresh answers
  exact running.ready_again asked answers fresh

variable {now : Rat} {checks : WaitKey → Option Failure}

theorem check_raised {key : WaitKey} {checked : Bool} {error : Failure} (polled : checks ∈ polls)
    (raised : FiberRuntime.raisedCheck checks key checked = some error) :
    CheckRaised polls key checked (.error error : FiberResume Any Failure) := by
  cases checked with
  | false => cases raised
  | true => exact ⟨rfl, checks, polled, error, raised, rfl⟩

theorem wake_sleeper_held (held : RuntimeHeld runtime clock polls requests) (polled : checks ∈ polls)
    (top : runtime.sleepers = first :: rest) (due : first.deadline ≤ clock) :
    RuntimeHeld ({ runtime with sleepers := rest }.wakeSleeper checks first.entry.1 first.entry.2) clock polls requests := by
  unfold FiberRuntime.wakeSleeper
  by_cases waits : { runtime with sleepers := rest }.stillWaits first.entry.1 = true
  · rw [if_pos waits]
    cases raised : FiberRuntime.raisedCheck checks first.entry.1 first.entry.2 with
    | none => exact woken_sleeper_held _ held top waits (.inl ⟨rfl, due⟩)
    | some error => exact woken_sleeper_held _ held top waits (.inr (check_raised polled raised))
  · rw [if_neg waits]
    exact stale_sleeper_held _ held top (Bool.eq_false_iff.mpr waits)

theorem wake_sleeper_quiet (checks : WaitKey → Option Failure) (runtime : FiberRuntime Any Failure Future)
    (key : WaitKey) (checked : Bool) :
    Quiet runtime (runtime.wakeSleeper checks key checked) := by
  unfold FiberRuntime.wakeSleeper
  by_cases waits : runtime.stillWaits key = true
  · rw [if_pos waits]
    cases FiberRuntime.raisedCheck checks key checked with
    | none => exact ⟨rfl, rfl, rfl, rfl, rfl, rfl, rfl, fun _ => id, rfl, rfl⟩
    | some error => exact ⟨rfl, rfl, rfl, rfl, rfl, rfl, rfl, fun _ => id, rfl, rfl⟩
  · rw [if_neg waits]
    exact Quiet.refl runtime

theorem process_sleepers_held {heap : List (HeapEntry (WaitKey × Bool))} (held : RuntimeHeld runtime clock polls requests)
    (passed : now ≤ clock) (polled : checks ∈ polls) (whole : runtime.sleepers = heap) :
    RuntimeHeld (FiberRuntime.processSleepers now checks heap runtime) clock polls requests := by
  induction heap generalizing runtime with
  | nil => exact held
  | cons first rest ih =>
      unfold FiberRuntime.processSleepers
      by_cases due : first.deadline ≤ now
      · rw [if_pos due]
        exact ih (wake_sleeper_held held polled whole (le_trans due passed)) (wake_sleeper_quiet checks ..).sleepers
      · rw [if_neg due]
        exact held

end Sleeping

section Deadlines

variable {runtime : FiberRuntime Any Failure Future} {clock now : Rat} {polls : List (WaitKey → Option Failure)}
  {requests : List (WaitKey × FiberRequest Future)}
  {kept : List (HeapEntry (Future × WaitKey))}

theorem drop_deadlines_held (held : RuntimeHeld runtime clock polls requests)
    (known : ∀ entry ∈ kept, entry ∈ runtime.futureDeadlines)
    (stale : ∀ entry ∈ runtime.futureDeadlines, entry ∉ kept →
      entry.entry.2 ∈ runtime.retired ∨ runtime.awaitsFuture entry.entry.1 entry.entry.2 = false) :
    RuntimeHeld { runtime with futureDeadlines := kept } clock polls requests := by
  refine ⟨⟨?_, held.placed.finished, held.placed.known⟩, ?_, held.asked, held.active, held.retired, held.tokens⟩
  · intro index state found live
    cases held.placed.suspended index state found live with
    | ready request ready answers unpending none => exact .ready request ready answers unpending none
    | @awaiting future deadline checked request ready pending waiter active none timed =>
        refine .awaiting request ready pending waiter active none fun limit named => ?_
        obtain ⟨entry, inside, due, same⟩ := timed limit named
        refine ⟨entry, ?_, due, same⟩
        by_contra gone
        rcases stale entry inside gone with retired | ended
        · rw [same] at retired
          exact active retired
        · have waits : runtime.awaitsFuture entry.entry.1 entry.entry.2 = true := by
            rw [same]
            exact awaits_future_iff.mpr ⟨state, found, live, rfl, pending⟩
          rw [ended] at waits
          cases waits
    | asleep request ready unpending sleeper => exact .asleep request ready unpending sleeper
  · exact ⟨held.tabled.once, held.tabled.sleepers, held.tabled.waiters,
      fun entry inside => held.tabled.deadlines entry (known entry inside),
      held.tabled.distinct⟩

theorem process_future_deadlines_held {heap : List (HeapEntry (Future × WaitKey))}
    (held : RuntimeHeld runtime clock polls requests)
    (passed : now ≤ clock) (whole : runtime.futureDeadlines = heap) :
    RuntimeHeld (FiberRuntime.processFutureDeadlines now heap runtime) clock polls requests := by
  induction heap generalizing runtime with
  | nil => exact held
  | cons first rest ih =>
      unfold FiberRuntime.processFutureDeadlines
      split
      · rename_i due
        have known : ∀ entry ∈ rest, entry ∈ runtime.futureDeadlines := fun entry later => whole ▸ List.mem_cons_of_mem _ later
        dsimp only
        split
        · rename_i retired
          refine ih (drop_deadlines_held held known fun entry inside gone => .inl ?_) rfl
          rw [whole, List.mem_cons] at inside
          rcases inside with rfl | later
          · exact retired
          · exact absurd later gone
        · obtain ⟨checked, asked⟩ := held.tabled.deadlines first (whole ▸ List.mem_cons_self)
          have answered : RuntimeHeld (runtime.answer first.entry.1 first.entry.2 .timedOut) clock polls requests :=
            answer_held held asked (.inr (.inl ⟨rfl, first.deadline, rfl, le_trans due passed⟩))
          have table : (runtime.answer first.entry.1 first.entry.2 .timedOut).futureDeadlines = first :: rest :=
            (answer_quiet ..).deadlines.trans whole
          have moved : { runtime with futureDeadlines := rest }.answer first.entry.1 first.entry.2 .timedOut =
              { runtime.answer first.entry.1 first.entry.2 .timedOut with futureDeadlines := rest } :=
            (answer_tables runtime runtime.futureWaiters rest _ _ _).trans (by rw [← answer_waiters])
          rw [moved]
          refine ih (drop_deadlines_held answered (fun entry later => table ▸ List.mem_cons_of_mem _ later)
            fun entry inside gone => .inl ?_) rfl
          rw [table, List.mem_cons] at inside
          rcases inside with rfl | later
          · rw [answer_retires]
            exact List.mem_cons_self
          · exact absurd later gone
      · exact held

theorem process_deadlines_held {checks : WaitKey → Option Failure} (held : RuntimeHeld runtime clock polls requests)
    (passed : now ≤ clock) (polled : checks ∈ polls) : RuntimeHeld (runtime.processDeadlines now checks) clock polls requests :=
  process_future_deadlines_held (process_sleepers_held held passed polled rfl) passed rfl

theorem drop_stale_held (held : RuntimeHeld runtime clock polls requests) :
    RuntimeHeld runtime.dropStaleDeadlines clock polls requests := by
  refine drop_deadlines_held held (fun entry inside => (List.dropWhile_sublist _).subset inside) fun entry inside gone => ?_
  have parts := List.takeWhile_append_dropWhile (p := fun entry : HeapEntry (Future × WaitKey) =>
    decide (entry.entry.2 ∈ runtime.retired) || !runtime.awaitsFuture entry.entry.1 entry.entry.2) (l := runtime.futureDeadlines)
  rw [← parts, List.mem_append] at inside
  rcases inside with early | late
  · simpa using List.mem_takeWhile_imp early
  · exact absurd late gone

end Deadlines

section Futures

variable {runtime : FiberRuntime Any Failure Future} {clock : Rat} {polls : List (WaitKey → Option Failure)}
  {requests : List (WaitKey × FiberRequest Future)}
  {table : List (Future × List FutureWaiter)} {future : Future} {resume : FiberResume Any Failure}

theorem drop_waiters_held (held : RuntimeHeld runtime clock polls requests) (distinct : (table.map Prod.fst).Nodup)
    (known : ∀ future waiter, { runtime with futureWaiters := table }.Waiter future waiter → runtime.Waiter future waiter)
    (stale : ∀ future waiter, runtime.Waiter future waiter → waiter.key ∉ runtime.retired →
      { runtime with futureWaiters := table }.Waiter future waiter) :
    RuntimeHeld { runtime with futureWaiters := table } clock polls requests := by
  refine ⟨⟨?_, held.placed.finished, held.placed.known⟩, ?_, held.asked, held.active, held.retired, held.tokens⟩
  · intro index state found live
    exact (held.placed.suspended index state found live).moved
      ⟨rfl, fun _ _ waiter active => stale _ _ waiter active, id, fun _ _ => Iff.rfl, fun _ _ => id, fun _ _ => id⟩
      (fun _ => id) le_rfl fun _ => id
  · exact ⟨held.tabled.once, held.tabled.sleepers, fun future waiter inside =>
      held.tabled.waiters future waiter (known future waiter inside),
      held.tabled.deadlines, distinct⟩

theorem answer_all_tables (waiters : List FutureWaiter) (table : List (Future × List FutureWaiter)) (future : Future)
    (resume : FiberResume Any Failure) (runtime : FiberRuntime Any Failure Future) :
    waiters.foldl (fun runtime waiter => runtime.answer future waiter.key resume) { runtime with futureWaiters := table } =
      { waiters.foldl (fun runtime waiter => runtime.answer future waiter.key resume) runtime with futureWaiters := table } := by
  induction waiters generalizing runtime with
  | nil => rfl
  | cons waiter rest ih =>
      rw [List.foldl_cons, List.foldl_cons, ← ih]
      congr 1
      refine (answer_tables runtime table runtime.futureDeadlines _ _ _).trans ?_
      rw [← (answer_quiet runtime future waiter.key resume).deadlines]

theorem answer_all_held (waiters : List FutureWaiter) (held : RuntimeHeld runtime clock polls requests)
    (asked : ∀ waiter ∈ waiters, ∃ deadline, (waiter.key, .future future deadline waiter.checked) ∈ requests)
    (answers : ∀ key deadline checked, Answers runtime.settled clock polls key (.future future deadline checked) resume) :
    let answered := waiters.foldl (fun runtime waiter => runtime.answer future waiter.key resume) runtime
    RuntimeHeld answered clock polls requests ∧ (∀ key ∈ runtime.retired, key ∈ answered.retired) ∧
      ∀ waiter ∈ waiters, waiter.key ∈ answered.retired := by
  induction waiters generalizing runtime with
  | nil => exact ⟨held, fun _ => id, nofun⟩
  | cons waiter rest ih =>
      obtain ⟨deadline, request⟩ := asked waiter List.mem_cons_self
      obtain ⟨still, old, gone⟩ := ih (answer_held held request (answers waiter.key deadline waiter.checked))
        (fun other later => asked other (List.mem_cons_of_mem _ later)) (by rw [(answer_quiet ..).settled]; exact answers)
      rw [answer_retires] at old
      refine ⟨still, fun key before => old key (List.mem_cons_of_mem _ before), ?_⟩
      intro other inside
      rcases List.mem_cons.mp inside with rfl | later
      · exact old _ List.mem_cons_self
      · exact gone other later

theorem answer_all_waiters (waiters : List FutureWaiter) (future : Future) (resume : FiberResume Any Failure)
    (runtime : FiberRuntime Any Failure Future) :
    (waiters.foldl (fun runtime waiter => runtime.answer future waiter.key resume) runtime).futureWaiters =
      runtime.futureWaiters :=
  (congrArg FiberRuntime.futureWaiters (answer_all_tables waiters runtime.futureWaiters future resume runtime) :)

theorem answer_all_quiet (waiters : List FutureWaiter) (future : Future) (resume : FiberResume Any Failure)
    (runtime : FiberRuntime Any Failure Future) :
    Quiet runtime (waiters.foldl (fun runtime waiter => runtime.answer future waiter.key resume) runtime) := by
  induction waiters generalizing runtime with
  | nil => exact Quiet.refl runtime
  | cons waiter rest ih => exact (answer_quiet runtime future waiter.key resume).trans (ih _)

theorem waiter_iff {waiter : FutureWaiter} :
    runtime.Waiter future waiter ↔ waiter ∈ (Lib.Dict.get runtime.futureWaiters future).getD [] := by
  unfold FiberRuntime.Waiter
  cases Lib.Dict.get runtime.futureWaiters future with
  | none => simp
  | some waiters => simp

theorem replace_waiters_held (future : Future) (held : RuntimeHeld runtime clock polls requests)
    (distinct : (table.map Prod.fst).Nodup)
    (others : ∀ other, other ≠ future → Lib.Dict.get table other = Lib.Dict.get runtime.futureWaiters other)
    (known : ∀ waiter ∈ (Lib.Dict.get table future).getD [], runtime.Waiter future waiter)
    (stale : ∀ waiter, runtime.Waiter future waiter →
      waiter.key ∈ runtime.retired ∨ waiter ∈ (Lib.Dict.get table future).getD []) :
    RuntimeHeld { runtime with futureWaiters := table } clock polls requests := by
  refine drop_waiters_held held distinct ?_ ?_
  · intro other waiter inside
    rw [waiter_iff] at inside
    by_cases same : other = future
    · subst same
      exact known waiter inside
    · rw [waiter_iff, ← others other same]
      exact inside
  · intro other waiter inside active
    rw [waiter_iff]
    by_cases same : other = future
    · subst same
      exact (stale waiter inside).resolve_left active
    · rw [waiter_iff, ← others other same] at inside
      exact inside

theorem pop_nodup (distinct : (table.map Prod.fst).Nodup) : ((Lib.Dict.pop table future).map Prod.fst).Nodup :=
  distinct.sublist ((List.filter_sublist).map _)

theorem get_pop_self : Lib.Dict.get (Lib.Dict.pop table future) future = none :=
  Lib.Dict.get_none_iff.mpr fun _ inside => (Lib.Dict.mem_pop.mp inside).2

theorem process_future_held (held : RuntimeHeld runtime clock polls requests)
    (known : (Lib.Dict.get runtime.settled future).isSome) : RuntimeHeld (runtime.processFuture future) clock polls requests := by
  unfold FiberRuntime.processFuture
  obtain ⟨outcome, settled⟩ := Option.isSome_iff_exists.mp known
  cases found : Lib.Dict.get runtime.futureWaiters future with
  | none => exact held
  | some waiters =>
      rw [settled]
      dsimp only [Option.map_some, Option.getD_some]
      rw [answer_all_tables]
      obtain ⟨answered, _, gone⟩ := answer_all_held waiters held
        (fun waiter inside => held.tabled.waiters future waiter ⟨waiters, found, inside⟩)
        (fun _ _ _ => .inl ⟨outcome, settled, rfl⟩)
      refine replace_waiters_held future answered (pop_nodup held.tabled.distinct) ?_ ?_ ?_
      · intro other apart
        rw [answer_all_waiters, Lib.Dict.get_pop_other apart]
      · rw [get_pop_self]
        exact nofun
      · intro waiter inside
        rw [waiter_iff, answer_all_waiters, found] at inside
        exact .inl (gone waiter inside)

theorem get_pop_some {other : Future} (here : (Lib.Dict.get (Lib.Dict.pop table future) other).isSome) :
    (Lib.Dict.get table other).isSome := by
  by_cases same : other = future
  · rw [same, get_pop_self] at here
    cases here
  · rw [← Lib.Dict.get_pop_other same]
    exact here

theorem process_future_quiet (runtime : FiberRuntime Any Failure Future) (future : Future) :
    Quiet runtime (runtime.processFuture future) ∧ Lib.Dict.get (runtime.processFuture future).futureWaiters future = none := by
  unfold FiberRuntime.processFuture
  cases found : Lib.Dict.get runtime.futureWaiters future with
  | none => exact ⟨Quiet.refl runtime, found⟩
  | some waiters =>
      have popped : Quiet runtime { runtime with futureWaiters := Lib.Dict.pop runtime.futureWaiters future } :=
        ⟨rfl, rfl, rfl, rfl, rfl, rfl, rfl, fun _ => get_pop_some, rfl, rfl⟩
      refine ⟨popped.trans (answer_all_quiet ..), ?_⟩
      dsimp only
      rw [answer_all_waiters]
      exact get_pop_self

theorem take_future_held (held : RuntimeHeld runtime clock polls requests)
    (known : ∀ future ∈ runtime.completedFutures, (Lib.Dict.get runtime.settled future).isSome) :
    RuntimeHeld runtime.takeFuture clock polls requests := by
  unfold FiberRuntime.takeFuture
  cases top : runtime.completedFutures with
  | nil => exact held
  | cons future rest => exact process_future_held (held.of_core rfl) (known future (top ▸ List.mem_cons_self))

end Futures

section Polling

variable {runtime : FiberRuntime Any Failure Future} {clock : Rat} {polls : List (WaitKey → Option Failure)}
  {requests : List (WaitKey × FiberRequest Future)}
  {future : Future} {checks : WaitKey → Option Failure}

theorem poll_waiters_cases (checks : WaitKey → Option Failure) (future : Future) (waiter : FutureWaiter)
    (rest : List FutureWaiter)
    (runtime : FiberRuntime Any Failure Future) :
    let polled := FiberRuntime.pollWaiters checks future (waiter :: rest) runtime
    let poll := FiberRuntime.pollWaiters checks future rest
    (waiter.key ∈ runtime.retired ∧ polled = poll runtime) ∨
      (∃ error, FiberRuntime.raisedCheck checks waiter.key waiter.checked = some error ∧
        polled = poll (runtime.answer future waiter.key (.error error))) ∨
      polled = ((poll runtime).1, waiter :: (poll runtime).2) ∨
      (runtime.awaitsFuture future waiter.key = false ∧ polled = poll (runtime.retire waiter.key)) := by
  dsimp only
  rw [FiberRuntime.pollWaiters]
  by_cases retired : waiter.key ∈ runtime.retired
  · rw [if_pos retired]
    exact .inl ⟨retired, rfl⟩
  · rw [if_neg retired]
    by_cases awaited : runtime.awaitsFuture future waiter.key = true
    · rw [if_pos awaited]
      cases raised : FiberRuntime.raisedCheck checks waiter.key waiter.checked with
      | some error => exact .inr (.inl ⟨error, rfl, rfl⟩)
      | none => exact .inr (.inr (.inl rfl))
    · rw [if_neg awaited]
      exact .inr (.inr (.inr ⟨Bool.eq_false_iff.mpr awaited, rfl⟩))

theorem poll_waiters_table (checks : WaitKey → Option Failure) (future : Future) (waiters : List FutureWaiter)
    (runtime : FiberRuntime Any Failure Future) :
    (FiberRuntime.pollWaiters checks future waiters runtime).1.futureWaiters = runtime.futureWaiters := by
  induction waiters generalizing runtime with
  | nil => rfl
  | cons waiter rest ih =>
      rcases poll_waiters_cases checks future waiter rest runtime with ⟨_, same⟩ | ⟨_, _, same⟩ | same | ⟨_, same⟩
      · rw [same, ih]
      · rw [same, ih, answer_waiters]
      · rw [same, ih]
      · rw [same, ih]
        rfl

theorem poll_waiters_held (future : Future) (waiters : List FutureWaiter) (held : RuntimeHeld runtime clock polls requests)
    (polled : checks ∈ polls)
    (asked : ∀ waiter ∈ waiters, ∃ deadline, (waiter.key, .future future deadline waiter.checked) ∈ requests) :
    let after := FiberRuntime.pollWaiters checks future waiters runtime
    RuntimeHeld after.1 clock polls requests ∧ (∀ key ∈ runtime.retired, key ∈ after.1.retired) ∧
      (∀ waiter ∈ after.2, waiter ∈ waiters) ∧ ∀ waiter ∈ waiters, waiter.key ∈ after.1.retired ∨ waiter ∈ after.2 := by
  induction waiters generalizing runtime with
  | nil => exact ⟨held, fun _ => id, fun _ => id, nofun⟩
  | cons waiter rest ih =>
      obtain ⟨deadline, request⟩ := asked waiter List.mem_cons_self
      have later : ∀ other ∈ rest, ∃ deadline, (other.key, .future future deadline other.checked) ∈ requests :=
        fun other inside => asked other (List.mem_cons_of_mem _ inside)
      have leaves : ∀ current : FiberRuntime Any Failure Future, RuntimeHeld current clock polls requests →
          (∀ key ∈ runtime.retired, key ∈ current.retired) → waiter.key ∈ current.retired →
          let after := FiberRuntime.pollWaiters checks future rest current
          RuntimeHeld after.1 clock polls requests ∧ (∀ key ∈ runtime.retired, key ∈ after.1.retired) ∧
            (∀ other ∈ after.2, other ∈ waiter :: rest) ∧
            ∀ other ∈ waiter :: rest, other.key ∈ after.1.retired ∨ other ∈ after.2 := by
        intro current still before retired
        obtain ⟨still, old, kept, gone⟩ := ih still later
        refine ⟨still, fun key inside => old key (before key inside),
          fun other inside => List.mem_cons_of_mem _ (kept other inside), fun other inside => ?_⟩
        rcases List.mem_cons.mp inside with rfl | inside
        · exact .inl (old _ retired)
        · exact gone other inside
      rcases poll_waiters_cases checks future waiter rest runtime with
        ⟨retired, same⟩ | ⟨error, raised, same⟩ | same | ⟨ended, same⟩
      · rw [same]
        exact leaves runtime held (fun _ => id) retired
      · rw [same]
        have retires := answer_retires runtime future waiter.key (.error error)
        refine leaves _ (answer_held held request (.inr (.inr (check_raised polled raised)))) (fun key before => ?_) ?_
        · exact retires ▸ List.mem_cons_of_mem _ before
        · exact retires ▸ List.mem_cons_self
      · rw [same]
        obtain ⟨still, old, kept, gone⟩ := ih held later
        refine ⟨still, old, fun other inside => ?_, fun other inside => ?_⟩
        · rcases List.mem_cons.mp inside with rfl | inside
          · exact List.mem_cons_self
          · exact List.mem_cons_of_mem _ (kept other inside)
        · rcases List.mem_cons.mp inside with rfl | inside
          · exact .inr List.mem_cons_self
          · exact (gone other inside).imp id (List.mem_cons_of_mem _)
      · rw [same]
        exact leaves _ (retire_held held request ended) (fun _ => List.mem_cons_of_mem _) List.mem_cons_self

theorem kept_waiters (table : List (Future × List FutureWaiter)) (future : Future) (keep : List FutureWaiter) :
    (Lib.Dict.get (if keep.isEmpty then Lib.Dict.pop table future else Lib.Dict.set table future keep) future).getD [] =
      keep := by
  cases keep with
  | nil => simp [get_pop_self]
  | cons first rest => simp

theorem kept_others {other : Future} (table : List (Future × List FutureWaiter)) (keep : List FutureWaiter)
    (apart : other ≠ future) :
    Lib.Dict.get (if keep.isEmpty then Lib.Dict.pop table future else Lib.Dict.set table future keep) other =
      Lib.Dict.get table other := by
  split
  · exact Lib.Dict.get_pop_other apart
  · exact Lib.Dict.get_set_other apart

theorem poll_future_others (checks : WaitKey → Option Failure) (entry : Future × List FutureWaiter) {other : Future}
    (apart : other ≠ entry.1) :
    Lib.Dict.get (runtime.pollFuture checks entry).futureWaiters other = Lib.Dict.get runtime.futureWaiters other := by
  unfold FiberRuntime.pollFuture
  dsimp only
  rw [kept_others _ _ apart, poll_waiters_table]

theorem poll_future_held {waiters : List FutureWaiter} (held : RuntimeHeld runtime clock polls requests)
    (polled : checks ∈ polls) (found : Lib.Dict.get runtime.futureWaiters future = some waiters) :
    RuntimeHeld (runtime.pollFuture checks (future, waiters)) clock polls requests := by
  obtain ⟨after, _, kept, gone⟩ := poll_waiters_held future waiters held polled
    fun waiter inside => held.tabled.waiters future waiter ⟨waiters, found, inside⟩
  have here : ∀ waiter, (FiberRuntime.pollWaiters checks future waiters runtime).1.Waiter future waiter ↔ waiter ∈ waiters := by
    intro waiter
    rw [waiter_iff, poll_waiters_table, found]
    rfl
  refine replace_waiters_held future after ?_ (fun other apart => kept_others _ _ apart) ?_ ?_
  · split
    · exact pop_nodup after.tabled.distinct
    · exact Lib.Dict.set_nodup after.tabled.distinct
  · intro waiter inside
    rw [kept_waiters] at inside
    exact (here waiter).mpr (kept waiter inside)
  · intro waiter inside
    rw [kept_waiters]
    exact gone waiter ((here waiter).mp inside)

theorem poll_table_held {entries : List (Future × List FutureWaiter)} (held : RuntimeHeld runtime clock polls requests)
    (polled : checks ∈ polls) (distinct : (entries.map Prod.fst).Nodup)
    (found : ∀ entry ∈ entries, Lib.Dict.get runtime.futureWaiters entry.1 = some entry.2) :
    RuntimeHeld (entries.foldl (fun runtime entry => runtime.pollFuture checks entry) runtime) clock polls requests := by
  induction entries generalizing runtime with
  | nil => exact held
  | cons entry rest ih =>
      rw [List.map_cons, List.nodup_cons] at distinct
      refine ih (poll_future_held held polled (found entry List.mem_cons_self)) distinct.2 fun other later => ?_
      have apart : other.1 ≠ entry.1 := fun same => distinct.1 (same ▸ List.mem_map_of_mem later)
      exact (poll_future_others checks entry apart).trans (found other (List.mem_cons_of_mem _ later))

theorem poll_sleepers_held (heap passed : List (HeapEntry (WaitKey × Bool)))
    (held : RuntimeHeld { runtime with sleepers := passed ++ heap } clock polls requests) (polled : checks ∈ polls) :
    RuntimeHeld { (FiberRuntime.pollSleepers checks heap runtime).1 with
      sleepers := passed ++ (FiberRuntime.pollSleepers checks heap runtime).2 } clock polls requests := by
  induction heap generalizing runtime passed with
  | nil => exact held
  | cons first rest ih =>
      have top : RuntimeHeld { runtime with sleepers := first :: (passed ++ rest) } clock polls requests :=
        sleepers_perm_held { runtime with sleepers := passed ++ first :: rest } held List.perm_middle.symm
      rw [FiberRuntime.pollSleepers]
      by_cases waits : runtime.stillWaits first.entry.1 = true
      · rw [if_pos waits]
        cases raised : FiberRuntime.raisedCheck checks first.entry.1 first.entry.2 with
        | some error =>
            exact ih passed (woken_sleeper_held { runtime with sleepers := first :: (passed ++ rest) } top rfl waits
              (.inr (check_raised polled raised)))
        | none =>
            rw [List.append_cons] at held
            have later := ih (passed ++ [first]) held
            rw [List.append_assoc] at later
            exact later
      · rw [if_neg waits]
        exact ih passed (stale_sleeper_held { runtime with sleepers := first :: (passed ++ rest) } top rfl
          (Bool.eq_false_iff.mpr waits))

theorem heap_push_perm {α : Type} (entries heap : List (HeapEntry α)) : (entries.foldl heapPush heap).Perm (heap ++ entries) := by
  induction entries generalizing heap with
  | nil => rw [List.append_nil]; exact .refl _
  | cons first rest ih =>
      refine (ih (heapPush heap first)).trans ?_
      refine ((List.perm_orderedInsert _ first heap).append_right rest).trans ?_
      exact List.perm_middle.symm

theorem rebuilt_sleepers_held (rebuilt : List (HeapEntry (WaitKey × Bool)))
    (held : RuntimeHeld { runtime with sleepers := rebuilt } clock polls requests) :
    RuntimeHeld { runtime with sleepers := rebuilt.foldl heapPush [] } clock polls requests :=
  sleepers_perm_held { runtime with sleepers := rebuilt } held (heap_push_perm rebuilt [])

theorem poll_cancellation_held (held : RuntimeHeld runtime clock polls requests) (polled : checks ∈ polls) :
    RuntimeHeld (runtime.pollCancellation checks) clock polls requests := by
  have table := poll_table_held held polled held.tabled.distinct
    fun entry inside => Lib.Dict.get_of_mem held.tabled.distinct inside
  exact rebuilt_sleepers_held _ (poll_sleepers_held _ [] table polled)

end Polling

end MicroWorkflow
