import Mathlib.Algebra.Order.Ring.Unbundled.Rat
import Mathlib.Data.List.Sort
import MicroWorkflow.Lib.Dict
import MicroWorkflow.Lib.Machine

set_option autoImplicit false

namespace MicroWorkflow

variable {Any Failure Future : Type}

section Runtime

abbrev WaitKey := Nat × Nat

inductive FiberRequest (Future : Type) where
  | future (future : Future) (deadline : Option Rat) (checked : Bool)
  | sleep (deadline : Rat) (checked : Bool)

inductive FiberResume (Any Failure : Type) where
  | plain
  | value (value : Any)
  | error (error : Failure)
  | timedOut

def FiberResume.ofOutcome : Except Failure Any → FiberResume Any Failure
  | .ok given => .value given
  | .error raised => .error raised

inductive FiberYield (Any Failure Future : Type) where
  | waits (request : FiberRequest Future)
  | returns (value : Any)
  | raises (error : Failure)
  | unsupported (error : Failure)

structure FiberState (Any Future : Type) where
  item : Any
  done : Bool
  waitToken : Nat
  pendingFuture : Option Future

structure FutureWaiter where
  key : WaitKey
  checked : Bool
deriving DecidableEq, Repr

structure HeapEntry (α : Type) where
  deadline : Rat
  serial : Nat
  entry : α
deriving DecidableEq, Repr

-- A waiter that is no longer active is kept in `retired`; both its list and the heap know it.
structure FiberRuntime (Any Failure Future : Type) where
  states : List (FiberState Any Future)
  futureWaiters : List (Future × List FutureWaiter)
  retired : List WaitKey
  futureDeadlines : List (HeapEntry (Future × WaitKey))
  sleepers : List (HeapEntry (WaitKey × Bool))
  serial : Nat
  ready : List (Nat × FiberResume Any Failure)
  completedFutures : List Future
  wake : Bool
  activeCount : Int
  results : List (Nat × Any)
  firstError : Option Failure
  settled : List (Future × Except Failure Any)
  callbacks : List Future
  calling : List Future
  signalling : List Future

def FiberRuntime.fresh : FiberRuntime Any Failure Future :=
  ⟨[], [], [], [], [], 0, [], [], false, 0, [], none, [], [], [], []⟩

end Runtime

section Heap

variable {α : Type}

def HeapEntry.before (left right : HeapEntry α) : Prop :=
  left.deadline < right.deadline ∨ left.deadline = right.deadline ∧ left.serial ≤ right.serial

instance decidableBefore (left right : HeapEntry α) : Decidable (left.before right) :=
  inferInstanceAs (Decidable (left.deadline < right.deadline ∨ left.deadline = right.deadline ∧ left.serial ≤ right.serial))

def heapPush (heap : List (HeapEntry α)) (entry : HeapEntry α) : List (HeapEntry α) := heap.orderedInsert HeapEntry.before entry

end Heap

section Waits

variable [DecidableEq Future] (runtime : FiberRuntime Any Failure Future)

namespace FiberRuntime

def addDoneCallback (future : Future) : FiberRuntime Any Failure Future :=
  if (Lib.Dict.get runtime.settled future).isSome then
    { runtime with
      completedFutures := runtime.completedFutures ++ [future]
      wake := true }
  else { runtime with callbacks := runtime.callbacks ++ [future] }

def settleFuture (future : Future) (outcome : Except Failure Any) : FiberRuntime Any Failure Future :=
  { runtime with
    settled := runtime.settled ++ [(future, outcome)]
    callbacks := runtime.callbacks.filter fun other => other ≠ future
    calling := runtime.calling ++ runtime.callbacks.filter fun other => other = future }

-- `_future_completed` is two steps of its thread, the put and the set.
def putCompleted (future : Future) : FiberRuntime Any Failure Future :=
  { runtime with
    calling := runtime.calling.erase future
    completedFutures := runtime.completedFutures ++ [future]
    signalling := runtime.signalling ++ [future] }

def setWake (future : Future) : FiberRuntime Any Failure Future :=
  { runtime with
    signalling := runtime.signalling.erase future
    wake := true }

def enterFuture (future : Future) : FiberRuntime Any Failure Future :=
  match Lib.Dict.get runtime.futureWaiters future with
  | some _ => runtime
  | none => { runtime with futureWaiters := Lib.Dict.set runtime.futureWaiters future [] }.addDoneCallback future

def appendWaiter (future : Future) (waiter : FutureWaiter) : FiberRuntime Any Failure Future :=
  { runtime with
    futureWaiters := Lib.Dict.set runtime.futureWaiters future
      ((Lib.Dict.get runtime.futureWaiters future).getD [] ++ [waiter]) }

def pushDeadline (future : Future) (key : WaitKey) : Option Rat → FiberRuntime Any Failure Future
  | none => runtime
  | some deadline =>
      { runtime with
        serial := runtime.serial + 1
        futureDeadlines := heapPush runtime.futureDeadlines ⟨deadline, runtime.serial + 1, (future, key)⟩ }

def suspend (index : Nat) (state : FiberState Any Future) : FiberRequest Future → FiberRuntime Any Failure Future
  | .future future deadline checked =>
      let waiting := { runtime with
        states := runtime.states.set index { state with
          waitToken := state.waitToken + 1
          pendingFuture := some future } }
      ((waiting.enterFuture future).appendWaiter future ⟨(index, state.waitToken + 1), checked⟩).pushDeadline future
        (index, state.waitToken + 1) deadline
  | .sleep deadline checked =>
      { runtime with
        states := runtime.states.set index { state with waitToken := state.waitToken + 1 }
        serial := runtime.serial + 1
        sleepers := heapPush runtime.sleepers ⟨deadline, runtime.serial + 1, ((index, state.waitToken + 1), checked)⟩ }

def finish (index : Nat) (state : FiberState Any Future) : FiberRuntime Any Failure Future :=
  { runtime with
    states := runtime.states.set index { state with done := true }
    activeCount := runtime.activeCount - 1 }

def fail (error : Failure) : FiberRuntime Any Failure Future :=
  { runtime with firstError := runtime.firstError.or (some error) }

def resumeState (index : Nat) (yielded : FiberYield Any Failure Future) : FiberRuntime Any Failure Future :=
  match runtime.states[index]? with
  | none => runtime
  | some state =>
      if state.done then runtime
      else
        match yielded with
        | .raises error => (runtime.finish index state).fail error
        | .returns value =>
            { runtime.finish index state with results := Lib.Dict.set runtime.results index value }
        | .unsupported error =>
            (runtime.finish index { state with waitToken := state.waitToken + 1 }).fail error
        | .waits request => runtime.suspend index state request

def newState (item : Any) : FiberRuntime Any Failure Future :=
  { runtime with
    states := runtime.states ++ [⟨item, false, 0, none⟩]
    activeCount := runtime.activeCount + 1 }

def startFiber (item : Any) (yielded : FiberYield Any Failure Future) : FiberRuntime Any Failure Future :=
  (runtime.newState item).resumeState runtime.states.length yielded

def pushReady (index : Nat) (resume : FiberResume Any Failure) : FiberRuntime Any Failure Future :=
  { runtime with ready := runtime.ready ++ [(index, resume)] }

def stillWaits (key : WaitKey) : Bool :=
  match runtime.states[key.1]? with
  | none => false
  | some state => !state.done && state.waitToken == key.2

def awaitsFuture (future : Future) (key : WaitKey) : Bool :=
  match runtime.states[key.1]? with
  | none => false
  | some state => !state.done && state.waitToken == key.2 && state.pendingFuture == some future

def retire (key : WaitKey) : FiberRuntime Any Failure Future := { runtime with retired := key :: runtime.retired }

def clearPending (index : Nat) : FiberRuntime Any Failure Future :=
  { runtime with states := runtime.states.modify index fun state => { state with pendingFuture := none } }

def answer (future : Future) (key : WaitKey) (resume : FiberResume Any Failure) : FiberRuntime Any Failure Future :=
  if runtime.awaitsFuture future key then ((runtime.retire key).clearPending key.1).pushReady key.1 resume
  else runtime.retire key

def processFuture (future : Future) : FiberRuntime Any Failure Future :=
  match Lib.Dict.get runtime.futureWaiters future with
  | none => runtime
  | some waiters =>
      let resume := ((Lib.Dict.get runtime.settled future).map FiberResume.ofOutcome).getD .timedOut
      waiters.foldl (fun runtime waiter => runtime.answer future waiter.key resume)
        { runtime with futureWaiters := Lib.Dict.pop runtime.futureWaiters future }

-- `_process_futures` is split where another thread may come in between: each future taken, the clear, the look
-- at the queue after it.
def takeFuture : FiberRuntime Any Failure Future :=
  match runtime.completedFutures with
  | [] => runtime
  | future :: rest => { runtime with completedFutures := rest }.processFuture future

def clearWake : FiberRuntime Any Failure Future := { runtime with wake := false }

def recheckWake : FiberRuntime Any Failure Future :=
  if runtime.completedFutures.isEmpty then runtime else { runtime with wake := true }

-- `checks` is what the cancellation check of a wait does: nothing, or raise.
def raisedCheck (checks : WaitKey → Option Failure) (key : WaitKey) (checked : Bool) : Option Failure :=
  if checked then checks key else none

def wakeSleeper (checks : WaitKey → Option Failure) (key : WaitKey) (checked : Bool) : FiberRuntime Any Failure Future :=
  if runtime.stillWaits key then
    match raisedCheck checks key checked with
    | some error => runtime.pushReady key.1 (.error error)
    | none => runtime.pushReady key.1 .plain
  else runtime

def processSleepers (now : Rat) (checks : WaitKey → Option Failure) :
    List (HeapEntry (WaitKey × Bool)) → FiberRuntime Any Failure Future → FiberRuntime Any Failure Future
  | [], runtime => runtime
  | first :: rest, runtime =>
      if first.deadline ≤ now then
        processSleepers now checks rest ({ runtime with sleepers := rest }.wakeSleeper checks first.entry.1 first.entry.2)
      else runtime

def processFutureDeadlines (now : Rat) :
    List (HeapEntry (Future × WaitKey)) → FiberRuntime Any Failure Future → FiberRuntime Any Failure Future
  | [], runtime => runtime
  | first :: rest, runtime =>
      if first.deadline ≤ now then
        let popped := { runtime with futureDeadlines := rest }
        processFutureDeadlines now rest
          (if first.entry.2 ∈ popped.retired then popped else popped.answer first.entry.1 first.entry.2 .timedOut)
      else runtime

def processDeadlines (now : Rat) (checks : WaitKey → Option Failure) : FiberRuntime Any Failure Future :=
  let woken := processSleepers now checks runtime.sleepers runtime
  processFutureDeadlines now woken.futureDeadlines woken

def pollWaiters (checks : WaitKey → Option Failure) (future : Future) :
    List FutureWaiter → FiberRuntime Any Failure Future → FiberRuntime Any Failure Future × List FutureWaiter
  | [], runtime => (runtime, [])
  | waiter :: rest, runtime =>
      if waiter.key ∈ runtime.retired then pollWaiters checks future rest runtime
      else if runtime.awaitsFuture future waiter.key then
        match raisedCheck checks waiter.key waiter.checked with
        | some error => pollWaiters checks future rest (runtime.answer future waiter.key (.error error))
        | none =>
            let later := pollWaiters checks future rest runtime
            (later.1, waiter :: later.2)
      else pollWaiters checks future rest (runtime.retire waiter.key)

def pollFuture (checks : WaitKey → Option Failure) (entry : Future × List FutureWaiter) : FiberRuntime Any Failure Future :=
  let (polled, keep) := pollWaiters checks entry.1 entry.2 runtime
  { polled with
    futureWaiters :=
      if keep.isEmpty then Lib.Dict.pop polled.futureWaiters entry.1 else Lib.Dict.set polled.futureWaiters entry.1 keep }

def pollSleepers (checks : WaitKey → Option Failure) : List (HeapEntry (WaitKey × Bool)) → FiberRuntime Any Failure Future →
    FiberRuntime Any Failure Future × List (HeapEntry (WaitKey × Bool))
  | [], runtime => (runtime, [])
  | first :: rest, runtime =>
      if runtime.stillWaits first.entry.1 then
        match raisedCheck checks first.entry.1 first.entry.2 with
        | some error => pollSleepers checks rest (runtime.pushReady first.entry.1.1 (.error error))
        | none =>
            let later := pollSleepers checks rest runtime
            (later.1, first :: later.2)
      else pollSleepers checks rest runtime

def pollCancellation (checks : WaitKey → Option Failure) : FiberRuntime Any Failure Future :=
  let polled := runtime.futureWaiters.foldl (fun runtime entry => runtime.pollFuture checks entry) runtime
  let (woken, rebuilt) := pollSleepers checks polled.sleepers polled
  { woken with sleepers := rebuilt.foldl heapPush [] }

def dropStaleDeadlines : FiberRuntime Any Failure Future :=
  { runtime with
    futureDeadlines := runtime.futureDeadlines.dropWhile fun entry =>
      decide (entry.entry.2 ∈ runtime.retired) || !runtime.awaitsFuture entry.entry.1 entry.entry.2 }

def nextWaitTimeout (now nextPoll : Rat) : Rat :=
  let timeout := max 0 (nextPoll - now)
  let slept := match runtime.sleepers with
    | [] => timeout
    | first :: _ => min timeout (max 0 (first.deadline - now))
  match runtime.dropStaleDeadlines.futureDeadlines with
  | [] => slept
  | first :: _ => min slept (max 0 (first.deadline - now))

end FiberRuntime

end Waits

section Pump

variable [DecidableEq Future]

structure PumpAnswer (Any Failure : Type) where
  key : WaitKey
  resume : FiberResume Any Failure
  clock : Rat

inductive FuturesPhase where
  | outside | draining | drained | cleared
deriving DecidableEq, Repr

structure FiberPump (Any Failure Future : Type) where
  runtime : FiberRuntime Any Failure Future
  phase : FuturesPhase
  clock : Rat
  requests : List (WaitKey × FiberRequest Future)
  polls : List (WaitKey → Option Failure)
  answers : List (PumpAnswer Any Failure)

def FiberPump.fresh (clock : Rat) : FiberPump Any Failure Future := ⟨.fresh, .outside, clock, [], [], []⟩

def FiberYield.requested (key : WaitKey) : FiberYield Any Failure Future → List (WaitKey × FiberRequest Future)
  | .waits request => [(key, request)]
  | _ => []

namespace FiberPump

def start (pump : FiberPump Any Failure Future) (item : Any) (yielded : FiberYield Any Failure Future) :
    FiberPump Any Failure Future :=
  { pump with
    runtime := pump.runtime.startFiber item yielded
    requests := pump.requests ++ yielded.requested (pump.runtime.states.length, 1) }

def resume (pump : FiberPump Any Failure Future) (yielded : FiberYield Any Failure Future) : FiberPump Any Failure Future :=
  match pump.runtime.ready with
  | [] => pump
  | (index, resume) :: rest =>
      let popped := { pump.runtime with ready := rest }
      match pump.runtime.states[index]? with
      | none => { pump with runtime := popped }
      | some state =>
          if state.done then { pump with runtime := popped }
          else
            { pump with
              runtime := popped.resumeState index yielded
              requests := pump.requests ++ yielded.requested (index, state.waitToken + 1)
              answers := pump.answers ++ [⟨(index, state.waitToken), resume, pump.clock⟩] }

end FiberPump

inductive PumpLabel where
  | settled | put | set | elapsed | started | resumed | entered | taken | drained | cleared | rechecked | deadlines | polled
  | dropped
deriving DecidableEq, Repr

-- The steps of the loop in any order, with the other threads and the clock between them.
inductive PumpStep : FiberPump Any Failure Future → PumpLabel → FiberPump Any Failure Future → Prop where
  | settled {pump : FiberPump Any Failure Future} {future : Future} {outcome : Except Failure Any} :
      Lib.Dict.get pump.runtime.settled future = none →
      PumpStep pump .settled { pump with runtime := pump.runtime.settleFuture future outcome }
  | put {pump : FiberPump Any Failure Future} {future : Future} :
      future ∈ pump.runtime.calling → PumpStep pump .put { pump with runtime := pump.runtime.putCompleted future }
  | set {pump : FiberPump Any Failure Future} {future : Future} :
      future ∈ pump.runtime.signalling → PumpStep pump .set { pump with runtime := pump.runtime.setWake future }
  | elapsed {pump : FiberPump Any Failure Future} {later : Rat} :
      pump.clock ≤ later → PumpStep pump .elapsed { pump with clock := later }
  | started {pump : FiberPump Any Failure Future} {item : Any} {yielded : FiberYield Any Failure Future} :
      pump.phase = .outside → PumpStep pump .started (pump.start item yielded)
  | resumed {pump : FiberPump Any Failure Future} {yielded : FiberYield Any Failure Future} :
      pump.phase = .outside → PumpStep pump .resumed (pump.resume yielded)
  | entered {pump : FiberPump Any Failure Future} :
      pump.phase = .outside → PumpStep pump .entered { pump with phase := .draining }
  | taken {pump : FiberPump Any Failure Future} :
      pump.phase = .draining → pump.runtime.completedFutures ≠ [] →
      PumpStep pump .taken { pump with runtime := pump.runtime.takeFuture }
  | drained {pump : FiberPump Any Failure Future} :
      pump.phase = .draining → pump.runtime.completedFutures = [] → PumpStep pump .drained { pump with phase := .drained }
  | cleared {pump : FiberPump Any Failure Future} :
      pump.phase = .drained → PumpStep pump .cleared { pump with
        runtime := pump.runtime.clearWake
        phase := .cleared }
  | rechecked {pump : FiberPump Any Failure Future} :
      pump.phase = .cleared → PumpStep pump .rechecked { pump with
        runtime := pump.runtime.recheckWake
        phase := .outside }
  | deadlines {pump : FiberPump Any Failure Future} {now : Rat} {checks : WaitKey → Option Failure} :
      pump.phase = .outside → now ≤ pump.clock → PumpStep pump .deadlines { pump with
        runtime := pump.runtime.processDeadlines now checks
        polls := pump.polls ++ [checks] }
  | polled {pump : FiberPump Any Failure Future} {checks : WaitKey → Option Failure} :
      pump.phase = .outside → PumpStep pump .polled { pump with
        runtime := pump.runtime.pollCancellation checks
        polls := pump.polls ++ [checks] }
  | dropped {pump : FiberPump Any Failure Future} :
      pump.phase = .outside → PumpStep pump .dropped { pump with runtime := pump.runtime.dropStaleDeadlines }

end Pump

end MicroWorkflow
