import Mathlib.Data.List.Sort
import MicroWorkflow.Lib.Machine
import MicroWorkflow.Lib.Threads

set_option autoImplicit false

-- The adaptive thread runner: workers take items from a shared source, and a manager keeps their number
-- near a limit that may change at any time. Each section under a lock is one step.
namespace MicroWorkflow

open Lib (Threads)

def maxRuntimeThreads : Nat := 4096
def initialWorkerBurst : Nat := 8

structure RunnerConfig where
  knownCount : Option Nat
  pulls : Bool

-- Where a worker stands in its loop. A worker's cleanup is taken to return.
inductive WorkerPhase (ι ρ ε : Type) where
  | looping
  | taking
  | loading
  | loaded (batch : List ι)
  | loadFailed (error : ε)
  | running (index : Nat) (item : ι)
  | finished (index : Nat) (value : ρ)
  | failing (error : ε)
  | leaving
deriving DecidableEq, Repr

inductive ManagerPhase (ρ ε : Type) where
  | waiting
  | returned (values : List ρ)
  | raised (error : ε)
  | refused (text : String)
deriving DecidableEq, Repr

-- `source` holds what the source has not given yet. The last three fields record
-- the calls of run_one, what they returned, and what a call or a pull raised.
structure RunnerState (ι ρ ε : Type) where
  source : List ι
  desired : Nat
  sourceExhausted : Bool
  sourceLoading : Bool
  sourceBuffer : List ι
  stop : Bool
  nextItemIndex : Nat
  nextWorkerId : Nat
  workers : Threads (WorkerPhase ι ρ ε)
  results : List (Nat × ρ)
  firstError : Option ε
  manager : ManagerPhase ρ ε
  passed : List (Nat × ι)
  answers : List (Nat × ρ)
  errors : List (Option Nat × ε)
deriving DecidableEq, Repr

inductive WorkerAction (ρ ε : Type) where
  | check
  | take
  | load (count : Nat)
  | loadRaises (error : ε)
  | deliver
  | runReturns (value : ρ)
  | runRaises (error : ε)
  | record
  | leave
deriving DecidableEq, Repr

inductive RunnerLabel (ρ ε : Type) where
  | manage (limit : Nat)
  | worker (id : Nat) (action : WorkerAction ρ ε)
deriving DecidableEq, Repr

variable {ι ρ ε : Type}

def effectiveLimit (limit : Nat) : Except String Nat :=
  if limit < 1 then .error "runtime max_threads must be an integer >= 1"
  else if maxRuntimeThreads < limit then .error ("runtime max_threads must be <= " ++ toString maxRuntimeThreads)
  else .ok limit

section Manager

def spawnWorker (state : RunnerState ι ρ ε) : RunnerState ι ρ ε :=
  { state with
    nextWorkerId := state.nextWorkerId + 1
    workers := state.workers ++ [(state.nextWorkerId, .looping)] }

def spawnWorkers : Nat → RunnerState ι ρ ε → RunnerState ι ρ ε
  | 0, state => state
  | count + 1, state => spawnWorkers count (spawnWorker state)

def spawnCount (config : RunnerConfig) (state : RunnerState ι ρ ε) : Nat :=
  if state.sourceExhausted = false ∧ state.workers.length < state.desired then
    let missing := state.desired - state.workers.length
    let needed :=
      match config.knownCount with
      | some count => min missing (count - state.nextItemIndex)
      | none => missing
    min needed (max 1 state.workers.length)
  else 0

def sortedResults (results : List (Nat × ρ)) : List ρ :=
  (results.insertionSort fun left right => left.1 ≤ right.1).map Prod.snd

-- The manager's loop ends with no worker left and either an error or an exhausted source.
def settleLoop (state : RunnerState ι ρ ε) : RunnerState ι ρ ε :=
  if state.workers ≠ [] ∨ state.sourceExhausted = false ∧ state.firstError.isNone then state
  else
    match state.firstError with
    | some error => { state with manager := .raised error }
    | none => { state with manager := .returned (sortedResults state.results) }

def manage (config : RunnerConfig) (state : RunnerState ι ρ ε) (limit : Nat) : RunnerState ι ρ ε :=
  match state.firstError with
  | some _ => settleLoop { state with stop := true }
  | none =>
      match effectiveLimit limit with
      | .error text => { state with manager := .refused text }
      | .ok desired =>
          let adjusted := { state with desired }
          settleLoop (spawnWorkers (spawnCount config adjusted) adjusted)

def initialWorkers (config : RunnerConfig) (desired : Nat) : Nat :=
  match config.knownCount with
  | some count => min (min desired initialWorkerBurst) count
  | none => min desired initialWorkerBurst

def emptyRunner (items : List ι) : RunnerState ι ρ ε where
  source := items
  desired := 0
  sourceExhausted := false
  sourceLoading := false
  sourceBuffer := []
  stop := false
  nextItemIndex := 0
  nextWorkerId := 0
  workers := []
  results := []
  firstError := none
  manager := .waiting
  passed := []
  answers := []
  errors := []

def runAdaptive (config : RunnerConfig) (items : List ι) (limit : Nat) : RunnerState ι ρ ε :=
  match effectiveLimit limit with
  | .error text => { emptyRunner items with manager := .refused text }
  | .ok desired => settleLoop (spawnWorkers (initialWorkers config desired) { emptyRunner items with desired })

def jobsConfig (jobs : List ι) : RunnerConfig := ⟨some jobs.length, false⟩

def runJobs (jobs : List ι) (limit : Nat) : RunnerState ι ρ ε :=
  if jobs.isEmpty then { emptyRunner jobs with manager := .returned [] }
  else runAdaptive (jobsConfig jobs) jobs limit

def sourceConfig (pulls : Bool) : RunnerConfig := ⟨none, pulls⟩

def runJobSource (pulls : Bool) (source : List ι) (limit : Nat) : RunnerState ι ρ ε :=
  runAdaptive (sourceConfig pulls) source limit

end Manager

section Worker

def moveWorker (state : RunnerState ι ρ ε) (id : Nat) (phase : WorkerPhase ι ρ ε) : RunnerState ι ρ ε :=
  { state with workers := state.workers.setPhase id phase }

-- A source gives one item at a time, or up to 64 where it can be pulled. It gives none once it is empty, or
-- when the run stops while it waits for a change.
def loadable (config : RunnerConfig) (state : RunnerState ι ρ ε) (count : Nat) : Bool :=
  if count = 0 then state.source.isEmpty || (config.pulls && state.stop)
  else count ≤ state.source.length && (count == 1 || (config.pulls && count ≤ 64))

def takeItem (state : RunnerState ι ρ ε) (id : Nat) : RunnerState ι ρ ε :=
  if state.stop then moveWorker state id .leaving
  else
    match state.sourceBuffer with
    | item :: rest =>
        moveWorker { state with
          sourceBuffer := rest
          nextItemIndex := state.nextItemIndex + 1
          passed := state.passed ++ [(state.nextItemIndex, item)] } id (.running state.nextItemIndex item)
    | [] =>
        if state.sourceExhausted then moveWorker state id .leaving
        else if state.sourceLoading then state
        else moveWorker { state with sourceLoading := true } id .loading

def deliver (state : RunnerState ι ρ ε) (id : Nat) (batch : List ι) : RunnerState ι ρ ε :=
  let exhausted := state.sourceExhausted || batch.isEmpty
  let buffer := state.sourceBuffer ++ batch
  moveWorker { state with sourceLoading := false, sourceBuffer := buffer, sourceExhausted := exhausted } id
    (if buffer.isEmpty && exhausted then .leaving else .taking)

def setResult (results : List (Nat × ρ)) (index : Nat) (value : ρ) : List (Nat × ρ) :=
  (results.filter fun entry => entry.1 ≠ index) ++ [(index, value)]

def workerStep (config : RunnerConfig) (state : RunnerState ι ρ ε) (id : Nat) :
    WorkerPhase ι ρ ε → WorkerAction ρ ε → Option (RunnerState ι ρ ε)
  | .looping, .check =>
      if state.stop then some (moveWorker state id .leaving)
      else if state.desired < state.workers.length then some (moveWorker state id .leaving)
      else some (moveWorker state id .taking)
  | .taking, .take => some (takeItem state id)
  | .loading, .load count =>
      if loadable config state count then
        some (moveWorker { state with source := state.source.drop count } id (.loaded (state.source.take count)))
      else none
  | .loading, .loadRaises error =>
      some (moveWorker { state with errors := state.errors ++ [(none, error)] } id (.loadFailed error))
  | .loaded batch, .deliver => some (deliver state id batch)
  | .loadFailed error, .deliver => some (moveWorker { state with sourceLoading := false } id (.failing error))
  | .running index _, .runReturns value =>
      some (moveWorker { state with answers := state.answers ++ [(index, value)] } id (.finished index value))
  | .running index _, .runRaises error =>
      some (moveWorker { state with errors := state.errors ++ [(some index, error)] } id (.failing error))
  | .finished index value, .record =>
      some (moveWorker { state with results := setResult state.results index value } id .looping)
  | .failing error, .record =>
      some (moveWorker { state with firstError := state.firstError.or (some error), stop := true } id .leaving)
  | .leaving, .leave => some { state with workers := state.workers.leave id }
  | _, _ => none

end Worker

def runnerStep (config : RunnerConfig) (state : RunnerState ι ρ ε) : RunnerLabel ρ ε → Option (RunnerState ι ρ ε)
  | .manage limit =>
      match state.manager with
      | .waiting => some (manage config state limit)
      | _ => none
  | .worker id action =>
      match state.workers.phaseOf id with
      | some phase => workerStep config state id phase action
      | none => none

def RunnerStep (config : RunnerConfig) (state : RunnerState ι ρ ε) (label : RunnerLabel ρ ε) (next : RunnerState ι ρ ε) :
    Prop := runnerStep config state label = some next

end MicroWorkflow
