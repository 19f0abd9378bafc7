import Mathlib.Algebra.Order.Group.Multiset
import Mathlib.Tactic.Abel
import MicroWorkflow.Lib.Machine
import MicroWorkflow.QueueCursor

set_option autoImplicit false

namespace MicroWorkflow

open Lib (Run Numbered)

structure PrefetchSettings where
  prefetchSize : Nat
  prefetchBatches : Nat
  positive : 1 ≤ prefetchSize ∧ 1 ≤ prefetchBatches

-- A prefetching source of a refreshable queue serves one lane only.
structure QueueSettings where
  nodeName : String
  refreshable : Bool
  prefetch : Option PrefetchSettings
  lanes : Nat
  single : prefetch.isSome → lanes = 1

inductive ScheduleStage where
  | constructed
  | opening
  | refilled
  | closing (result : List JobRow)

inductive PullPhase where
  | idle
  | entering (maxItems : Nat)
  | scheduling (maxItems : Nat) (stage : ScheduleStage)
  | draining (maxItems : Nat)
  | loading (maxItems : Nat) (batch : List JobRow)
  | reserved (batch : List JobRow)
  | claiming (jobs : List JobRow)

def PullPhase.held : PullPhase → List JobRow
  | .scheduling _ (.closing result) => result
  | .loading _ batch => batch
  | .reserved batch => batch
  | .claiming jobs => jobs
  | _ => []

structure QueueRun where
  store : QueueTable
  source : RefreshableQueuedJobSource
  futures : List (List JobRow)
  buffer : List JobRow
  exhausted : Bool
  pending : List JobRow
  stopped : Bool
  closed : Bool
  lanes : List PullPhase
  returned : List JobRow

inductive ClaimOutcome where
  | leased | paused | failed
deriving DecidableEq

inductive QueueLabel where
  | create (place : JobAddress)
  | setStatus (place : JobAddress) (status : JobStatus)
  | delete (gone : JobAddress → Bool)
  | stop
  | close
  | pull (lane maxItems : Nat)
  | advance (lane : Nat)
  | loaded (lane : Nat) (succeeds : Bool)
  | claimed (lane : Nat) (outcome : ClaimOutcome)

namespace QueueRun

variable (settings : QueueSettings)

def setLane (run : QueueRun) (lane : Nat) (phase : PullPhase) : QueueRun := { run with lanes := run.lanes.set lane phase }

def reserve (run : QueueRun) (maxItems : Nat) : List JobRow × QueueRun :=
  if run.stopped ∨ run.closed then ([], run)
  else
    let pulled := run.source.pull run.store.jobs settings.nodeName maxItems
    (pulled.1, { run with source := pulled.2 })

def beginPull (run : QueueRun) (lane maxItems : Nat) : QueueRun :=
  if maxItems = 0 ∨ run.closed then run
  else
    let jobs := run.pending.take maxItems
    if jobs = [] then run.setLane lane (.entering maxItems)
    else { run with pending := run.pending.drop maxItems }.setLane lane (.claiming jobs)

def deliver (run : QueueRun) (lane : Nat) (jobs : List JobRow) : QueueRun :=
  run.setLane lane (if jobs = [] then .idle else .claiming jobs)

def endSchedule (run : QueueRun) (lane maxItems : Nat) : ScheduleStage → QueueRun
  | .constructed => run.setLane lane .idle
  | .opening => run.setLane lane (.draining maxItems)
  | .refilled => run.setLane lane (.draining maxItems)
  | .closing result => run.deliver lane result

def scheduleOne (prefetch : PrefetchSettings) (run : QueueRun) (lane maxItems : Nat) (stage : ScheduleStage) : QueueRun :=
  if run.futures.length < prefetch.prefetchBatches ∧ run.exhausted = false ∧ run.closed = false then
    let reservation := run.reserve settings prefetch.prefetchSize
    if reservation.1 = [] then
      { reservation.2 with exhausted := reservation.2.exhausted || !settings.refreshable }.endSchedule lane maxItems stage
    else { reservation.2 with futures := reservation.2.futures ++ [reservation.1] }
  else run.endSchedule lane maxItems stage

def slice (run : QueueRun) (lane maxItems : Nat) : QueueRun :=
  { run with buffer := run.buffer.drop maxItems }.setLane lane (.scheduling maxItems (.closing (run.buffer.take maxItems)))

def drain (run : QueueRun) (lane maxItems : Nat) : QueueRun :=
  match run.futures with
  | [] => run.slice lane maxItems
  | batch :: rest =>
      if run.buffer.length < maxItems then { run with futures := rest }.setLane lane (.loading maxItems batch)
      else run.slice lane maxItems

def reserveDirect (run : QueueRun) (lane maxItems : Nat) : QueueRun :=
  let reservation := run.reserve settings maxItems
  reservation.2.setLane lane (if reservation.1 = [] then .idle else .reserved reservation.1)

def enterSource (run : QueueRun) (lane maxItems : Nat) : QueueRun :=
  match settings.prefetch with
  | none => run.reserveDirect settings lane maxItems
  | some _ => run.setLane lane (if run.closed then .idle else .scheduling maxItems .opening)

def advanceLane (run : QueueRun) (lane : Nat) : PullPhase → Option QueueRun
  | .entering maxItems => some (run.enterSource settings lane maxItems)
  | .scheduling maxItems stage => settings.prefetch.map fun prefetch => run.scheduleOne settings prefetch lane maxItems stage
  | .draining maxItems => some (run.drain lane maxItems)
  | _ => none

def finishLoad (run : QueueRun) (lane : Nat) (succeeds : Bool) : PullPhase → Option QueueRun
  | .loading maxItems batch =>
      if succeeds then some ({ run with buffer := run.buffer ++ batch }.setLane lane (.scheduling maxItems .refilled))
      else some (run.setLane lane .idle)
  | .reserved batch => some (run.setLane lane (if succeeds then .claiming batch else .idle))
  | _ => none

def finishClaim (run : QueueRun) (lane : Nat) (outcome : ClaimOutcome) : PullPhase → Option QueueRun
  | .claiming jobs =>
      match outcome with
      | .leased => some ({ run with returned := run.returned ++ jobs }.setLane lane .idle)
      | .paused => some ({ run with pending := run.pending ++ jobs }.setLane lane .idle)
      | .failed => some (run.setLane lane .idle)
  | _ => none

def step (run : QueueRun) : QueueLabel → Option QueueRun
  | .create place => (run.store.createJob place).map fun store => { run with store }
  | .setStatus place status => some { run with store := run.store.setStatus place status }
  | .delete gone => some { run with store := run.store.deleteJobs gone }
  | .stop => some { run with stopped := true }
  | .close => some { run with closed := true }
  | .pull lane maxItems =>
      match run.lanes[lane]? with
      | some .idle => some (run.beginPull lane maxItems)
      | _ => none
  | .advance lane => run.lanes[lane]?.bind (run.advanceLane settings lane)
  | .loaded lane succeeds => run.lanes[lane]?.bind (run.finishLoad lane succeeds)
  | .claimed lane outcome => run.lanes[lane]?.bind (run.finishClaim lane outcome)

def Step (settings : QueueSettings) (run : QueueRun) (label : QueueLabel) (after : QueueRun) : Prop :=
  run.step settings label = some after

end QueueRun

def QueueSettings.lanePhases (settings : QueueSettings) : List PullPhase :=
  if settings.prefetch.isSome then [.scheduling 0 .constructed] else List.replicate settings.lanes .idle

def QueueRun.start (settings : QueueSettings) (store : QueueTable) : QueueRun :=
  ⟨store, .start, [], [], false, [], false, false, settings.lanePhases, []⟩

def QueueLabel.lane? : QueueLabel → Option Nat
  | .pull lane _ | .advance lane | .loaded lane _ | .claimed lane _ => some lane
  | _ => none

def QueueLabel.fails : QueueLabel → Bool
  | .loaded _ succeeds => !succeeds
  | .claimed _ outcome => outcome = .failed
  | _ => false

end MicroWorkflow
