import Mathlib.Data.Finset.Basic
import MicroWorkflow.DagWave
import MicroWorkflow.Database
import MicroWorkflow.Lib.Machine

set_option autoImplicit false

namespace MicroWorkflow

open Lib (Dict.get Dict.set Dict.pop)

structure ComponentExecutionOperation where
  apiPumpAllocations : ApiPumps
  expectations : List JobAddress
  errors : List JobAddress
  started : Bool
  completed : Bool
deriving DecidableEq

structure OperationChange where
  expectations : List JobAddress
  errors : List JobAddress
  started : Bool
  completed : Bool

namespace ComponentExecutionOperation

def fresh (apiPumps : ApiPumps) : ComponentExecutionOperation := ⟨apiPumps, [], [], false, false⟩

def change (operation : ComponentExecutionOperation) (change : OperationChange) : ComponentExecutionOperation :=
  ⟨operation.apiPumpAllocations, change.expectations, change.errors, change.started, change.completed⟩

end ComponentExecutionOperation

inductive DagPhase where
  | idle | looping | joining | returned | raised
deriving DecidableEq

structure DagExecution where
  operations : List (Component × ComponentExecutionOperation)
  stopAdmission : Bool
  admissionStopped : Bool
  futures : List (Nat × Component)
  futureApiPumps : List (Nat × ApiPumps)
  inFlight : Finset Component
  submitted : Nat
  phase : DagPhase
deriving DecidableEq

namespace DagExecution

def start : DagExecution := ⟨[], false, false, [], [], ∅, 0, .idle⟩

def isResuming (run : DagExecution) (unit : Component) : Bool :=
  (Dict.get run.operations unit).any fun operation => operation.expectations.any fun key => key ∉ operation.errors

def isCompleted (run : DagExecution) (unit : Component) : Bool :=
  (Dict.get run.operations unit).any fun operation => operation.completed

def componentOperation (run : DagExecution) (unit : Component) (apiPumps : ApiPumps) : DagExecution :=
  match Dict.get run.operations unit with
  | some _ => run
  | none => { run with operations := Dict.set run.operations unit (.fresh apiPumps) }

def change (run : DagExecution) (unit : Component) (written : OperationChange) : DagExecution :=
  match Dict.get run.operations unit with
  | some operation => { run with operations := Dict.set run.operations unit (operation.change written) }
  | none => run

-- None stands for the error that a pause escaped from a begun component.
def discardUnstartedOperation (run : DagExecution) (unit : Component) : Option DagExecution :=
  match Dict.get run.operations unit with
  | some operation => if operation.started then none else some { run with operations := Dict.pop run.operations unit }
  | none => some run

def submit (run : DagExecution) (unit : Component) (apiPumps : ApiPumps) : DagExecution :=
  { run with
    futures := run.futures ++ [(run.submitted, unit)]
    futureApiPumps := run.futureApiPumps ++ [(run.submitted, apiPumps)]
    inFlight := insert unit run.inFlight
    submitted := run.submitted + 1 }

def release (run : DagExecution) (future : Nat) (unit : Component) : DagExecution :=
  { run with
    futures := Dict.pop run.futures future
    futureApiPumps := Dict.pop run.futureApiPumps future
    inFlight := run.inFlight.erase unit }

def raised (run : DagExecution) : DagExecution := { run with phase := .raised }

def heldPumps (run : DagExecution) (unit : Component) : ApiPumps :=
  ((Dict.get run.operations unit).map ComponentExecutionOperation.apiPumpAllocations).getD []

def runningPumps (run : DagExecution) : Nat := (run.futures.map fun entry => (run.heldPumps entry.2).total).sum

end DagExecution

structure UnitReads where
  fenced : Bool
  paused : Bool
  lifecycle : Option Lifecycle
  queuedJobs : Bool
  componentReady : Bool
  readyCheck : Bool

inductive UnitOutcome where
  | finished (written : OperationChange)
  | paused (written : OperationChange)
  | failed (written : OperationChange)

-- Everything one wave reads, in the order of its checks. `outcome` is how a unit ends that runs in the loop
-- itself.
structure WaveReads where
  afterTerminal : Bool
  beforeTerminal : Bool
  deadlockBlocked : Component → Bool
  ready : Component → UnitReads
  limits : String → Int
  cpuCount : Option Int
  recheck : Component → UnitReads
  outcome : Component → UnitOutcome
  waiting : Component → UnitReads

structure Launch where
  unit : Component
  given : ApiPumps
  held : ApiPumps
deriving DecidableEq

structure Launching where
  run : DagExecution
  launched : List Launch
  concluded : Bool

structure Wave where
  ready : List Component
  plan : WavePlan
  launched : List Launch
  after : DagExecution
deriving DecidableEq

inductive DagLabel where
  | resume (stopAdmission : Bool) (changes : List (Component × OperationChange))
  | call
  | wave (reads : WaveReads)
  | change (unit : Component) (written : OperationChange)
  | finish (done : List (Nat × UnitOutcome))
  | raise
  | collect

def keepUnits (keep : Component → Except Error Bool) : List Component → Except Error (List Component)
  | [] => .ok []
  | unit :: rest => do
      let kept ← keep unit
      let later ← keepUnits keep rest
      return if kept then unit :: later else later

namespace UnitScheduler

variable (scheduler : UnitScheduler)

def unitReady (run : DagExecution) (reads : UnitReads) (unit : Component) : Except Error Bool :=
  if unit ∈ scheduler.interruptBlocked ∨ reads.fenced ∨ reads.paused then .ok false
  else if run.isResuming unit then .ok true
  else if run.stopAdmission ∨ run.isCompleted unit then .ok false
  else
    match reads.lifecycle with
    | none => .error (.runtime "Selected component has no stored lifecycle")
    | some lifecycle =>
        -- A nested call owns an execution of a unit that this operation never began.
        if lifecycle = .running ∧ Dict.get run.operations unit = none ∧ scheduler.parentComponent ≠ some unit then .ok false
        else .ok ((lifecycle = .queued ∨ lifecycle = .sampled ∨ reads.queuedJobs) && reads.componentReady && reads.readyCheck)

def waitingOnInterrupt (run : DagExecution) (reads : WaveReads) : Bool :=
  !(run.admissionStopped || run.stopAdmission) && scheduler.units.any fun unit =>
    unit ∉ scheduler.interruptBlocked && !(reads.waiting unit).fenced && (reads.waiting unit).paused

def stopAtBoundary (reads : WaveReads) (run : DagExecution) : DagExecution :=
  { run with admissionStopped := run.admissionStopped || (scheduler.refuseAfter.isSome && reads.afterTerminal) ||
      (scheduler.refuseBefore.isSome && reads.beforeTerminal) }

def considered (reads : WaveReads) (run : DagExecution) (unit : Component) : Except Error Bool :=
  if (run.admissionStopped = false ∨ run.isResuming unit) ∧ unit ∉ run.inFlight ∧ reads.deadlockBlocked unit = false then
    scheduler.unitReady run (reads.ready unit) unit
  else .ok false

def readyUnits (reads : WaveReads) (run : DagExecution) : Except Error (List Component) :=
  keepUnits (scheduler.considered reads run) scheduler.units

def refusesNow (ready : List Component) : Bool := scheduler.refuseBefore.any fun boundary => boundary ∈ ready

def unitApiPumps (plan : WavePlan) (unit : Component) : ApiPumps :=
  (scheduler.unitApiNodes unit).map fun node => (node, plan.wavePumps.of node)

def settleUnit (run : DagExecution) (unit : Component) : UnitOutcome → DagExecution
  | .finished written =>
      let after := run.change unit written
      { after with admissionStopped := after.admissionStopped || scheduler.refuseAfter = some unit }
  | .paused written =>
      let after := run.change unit written
      (after.discardUnstartedOperation unit).getD after.raised
  | .failed written => (run.change unit written).raised

def breaksOff (unit : Component) : UnitOutcome → Bool
  | .finished _ => scheduler.refuseAfter = some unit
  | _ => false

def runDirect (reads : WaveReads) (launching : Launching) (unit : Component) : Launching :=
  let after := scheduler.settleUnit launching.run unit (reads.outcome unit)
  { launching with run := after, concluded := after.phase = .raised || scheduler.breaksOff unit (reads.outcome unit) }

def launchReady (reads : WaveReads) (launching : Launching) (unit : Component) (apiPumps : ApiPumps) : Launching :=
  let begun := launching.run.componentOperation unit apiPumps
  let launched := launching.launched ++ [⟨unit, apiPumps, begun.heldPumps unit⟩]
  if scheduler.sequential then scheduler.runDirect reads ⟨begun, launched, launching.concluded⟩ unit
  else ⟨begun.submit unit apiPumps, launched, launching.concluded⟩

def launchUnit (reads : WaveReads) (plan : WavePlan) (launching : Launching) (unit : Component) : Launching :=
  if launching.concluded then launching
  else
    match scheduler.unitReady launching.run (reads.recheck unit) unit with
    | .error _ => { launching with run := launching.run.raised, concluded := true }
    | .ok false => launching
    | .ok true => scheduler.launchReady reads launching unit (scheduler.unitApiPumps plan unit)

def launchUnits (reads : WaveReads) (plan : WavePlan) (run : DagExecution) : Launching :=
  plan.launch.foldl (scheduler.launchUnit reads plan) ⟨run, [], false⟩

def pauseOrReturn (reads : WaveReads) (run : DagExecution) : DagExecution :=
  if scheduler.waitingOnInterrupt run reads then run else { run with phase := .returned }

def endWave (reads : WaveReads) (plan : WavePlan) (run : DagExecution) : DagExecution :=
  if run.phase = .raised then run
  else if scheduler.sequential then
    if plan.launch = [] then scheduler.pauseOrReturn reads run else run
  else if run.futures = [] then scheduler.pauseOrReturn reads run
  else { run with phase := .joining }

def planned (reads : WaveReads) (run : DagExecution) (ready : List Component) : Except DagExecution (Option Wave) :=
  match scheduler.planWave reads.limits reads.cpuCount run.futureApiPumps ready with
  | .error _ => .error run.raised
  | .ok none => .ok none
  | .ok (some plan) =>
      let launching := scheduler.launchUnits reads plan run
      .ok (some ⟨ready, plan, launching.launched, scheduler.endWave reads plan launching.run⟩)

def wave (reads : WaveReads) (run : DagExecution) : Except DagExecution (Option Wave) :=
  let run := scheduler.stopAtBoundary reads run
  match scheduler.readyUnits reads run with
  | .error _ => .error run.raised
  | .ok ready =>
      if scheduler.refusesNow ready then scheduler.planned reads { run with admissionStopped := true } []
      else scheduler.planned reads run ready

def settle (run : DagExecution) (done : Nat × UnitOutcome) : DagExecution :=
  if run.phase = .raised then run
  else
    match Dict.get run.futures done.1 with
    | none => run.raised
    | some unit =>
        if unit ∈ run.inFlight then scheduler.settleUnit (run.release done.1 unit) unit done.2 else run.raised

def settleAll (run : DagExecution) (done : List (Nat × UnitOutcome)) : DagExecution :=
  let after := done.foldl scheduler.settle run
  if after.phase = .raised then after else { after with phase := .looping }

def afterWave : Except DagExecution (Option Wave) → Option DagExecution
  | .error after => some after
  | .ok found => found.map Wave.after

def step (run : DagExecution) : DagLabel → Option DagExecution
  | .resume stopAdmission changes =>
      if run.phase = .idle then
        let after := changes.foldl (fun run entry => run.change entry.1 entry.2) run
        some { after with stopAdmission := stopAdmission || run.admissionStopped }
      else none
  | .call => if run.phase = .idle then some { run with futureApiPumps := [], inFlight := ∅, phase := .looping } else none
  | .wave reads => if run.phase = .looping then afterWave (scheduler.wave reads run) else none
  | .change unit written => if unit ∈ run.inFlight then some (run.change unit written) else none
  | .finish done =>
      if run.phase = .joining ∧ done ≠ [] ∧ ∀ entry ∈ done, (Dict.get run.futures entry.1).isSome then
        some (scheduler.settleAll run done)
      else none
  | .raise => if run.phase = .looping ∨ run.phase = .joining then some run.raised else none
  | .collect =>
      if run.phase = .returned ∨ run.phase = .raised then
        some { run with futures := [], futureApiPumps := [], inFlight := ∅, phase := .idle }
      else none

def Step (run : DagExecution) (label : DagLabel) (after : DagExecution) : Prop := scheduler.step run label = some after

end UnitScheduler

end MicroWorkflow
