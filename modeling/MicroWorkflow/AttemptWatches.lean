import Mathlib.Algebra.Order.Ring.Unbundled.Rat
import Mathlib.Data.List.Sort
import Mathlib.Data.Rat.Defs
import MicroWorkflow.Lib.Table

set_option autoImplicit false

-- The attempt watches of the scheduler's supervisor and the heap of their deadlines. Each definition is one
-- section under the supervisor's condition.
namespace MicroWorkflow

open Lib (Table)

abbrev Moment := Rat

inductive WatchState where
  | active | handlerDone | timedOut | superseded | completed | failed
deriving DecidableEq, Repr

inductive DeadlineKind where
  | total | external | checkpoint
deriving DecidableEq, Repr

-- `registered` says that the supervisor's dictionary holds the watch, `started`
-- that its handler has begun.
structure AttemptWatch where
  watchId : String
  nodeName : String
  jobId : Nat
  generation : Nat
  executionId : Option String
  totalTimeout : Option Moment
  defaultCheckpointTimeout : Option Moment
  totalDeadline : Option Moment
  checkpointDeadline : Option Moment
  checkpointTimeout : Option Moment
  revision : Nat
  handlerExit : Option (Nat × Moment)
  externalWaitEntry : Option (Nat × Moment)
  externalRenewalEntry : Option (Option Moment × Moment)
  state : WatchState
  timeoutKind : Option DeadlineKind
  externalWaitDepth : Nat
  externalWaitTimeout : Option Moment
  externalWaitDeadline : Option Moment
  registered : Bool
  started : Bool
deriving DecidableEq, Repr

def AttemptWatch.supervised (watch : AttemptWatch) : Bool :=
  watch.totalTimeout.isSome || watch.defaultCheckpointTimeout.isSome

def AttemptWatch.active (watch : AttemptWatch) : Bool := watch.state == .active

structure DeadlineEntry where
  deadline : Moment
  serial : Nat
  watchId : String
  kind : DeadlineKind
  revision : Nat
deriving DecidableEq, Repr

inductive Marker where
  | handlerExit (revision : Nat) (time : Moment)
  | waitEntry (revision : Nat) (time : Moment)
  | renewalEntry (deadline : Option Moment) (time : Moment)
deriving DecidableEq, Repr

-- The heap is kept as the list it is popped in. `recorded` and `expired` keep
-- what was published and what timed out; no code reads them.
structure Supervisor where
  watches : Table AttemptWatch.watchId
  restartableKeys : List String
  deadlines : List DeadlineEntry
  serial : Nat
  clock : Moment
  recorded : List (String × Marker)
  expired : List (String × DeadlineKind)

def Supervisor.initial : Supervisor := ⟨.empty, [], [], 0, 0, [], []⟩

def poppedBefore (left right : DeadlineEntry) : Prop :=
  left.deadline < right.deadline ∨ left.deadline = right.deadline ∧ left.serial ≤ right.serial

instance (left right : DeadlineEntry) : Decidable (poppedBefore left right) :=
  inferInstanceAs (Decidable (_ ∨ _))

def replaceWatch (watch old : AttemptWatch) : AttemptWatch := { watch with watchId := old.watchId }

def setWatch (supervisor : Supervisor) (watch : AttemptWatch) : Supervisor :=
  { supervisor with watches := supervisor.watches.modify (fun old => old.watchId = watch.watchId) (replaceWatch watch) }

def pushDeadline (supervisor : Supervisor) (watch : AttemptWatch) (kind : DeadlineKind) (deadline : Option Moment) :
    Supervisor :=
  match deadline with
  | none => supervisor
  | some deadline =>
      let serial := supervisor.serial + 1
      { supervisor with
        serial := serial
        deadlines := supervisor.deadlines.orderedInsert poppedBefore ⟨deadline, serial, watch.watchId, kind, watch.revision⟩ }

def scheduleWatch (supervisor : Supervisor) (watch : AttemptWatch) : Supervisor :=
  let scheduled := pushDeadline supervisor watch .total watch.totalDeadline
  if 0 < watch.externalWaitDepth then pushDeadline scheduled watch .external watch.externalWaitDeadline
  else pushDeadline scheduled watch .checkpoint watch.checkpointDeadline

def registeredWatches (supervisor : Supervisor) : List AttemptWatch := supervisor.watches.select AttemptWatch.registered

def compactDeadlines (supervisor : Supervisor) : Supervisor :=
  if supervisor.deadlines.length ≤ max 256 ((registeredWatches supervisor).length * 8) then supervisor
  else ((registeredWatches supervisor).filter AttemptWatch.active).foldl scheduleWatch { supervisor with deadlines := [] }

def createAttempt (supervisor : Supervisor) (watchId nodeName : String) (jobId generation : Nat)
    (executionId : Option String) (totalTimeout checkpointTimeout : Option Moment) : Option Supervisor :=
  let watch : AttemptWatch := {
    watchId := watchId
    nodeName := nodeName
    jobId := jobId
    generation := generation
    executionId := executionId
    totalTimeout := totalTimeout
    defaultCheckpointTimeout := checkpointTimeout
    totalDeadline := none
    checkpointDeadline := none
    checkpointTimeout := checkpointTimeout
    revision := 0
    handlerExit := none
    externalWaitEntry := none
    externalRenewalEntry := none
    state := .active
    timeoutKind := none
    externalWaitDepth := 0
    externalWaitTimeout := none
    externalWaitDeadline := none
    registered := true
    started := false }
  (supervisor.watches.insert watch).map fun watches =>
    { supervisor with
      watches := watches
      restartableKeys := if executionId.isSome then supervisor.restartableKeys ++ [watchId] else supervisor.restartableKeys }

def beginHandlerExecution (supervisor : Supervisor) (watch : AttemptWatch) : Supervisor :=
  if watch.state ≠ .active then supervisor
  else
    let prepared := if watch.supervised then compactDeadlines supervisor else supervisor
    let begun := { watch with
      totalDeadline := match watch.totalTimeout with
        | some timeout => some (supervisor.clock + timeout)
        | none => watch.totalDeadline
      checkpointDeadline := match watch.checkpointTimeout with
        | some timeout => some (supervisor.clock + timeout)
        | none => watch.checkpointDeadline
      revision := watch.revision + 1
      started := true }
    let stored := setWatch prepared begun
    if watch.supervised then scheduleWatch stored begun else stored

def reportCheckpoint (supervisor : Supervisor) (watch : AttemptWatch) (timeout : Option Moment) : Supervisor :=
  if timeout.isSome ∧ !watch.supervised then supervisor
  else if watch.state ≠ .active then supervisor
  else
    match timeout <|> watch.defaultCheckpointTimeout with
    | none => supervisor
    | some effective =>
        let reported := { watch with
          checkpointTimeout := some effective
          checkpointDeadline := none
          revision := watch.revision + 1 }
        compactDeadlines (scheduleWatch (setWatch supervisor reported) reported)

def rearmCheckpoint (supervisor : Supervisor) (watch : AttemptWatch) (effective : Moment) : Supervisor :=
  if watch.state ≠ .active then supervisor
  else
    let rearmed := { watch with
      checkpointDeadline := some (supervisor.clock + effective)
      revision := watch.revision + 1 }
    scheduleWatch (setWatch (compactDeadlines supervisor) rearmed) rearmed

def recordHandlerExit (supervisor : Supervisor) (watch : AttemptWatch) (revision : Nat) (time : Moment) : Supervisor :=
  { setWatch supervisor { watch with handlerExit := some (revision, time) } with
    recorded := supervisor.recorded ++ [(watch.watchId, .handlerExit revision time)] }

def recordWaitEntry (supervisor : Supervisor) (watch : AttemptWatch) (revision : Nat) (time : Moment) : Supervisor :=
  { setWatch supervisor { watch with externalWaitEntry := some (revision, time) } with
    recorded := supervisor.recorded ++ [(watch.watchId, .waitEntry revision time)] }

def recordRenewalEntry (supervisor : Supervisor) (watch : AttemptWatch) (deadline : Option Moment) (time : Moment) :
    Supervisor :=
  { setWatch supervisor { watch with externalRenewalEntry := some (deadline, time) } with
    recorded := supervisor.recorded ++ [(watch.watchId, .renewalEntry deadline time)] }

def beginExternalWait (supervisor : Supervisor) (watch : AttemptWatch) (entered lease : Moment) (deferLeaseStart : Bool) :
    Supervisor :=
  if watch.state ≠ .active then supervisor
  else
    let outermostWait := watch.externalWaitDepth == 0
    let waiting := { watch with
      externalWaitDepth := watch.externalWaitDepth + 1
      externalWaitTimeout := some lease
      externalWaitDeadline :=
        if deferLeaseStart && outermostWait then none
        else some (max (watch.externalWaitDeadline.getD 0) (entered + lease))
      revision := watch.revision + 1 }
    compactDeadlines (scheduleWatch (setWatch supervisor waiting) waiting)

def renewExternalWait (supervisor : Supervisor) (watch : AttemptWatch) : Supervisor :=
  if watch.state ≠ .active ∨ watch.externalWaitDepth = 0 then supervisor
  else
    match watch.externalWaitTimeout with
    | none => supervisor
    | some lease =>
        let renewed := { watch with
          externalRenewalEntry := none
          externalWaitDeadline := some (supervisor.clock + lease)
          revision := watch.revision + 1 }
        scheduleWatch (setWatch (compactDeadlines supervisor) renewed) renewed

def endedWait (clock : Moment) (watch : AttemptWatch) : AttemptWatch :=
  let inner := { watch with
    externalWaitDepth := watch.externalWaitDepth - 1
    revision := watch.revision + 1 }
  if inner.externalWaitDepth = 0 then
    { inner with
      externalWaitTimeout := none
      externalWaitDeadline := none
      checkpointDeadline := (watch.checkpointTimeout <|> watch.defaultCheckpointTimeout).map (clock + ·) }
  else inner

def endExternalWait (supervisor : Supervisor) (watch : AttemptWatch) : Supervisor :=
  if watch.externalWaitDepth = 0 then supervisor
  else
    let prepared := if watch.state = .active then compactDeadlines supervisor else supervisor
    let stored := setWatch prepared (endedWait supervisor.clock watch)
    if watch.state = .active then scheduleWatch stored (endedWait supervisor.clock watch) else stored

def signalHandlerComplete (supervisor : Supervisor) (watch : AttemptWatch) : Supervisor :=
  if !watch.supervised then setWatch supervisor { watch with state := .handlerDone }
  else if watch.state = .active then
    setWatch supervisor { watch with state := .handlerDone, revision := watch.revision + 1 }
  else supervisor

def Supervisor.finishAttempt (supervisor : Supervisor) (watch : AttemptWatch) (failed : Bool) : Supervisor :=
  let state :=
    if watch.state = .timedOut ∨ watch.state = .superseded then watch.state
    else if failed then .failed
    else .completed
  { setWatch supervisor { watch with registered := false, state := state, revision := watch.revision + 1 } with
    restartableKeys := supervisor.restartableKeys.filter (· ≠ watch.watchId) }

def cancels (nodeName : String) (jobId generation : Nat) (executionId : Option String) (watch : AttemptWatch) : Bool :=
  watch.registered && watch.nodeName == nodeName && watch.jobId == jobId && watch.generation == generation
    && watch.executionId == executionId && (watch.state == .active || watch.state == .handlerDone)

def supersedeWatch (watch : AttemptWatch) : AttemptWatch :=
  { watch with state := .superseded, revision := watch.revision + 1 }

def cancelExecution (supervisor : Supervisor) (nodeName : String) (jobId generation : Nat) (executionId : Option String) :
    Supervisor :=
  let matching := supervisor.watches.select (cancels nodeName jobId generation executionId)
  { supervisor with
    watches := supervisor.watches.modify (cancels nodeName jobId generation executionId) supersedeWatch
    restartableKeys := supervisor.restartableKeys.filter fun key => key ∉ matching.map AttemptWatch.watchId }

def AttemptWatch.currentDeadline (watch : AttemptWatch) : DeadlineKind → Option Moment
  | .total => watch.totalDeadline
  | .external => watch.externalWaitDeadline
  | .checkpoint => watch.checkpointDeadline

def exempts (watch : AttemptWatch) (entry : DeadlineEntry) : Bool :=
  match entry.kind with
  | .total => false
  | .external => watch.externalRenewalEntry.any fun renewal => renewal.1 == some entry.deadline && renewal.2 < entry.deadline
  | .checkpoint =>
      (watch.externalWaitEntry.any fun entered => entered.1 == entry.revision && entered.2 < entry.deadline)
        || watch.handlerExit.any fun exited => exited.1 == entry.revision && exited.2 < entry.deadline

def tolerance : Moment := mkRat 1 1000000000

def expires (watch : AttemptWatch) (entry : DeadlineEntry) : Bool :=
  watch.registered && watch.active && watch.revision == entry.revision
    && ((watch.currentDeadline entry.kind).any fun current => |current - entry.deadline| ≤ tolerance)
    && !exempts watch entry

def timeOut (supervisor : Supervisor) (watch : AttemptWatch) (kind : DeadlineKind) : Supervisor :=
  { setWatch supervisor { watch with state := .timedOut, timeoutKind := some kind, revision := watch.revision + 1 } with
    restartableKeys := supervisor.restartableKeys.filter (· ≠ watch.watchId)
    expired := supervisor.expired ++ [(watch.watchId, kind)] }

def expireEntry (supervisor : Supervisor) (entry : DeadlineEntry) : Supervisor :=
  match supervisor.watches.find entry.watchId with
  | none => supervisor
  | some watch => if expires watch entry then timeOut supervisor watch entry.kind else supervisor

def popDue (supervisor : Supervisor) : List DeadlineEntry → Supervisor
  | [] => { supervisor with deadlines := [] }
  | entry :: rest =>
      if supervisor.clock < entry.deadline then { supervisor with deadlines := entry :: rest }
      else popDue (expireEntry supervisor entry) rest

def expireDeadlines (supervisor : Supervisor) : Supervisor := popDue supervisor supervisor.deadlines

def validEntry (supervisor : Supervisor) (entry : DeadlineEntry) : Bool :=
  match supervisor.watches.find entry.watchId with
  | none => false
  | some watch =>
      watch.registered && watch.active && watch.revision == entry.revision
        && (watch.currentDeadline entry.kind).any fun current => |current - entry.deadline| ≤ tolerance

def dropInvalid (supervisor : Supervisor) : List DeadlineEntry → List DeadlineEntry
  | [] => []
  | entry :: rest => if validEntry supervisor entry then entry :: rest else dropInvalid supervisor rest

-- An idle iteration of `_loop` cleans the head of the heap and waits for the first deadline it keeps.
def nextValidDeadline (supervisor : Supervisor) : Supervisor × Option Moment :=
  let deadlines := dropInvalid supervisor supervisor.deadlines
  ({ supervisor with deadlines }, deadlines.head?.map DeadlineEntry.deadline)

end MicroWorkflow
