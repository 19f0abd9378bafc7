import MicroWorkflow.NodeExecutionGroup

set_option autoImplicit false

namespace MicroWorkflow

open Lib (Table)

variable {π ω : Type}

structure Begun where
  jobId : Nat
  expected : Option OwnedRestart
  latest : Option OwnedRestart
  settling : Bool

inductive GroupPhase (ω : Type) where
  | epoch
  | ended (ending : GroupEnd ω)

-- The group and its runner: what the runner holds, what it is running and what has been raised in this
-- epoch. `settling` holds from an epoch that ends with a failed slot until an epoch admits ordinary items
-- again.
structure GroupRun (π ω : Type) where
  group : NodeGroup π ω
  phase : GroupPhase ω
  handed : List (SourceItem π)
  running : List (SourceItem π)
  raised : List OutcomeError
  settling : Bool
  accepted : Nat → Option OwnedRestart
  taken : List Nat
  admissions : List Nat
  begun : List Begun
  finished : List (Nat × ω)

def GroupRun.start : GroupRun π ω :=
  ⟨.empty, .epoch, [], [], [], false, fun _ => none, [], [], [], []⟩

inductive GroupLabel (π ω : Type) where
  | pull (maxItems : Nat) (read : SourceRead π)
  | begins (place : Nat)
  | finishes (place : Nat) (outcome : Except OutcomeError ω)
  | cancels (place : Nat)
  | ends (storage : GroupStorage π) (ending : RunnerEnd)
  | resumes (storage : GroupStorage π) (replacements : Table (Prod.fst : JobAddress × OwnedRestart → JobAddress))
      (stopAdmission : Bool)

def NodeGroup.readsSource (group : NodeGroup π ω) : Bool := group.pending.isEmpty && !group.sourcePaused

def readIds (group : NodeGroup π ω) (read : SourceRead π) : List Nat :=
  if group.readsSource then read.read.map SourceItem.id else []

def SourceRead.admitted (slots : Table (Prod.fst : Nat × GroupSlot π ω → Nat)) : SourceRead π → List Nat
  | .items handed => admittedIds slots handed
  | .fails _ _ => []

def newAdmissions (group : NodeGroup π ω) (read : SourceRead π) : List Nat :=
  if group.readsSource then read.admitted group.slots else []

def GroupRun.take (run : GroupRun π ω) : Except OutcomeError (List (SourceItem π)) → GroupRun π ω
  | .ok items => { run with handed := run.handed ++ items }
  | .error error => { run with raised := run.raised ++ [error] }

def pullStep (run : GroupRun π ω) (maxItems : Nat) (read : SourceRead π) : GroupRun π ω :=
  let pulled := run.group.pull maxItems read
  let after := { run with
    group := pulled.1
    taken := run.taken ++ readIds run.group read
    admissions := run.admissions ++ newAdmissions run.group read }
  after.take pulled.2

def beginStep (run : GroupRun π ω) (place : Nat) (item : SourceItem π) (slot : GroupSlot π ω) : GroupRun π ω :=
  { run with
    handed := run.handed.eraseIdx place
    running := run.running ++ [item]
    begun := run.begun ++ [⟨item.id, slot.expectedRestart, run.accepted item.id, run.settling⟩] }

def namesOwnAttempt (item : SourceItem π) : Except OutcomeError ω → Bool
  | .ok _ => true
  | .error error => error.replaceable.all fun attempt => attempt.jobId == item.id

def finishStep (scope : GroupScope) (run : GroupRun π ω) (place : Nat) (item : SourceItem π) (outcome : Except OutcomeError ω) :
    GroupRun π ω :=
  let after := { run with group := run.group.recordOutcome scope item outcome, running := run.running.eraseIdx place }
  match outcome with
  | .ok value => { after with finished := run.finished ++ [(item.id, value)] }
  | .error error => { after with raised := run.raised ++ [error] }

def latestAccepted (accepted : Nat → Option OwnedRestart) (entries : List (Nat × OwnedRestart))
    (key : Nat) : Option OwnedRestart :=
  match entries.find? fun entry => entry.1 = key with
  | some entry => some entry.2
  | none => accepted key

-- A runner returns where nothing was raised, and raises one of the errors met; then it has joined every job
-- it started. It may still hold items: the process runner leaves its loop once no future is left.
def endsWith (run : GroupRun π ω) : RunnerEnd → Bool
  | .returned => run.running.isEmpty && run.raised.isEmpty
  | .raised error => run.running.isEmpty && run.raised.contains error

def gatheredEntries (scope : GroupScope) (storage : GroupStorage π) (group : NodeGroup π ω) : List (Nat × OwnedRestart) :=
  match gatherReplacements scope storage group.failed with
  | .ok (some replacements) => replacements.map fun replacement => (replacement.key, replacement.expected)
  | _ => []

def closeStep (scope : GroupScope) (storage : GroupStorage π) (run : GroupRun π ω) (ending : RunnerEnd) : GroupRun π ω :=
  let settled := run.group.afterEpoch scope storage ending
  let after := { run with group := settled.1, handed := [], raised := [] }
  match settled.2 with
  | some ending => { after with phase := .ended ending, settling := run.settling || !run.group.failed.isEmpty }
  | none =>
      { after with
        settling := !run.group.failed.isEmpty
        accepted := latestAccepted run.accepted (gatheredEntries scope storage run.group) }

def resumeStep (run : GroupRun π ω) (resumed : NodeGroup π ω) (entries : List (JobAddress × OwnedRestart)) : GroupRun π ω :=
  { run with
    group := resumed
    phase := .epoch
    settling := run.settling && (!entries.isEmpty || resumed.stopAdmission || !run.group.failed.isEmpty)
    accepted := latestAccepted run.accepted (entries.map fun entry => (entry.1.2, entry.2)) }

def GroupRun.active (run : GroupRun π ω) : Bool :=
  match run.phase with
  | .epoch => true
  | .ended _ => false

def choosesFailed (group : NodeGroup π ω) (entries : List (JobAddress × OwnedRestart)) : Bool :=
  entries.all fun entry => (slotOf group.slots entry.1.2).any fun slot => slot.error.isSome

def groupStep (scope : GroupScope) (run : GroupRun π ω) : GroupLabel π ω → Option (GroupRun π ω)
  | .pull maxItems read => if run.active && 1 ≤ maxItems then some (pullStep run maxItems read) else none
  | .begins place =>
      if run.active then
        run.handed[place]?.bind fun item => (slotOf run.group.slots item.id).map (beginStep run place item)
      else none
  | .finishes place outcome =>
      if run.active then
        run.running[place]?.bind fun item =>
          if namesOwnAttempt item outcome then some (finishStep scope run place item outcome) else none
      else none
  | .cancels place =>
      if run.active && !run.raised.isEmpty then
        run.running[place]?.map fun _ => { run with running := run.running.eraseIdx place }
      else none
  | .ends storage ending => if run.active && endsWith run ending then some (closeStep scope storage run ending) else none
  | .resumes storage replacements stopAdmission =>
      if run.active then none
      else
        match run.group.resume scope storage replacements stopAdmission with
        | .error _ => none
        | .ok resumed => if choosesFailed run.group replacements.rows then some (resumeStep run resumed replacements.rows)
            else none

def behindRepeat (known : List Nat) : List Nat → List Nat
  | [] => []
  | id :: rest => if id ∈ known then rest.filter (· ∉ known) else behindRepeat (known ++ [id]) rest

def leftBehind (known : List Nat) : SourceRead π → List Nat
  | .items items => behindRepeat known (items.map SourceItem.id)
  | .fails _ read => (read.map SourceItem.id).filter (· ∉ known)

-- A pull of the source is not cut short over items it has already taken, and a runner that returns from
-- ordinary work has run all it was handed.
def CleanStep (run : GroupRun π ω) : GroupLabel π ω → Prop
  | .pull _ read => run.group.readsSource = true → leftBehind (slotKeys run.group.slots) read = []
  | .ends _ .returned => run.group.sourcePaused = false → run.group.pending = [] ∧ run.handed = []
  | _ => True

inductive CleanlyReached (scope : GroupScope) : GroupRun π ω → Prop where
  | start : CleanlyReached scope .start
  | step {run next : GroupRun π ω} {label : GroupLabel π ω} (reached : CleanlyReached scope run) (clean : CleanStep run label)
      (stepped : groupStep scope run label = some next) : CleanlyReached scope next

structure KeepsItems (run : GroupRun π ω) : Prop where
  once : run.admissions.Nodup
  kept : ∀ jobId ∈ run.taken, jobId ∈ run.admissions
  values : ∀ jobId value, (jobId, value) ∈ run.finished →
    ∃ slot, slotOf run.group.slots jobId = some slot ∧ slot.complete = true ∧ slot.value = some value
  settled : ∀ begun ∈ run.begun, begun.settling = true → begun.latest.isSome
  latest : ∀ begun ∈ run.begun, begun.expected = begun.latest
  returned : ∀ values, run.phase = .ended (.returned false values) → run.group.stopAdmission = false →
    ∃ results : List (Nat × ω), results.map Prod.fst = run.admissions ∧ (∀ result ∈ results, result ∈ run.finished) ∧
      values = results.map fun result => some result.2

def GroupRun.live (run : GroupRun π ω) : List (SourceItem π) := run.group.pending ++ run.handed ++ run.running

structure SlotSound (accepted : Nat → Option OwnedRestart) (finished : List (Nat × ω)) (key : Nat) (slot : GroupSlot π ω) :
    Prop where
  item : slot.item.id = key
  latest : slot.expectedRestart = accepted key
  failed : slot.error.isSome → slot.complete = false
  attempt : ∀ attempt, slot.error.bind OutcomeError.replaceable = some attempt → attempt.jobId = key
  valued : slot.complete = true → ∃ value, slot.value = some value ∧ (key, value) ∈ finished

def OpenSlot (group : NodeGroup π ω) (key : Nat) : Prop :=
  ∃ slot, slotOf group.slots key = some slot ∧ slot.complete = false ∧ slot.error = none

structure EpochSound (run : GroupRun π ω) : Prop where
  nodup : (run.live.map SourceItem.id).Nodup
  opened : ∀ item ∈ run.live, OpenSlot run.group item.id
  covered : run.group.sourcePaused = false → run.raised = [] → ∀ key slot, slotOf run.group.slots key = some slot →
    slot.error = none ∧ (slot.complete = false → key ∈ run.live.map SourceItem.id)
  ordinary : run.group.sourcePaused = false → run.group.replacementEpoch = false ∧ run.group.stopAdmission = false
  paused : run.group.sourcePaused = true → run.group.stopAdmission = true ∨ run.group.replacementEpoch = true ∨
    ∃ key slot, slotOf run.group.slots key = some slot ∧ slot.error.isSome
  settled : run.settling = true → run.group.sourcePaused = true ∧ ∀ item ∈ run.live, (run.accepted item.id).isSome

structure RunSound (run : GroupRun π ω) : Prop where
  order : slotKeys run.group.slots = run.admissions
  kept : ∀ jobId ∈ run.taken, jobId ∈ run.admissions
  slots : ∀ key slot, slotOf run.group.slots key = some slot → SlotSound run.accepted run.finished key slot
  values : ∀ jobId value, (jobId, value) ∈ run.finished →
    ∃ slot, slotOf run.group.slots jobId = some slot ∧ slot.complete = true ∧ slot.value = some value
  unknown : ∀ key, key ∉ slotKeys run.group.slots → run.accepted key = none
  begun : ∀ begun ∈ run.begun, (begun.settling = true → begun.latest.isSome) ∧ begun.expected = begun.latest
  epoch : run.phase = .epoch → EpochSound run
  returned : ∀ values, run.phase = .ended (.returned false values) → run.group.stopAdmission = false →
    values = run.group.values ∧ ∀ key slot, slotOf run.group.slots key = some slot → slot.complete = true
  concluded : run.active = false → (run.handed = [] ∧ run.running = [] ∧ run.raised = []) ∧
    (run.group.failed ≠ [] → run.settling = true)

theorem start_sound : RunSound (.start : GroupRun π ω) where
  order := rfl
  kept := by
    intro jobId member
    cases member
  slots := by
    intro key slot found
    cases found
  values := by
    intro jobId value member
    cases member
  unknown := fun _ _ => rfl
  begun := by
    intro begun member
    cases member
  epoch := fun _ => by
    refine ⟨List.nodup_nil, ?_, ?_, fun _ => ⟨rfl, rfl⟩, nofun, nofun⟩
    · intro item member
      cases member
    · intro _ _ key slot found
      cases found
  returned := nofun
  concluded := nofun

end MicroWorkflow
