import Mathlib.Data.Finset.Range
import Mathlib.Data.List.Nodup

set_option autoImplicit false

namespace MicroWorkflow

structure MountedTask where
  name : String
  retries : Nat
  repeats : Nat
  positive : 1 ≤ repeats
deriving DecidableEq

-- The fallbacks in `fallback_order`. Each is kept under its own name.
structure MountedNode where
  mainTask : MountedTask
  fallbacks : List MountedTask
  distinct : (fallbacks.map MountedTask.name).Nodup

inductive TaskRole where
  | main | fallback
deriving DecidableEq, Repr

variable {ρ ε : Type}

-- `noted` is any event of the handler or the supervisor: a trace, a written output, a timeout.
inductive LadderEvent (ε : Type) where
  | started
  | taskStarted (task : String) (role : TaskRole) (attempt repeatIndex : Nat) (previousError : Option ε)
  | taskFailed (task : String) (role : TaskRole) (attempt repeatIndex : Nat) (error : ε)
  | retryStarted (task : String) (attempt attempts : Nat) (previousError : ε)
  | fallbackStarted (fallback : String) (previousError : ε)
  | noted (event : String)
deriving DecidableEq, Repr

-- One call of a handler. It stops where what it raises is passed on at once: a restart, an unresolved
-- permit, or no `Exception` at all. A job that lacks required parameters is invalid before the task starts.
inductive HandlerCall (ρ ε : Type) where
  | invalid (error : ε)
  | returns (value : ρ)
  | fails (error : ε)
  | stops (error : ε)

structure LadderOutside (ρ ε : Type) where
  invoke : Nat → Nat → HandlerCall ρ ε
  notes : Nat → Nat → List String
  check : Nat → Option ε

inductive AttemptEnd (ρ ε : Type) where
  | results (values : List ρ)
  | failed (repeatIndex : Nat) (error : ε)
  | stopped (error : ε)

inductive TaskEnd (ρ ε : Type) where
  | returned (results : List ρ)
  | failed (error : ε)
  | stopped (error : ε)

-- `executed` records the attempts: the stage kind they belong to and their number.
structure LadderState (ε : Type) where
  events : List (LadderEvent ε)
  failureHistory : List ε
  executed : List (String × Nat)

def LadderState.record (state : LadderState ε) (events : List (LadderEvent ε)) : LadderState ε :=
  { state with events := state.events ++ events }

def invokeRepeats (outside : LadderOutside ρ ε) (serial : Nat) (opening : Nat → List (LadderEvent ε)) :
    Nat → Nat → List ρ → List (LadderEvent ε) × AttemptEnd ρ ε
  | 0, _, values => ([], .results values)
  | remaining + 1, repeatIndex, values =>
      let shown := opening repeatIndex ++ (outside.notes serial repeatIndex).map LadderEvent.noted
      match outside.invoke serial repeatIndex with
      | .invalid error => ([], .failed repeatIndex error)
      | .fails error => (shown, .failed repeatIndex error)
      | .stops error => (shown, .stopped error)
      | .returns value =>
          let later := invokeRepeats outside serial opening remaining (repeatIndex + 1) (values ++ [value])
          (shown ++ later.1, later.2)

def taskStartedEvents (task : MountedTask) (role : TaskRole) (attempt : Nat) (previousError : Option ε)
    (preRecorded : Bool) (repeatIndex : Nat) : List (LadderEvent ε) :=
  if preRecorded = true ∧ role = .main ∧ attempt = 1 ∧ repeatIndex = 1 then []
  else [.taskStarted task.name role attempt repeatIndex previousError]

def makeAttempt (outside : LadderOutside ρ ε) (kind : String) (task : MountedTask) (role : TaskRole) (preRecorded : Bool)
    (attempt : Nat) (previousError : Option ε) (state : LadderState ε) : AttemptEnd ρ ε × LadderState ε :=
  let tried := invokeRepeats outside state.executed.length
    (taskStartedEvents task role attempt previousError preRecorded) task.repeats 1 []
  let made := { state.record tried.1 with executed := state.executed ++ [(kind, attempt)] }
  match tried.2 with
  | .results values => (.results values, made)
  | .stopped error => (.stopped error, made)
  | .failed repeatIndex error =>
      (.failed repeatIndex error,
        { made.record [.taskFailed task.name role attempt repeatIndex error] with
          failureHistory := made.failureHistory ++ [error] })

def executeMountedTask (outside : LadderOutside ρ ε) (kind : String) (task : MountedTask) (role : TaskRole)
    (preRecorded : Bool) : Nat → Nat → Option ε → LadderState ε → TaskEnd ρ ε × LadderState ε
  | left, attempt, previousError, state =>
      match makeAttempt outside kind task role preRecorded attempt previousError state with
      | (.results values, made) => (.returned values, made)
      | (.stopped error, made) => (.stopped error, made)
      | (.failed _ error, made) =>
          match left with
          | 0 => (.failed error, made)
          | left + 1 =>
              match outside.check state.executed.length with
              | some stop => (.stopped stop, made)
              | none => executeMountedTask outside kind task role preRecorded left (attempt + 1) (some error)
                  (made.record [.retryStarted task.name (attempt + 1) (task.retries + 1) error])

def tryFallbacks (outside : LadderOutside ρ ε) (mainError : ε) :
    List MountedTask → ε → LadderState ε → TaskEnd ρ ε × LadderState ε
  | [], terminalError, state => (.failed terminalError, state)
  | fallback :: rest, _, state =>
      match executeMountedTask outside fallback.name fallback .fallback false fallback.retries 1 state.failureHistory.getLast?
        (state.record [.fallbackStarted fallback.name mainError]) with
      | (.failed error, next) =>
          match outside.check (next.executed.length - 1) with
          | some stop => (.stopped stop, next)
          | none => tryFallbacks outside mainError rest error next
      | ended => ended

def executeWithFallbacks (node : MountedNode) (outside : LadderOutside ρ ε) (preRecorded : Bool) :
    TaskEnd ρ ε × LadderState ε :=
  match executeMountedTask outside "main" node.mainTask .main preRecorded node.mainTask.retries 1 none ⟨[], [], []⟩ with
  | (.failed error, next) =>
      match outside.check (next.executed.length - 1) with
      | some stop => (.stopped stop, next)
      | none => tryFallbacks outside error node.fallbacks error next
  | ended => ended

structure Stage where
  kind : String
  task : String
  attempt : Nat
  label : String
deriving DecidableEq, Repr

def stageRole (kind name : String) : String :=
  if kind = "main" then "main" else if kind = name then "fallback" else "fallback " ++ kind

def stageLabel (kind : String) (task : MountedTask) (attempt : Nat) : String :=
  stageRole kind task.name ++ ": " ++ task.name ++ " — attempt " ++ toString attempt ++ "/" ++ toString (task.retries + 1) ++
    if 1 < task.repeats then " (" ++ toString task.repeats ++ " repeats)" else ""

def taskStages (kind : String) (task : MountedTask) : List Stage :=
  (List.range (task.retries + 1)).map fun before => ⟨kind, task.name, before + 1, stageLabel kind task (before + 1)⟩

def filterStages (node : MountedNode) : List Stage :=
  taskStages "main" node.mainTask ++ node.fallbacks.flatMap fun fallback => taskStages fallback.name fallback

def LadderEvent.isStarted : LadderEvent ε → Bool
  | .started => true
  | _ => false

def currentExecutionEvents : List (LadderEvent ε) → List (LadderEvent ε)
  | [] => []
  | event :: rest =>
      match currentExecutionEvents rest with
      | [] => if event.isStarted then event :: rest else []
      | segment => segment

def stageLookup (key : String × Nat) : List (String × Nat) → Option Nat
  | [] => none
  | first :: rest =>
      match stageLookup key rest with
      | some index => some (index + 1)
      | none => if first = key then some 0 else none

def markStage (keys : List (String × Nat)) (indexes : Finset Nat) (key : String × Nat) : Finset Nat :=
  match stageLookup key keys with
  | some index => insert index indexes
  | none => indexes

def readEvent (keys : List (String × Nat)) (seen : String × Finset Nat) : LadderEvent ε → String × Finset Nat
  | .fallbackStarted fallback _ => (fallback, markStage keys seen.2 (fallback, 1))
  | .retryStarted _ attempt _ _ => (seen.1, markStage keys seen.2 (seen.1, attempt))
  | _ => seen

def stageIndexesForEvents (events : List (LadderEvent ε)) (stages : List Stage) : Finset Nat :=
  if events = [] ∨ stages = [] then ∅
  else (events.tail.foldl (readEvent (stages.map fun stage => (stage.kind, stage.attempt))) ("main", {0})).2

section Climb

structure LadderRung where
  kind : String
  attempt : Nat
  repeats : Nat

def LadderRung.key (rung : LadderRung) : String × Nat := (rung.kind, rung.attempt)

def taskRungs (kind : String) (task : MountedTask) (first count : Nat) : List LadderRung :=
  (List.range count).map fun before => ⟨kind, first + before, task.repeats⟩

def fallbackRungs (fallbacks : List MountedTask) : List LadderRung :=
  fallbacks.flatMap fun fallback => taskRungs fallback.name fallback 1 (fallback.retries + 1)

def ladderRungs (node : MountedNode) : List LadderRung :=
  taskRungs "main" node.mainTask 1 (node.mainTask.retries + 1) ++ fallbackRungs node.fallbacks

def attemptEnd (outside : LadderOutside ρ ε) (serial repeats : Nat) : AttemptEnd ρ ε :=
  (invokeRepeats outside serial (fun _ => []) repeats 1 []).2

def failureAt (outside : LadderOutside ρ ε) (serial : Nat) (rung : LadderRung) : Option ε :=
  match attemptEnd outside serial rung.repeats with
  | .failed _ error => some error
  | _ => none

def taskFailure : LadderEvent ε → Option ε
  | .taskFailed _ _ _ _ error => some error
  | _ => none

def seenStages (keys executed : List (String × Nat)) : Finset Nat := executed.tail.foldl (markStage keys) {0}

variable {outside : LadderOutside ρ ε} {keys : List (String × Nat)} {done : List LadderRung} {rung : LadderRung}
  {state : LadderState ε} {opening : Nat → List (LadderEvent ε)}

theorem repeats_end (serial : Nat) (other : Nat → List (LadderEvent ε)) (remaining repeatIndex : Nat) (values : List ρ) :
    (invokeRepeats outside serial opening remaining repeatIndex values).2 =
      (invokeRepeats outside serial other remaining repeatIndex values).2 := by
  induction remaining generalizing repeatIndex values with
  | zero => rfl
  | succ remaining ih =>
      rw [invokeRepeats, invokeRepeats]
      cases outside.invoke serial repeatIndex with
      | invalid error => rfl
      | fails error => rfl
      | stops error => rfl
      | returns value => exact ih (repeatIndex + 1) (values ++ [value])

def Silent : LadderEvent ε → Prop
  | .taskStarted .. => True
  | .noted _ => True
  | _ => False

theorem repeats_silent (serial : Nat) (quiet : ∀ index, ∀ event ∈ opening index, Silent event) (remaining repeatIndex : Nat)
    (values : List ρ) :
    ∀ event ∈ (invokeRepeats outside serial opening remaining repeatIndex values).1, Silent event := by
  have shown : ∀ index, ∀ event ∈ opening index ++ (outside.notes serial index).map LadderEvent.noted, Silent event := by
    intro index event member
    rcases List.mem_append.mp member with opened | note
    · exact quiet index event opened
    · obtain ⟨_, _, rfl⟩ := List.mem_map.mp note
      trivial
  induction remaining generalizing repeatIndex values with
  | zero =>
      intro event member
      cases member
  | succ remaining ih =>
      rw [invokeRepeats]
      cases outside.invoke serial repeatIndex with
      | invalid error =>
          intro event member
          cases member
      | fails error => exact shown repeatIndex
      | stops error => exact shown repeatIndex
      | returns value =>
          intro event member
          rcases List.mem_append.mp member with now | later
          · exact shown repeatIndex event now
          · exact ih (repeatIndex + 1) (values ++ [value]) event later

theorem task_started_silent (task : MountedTask) (role : TaskRole) (attempt : Nat) (previousError : Option ε)
    (preRecorded : Bool) (index : Nat) :
    ∀ event ∈ taskStartedEvents task role attempt previousError preRecorded index, Silent event := by
  intro event member
  rw [taskStartedEvents] at member
  split at member
  · cases member
  · rw [List.mem_singleton.mp member]
    trivial

theorem read_silent {events : List (LadderEvent ε)} (quiet : ∀ event ∈ events, Silent event) (seen : String × Finset Nat) :
    events.foldl (readEvent keys) seen = seen := by
  induction events generalizing seen with
  | nil => rfl
  | cons event rest ih =>
      have here : readEvent keys seen event = seen := by
        have silent := quiet event List.mem_cons_self
        cases event with
        | taskStarted => rfl
        | noted => rfl
        | started => cases silent
        | taskFailed => cases silent
        | retryStarted => cases silent
        | fallbackStarted => cases silent
      rw [List.foldl_cons, here]
      exact ih (fun other member => quiet other (List.mem_cons_of_mem event member)) seen

theorem failures_silent {events : List (LadderEvent ε)} (quiet : ∀ event ∈ events, Silent event) :
    events.filterMap taskFailure = [] := by
  rw [List.filterMap_eq_nil_iff]
  intro event member
  have silent := quiet event member
  cases event with
  | taskStarted => rfl
  | noted => rfl
  | started => rfl
  | taskFailed => cases silent
  | retryStarted => rfl
  | fallbackStarted => rfl

structure Told (keys : List (String × Nat)) (announced : List LadderRung) (kind : String) (state : LadderState ε) : Prop where
  failures : state.events.filterMap taskFailure = state.failureHistory
  unstarted : ∀ event ∈ state.events, event.isStarted = false
  read : state.events.foldl (readEvent keys) ("main", {0}) = (kind, seenStages keys (announced.map LadderRung.key))

structure AllFailed (outside : LadderOutside ρ ε) (done : List LadderRung) (state : LadderState ε) : Prop where
  executed : state.executed = done.map LadderRung.key
  failures : done.mapIdx (failureAt outside) = state.failureHistory.map some
  checked : ∀ serial, serial + 1 < done.length → outside.check serial = none

def EndsAt (outside : LadderOutside ρ ε) (serial : Nat) (last : LadderRung) (ending : TaskEnd ρ ε) : Prop :=
  match attemptEnd outside serial last.repeats with
  | .results values => ending = .returned values
  | .stopped error => ending = .stopped error
  | .failed _ _ => ∃ stop, outside.check serial = some stop ∧ ending = .stopped stop

structure Made (outside : LadderOutside ρ ε) (keys : List (String × Nat)) (done : List LadderRung) (last : LadderRung)
    (state : LadderState ε) : Prop where
  executed : state.executed = (done ++ [last]).map LadderRung.key
  failures : ∃ earlier, done.mapIdx (failureAt outside) = earlier.map some ∧
    state.failureHistory = earlier ++ (failureAt outside done.length last).toList
  checked : ∀ serial, serial < done.length → outside.check serial = none
  told : ∃ kind, Told keys (done ++ [last]) kind state

theorem seen_stages_announce {announced : List LadderRung} (some_attempt : announced ≠ []) (next : LadderRung) :
    seenStages keys ((announced ++ [next]).map LadderRung.key) =
      markStage keys (seenStages keys (announced.map LadderRung.key)) next.key := by
  cases announced with
  | nil => exact absurd rfl some_attempt
  | cons first rest => simp [seenStages]

theorem told_announce {announced : List LadderRung} {kind : String} (some_attempt : announced ≠ [])
    (told : Told keys announced kind state) (next : LadderRung) (event : LadderEvent ε) (noFailure : taskFailure event = none)
    (unstarted : event.isStarted = false)
    (marks : readEvent keys (kind, seenStages keys (announced.map LadderRung.key)) event =
      (next.kind, markStage keys (seenStages keys (announced.map LadderRung.key)) next.key)) :
    Told keys (announced ++ [next]) next.kind (state.record [event]) where
  failures := by
    rw [LadderState.record, List.filterMap_append, told.failures, List.filterMap_cons, noFailure, List.filterMap_nil,
      List.append_nil]
  unstarted := by
    intro other member
    rcases List.mem_append.mp member with before | here
    · exact told.unstarted other before
    · rw [List.mem_singleton.mp here]
      exact unstarted
  read := by
    rw [LadderState.record, List.foldl_append, told.read, List.foldl_cons, List.foldl_nil, marks,
      seen_stages_announce some_attempt]

theorem told_silent {announced : List LadderRung} {kind : String} (told : Told keys announced kind state)
    {events : List (LadderEvent ε)} (quiet : ∀ event ∈ events, Silent event) :
    Told keys announced kind (state.record events) where
  failures := by
    rw [LadderState.record, List.filterMap_append, failures_silent quiet, List.append_nil]
    exact told.failures
  unstarted := by
    intro event member
    rcases List.mem_append.mp member with before | here
    · exact told.unstarted event before
    · have silent := quiet event here
      cases event with
      | started => cases silent
      | _ => rfl
  read := by
    rw [LadderState.record, List.foldl_append, told.read, read_silent quiet]

theorem told_failed {announced : List LadderRung} {kind : String} (told : Told keys announced kind state) (task : String)
    (role : TaskRole) (attempt repeatIndex : Nat) (error : ε) :
    Told keys announced kind { state.record [.taskFailed task role attempt repeatIndex error] with
      failureHistory := state.failureHistory ++ [error] } where
  failures := by
    rw [LadderState.record, List.filterMap_append, told.failures]
    rfl
  unstarted := by
    intro event member
    rcases List.mem_append.mp member with before | here
    · exact told.unstarted event before
    · rw [List.mem_singleton.mp here]
      rfl
  read := by
    rw [LadderState.record, List.foldl_append, told.read]
    rfl

theorem all_failed_append {last : LadderRung} {error : ε} {next : LadderState ε} (failed : AllFailed outside done state)
    (checked : ∀ serial, serial < done.length → outside.check serial = none)
    (fails : failureAt outside done.length last = some error)
    (executed : next.executed = state.executed ++ [last.key])
    (history : next.failureHistory = state.failureHistory ++ [error]) : AllFailed outside (done ++ [last]) next where
  executed := by
    rw [executed, failed.executed, List.map_append]
    rfl
  failures := by
    rw [List.mapIdx_concat, failed.failures, fails, history, List.map_append]
    rfl
  checked := by
    intro serial less
    rw [List.length_append, List.length_singleton] at less
    exact checked serial (by omega)

theorem make_attempt_spec (kind : String) (task : MountedTask) (role : TaskRole) (preRecorded : Bool) (attempt : Nat)
    (previousError : Option ε) (failed : AllFailed outside done state)
    (told : Told keys (done ++ [⟨kind, attempt, task.repeats⟩]) kind state) :
    ∃ made, makeAttempt outside kind task role preRecorded attempt previousError state =
        (attemptEnd outside done.length task.repeats, made) ∧
      made.executed = state.executed ++ [(kind, attempt)] ∧
      made.failureHistory = state.failureHistory ++ (failureAt outside done.length ⟨kind, attempt, task.repeats⟩).toList ∧
      Told keys (done ++ [⟨kind, attempt, task.repeats⟩]) kind made := by
  have serial : state.executed.length = done.length := by rw [failed.executed, List.length_map]
  have quiet := @repeats_silent ρ ε outside (taskStartedEvents task role attempt previousError preRecorded) done.length
    (task_started_silent task role attempt previousError preRecorded) task.repeats 1 []
  have after := told_silent told quiet
  have ended : (invokeRepeats outside done.length (taskStartedEvents task role attempt previousError preRecorded)
      task.repeats 1 []).2 = attemptEnd outside done.length task.repeats := repeats_end _ _ _ _ _
  rw [makeAttempt, serial]
  dsimp only
  rw [ended]
  cases outcome : attemptEnd outside done.length task.repeats with
  | results values =>
      refine ⟨_, rfl, rfl, ?_, after.failures, after.unstarted, after.read⟩
      rw [failureAt, outcome]
      exact (List.append_nil _).symm
  | stopped error =>
      refine ⟨_, rfl, rfl, ?_, after.failures, after.unstarted, after.read⟩
      rw [failureAt, outcome]
      exact (List.append_nil _).symm
  | failed repeatIndex error =>
      have noted := told_failed after task.name role attempt repeatIndex error
      refine ⟨_, rfl, rfl, ?_, noted.failures, noted.unstarted, noted.read⟩
      rw [failureAt, outcome]
      rfl

theorem task_rungs_succ (kind : String) (task : MountedTask) (first count : Nat) :
    taskRungs kind task first (count + 1) = ⟨kind, first, task.repeats⟩ :: taskRungs kind task (first + 1) count := by
  rw [taskRungs, List.range_succ_eq_map, List.map_cons, List.map_map, taskRungs]
  congr 1
  refine List.map_congr_left fun before _ => ?_
  show LadderRung.mk kind (first + (before + 1)) task.repeats = _
  rw [Nat.add_assoc, Nat.add_comm 1 before]

theorem made_of_attempt {next : LadderRung} {made : LadderState ε} (failed : AllFailed outside done state)
    (checked : ∀ serial, serial < done.length → outside.check serial = none)
    (executed : made.executed = state.executed ++ [next.key])
    (history : made.failureHistory = state.failureHistory ++ (failureAt outside done.length next).toList)
    {kind : String} (told : Told keys (done ++ [next]) kind made) : Made outside keys done next made where
  executed := by
    rw [executed, failed.executed, List.map_append]
    rfl
  failures := ⟨state.failureHistory, failed.failures, history⟩
  checked := checked
  told := ⟨kind, told⟩

theorem task_climbs (kind : String) (task : MountedTask) (role : TaskRole) (preRecorded : Bool) (left attempt : Nat)
    (previousError : Option ε) (failed : AllFailed outside done state)
    (checked : ∀ serial, serial < done.length → outside.check serial = none)
    (told : Told keys (done ++ [⟨kind, attempt, task.repeats⟩]) kind state) :
    ∃ ending final, executeMountedTask outside kind task role preRecorded left attempt previousError state = (ending, final) ∧
      ((∃ more last rest, taskRungs kind task attempt (left + 1) = more ++ last :: rest ∧
          Made outside keys (done ++ more) last final ∧ EndsAt outside (done ++ more).length last ending) ∨
        ∃ error, ending = .failed error ∧ final.failureHistory.getLast? = some error ∧
          AllFailed outside (done ++ taskRungs kind task attempt (left + 1)) final ∧
          Told keys (done ++ taskRungs kind task attempt (left + 1)) kind final) := by
  induction left generalizing attempt previousError done state with
  | zero =>
      obtain ⟨made, attempted, executed, history, after⟩ :=
        make_attempt_spec kind task role preRecorded attempt previousError failed told
      have reached : Made outside keys done ⟨kind, attempt, task.repeats⟩ made :=
        made_of_attempt failed checked executed history after
      have one : taskRungs kind task attempt (0 + 1) = [] ++ ⟨kind, attempt, task.repeats⟩ :: [] := task_rungs_succ ..
      rw [executeMountedTask, attempted]
      cases outcome : attemptEnd outside done.length task.repeats with
      | results values =>
          refine ⟨_, _, rfl, .inl ⟨[], _, [], one, by rwa [List.append_nil], ?_⟩⟩
          simp only [EndsAt, List.append_nil, outcome]
      | stopped error =>
          refine ⟨_, _, rfl, .inl ⟨[], _, [], one, by rwa [List.append_nil], ?_⟩⟩
          simp only [EndsAt, List.append_nil, outcome]
      | failed repeatIndex error =>
          have fails : failureAt outside done.length ⟨kind, attempt, task.repeats⟩ = some error := by
            simp only [failureAt, outcome]
          rw [fails] at history
          refine ⟨_, _, rfl, .inr ⟨error, rfl, by rw [history]; simp, ?_, ?_⟩⟩
          · rw [one]
            exact all_failed_append failed checked fails executed history
          · rw [one]
            exact after
  | succ left ih =>
      obtain ⟨made, attempted, executed, history, after⟩ :=
        make_attempt_spec kind task role preRecorded attempt previousError failed told
      have reached : Made outside keys done ⟨kind, attempt, task.repeats⟩ made :=
        made_of_attempt failed checked executed history after
      have split := task_rungs_succ kind task attempt (left + 1)
      have serial : state.executed.length = done.length := by rw [failed.executed, List.length_map]
      rw [executeMountedTask, attempted]
      cases outcome : attemptEnd outside done.length task.repeats with
      | results values =>
          refine ⟨_, _, rfl, .inl ⟨[], _, _, split, by rwa [List.append_nil], ?_⟩⟩
          simp only [EndsAt, List.append_nil, outcome]
      | stopped error =>
          refine ⟨_, _, rfl, .inl ⟨[], _, _, split, by rwa [List.append_nil], ?_⟩⟩
          simp only [EndsAt, List.append_nil, outcome]
      | failed repeatIndex error =>
          have fails : failureAt outside done.length ⟨kind, attempt, task.repeats⟩ = some error := by
            simp only [failureAt, outcome]
          rw [fails] at history
          dsimp only
          rw [serial]
          cases cut : outside.check done.length with
          | some stop =>
              refine ⟨_, _, rfl, .inl ⟨[], _, _, split, by rwa [List.append_nil], ?_⟩⟩
              simp only [EndsAt, List.append_nil, outcome]
              exact ⟨stop, cut, rfl⟩
          | none =>
              have nowFailed : AllFailed outside (done ++ [⟨kind, attempt, task.repeats⟩]) made :=
                all_failed_append failed checked fails executed history
              have nowChecked : ∀ serial, serial < (done ++ [(⟨kind, attempt, task.repeats⟩ : LadderRung)]).length →
                  outside.check serial = none := by
                intro serial less
                rw [List.length_append, List.length_singleton] at less
                by_cases last : serial = done.length
                · rw [last]
                  exact cut
                · exact checked serial (by omega)
              have retold := told_announce (by simp) after ⟨kind, attempt + 1, task.repeats⟩
                (.retryStarted task.name (attempt + 1) (task.retries + 1) error) rfl rfl rfl
              have nowFailed : AllFailed outside (done ++ [⟨kind, attempt, task.repeats⟩])
                  (made.record [.retryStarted task.name (attempt + 1) (task.retries + 1) error]) :=
                ⟨nowFailed.executed, nowFailed.failures, nowFailed.checked⟩
              obtain ⟨ending, final, ran, result⟩ := ih (attempt + 1) (some error) nowFailed nowChecked retold
              refine ⟨ending, final, ran, ?_⟩
              rw [split]
              rcases result with ⟨more, last, rest, rungs, further, ends⟩ | ⟨terminal, known, reported, allFailed, told⟩
              · refine .inl ⟨⟨kind, attempt, task.repeats⟩ :: more, last, rest, by rw [rungs]; rfl, ?_, ?_⟩
                · rwa [List.append_assoc] at further
                · rwa [List.append_assoc] at ends
              · refine .inr ⟨terminal, known, reported, ?_, ?_⟩
                · rwa [List.append_assoc] at allFailed
                · rwa [List.append_assoc] at told

theorem made_of_all_failed {front : List LadderRung} {last : LadderRung} {kind : String}
    (failed : AllFailed outside (front ++ [last]) state) (told : Told keys (front ++ [last]) kind state) :
    Made outside keys front last state ∧ ∃ error, failureAt outside front.length last = some error ∧
      state.failureHistory.getLast? = some error := by
  have failures := failed.failures
  rw [List.mapIdx_concat] at failures
  obtain ⟨earlier, error, history, fronts, lasts⟩ : ∃ earlier error, state.failureHistory = earlier ++ [error] ∧
      front.mapIdx (failureAt outside) = earlier.map some ∧ failureAt outside front.length last = some error := by
    rcases List.eq_nil_or_concat state.failureHistory with none | ⟨earlier, error, history⟩
    · rw [none] at failures
      exact absurd failures (by simp)
    · rw [history, List.concat_eq_append, List.map_append] at failures
      obtain ⟨fronts, lasts⟩ := List.append_inj' failures rfl
      exact ⟨earlier, error, by rw [history, List.concat_eq_append], fronts, by simpa using lasts⟩
  refine ⟨⟨failed.executed, ⟨earlier, fronts, by rw [lasts, history]; rfl⟩, fun serial less => ?_, kind, told⟩, error, lasts, ?_⟩
  · refine failed.checked serial ?_
    rw [List.length_append, List.length_singleton]
    omega
  · rw [history]
    simp

theorem task_rungs_last (kind : String) (task : MountedTask) (first count : Nat) :
    ∃ front last, taskRungs kind task first (count + 1) = front ++ [last] := by
  refine ⟨taskRungs kind task first count, ⟨kind, first + count, task.repeats⟩, ?_⟩
  rw [taskRungs, List.range_succ, List.map_append]
  rfl

theorem ends_at_not_failed {serial : Nat} {last : LadderRung} {ending : TaskEnd ρ ε} (ends : EndsAt outside serial last ending)
    (error : ε) : ending ≠ .failed error := by
  rw [EndsAt] at ends
  cases outcome : attemptEnd outside serial last.repeats with
  | results values =>
      rw [outcome] at ends
      rw [ends]
      nofun
  | stopped stop =>
      rw [outcome] at ends
      rw [ends]
      nofun
  | failed repeatIndex failure =>
      rw [outcome] at ends
      obtain ⟨stop, _, ended⟩ := ends
      rw [ended]
      nofun

theorem failed_task_checked {kind : String} {task : MountedTask} (count : Nat)
    (failed : AllFailed outside (done ++ taskRungs kind task 1 (count + 1)) state)
    (told : Told keys (done ++ taskRungs kind task 1 (count + 1)) kind state) :
    (∃ stop more last, outside.check (state.executed.length - 1) = some stop ∧
      taskRungs kind task 1 (count + 1) = more ++ [last] ∧ Made outside keys (done ++ more) last state ∧
      EndsAt outside (done ++ more).length last (.stopped stop : TaskEnd ρ ε)) ∨
    outside.check (state.executed.length - 1) = none ∧
      ∀ serial, serial < (done ++ taskRungs kind task 1 (count + 1)).length → outside.check serial = none := by
  obtain ⟨more, last, rungs⟩ := task_rungs_last kind task 1 count
  rw [rungs, ← List.append_assoc] at failed told
  have position : state.executed.length - 1 = (done ++ more).length := by
    rw [failed.executed, List.length_map, List.length_append, List.length_singleton, Nat.add_sub_cancel]
  obtain ⟨made, error, fails, _⟩ := made_of_all_failed failed told
  rw [position]
  cases cut : outside.check (done ++ more).length with
  | some stop =>
      refine .inl ⟨stop, more, last, rfl, rungs, made, ?_⟩
      rw [EndsAt]
      rw [failureAt] at fails
      cases outcome : attemptEnd outside (done ++ more).length last.repeats with
      | results values => rw [outcome] at fails; cases fails
      | stopped error => rw [outcome] at fails; cases fails
      | failed repeatIndex error => exact ⟨stop, cut, rfl⟩
  | none =>
      refine .inr ⟨rfl, fun serial less => ?_⟩
      rw [rungs, ← List.append_assoc, List.length_append, List.length_singleton] at less
      by_cases here : serial = (done ++ more).length
      · rw [here]
        exact cut
      · exact made.checked serial (by omega)

theorem fallbacks_climb (mainError terminalError : ε) (fallbacks : List MountedTask) {kind : String} (some_attempt : done ≠ [])
    (failed : AllFailed outside done state) (checked : ∀ serial, serial < done.length → outside.check serial = none)
    (told : Told keys done kind state) (reported : state.failureHistory.getLast? = some terminalError) :
    ∃ ending final, tryFallbacks outside mainError fallbacks terminalError state = (ending, final) ∧
      ((∃ more last rest, fallbackRungs fallbacks = more ++ last :: rest ∧
          Made outside keys (done ++ more) last final ∧ EndsAt outside (done ++ more).length last ending) ∨
        ∃ error kind, ending = .failed error ∧ final.failureHistory.getLast? = some error ∧
          AllFailed outside (done ++ fallbackRungs fallbacks) final ∧ Told keys (done ++ fallbackRungs fallbacks) kind final ∧
          ∀ serial, serial < (done ++ fallbackRungs fallbacks).length → outside.check serial = none) := by
  induction fallbacks generalizing terminalError kind done state with
  | nil =>
      refine ⟨_, _, rfl, .inr ⟨terminalError, kind, rfl, reported, ?_⟩⟩
      rw [fallbackRungs, List.flatMap_nil, List.append_nil]
      exact ⟨failed, told, checked⟩
  | cons fallback rest ih =>
      have announced := told_announce some_attempt told ⟨fallback.name, 1, fallback.repeats⟩
        (.fallbackStarted fallback.name mainError) rfl rfl rfl
      have opened : AllFailed outside done (state.record [.fallbackStarted fallback.name mainError]) :=
        ⟨failed.executed, failed.failures, failed.checked⟩
      obtain ⟨ending, final, ran, result⟩ := task_climbs fallback.name fallback .fallback false fallback.retries 1
        state.failureHistory.getLast? opened checked announced
      have split : fallbackRungs (fallback :: rest) =
          taskRungs fallback.name fallback 1 (fallback.retries + 1) ++ fallbackRungs rest := List.flatMap_cons
      rw [tryFallbacks, ran, split]
      rcases result with ⟨more, last, remaining, rungs, made, ends⟩ | ⟨error, rfl, reported, allFailed, told⟩
      · have passed := ends_at_not_failed ends
        refine ⟨ending, final, ?_, .inl ⟨more, last, remaining ++ fallbackRungs rest, by rw [rungs]; simp, made, ends⟩⟩
        cases ending with
        | returned results => rfl
        | stopped error => rfl
        | failed error => exact absurd rfl (passed error)
      · dsimp only
        rcases failed_task_checked fallback.retries allFailed told with ⟨stop, more, last, cut, rungs,
          made, ends⟩ | ⟨passes, checked⟩
        · rw [cut]
          exact ⟨_, _, rfl, .inl ⟨more, last, fallbackRungs rest, by rw [rungs, List.append_assoc]; rfl, made, ends⟩⟩
        · rw [passes]
          obtain ⟨ending, later, ran, result⟩ := ih error (by simp [some_attempt]) allFailed checked told reported
          refine ⟨ending, later, ran, ?_⟩
          rcases result with ⟨more, last, remaining, rungs, made, ends⟩ | ⟨error, kind, known, reported, allFailed, told, checked⟩
          · refine .inl ⟨_ ++ more, last, remaining, by rw [rungs, ← List.append_assoc], ?_, ?_⟩
            · rwa [List.append_assoc] at made
            · rwa [List.append_assoc] at ends
          · rw [List.append_assoc] at allFailed told checked
            exact .inr ⟨error, kind, known, reported, allFailed, told, checked⟩

theorem ladder_climbs (node : MountedNode) (outside : LadderOutside ρ ε) (preRecorded : Bool) (keys : List (String × Nat)) :
    ∃ ending final done last rest, executeWithFallbacks node outside preRecorded = (ending, final) ∧
      ladderRungs node = done ++ last :: rest ∧ Made outside keys done last final ∧
      (EndsAt outside done.length last ending ∨
        rest = [] ∧ outside.check done.length = none ∧ ∃ error, failureAt outside done.length last = some error ∧
          ending = .failed error) := by
  have start : Told keys ([] ++ [⟨"main", 1, node.mainTask.repeats⟩]) "main" (⟨[], [], []⟩ : LadderState ε) :=
    ⟨rfl, fun _ member => (by cases member), rfl⟩
  have nothing : AllFailed outside [] (⟨[], [], []⟩ : LadderState ε) := ⟨rfl, rfl, fun _ less => absurd less (Nat.not_lt_zero _)⟩
  obtain ⟨ending, final, ran, result⟩ := task_climbs "main" node.mainTask .main preRecorded node.mainTask.retries 1 none nothing
    (fun _ less => absurd less (Nat.not_lt_zero _)) start
  rw [executeWithFallbacks, ran]
  rcases result with ⟨more, last, remaining, rungs, made, ends⟩ | ⟨error, rfl, reported, allFailed, told⟩
  · have passed := ends_at_not_failed ends
    refine ⟨ending, final, more, last, remaining ++ fallbackRungs node.fallbacks, ?_,
      by rw [ladderRungs, rungs]; simp, made, .inl ends⟩
    cases ending with
    | returned results => rfl
    | stopped error => rfl
    | failed error => exact absurd rfl (passed error)
  · dsimp only
    rcases failed_task_checked node.mainTask.retries allFailed told with ⟨stop, more, last, cut, rungs,
      made, ends⟩ | ⟨passes, checked⟩
    · rw [cut]
      exact ⟨_, _, more, last, fallbackRungs node.fallbacks, rfl, by rw [ladderRungs, rungs, List.append_assoc]; rfl, made,
        .inl ends⟩
    · rw [passes]
      have some_attempt : [] ++ taskRungs "main" node.mainTask 1 (node.mainTask.retries + 1) ≠ [] := by
        rw [task_rungs_succ]
        simp
      obtain ⟨ending, later, ran, result⟩ := fallbacks_climb error error node.fallbacks some_attempt allFailed
        checked told reported
      rcases result with ⟨more, last, remaining, rungs, made, ends⟩ | ⟨terminal, kind, known, reported, allFailed, told, checked⟩
      · exact ⟨ending, later, _, last, remaining, ran, by rw [ladderRungs, rungs, List.nil_append, List.append_assoc],
          made, .inl ends⟩
      · have whole : ∃ front last, ladderRungs node = front ++ [last] := by
          rcases List.eq_nil_or_concat (ladderRungs node) with none | ⟨front, last, split⟩
          · rw [ladderRungs, task_rungs_succ] at none
            cases none
          · exact ⟨front, last, by rw [split, List.concat_eq_append]⟩
        obtain ⟨front, last, split⟩ := whole
        rw [List.nil_append] at allFailed told checked
        have all : taskRungs "main" node.mainTask 1 (node.mainTask.retries + 1) ++
          fallbackRungs node.fallbacks = front ++ [last] :=
          split
        rw [all] at allFailed told checked
        obtain ⟨made, failure, fails, last_error⟩ := made_of_all_failed allFailed told
        rw [reported] at last_error
        cases last_error
        refine ⟨ending, later, front, last, [], ran, split, made, .inr ⟨rfl, checked front.length ?_, terminal, fails, known⟩⟩
        rw [List.length_append, List.length_singleton]
        omega

end Climb

end MicroWorkflow
