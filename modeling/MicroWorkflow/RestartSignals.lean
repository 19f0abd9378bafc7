import MicroWorkflow.DeadlineExpiry
import MicroWorkflow.Restart

set_option autoImplicit false

namespace MicroWorkflow

open Lib (Table Run)

abbrev ActiveLease := Nat × String

def activeJobExecution (db : Database) (place : JobAddress) : Option ActiveLease :=
  (db.jobs.find place).bind fun row => row.activeExecutionId.map fun executionId => (row.generation, executionId)

def AttemptWatch.address (watch : AttemptWatch) : JobAddress := (watch.nodeName, watch.jobId)

def AttemptWatch.lease (watch : AttemptWatch) : Option ActiveLease :=
  watch.executionId.map fun executionId => (watch.generation, executionId)

def runsLease (db : Database) (watch : AttemptWatch) : Bool :=
  watch.lease.isSome && activeJobExecution db watch.address == watch.lease

inductive PollPhase where
  | idle
  | revisionDue
  | listing
  | reading (restartWatches : List AttemptWatch)
  | cancelling (stale : List AttemptWatch)

structure RestartMonitor where
  supervisor : Supervisor
  db : Database
  restartRevision : Nat
  restartEventPending : Bool
  phase : PollPhase

def RestartMonitor.start (db : Database) : RestartMonitor := ⟨.initial, db, db.jobRestartRevision, false, .idle⟩

def restartWatches (supervisor : Supervisor) : List AttemptWatch :=
  supervisor.watches.select fun watch => watch.registered && supervisor.restartableKeys.contains watch.watchId
    && (watch.state == .active || watch.state == .handlerDone)

-- `attempt` is a section of the supervisor, `commitRestart` a restart of any
-- jobs, `commit` any other transaction.
inductive MonitorLabel where
  | attempt (label : SupervisorLabel)
  | commitRestart (db : Database)
  | commit (db : Database)
  | wakeup
  | beginPoll (fallback : Bool)
  | readRevision (fails : Bool)
  | listWatches
  | readExecutions (fails : Bool)
  | cancelNext

-- No transaction but a restart takes a job's execution from an attempt that runs.
def keepsLeases (monitor : RestartMonitor) (db : Database) : Bool :=
  monitor.supervisor.watches.rows.all fun watch =>
    watch.state != .active || !runsLease monitor.db watch || runsLease db watch

def monitorStep (monitor : RestartMonitor) : MonitorLabel → Option RestartMonitor
  | .attempt label =>
      (supervisorStep monitor.supervisor label).map fun supervisor => { monitor with supervisor := supervisor }
  | .commitRestart db =>
      if db.jobRestartRevision = monitor.db.jobRestartRevision + 1 then some { monitor with db := db } else none
  | .commit db =>
      if db.jobRestartRevision = monitor.db.jobRestartRevision ∧ keepsLeases monitor db then some { monitor with db := db }
      else none
  | .wakeup => some { monitor with restartEventPending := true }
  | .beginPoll fallback =>
      match monitor.phase with
      | .idle =>
          if monitor.supervisor.restartableKeys ≠ [] ∧ (monitor.restartEventPending || fallback) then
            some { monitor with restartEventPending := false, phase := .revisionDue }
          else none
      | _ => none
  | .readRevision fails =>
      match monitor.phase with
      | .revisionDue =>
          let current := monitor.db.jobRestartRevision
          if fails then some { monitor with phase := .idle }
          else if current = monitor.restartRevision then some { monitor with phase := .idle }
          else some { monitor with restartRevision := current, phase := .listing }
      | _ => none
  | .listWatches =>
      match monitor.phase with
      | .listing => some { monitor with phase := .reading (restartWatches monitor.supervisor) }
      | _ => none
  | .readExecutions fails =>
      match monitor.phase with
      | .reading listed =>
          if fails then some { monitor with phase := .idle }
          else some { monitor with phase := .cancelling (listed.filter fun watch => !runsLease monitor.db watch) }
      | _ => none
  | .cancelNext =>
      match monitor.phase with
      | .cancelling [] => some { monitor with phase := .idle }
      | .cancelling (watch :: rest) =>
          some { monitor with
            supervisor := cancelExecution monitor.supervisor watch.nodeName watch.jobId watch.generation watch.executionId
            phase := .cancelling rest }
      | _ => none

def MonitorStep (monitor : RestartMonitor) (label : MonitorLabel) (next : RestartMonitor) : Prop :=
  monitorStep monitor label = some next

-- The signal is heeded: the read of the executions fails only when no listed attempt was restarted, and an
-- attempt is registered while its execution is current or the poll that will list it is still to come.
def Heeded (monitor : RestartMonitor) : MonitorLabel → Prop
  | .attempt (.createAttempt _ nodeName jobId generation (some executionId) _ _) =>
      activeJobExecution monitor.db (nodeName, jobId) = some (generation, executionId) ∨
        monitor.restartRevision ≠ monitor.db.jobRestartRevision ∨ monitor.phase = .listing
  | .readExecutions true => ∀ listed, monitor.phase = .reading listed → ∀ watch ∈ listed, runsLease monitor.db watch = true
  | _ => True

def HeededStep (monitor : RestartMonitor) (label : MonitorLabel) (next : RestartMonitor) : Prop :=
  MonitorStep monitor label next ∧ Heeded monitor label

section Rows

variable {supervisor next : Supervisor} {watch changed : AttemptWatch} {label : SupervisorLabel}

def AttemptWatch.identity (watch : AttemptWatch) : String × String × Nat × Nat × Option String :=
  (watch.watchId, watch.nodeName, watch.jobId, watch.generation, watch.executionId)

theorem identity_fields {other : AttemptWatch} (same : watch.identity = other.identity) :
    watch.watchId = other.watchId ∧ watch.nodeName = other.nodeName ∧ watch.jobId = other.jobId ∧
      watch.generation = other.generation ∧ watch.executionId = other.executionId := by
  simpa only [AttemptWatch.identity, Prod.mk.injEq] using same

theorem identity_runs {other : AttemptWatch} (same : watch.identity = other.identity) (db : Database) :
    runsLease db watch = runsLease db other := by
  obtain ⟨_, node, job, generation, execution⟩ := identity_fields same
  simp only [runsLease, AttemptWatch.lease, AttemptWatch.address, node, job, generation, execution]

def ActiveKept (supervisor next : Supervisor) : Prop :=
  ∀ watch ∈ next.watches.rows, watch.state = .active → ∃ old ∈ supervisor.watches.rows, old.state = .active ∧
    watch.identity = old.identity ∧ (old.watchId ∈ supervisor.restartableKeys → old.watchId ∈ next.restartableKeys)

theorem ActiveKept.refl (supervisor : Supervisor) : ActiveKept supervisor supervisor :=
  fun watch listed active => ⟨watch, listed, active, rfl, fun key => key⟩

theorem ActiveKept.unmoved (watches : next.watches = supervisor.watches)
    (keys : next.restartableKeys = supervisor.restartableKeys) :
    ActiveKept supervisor next := by
  intro watch listed active
  rw [watches] at listed
  rw [keys]
  exact ⟨watch, listed, active, rfl, fun key => key⟩

theorem ActiveKept.trans {middle : Supervisor} (first : ActiveKept supervisor middle) (second : ActiveKept middle next) :
    ActiveKept supervisor next := by
  intro watch listed active
  obtain ⟨between, row, still, same, key⟩ := second watch listed active
  obtain ⟨old, oldRow, oldActive, oldSame, oldKey⟩ := first between row still
  refine ⟨old, oldRow, oldActive, same.trans oldSame, fun held => ?_⟩
  have id := (identity_fields oldSame).1
  exact id ▸ key (id ▸ oldKey held)

theorem push_keys (supervisor : Supervisor) (watch : AttemptWatch) (kind : DeadlineKind) (deadline : Option Moment) :
    (pushDeadline supervisor watch kind deadline).restartableKeys = supervisor.restartableKeys := by
  cases deadline with
  | none => rfl
  | some deadline => rfl

theorem schedule_keys (supervisor : Supervisor) (watch : AttemptWatch) :
    (scheduleWatch supervisor watch).restartableKeys = supervisor.restartableKeys := by
  by_cases waits : 0 < watch.externalWaitDepth
  · rw [scheduleWatch, if_pos waits, push_keys, push_keys]
  · rw [scheduleWatch, if_neg waits, push_keys, push_keys]

theorem compact_keys (supervisor : Supervisor) :
    (compactDeadlines supervisor).restartableKeys = supervisor.restartableKeys := by
  by_cases short : supervisor.deadlines.length ≤ max 256 ((registeredWatches supervisor).length * 8)
  · rw [compactDeadlines, if_pos short]
  · rw [compactDeadlines, if_neg short]
    have folded : ∀ (watches : List AttemptWatch) (start : Supervisor),
        (watches.foldl scheduleWatch start).restartableKeys = start.restartableKeys := by
      intro watches
      induction watches with
      | nil => intro start; rfl
      | cons watch rest ih =>
          intro start
          rw [List.foldl_cons, ih, schedule_keys]
    rw [folded]

theorem compact_kept (supervisor : Supervisor) : ActiveKept supervisor (compactDeadlines supervisor) :=
  .unmoved (compact_unchanged supervisor).1 (compact_keys supervisor)

theorem schedule_kept (supervisor : Supervisor) (watch : AttemptWatch) : ActiveKept supervisor (scheduleWatch supervisor watch) :=
  .unmoved (schedule_unchanged supervisor watch).1 (schedule_keys supervisor watch)

theorem set_watch_kept (member : watch ∈ supervisor.watches.rows) (same : changed.identity = watch.identity)
    (still : changed.state = .active → watch.state = .active)
    (rows : next.watches = (setWatch supervisor changed).watches)
    (keys : ∀ key ∈ supervisor.restartableKeys, (key = watch.watchId → changed.state = .active) → key ∈ next.restartableKeys) :
    ActiveKept supervisor next := by
  intro other listed active
  rw [rows] at listed
  have id := (identity_fields same).1
  cases mem_set_watch listed with
  | inl own =>
      rw [own] at active ⊢
      exact ⟨watch, member, still active, same, fun held => keys _ held fun _ => active⟩
  | inr old =>
      exact ⟨other, old.1, active, rfl, fun held => keys _ held fun equal => absurd (equal.trans id.symm) old.2⟩

theorem stored_kept (member : watch ∈ supervisor.watches.rows) (same : changed.identity = watch.identity)
    (still : changed.state = .active → watch.state = .active) : ActiveKept supervisor (setWatch supervisor changed) :=
  set_watch_kept member same still rfl fun _ held _ => held

theorem dropped_key_kept (member : watch ∈ supervisor.watches.rows) (same : changed.identity = watch.identity)
    (concluded : changed.state ≠ .active) (rows : next.watches = (setWatch supervisor changed).watches)
    (keys : next.restartableKeys = supervisor.restartableKeys.filter (· ≠ watch.watchId)) : ActiveKept supervisor next := by
  apply set_watch_kept member same (fun active => absurd active concluded) rows
  intro key held ended
  rw [keys, List.mem_filter]
  exact ⟨held, by simpa using fun equal => concluded (ended equal)⟩

theorem expire_entry_kept (supervisor : Supervisor) (entry : DeadlineEntry) :
    ActiveKept supervisor (expireEntry supervisor entry) := by
  cases expire_entry_cases supervisor entry with
  | inl same =>
      rw [same]
      exact .refl supervisor
  | inr timed =>
      obtain ⟨watch, member, _, _, same⟩ := timed
      rw [same]
      exact @dropped_key_kept supervisor (timeOut supervisor watch entry.kind) watch
        { watch with state := .timedOut, timeoutKind := some entry.kind, revision := watch.revision + 1 }
        member rfl (by simp) rfl rfl

theorem pop_due_kept (supervisor : Supervisor) (entries : List DeadlineEntry) :
    ActiveKept supervisor (popDue supervisor entries) := by
  induction entries generalizing supervisor with
  | nil => exact .unmoved rfl rfl
  | cons entry rest ih =>
      rw [popDue]
      by_cases early : supervisor.clock < entry.deadline
      · rw [if_pos early]
        exact .unmoved rfl rfl
      · rw [if_neg early]
        exact (expire_entry_kept supervisor entry).trans (ih (expireEntry supervisor entry))

theorem cancel_kept (supervisor : Supervisor) (nodeName : String) (jobId generation : Nat) (executionId : Option String) :
    ActiveKept supervisor (cancelExecution supervisor nodeName jobId generation executionId) := by
  intro other listed active
  obtain ⟨old, member, same⟩ := List.mem_map.mp listed
  by_cases matching : cancels nodeName jobId generation executionId old = true
  · rw [if_pos matching] at same
    rw [← same] at active
    exact absurd active (by simp [supersedeWatch])
  · rw [if_neg matching] at same
    subst same
    refine ⟨old, member, active, rfl, fun held => ?_⟩
    rw [cancelExecution, List.mem_filter]
    refine ⟨held, ?_⟩
    rw [decide_eq_true_eq, List.mem_map]
    intro found
    obtain ⟨cancelled, row, id⟩ := found
    obtain ⟨inside, matched⟩ := Table.mem_select.mp row
    rw [Table.rows_inj inside member id] at matched
    exact matching matched

theorem begin_kept (member : watch ∈ supervisor.watches.rows) :
    ActiveKept supervisor (beginHandlerExecution supervisor watch) := by
  by_cases active : watch.state = .active
  · rw [beginHandlerExecution, if_neg (by simpa using active)]
    by_cases supervised : watch.supervised = true
    · simp only [supervised, if_true]
      refine (compact_kept supervisor).trans (.trans ?_ (schedule_kept _ _))
      apply stored_kept (compact_row member)
      · rfl
      · exact fun _ => active
    · simp only [supervised, Bool.false_eq_true, if_false]
      apply stored_kept member
      · rfl
      · exact fun _ => active
  · rw [beginHandlerExecution, if_pos active]
    exact .refl supervisor

theorem report_kept (member : watch ∈ supervisor.watches.rows) (timeout : Option Moment) :
    ActiveKept supervisor (reportCheckpoint supervisor watch timeout) := by
  by_cases dynamic : timeout.isSome ∧ !watch.supervised
  · rw [reportCheckpoint, if_pos dynamic]
    exact .refl supervisor
  · rw [reportCheckpoint, if_neg dynamic]
    by_cases active : watch.state = .active
    · rw [if_neg (by simpa using active)]
      cases timeout <|> watch.defaultCheckpointTimeout with
      | none => exact .refl supervisor
      | some effective =>
          refine .trans (.trans ?_ (schedule_kept _ _)) (compact_kept _)
          apply stored_kept member
          · rfl
          · exact fun _ => active
    · rw [if_pos active]
      exact .refl supervisor

theorem rearm_kept (member : watch ∈ supervisor.watches.rows) (effective : Moment) :
    ActiveKept supervisor (rearmCheckpoint supervisor watch effective) := by
  by_cases active : watch.state = .active
  · rw [rearmCheckpoint, if_neg (by simpa using active)]
    refine (compact_kept supervisor).trans (.trans ?_ (schedule_kept _ _))
    apply stored_kept (compact_row member)
    · rfl
    · exact fun _ => active
  · rw [rearmCheckpoint, if_pos active]
    exact .refl supervisor

theorem begin_wait_kept (member : watch ∈ supervisor.watches.rows) (entered lease : Moment) (deferLeaseStart : Bool) :
    ActiveKept supervisor (beginExternalWait supervisor watch entered lease deferLeaseStart) := by
  by_cases active : watch.state = .active
  · rw [beginExternalWait, if_neg (by simpa using active)]
    refine .trans (.trans ?_ (schedule_kept _ _)) (compact_kept _)
    apply stored_kept member
    · rfl
    · exact fun _ => active
  · rw [beginExternalWait, if_pos active]
    exact .refl supervisor

theorem renew_wait_kept (member : watch ∈ supervisor.watches.rows) :
    ActiveKept supervisor (renewExternalWait supervisor watch) := by
  by_cases idle : watch.state ≠ .active ∨ watch.externalWaitDepth = 0
  · rw [renewExternalWait, if_pos idle]
    exact .refl supervisor
  · rw [renewExternalWait, if_neg idle]
    cases watch.externalWaitTimeout with
    | none => exact .refl supervisor
    | some lease =>
        refine (compact_kept supervisor).trans (.trans ?_ (schedule_kept _ _))
        apply stored_kept (compact_row member)
        · rfl
        · exact fun active => active

theorem ended_wait_identity (clock : Moment) (watch : AttemptWatch) : (endedWait clock watch).identity = watch.identity := by
  by_cases last : watch.externalWaitDepth - 1 = 0
  · simp only [endedWait, last, if_true, AttemptWatch.identity]
  · simp only [endedWait, last, if_false, AttemptWatch.identity]

theorem end_wait_kept (member : watch ∈ supervisor.watches.rows) : ActiveKept supervisor (endExternalWait supervisor watch) := by
  have same := ended_wait_identity supervisor.clock watch
  have state := (ended_wait_fields supervisor.clock watch).2.2.1
  by_cases idle : watch.externalWaitDepth = 0
  · rw [endExternalWait, if_pos idle]
    exact .refl supervisor
  · rw [endExternalWait, if_neg idle]
    by_cases active : watch.state = .active
    · simp only [active, if_true]
      refine (compact_kept supervisor).trans (.trans ?_ (schedule_kept _ _))
      exact stored_kept (compact_row member) same fun _ => active
    · simp only [active, if_false]
      exact stored_kept member same fun still => state ▸ still

theorem signal_kept (member : watch ∈ supervisor.watches.rows) :
    ActiveKept supervisor (signalHandlerComplete supervisor watch) := by
  by_cases passive : (!watch.supervised) = true
  · rw [signalHandlerComplete, if_pos passive]
    apply stored_kept member
    · rfl
    · exact fun still => absurd still (by simp)
  · rw [signalHandlerComplete, if_neg passive]
    by_cases active : watch.state = .active
    · rw [if_pos active]
      apply stored_kept member
      · rfl
      · exact fun still => absurd still (by simp)
    · rw [if_neg active]
      exact .refl supervisor

theorem finish_kept (member : watch ∈ supervisor.watches.rows) (failed : Bool) :
    ActiveKept supervisor (supervisor.finishAttempt watch failed) :=
  @dropped_key_kept supervisor (supervisor.finishAttempt watch failed) watch
    { watch with
      registered := false
      state := if watch.state = .timedOut ∨ watch.state = .superseded then watch.state
        else if failed then .failed
        else .completed
      revision := watch.revision + 1 } member rfl (finish_state watch failed) rfl rfl

theorem marker_kept (member : watch ∈ supervisor.watches.rows) (same : changed.identity = watch.identity)
    (state : changed.state = watch.state) (recorded : List (String × Marker)) :
    ActiveKept supervisor { setWatch supervisor changed with recorded := recorded } :=
  set_watch_kept member same (fun active => state ▸ active) rfl fun _ held _ => held

theorem section_kept (stepped : SupervisorStep supervisor label next) :
    ActiveKept supervisor next ∨ ∃ watchId nodeName jobId generation executionId totalTimeout checkpointTimeout,
      label = .createAttempt watchId nodeName jobId generation executionId totalTimeout checkpointTimeout := by
  cases label with
  | createAttempt watchId nodeName jobId generation executionId totalTimeout checkpointTimeout =>
      exact .inr ⟨_, _, _, _, _, _, _, rfl⟩
  | tick elapsed =>
      obtain ⟨_, ⟨⟩⟩ := Option.ite_none_right_eq_some.mp stepped
      exact .inl (.unmoved rfl rfl)
  | nextValidDeadline =>
      cases stepped
      exact .inl (.unmoved rfl rfl)
  | beginHandlerExecution watchId =>
      obtain ⟨watch, found, begun⟩ := Option.bind_eq_some_iff.mp stepped
      obtain ⟨_, ⟨⟩⟩ := Option.ite_none_left_eq_some.mp begun
      exact .inl (begin_kept (Table.find_mem found))
  | reportCheckpoint watchId timeout =>
      obtain ⟨watch, member, _, rfl⟩ := handler_step stepped
      exact .inl (report_kept member timeout)
  | rearmCheckpoint watchId effective =>
      obtain ⟨watch, found, begun⟩ := Option.bind_eq_some_iff.mp stepped
      obtain ⟨_, ⟨⟩⟩ := Option.ite_none_right_eq_some.mp begun
      exact .inl (rearm_kept (Table.find_mem found) effective)
  | recordHandlerExit watchId revision time =>
      obtain ⟨watch, member, _, rfl⟩ := handler_step stepped
      refine .inl (marker_kept member ?_ ?_ _)
      · rfl
      · rfl
  | recordWaitEntry watchId revision time =>
      obtain ⟨watch, member, _, rfl⟩ := handler_step stepped
      refine .inl (marker_kept member ?_ ?_ _)
      · rfl
      · rfl
  | recordRenewalEntry watchId deadline time =>
      obtain ⟨watch, member, _, rfl⟩ := handler_step stepped
      refine .inl (marker_kept member ?_ ?_ _)
      · rfl
      · rfl
  | beginExternalWait watchId entered lease deferLeaseStart =>
      obtain ⟨watch, member, _, rfl⟩ := handler_step stepped
      exact .inl (begin_wait_kept member entered lease deferLeaseStart)
  | renewExternalWait watchId =>
      obtain ⟨watch, member, _, rfl⟩ := handler_step stepped
      exact .inl (renew_wait_kept member)
  | endExternalWait watchId =>
      obtain ⟨watch, member, _, rfl⟩ := handler_step stepped
      exact .inl (end_wait_kept member)
  | signalHandlerComplete watchId =>
      obtain ⟨watch, found, rfl⟩ := Option.map_eq_some_iff.mp stepped
      exact .inl (signal_kept (Table.find_mem found))
  | finishAttempt watchId failed =>
      obtain ⟨watch, found, rfl⟩ := Option.map_eq_some_iff.mp stepped
      exact .inl (finish_kept (Table.find_mem found) failed)
  | cancelExecution nodeName jobId generation executionId =>
      cases stepped
      exact .inl (cancel_kept supervisor nodeName jobId generation executionId)
  | expireDeadlines =>
      cases stepped
      exact .inl (pop_due_kept supervisor supervisor.deadlines)

end Rows

end MicroWorkflow
