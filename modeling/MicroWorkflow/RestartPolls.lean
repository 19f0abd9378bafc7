import MicroWorkflow.RestartSignals

set_option autoImplicit false

namespace MicroWorkflow

open Lib (Table Run)

def PollPhase.awaits (phase : PollPhase) (watch : AttemptWatch) : Prop :=
  match phase with
  | .idle | .revisionDue => False
  | .listing => True
  | .reading listed => ∃ other ∈ listed, other.identity = watch.identity
  | .cancelling stale => ∃ other ∈ stale, other.identity = watch.identity

structure SignalAccounted (monitor : RestartMonitor) : Prop where
  heap : HeapAccounted monitor.supervisor
  behind : monitor.restartRevision ≤ monitor.db.jobRestartRevision
  tracked : ∀ watch ∈ monitor.supervisor.watches.rows, watch.state = .active → watch.executionId.isSome = true →
    watch.watchId ∈ monitor.supervisor.restartableKeys
  signal : monitor.restartRevision = monitor.db.jobRestartRevision → ∀ watch ∈ monitor.supervisor.watches.rows,
    watch.state = .active → watch.executionId.isSome = true → runsLease monitor.db watch = true ∨ monitor.phase.awaits watch

section Polls

variable {monitor next : RestartMonitor} {label : MonitorLabel} {supervisor : Supervisor} {watch other : AttemptWatch}

theorem awaits_identity {phase : PollPhase} (same : watch.identity = other.identity) (waits : phase.awaits other) :
    phase.awaits watch := by
  cases phase with
  | idle => exact waits
  | revisionDue => exact waits
  | listing => exact trivial
  | reading listed =>
      obtain ⟨listedWatch, member, equal⟩ := waits
      exact ⟨listedWatch, member, equal.trans same.symm⟩
  | cancelling stale =>
      obtain ⟨staleWatch, member, equal⟩ := waits
      exact ⟨staleWatch, member, equal.trans same.symm⟩

theorem start_accounted (db : Database) : SignalAccounted (RestartMonitor.start db) where
  heap := initial_accounted
  behind := Nat.le_refl _
  tracked := fun _ listed => absurd listed List.not_mem_nil
  signal := fun _ _ listed => absurd listed List.not_mem_nil

theorem kept_accounted (accounted : SignalAccounted monitor) (heap : HeapAccounted supervisor)
    (kept : ActiveKept monitor.supervisor supervisor) : SignalAccounted { monitor with supervisor := supervisor } := by
  refine ⟨heap, accounted.behind, ?_, ?_⟩
  · intro watch listed active owned
    obtain ⟨old, row, still, same, key⟩ := kept watch listed active
    obtain ⟨id, _, _, _, execution⟩ := identity_fields same
    rw [id]
    exact key (accounted.tracked old row still (execution ▸ owned))
  · intro equal watch listed active owned
    obtain ⟨old, row, still, same, _⟩ := kept watch listed active
    obtain ⟨_, _, _, _, execution⟩ := identity_fields same
    cases accounted.signal equal old row still (execution ▸ owned) with
    | inl runs => exact .inl ((identity_runs same monitor.db).trans runs)
    | inr waits => exact .inr (awaits_identity same waits)

theorem created_accounted {watchId nodeName : String} {jobId generation : Nat} {executionId : Option String}
    {totalTimeout checkpointTimeout : Option Moment} (accounted : SignalAccounted monitor)
    (heeded : Heeded monitor
      (.attempt (.createAttempt watchId nodeName jobId generation executionId totalTimeout checkpointTimeout)))
    (created : createAttempt monitor.supervisor watchId nodeName jobId generation executionId totalTimeout checkpointTimeout =
      some supervisor) : SignalAccounted { monitor with supervisor := supervisor } := by
  have heap := create_accounted accounted.heap created
  rw [createAttempt, Option.map_eq_some_iff] at created
  obtain ⟨watches, inserted, rfl⟩ := created
  have keys : ∀ key ∈ monitor.supervisor.restartableKeys,
      key ∈ (if executionId.isSome then monitor.supervisor.restartableKeys ++ [watchId]
        else monitor.supervisor.restartableKeys) := by
    intro key held
    by_cases owned : executionId.isSome = true
    · rw [if_pos owned]
      exact List.mem_append_left _ held
    · rw [if_neg owned]
      exact held
  refine ⟨heap, accounted.behind, ?_, ?_⟩
  · intro watch listed active owned
    cases (Table.mem_insert inserted).mp listed with
    | inl old => exact keys _ (accounted.tracked watch old active owned)
    | inr new =>
        subst new
        simp only at owned ⊢
        rw [if_pos owned]
        exact List.mem_append_right _ (List.mem_singleton_self _)
  · intro equal watch listed active owned
    cases (Table.mem_insert inserted).mp listed with
    | inl old => exact accounted.signal equal watch old active owned
    | inr new =>
        subst new
        cases executionId with
        | none => exact absurd owned (by simp)
        | some executionId =>
            cases heeded with
            | inl current =>
                left
                simp [runsLease, AttemptWatch.lease, AttemptWatch.address, current]
            | inr rest =>
                cases rest with
                | inl apart => exact absurd equal apart
                | inr listing =>
                    right
                    simp only [listing, PollPhase.awaits]

theorem listed_watch (accounted : SignalAccounted monitor) (member : watch ∈ monitor.supervisor.watches.rows)
    (active : watch.state = .active) (owned : watch.executionId.isSome = true) :
    watch ∈ restartWatches monitor.supervisor := by
  have registered := (accounted.heap.watch watch member).shaped.registered active
  have key := accounted.tracked watch member active owned
  refine Table.mem_select.mpr ⟨member, ?_⟩
  simp [registered, key, active]

theorem cancelled_watch (heap : HeapAccounted supervisor) {stale : AttemptWatch}
    (member : watch ∈ (cancelExecution supervisor stale.nodeName stale.jobId stale.generation stale.executionId).watches.rows)
    (active : watch.state = .active) : watch ∈ supervisor.watches.rows ∧ stale.identity ≠ watch.identity := by
  obtain ⟨old, row, same⟩ := List.mem_map.mp member
  by_cases matching : cancels stale.nodeName stale.jobId stale.generation stale.executionId old = true
  · rw [if_pos matching] at same
    rw [← same] at active
    exact absurd active (by simp [supersedeWatch])
  · rw [if_neg matching] at same
    subst same
    refine ⟨row, fun equal => matching ?_⟩
    obtain ⟨_, node, job, generation, execution⟩ := identity_fields equal
    have registered := (heap.watch old row).shaped.registered active
    simp [cancels, registered, node, job, generation, execution, active]

theorem attempt_accounted {section_ : SupervisorLabel} (accounted : SignalAccounted monitor)
    (heeded : Heeded monitor (.attempt section_)) (stepped : SupervisorStep monitor.supervisor section_ supervisor) :
    SignalAccounted { monitor with supervisor := supervisor } := by
  have heap := supervisor_step_accounted accounted.heap stepped
  cases section_kept stepped with
  | inl kept => exact kept_accounted accounted heap kept
  | inr created =>
      obtain ⟨watchId, nodeName, jobId, generation, executionId, totalTimeout, checkpointTimeout, rfl⟩ := created
      exact created_accounted accounted heeded stepped

theorem commit_accounted {db : Database} (accounted : SignalAccounted monitor)
    (revision : db.jobRestartRevision = monitor.db.jobRestartRevision) (kept : keepsLeases monitor db = true) :
    SignalAccounted { monitor with db := db } := by
  refine ⟨accounted.heap, by rw [revision]; exact accounted.behind, accounted.tracked, ?_⟩
  intro equal watch listed active owned
  rw [revision] at equal
  cases accounted.signal equal watch listed active owned with
  | inr waits => exact .inr waits
  | inl runs =>
      left
      have held := List.all_eq_true.mp kept watch listed
      simpa [active, runs] using held

theorem idle_accounted (accounted : SignalAccounted monitor)
    (concluded : ∀ watch ∈ monitor.supervisor.watches.rows, watch.state = .active → watch.executionId.isSome = true →
      monitor.phase.awaits watch → runsLease monitor.db watch = true) :
    SignalAccounted { monitor with phase := .idle } := by
  refine ⟨accounted.heap, accounted.behind, accounted.tracked, ?_⟩
  intro equal watch listed active owned
  cases accounted.signal equal watch listed active owned with
  | inl runs => exact .inl runs
  | inr waits => exact .inl (concluded watch listed active owned waits)

inductive MonitorMove (monitor : RestartMonitor) : MonitorLabel → RestartMonitor → Prop where
  | attempt {section_ : SupervisorLabel} {supervisor : Supervisor}
      (moved : SupervisorStep monitor.supervisor section_ supervisor) :
      MonitorMove monitor (.attempt section_) { monitor with supervisor := supervisor }
  | commitRestart {db : Database} (raised : db.jobRestartRevision = monitor.db.jobRestartRevision + 1) :
      MonitorMove monitor (.commitRestart db) { monitor with db := db }
  | commit {db : Database} (same : db.jobRestartRevision = monitor.db.jobRestartRevision)
      (kept : keepsLeases monitor db = true) : MonitorMove monitor (.commit db) { monitor with db := db }
  | wakeup : MonitorMove monitor .wakeup { monitor with restartEventPending := true }
  | beginPoll {fallback : Bool} (phase : monitor.phase = .idle) :
      MonitorMove monitor (.beginPoll fallback) { monitor with restartEventPending := false, phase := .revisionDue }
  | revisionFails (phase : monitor.phase = .revisionDue) :
      MonitorMove monitor (.readRevision true) { monitor with phase := .idle }
  | sameRevision (phase : monitor.phase = .revisionDue) (same : monitor.db.jobRestartRevision = monitor.restartRevision) :
      MonitorMove monitor (.readRevision false) { monitor with phase := .idle }
  | newRevision (phase : monitor.phase = .revisionDue) : MonitorMove monitor (.readRevision false)
      { monitor with restartRevision := monitor.db.jobRestartRevision, phase := .listing }
  | listWatches (phase : monitor.phase = .listing) :
      MonitorMove monitor .listWatches { monitor with phase := .reading (restartWatches monitor.supervisor) }
  | readFails {listed : List AttemptWatch} (phase : monitor.phase = .reading listed) :
      MonitorMove monitor (.readExecutions true) { monitor with phase := .idle }
  | readExecutions {listed : List AttemptWatch} (phase : monitor.phase = .reading listed) :
      MonitorMove monitor (.readExecutions false)
        { monitor with phase := .cancelling (listed.filter fun watch => !runsLease monitor.db watch) }
  | cancelled (phase : monitor.phase = .cancelling []) : MonitorMove monitor .cancelNext { monitor with phase := .idle }
  | cancelNext {watch : AttemptWatch} {rest : List AttemptWatch} (phase : monitor.phase = .cancelling (watch :: rest)) :
      MonitorMove monitor .cancelNext { monitor with
        supervisor := cancelExecution monitor.supervisor watch.nodeName watch.jobId watch.generation watch.executionId
        phase := .cancelling rest }

theorem monitor_step_move (step : MonitorStep monitor label next) : MonitorMove monitor label next := by
  rw [MonitorStep] at step
  cases label with
  | attempt section_ =>
      obtain ⟨supervisor, moved, rfl⟩ := Option.map_eq_some_iff.mp step
      exact .attempt moved
  | commitRestart db =>
      obtain ⟨raised, ⟨⟩⟩ := Option.ite_none_right_eq_some.mp step
      exact .commitRestart raised
  | commit db =>
      obtain ⟨allowed, ⟨⟩⟩ := Option.ite_none_right_eq_some.mp step
      exact .commit allowed.1 allowed.2
  | wakeup =>
      cases step
      exact .wakeup
  | beginPoll fallback =>
      rw [monitorStep] at step
      cases phase : monitor.phase with
      | idle =>
          rw [phase] at step
          obtain ⟨_, ⟨⟩⟩ := Option.ite_none_right_eq_some.mp step
          exact .beginPoll phase
      | _ => rw [phase] at step; cases step
  | readRevision fails =>
      rw [monitorStep] at step
      cases phase : monitor.phase with
      | revisionDue =>
          rw [phase] at step
          cases fails with
          | true =>
              cases step
              exact .revisionFails phase
          | false =>
              by_cases same : monitor.db.jobRestartRevision = monitor.restartRevision
              · simp only [Bool.false_eq_true, if_false, if_pos same] at step
                cases step
                exact .sameRevision phase same
              · simp only [Bool.false_eq_true, if_false, if_neg same] at step
                cases step
                exact .newRevision phase
      | _ => rw [phase] at step; cases step
  | listWatches =>
      rw [monitorStep] at step
      cases phase : monitor.phase with
      | listing =>
          rw [phase] at step
          cases step
          exact .listWatches phase
      | _ => rw [phase] at step; cases step
  | readExecutions fails =>
      rw [monitorStep] at step
      cases phase : monitor.phase with
      | reading listed =>
          rw [phase] at step
          cases fails with
          | true =>
              cases step
              exact .readFails phase
          | false =>
              cases step
              exact .readExecutions phase
      | _ => rw [phase] at step; cases step
  | cancelNext =>
      rw [monitorStep] at step
      cases phase : monitor.phase with
      | cancelling stale =>
          rw [phase] at step
          cases stale with
          | nil =>
              cases step
              exact .cancelled phase
          | cons first rest =>
              cases step
              exact .cancelNext phase
      | _ => rw [phase] at step; cases step

theorem read_accounted {listed : List AttemptWatch} (accounted : SignalAccounted monitor)
    (phase : monitor.phase = .reading listed) :
    SignalAccounted { monitor with phase := .cancelling (listed.filter fun watch => !runsLease monitor.db watch) } := by
  refine ⟨accounted.heap, accounted.behind, accounted.tracked, fun equal watch inside active owned => ?_⟩
  by_cases runs : runsLease monitor.db watch = true
  · exact .inl runs
  · right
    have waits := (accounted.signal equal watch inside active owned).resolve_left runs
    rw [phase] at waits
    obtain ⟨other, member, same⟩ := waits
    refine ⟨other, List.mem_filter.mpr ⟨member, ?_⟩, same⟩
    rw [identity_runs same]
    simpa using runs

theorem cancel_next_accounted {first : AttemptWatch} {rest : List AttemptWatch} (accounted : SignalAccounted monitor)
    (phase : monitor.phase = .cancelling (first :: rest)) :
    SignalAccounted { monitor with
      supervisor := cancelExecution monitor.supervisor first.nodeName first.jobId first.generation first.executionId
      phase := .cancelling rest } := by
  have heap := cancel_accounted accounted.heap first.nodeName first.jobId first.generation first.executionId
  have kept := kept_accounted accounted heap
    (cancel_kept monitor.supervisor first.nodeName first.jobId first.generation first.executionId)
  refine ⟨heap, accounted.behind, kept.tracked, fun equal watch listed active owned => ?_⟩
  obtain ⟨row, apart⟩ := cancelled_watch accounted.heap listed active
  cases accounted.signal equal watch row active owned with
  | inl runs => exact .inl runs
  | inr waits =>
      right
      rw [phase] at waits
      obtain ⟨other, member, same⟩ := waits
      cases List.mem_cons.mp member with
      | inl head => exact absurd (head ▸ same) apart
      | inr later => exact ⟨other, later, same⟩

theorem unawaited (phase : monitor.phase = .revisionDue) : ¬monitor.phase.awaits watch := by
  rw [phase]
  exact id

theorem monitor_step_accounted (accounted : SignalAccounted monitor) (stepped : HeededStep monitor label next) :
    SignalAccounted next := by
  obtain ⟨step, heeded⟩ := stepped
  cases monitor_step_move step with
  | attempt moved => exact attempt_accounted accounted heeded moved
  | @commitRestart db raised =>
      have behind := accounted.behind
      refine ⟨accounted.heap, ?_, accounted.tracked, fun equal => ?_⟩
      · show monitor.restartRevision ≤ db.jobRestartRevision
        omega
      · have equal : monitor.restartRevision = db.jobRestartRevision := equal
        omega
  | commit same kept => exact commit_accounted accounted same kept
  | wakeup => exact ⟨accounted.heap, accounted.behind, accounted.tracked, accounted.signal⟩
  | beginPoll phase =>
      have signal := accounted.signal
      rw [phase] at signal
      exact ⟨accounted.heap, accounted.behind, accounted.tracked, signal⟩
  | revisionFails phase => exact idle_accounted accounted fun _ _ _ _ waits => absurd waits (unawaited phase)
  | sameRevision phase _ => exact idle_accounted accounted fun _ _ _ _ waits => absurd waits (unawaited phase)
  | newRevision _ => exact ⟨accounted.heap, Nat.le_refl _, accounted.tracked, fun _ _ _ _ _ => .inr trivial⟩
  | listWatches _ =>
      refine ⟨accounted.heap, accounted.behind, accounted.tracked, fun _ watch listed active owned => .inr ?_⟩
      exact ⟨watch, listed_watch accounted listed active owned, rfl⟩
  | @readFails listed phase =>
      apply idle_accounted accounted
      intro watch _ _ _ waits
      rw [phase] at waits
      obtain ⟨other, member, same⟩ := waits
      rw [← identity_runs same]
      exact heeded listed phase other member
  | readExecutions phase => exact read_accounted accounted phase
  | cancelled phase =>
      apply idle_accounted accounted
      intro watch _ _ _ waits
      rw [phase] at waits
      obtain ⟨other, member, _⟩ := waits
      exact absurd member List.not_mem_nil
  | cancelNext phase => exact cancel_next_accounted accounted phase

theorem revision_kept (stepped : MonitorStep monitor label next) (other : ∀ db, label ≠ .commitRestart db)
    (recorded : monitor.restartRevision = monitor.db.jobRestartRevision) :
    next.restartRevision = next.db.jobRestartRevision := by
  cases monitor_step_move stepped with
  | commitRestart _ => exact absurd rfl (other _)
  | commit same _ => exact recorded.trans same.symm
  | newRevision _ => rfl
  | _ => exact recorded

theorem read_records (stepped : MonitorStep monitor (.readRevision false) next) :
    next.restartRevision = next.db.jobRestartRevision := by
  cases monitor_step_move stepped with
  | sameRevision _ same => exact same.symm
  | newRevision _ => rfl

end Polls

section Signals

variable {db : Database} {reached polled last : RestartMonitor} {early late : List MonitorLabel}

theorem restart_signals_not_lost (before : Run HeededStep (RestartMonitor.start db) early reached)
    (read : HeededStep reached (.readRevision false) polled) (after : Run HeededStep polled late last)
    (settled : ∀ label ∈ late, ∀ next, label ≠ .commitRestart next) (concluded : last.phase = .idle) :
    ∀ watch ∈ last.supervisor.watches.rows, watch.state = .active → watch.executionId.isSome = true →
      runsLease last.db watch = true := by
  have first : SignalAccounted reached := before.invariant (start_accounted db) monitor_step_accounted
  have second := monitor_step_accounted first read
  have accounted : SignalAccounted last := after.invariant second monitor_step_accounted
  have recorded : last.restartRevision = last.db.jobRestartRevision :=
    @Run.invariant_of_labels _ _ HeededStep polled last late
      (fun monitor => monitor.restartRevision = monitor.db.jobRestartRevision) (fun label => ∀ next, label ≠ .commitRestart next)
      after settled (read_records read.1) fun held other stepped => revision_kept stepped.1 other held
  intro watch listed active owned
  cases accounted.signal recorded watch listed active owned with
  | inl runs => exact runs
  | inr waits =>
      rw [concluded] at waits
      exact absurd waits (fun nothing => nothing)

def solvingJob : Job where
  nodeName := "solve"
  jobId := 1
  status := .running
  statusJson := []
  generation := 0
  activeExecutionId := some "e1"
  activePid := some 7
  activeThreadId := some 8
  activeStartedAt := some 3
  restartRequestedAt := none
  restartRequestedByPid := none
  restartReason := none
  runtimeJson := none

def solvingDatabase : Database := { Database.empty with jobs := ⟨[solvingJob], List.nodup_singleton _⟩ }

def restartedDatabase : Database :=
  { Database.empty with
    jobs := ⟨[{ solvingJob with status := .queued, generation := 1, activeExecutionId := none }], List.nodup_singleton _⟩
    jobRestartRevision := 1 }

def solvingAttempt : MonitorLabel := .attempt (.createAttempt "w1" "solve" 1 0 (some "e1") none none)

def advance (monitor : RestartMonitor) (label : MonitorLabel) : RestartMonitor := (monitorStep monitor label).getD monitor

theorem heeded_snoc {start monitor : RestartMonitor} {labels : List MonitorLabel} (label : MonitorLabel)
    (run : Run HeededStep start labels monitor) (steps : (monitorStep monitor label).isSome = true)
    (heeded : Heeded monitor label) : Run HeededStep start (labels ++ [label]) (advance monitor label) := by
  refine .snoc run ⟨?_, heeded⟩
  obtain ⟨next, stepped⟩ := Option.isSome_iff_exists.mp steps
  rw [MonitorStep, advance, stepped, Option.getD_some]

theorem restart_reaches_attempt : ∃ reached polled last, Run HeededStep (RestartMonitor.start solvingDatabase)
      [solvingAttempt, .commitRestart restartedDatabase, .wakeup, .beginPoll false] reached ∧
    HeededStep reached (.readRevision false) polled ∧
    Run HeededStep polled [.listWatches, .readExecutions false, .cancelNext, .cancelNext] last ∧
    ∀ watch ∈ last.supervisor.watches.rows, watch.state = .active → watch.executionId.isSome = true →
      runsLease last.db watch = true := by
  have run : ∃ reached polled last, Run HeededStep (RestartMonitor.start solvingDatabase)
        [solvingAttempt, .commitRestart restartedDatabase, .wakeup, .beginPoll false] reached ∧
      HeededStep reached (.readRevision false) polled ∧
      Run HeededStep polled [.listWatches, .readExecutions false, .cancelNext, .cancelNext] last ∧
      last.phase = .idle := by
    have registered := heeded_snoc solvingAttempt (.nil (RestartMonitor.start solvingDatabase)) rfl (.inl rfl)
    have committed := heeded_snoc (.commitRestart restartedDatabase) registered rfl trivial
    have woken := heeded_snoc .wakeup committed rfl trivial
    have begun := heeded_snoc (.beginPoll false) woken rfl trivial
    have listed := heeded_snoc .listWatches
      (.nil (advance (advance (advance (advance (advance (RestartMonitor.start solvingDatabase) solvingAttempt)
        (.commitRestart restartedDatabase)) .wakeup) (.beginPoll false)) (.readRevision false))) rfl trivial
    have compared := heeded_snoc (.readExecutions false) listed rfl trivial
    have cancelled := heeded_snoc .cancelNext compared rfl trivial
    exact ⟨_, _, _, begun, ⟨rfl, trivial⟩, heeded_snoc .cancelNext cancelled rfl trivial, rfl⟩
  obtain ⟨reached, polled, last, before, read, after, concluded⟩ := run
  have settled : ∀ label ∈ [MonitorLabel.listWatches, .readExecutions false, .cancelNext, .cancelNext],
      ∀ next, label ≠ .commitRestart next := by
    intro label listed next same
    rw [same] at listed
    simp at listed
  exact ⟨reached, polled, last, before, read, after, restart_signals_not_lost before read after settled concluded⟩

-- The poll that finds the new revision fails to read the executions; the next one, whose reads succeed,
-- finds nothing new.
theorem failed_read_loses_restart : ∃ reached polled, Run MonitorStep (RestartMonitor.start solvingDatabase)
      [solvingAttempt, .commitRestart restartedDatabase, .wakeup, .beginPoll false, .readRevision false, .listWatches,
        .readExecutions true, .wakeup, .beginPoll false] reached ∧
    MonitorStep reached (.readRevision false) polled ∧ polled.phase = .idle ∧
    ∃ watch ∈ polled.supervisor.watches.rows, watch.state = .active ∧ watch.executionId = some "e1" ∧
      runsLease polled.db watch = false :=
  ⟨_, _, Run.of_fold rfl, rfl, rfl, _, List.mem_singleton_self _, rfl, rfl, rfl⟩

end Signals

end MicroWorkflow
