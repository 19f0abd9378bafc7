import MicroWorkflow.DeadlineHeap
import MicroWorkflow.Lib.Machine

set_option autoImplicit false

namespace MicroWorkflow

open Lib (Table Run)

-- A label names the section and what its thread brings along: a marker was read
-- before it is published, so its revision and time may be old.
inductive SupervisorLabel where
  | tick (elapsed : Moment)
  | createAttempt (watchId nodeName : String) (jobId generation : Nat) (executionId : Option String)
      (totalTimeout checkpointTimeout : Option Moment)
  | beginHandlerExecution (watchId : String)
  | reportCheckpoint (watchId : String) (timeout : Option Moment)
  | rearmCheckpoint (watchId : String) (effective : Moment)
  | recordHandlerExit (watchId : String) (revision : Nat) (time : Moment)
  | recordWaitEntry (watchId : String) (revision : Nat) (time : Moment)
  | recordRenewalEntry (watchId : String) (deadline : Option Moment) (time : Moment)
  | beginExternalWait (watchId : String) (entered lease : Moment) (deferLeaseStart : Bool)
  | renewExternalWait (watchId : String)
  | endExternalWait (watchId : String)
  | signalHandlerComplete (watchId : String)
  | finishAttempt (watchId : String) (failed : Bool)
  | cancelExecution (nodeName : String) (jobId generation : Nat) (executionId : Option String)
  | expireDeadlines
  | nextValidDeadline

def handlerStep (supervisor : Supervisor) (watchId : String) (section_ : AttemptWatch → Supervisor) : Option Supervisor :=
  (supervisor.watches.find watchId).bind fun watch => if watch.started then some (section_ watch) else none

def supervisorStep (supervisor : Supervisor) : SupervisorLabel → Option Supervisor
  | .tick elapsed => if 0 ≤ elapsed then some { supervisor with clock := supervisor.clock + elapsed } else none
  | .createAttempt watchId nodeName jobId generation executionId totalTimeout checkpointTimeout =>
      createAttempt supervisor watchId nodeName jobId generation executionId totalTimeout checkpointTimeout
  | .beginHandlerExecution watchId =>
      (supervisor.watches.find watchId).bind fun watch =>
        if watch.started then none else some (beginHandlerExecution supervisor watch)
  | .reportCheckpoint watchId timeout =>
      handlerStep supervisor watchId fun watch => reportCheckpoint supervisor watch timeout
  | .rearmCheckpoint watchId effective =>
      (supervisor.watches.find watchId).bind fun watch =>
        if watch.started && watch.supervised then some (rearmCheckpoint supervisor watch effective) else none
  | .recordHandlerExit watchId revision time =>
      handlerStep supervisor watchId fun watch => recordHandlerExit supervisor watch revision time
  | .recordWaitEntry watchId revision time =>
      handlerStep supervisor watchId fun watch => recordWaitEntry supervisor watch revision time
  | .recordRenewalEntry watchId deadline time =>
      handlerStep supervisor watchId fun watch => recordRenewalEntry supervisor watch deadline time
  | .beginExternalWait watchId entered lease deferLeaseStart =>
      handlerStep supervisor watchId fun watch => beginExternalWait supervisor watch entered lease deferLeaseStart
  | .renewExternalWait watchId => handlerStep supervisor watchId (renewExternalWait supervisor)
  | .endExternalWait watchId => handlerStep supervisor watchId (endExternalWait supervisor)
  | .signalHandlerComplete watchId => (supervisor.watches.find watchId).map (signalHandlerComplete supervisor)
  | .finishAttempt watchId failed =>
      (supervisor.watches.find watchId).map fun watch => supervisor.finishAttempt watch failed
  | .cancelExecution nodeName jobId generation executionId =>
      some (cancelExecution supervisor nodeName jobId generation executionId)
  | .expireDeadlines => some (expireDeadlines supervisor)
  | .nextValidDeadline => some (nextValidDeadline supervisor).1

def SupervisorStep (supervisor : Supervisor) (label : SupervisorLabel) (next : Supervisor) : Prop :=
  supervisorStep supervisor label = some next

section Operations

variable {supervisor next : Supervisor} {watch changed : AttemptWatch}

theorem create_accounted {watchId nodeName : String} {jobId generation : Nat} {executionId : Option String}
    {totalTimeout checkpointTimeout : Option Moment} (accounted : HeapAccounted supervisor)
    (created : createAttempt supervisor watchId nodeName jobId generation executionId totalTimeout checkpointTimeout =
    some next) :
    HeapAccounted next := by
  rw [createAttempt, Option.map_eq_some_iff] at created
  obtain ⟨watches, inserted, rfl⟩ := created
  refine ⟨?_, ?_, accounted.sorted, accounted.once, ?_⟩
  · intro other listed
    cases (Table.mem_insert inserted).mp listed with
    | inl old => exact accounted.watch other old
    | inr new =>
        subst new
        refine ⟨fun _ kind deadline set => ?_, ⟨?_, ?_, ?_⟩, fun _ => rfl, fun _ => ⟨rfl, rfl, rfl⟩, fun passive => ?_⟩
        · cases kind with
          | total => exact absurd set (by simp [AttemptWatch.armed])
          | external => exact absurd set (by simp [AttemptWatch.armed])
          | checkpoint => exact absurd set (by simp [AttemptWatch.armed])
        · exact fun _ _ published => absurd published (by simp)
        · exact fun _ _ published => absurd published (by simp)
        · exact fun _ _ published => absurd published (by simp)
        · refine ⟨rfl, rfl, ?_⟩
          cases checkpointTimeout with
          | none => rfl
          | some timeout => exact absurd passive (by simp [AttemptWatch.supervised])
  · intro entry listed
    obtain ⟨owner, row, facts⟩ := accounted.entry entry listed
    exact ⟨owner, (Table.mem_insert inserted).mpr (.inl row), facts⟩
  · intro timeout listed
    obtain ⟨owner, row, facts⟩ := accounted.ended timeout listed
    exact ⟨owner, (Table.mem_insert inserted).mpr (.inl row), facts⟩

theorem compact_row (member : watch ∈ supervisor.watches.rows) : watch ∈ (compactDeadlines supervisor).watches.rows := by
  rw [(compact_unchanged supervisor).1]
  exact member

theorem compact_markers (markers : MarkersRecorded supervisor.recorded watch) :
    MarkersRecorded (compactDeadlines supervisor).recorded watch := by
  rw [(compact_unchanged supervisor).2.1]
  exact markers

theorem begin_accounted (accounted : HeapAccounted supervisor) (member : watch ∈ supervisor.watches.rows)
    (unstarted : watch.started = false) : HeapAccounted (beginHandlerExecution supervisor watch) := by
  have facts := accounted.watch watch member
  have idle := facts.shaped.unstarted unstarted
  have markers := facts.published
  by_cases active : watch.state = .active
  · rw [beginHandlerExecution, if_neg (by simpa using active)]
    by_cases supervised : watch.supervised = true
    · simp only [supervised, if_true]
      apply rescheduled_accounted (compact_accounted accounted) (compact_row member)
      · rfl
      · rfl
      · exact fun _ => active
      · exact compact_markers ⟨markers.handlerExit, markers.waitEntry, markers.renewalEntry⟩
      · refine ⟨fun _ => facts.shaped.registered active, fun fresh => absurd fresh (by simp), fun passive => ?_⟩
        exact absurd supervised (by simpa [AttemptWatch.supervised] using passive)
    · have passive : watch.supervised = false := by simpa using supervised
      obtain ⟨total, checkpoint, timeout⟩ := facts.shaped.unsupervised passive
      have untimed : watch.totalTimeout = none := by
        cases set : watch.totalTimeout with
        | none => rfl
        | some timeout => exact absurd passive (by simp [AttemptWatch.supervised, set])
      simp only [passive, Bool.false_eq_true, if_false]
      apply disarmed_accounted accounted member
      · rfl
      · exact .inl (Nat.lt_succ_self _)
      · exact fun _ => active
      · exact ⟨markers.handlerExit, markers.waitEntry, markers.renewalEntry⟩
      · refine ⟨fun _ => facts.shaped.registered active, fun fresh => absurd fresh (by simp), fun _ => ?_⟩
        simp only [untimed, timeout, total, checkpoint, and_self]
      · intro _ kind
        cases kind with
        | total => simp [AttemptWatch.armed, untimed, total]
        | external => simp [AttemptWatch.armed, idle.1]
        | checkpoint => simp [AttemptWatch.armed, idle.1, timeout, checkpoint]
  · rw [beginHandlerExecution, if_pos active]
    exact accounted

theorem report_accounted (accounted : HeapAccounted supervisor) (member : watch ∈ supervisor.watches.rows)
    (started : watch.started = true) (timeout : Option Moment) : HeapAccounted (reportCheckpoint supervisor watch timeout) := by
  have facts := accounted.watch watch member
  have markers := facts.published
  by_cases dynamic : timeout.isSome ∧ !watch.supervised
  · rw [reportCheckpoint, if_pos dynamic]
    exact accounted
  · rw [reportCheckpoint, if_neg dynamic]
    by_cases active : watch.state = .active
    · rw [if_neg (by simpa using active)]
      cases set : timeout <|> watch.defaultCheckpointTimeout with
      | none => exact accounted
      | some effective =>
          have supervised : watch.supervised = true := by
            cases given : timeout with
            | some moment => simpa [given] using dynamic
            | none =>
                have default : watch.defaultCheckpointTimeout = some effective := by simpa [given] using set
                simp [AttemptWatch.supervised, default]
          apply compact_accounted
          apply rescheduled_accounted accounted member
          · rfl
          · rfl
          · exact fun _ => active
          · exact ⟨markers.handlerExit, markers.waitEntry, markers.renewalEntry⟩
          · refine ⟨fun _ => facts.shaped.registered active, fun fresh => absurd fresh (by simp [started]), fun passive => ?_⟩
            exact absurd supervised (by simpa [AttemptWatch.supervised] using passive)
    · rw [if_pos active]
      exact accounted

theorem rearm_accounted (accounted : HeapAccounted supervisor) (member : watch ∈ supervisor.watches.rows)
    (started : watch.started = true) (supervised : watch.supervised = true) (effective : Moment) :
    HeapAccounted (rearmCheckpoint supervisor watch effective) := by
  have facts := accounted.watch watch member
  have markers := facts.published
  by_cases active : watch.state = .active
  · rw [rearmCheckpoint, if_neg (by simpa using active)]
    apply rescheduled_accounted (compact_accounted accounted) (compact_row member)
    · rfl
    · rfl
    · exact fun _ => active
    · exact compact_markers ⟨markers.handlerExit, markers.waitEntry, markers.renewalEntry⟩
    · refine ⟨fun _ => facts.shaped.registered active, fun fresh => absurd fresh (by simp [started]), fun passive => ?_⟩
      exact absurd supervised (by simpa [AttemptWatch.supervised] using passive)
  · rw [rearmCheckpoint, if_pos active]
    exact accounted

theorem markers_grown {recorded : List (String × Marker)} (markers : MarkersRecorded recorded watch)
    (entry : String × Marker) : MarkersRecorded (recorded ++ [entry]) watch :=
  ⟨fun revision time published => List.mem_append_left _ (markers.handlerExit revision time published),
    fun revision time published => List.mem_append_left _ (markers.waitEntry revision time published),
    fun deadline time published => List.mem_append_left _ (markers.renewalEntry deadline time published)⟩

theorem marker_accounted (accounted : HeapAccounted supervisor) (member : watch ∈ supervisor.watches.rows)
    (marker : Marker) (same : changed.watchId = watch.watchId) (revision : changed.revision = watch.revision)
    (state : changed.state = watch.state) (armed : ∀ kind, changed.armed kind = watch.armed kind)
    (shaped : WatchShaped changed)
    (markers : MarkersRecorded (supervisor.recorded ++ [(watch.watchId, marker)]) changed) :
    HeapAccounted { setWatch supervisor changed with recorded := supervisor.recorded ++ [(watch.watchId, marker)] } := by
  have grown : ∀ entry ∈ supervisor.recorded, entry ∈ supervisor.recorded ++ [(watch.watchId, marker)] :=
    fun entry listed => List.mem_append_left _ listed
  have exempted : ∀ other kind deadline, Exempted supervisor.recorded other kind deadline →
      Exempted (supervisor.recorded ++ [(watch.watchId, marker)]) other kind deadline := by
    intro other kind deadline found
    obtain ⟨time, early, published⟩ := found
    refine ⟨time, early, ?_⟩
    cases kind with
    | total => exact published
    | external => exact grown _ published
    | checkpoint =>
        cases published with
        | inl entry => exact .inl (grown _ entry)
        | inr exit => exact .inr (grown _ exit)
  refine ⟨?_, ?_, accounted.sorted, accounted.once, ?_⟩
  · intro other listed
    cases mem_set_watch listed with
    | inl own =>
        rw [own]
        refine ⟨fun active kind deadline set => ?_, markers, shaped⟩
        rw [armed] at set
        cases (accounted.watch watch member).complete (state ▸ active) kind deadline set with
        | inl present =>
            obtain ⟨entry, inside, owner, current, rest⟩ := present
            exact .inl ⟨entry, inside, owner.trans same.symm, current.trans revision.symm, rest⟩
        | inr early =>
            have kept := exempted watch kind deadline early
            rw [Exempted] at kept ⊢
            rw [same, revision]
            exact .inr kept
    | inr old =>
        have facts := accounted.watch other old.1
        refine ⟨fun active kind deadline set => ?_, ?_, facts.shaped⟩
        · cases facts.complete active kind deadline set with
          | inl present => exact .inl present
          | inr early => exact .inr (exempted other kind deadline early)
        · exact markers_grown facts.published (watch.watchId, marker)
  · intro entry listed
    obtain ⟨owner, row, own, bound, set⟩ := accounted.entry entry listed
    cases set_watch_row member same row with
    | inl here =>
        rw [here.1] at own bound set
        refine ⟨changed, here.2, same.trans own, revision ▸ bound, fun current active => ?_⟩
        rw [armed]
        exact set (current.trans revision) (state ▸ active)
    | inr there => exact ⟨owner, there.2, own, bound, set⟩
  · intro timeout listed
    obtain ⟨owner, row, own, ended⟩ := accounted.ended timeout listed
    cases set_watch_row member same row with
    | inl here =>
        rw [here.1] at own ended
        exact ⟨changed, here.2, same.trans own, state ▸ ended⟩
    | inr there => exact ⟨owner, there.2, own, ended⟩

theorem handler_exit_accounted (accounted : HeapAccounted supervisor) (member : watch ∈ supervisor.watches.rows)
    (revision : Nat) (time : Moment) : HeapAccounted (recordHandlerExit supervisor watch revision time) := by
  have facts := accounted.watch watch member
  have kept := markers_grown facts.published (watch.watchId, .handlerExit revision time)
  apply marker_accounted accounted member (.handlerExit revision time)
  · rfl
  · rfl
  · rfl
  · exact fun _ => rfl
  · exact ⟨facts.shaped.registered, facts.shaped.unstarted, facts.shaped.unsupervised⟩
  · refine ⟨fun other moment published => ?_, kept.waitEntry, kept.renewalEntry⟩
    simp only [Option.some.injEq, Prod.mk.injEq] at published
    rw [← published.1, ← published.2]
    exact List.mem_append_right _ (List.mem_singleton_self _)

theorem wait_entry_accounted (accounted : HeapAccounted supervisor) (member : watch ∈ supervisor.watches.rows)
    (revision : Nat) (time : Moment) : HeapAccounted (recordWaitEntry supervisor watch revision time) := by
  have facts := accounted.watch watch member
  have kept := markers_grown facts.published (watch.watchId, .waitEntry revision time)
  apply marker_accounted accounted member (.waitEntry revision time)
  · rfl
  · rfl
  · rfl
  · exact fun _ => rfl
  · exact ⟨facts.shaped.registered, facts.shaped.unstarted, facts.shaped.unsupervised⟩
  · refine ⟨kept.handlerExit, fun other moment published => ?_, kept.renewalEntry⟩
    simp only [Option.some.injEq, Prod.mk.injEq] at published
    rw [← published.1, ← published.2]
    exact List.mem_append_right _ (List.mem_singleton_self _)

theorem renewal_entry_accounted (accounted : HeapAccounted supervisor) (member : watch ∈ supervisor.watches.rows)
    (deadline : Option Moment) (time : Moment) : HeapAccounted (recordRenewalEntry supervisor watch deadline time) := by
  have facts := accounted.watch watch member
  have kept := markers_grown facts.published (watch.watchId, .renewalEntry deadline time)
  apply marker_accounted accounted member (.renewalEntry deadline time)
  · rfl
  · rfl
  · rfl
  · exact fun _ => rfl
  · exact ⟨facts.shaped.registered, facts.shaped.unstarted, facts.shaped.unsupervised⟩
  · refine ⟨kept.handlerExit, kept.waitEntry, fun old moment published => ?_⟩
    simp only [Option.some.injEq, Prod.mk.injEq] at published
    rw [← published.1, ← published.2]
    exact List.mem_append_right _ (List.mem_singleton_self _)

theorem begin_wait_accounted (accounted : HeapAccounted supervisor) (member : watch ∈ supervisor.watches.rows)
    (started : watch.started = true) (entered lease : Moment) (deferLeaseStart : Bool) :
    HeapAccounted (beginExternalWait supervisor watch entered lease deferLeaseStart) := by
  have facts := accounted.watch watch member
  have markers := facts.published
  by_cases active : watch.state = .active
  · rw [beginExternalWait, if_neg (by simpa using active)]
    apply compact_accounted
    apply rescheduled_accounted accounted member
    · rfl
    · rfl
    · exact fun _ => active
    · exact ⟨markers.handlerExit, markers.waitEntry, markers.renewalEntry⟩
    · exact ⟨fun _ => facts.shaped.registered active, fun fresh => absurd fresh (by simp [started]),
        facts.shaped.unsupervised⟩
  · rw [beginExternalWait, if_pos active]
    exact accounted

theorem renew_wait_accounted (accounted : HeapAccounted supervisor) (member : watch ∈ supervisor.watches.rows)
    (started : watch.started = true) : HeapAccounted (renewExternalWait supervisor watch) := by
  have facts := accounted.watch watch member
  have markers := facts.published
  by_cases idle : watch.state ≠ .active ∨ watch.externalWaitDepth = 0
  · rw [renewExternalWait, if_pos idle]
    exact accounted
  · rw [renewExternalWait, if_neg idle]
    have active : watch.state = .active := by
      by_contra other
      exact idle (.inl other)
    cases watch.externalWaitTimeout with
    | none => exact accounted
    | some lease =>
        apply rescheduled_accounted (compact_accounted accounted) (compact_row member)
        · rfl
        · rfl
        · exact fun _ => active
        · apply compact_markers
          exact ⟨markers.handlerExit, markers.waitEntry, fun _ _ published => absurd published (by simp)⟩
        · exact ⟨fun _ => facts.shaped.registered active, fun fresh => absurd fresh (by simp [started]),
            facts.shaped.unsupervised⟩

theorem ended_wait_fields (clock : Moment) (watch : AttemptWatch) :
    (endedWait clock watch).watchId = watch.watchId ∧ (endedWait clock watch).revision = watch.revision + 1 ∧
    (endedWait clock watch).state = watch.state ∧ (endedWait clock watch).started = watch.started ∧
    (endedWait clock watch).registered = watch.registered ∧ (endedWait clock watch).supervised = watch.supervised ∧
    (endedWait clock watch).totalDeadline = watch.totalDeadline ∧
    (endedWait clock watch).checkpointTimeout = watch.checkpointTimeout := by
  by_cases last : watch.externalWaitDepth - 1 = 0
  · simp only [endedWait, last, if_true, AttemptWatch.supervised, and_self]
  · simp only [endedWait, last, if_false, AttemptWatch.supervised, and_self]

theorem ended_wait_markers {recorded : List (String × Marker)} (markers : MarkersRecorded recorded watch) (clock : Moment) :
    MarkersRecorded recorded (endedWait clock watch) := by
  by_cases last : watch.externalWaitDepth - 1 = 0
  · rw [endedWait]
    simp only [last, if_true]
    exact ⟨markers.handlerExit, markers.waitEntry, markers.renewalEntry⟩
  · rw [endedWait]
    simp only [last, if_false]
    exact ⟨markers.handlerExit, markers.waitEntry, markers.renewalEntry⟩

theorem ended_wait_shaped (shaped : WatchShaped watch) (started : watch.started = true) (clock : Moment) :
    WatchShaped (endedWait clock watch) := by
  obtain ⟨_, _, state, begun, registered, supervised, total, timeout⟩ := ended_wait_fields clock watch
  refine ⟨?_, ?_, ?_⟩
  · rw [state, registered]
    exact shaped.registered
  · rw [begun, started]
    exact fun fresh => absurd fresh (by simp)
  · intro passive
    rw [supervised] at passive
    obtain ⟨noTotal, noCheckpoint, noTimeout⟩ := shaped.unsupervised passive
    have noDefault : watch.defaultCheckpointTimeout = none := by
      cases set : watch.defaultCheckpointTimeout with
      | none => rfl
      | some moment => exact absurd passive (by simp [AttemptWatch.supervised, set])
    refine ⟨total.trans noTotal, ?_, timeout.trans noTimeout⟩
    by_cases last : watch.externalWaitDepth - 1 = 0
    · simp [endedWait, last, noTimeout, noDefault]
    · simp [endedWait, last, noCheckpoint]

theorem end_wait_accounted (accounted : HeapAccounted supervisor) (member : watch ∈ supervisor.watches.rows)
    (started : watch.started = true) : HeapAccounted (endExternalWait supervisor watch) := by
  have facts := accounted.watch watch member
  obtain ⟨same, newer, state, _⟩ := ended_wait_fields supervisor.clock watch
  have markers := ended_wait_markers facts.published supervisor.clock
  have shaped := ended_wait_shaped facts.shaped started supervisor.clock
  by_cases idle : watch.externalWaitDepth = 0
  · rw [endExternalWait, if_pos idle]
    exact accounted
  · rw [endExternalWait, if_neg idle]
    by_cases active : watch.state = .active
    · simp only [active, if_true]
      exact rescheduled_accounted (compact_accounted accounted) (compact_row member) same newer (fun _ => active)
        (compact_markers markers) shaped
    · simp only [active, if_false]
      refine disarmed_accounted accounted member same (.inl (by omega)) (fun still => state ▸ still) markers shaped ?_
      exact fun still => absurd (state ▸ still) active

theorem signal_accounted (accounted : HeapAccounted supervisor) (member : watch ∈ supervisor.watches.rows) :
    HeapAccounted (signalHandlerComplete supervisor watch) := by
  have facts := accounted.watch watch member
  have markers := facts.published
  by_cases passive : (!watch.supervised) = true
  · rw [signalHandlerComplete, if_pos passive]
    apply disarmed_accounted accounted member
    · rfl
    · exact .inr ⟨by simp, Nat.le_refl _⟩
    · exact fun still => absurd still (by simp)
    · exact ⟨markers.handlerExit, markers.waitEntry, markers.renewalEntry⟩
    · exact ⟨fun still => absurd still (by simp), facts.shaped.unstarted, facts.shaped.unsupervised⟩
    · exact fun still => absurd still (by simp)
  · rw [signalHandlerComplete, if_neg passive]
    by_cases active : watch.state = .active
    · rw [if_pos active]
      apply disarmed_accounted accounted member
      · rfl
      · exact .inl (Nat.lt_succ_self _)
      · exact fun still => absurd still (by simp)
      · exact ⟨markers.handlerExit, markers.waitEntry, markers.renewalEntry⟩
      · exact ⟨fun still => absurd still (by simp), facts.shaped.unstarted, facts.shaped.unsupervised⟩
      · exact fun still => absurd still (by simp)
    · rw [if_neg active]
      exact accounted

theorem finish_state (watch : AttemptWatch) (failed : Bool) :
    (if watch.state = .timedOut ∨ watch.state = .superseded then watch.state
      else if failed then WatchState.failed else WatchState.completed) ≠ WatchState.active := by
  by_cases kept : watch.state = .timedOut ∨ watch.state = .superseded
  · rw [if_pos kept]
    cases kept with
    | inl timedOut => simp [timedOut]
    | inr superseded => simp [superseded]
  · rw [if_neg kept]
    cases failed with
    | false => simp
    | true => simp

theorem finish_accounted (accounted : HeapAccounted supervisor) (member : watch ∈ supervisor.watches.rows) (failed : Bool) :
    HeapAccounted (supervisor.finishAttempt watch failed) := by
  have facts := accounted.watch watch member
  have markers := facts.published
  have concluded := finish_state watch failed
  have stored : HeapAccounted (setWatch supervisor { watch with
      registered := false
      state := if watch.state = .timedOut ∨ watch.state = .superseded then watch.state
        else if failed then .failed
        else .completed
      revision := watch.revision + 1 }) := by
    apply disarmed_accounted accounted member
    · rfl
    · exact .inl (Nat.lt_succ_self _)
    · exact fun still => absurd still concluded
    · exact ⟨markers.handlerExit, markers.waitEntry, markers.renewalEntry⟩
    · exact ⟨fun still => absurd still concluded, facts.shaped.unstarted, facts.shaped.unsupervised⟩
    · exact fun still => absurd still concluded
  exact ⟨stored.watch, stored.entry, stored.sorted, stored.once, stored.ended⟩

theorem cancel_accounted (accounted : HeapAccounted supervisor) (nodeName : String) (jobId generation : Nat)
    (executionId : Option String) : HeapAccounted (cancelExecution supervisor nodeName jobId generation executionId) := by
  have rows : (cancelExecution supervisor nodeName jobId generation executionId).watches.rows =
      supervisor.watches.rows.map fun watch =>
        if cancels nodeName jobId generation executionId watch then supersedeWatch watch else watch := rfl
  have moved : ∀ watch ∈ supervisor.watches.rows,
      (if cancels nodeName jobId generation executionId watch then supersedeWatch watch else watch) ∈
        (cancelExecution supervisor nodeName jobId generation executionId).watches.rows := by
    intro watch listed
    rw [rows]
    exact List.mem_map_of_mem listed
  refine ⟨?_, ?_, accounted.sorted, accounted.once, ?_⟩
  · intro other listed
    rw [rows, List.mem_map] at listed
    obtain ⟨watch, member, rfl⟩ := listed
    have facts := accounted.watch watch member
    by_cases matching : cancels nodeName jobId generation executionId watch = true
    · rw [if_pos matching]
      have markers := facts.published
      exact ⟨fun still => absurd still (by simp [supersedeWatch]),
        ⟨markers.handlerExit, markers.waitEntry, markers.renewalEntry⟩,
        ⟨fun still => absurd still (by simp [supersedeWatch]), facts.shaped.unstarted, facts.shaped.unsupervised⟩⟩
    · rw [if_neg matching]
      exact facts
  · intro entry listed
    obtain ⟨owner, row, own, bound, set⟩ := accounted.entry entry listed
    refine ⟨_, moved owner row, ?_⟩
    by_cases matching : cancels nodeName jobId generation executionId owner = true
    · rw [if_pos matching]
      exact ⟨own, Nat.le_succ_of_le bound, fun _ still => absurd still (by simp [supersedeWatch])⟩
    · rw [if_neg matching]
      exact ⟨own, bound, set⟩
  · intro timeout listed
    obtain ⟨owner, row, own, concluded⟩ := accounted.ended timeout listed
    refine ⟨_, moved owner row, ?_⟩
    by_cases matching : cancels nodeName jobId generation executionId owner = true
    · rw [if_pos matching]
      exact ⟨own, by simp [supersedeWatch]⟩
    · rw [if_neg matching]
      exact ⟨own, concluded⟩

theorem time_out_accounted (accounted : HeapAccounted supervisor) (member : watch ∈ supervisor.watches.rows)
    (active : watch.state = .active) (kind : DeadlineKind) : HeapAccounted (timeOut supervisor watch kind) := by
  have facts := accounted.watch watch member
  have markers := facts.published
  have stored : HeapAccounted (setWatch supervisor { watch with
      state := .timedOut, timeoutKind := some kind, revision := watch.revision + 1 }) := by
    apply disarmed_accounted accounted member
    · rfl
    · exact .inl (Nat.lt_succ_self _)
    · exact fun _ => active
    · exact ⟨markers.handlerExit, markers.waitEntry, markers.renewalEntry⟩
    · exact ⟨fun still => absurd still (by simp), facts.shaped.unstarted, facts.shaped.unsupervised⟩
    · exact fun still => absurd still (by simp)
  have fresh : watch.watchId ∉ supervisor.expired.map Prod.fst := by
    intro listed
    obtain ⟨timeout, inside, same⟩ := List.mem_map.mp listed
    obtain ⟨owner, row, own, concluded⟩ := accounted.ended timeout inside
    rw [Table.rows_inj row member (own.trans same)] at concluded
    exact concluded active
  refine ⟨stored.watch, stored.entry, stored.sorted, ?_, ?_⟩
  · have appended : (supervisor.expired ++ [(watch.watchId, kind)]).map Prod.fst =
        supervisor.expired.map Prod.fst ++ [watch.watchId] := by simp
    change ((supervisor.expired ++ [(watch.watchId, kind)]).map Prod.fst).Nodup
    rw [appended, List.nodup_append]
    refine ⟨accounted.once, by simp, fun left inside right single same => ?_⟩
    rw [List.mem_singleton.mp single] at same
    exact fresh (same ▸ inside)
  · intro timeout listed
    cases List.mem_append.mp listed with
    | inl old => exact stored.ended timeout old
    | inr new =>
        rw [List.mem_singleton.mp new]
        exact ⟨_, set_watch_mem member rfl, rfl, by simp⟩

end Operations

end MicroWorkflow
