import Mathlib.Tactic.NormNum
import MicroWorkflow.DeadlineRuns

set_option autoImplicit false

namespace MicroWorkflow

open Lib (Table Run)

section Pop

variable {supervisor next : Supervisor} {watch : AttemptWatch} {entry : DeadlineEntry} {rest entries : List DeadlineEntry}
  {kind : DeadlineKind} {deadline : Moment}

theorem armed_current (set : watch.armed kind = some deadline) : watch.currentDeadline kind = some deadline := by
  cases kind with
  | total => exact set
  | external =>
      by_cases waits : 0 < watch.externalWaitDepth
      · rwa [AttemptWatch.armed, if_pos waits] at set
      · rw [AttemptWatch.armed, if_neg waits] at set
        exact absurd set (by simp)
  | checkpoint =>
      by_cases waits : 0 < watch.externalWaitDepth
      · rw [AttemptWatch.armed, if_pos waits] at set
        exact absurd set (by simp)
      · rwa [AttemptWatch.armed, if_neg waits] at set

theorem exempts_recorded {recorded : List (String × Marker)} (markers : MarkersRecorded recorded watch)
    (revision : entry.revision = watch.revision) (exempt : exempts watch entry = true) :
    Exempted recorded watch entry.kind entry.deadline := by
  unfold exempts at exempt
  cases kind : entry.kind with
  | total => simp [kind] at exempt
  | external =>
      simp only [kind, Option.any_eq_true, Bool.and_eq_true, beq_iff_eq, decide_eq_true_eq] at exempt
      obtain ⟨⟨old, time⟩, published, same, early⟩ := exempt
      have recordedEntry := markers.renewalEntry old time published
      simp only at same early
      exact ⟨time, early, same ▸ recordedEntry⟩
  | checkpoint =>
      simp only [kind, Bool.or_eq_true, Option.any_eq_true, Bool.and_eq_true, beq_iff_eq, decide_eq_true_eq] at exempt
      cases exempt with
      | inl entered =>
          obtain ⟨⟨old, time⟩, published, same, early⟩ := entered
          have recordedEntry := markers.waitEntry old time published
          simp only at same early
          exact ⟨time, early, .inl (revision ▸ same ▸ recordedEntry)⟩
      | inr exited =>
          obtain ⟨⟨old, time⟩, published, same, early⟩ := exited
          have recordedExit := markers.handlerExit old time published
          simp only at same early
          exact ⟨time, early, .inr (revision ▸ same ▸ recordedExit)⟩

theorem current_entry_expires (shaped : WatchShaped watch) (active : watch.state = .active)
    (revision : entry.revision = watch.revision) (set : watch.armed entry.kind = some entry.deadline)
    (alive : exempts watch entry = false) : expires watch entry = true := by
  have positive : 0 ≤ tolerance := by decide
  simp [expires, shaped.registered active, AttemptWatch.active, active, revision, armed_current set, alive, positive]

theorem dropped_accounted (accounted : HeapAccounted { supervisor with deadlines := entry :: rest })
    (spent : ∀ watch ∈ supervisor.watches.rows, watch.watchId = entry.watchId → watch.state = .active →
      entry.revision = watch.revision → watch.armed entry.kind = some entry.deadline →
      Exempted supervisor.recorded watch entry.kind entry.deadline) :
    HeapAccounted { supervisor with deadlines := rest } := by
  refine ⟨?_, fun other listed => accounted.entry other (List.mem_cons_of_mem _ listed),
    (List.pairwise_cons.mp accounted.sorted).2, accounted.once, accounted.ended⟩
  intro watch listed
  have facts := accounted.watch watch listed
  refine ⟨fun active kind deadline set => ?_, facts.published, facts.shaped⟩
  cases facts.complete active kind deadline set with
  | inr exempted => exact .inr exempted
  | inl present =>
      obtain ⟨other, inside, own, revision, sameKind, sameDeadline⟩ := present
      cases List.mem_cons.mp inside with
      | inr later => exact .inl ⟨other, later, own, revision, sameKind, sameDeadline⟩
      | inl same =>
          subst same
          right
          rw [← sameKind, ← sameDeadline] at set ⊢
          exact spent watch listed own.symm active revision set

theorem expire_entry_accounted (accounted : HeapAccounted { supervisor with deadlines := entry :: rest }) :
    HeapAccounted { expireEntry supervisor entry with deadlines := rest } := by
  unfold expireEntry
  cases found : supervisor.watches.find entry.watchId with
  | none =>
      apply dropped_accounted accounted
      intro watch listed own
      exact absurd own (Table.find_none_iff.mp found watch listed)
  | some watch =>
      have member := Table.find_mem found
      have same := Table.find_key found
      by_cases expired : expires watch entry = true
      · simp only [expired, if_true]
        have active : watch.state = .active := by
          simp only [expires, AttemptWatch.active, Bool.and_eq_true, beq_iff_eq] at expired
          exact expired.1.1.1.2
        have timed : HeapAccounted { timeOut supervisor watch entry.kind with deadlines := entry :: rest } :=
          time_out_accounted accounted member active entry.kind
        apply dropped_accounted timed
        intro other listed own still
        cases mem_set_watch listed with
        | inl new =>
            rw [new] at still
            exact absurd still (by simp)
        | inr old => exact absurd (own.trans same.symm) old.2
      · simp only [expired, Bool.false_eq_true, if_false]
        apply dropped_accounted accounted
        intro other listed own active revision set
        have row := Table.rows_inj listed member (own.trans same.symm)
        subst row
        have facts := accounted.watch other listed
        have exempt : exempts other entry = true := by
          by_contra alive
          exact expired (current_entry_expires facts.shaped active revision set (by simpa using alive))
        exact exempts_recorded facts.published revision exempt

theorem pop_due_accounted (accounted : HeapAccounted { supervisor with deadlines := entries }) :
    HeapAccounted (popDue supervisor entries) := by
  induction entries generalizing supervisor with
  | nil => exact accounted
  | cons entry rest ih =>
      rw [popDue]
      by_cases early : supervisor.clock < entry.deadline
      · rw [if_pos early]
        exact accounted
      · rw [if_neg early]
        exact ih (expire_entry_accounted accounted)

theorem expire_deadlines_accounted (accounted : HeapAccounted supervisor) : HeapAccounted (expireDeadlines supervisor) :=
  pop_due_accounted accounted

theorem expire_entry_cases (supervisor : Supervisor) (entry : DeadlineEntry) :
    expireEntry supervisor entry = supervisor ∨
      ∃ watch ∈ supervisor.watches.rows, watch.watchId = entry.watchId ∧ expires watch entry = true ∧
        expireEntry supervisor entry = timeOut supervisor watch entry.kind := by
  unfold expireEntry
  cases found : supervisor.watches.find entry.watchId with
  | none => exact .inl rfl
  | some watch =>
      by_cases expired : expires watch entry = true
      · right
        refine ⟨watch, Table.find_mem found, Table.find_key found, expired, ?_⟩
        simp only [expired, if_true]
      · left
        simp only [expired, Bool.false_eq_true, if_false]

theorem expired_kept {timeout : String × DeadlineKind} (listed : timeout ∈ supervisor.expired) :
    timeout ∈ (popDue supervisor entries).expired := by
  induction entries generalizing supervisor with
  | nil => exact listed
  | cons entry rest ih =>
      rw [popDue]
      by_cases early : supervisor.clock < entry.deadline
      · rw [if_pos early]
        exact listed
      · rw [if_neg early]
        apply ih
        cases expire_entry_cases supervisor entry with
        | inl same => rw [same]; exact listed
        | inr timed =>
            obtain ⟨watch, _, _, _, same⟩ := timed
            rw [same]
            exact List.mem_append_left _ listed

theorem due_entry_expires (accounted : HeapAccounted { supervisor with deadlines := entries })
    (member : watch ∈ supervisor.watches.rows) (active : watch.state = .active) (set : watch.armed kind = some deadline)
    (present : InHeap entries watch kind deadline) (due : deadline ≤ supervisor.clock)
    (alive : ¬ Exempted supervisor.recorded watch kind deadline) :
    ∃ other, (watch.watchId, other) ∈ (popDue supervisor entries).expired := by
  induction entries generalizing supervisor with
  | nil =>
      obtain ⟨entry, inside, _⟩ := present
      exact absurd inside List.not_mem_nil
  | cons first rest ih =>
      obtain ⟨entry, inside, own, revision, sameKind, sameDeadline⟩ := present
      have reached : ¬ supervisor.clock < first.deadline := by
        have bound : first.deadline ≤ entry.deadline := by
          cases List.mem_cons.mp inside with
          | inl same => rw [same]
          | inr later => exact popped_before_deadline ((List.pairwise_cons.mp accounted.sorted).1 entry later)
        exact not_lt.mpr (le_trans bound (sameDeadline.trans_le due))
      rw [popDue, if_neg reached]
      have facts := accounted.watch watch member
      by_cases here : entry = first
      · subst here
        have live : exempts watch entry = false := by
          by_contra exempt
          have recorded := exempts_recorded facts.published revision (by simpa using exempt)
          rw [sameKind, sameDeadline] at recorded
          exact alive recorded
        have expired := current_entry_expires facts.shaped active revision
          (by rw [sameKind, sameDeadline]; exact set) live
        have found : supervisor.watches.find entry.watchId = some watch := by
          rw [own]
          exact Table.find_of_mem member
        have timed : expireEntry supervisor entry = timeOut supervisor watch entry.kind := by
          simp only [expireEntry, found, expired, if_true]
        refine ⟨entry.kind, expired_kept ?_⟩
        rw [timed]
        exact List.mem_append_right _ (List.mem_singleton_self _)
      · have later : entry ∈ rest := by
          cases List.mem_cons.mp inside with
          | inl same => exact absurd same here
          | inr listed => exact listed
        have kept := expire_entry_accounted accounted
        cases expire_entry_cases supervisor first with
        | inl same =>
            rw [same] at kept ⊢
            exact ih kept member ⟨entry, later, own, revision, sameKind, sameDeadline⟩ due alive
        | inr timed =>
            obtain ⟨other, row, owner, _, same⟩ := timed
            by_cases self : other.watchId = watch.watchId
            · rw [same]
              refine ⟨first.kind, expired_kept (List.mem_append_right _ ?_)⟩
              rw [self]
              exact List.mem_singleton_self _
            · rw [same] at kept ⊢
              have stays : watch ∈ (timeOut supervisor other first.kind).watches.rows :=
                set_watch_other member (Ne.symm self)
              exact ih kept stays ⟨entry, later, own, revision, sameKind, sameDeadline⟩ due alive

theorem expired_was_due (accounted : HeapAccounted { supervisor with deadlines := entries })
    {timeout : String × DeadlineKind} (listed : timeout ∈ (popDue supervisor entries).expired) :
    timeout ∈ supervisor.expired ∨ ∃ watch ∈ supervisor.watches.rows, watch.watchId = timeout.1 ∧
      watch.state = .active ∧ ∃ deadline, watch.armed timeout.2 = some deadline ∧ deadline ≤ supervisor.clock := by
  induction entries generalizing supervisor with
  | nil => exact .inl listed
  | cons entry rest ih =>
      rw [popDue] at listed
      by_cases early : supervisor.clock < entry.deadline
      · rw [if_pos early] at listed
        exact .inl listed
      · rw [if_neg early] at listed
        have kept := expire_entry_accounted accounted
        cases expire_entry_cases supervisor entry with
        | inl same =>
            rw [same] at kept listed
            exact ih kept listed
        | inr timed =>
            obtain ⟨watch, member, own, expired, same⟩ := timed
            rw [same] at kept listed
            have active : watch.state = .active := by
              simp only [expires, AttemptWatch.active, Bool.and_eq_true, beq_iff_eq] at expired
              exact expired.1.1.1.2
            have revision : watch.revision = entry.revision := by
              simp only [expires, Bool.and_eq_true, beq_iff_eq] at expired
              exact expired.1.1.2
            cases ih kept listed with
            | inl before =>
                cases List.mem_append.mp before with
                | inl old => exact .inl old
                | inr new =>
                    right
                    rw [List.mem_singleton.mp new]
                    obtain ⟨owner, row, same, _, set⟩ := accounted.entry entry List.mem_cons_self
                    have equal := Table.rows_inj row member (same.trans own.symm)
                    subst equal
                    exact ⟨owner, member, rfl, active, entry.deadline, set revision.symm active, not_lt.mp early⟩
            | inr later =>
                obtain ⟨other, row, rest⟩ := later
                right
                cases mem_set_watch row with
                | inl new =>
                    rw [new] at rest
                    exact absurd rest.2.1 (by simp)
                | inr old => exact ⟨other, old.1, rest⟩

theorem ended_row_stays (member : watch ∈ supervisor.watches.rows) (concluded : watch.state ≠ .active) :
    watch ∈ (popDue supervisor entries).watches.rows := by
  induction entries generalizing supervisor with
  | nil => exact member
  | cons entry rest ih =>
      rw [popDue]
      by_cases early : supervisor.clock < entry.deadline
      · rw [if_pos early]
        exact member
      · rw [if_neg early]
        apply ih
        cases expire_entry_cases supervisor entry with
        | inl same => rw [same]; exact member
        | inr timed =>
            obtain ⟨other, row, _, expired, same⟩ := timed
            rw [same]
            apply set_watch_other member
            intro self
            rw [Table.rows_inj member row self] at concluded
            simp only [expires, AttemptWatch.active, Bool.and_eq_true, beq_iff_eq] at expired
            exact concluded expired.1.1.1.2

theorem expired_timed_out {timeout : String × DeadlineKind} (listed : timeout ∈ (popDue supervisor entries).expired) :
    timeout ∈ supervisor.expired ∨ ∃ watch ∈ (popDue supervisor entries).watches.rows,
      watch.watchId = timeout.1 ∧ watch.state = .timedOut ∧ watch.timeoutKind = some timeout.2 := by
  induction entries generalizing supervisor with
  | nil => exact .inl listed
  | cons entry rest ih =>
      rw [popDue] at listed ⊢
      by_cases early : supervisor.clock < entry.deadline
      · rw [if_pos early] at listed
        exact .inl listed
      · rw [if_neg early] at listed ⊢
        cases ih listed with
        | inr timed => exact .inr timed
        | inl before =>
            cases expire_entry_cases supervisor entry with
            | inl same =>
                rw [same] at before
                exact .inl before
            | inr timed =>
                obtain ⟨watch, member, _, _, same⟩ := timed
                rw [same] at before ⊢
                cases List.mem_append.mp before with
                | inl old => exact .inl old
                | inr new =>
                    right
                    rw [List.mem_singleton.mp new]
                    have row : { watch with
                        state := .timedOut, timeoutKind := some entry.kind, revision := watch.revision + 1 } ∈
                          (timeOut supervisor watch entry.kind).watches.rows := set_watch_mem member rfl
                    exact ⟨_, ended_row_stays row (by simp), rfl, rfl, rfl⟩

theorem valid_entry_of_armed (member : watch ∈ supervisor.watches.rows) (shaped : WatchShaped watch)
    (active : watch.state = .active) (own : entry.watchId = watch.watchId) (revision : entry.revision = watch.revision)
    (set : watch.armed entry.kind = some entry.deadline) : validEntry supervisor entry = true := by
  have positive : 0 ≤ tolerance := by decide
  have found : supervisor.watches.find entry.watchId = some watch := by
    rw [own]
    exact Table.find_of_mem member
  simp [validEntry, found, shaped.registered active, AttemptWatch.active, active, revision, armed_current set, positive]

theorem drop_invalid_accounted (accounted : HeapAccounted { supervisor with deadlines := entries }) :
    HeapAccounted { supervisor with deadlines := dropInvalid supervisor entries } := by
  induction entries with
  | nil => exact accounted
  | cons entry rest ih =>
      rw [dropInvalid]
      by_cases valid : validEntry supervisor entry = true
      · rw [if_pos valid]
        exact accounted
      · rw [if_neg valid]
        apply ih
        apply dropped_accounted accounted
        intro watch member own active revision set
        have shaped := (accounted.watch watch member).shaped
        exact absurd (valid_entry_of_armed member shaped active own.symm revision set) valid

theorem next_valid_accounted (accounted : HeapAccounted supervisor) : HeapAccounted (nextValidDeadline supervisor).1 :=
  drop_invalid_accounted accounted

theorem next_valid_not_later (accounted : HeapAccounted supervisor) (member : watch ∈ supervisor.watches.rows)
    (active : watch.state = .active) (set : watch.armed kind = some deadline)
    (alive : ¬ Exempted supervisor.recorded watch kind deadline) :
    ∃ wakes, (nextValidDeadline supervisor).2 = some wakes ∧ wakes ≤ deadline := by
  have cleaned := next_valid_accounted accounted
  cases (cleaned.watch watch member).complete active kind deadline set with
  | inr exempted => exact absurd exempted alive
  | inl present =>
      obtain ⟨entry, inside, _, _, _, same⟩ := present
      have sorted := cleaned.sorted
      simp only [nextValidDeadline] at inside sorted ⊢
      cases kept : dropInvalid supervisor supervisor.deadlines with
      | nil =>
          rw [kept] at inside
          cases inside
      | cons first rest =>
          rw [kept] at inside sorted
          refine ⟨first.deadline, rfl, ?_⟩
          rw [← same]
          cases List.mem_cons.mp inside with
          | inl here => rw [here]
          | inr later => exact popped_before_deadline ((List.pairwise_cons.mp sorted).1 entry later)

end Pop

section Runs

variable {supervisor next : Supervisor} {label : SupervisorLabel} {labels : List SupervisorLabel}

theorem handler_step {watchId : String} {section_ : AttemptWatch → Supervisor}
    (stepped : handlerStep supervisor watchId section_ = some next) :
    ∃ watch ∈ supervisor.watches.rows, watch.started = true ∧ section_ watch = next := by
  rw [handlerStep, Option.bind_eq_some_iff] at stepped
  obtain ⟨watch, found, begun⟩ := stepped
  by_cases started : watch.started = true
  · rw [if_pos started, Option.some.injEq] at begun
    exact ⟨watch, Table.find_mem found, started, begun⟩
  · rw [if_neg started] at begun
    exact absurd begun (by simp)

theorem supervisor_step_accounted (accounted : HeapAccounted supervisor) (stepped : SupervisorStep supervisor label next) :
    HeapAccounted next := by
  cases label with
  | tick elapsed =>
      obtain ⟨_, ⟨⟩⟩ := Option.ite_none_right_eq_some.mp stepped
      exact ⟨accounted.watch, accounted.entry, accounted.sorted, accounted.once, accounted.ended⟩
  | createAttempt watchId nodeName jobId generation executionId totalTimeout checkpointTimeout =>
      exact create_accounted accounted stepped
  | beginHandlerExecution watchId =>
      obtain ⟨watch, found, begun⟩ := Option.bind_eq_some_iff.mp stepped
      obtain ⟨fresh, ⟨⟩⟩ := Option.ite_none_left_eq_some.mp begun
      exact begin_accounted accounted (Table.find_mem found) (by simpa using fresh)
  | reportCheckpoint watchId timeout =>
      obtain ⟨watch, member, started, rfl⟩ := handler_step stepped
      exact report_accounted accounted member started timeout
  | rearmCheckpoint watchId effective =>
      obtain ⟨watch, found, begun⟩ := Option.bind_eq_some_iff.mp stepped
      obtain ⟨ready, ⟨⟩⟩ := Option.ite_none_right_eq_some.mp begun
      rw [Bool.and_eq_true] at ready
      exact rearm_accounted accounted (Table.find_mem found) ready.1 ready.2 effective
  | recordHandlerExit watchId revision time =>
      obtain ⟨watch, member, _, rfl⟩ := handler_step stepped
      exact handler_exit_accounted accounted member revision time
  | recordWaitEntry watchId revision time =>
      obtain ⟨watch, member, _, rfl⟩ := handler_step stepped
      exact wait_entry_accounted accounted member revision time
  | recordRenewalEntry watchId deadline time =>
      obtain ⟨watch, member, _, rfl⟩ := handler_step stepped
      exact renewal_entry_accounted accounted member deadline time
  | beginExternalWait watchId entered lease deferLeaseStart =>
      obtain ⟨watch, member, started, rfl⟩ := handler_step stepped
      exact begin_wait_accounted accounted member started entered lease deferLeaseStart
  | renewExternalWait watchId =>
      obtain ⟨watch, member, started, rfl⟩ := handler_step stepped
      exact renew_wait_accounted accounted member started
  | endExternalWait watchId =>
      obtain ⟨watch, member, started, rfl⟩ := handler_step stepped
      exact end_wait_accounted accounted member started
  | signalHandlerComplete watchId =>
      obtain ⟨watch, found, rfl⟩ := Option.map_eq_some_iff.mp stepped
      exact signal_accounted accounted (Table.find_mem found)
  | finishAttempt watchId failed =>
      obtain ⟨watch, found, rfl⟩ := Option.map_eq_some_iff.mp stepped
      exact finish_accounted accounted (Table.find_mem found) failed
  | cancelExecution nodeName jobId generation executionId =>
      cases stepped
      exact cancel_accounted accounted nodeName jobId generation executionId
  | expireDeadlines =>
      cases stepped
      exact expire_deadlines_accounted accounted
  | nextValidDeadline =>
      cases stepped
      exact next_valid_accounted accounted

theorem initial_accounted : HeapAccounted Supervisor.initial where
  watch := fun _ listed => absurd listed List.not_mem_nil
  entry := fun _ listed => absurd listed List.not_mem_nil
  sorted := List.Pairwise.nil
  once := List.nodup_nil
  ended := fun _ listed => absurd listed List.not_mem_nil

-- Between two sections every deadline of a started watch that counts is in the heap or exempted. The next
-- iteration times out the watch of each that is due and not exempted, nothing else, and no watch a second
-- time; an idle one, which cleans the heap first, sleeps past none of them.
theorem deadlines_expire_once (run : Run SupervisorStep Supervisor.initial labels supervisor) :
    (∀ watch ∈ supervisor.watches.rows, watch.state = .active → watch.started = true →
      ∀ kind deadline, watch.armed kind = some deadline →
        InHeap supervisor.deadlines watch kind deadline ∨ Exempted supervisor.recorded watch kind deadline) ∧
    (∀ watch ∈ supervisor.watches.rows, watch.state = .active → ∀ kind deadline, watch.armed kind = some deadline →
      deadline ≤ supervisor.clock → ¬ Exempted supervisor.recorded watch kind deadline →
        ∃ other, (watch.watchId, other) ∈ (expireDeadlines supervisor).expired ∧
          ∃ row ∈ (expireDeadlines supervisor).watches.rows, row.watchId = watch.watchId ∧ row.state = .timedOut ∧
            row.timeoutKind = some other) ∧
    (∀ timeout ∈ (expireDeadlines supervisor).expired, timeout ∈ supervisor.expired ∨
      ∃ watch ∈ supervisor.watches.rows, watch.watchId = timeout.1 ∧ watch.state = .active ∧
        ∃ deadline, watch.armed timeout.2 = some deadline ∧ deadline ≤ supervisor.clock) ∧
    (∀ timeout ∈ supervisor.expired, ∃ watch ∈ supervisor.watches.rows,
      watch.watchId = timeout.1 ∧ watch.state ≠ .active) ∧
    (supervisor.expired.map Prod.fst).Nodup ∧
    ∀ watch ∈ supervisor.watches.rows, watch.state = .active → ∀ kind deadline, watch.armed kind = some deadline →
      ¬ Exempted supervisor.recorded watch kind deadline →
        ∃ wakes, (nextValidDeadline supervisor).2 = some wakes ∧ wakes ≤ deadline := by
  have accounted : HeapAccounted supervisor := run.invariant initial_accounted supervisor_step_accounted
  refine ⟨?_, ?_, ?_, accounted.ended, accounted.once,
    fun watch member active kind deadline => next_valid_not_later accounted member active⟩
  · intro watch member active _ kind deadline set
    exact (accounted.watch watch member).complete active kind deadline set
  · intro watch member active kind deadline set due alive
    cases (accounted.watch watch member).complete active kind deadline set with
    | inl present =>
        obtain ⟨other, listed⟩ := due_entry_expires accounted member active set present due alive
        refine ⟨other, listed, ?_⟩
        cases expired_timed_out listed with
        | inr timed => exact timed
        | inl old =>
            obtain ⟨owner, row, own, concluded⟩ := accounted.ended _ old
            rw [Table.rows_inj row member own] at concluded
            exact absurd active concluded
    | inr exempted => exact absurd exempted alive
  · intro timeout listed
    exact expired_was_due accounted listed

theorem timeout_after_five : ∃ supervisor, Run SupervisorStep Supervisor.initial
    [.createAttempt "w1" "solve" 1 0 (some "e1") (some 5) none, .beginHandlerExecution "w1",
      .nextValidDeadline, .tick 6] supervisor ∧
    ∃ other, ("w1", other) ∈ (expireDeadlines supervisor).expired := by
  have run : ∃ supervisor, Run SupervisorStep Supervisor.initial
      [.createAttempt "w1" "solve" 1 0 (some "e1") (some 5) none, .beginHandlerExecution "w1",
        .nextValidDeadline, .tick 6] supervisor ∧
      supervisor.recorded = [] ∧ ∃ watch ∈ supervisor.watches.rows, watch.watchId = "w1" ∧ watch.state = .active ∧
        watch.armed .total = some (0 + 5) ∧ supervisor.clock = 0 + 6 :=
    ⟨_, Run.of_fold rfl, rfl, _, List.mem_singleton_self _, rfl, rfl, rfl, rfl⟩
  obtain ⟨supervisor, run, _, watch, member, same, active, set, clock⟩ := run
  have due : (0 + 5 : Moment) ≤ supervisor.clock := by
    rw [clock]
    norm_num
  have alive : ¬ Exempted supervisor.recorded watch .total (0 + 5) := by
    intro exempted
    obtain ⟨_, _, nothing⟩ := exempted
    exact nothing
  obtain ⟨other, listed, _⟩ := (deadlines_expire_once run).2.1 watch member active .total (0 + 5) set due alive
  exact ⟨supervisor, run, other, same ▸ listed⟩

end Runs

end MicroWorkflow
