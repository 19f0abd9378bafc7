import MicroWorkflow.QueueSources

set_option autoImplicit false

namespace MicroWorkflow

open Lib (Run Numbered)

def QueueRun.everything (run : QueueRun) : Multiset JobRow :=
  (run.returned : Multiset JobRow) + (run.pending : Multiset JobRow) + (run.buffer : Multiset JobRow) +
    (run.futures.flatten : Multiset JobRow) + (run.lanes.flatMap PullPhase.held : Multiset JobRow)

def QueueRun.found (run : QueueRun) : Multiset JobRow := (run.source.pulled : Multiset JobRow)

structure LaneMove (settings : QueueSettings) (lane : Nat) (run after : QueueRun) : Prop where
  store : after.store = run.store
  running : after.stopped = run.stopped ∧ after.closed = run.closed
  lanes : after.lanes.length = run.lanes.length ∧ ∀ other, other ≠ lane → after.lanes[other]? = run.lanes[other]?
  batches : ∀ batch ∈ after.futures, batch ∈ run.futures ∨ batch ≠ []
  source : after.source = run.source ∨
    ∃ maxItems, after.source = (run.source.pull run.store.jobs settings.nodeName maxItems).2
  exhausted : settings.refreshable = true → after.exhausted = run.exhausted
  balance : after.found + run.everything = run.found + after.everything

section Moves

variable {settings : QueueSettings} {run after : QueueRun} {lane maxItems : Nat} {phase next : PullPhase}
variable {stage : ScheduleStage} {prefetch : PrefetchSettings}

theorem set_lane_everything (standing : run.lanes[lane]? = some phase) (next : PullPhase) :
    (run.setLane lane next).everything + (phase.held : Multiset JobRow) = run.everything + (next.held : Multiset JobRow) := by
  obtain ⟨inside, rfl⟩ := List.getElem?_eq_some_iff.mp standing
  have split : run.lanes = run.lanes.take lane ++ run.lanes[lane] :: run.lanes.drop (lane + 1) := by simp
  have before : (run.lanes.flatMap PullPhase.held : Multiset JobRow) =
      ((run.lanes.take lane).flatMap PullPhase.held : Multiset JobRow) + (run.lanes[lane].held : Multiset JobRow) +
        ((run.lanes.drop (lane + 1)).flatMap PullPhase.held : Multiset JobRow) := by
    conv_lhs => rw [split]
    rw [List.flatMap_append, List.flatMap_cons, ← List.append_assoc, ← Multiset.coe_add, ← Multiset.coe_add]
  have set : ((run.lanes.set lane next).flatMap PullPhase.held : Multiset JobRow) =
      ((run.lanes.take lane).flatMap PullPhase.held : Multiset JobRow) + (next.held : Multiset JobRow) +
        ((run.lanes.drop (lane + 1)).flatMap PullPhase.held : Multiset JobRow) := by
    rw [List.set_eq_take_append_cons_drop, if_pos inside, List.flatMap_append, List.flatMap_cons, ← List.append_assoc,
      ← Multiset.coe_add, ← Multiset.coe_add]
  simp only [QueueRun.everything, QueueRun.setLane]
  rw [before, set]
  abel

theorem set_lane_lanes (run : QueueRun) (lane : Nat) (phase : PullPhase) :
    (run.setLane lane phase).lanes.length = run.lanes.length ∧
      ∀ other, other ≠ lane → (run.setLane lane phase).lanes[other]? = run.lanes[other]? :=
  ⟨List.length_set, fun _ apart => List.getElem?_set_ne (Ne.symm apart)⟩

theorem lane_move (standing : run.lanes[lane]? = some phase) {changed : QueueRun} (lanes : changed.lanes = run.lanes)
    (store : changed.store = run.store) (running : changed.stopped = run.stopped ∧ changed.closed = run.closed)
    (batches : ∀ batch ∈ changed.futures, batch ∈ run.futures)
    (source : changed.source = run.source ∨
      ∃ maxItems, changed.source = (run.source.pull run.store.jobs settings.nodeName maxItems).2)
    (exhausted : settings.refreshable = true → changed.exhausted = run.exhausted)
    (balance : changed.found + run.everything + (phase.held : Multiset JobRow) =
      run.found + changed.everything + (next.held : Multiset JobRow)) :
    LaneMove settings lane run (changed.setLane lane next) where
  store := store
  running := running
  lanes := lanes ▸ set_lane_lanes changed lane next
  batches := fun batch listed => .inl (batches batch listed)
  source := source
  exhausted := exhausted
  balance := by
    have moved := @set_lane_everything changed lane phase (by rw [lanes]; exact standing) next
    refine add_right_cancel (b := (phase.held : Multiset JobRow)) ?_
    calc (changed.setLane lane next).found + run.everything + (phase.held : Multiset JobRow)
        = run.found + changed.everything + (next.held : Multiset JobRow) := balance
      _ = run.found + ((changed.setLane lane next).everything + (phase.held : Multiset JobRow)) := by rw [moved, add_assoc]
      _ = run.found + (changed.setLane lane next).everything + (phase.held : Multiset JobRow) := (add_assoc _ _ _).symm

theorem lane_waits (standing : run.lanes[lane]? = some phase) (held : next.held = phase.held) :
    LaneMove settings lane run (run.setLane lane next) := by
  refine lane_move standing rfl rfl ⟨rfl, rfl⟩ (fun _ listed => listed) (.inl rfl) (fun _ => rfl) ?_
  rw [held]

theorem LaneMove.refl : LaneMove settings lane run run :=
  ⟨rfl, ⟨rfl, rfl⟩, ⟨rfl, fun _ _ => rfl⟩, fun _ listed => .inl listed, .inl rfl, fun _ => rfl, rfl⟩

theorem coe_take_drop (jobs : List JobRow) (count : Nat) :
    (jobs.take count : Multiset JobRow) + (jobs.drop count : Multiset JobRow) = jobs := by
  rw [Multiset.coe_add, List.take_append_drop]

theorem begin_pull_move (standing : run.lanes[lane]? = some .idle) :
    LaneMove settings lane run (run.beginPull lane maxItems) := by
  rw [QueueRun.beginPull]
  by_cases refused : maxItems = 0 ∨ run.closed
  · rw [if_pos refused]
    exact .refl
  · rw [if_neg refused]
    by_cases nothing : run.pending.take maxItems = []
    · rw [if_pos nothing]
      exact lane_waits standing rfl
    · rw [if_neg nothing]
      refine lane_move standing rfl rfl ⟨rfl, rfl⟩ (fun _ listed => listed) (.inl rfl) (fun _ => rfl) ?_
      have split := coe_take_drop run.pending maxItems
      simp only [QueueRun.everything, QueueRun.found, PullPhase.held]
      rw [← split, Multiset.coe_nil]
      abel

theorem deliver_move {jobs : List JobRow} (standing : run.lanes[lane]? = some phase) (held : phase.held = jobs) :
    LaneMove settings lane run (run.deliver lane jobs) := by
  rw [QueueRun.deliver]
  by_cases nothing : jobs = []
  · rw [if_pos nothing]
    exact lane_waits standing (by rw [held, nothing]; rfl)
  · rw [if_neg nothing]
    exact lane_waits standing held.symm

theorem end_schedule_move (standing : run.lanes[lane]? = some (.scheduling maxItems stage)) :
    LaneMove settings lane run (run.endSchedule lane maxItems stage) := by
  cases stage with
  | constructed => exact lane_waits standing rfl
  | opening => exact lane_waits standing rfl
  | refilled => exact lane_waits standing rfl
  | closing result => exact deliver_move standing rfl

theorem reserve_eq (settings : QueueSettings) (run : QueueRun) (maxItems : Nat) :
    ∃ source, (run.reserve settings maxItems).2 = { run with source } ∧
      source.pulled = run.source.pulled ++ (run.reserve settings maxItems).1 ∧
      (source = run.source ∨ ∃ maxItems, source = (run.source.pull run.store.jobs settings.nodeName maxItems).2) ∧
      ((run.reserve settings maxItems).1 = [] → source = run.source) := by
  rw [QueueRun.reserve]
  by_cases halted : run.stopped ∨ run.closed
  · rw [if_pos halted]
    exact ⟨run.source, rfl, (List.append_nil _).symm, .inl rfl, fun _ => rfl⟩
  · rw [if_neg halted]
    refine ⟨_, rfl, ?_, .inr ⟨maxItems, rfl⟩, ?_⟩
    all_goals
      rw [RefreshableQueuedJobSource.pull]
      by_cases nothing : run.source.select run.store.jobs settings.nodeName maxItems = []
    · rw [if_pos nothing]
      exact (List.append_nil _).symm
    · rw [if_neg nothing]
    · rw [if_pos nothing]
      exact fun _ => rfl
    · rw [if_neg nothing]
      exact fun empty => absurd empty nothing

theorem reserve_direct_move (standing : run.lanes[lane]? = some phase) (empty : phase.held = []) :
    LaneMove settings lane run (run.reserveDirect settings lane maxItems) := by
  obtain ⟨source, same, pulled, origin, _⟩ := reserve_eq settings run maxItems
  rw [QueueRun.reserveDirect, same]
  refine lane_move standing rfl rfl ⟨rfl, rfl⟩ (fun _ listed => listed) origin (fun _ => rfl) ?_
  have held : (if (run.reserve settings maxItems).1 = [] then PullPhase.idle
      else .reserved (run.reserve settings maxItems).1).held = (run.reserve settings maxItems).1 := by
    by_cases nothing : (run.reserve settings maxItems).1 = []
    · rw [if_pos nothing, nothing]
      rfl
    · rw [if_neg nothing]
      rfl
  rw [held, empty]
  simp only [QueueRun.found, QueueRun.everything]
  rw [pulled, ← Multiset.coe_add, Multiset.coe_nil]
  abel

theorem LaneMove.trans {middle : QueueRun} (first : LaneMove settings lane run middle) (kept : middle.source = run.source)
    (second : LaneMove settings lane middle after) : LaneMove settings lane run after where
  store := second.store.trans first.store
  running := ⟨second.running.1.trans first.running.1, second.running.2.trans first.running.2⟩
  lanes := ⟨second.lanes.1.trans first.lanes.1, fun other apart => (second.lanes.2 other apart).trans (first.lanes.2 other apart)⟩
  batches := fun batch listed => (second.batches batch listed).elim (first.batches batch) .inr
  source := by
    have later := second.source
    rw [kept, first.store] at later
    exact later
  exhausted := fun live => (second.exhausted live).trans (first.exhausted live)
  balance := by
    refine add_right_cancel (b := middle.found + middle.everything) ?_
    calc after.found + run.everything + (middle.found + middle.everything)
        = (after.found + middle.everything) + (middle.found + run.everything) := by abel
      _ = (middle.found + after.everything) + (run.found + middle.everything) := by rw [second.balance, first.balance]
      _ = run.found + after.everything + (middle.found + middle.everything) := by abel

theorem schedule_one_move (standing : run.lanes[lane]? = some (.scheduling maxItems stage)) :
    LaneMove settings lane run (run.scheduleOne settings prefetch lane maxItems stage) := by
  rw [QueueRun.scheduleOne]
  by_cases room : run.futures.length < prefetch.prefetchBatches ∧ run.exhausted = false ∧ run.closed = false
  · rw [if_pos room]
    obtain ⟨source, same, pulled, origin, untouched⟩ := reserve_eq settings run prefetch.prefetchSize
    dsimp only
    rw [same]
    by_cases nothing : (run.reserve settings prefetch.prefetchSize).1 = []
    · rw [if_pos nothing, untouched nothing]
      have flagged : LaneMove settings lane run { run with exhausted := run.exhausted || !settings.refreshable } :=
        ⟨rfl, ⟨rfl, rfl⟩, ⟨rfl, fun _ _ => rfl⟩, fun _ listed => .inl listed, .inl rfl, fun live => by simp [live], rfl⟩
      exact flagged.trans rfl (end_schedule_move standing)
    · rw [if_neg nothing]
      refine ⟨rfl, ⟨rfl, rfl⟩, ⟨rfl, fun _ _ => rfl⟩, fun batch listed => ?_, origin, fun _ => rfl, ?_⟩
      · rcases List.mem_append.mp listed with old | last
        · exact .inl old
        · rw [List.mem_singleton.mp last]
          exact .inr nothing
      simp only [QueueRun.found, QueueRun.everything]
      rw [pulled, List.flatten_append, ← Multiset.coe_add, ← Multiset.coe_add, List.flatten_singleton]
      abel
  · rw [if_neg room]
    exact end_schedule_move standing

theorem slice_move (standing : run.lanes[lane]? = some phase) (empty : phase.held = []) :
    LaneMove settings lane run (run.slice lane maxItems) := by
  refine lane_move standing rfl rfl ⟨rfl, rfl⟩ (fun _ listed => listed) (.inl rfl) (fun _ => rfl) ?_
  have split := coe_take_drop run.buffer maxItems
  rw [empty]
  simp only [QueueRun.everything, QueueRun.found, PullPhase.held]
  rw [← split, Multiset.coe_nil]
  abel

theorem drain_move (standing : run.lanes[lane]? = some (.draining maxItems)) :
    LaneMove settings lane run (run.drain lane maxItems) := by
  rw [QueueRun.drain]
  cases waiting : run.futures with
  | nil => exact slice_move standing rfl
  | cons batch rest =>
      dsimp only
      by_cases short : run.buffer.length < maxItems
      · rw [if_pos short]
        refine lane_move standing rfl rfl ⟨rfl, rfl⟩ (fun other listed => ?_) (.inl rfl) (fun _ => rfl) ?_
        · exact waiting ▸ List.mem_cons_of_mem _ listed
        simp only [QueueRun.everything, QueueRun.found, PullPhase.held, waiting, List.flatten_cons]
        rw [← Multiset.coe_add, Multiset.coe_nil]
        abel
      · rw [if_neg short]
        exact slice_move standing rfl

theorem enter_source_move (standing : run.lanes[lane]? = some (.entering maxItems)) :
    LaneMove settings lane run (run.enterSource settings lane maxItems) := by
  rw [QueueRun.enterSource]
  cases settings.prefetch with
  | none => exact reserve_direct_move standing rfl
  | some prefetch =>
      dsimp only
      by_cases closed : run.closed
      · rw [if_pos closed]
        exact lane_waits standing rfl
      · rw [if_neg closed]
        exact lane_waits standing rfl

theorem advance_lane_move (standing : run.lanes[lane]? = some phase)
    (moved : run.advanceLane settings lane phase = some after) : LaneMove settings lane run after := by
  cases phase with
  | entering maxItems =>
      cases moved
      exact enter_source_move standing
  | scheduling maxItems stage =>
      obtain ⟨prefetch, _, rfl⟩ := Option.map_eq_some_iff.mp moved
      exact schedule_one_move standing
  | draining maxItems =>
      cases moved
      exact drain_move standing
  | _ => cases moved

theorem finish_load_move (standing : run.lanes[lane]? = some phase)
    (moved : run.finishLoad lane true phase = some after) : LaneMove settings lane run after := by
  cases phase with
  | loading maxItems batch =>
      cases moved
      refine lane_move standing rfl rfl ⟨rfl, rfl⟩ (fun _ listed => listed) (.inl rfl) (fun _ => rfl) ?_
      simp only [QueueRun.everything, QueueRun.found, PullPhase.held]
      rw [← Multiset.coe_add, Multiset.coe_nil]
      abel
  | reserved batch =>
      cases moved
      exact lane_waits standing rfl
  | _ => cases moved

theorem finish_claim_move {outcome : ClaimOutcome} (standing : run.lanes[lane]? = some phase) (succeeds : outcome ≠ .failed)
    (moved : run.finishClaim lane outcome phase = some after) : LaneMove settings lane run after := by
  cases phase with
  | claiming jobs =>
      cases outcome with
      | leased =>
          cases moved
          refine lane_move standing rfl rfl ⟨rfl, rfl⟩ (fun _ listed => listed) (.inl rfl) (fun _ => rfl) ?_
          simp only [QueueRun.everything, QueueRun.found, PullPhase.held]
          rw [← Multiset.coe_add, Multiset.coe_nil]
          abel
      | paused =>
          cases moved
          refine lane_move standing rfl rfl ⟨rfl, rfl⟩ (fun _ listed => listed) (.inl rfl) (fun _ => rfl) ?_
          simp only [QueueRun.everything, QueueRun.found, PullPhase.held]
          rw [← Multiset.coe_add, Multiset.coe_nil]
          abel
      | failed => exact absurd rfl succeeds
  | _ => cases moved

end Moves

structure QueueSound (settings : QueueSettings) (run : QueueRun) : Prop where
  cursor : CursorSound run.store run.source
  live : settings.refreshable = true → run.exhausted = false

def QueueRun.Meets (settings : QueueSettings) (run : QueueRun) : QueueLabel → Prop
  | .create place => place.1 = settings.nodeName → run.source.lastRowid ≤ run.store.jobs.largest
  | _ => True

def QueueRun.MetStep (settings : QueueSettings) (run : QueueRun) (label : QueueLabel) (after : QueueRun) : Prop :=
  run.Step settings label after ∧ run.Meets settings label

section Steps

variable {settings : QueueSettings} {run after : QueueRun} {label : QueueLabel} {labels : List QueueLabel}

theorem lane_keeps (sound : QueueSound settings run) (store : after.store = run.store)
    (source : after.source = run.source ∨
      ∃ maxItems, after.source = (run.source.pull run.store.jobs settings.nodeName maxItems).2)
    (exhausted : settings.refreshable = true → after.exhausted = run.exhausted) :
    QueueSound settings after ∧ (Reachable settings.nodeName run.store run.source →
      Reachable settings.nodeName after.store after.source) := by
  have live : settings.refreshable = true → after.exhausted = false := fun flag => (exhausted flag).trans (sound.live flag)
  rcases source with same | ⟨maxItems, pulled⟩
  · refine ⟨⟨?_, live⟩, fun reachable => ?_⟩
    · rw [store, same]
      exact sound.cursor
    · rw [store, same]
      exact reachable
  · refine ⟨⟨?_, live⟩, fun reachable => ?_⟩
    · rw [store, pulled]
      exact pull_sound sound.cursor maxItems
    · rw [store, pulled]
      exact pull_reachable sound.cursor reachable maxItems

structure QueueKept (settings : QueueSettings) (run : QueueRun) (label : QueueLabel) (after : QueueRun) : Prop where
  sound : QueueSound settings after
  reach : run.Meets settings label → Reachable settings.nodeName run.store run.source →
    Reachable settings.nodeName after.store after.source
  balance : label.fails = false → run.found = run.everything → after.found = after.everything
  lanes : after.lanes.length = run.lanes.length ∧ ∀ other, label.lane? ≠ some other → after.lanes[other]? = run.lanes[other]?
  batches : ∀ batch ∈ after.futures, batch ∈ run.futures ∨ batch ≠ []
  running : label ≠ .stop → label ≠ .close → after.stopped = run.stopped ∧ after.closed = run.closed

theorem LaneMove.kept {lane : Nat} (sound : QueueSound settings run) (moved : LaneMove settings lane run after)
    (own : label.lane? = some lane) : QueueKept settings run label after := by
  obtain ⟨kept, reach⟩ := lane_keeps sound moved.store moved.source moved.exhausted
  have lanes : ∀ other, label.lane? ≠ some other → after.lanes[other]? = run.lanes[other]? :=
    fun other apart => moved.lanes.2 other fun same => apart (same ▸ own)
  refine ⟨kept, fun _ => reach, fun _ conserved => ?_, ⟨moved.lanes.1, lanes⟩, moved.batches, fun _ _ => moved.running⟩
  have balance := moved.balance
  rw [conserved, add_comm] at balance
  exact add_left_cancel balance

theorem failed_lane_kept (sound : QueueSound settings run) {lane : Nat} (fails : label.fails = true)
    (own : label.lane? = some lane) : QueueKept settings run label (run.setLane lane .idle) := by
  obtain ⟨kept, reach⟩ := @lane_keeps settings run (run.setLane lane .idle) sound rfl (.inl rfl) fun _ => rfl
  obtain ⟨length, others⟩ := set_lane_lanes run lane .idle
  refine ⟨kept, fun _ => reach, fun succeeds => ?_, ⟨length, fun other apart => ?_⟩, fun batch listed => .inl listed,
    fun _ _ => ⟨rfl, rfl⟩⟩
  · rw [fails] at succeeds
    cases succeeds
  · exact others other fun same => apart (same ▸ own)

theorem queue_step_kept (sound : QueueSound settings run) (step : run.Step settings label after) :
    QueueKept settings run label after := by
  cases label with
  | create place =>
      obtain ⟨store, created, rfl⟩ := Option.map_eq_some_iff.mp step
      exact ⟨⟨create_sound sound.cursor created, sound.live⟩,
        fun meets reachable => create_reachable reachable meets created, fun _ conserved => conserved,
        ⟨rfl, fun _ _ => rfl⟩, fun _ listed => .inl listed, fun _ _ => ⟨rfl, rfl⟩⟩
  | setStatus place status =>
      cases step
      obtain ⟨kept, reach⟩ := @status_sound settings.nodeName run.store run.source place status sound.cursor
      exact ⟨⟨kept, sound.live⟩, fun _ => reach, fun _ conserved => conserved, ⟨rfl, fun _ _ => rfl⟩,
        fun _ listed => .inl listed, fun _ _ => ⟨rfl, rfl⟩⟩
  | delete gone =>
      cases step
      obtain ⟨kept, reach⟩ := @delete_sound settings.nodeName run.store run.source gone sound.cursor
      exact ⟨⟨kept, sound.live⟩, fun _ => reach, fun _ conserved => conserved, ⟨rfl, fun _ _ => rfl⟩,
        fun _ listed => .inl listed, fun _ _ => ⟨rfl, rfl⟩⟩
  | stop =>
      cases step
      exact ⟨⟨sound.cursor, sound.live⟩, fun _ reachable => reachable, fun _ conserved => conserved,
        ⟨rfl, fun _ _ => rfl⟩, fun _ listed => .inl listed,
        fun stays => absurd rfl stays⟩
  | close =>
      cases step
      exact ⟨⟨sound.cursor, sound.live⟩, fun _ reachable => reachable, fun _ conserved => conserved,
        ⟨rfl, fun _ _ => rfl⟩, fun _ listed => .inl listed,
        fun _ stays => absurd rfl stays⟩
  | pull lane maxItems =>
      simp only [QueueRun.Step, QueueRun.step] at step
      cases standing : run.lanes[lane]? with
      | none =>
          rw [standing] at step
          cases step
      | some phase =>
          rw [standing] at step
          cases phase with
          | idle =>
              cases step
              exact (begin_pull_move standing).kept sound rfl
          | _ => cases step
  | advance lane =>
      obtain ⟨phase, standing, moved⟩ := Option.bind_eq_some_iff.mp step
      exact (advance_lane_move standing moved).kept sound rfl
  | loaded lane succeeds =>
      obtain ⟨phase, standing, moved⟩ := Option.bind_eq_some_iff.mp step
      cases succeeds with
      | true => exact (finish_load_move standing moved).kept sound rfl
      | false =>
          cases phase with
          | loading maxItems batch =>
              cases moved
              exact failed_lane_kept sound rfl rfl
          | reserved batch =>
              cases moved
              exact failed_lane_kept sound rfl rfl
          | _ => cases moved
  | claimed lane outcome =>
      obtain ⟨phase, standing, moved⟩ := Option.bind_eq_some_iff.mp step
      by_cases fails : outcome = .failed
      · subst fails
        cases phase with
        | claiming jobs =>
            cases moved
            exact failed_lane_kept sound rfl rfl
        | _ => cases moved
      · exact (finish_claim_move standing fails moved).kept sound rfl

structure QueueTable.Fresh (store : QueueTable) : Prop where
  rows : (store.jobs.rows.map commitOf).Pairwise (· < ·)
  counted : ∀ row ∈ store.jobs.rows, commitOf row ≤ store.commits

theorem queue_start_sound {store : QueueTable} (fresh : store.Fresh) : QueueSound settings (.start settings store) :=
  ⟨⟨fresh.rows, fresh.counted, List.Pairwise.nil, nofun, fun _ _ _ => nofun⟩, fun _ => rfl⟩

theorem queue_start_reachable {store : QueueTable} :
    Reachable settings.nodeName (QueueRun.start settings store).store (QueueRun.start settings store).source :=
  fun row stored _ _ => store.jobs.positive row stored

theorem queue_start_conserved {store : QueueTable} :
    (QueueRun.start settings store).found = (QueueRun.start settings store).everything := by
  have idle : settings.lanePhases.flatMap PullPhase.held = [] := by
    rw [QueueSettings.lanePhases]
    by_cases prefetching : settings.prefetch.isSome
    · rw [if_pos prefetching]
      rfl
    · rw [if_neg prefetching, List.flatMap_eq_nil_iff]
      intro phase member
      rw [List.eq_of_mem_replicate member]
      rfl
  simp only [QueueRun.found, QueueRun.everything, QueueRun.start, RefreshableQueuedJobSource.start]
  rw [idle]
  rfl

def QueueReaching (settings : QueueSettings) (run : QueueRun) : Prop :=
  QueueSound settings run ∧ Reachable settings.nodeName run.store run.source

def QueueConserving (settings : QueueSettings) (run : QueueRun) : Prop :=
  QueueSound settings run ∧ run.found = run.everything

theorem queue_run_reaching {store : QueueTable} (fresh : store.Fresh)
    (reached : Run (QueueRun.MetStep settings) (.start settings store) labels run) : QueueReaching settings run := by
  have initial : QueueReaching settings (.start settings store) := ⟨queue_start_sound fresh, queue_start_reachable⟩
  refine reached.invariant initial fun {before after label} kept step => ?_
  have moved := queue_step_kept kept.1 step.1
  exact ⟨moved.sound, moved.reach step.2 kept.2⟩

theorem queue_run_conserving {store : QueueTable} (fresh : store.Fresh)
    (reached : Run (QueueRun.Step settings) (.start settings store) labels run)
    (succeed : ∀ label ∈ labels, label.fails = false) : QueueConserving settings run := by
  have initial : QueueConserving settings (.start settings store) := ⟨queue_start_sound fresh, queue_start_conserved⟩
  refine reached.invariant_of_labels succeed initial fun {before after label} kept succeeds step => ?_
  have moved := queue_step_kept kept.1 step
  exact ⟨moved.sound, moved.balance succeeds kept.2⟩

theorem jobs_in_one_place {store : QueueTable} (fresh : store.Fresh)
    (reached : Run (QueueRun.Step settings) (.start settings store) labels run)
    (succeed : ∀ label ∈ labels, label.fails = false) :
    run.source.pulled.Perm (run.returned ++ run.pending ++ run.buffer ++ run.futures.flatten ++
      run.lanes.flatMap PullPhase.held) ∧
    (run.returned ++ run.pending ++ run.buffer ++ run.futures.flatten ++ run.lanes.flatMap PullPhase.held).Nodup := by
  obtain ⟨sound, conserved⟩ := queue_run_conserving fresh reached succeed
  have same : run.source.pulled.Perm (run.returned ++ run.pending ++ run.buffer ++ run.futures.flatten ++
      run.lanes.flatMap PullPhase.held) := by
    rw [← Multiset.coe_eq_coe]
    simpa only [QueueRun.found, QueueRun.everything, Multiset.coe_add] using conserved
  refine ⟨same, same.nodup_iff.mp (List.Nodup.of_map commitOf ?_)⟩
  exact sound.cursor.pulled.imp Nat.ne_of_lt

end Steps

end MicroWorkflow
