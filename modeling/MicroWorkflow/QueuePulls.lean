import MicroWorkflow.QueueFlow

set_option autoImplicit false

namespace MicroWorkflow

open Lib (Run Numbered RowTable)

def QueueLabel.Within (lane : Nat) : QueueLabel → Prop
  | .stop | .close => False
  | .pull other _ | .claimed other _ => other ≠ lane
  | .loaded other succeeds => other = lane → succeeds = true
  | _ => True

def QueueRun.Waits (run : QueueRun) : Prop := run.buffer ≠ [] ∨ run.futures ≠ []

def QueueRun.Settled (settings : QueueSettings) (run : QueueRun) : Prop :=
  run.exhausted = true ∨ ∀ count, run.source.select run.store.jobs settings.nodeName count = []

section Pulls

variable (settings : QueueSettings) (alone : Prop) (before run : QueueRun)

def PendingTaken (begun now : List JobRow) : Prop := begun = [] ∧ (alone → now = [])

structure PullSpent : Prop where
  prefetched : settings.prefetch.isSome → ¬before.Waits ∧ run.buffer = [] ∧ (alone → run.futures = [])
  settled : alone → run.Settled settings

def Drawn (maxItems : Nat) : PullPhase → Prop
  | .reserved _ | .claiming _ => True
  | .scheduling _ .constructed => False
  | .idle => PendingTaken alone before.pending run.pending ∧ PullSpent settings alone before run
  | .entering count | .scheduling count .opening | .scheduling count .refilled =>
      count = maxItems ∧ PendingTaken alone before.pending run.pending ∧ (settings.prefetch.isSome → before.Waits → run.Waits)
  | .draining count =>
      count = maxItems ∧ PendingTaken alone before.pending run.pending ∧ (settings.prefetch.isSome → before.Waits → run.Waits) ∧
        (alone → run.Waits ∨ run.Settled settings)
  | .loading count batch => count = maxItems ∧ PendingTaken alone before.pending run.pending ∧ batch ≠ []
  | .scheduling _ (.closing result) => PendingTaken alone before.pending run.pending ∧
      (result = [] → PullSpent settings alone before run)

structure QueueShape : Prop where
  sound : QueueSound settings run
  lanes : settings.prefetch.isSome → run.lanes.length = 1
  batches : ∀ batch ∈ run.futures, batch ≠ []

structure Drawing (lane maxItems : Nat) : Prop where
  shape : QueueShape settings run
  running : run.stopped = false ∧ run.closed = false
  drawn : ∃ phase, run.lanes[lane]? = some phase ∧ Drawn settings alone before run maxItems phase

variable {settings alone before run} {after : QueueRun} {label : QueueLabel} {labels : List QueueLabel}
  {lane maxItems count : Nat} {phase : PullPhase} {stage : ScheduleStage} {prefetch : PrefetchSettings}

theorem set_lane_standing (standing : run.lanes[lane]? = some phase) (next : PullPhase) {changed : QueueRun}
    (lanes : changed.lanes = run.lanes) : (changed.setLane lane next).lanes[lane]? = some next := by
  rw [QueueRun.setLane, lanes]
  exact List.getElem?_set_self (List.getElem?_eq_some_iff.mp standing).1

theorem reserve_select (running : run.stopped = false ∧ run.closed = false) (maxItems : Nat) :
    (run.reserve settings maxItems).1 = run.source.select run.store.jobs settings.nodeName maxItems := by
  rw [QueueRun.reserve, if_neg (by simp [running]), RefreshableQueuedJobSource.pull]
  by_cases nothing : run.source.select run.store.jobs settings.nodeName maxItems = []
  · rw [if_pos nothing, nothing]
  · rw [if_neg nothing]

theorem reserve_nothing (running : run.stopped = false ∧ run.closed = false) (positive : 0 < maxItems)
    (nothing : (run.reserve settings maxItems).1 = []) : run.Settled settings := by
  rw [reserve_select running] at nothing
  exact .inr (RowTable.scan_nothing positive nothing)

theorem drawn_apart (apart : ¬alone) (same : settings.prefetch.isSome → after.buffer = run.buffer ∧ after.futures = run.futures)
    (drawn : Drawn settings alone before run maxItems phase) : Drawn settings alone before after maxItems phase := by
  have taken : PendingTaken alone before.pending run.pending → PendingTaken alone before.pending after.pending :=
    fun kept => ⟨kept.1, fun only => absurd only apart⟩
  have spent : PullSpent settings alone before run → PullSpent settings alone before after := by
    refine fun kept => ⟨fun prefetching => ?_, fun only => absurd only apart⟩
    obtain ⟨none, buffer, _⟩ := kept.prefetched prefetching
    exact ⟨none, (same prefetching).1.trans buffer, fun only => absurd only apart⟩
  have waits : settings.prefetch.isSome → run.Waits → after.Waits := by
    intro prefetching kept
    rwa [QueueRun.Waits, (same prefetching).1, (same prefetching).2]
  cases phase with
  | reserved batch => trivial
  | claiming jobs => trivial
  | idle => exact ⟨taken drawn.1, spent drawn.2⟩
  | entering count => exact ⟨drawn.1, taken drawn.2.1, fun inside some => waits inside (drawn.2.2 inside some)⟩
  | draining count =>
      obtain ⟨same, kept, found, _⟩ := drawn
      exact ⟨same, taken kept, fun inside some => waits inside (found inside some), fun only => absurd only apart⟩
  | loading count batch => exact ⟨drawn.1, taken drawn.2.1, drawn.2.2⟩
  | scheduling count stage =>
      cases stage with
      | constructed => exact drawn
      | opening => exact ⟨drawn.1, taken drawn.2.1, fun inside some => waits inside (drawn.2.2 inside some)⟩
      | refilled => exact ⟨drawn.1, taken drawn.2.1, fun inside some => waits inside (drawn.2.2 inside some)⟩
      | closing result => exact ⟨taken drawn.1, fun nothing => spent (drawn.2 nothing)⟩

def Draws (settings : QueueSettings) (alone : Prop) (before : QueueRun) (lane maxItems : Nat) (after : QueueRun) : Prop :=
  ∃ phase, after.lanes[lane]? = some phase ∧ Drawn settings alone before after maxItems phase

theorem enter_draws (running : run.stopped = false ∧ run.closed = false) (positive : 0 < maxItems)
    (standing : run.lanes[lane]? = some (.entering count)) (drawn : Drawn settings alone before run maxItems (.entering count)) :
    Draws settings alone before lane maxItems (run.enterSource settings lane count) := by
  obtain ⟨rfl, taken, waits⟩ := drawn
  rw [QueueRun.enterSource]
  cases prefetching : settings.prefetch with
  | some prefetch =>
      dsimp only
      rw [if_neg (by simp [running])]
      exact ⟨_, set_lane_standing standing _ rfl, rfl, taken, waits⟩
  | none =>
      obtain ⟨source, same, _, _, untouched⟩ := reserve_eq settings run count
      dsimp only
      rw [QueueRun.reserveDirect, same]
      by_cases nothing : (run.reserve settings count).1 = []
      · have settled := reserve_nothing running positive nothing
        rw [if_pos nothing, untouched nothing]
        refine ⟨_, set_lane_standing standing _ rfl, taken, fun inside => ?_, fun _ => settled⟩
        rw [prefetching] at inside
        cases inside
      · rw [if_neg nothing]
        exact ⟨_, set_lane_standing standing _ rfl, trivial⟩

theorem end_schedule_draws (standing : run.lanes[lane]? = some (.scheduling count stage)) {changed : QueueRun}
    (lanes : changed.lanes = run.lanes) (drawn : Drawn settings alone before changed maxItems (.scheduling count stage))
    (full : changed.Waits ∨ changed.Settled settings) :
    Draws settings alone before lane maxItems (changed.endSchedule lane count stage) := by
  cases stage with
  | constructed => cases drawn
  | opening => exact ⟨_, set_lane_standing standing _ lanes, drawn.1, drawn.2.1, drawn.2.2, fun _ => full⟩
  | refilled => exact ⟨_, set_lane_standing standing _ lanes, drawn.1, drawn.2.1, drawn.2.2, fun _ => full⟩
  | closing result =>
      rw [QueueRun.endSchedule, QueueRun.deliver]
      by_cases nothing : result = []
      · rw [if_pos nothing]
        have spent := drawn.2 nothing
        exact ⟨_, set_lane_standing standing _ lanes, drawn.1, spent.prefetched, spent.settled⟩
      · rw [if_neg nothing]
        exact ⟨_, set_lane_standing standing _ lanes, trivial⟩

theorem schedule_draws (running : run.stopped = false ∧ run.closed = false)
    (standing : run.lanes[lane]? = some (.scheduling count stage))
    (drawn : Drawn settings alone before run maxItems (.scheduling count stage)) :
    Draws settings alone before lane maxItems (run.scheduleOne settings prefetch lane count stage) := by
  rw [QueueRun.scheduleOne]
  by_cases room : run.futures.length < prefetch.prefetchBatches ∧ run.exhausted = false ∧ run.closed = false
  · rw [if_pos room]
    obtain ⟨source, same, _, _, untouched⟩ := reserve_eq settings run prefetch.prefetchSize
    dsimp only
    rw [same]
    by_cases nothing : (run.reserve settings prefetch.prefetchSize).1 = []
    · have settled := reserve_nothing running prefetch.positive.1 nothing
      have empty := settled.resolve_left (by simp [room.2.1])
      rw [if_pos nothing, untouched nothing]
      refine end_schedule_draws standing rfl ?_ (.inr (.inr empty))
      cases stage with
      | constructed => cases drawn
      | opening => exact ⟨drawn.1, drawn.2.1, drawn.2.2⟩
      | refilled => exact ⟨drawn.1, drawn.2.1, drawn.2.2⟩
      | closing result =>
          exact ⟨drawn.1, fun none => ⟨(drawn.2 none).prefetched, fun _ => .inr empty⟩⟩
    · rw [if_neg nothing]
      refine ⟨_, standing, ?_⟩
      have grown : run.futures ++ [(run.reserve settings prefetch.prefetchSize).1] ≠ [] :=
        List.append_ne_nil_of_right_ne_nil _ (List.cons_ne_nil _ _)
      cases stage with
      | constructed => cases drawn
      | opening => exact ⟨drawn.1, drawn.2.1, fun _ _ => .inr grown⟩
      | refilled => exact ⟨drawn.1, drawn.2.1, fun _ _ => .inr grown⟩
      | closing result =>
          refine ⟨drawn.1, fun none => ?_⟩
          have spent := drawn.2 none
          have apart : ¬alone := by
            intro only
            rcases spent.settled only with used | empty
            · rw [room.2.1] at used
              cases used
            · exact nothing ((reserve_select running _).trans (empty _))
          refine ⟨fun inside => ?_, fun only => absurd only apart⟩
          obtain ⟨none, buffer, _⟩ := spent.prefetched inside
          exact ⟨none, buffer, fun only => absurd only apart⟩
  · rw [if_neg room]
    refine end_schedule_draws standing rfl drawn ?_
    by_cases used : run.exhausted = true
    · exact .inr (.inl used)
    · refine .inl (.inr fun empty => room ⟨?_, by simpa using used, running.2⟩)
      rw [empty]
      exact prefetch.positive.2

theorem slice_draws (positive : 0 < maxItems) (standing : run.lanes[lane]? = some (.draining maxItems))
    (drawn : Drawn settings alone before run maxItems (.draining maxItems))
    (enough : run.futures = [] ∨ maxItems ≤ run.buffer.length) :
    Draws settings alone before lane maxItems (run.slice lane maxItems) := by
  obtain ⟨_, taken, waits, full⟩ := drawn
  refine ⟨_, set_lane_standing standing _ rfl, taken, fun nothing => ?_⟩
  have buffer : run.buffer = [] := (List.take_eq_nil_iff.mp nothing).resolve_left (Nat.ne_of_gt positive)
  have futures : run.futures = [] := enough.resolve_right (by rw [buffer]; exact Nat.not_le.mpr positive)
  have idle : ¬run.Waits := not_or.mpr ⟨not_not.mpr buffer, not_not.mpr futures⟩
  refine ⟨fun inside => ⟨fun some => idle (waits inside some), ?_, fun _ => futures⟩, fun only => (full only).resolve_left idle⟩
  show run.buffer.drop maxItems = []
  rw [buffer, List.drop_nil]

theorem drain_draws (shape : QueueShape settings run) (positive : 0 < maxItems)
    (standing : run.lanes[lane]? = some (.draining count)) (drawn : Drawn settings alone before run maxItems (.draining count)) :
    Draws settings alone before lane maxItems (run.drain lane count) := by
  obtain rfl := drawn.1
  rw [QueueRun.drain]
  cases waiting : run.futures with
  | nil => exact slice_draws positive standing drawn (.inl waiting)
  | cons batch rest =>
      dsimp only
      by_cases short : run.buffer.length < count
      · rw [if_pos short]
        have some : batch ≠ [] := shape.batches batch (waiting ▸ List.mem_cons_self)
        exact ⟨_, set_lane_standing standing _ rfl, rfl, drawn.2.1, some⟩
      · rw [if_neg short]
        exact slice_draws positive standing drawn (.inr (Nat.not_lt.mp short))

theorem advance_draws (drawing : Drawing settings alone before run lane maxItems) (positive : 0 < maxItems)
    (step : run.Step settings (.advance lane) after) : Draws settings alone before lane maxItems after := by
  obtain ⟨phase, standing, drawn⟩ := drawing.drawn
  obtain ⟨other, same, moved⟩ := Option.bind_eq_some_iff.mp step
  obtain rfl := Option.some.inj (standing.symm.trans same)
  cases phase with
  | entering count =>
      cases moved
      exact enter_draws drawing.running positive standing drawn
  | scheduling count stage =>
      obtain ⟨prefetch, _, rfl⟩ := Option.map_eq_some_iff.mp moved
      exact schedule_draws drawing.running standing drawn
  | draining count =>
      cases moved
      exact drain_draws drawing.shape positive standing drawn
  | _ => cases moved

theorem loaded_draws (drawing : Drawing settings alone before run lane maxItems)
    (step : run.Step settings (.loaded lane true) after) : Draws settings alone before lane maxItems after := by
  obtain ⟨phase, standing, drawn⟩ := drawing.drawn
  obtain ⟨other, same, moved⟩ := Option.bind_eq_some_iff.mp step
  obtain rfl := Option.some.inj (standing.symm.trans same)
  cases phase with
  | loading count batch =>
      cases moved
      have some : run.buffer ++ batch ≠ [] := List.append_ne_nil_of_right_ne_nil _ drawn.2.2
      exact ⟨_, set_lane_standing standing _ rfl, drawn.1, drawn.2.1, fun _ _ => .inl some⟩
  | reserved batch =>
      cases moved
      exact ⟨_, set_lane_standing standing _ rfl, trivial⟩
  | _ => cases moved

theorem apart_same (shape : QueueShape settings run) (standing : run.lanes[lane]? = some phase) (apart : label.lane? ≠ some lane)
    (step : run.Step settings label after) (prefetching : settings.prefetch.isSome) :
    after.buffer = run.buffer ∧ after.futures = run.futures := by
  have absent : ∀ other, label.lane? = some other → run.lanes[other]? = none := by
    intro other moves
    have inside := (List.getElem?_eq_some_iff.mp standing).1
    have single := shape.lanes prefetching
    have away : other ≠ lane := fun same => apart (same ▸ moves)
    exact List.getElem?_eq_none (by omega)
  cases label with
  | create place =>
      obtain ⟨store, _, rfl⟩ := Option.map_eq_some_iff.mp step
      exact ⟨rfl, rfl⟩
  | setStatus place status =>
      cases step
      exact ⟨rfl, rfl⟩
  | delete gone =>
      cases step
      exact ⟨rfl, rfl⟩
  | stop =>
      cases step
      exact ⟨rfl, rfl⟩
  | close =>
      cases step
      exact ⟨rfl, rfl⟩
  | pull other count =>
      simp only [QueueRun.Step, QueueRun.step, absent other rfl] at step
      cases step
  | advance other =>
      simp only [QueueRun.Step, QueueRun.step, absent other rfl] at step
      cases step
  | loaded other succeeds =>
      simp only [QueueRun.Step, QueueRun.step, absent other rfl] at step
      cases step
  | claimed other outcome =>
      simp only [QueueRun.Step, QueueRun.step, absent other rfl] at step
      cases step

theorem shape_step (shape : QueueShape settings run) (step : run.Step settings label after) : QueueShape settings after := by
  have kept := queue_step_kept shape.sound step
  refine ⟨kept.sound, fun prefetching => kept.lanes.1.trans (shape.lanes prefetching), fun batch listed => ?_⟩
  exact (kept.batches batch listed).elim (shape.batches batch) id

theorem drawing_step (positive : 0 < maxItems) (only : alone → label.lane? = some lane) (inside : label.Within lane)
    (drawing : Drawing settings alone before run lane maxItems) (step : run.Step settings label after) :
    Drawing settings alone before after lane maxItems := by
  have kept := queue_step_kept drawing.shape.sound step
  have running : after.stopped = false ∧ after.closed = false := by
    have same := kept.running (by rintro rfl; exact inside) (by rintro rfl; exact inside)
    exact ⟨same.1.trans drawing.running.1, same.2.trans drawing.running.2⟩
  refine ⟨shape_step drawing.shape step, running, ?_⟩
  by_cases own : label.lane? = some lane
  · cases label with
    | pull other count => exact absurd (Option.some.inj own) inside
    | claimed other outcome => exact absurd (Option.some.inj own) inside
    | advance other =>
        cases own
        exact advance_draws drawing positive step
    | loaded other succeeds =>
        cases own
        obtain rfl := inside rfl
        exact loaded_draws drawing step
    | _ => cases own
  · obtain ⟨phase, standing, drawn⟩ := drawing.drawn
    refine ⟨phase, (kept.lanes.2 lane own).trans standing, drawn_apart (fun alone => own (only alone)) ?_ drawn⟩
    exact apart_same drawing.shape standing own step

theorem begin_drawing (shape : QueueShape settings run) (running : run.stopped = false ∧ run.closed = false)
    (positive : 0 < maxItems) (step : run.Step settings (.pull lane maxItems) after) :
    Drawing settings alone run after lane maxItems := by
  have same := (queue_step_kept shape.sound step).running nofun nofun
  refine ⟨shape_step shape step, ⟨same.1.trans running.1, same.2.trans running.2⟩, ?_⟩
  simp only [QueueRun.Step, QueueRun.step] at step
  cases standing : run.lanes[lane]? with
  | none =>
      rw [standing] at step
      cases step
  | some phase =>
      rw [standing] at step
      cases phase with
      | idle =>
          obtain rfl := Option.some.inj step
          rw [QueueRun.beginPull, if_neg (by simp [running, Nat.ne_of_gt positive])]
          by_cases nothing : run.pending.take maxItems = []
          · have pending := (List.take_eq_nil_iff.mp nothing).resolve_left (Nat.ne_of_gt positive)
            dsimp only
            rw [if_pos nothing]
            exact ⟨_, set_lane_standing standing _ rfl, rfl, ⟨pending, fun _ => pending⟩, fun _ waits => waits⟩
          · dsimp only
            rw [if_neg nothing]
            exact ⟨_, set_lane_standing standing _ rfl, trivial⟩
      | _ => cases step

theorem queue_run_shape {store : QueueTable} (fresh : store.Fresh)
    (reached : Run (QueueRun.Step settings) (.start settings store) labels run) : QueueShape settings run := by
  have initial : QueueShape settings (.start settings store) := by
    refine ⟨queue_start_sound fresh, fun prefetching => ?_, nofun⟩
    simp only [QueueRun.start, QueueSettings.lanePhases, if_pos prefetching]
    rfl
  exact reached.invariant initial shape_step

end Pulls

-- A pull during which nothing fails, stops or closes and that claims nothing found nothing waiting. When
-- nothing else moved in the meantime it leaves nothing waiting either.
def QueueRun.Drains (settings : QueueSettings) (run : QueueRun) : Prop :=
  ∀ lane maxItems begun labels later, 0 < maxItems → run.stopped = false ∧ run.closed = false →
    run.Step settings (.pull lane maxItems) begun → Run (QueueRun.Step settings) begun labels later →
    (∀ label ∈ labels, label.Within lane) → later.lanes[lane]? = some .idle →
    run.pending = [] ∧ (settings.prefetch.isSome → run.buffer = [] ∧ run.futures = [] ∧ later.buffer = []) ∧
    ((∀ label ∈ labels, label.lane? = some lane) →
      later.pending = [] ∧ (settings.prefetch.isSome → later.futures = []) ∧
      (settings.refreshable = true → ∀ count, later.source.select later.store.jobs settings.nodeName count = []))

def QueueRun.HandsOn (settings : QueueSettings) (run : QueueRun) : Prop :=
  ∀ lane jobs outcome after, run.lanes[lane]? = some (.claiming jobs) → run.Step settings (.claimed lane outcome) after →
    after.returned = (if outcome = .leased then run.returned ++ jobs else run.returned) ∧
    after.pending = (if outcome = .paused then run.pending ++ jobs else run.pending)

section Steps

variable {settings : QueueSettings} {run : QueueRun} {labels : List QueueLabel}

theorem run_drains (shape : QueueShape settings run) : run.Drains settings := by
  intro lane maxItems begun labels later positive running pulled rest inside ended
  have spent : ∀ alone : Prop, (alone → ∀ label ∈ labels, label.lane? = some lane) →
      QueueSound settings later ∧ PendingTaken alone run.pending later.pending ∧ PullSpent settings alone run later := by
    intro alone only
    have initial : Drawing settings alone run begun lane maxItems := begin_drawing shape running positive pulled
    have own : ∀ label ∈ labels, label.Within lane ∧ (alone → label.lane? = some lane) :=
      fun label listed => ⟨inside label listed, fun is => only is label listed⟩
    have drawing : Drawing settings alone run later lane maxItems :=
      rest.invariant_of_labels own initial fun drawing good step => drawing_step positive good.2 good.1 drawing step
    obtain ⟨phase, standing, drawn⟩ := drawing.drawn
    cases ended.symm.trans standing
    exact ⟨drawing.shape.sound, drawn⟩
  obtain ⟨_, taken, left⟩ := spent False False.elim
  refine ⟨taken.1, fun prefetching => ?_, fun only => ?_⟩
  · obtain ⟨none, buffer, _⟩ := left.prefetched prefetching
    exact ⟨by_contra fun some => none (.inl some), by_contra fun some => none (.inr some), buffer⟩
  · obtain ⟨live, taken, left⟩ := spent True fun _ => only
    refine ⟨taken.2 trivial, fun prefetching => (left.prefetched prefetching).2.2 trivial, fun flag => ?_⟩
    exact (left.settled trivial).resolve_left (by simp [live.live flag])

theorem run_hands_on (settings : QueueSettings) (run : QueueRun) : run.HandsOn settings := by
  intro lane jobs outcome after standing step
  obtain ⟨phase, same, moved⟩ := Option.bind_eq_some_iff.mp step
  cases standing.symm.trans same
  cases outcome with
  | leased =>
      cases moved
      exact ⟨rfl, rfl⟩
  | paused =>
      cases moved
      exact ⟨rfl, rfl⟩
  | failed =>
      cases moved
      exact ⟨rfl, rfl⟩

-- The live queue. The cursor hands out every job once and in the order of the commits, as long as each job
-- of the node is created while the cursor has not passed every number in use, and a creation keeps this
-- only then. What it hands out goes through the stacked sources without loss or repetition unless a pull
-- fails: a claimed burst is handed on, and a later pull hands on nothing only when nothing waited. An empty
-- reservation never exhausts a refreshable source.
theorem live_queue_source (settings : QueueSettings) (store : QueueTable) (fresh : store.Fresh) (labels : List QueueLabel)
    (run : QueueRun) (reached : Run (QueueRun.Step settings) (.start settings store) labels run) :
    (Run (QueueRun.MetStep settings) (.start settings store) labels run →
      FairCursor settings.nodeName run.store run.source ∧
      ∀ place after, place.1 = settings.nodeName → run.Step settings (.create place) after →
        (FairCursor settings.nodeName after.store after.source ↔ run.Meets settings (.create place))) ∧
    ((∀ label ∈ labels, label.fails = false) →
      run.source.pulled.Perm (run.returned ++ run.pending ++ run.buffer ++ run.futures.flatten ++
        run.lanes.flatMap PullPhase.held) ∧
      (run.returned ++ run.pending ++ run.buffer ++ run.futures.flatten ++ run.lanes.flatMap PullPhase.held).Nodup) ∧
    run.HandsOn settings ∧ run.Drains settings ∧ (settings.refreshable = true → run.exhausted = false) := by
  have shape := queue_run_shape fresh reached
  refine ⟨fun met => ?_, jobs_in_one_place fresh reached, run_hands_on settings run, run_drains shape, shape.sound.live⟩
  obtain ⟨sound, reachable⟩ := queue_run_reaching fresh met
  refine ⟨fair_of_reachable sound.cursor reachable, fun place after here step => ?_⟩
  obtain ⟨grown, created, rfl⟩ := Option.map_eq_some_iff.mp step
  refine (create_fair_iff sound.cursor reachable here created).trans ?_
  exact ⟨fun room _ => room, fun meets => meets here⟩

end Steps

section Examples

def emptyQueue : QueueTable := ⟨.empty, 0⟩

theorem empty_queue_fresh : emptyQueue.Fresh := ⟨List.Pairwise.nil, nofun⟩

instance (settings : QueueSettings) (run : QueueRun) (label : QueueLabel) : Decidable (run.Meets settings label) :=
  match label with
  | .create place => inferInstanceAs (Decidable (place.1 = settings.nodeName → run.source.lastRowid ≤ run.store.jobs.largest))
  | .setStatus _ _ | .delete _ | .stop | .close | .pull _ _ | .advance _ | .loaded _ _ | .claimed _ _ =>
      inferInstanceAs (Decidable True)

def metStep (settings : QueueSettings) (run : QueueRun) (label : QueueLabel) : Option QueueRun :=
  if run.Meets settings label then run.step settings label else none

theorem met_run {settings : QueueSettings} {start run : QueueRun} {labels : List QueueLabel}
    (computed : labels.foldlM (metStep settings) start = some run) : Run (QueueRun.MetStep settings) start labels run := by
  refine (Run.of_fold computed).imp fun {before after label} step => ?_
  obtain ⟨meets, moved⟩ := Option.ite_none_right_eq_some.mp step
  exact ⟨moved, meets⟩

def prefetched : QueueSettings := ⟨"n", true, some ⟨2, 1, by decide⟩, 1, fun _ => rfl⟩

def pausedLabels : List QueueLabel :=
  [.create ("n", 5), .advance 0, .advance 0, .create ("n", 3), .pull 0 4, .advance 0, .advance 0, .advance 0, .loaded 0 true,
    .advance 0, .advance 0, .advance 0, .loaded 0 true, .advance 0, .advance 0, .advance 0, .claimed 0 .paused,
    .pull 0 1, .claimed 0 .leased, .pull 0 9, .claimed 0 .leased]

def emptyPull : List QueueLabel := List.replicate 4 (.advance 0)

def PullPhase.isIdle : PullPhase → Bool
  | .idle => true
  | _ => false

-- A prefetched burst refused by a pause and claimed in two later pulls. The pull after them finds nothing.
theorem live_queue_source_paused : ∃ run, Run (QueueRun.Step prefetched) (.start prefetched emptyQueue) pausedLabels run ∧
    run.returned.map (fun row => row.value.jobId) = [5, 3] ∧ FairCursor "n" run.store run.source ∧
    run.source.pulled.Perm (run.returned ++ run.pending ++ run.buffer ++ run.futures.flatten ++
      run.lanes.flatMap PullPhase.held) ∧ run.exhausted = false ∧
    run.pending = [] ∧ run.buffer = [] ∧ run.futures = [] := by
  have computed : (pausedLabels.foldlM (metStep prefetched) (.start prefetched emptyQueue)).any fun run =>
      run.returned.map (fun row => row.value.jobId) = [5, 3] ∧ (run.stopped = false ∧ run.closed = false) ∧
        (run.step prefetched (.pull 0 8)).any fun begun =>
          (emptyPull.foldlM (QueueRun.step prefetched) begun).any fun later => later.lanes[0]?.any PullPhase.isIdle := by
    decide +kernel
  obtain ⟨run, ended, facts⟩ := (Option.any_eq_true _ _).mp computed
  obtain ⟨answered, running, pulls⟩ := of_decide_eq_true facts
  obtain ⟨begun, pulled, rest⟩ := (Option.any_eq_true _ _).mp pulls
  obtain ⟨later, drawn, idle⟩ := (Option.any_eq_true _ _).mp rest
  have met := met_run ended
  have reached : Run (QueueRun.Step prefetched) (.start prefetched emptyQueue) pausedLabels run :=
    met.imp fun step => step.1
  have result := live_queue_source prefetched emptyQueue empty_queue_fresh pausedLabels run reached
  have standing : later.lanes[0]? = some .idle := by
    obtain ⟨phase, here, same⟩ := (Option.any_eq_true _ _).mp idle
    cases phase with
    | idle => exact here
    | _ => cases same
  obtain ⟨pending, waiting, _⟩ := result.2.2.2.1 0 8 begun emptyPull later (by decide) running pulled (Run.of_fold drawn)
    (fun label listed => by rw [List.eq_of_mem_replicate listed]; trivial) standing
  obtain ⟨buffer, futures, _⟩ := waiting rfl
  exact ⟨run, reached, answered, (result.1 met).1, (result.2.1 (by decide)).1, result.2.2.2.2 rfl, pending, buffer, futures⟩

def direct : QueueSettings := ⟨"n", true, none, 1, nofun⟩

def reusedLabels : List QueueLabel :=
  [.create ("n", 1), .pull 0 8, .advance 0, .loaded 0 true, .claimed 0 .leased, .setStatus ("n", 1) .done,
    .delete fun place => place = ("n", 1), .create ("n", 2)]

-- The row of a deleted job was the last one. The next job gets its number, and no pull finds it.
theorem reused_number_not_pulled : ∃ run, Run (QueueRun.Step direct) (.start direct emptyQueue) reusedLabels run ∧
    (∀ label ∈ reusedLabels, label.fails = false) ∧ ¬ FairCursor "n" run.store run.source := by
  have computed : (reusedLabels.foldlM (QueueRun.step direct) (.start direct emptyQueue)).any fun run =>
      run.source.select run.store.jobs "n" 8 = [] ∧ ∃ row ∈ run.store.jobs.rows, row.value.nodeName = "n" ∧
        row.value.status = .queued ∧ ∀ earlier ∈ run.source.pulled, commitOf earlier < commitOf row := by decide +kernel
  obtain ⟨run, ended, facts⟩ := (Option.any_eq_true _ _).mp computed
  obtain ⟨nothing, row, stored, here, queued, unpassed⟩ := of_decide_eq_true facts
  refine ⟨run, Run.of_fold ended, by decide, fun fair => ?_⟩
  have found := (fair 8).2 row stored here queued unpassed (.inl (by rw [nothing]; decide))
  rw [nothing] at found
  cases found

end Examples

end MicroWorkflow
