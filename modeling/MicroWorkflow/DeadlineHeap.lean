import MicroWorkflow.AttemptWatches

set_option autoImplicit false

namespace MicroWorkflow

open Lib (Table)

def AttemptWatch.armed (watch : AttemptWatch) : DeadlineKind → Option Moment
  | .total => watch.totalDeadline
  | .external => if 0 < watch.externalWaitDepth then watch.externalWaitDeadline else none
  | .checkpoint => if 0 < watch.externalWaitDepth then none else watch.checkpointDeadline

def InHeap (deadlines : List DeadlineEntry) (watch : AttemptWatch) (kind : DeadlineKind) (deadline : Moment) : Prop :=
  ∃ entry ∈ deadlines, entry.watchId = watch.watchId ∧ entry.revision = watch.revision ∧
    entry.kind = kind ∧ entry.deadline = deadline

def Exempted (recorded : List (String × Marker)) (watch : AttemptWatch) (kind : DeadlineKind) (deadline : Moment) : Prop :=
  ∃ time, time < deadline ∧
    match kind with
    | .total => False
    | .external => (watch.watchId, Marker.renewalEntry (some deadline) time) ∈ recorded
    | .checkpoint => (watch.watchId, Marker.waitEntry watch.revision time) ∈ recorded ∨
        (watch.watchId, Marker.handlerExit watch.revision time) ∈ recorded

structure MarkersRecorded (recorded : List (String × Marker)) (watch : AttemptWatch) : Prop where
  handlerExit : ∀ revision time, watch.handlerExit = some (revision, time) →
    (watch.watchId, Marker.handlerExit revision time) ∈ recorded
  waitEntry : ∀ revision time, watch.externalWaitEntry = some (revision, time) →
    (watch.watchId, Marker.waitEntry revision time) ∈ recorded
  renewalEntry : ∀ deadline time, watch.externalRenewalEntry = some (deadline, time) →
    (watch.watchId, Marker.renewalEntry deadline time) ∈ recorded

structure WatchShaped (watch : AttemptWatch) : Prop where
  registered : watch.state = .active → watch.registered = true
  unstarted : watch.started = false → watch.externalWaitDepth = 0 ∧ watch.totalDeadline = none ∧
    watch.checkpointDeadline = none
  unsupervised : watch.supervised = false → watch.totalDeadline = none ∧ watch.checkpointDeadline = none ∧
    watch.checkpointTimeout = none

structure WatchAccounted (deadlines : List DeadlineEntry) (recorded : List (String × Marker)) (watch : AttemptWatch) : Prop where
  complete : watch.state = .active → ∀ kind deadline, watch.armed kind = some deadline →
    InHeap deadlines watch kind deadline ∨ Exempted recorded watch kind deadline
  published : MarkersRecorded recorded watch
  shaped : WatchShaped watch

def EntryOf (watch : AttemptWatch) (entry : DeadlineEntry) : Prop :=
  watch.watchId = entry.watchId ∧ entry.revision ≤ watch.revision ∧
    (entry.revision = watch.revision → watch.state = .active → watch.armed entry.kind = some entry.deadline)

structure HeapAccounted (supervisor : Supervisor) : Prop where
  watch : ∀ watch ∈ supervisor.watches.rows, WatchAccounted supervisor.deadlines supervisor.recorded watch
  entry : ∀ entry ∈ supervisor.deadlines, ∃ watch ∈ supervisor.watches.rows, EntryOf watch entry
  sorted : supervisor.deadlines.Pairwise poppedBefore
  once : (supervisor.expired.map Prod.fst).Nodup
  ended : ∀ timeout ∈ supervisor.expired, ∃ watch ∈ supervisor.watches.rows,
    watch.watchId = timeout.1 ∧ watch.state ≠ .active

section Heap

variable {supervisor : Supervisor} {watch changed : AttemptWatch} {kind : DeadlineKind} {deadline : Moment}
  {entry : DeadlineEntry}

theorem popped_before_total (left right : DeadlineEntry) : poppedBefore left right ∨ poppedBefore right left := by
  unfold poppedBefore
  by_cases earlier : left.deadline < right.deadline
  · exact .inl (.inl earlier)
  · by_cases later : right.deadline < left.deadline
    · exact .inr (.inl later)
    · have same : left.deadline = right.deadline := le_antisymm (not_lt.mp later) (not_lt.mp earlier)
      by_cases first : left.serial ≤ right.serial
      · exact .inl (.inr ⟨same, first⟩)
      · exact .inr (.inr ⟨same.symm, by omega⟩)

theorem popped_before_trans {left middle right : DeadlineEntry} (first : poppedBefore left middle)
    (second : poppedBefore middle right) : poppedBefore left right := by
  cases first with
  | inl earlier =>
      cases second with
      | inl later => exact .inl (lt_trans earlier later)
      | inr same => exact .inl (same.1 ▸ earlier)
  | inr tie =>
      cases second with
      | inl later => exact .inl (tie.1 ▸ later)
      | inr same => exact .inr ⟨tie.1.trans same.1, Nat.le_trans tie.2 same.2⟩

instance : Std.Total poppedBefore := ⟨popped_before_total⟩

instance : IsTrans DeadlineEntry poppedBefore := ⟨fun _ _ _ => popped_before_trans⟩

theorem popped_before_deadline {left right : DeadlineEntry} (order : poppedBefore left right) :
    left.deadline ≤ right.deadline := by
  cases order with
  | inl earlier => exact le_of_lt earlier
  | inr tie => exact le_of_eq tie.1

theorem replace_same (same : watch.watchId = changed.watchId) : replaceWatch changed watch = changed := by
  rw [replaceWatch, same]

theorem set_watch_rows (supervisor : Supervisor) (watch : AttemptWatch) :
    (setWatch supervisor watch).watches.rows =
      supervisor.watches.rows.map fun old => if old.watchId = watch.watchId then replaceWatch watch old else old := by
  simp only [setWatch, Table.modify, decide_eq_true_eq]

theorem mem_set_watch {other : AttemptWatch} (member : other ∈ (setWatch supervisor watch).watches.rows) :
    other = watch ∨ (other ∈ supervisor.watches.rows ∧ other.watchId ≠ watch.watchId) := by
  rw [set_watch_rows, List.mem_map] at member
  obtain ⟨old, listed, same⟩ := member
  by_cases here : old.watchId = watch.watchId
  · left
    rw [if_pos here, replace_same here] at same
    exact same.symm
  · right
    rw [if_neg here] at same
    exact ⟨same ▸ listed, same ▸ here⟩

theorem set_watch_mem (member : watch ∈ supervisor.watches.rows) (same : changed.watchId = watch.watchId) :
    changed ∈ (setWatch supervisor changed).watches.rows := by
  rw [set_watch_rows, List.mem_map]
  exact ⟨watch, member, by rw [if_pos same.symm, replace_same same.symm]⟩

theorem set_watch_other {other : AttemptWatch} (member : other ∈ supervisor.watches.rows)
    (apart : other.watchId ≠ changed.watchId) : other ∈ (setWatch supervisor changed).watches.rows := by
  rw [set_watch_rows, List.mem_map]
  exact ⟨other, member, if_neg apart⟩

theorem set_watch_row {other : AttemptWatch} (member : watch ∈ supervisor.watches.rows) (same : changed.watchId = watch.watchId)
    (listed : other ∈ supervisor.watches.rows) :
    (other = watch ∧ changed ∈ (setWatch supervisor changed).watches.rows) ∨
      (other.watchId ≠ changed.watchId ∧ other ∈ (setWatch supervisor changed).watches.rows) := by
  by_cases here : other.watchId = changed.watchId
  · exact .inl ⟨Table.rows_inj listed member (here.trans same), set_watch_mem member same⟩
  · exact .inr ⟨here, set_watch_other listed here⟩

theorem push_deadlines (supervisor : Supervisor) (watch : AttemptWatch) (kind : DeadlineKind) (deadline : Option Moment) :
    (pushDeadline supervisor watch kind deadline).watches = supervisor.watches ∧
    (pushDeadline supervisor watch kind deadline).recorded = supervisor.recorded ∧
    (pushDeadline supervisor watch kind deadline).expired = supervisor.expired ∧
    (pushDeadline supervisor watch kind deadline).clock = supervisor.clock := by
  cases deadline with
  | none => exact ⟨rfl, rfl, rfl, rfl⟩
  | some deadline => exact ⟨rfl, rfl, rfl, rfl⟩

theorem mem_push {deadline : Option Moment} :
    entry ∈ (pushDeadline supervisor watch kind deadline).deadlines ↔
      entry ∈ supervisor.deadlines ∨ ∃ moment, deadline = some moment ∧
        entry = ⟨moment, supervisor.serial + 1, watch.watchId, kind, watch.revision⟩ := by
  cases deadline with
  | none => simp [pushDeadline]
  | some moment =>
      simp only [pushDeadline, List.mem_orderedInsert, Option.some.injEq, exists_eq_left']
      exact or_comm

theorem push_sorted (sorted : supervisor.deadlines.Pairwise poppedBefore) (deadline : Option Moment) :
    (pushDeadline supervisor watch kind deadline).deadlines.Pairwise poppedBefore := by
  cases deadline with
  | none => exact sorted
  | some deadline => exact sorted.orderedInsert _ _

theorem schedule_unchanged (supervisor : Supervisor) (watch : AttemptWatch) :
    (scheduleWatch supervisor watch).watches = supervisor.watches ∧
    (scheduleWatch supervisor watch).recorded = supervisor.recorded ∧
    (scheduleWatch supervisor watch).expired = supervisor.expired ∧
    (scheduleWatch supervisor watch).clock = supervisor.clock := by
  have first := push_deadlines supervisor watch .total watch.totalDeadline
  by_cases waits : 0 < watch.externalWaitDepth
  · have second := push_deadlines (pushDeadline supervisor watch .total watch.totalDeadline) watch .external
      watch.externalWaitDeadline
    rw [scheduleWatch, if_pos waits]
    exact ⟨second.1.trans first.1, second.2.1.trans first.2.1, second.2.2.1.trans first.2.2.1,
      second.2.2.2.trans first.2.2.2⟩
  · have second := push_deadlines (pushDeadline supervisor watch .total watch.totalDeadline) watch .checkpoint
      watch.checkpointDeadline
    rw [scheduleWatch, if_neg waits]
    exact ⟨second.1.trans first.1, second.2.1.trans first.2.1, second.2.2.1.trans first.2.2.1,
      second.2.2.2.trans first.2.2.2⟩

theorem mem_schedule (member : entry ∈ (scheduleWatch supervisor watch).deadlines) :
    entry ∈ supervisor.deadlines ∨ (entry.watchId = watch.watchId ∧ entry.revision = watch.revision ∧
      watch.armed entry.kind = some entry.deadline) := by
  have total : ∀ other, other ∈ (pushDeadline supervisor watch .total watch.totalDeadline).deadlines →
      other ∈ supervisor.deadlines ∨ (other.watchId = watch.watchId ∧ other.revision = watch.revision ∧
        watch.armed other.kind = some other.deadline) := by
    intro other listed
    cases mem_push.mp listed with
    | inl old => exact .inl old
    | inr added =>
        obtain ⟨moment, set, rfl⟩ := added
        exact .inr ⟨rfl, rfl, set⟩
  by_cases waits : 0 < watch.externalWaitDepth
  · rw [scheduleWatch, if_pos waits] at member
    cases mem_push.mp member with
    | inl old => exact total entry old
    | inr added =>
        obtain ⟨moment, set, rfl⟩ := added
        exact .inr ⟨rfl, rfl, by rw [AttemptWatch.armed, if_pos waits, set]⟩
  · rw [scheduleWatch, if_neg waits] at member
    cases mem_push.mp member with
    | inl old => exact total entry old
    | inr added =>
        obtain ⟨moment, set, rfl⟩ := added
        exact .inr ⟨rfl, rfl, by rw [AttemptWatch.armed, if_neg waits, set]⟩

theorem schedule_keeps (member : entry ∈ supervisor.deadlines) : entry ∈ (scheduleWatch supervisor watch).deadlines := by
  have first : entry ∈ (pushDeadline supervisor watch .total watch.totalDeadline).deadlines := mem_push.mpr (.inl member)
  by_cases waits : 0 < watch.externalWaitDepth
  · rw [scheduleWatch, if_pos waits]
    exact mem_push.mpr (.inl first)
  · rw [scheduleWatch, if_neg waits]
    exact mem_push.mpr (.inl first)

theorem schedule_has (set : watch.armed kind = some deadline) :
    InHeap (scheduleWatch supervisor watch).deadlines watch kind deadline := by
  by_cases waits : 0 < watch.externalWaitDepth
  · rw [scheduleWatch, if_pos waits]
    cases kind with
    | total => exact ⟨_, mem_push.mpr (.inl (mem_push.mpr (.inr ⟨deadline, set, rfl⟩))), rfl, rfl, rfl, rfl⟩
    | external =>
        rw [AttemptWatch.armed, if_pos waits] at set
        exact ⟨_, mem_push.mpr (.inr ⟨deadline, set, rfl⟩), rfl, rfl, rfl, rfl⟩
    | checkpoint =>
        rw [AttemptWatch.armed, if_pos waits] at set
        exact absurd set (by simp)
  · rw [scheduleWatch, if_neg waits]
    cases kind with
    | total => exact ⟨_, mem_push.mpr (.inl (mem_push.mpr (.inr ⟨deadline, set, rfl⟩))), rfl, rfl, rfl, rfl⟩
    | external =>
        rw [AttemptWatch.armed, if_neg waits] at set
        exact absurd set (by simp)
    | checkpoint =>
        rw [AttemptWatch.armed, if_neg waits] at set
        exact ⟨_, mem_push.mpr (.inr ⟨deadline, set, rfl⟩), rfl, rfl, rfl, rfl⟩

theorem schedule_sorted (sorted : supervisor.deadlines.Pairwise poppedBefore) :
    (scheduleWatch supervisor watch).deadlines.Pairwise poppedBefore := by
  by_cases waits : 0 < watch.externalWaitDepth
  · rw [scheduleWatch, if_pos waits]
    exact push_sorted (push_sorted sorted _) _
  · rw [scheduleWatch, if_neg waits]
    exact push_sorted (push_sorted sorted _) _

theorem schedule_all_unchanged (watches : List AttemptWatch) (supervisor : Supervisor) :
    (watches.foldl scheduleWatch supervisor).watches = supervisor.watches ∧
    (watches.foldl scheduleWatch supervisor).recorded = supervisor.recorded ∧
    (watches.foldl scheduleWatch supervisor).expired = supervisor.expired ∧
    (watches.foldl scheduleWatch supervisor).clock = supervisor.clock := by
  induction watches generalizing supervisor with
  | nil => exact ⟨rfl, rfl, rfl, rfl⟩
  | cons watch rest ih =>
      have first := schedule_unchanged supervisor watch
      have later := ih (scheduleWatch supervisor watch)
      exact ⟨later.1.trans first.1, later.2.1.trans first.2.1, later.2.2.1.trans first.2.2.1, later.2.2.2.trans first.2.2.2⟩

theorem mem_schedule_all {watches : List AttemptWatch} (member : entry ∈ (watches.foldl scheduleWatch supervisor).deadlines) :
    entry ∈ supervisor.deadlines ∨ ∃ watch ∈ watches, entry.watchId = watch.watchId ∧ entry.revision = watch.revision ∧
      watch.armed entry.kind = some entry.deadline := by
  induction watches generalizing supervisor with
  | nil => exact .inl member
  | cons watch rest ih =>
      cases ih member with
      | inl before =>
          cases mem_schedule before with
          | inl old => exact .inl old
          | inr added => exact .inr ⟨watch, List.mem_cons_self, added⟩
      | inr added =>
          obtain ⟨other, listed, facts⟩ := added
          exact .inr ⟨other, List.mem_cons_of_mem _ listed, facts⟩

theorem schedule_all_keeps {watches : List AttemptWatch} (member : entry ∈ supervisor.deadlines) :
    entry ∈ (watches.foldl scheduleWatch supervisor).deadlines := by
  induction watches generalizing supervisor with
  | nil => exact member
  | cons watch rest ih => exact ih (schedule_keeps member)

theorem schedule_all_has {watches : List AttemptWatch} (listed : watch ∈ watches) (set : watch.armed kind = some deadline) :
    InHeap (watches.foldl scheduleWatch supervisor).deadlines watch kind deadline := by
  induction watches generalizing supervisor with
  | nil => exact absurd listed List.not_mem_nil
  | cons first rest ih =>
      cases List.mem_cons.mp listed with
      | inl same =>
          subst same
          have has : InHeap (scheduleWatch supervisor watch).deadlines watch kind deadline := schedule_has set
          obtain ⟨entry, member, facts⟩ := has
          have kept : entry ∈ (rest.foldl scheduleWatch (scheduleWatch supervisor watch)).deadlines := schedule_all_keeps member
          exact ⟨entry, kept, facts⟩
      | inr later => exact ih later

theorem schedule_all_sorted (watches : List AttemptWatch) (sorted : supervisor.deadlines.Pairwise poppedBefore) :
    (watches.foldl scheduleWatch supervisor).deadlines.Pairwise poppedBefore := by
  induction watches generalizing supervisor with
  | nil => exact sorted
  | cons watch rest ih => exact ih (schedule_sorted sorted)

theorem compact_unchanged (supervisor : Supervisor) :
    (compactDeadlines supervisor).watches = supervisor.watches ∧
    (compactDeadlines supervisor).recorded = supervisor.recorded ∧
    (compactDeadlines supervisor).expired = supervisor.expired ∧
    (compactDeadlines supervisor).clock = supervisor.clock := by
  by_cases short : supervisor.deadlines.length ≤ max 256 ((registeredWatches supervisor).length * 8)
  · rw [compactDeadlines, if_pos short]
    exact ⟨rfl, rfl, rfl, rfl⟩
  · rw [compactDeadlines, if_neg short]
    exact schedule_all_unchanged _ _

theorem compact_accounted (accounted : HeapAccounted supervisor) : HeapAccounted (compactDeadlines supervisor) := by
  by_cases short : supervisor.deadlines.length ≤ max 256 ((registeredWatches supervisor).length * 8)
  · rw [compactDeadlines, if_pos short]
    exact accounted
  · obtain ⟨watches, recorded, expired, _⟩ := compact_unchanged supervisor
    have rebuilt : compactDeadlines supervisor =
        ((registeredWatches supervisor).filter AttemptWatch.active).foldl scheduleWatch { supervisor with deadlines := [] } := by
      rw [compactDeadlines, if_neg short]
    refine ⟨?_, ?_, ?_, by rw [expired]; exact accounted.once, by rw [expired, watches]; exact accounted.ended⟩
    · intro watch listed
      rw [watches] at listed
      have facts := accounted.watch watch listed
      rw [recorded]
      refine ⟨fun active kind deadline set => .inl ?_, facts.published, facts.shaped⟩
      rw [rebuilt]
      apply schedule_all_has _ set
      rw [List.mem_filter]
      exact ⟨Table.mem_select.mpr ⟨listed, facts.shaped.registered active⟩, by simpa [AttemptWatch.active] using active⟩
    · intro entry listed
      rw [rebuilt] at listed
      rw [watches]
      cases mem_schedule_all listed with
      | inl old => exact absurd old List.not_mem_nil
      | inr added =>
          obtain ⟨watch, member, own, revision, set⟩ := added
          have row := (Table.mem_select.mp (List.mem_filter.mp member).1).1
          exact ⟨watch, row, own.symm, Nat.le_of_eq revision, fun _ _ => set⟩
    · rw [rebuilt]
      exact schedule_all_sorted _ List.Pairwise.nil

theorem replaced_accounted {next : Supervisor} (accounted : HeapAccounted supervisor) (member : watch ∈ supervisor.watches.rows)
    (same : changed.watchId = watch.watchId) (newer : watch.revision < changed.revision ∨
      changed.state ≠ .active ∧ watch.revision ≤ changed.revision)
    (still : changed.state = .active → watch.state = .active)
    (watches : next.watches = (setWatch supervisor changed).watches) (recorded : next.recorded = supervisor.recorded)
    (expired : next.expired = supervisor.expired) (markers : MarkersRecorded supervisor.recorded changed)
    (shaped : WatchShaped changed) (sorted : next.deadlines.Pairwise poppedBefore)
    (kept : ∀ entry ∈ supervisor.deadlines, entry ∈ next.deadlines)
    (added : ∀ entry ∈ next.deadlines, entry ∈ supervisor.deadlines ∨ (entry.watchId = changed.watchId ∧
      entry.revision = changed.revision ∧ changed.armed entry.kind = some entry.deadline))
    (scheduled : changed.state = .active → ∀ kind deadline, changed.armed kind = some deadline →
      InHeap next.deadlines changed kind deadline) : HeapAccounted next := by
  refine ⟨?_, ?_, sorted, by rw [expired]; exact accounted.once, ?_⟩
  · intro other listed
    rw [watches] at listed
    rw [recorded]
    cases mem_set_watch listed with
    | inl own =>
        rw [own]
        exact ⟨fun active kind deadline set => .inl (scheduled active kind deadline set), markers, shaped⟩
    | inr old =>
        have facts := accounted.watch other old.1
        refine ⟨fun active kind deadline set => ?_, facts.published, facts.shaped⟩
        cases facts.complete active kind deadline set with
        | inl present =>
            obtain ⟨entry, inside, rest⟩ := present
            exact .inl ⟨entry, kept entry inside, rest⟩
        | inr exempted => exact .inr exempted
  · intro entry listed
    rw [watches]
    cases added entry listed with
    | inl old =>
        obtain ⟨owner, row, own, revision, set⟩ := accounted.entry entry old
        cases set_watch_row member same row with
        | inl here =>
            rw [here.1] at own revision
            refine ⟨changed, here.2, same.trans own, ?_, fun equal active => ?_⟩
            · cases newer with
              | inl larger => omega
              | inr ended => omega
            · cases newer with
              | inl larger => omega
              | inr ended => exact absurd active ended.1
        | inr there => exact ⟨owner, there.2, own, revision, set⟩
    | inr new =>
        exact ⟨changed, set_watch_mem member same, new.1.symm, Nat.le_of_eq new.2.1, fun _ _ => new.2.2⟩
  · intro timeout listed
    rw [expired] at listed
    rw [watches]
    obtain ⟨owner, row, own, ended⟩ := accounted.ended timeout listed
    cases set_watch_row member same row with
    | inl here =>
        rw [here.1] at own ended
        exact ⟨changed, here.2, same.trans own, fun active => ended (still active)⟩
    | inr there => exact ⟨owner, there.2, own, ended⟩

theorem rescheduled_accounted (accounted : HeapAccounted supervisor) (member : watch ∈ supervisor.watches.rows)
    (same : changed.watchId = watch.watchId) (newer : changed.revision = watch.revision + 1)
    (still : changed.state = .active → watch.state = .active) (markers : MarkersRecorded supervisor.recorded changed)
    (shaped : WatchShaped changed) : HeapAccounted (scheduleWatch (setWatch supervisor changed) changed) := by
  obtain ⟨watches, recorded, expired, _⟩ := schedule_unchanged (setWatch supervisor changed) changed
  apply replaced_accounted accounted member same (.inl (by omega)) still watches recorded expired markers shaped
  · exact schedule_sorted accounted.sorted
  · exact fun entry inside => schedule_keeps inside
  · intro entry listed
    have scheduled : entry ∈ (setWatch supervisor changed).deadlines ∨ (entry.watchId = changed.watchId ∧
        entry.revision = changed.revision ∧ changed.armed entry.kind = some entry.deadline) := mem_schedule listed
    exact scheduled
  · exact fun _ kind deadline set => schedule_has set

theorem disarmed_accounted (accounted : HeapAccounted supervisor) (member : watch ∈ supervisor.watches.rows)
    (same : changed.watchId = watch.watchId) (newer : watch.revision < changed.revision ∨
      changed.state ≠ .active ∧ watch.revision ≤ changed.revision)
    (still : changed.state = .active → watch.state = .active) (markers : MarkersRecorded supervisor.recorded changed)
    (shaped : WatchShaped changed) (disarmed : changed.state = .active → ∀ kind, changed.armed kind = none) :
    HeapAccounted (setWatch supervisor changed) := by
  apply replaced_accounted accounted member same newer still rfl rfl rfl markers shaped accounted.sorted
  · exact fun entry inside => inside
  · exact fun entry listed => .inl listed
  · intro active kind deadline set
    rw [disarmed active kind] at set
    exact absurd set (by simp)

end Heap

end MicroWorkflow
