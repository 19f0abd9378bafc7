import MicroWorkflow.Database
import MicroWorkflow.Lib.RowTable

set_option autoImplicit false

namespace MicroWorkflow

open Lib (Numbered RowTable)

structure QueuedRow where
  nodeName : String
  jobId : Nat
  status : JobStatus
  commit : Nat
deriving DecidableEq

def QueuedRow.address (row : QueuedRow) : JobAddress := (row.nodeName, row.jobId)

abbrev JobRow := Numbered QueuedRow

structure QueueTable where
  jobs : RowTable QueuedRow
  commits : Nat

namespace QueueTable

def createJob (store : QueueTable) (place : JobAddress) : Option QueueTable :=
  if store.jobs.rows.any fun row => row.value.address = place then none
  else some ⟨store.jobs.insert ⟨place.1, place.2, .queued, store.commits + 1⟩, store.commits + 1⟩

def setStatus (store : QueueTable) (place : JobAddress) (status : JobStatus) : QueueTable :=
  { store with jobs := store.jobs.modify fun row => if row.address = place then { row with status } else row }

def deleteJobs (store : QueueTable) (gone : JobAddress → Bool) : QueueTable :=
  { store with jobs := store.jobs.delete fun row => gone row.address }

end QueueTable

structure RefreshableQueuedJobSource where
  lastRowid : Nat
  pulled : List JobRow

namespace RefreshableQueuedJobSource

def start : RefreshableQueuedJobSource := ⟨0, []⟩

def wanted (nodeName : String) (row : QueuedRow) : Bool := row.nodeName = nodeName && row.status = .queued

def select (source : RefreshableQueuedJobSource) (jobs : RowTable QueuedRow) (nodeName : String) (maxItems : Nat) : List JobRow :=
  jobs.scan source.lastRowid (wanted nodeName) maxItems

def pull (source : RefreshableQueuedJobSource) (jobs : RowTable QueuedRow) (nodeName : String) (maxItems : Nat) :
    List JobRow × RefreshableQueuedJobSource :=
  let rows := source.select jobs nodeName maxItems
  if rows = [] then ([], source)
  else (rows, ⟨(rows.map Numbered.rowid).foldl max 0, source.pulled ++ rows⟩)

end RefreshableQueuedJobSource

def commitOf (row : JobRow) : Nat := row.value.commit

def Unpassed (source : RefreshableQueuedJobSource) (row : JobRow) : Prop :=
  ∀ earlier ∈ source.pulled, commitOf earlier < commitOf row

-- What every pull answers: jobs in the order of their commits and each once, and every queued job it scans
-- past that no pull has scanned past before.
def FairCursor (nodeName : String) (store : QueueTable) (source : RefreshableQueuedJobSource) : Prop :=
  ∀ maxItems, ((source.pulled ++ source.select store.jobs nodeName maxItems).map commitOf).Pairwise (· < ·) ∧
    ∀ row ∈ store.jobs.rows, row.value.nodeName = nodeName → row.value.status = .queued → Unpassed source row →
      ((source.select store.jobs nodeName maxItems).length < maxItems ∨
        ∃ other ∈ source.select store.jobs nodeName maxItems, commitOf row < commitOf other) →
      row ∈ source.select store.jobs nodeName maxItems

structure CursorSound (store : QueueTable) (source : RefreshableQueuedJobSource) : Prop where
  rows : (store.jobs.rows.map commitOf).Pairwise (· < ·)
  counted : ∀ row ∈ store.jobs.rows, commitOf row ≤ store.commits
  pulled : (source.pulled.map commitOf).Pairwise (· < ·)
  known : ∀ row ∈ source.pulled, commitOf row ≤ store.commits
  ahead : ∀ row ∈ store.jobs.rows, source.lastRowid < row.rowid → Unpassed source row

def Reachable (nodeName : String) (store : QueueTable) (source : RefreshableQueuedJobSource) : Prop :=
  ∀ row ∈ store.jobs.rows, row.value.nodeName = nodeName → Unpassed source row → source.lastRowid < row.rowid

section Cursor

variable {nodeName : String} {store after : QueueTable} {source next : RefreshableQueuedJobSource}

theorem orders_agree {α : Type} {first second : α → Nat} {items : List α} (one : (items.map first).Pairwise (· < ·))
    (two : (items.map second).Pairwise (· < ·)) {left right : α} (leftIn : left ∈ items) (rightIn : right ∈ items)
    (before : first left < first right) : second left < second right := by
  induction items with
  | nil => cases leftIn
  | cons item rest ih =>
      rw [List.map_cons, List.pairwise_cons] at one two
      rcases List.mem_cons.mp leftIn with rfl | leftLater
      · rcases List.mem_cons.mp rightIn with rfl | rightLater
        · exact absurd before (Nat.lt_irrefl _)
        · exact two.1 _ (List.mem_map_of_mem rightLater)
      · rcases List.mem_cons.mp rightIn with rfl | rightLater
        · exact absurd (one.1 _ (List.mem_map_of_mem leftLater)) (Nat.lt_asymm before)
        · exact ih one.2 two.2 leftLater rightLater

theorem select_pulled (sound : CursorSound store source) (maxItems : Nat) :
    ((source.pulled ++ source.select store.jobs nodeName maxItems).map commitOf).Pairwise (· < ·) := by
  rw [List.map_append, List.pairwise_append]
  refine ⟨sound.pulled, sound.rows.sublist (RowTable.scan_sublist.map _), fun old listed new chosen => ?_⟩
  obtain ⟨earlier, inside, rfl⟩ := List.mem_map.mp listed
  obtain ⟨row, member, rfl⟩ := List.mem_map.mp chosen
  obtain ⟨stored, later, _⟩ := RowTable.mem_scan member
  exact sound.ahead row stored later earlier inside

theorem fair_of_reachable (sound : CursorSound store source) (reachable : Reachable nodeName store source) :
    FairCursor nodeName store source := by
  intro maxItems
  refine ⟨select_pulled sound maxItems, fun row member here queued unpassed reached => ?_⟩
  refine RowTable.scan_reaches member (reachable row member here unpassed) ?_ (reached.imp_right ?_)
  · rw [RefreshableQueuedJobSource.wanted, here, queued]
    simp
  · rintro ⟨other, chosen, later⟩
    have stored := (RowTable.mem_scan chosen).1
    refine ⟨other, chosen, ?_⟩
    by_contra behind
    have before : commitOf other < commitOf row :=
      orders_agree store.jobs.ordered sound.rows stored member (Nat.lt_of_not_le behind)
    omega

theorem pull_sound (sound : CursorSound store source) (maxItems : Nat) :
    CursorSound store (source.pull store.jobs nodeName maxItems).2 := by
  rw [RefreshableQueuedJobSource.pull]
  by_cases nothing : source.select store.jobs nodeName maxItems = []
  · rw [if_pos nothing]
    exact sound
  · rw [if_neg nothing]
    obtain ⟨first, chosen⟩ := List.exists_mem_of_ne_nil _ nothing
    have last : ∀ other ∈ source.select store.jobs nodeName maxItems,
        other.rowid ≤ ((source.select store.jobs nodeName maxItems).map Numbered.rowid).foldl max 0 :=
      fun other member => (RowTable.foldl_max_le.mp (Nat.le_refl _)).2 _ (List.mem_map_of_mem member)
    refine ⟨sound.rows, sound.counted, select_pulled sound maxItems, fun row member => ?_,
      fun row stored later earlier listed => ?_⟩
    · rcases List.mem_append.mp member with old | new
      · exact sound.known row old
      · exact sound.counted row (RowTable.mem_scan new).1
    · rcases List.mem_append.mp listed with old | new
      · refine sound.ahead row stored ?_ earlier old
        exact Nat.lt_trans (RowTable.mem_scan chosen).2.1 (Nat.lt_of_le_of_lt (last first chosen) later)
      · exact orders_agree store.jobs.ordered sound.rows (RowTable.mem_scan new).1 stored
          (Nat.lt_of_le_of_lt (last earlier new) later)

theorem pull_reachable (sound : CursorSound store source) (reachable : Reachable nodeName store source) (maxItems : Nat) :
    Reachable nodeName store (source.pull store.jobs nodeName maxItems).2 := by
  rw [RefreshableQueuedJobSource.pull]
  by_cases nothing : source.select store.jobs nodeName maxItems = []
  · rw [if_pos nothing]
    exact reachable
  · rw [if_neg nothing]
    intro row stored here unpassed
    have behind := reachable row stored here fun earlier old => unpassed earlier (List.mem_append_left _ old)
    show ((source.select store.jobs nodeName maxItems).map Numbered.rowid).foldl max 0 < row.rowid
    refine Nat.lt_of_le_sub_one (by omega) (RowTable.foldl_max_le.mpr ⟨Nat.zero_le _, fun number listed => ?_⟩)
    obtain ⟨other, chosen, rfl⟩ := List.mem_map.mp listed
    have before := orders_agree sound.rows store.jobs.ordered (RowTable.mem_scan chosen).1 stored
      (unpassed other (List.mem_append_right _ chosen))
    omega

theorem create_job_eq {place : JobAddress} (created : store.createJob place = some after) :
    after = ⟨store.jobs.insert ⟨place.1, place.2, .queued, store.commits + 1⟩, store.commits + 1⟩ := by
  obtain ⟨_, same⟩ := Option.ite_none_left_eq_some.mp created
  cases same
  rfl

theorem create_sound {place : JobAddress} (sound : CursorSound store source) (created : store.createJob place = some after) :
    CursorSound after source := by
  rw [create_job_eq created]
  constructor
  · show ((store.jobs.rows ++ [_]).map commitOf).Pairwise _
    rw [List.map_append, List.pairwise_append]
    refine ⟨sound.rows, List.pairwise_singleton _ _, fun old listed new last => ?_⟩
    obtain ⟨row, member, rfl⟩ := List.mem_map.mp listed
    rw [List.map_singleton, List.mem_singleton] at last
    subst last
    exact Nat.lt_succ_of_le (sound.counted row member)
  · intro row member
    rcases List.mem_append.mp member with old | new
    · exact Nat.le_succ_of_le (sound.counted row old)
    · rw [List.mem_singleton.mp new]
      exact Nat.le_refl _
  · exact sound.pulled
  · exact fun row member => Nat.le_succ_of_le (sound.known row member)
  · intro row member later
    rcases List.mem_append.mp member with old | new
    · exact sound.ahead row old later
    · rw [List.mem_singleton.mp new]
      exact fun earlier listed => Nat.lt_succ_of_le (sound.known earlier listed)

theorem create_reachable {place : JobAddress} (reachable : Reachable nodeName store source)
    (room : place.1 = nodeName → source.lastRowid ≤ store.jobs.largest) (created : store.createJob place = some after) :
    Reachable nodeName after source := by
  rw [create_job_eq created]
  intro row member here unpassed
  rcases List.mem_append.mp member with old | new
  · exact reachable row old here unpassed
  · rw [List.mem_singleton.mp new] at here ⊢
    exact Nat.lt_succ_of_le (room here)

theorem create_fair_iff {place : JobAddress} (sound : CursorSound store source) (reachable : Reachable nodeName store source)
    (here : place.1 = nodeName) (created : store.createJob place = some after) :
    FairCursor nodeName after source ↔ source.lastRowid ≤ store.jobs.largest := by
  constructor
  · intro fair
    have same := create_job_eq created
    subst same
    obtain ⟨_, complete⟩ := fair (store.jobs.rows.length + 2)
    have member : (⟨store.jobs.largest + 1, ⟨place.1, place.2, .queued, store.commits + 1⟩⟩ : JobRow) ∈
        (store.jobs.insert ⟨place.1, place.2, .queued, store.commits + 1⟩).rows :=
      List.mem_append_right _ (List.mem_singleton.mpr rfl)
    have short : (source.select (store.jobs.insert ⟨place.1, place.2, .queued, store.commits + 1⟩) nodeName
        (store.jobs.rows.length + 2)).length < store.jobs.rows.length + 2 := by
      refine Nat.lt_of_le_of_lt RowTable.scan_sublist.length_le ?_
      show (store.jobs.rows ++ [_]).length < _
      rw [List.length_append, List.length_singleton]
      omega
    have found := complete _ member here rfl (fun earlier listed => Nat.lt_succ_of_le (sound.known earlier listed)) (.inl short)
    exact Nat.le_of_lt_succ (RowTable.mem_scan found).2.1
  · intro room
    exact fair_of_reachable (create_sound sound created) (create_reachable reachable (fun _ => room) created)

theorem kept_rows_sound {jobs : RowTable QueuedRow} (kept : ∀ row ∈ jobs.rows, ∃ before ∈ store.jobs.rows,
      before.rowid = row.rowid ∧ commitOf before = commitOf row ∧ before.value.nodeName = row.value.nodeName)
    (ordered : (jobs.rows.map commitOf).Pairwise (· < ·)) (sound : CursorSound store source) :
    CursorSound { store with jobs } source ∧
      (Reachable nodeName store source → Reachable nodeName { store with jobs } source) := by
  refine ⟨⟨ordered, fun row member => ?_, sound.pulled, sound.known, fun row member later earlier listed => ?_⟩,
    fun reachable row member here unpassed => ?_⟩
  · obtain ⟨before, stored, _, commit, _⟩ := kept row member
    rw [← commit]
    exact sound.counted before stored
  · obtain ⟨before, stored, number, commit, _⟩ := kept row member
    rw [← commit]
    exact sound.ahead before stored (number ▸ later) earlier listed
  · obtain ⟨before, stored, number, commit, named⟩ := kept row member
    rw [← number]
    refine reachable before stored (named.trans here) fun earlier listed => ?_
    rw [commit]
    exact unpassed earlier listed

theorem status_sound (place : JobAddress) (status : JobStatus) (sound : CursorSound store source) :
    CursorSound (store.setStatus place status) source ∧
      (Reachable nodeName store source → Reachable nodeName (store.setStatus place status) source) := by
  refine kept_rows_sound (fun row member => ?_) ?_ sound
  · obtain ⟨before, stored, rfl⟩ := List.mem_map.mp member
    refine ⟨before, stored, rfl, ?_, ?_⟩
    · by_cases named : before.value.address = place <;> simp [commitOf, named]
    · by_cases named : before.value.address = place <;> simp [named]
  · have same : ((store.jobs.modify fun row => if row.address = place then { row with status } else row).rows.map commitOf) =
        store.jobs.rows.map commitOf := by
      rw [RowTable.modify, List.map_map]
      refine List.map_congr_left fun row _ => ?_
      by_cases named : row.value.address = place <;> simp [commitOf, named]
    rw [same]
    exact sound.rows

theorem delete_sound (gone : JobAddress → Bool) (sound : CursorSound store source) :
    CursorSound (store.deleteJobs gone) source ∧
      (Reachable nodeName store source → Reachable nodeName (store.deleteJobs gone) source) := by
  refine kept_rows_sound (fun row member => ?_) ?_ sound
  · exact ⟨row, (List.mem_filter.mp member).1, rfl, rfl, rfl⟩
  · exact sound.rows.sublist (List.filter_sublist.map _)

end Cursor

end MicroWorkflow
