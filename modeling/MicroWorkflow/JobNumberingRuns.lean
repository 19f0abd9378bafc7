import Mathlib.Data.List.Flatten
import MicroWorkflow.JobNumbering
import MicroWorkflow.Lib.Machine

set_option autoImplicit false

namespace MicroWorkflow

open Lib (Table Run thread)

variable {hash : KeyHash} {causes : ArrivalCauses} {state after : NumberingState} {db next : Database}
  {store stored : JobStore} {batches : List OpenBatch} {batch : OpenBatch} {node : String}

section Rewind

structure Rewound (db next : Database) (gone : JobAddress → Bool) (touched : String → Bool) : Prop where
  kept : ∀ place, next.jobs.contains place = (db.jobs.contains place && !gone place)
  scope : ∀ place, gone place = true → touched place.1 = true
  counters : ∀ node, counter next node = if touched node then tailJobId next.jobs node else counter db node

theorem Rewound.trans {middle : Database} {first second : JobAddress → Bool} {one two : String → Bool}
    (earlier : Rewound db middle first one) (later : Rewound middle next second two) :
    Rewound db next (fun place => first place || second place) fun node => one node || two node := by
  constructor
  · intro place
    rw [later.kept, earlier.kept, Bool.not_or, Bool.and_assoc]
  · intro place gone
    rcases Bool.or_eq_true_iff.mp gone with before | now
    · rw [earlier.scope place before, Bool.true_or]
    · rw [later.scope place now, Bool.or_true]
  · intro node
    rw [later.counters, earlier.counters]
    cases again : two node with
    | true => simp
    | false =>
        cases begun : one node with
        | false => simp
        | true =>
            simp only [Bool.or_false, if_true, Bool.false_eq_true, if_false]
            refine tail_congr fun jobId => ?_
            have spared : second (node, jobId) = false := by
              cases gone : second (node, jobId) with
              | false => rfl
              | true => exact absurd (again.symm.trans (later.scope _ gone)) (by simp)
            rw [later.kept, spared, Bool.not_false, Bool.and_true]

def NodeJobPreparation.deletes (plan : NodeJobPreparation) (place : JobAddress) : Bool :=
  plan.node == place.1 && decide (place.2 ∈ plan.deleteIds)

def NodeJobPreparation.rewinds (plan : NodeJobPreparation) (node : String) : Bool :=
  plan.node == node && !plan.deleteIds.isEmpty

theorem contains_delete {jobs : Table Job.address} (gone : JobAddress → Bool) {place : JobAddress} :
    (jobs.delete fun row => gone row.address).contains place = (jobs.contains place && !gone place) := by
  unfold Table.contains
  rw [Table.find_delete]
  cases found : jobs.find place with
  | none => rfl
  | some row =>
      have key := Table.find_key found
      subst key
      cases removed : gone row.address <;> simp [Option.filter, removed]

theorem contains_modify {jobs : Table Job.address} {chosen : Job → Bool} {change : Job → Job}
    {keep : ∀ row, (change row).address = row.address} {place : JobAddress} :
    (jobs.modify chosen change keep).contains place = jobs.contains place := by
  unfold Table.contains
  rw [Table.find_modify, Option.isSome_map]

theorem node_preparation_rewound {keepTrace : Bool} {eventTime : Timestamp} {plan : NodeJobPreparation}
    (applied : applyNodePreparation keepTrace eventTime db plan = .ok next) :
    Rewound db next plan.deletes plan.rewinds := by
  simp only [applyNodePreparation, Lib.bind_ok, Lib.pure_ok] at applied
  obtain ⟨_, _, _, _, queued, _, rfl⟩ := applied
  have removed : ∀ place : JobAddress, decide (place.1 = plan.node ∧ place.2 ∈ plan.deleteIds) = plan.deletes place := by
    intro place
    simp only [NodeJobPreparation.deletes, Bool.decide_and, beq_eq_decide, eq_comm]
  constructor
  · intro place
    dsimp only
    rw [contains_modify, contains_delete fun found => decide (found.1 = plan.node ∧ found.2 ∈ plan.deleteIds), removed]
  · intro place gone
    simp only [NodeJobPreparation.deletes, NodeJobPreparation.rewinds, Bool.and_eq_true, decide_eq_true_eq,
      Bool.not_eq_true', List.isEmpty_eq_false_iff] at gone ⊢
    exact ⟨gone.1, List.ne_nil_of_mem gone.2⟩
  · intro other
    dsimp only
    by_cases none : plan.deleteIds.isEmpty
    · simp only [NodeJobPreparation.rewinds, none, Bool.not_true, Bool.and_false, Bool.false_eq_true, if_false,
        if_true, counter]
    · rw [if_neg none]
      simp only [counter, find_set_sequence]
      by_cases same : plan.node = other
      · subst same
        have rewinds : plan.rewinds plan.node = true := by simp [NodeJobPreparation.rewinds, none]
        rw [if_pos rfl, if_pos rewinds]
        exact tail_congr fun jobId => contains_modify.symm
      · have spared : ¬ plan.rewinds other = true := by simp [NodeJobPreparation.rewinds, same]
        rw [if_neg same, if_neg spared]

theorem preparation_rewound {preparations : List NodeJobPreparation} {keepTrace : Bool} {eventTime : Timestamp}
    (applied : applyJobPreparation db preparations keepTrace eventTime = .ok next) :
    Rewound db next (deletedBy preparations) fun node => preparations.any fun plan => plan.rewinds node := by
  simp only [applyJobPreparation, Lib.bind_ok] at applied
  obtain ⟨_, valid, threaded⟩ := applied
  clear valid
  induction preparations generalizing db with
  | nil =>
      obtain rfl := Except.ok.inj threaded
      exact ⟨fun place => by simp [deletedBy], fun place gone => absurd gone (by simp [deletedBy]), fun node => rfl⟩
  | cons plan rest ih =>
      rw [Lib.thread_cons, Lib.bind_ok] at threaded
      obtain ⟨middle, first, later⟩ := threaded
      have whole := (node_preparation_rewound first).trans (ih later)
      exact ⟨whole.kept, whole.scope, whole.counters⟩

end Rewind

section Growth

structure Grows (state after : NumberingState) (published drawn : List JobAddress) : Prop where
  counters : ∀ node, counter state.db node ≤ counter after.db node
  live : ∀ place, after.db.jobs.contains place = true → state.db.jobs.contains place = true ∨ place ∈ published
  numbered : ∀ place ∈ published, place.2 < counter after.db place.1
  reserved : ∃ kept, kept.Sublist state.reserved ∧ after.reserved = kept ++ drawn
  distinct : drawn.Nodup
  drawn : ∀ place ∈ drawn, counter state.db place.1 ≤ place.2 ∧ place.2 < counter after.db place.1
  directories : ∀ place ∈ after.store.directories,
    place ∈ state.store.directories ∨ place ∈ published ∨ place ∈ state.reserved ∨ place ∈ after.explicitPlaces
  explicit : ∀ place ∈ state.explicitPlaces, place ∈ after.store.directories →
    place ∈ after.explicitPlaces ∨ place.2 < counter after.db place.1

variable {published drawn : List JobAddress}

theorem Grows.invariant (grown : Grows state after published drawn) (before : NumberingInvariant state) :
    NumberingInvariant after := by
  obtain ⟨kept, listed, whole⟩ := grown.reserved
  have earlier : ∀ place ∈ state.reserved, place.2 < counter after.db place.1 := fun place member =>
    Nat.lt_of_lt_of_le (before.reserved place member) (grown.counters place.1)
  constructor
  · intro place present
    rcases grown.live place present with old | new
    · exact Nat.lt_of_lt_of_le (before.live place old) (grown.counters place.1)
    · exact grown.numbered place new
  · intro place member
    rw [whole] at member
    rcases List.mem_append.mp member with old | new
    · exact earlier place (listed.subset old)
    · exact (grown.drawn place new).2
  · rw [whole, List.nodup_append]
    refine ⟨before.distinct.sublist listed, grown.distinct, ?_⟩
    rintro place old _ new rfl
    have below := before.reserved place (listed.subset old)
    have above := (grown.drawn place new).1
    omega
  · intro place member
    rcases grown.directories place member with old | new | handed | chosen
    · rcases before.placed place old with below | explicit
      · exact .inl (Nat.lt_of_lt_of_le below (grown.counters place.1))
      · exact (grown.explicit place explicit member).symm
    · exact .inl (grown.numbered place new)
    · exact .inl (earlier place handed)
    · exact .inr chosen

def ReservedFresh (state : NumberingState) : Prop := ∀ place ∈ state.reserved, state.db.jobs.contains place = false

theorem Grows.fresh (grown : Grows state after published drawn) (before : NumberingInvariant state)
    (free : ReservedFresh state) (apart : ∀ place ∈ published, place ∉ after.reserved) : ReservedFresh after := by
  obtain ⟨kept, listed, whole⟩ := grown.reserved
  intro place member
  cases present : after.db.jobs.contains place with
  | false => rfl
  | true =>
      rcases grown.live place present with old | new
      · have below := before.live place old
        rw [whole] at member
        rcases List.mem_append.mp member with handed | fresh
        · exact absurd (old.symm.trans (free place (listed.subset handed))) (by simp)
        · have above := (grown.drawn place fresh).1
          omega
      · exact absurd member (apart place new)

theorem reserved_erase : ((NumberingState.mk stored (batches.erase batch)).reserved).Sublist
    (NumberingState.mk store batches).reserved :=
  (List.erase_sublist.filter _).flatMap _

theorem reserved_erase_apart (stored : JobStore) (member : batch ∈ batches) (reserved : batch.explicit = false)
    (distinct : (NumberingState.mk store batches).reserved.Nodup) :
    ∀ place ∈ batch.places, place ∉ (NumberingState.mk stored (batches.erase batch)).reserved := by
  have order : (NumberingState.mk store batches).reserved.Perm
      (batch.places ++ (NumberingState.mk stored (batches.erase batch)).reserved) := by
    have first := ((List.perm_cons_erase member).filter fun found => !found.explicit).flatMap_right OpenBatch.places
    rw [List.filter_cons_of_pos (by simp [reserved]), List.flatMap_cons] at first
    exact first
  intro place inside again
  exact (List.nodup_append.mp (order.nodup_iff.mp distinct)).2.2 place inside place again rfl

theorem places_reserved (member : batch ∈ batches) (reserved : batch.explicit = false) :
    batch.places ⊆ (NumberingState.mk store batches).reserved := fun _ inside =>
  List.mem_flatMap.mpr ⟨batch, List.mem_filter.mpr ⟨member, by simp [reserved]⟩, inside⟩

theorem places_explicit (member : batch ∈ batches) (explicit : batch.explicit = true) :
    batch.places ⊆ (NumberingState.mk store batches).explicitPlaces := fun _ inside =>
  List.mem_flatMap.mpr ⟨batch, List.mem_filter.mpr ⟨member, explicit⟩, inside⟩

theorem explicit_erase {place : JobAddress} (member : place ∈ (NumberingState.mk store batches).explicitPlaces) :
    place ∈ (NumberingState.mk stored (batches.erase batch)).explicitPlaces ∨
      (batch.explicit = true ∧ place ∈ batch.places) := by
  obtain ⟨found, chosen, inside⟩ := List.mem_flatMap.mp member
  obtain ⟨listed, explicit⟩ := List.mem_filter.mp chosen
  by_cases same : found = batch
  · subst same
    exact .inr ⟨explicit, inside⟩
  · have kept : found ∈ batches.erase batch := (List.mem_erase_of_ne same).mpr listed
    exact .inl (List.mem_flatMap.mpr ⟨found, List.mem_filter.mpr ⟨kept, explicit⟩, inside⟩)

end Growth

section Operations

theorem counter_congr (same : next.jobSequences = db.jobSequences) (node : String) : counter next node = counter db node := by
  unfold counter
  rw [same]

theorem published_contains {jobs : List NewJob} {place : JobAddress}
    (rows : next.jobs.rows = db.jobs.rows ++ jobs.map NewJob.row) (present : next.jobs.contains place = true) :
    db.jobs.contains place = true ∨ place ∈ jobs.map NewJob.address := by
  obtain ⟨row, member, rfl⟩ := contains_iff.mp present
  rw [rows] at member
  rcases List.mem_append.mp member with old | new
  · exact .inl (contains_iff.mpr ⟨row, old, rfl⟩)
  · obtain ⟨job, listed, rfl⟩ := List.mem_map.mp new
    exact .inr (List.mem_map.mpr ⟨job, listed, rfl⟩)

theorem reserve_grows {count : Nat} {producer : Option String} {ids : List Nat}
    (done : reserveJobIds store.db node count producer = .ok (ids, next)) :
    Grows ⟨store, batches⟩ ⟨{ store with db := next }, batches ++ [⟨node, ids, false, false⟩]⟩ []
      (ids.map fun jobId => (node, jobId)) := by
  simp only [reserveJobIds, Lib.bind_ok, Lib.pure_ok, Prod.mk.injEq] at done
  obtain ⟨_, _, _, _, _, _, _, _, rfl, rfl⟩ := done
  have least := counter_le_next store.db node
  have counters : ∀ other, counter
      { store.db with jobSequences := setSequence store.db.jobSequences node (nextJobId store.db node + count) } other =
        if node = other then nextJobId store.db node + count else counter store.db other := fun other => counter_set rfl
  constructor
  · intro other
    simp only [NumberingState.db, counters]
    split
    · rename_i same
      subst same
      omega
    · exact Nat.le_refl _
  · exact fun place present => .inl present
  · exact fun place member => absurd member (by simp)
  · exact ⟨_, List.Sublist.refl _, by simp [NumberingState.reserved, OpenBatch.places]⟩
  · refine List.Nodup.map (fun first second same => (Prod.mk.inj same).2) ?_
    exact List.nodup_range.map fun first second same => Nat.add_left_cancel same
  · intro place member
    simp only [List.mem_map, List.mem_range] at member
    obtain ⟨_, ⟨offset, below, rfl⟩, rfl⟩ := member
    simp only [NumberingState.db, counters, if_true]
    omega
  · exact fun place member => .inl member
  · intro place member _
    left
    simpa [NumberingState.explicitPlaces] using member

theorem marked_places {chosen : OpenBatch → Bool}
    (same : ∀ found, chosen { found with prepared := true } = chosen found) :
    ((markPrepared batches batch).filter chosen).flatMap OpenBatch.places =
      (batches.filter chosen).flatMap OpenBatch.places := by
  induction batches with
  | nil => rfl
  | cons first rest ih =>
      unfold markPrepared at ih ⊢
      rw [List.map_cons]
      by_cases here : first = batch
      · rw [if_pos here, List.filter_cons, List.filter_cons, same]
        split
        · rw [List.flatMap_cons, List.flatMap_cons, ih]
          rfl
        · exact ih
      · rw [if_neg here, List.filter_cons, List.filter_cons]
        split
        · rw [List.flatMap_cons, List.flatMap_cons, ih]
        · exact ih

theorem prepared_directories {directories : List JobAddress}
    (done : prepareJobsBatch store.directories batch.nodeName batch.ids = .ok directories) :
    directories = store.directories ++ batch.places := by
  simp only [prepareJobsBatch, Lib.bind_ok] at done
  obtain ⟨_, _, _, _, done⟩ := done
  split at done
  · exact absurd done Lib.throw_ok
  · exact (Except.ok.inj done).symm

theorem prepare_grows {directories : List JobAddress} (member : batch ∈ batches) (reserved : batch.explicit = false)
    (done : prepareJobsBatch store.directories batch.nodeName batch.ids = .ok directories) :
    Grows ⟨store, batches⟩ ⟨{ store with directories := directories }, markPrepared batches batch⟩ [] [] := by
  have handed : (NumberingState.mk { store with directories := directories } (markPrepared batches batch)).reserved =
      (NumberingState.mk store batches).reserved := marked_places fun _ => rfl
  have chosen : (NumberingState.mk { store with directories := directories } (markPrepared batches batch)).explicitPlaces =
      (NumberingState.mk store batches).explicitPlaces := marked_places fun _ => rfl
  obtain rfl := prepared_directories done
  constructor
  · exact fun other => Nat.le_refl _
  · exact fun place present => .inl present
  · exact fun place listed => absurd listed (by simp)
  · exact ⟨_, List.Sublist.refl _, handed.trans (List.append_nil _).symm⟩
  · exact List.nodup_nil
  · exact fun place listed => absurd listed (by simp)
  · intro place listed
    rcases List.mem_append.mp listed with old | new
    · exact .inl old
    · exact .inr (.inr (.inl (places_reserved member reserved new)))
  · exact fun place listed _ => .inl (chosen ▸ listed)

theorem prepare_explicit_grows {directories : List JobAddress} (explicit : batch.explicit = true)
    (done : prepareJobsBatch store.directories batch.nodeName batch.ids = .ok directories) :
    Grows ⟨store, batches⟩ ⟨{ store with directories := directories }, batches ++ [batch]⟩ [] [] := by
  obtain rfl := prepared_directories done
  constructor
  · exact fun other => Nat.le_refl _
  · exact fun place present => .inl present
  · exact fun place listed => absurd listed (by simp)
  · exact ⟨_, List.Sublist.refl _, by simp [NumberingState.reserved, explicit]⟩
  · exact List.nodup_nil
  · exact fun place listed => absurd listed (by simp)
  · intro place listed
    rcases List.mem_append.mp listed with old | new
    · exact .inl old
    · exact .inr (.inr (.inr (places_explicit (List.mem_append_right _ (List.mem_singleton_self _)) explicit new)))
  · intro place chosen _
    obtain ⟨found, listed, inside⟩ := List.mem_flatMap.mp chosen
    obtain ⟨member, kind⟩ := List.mem_filter.mp listed
    exact .inl (places_explicit (List.mem_append_left _ member) kind inside)

theorem close_grows {published : List JobAddress} (counters : ∀ other, counter store.db other ≤ counter stored.db other)
    (live : ∀ place, stored.db.jobs.contains place = true →
      store.db.jobs.contains place = true ∨ place ∈ published)
    (numbered : ∀ place ∈ published, place.2 < counter stored.db place.1)
    (directories : stored.directories ⊆ store.directories)
    (explicit : ∀ place ∈ batch.places, batch.explicit = true → place ∈ stored.directories →
      place.2 < counter stored.db place.1) :
    Grows ⟨store, batches⟩ ⟨stored, batches.erase batch⟩ published [] := by
  refine ⟨counters, live, numbered, ⟨_, reserved_erase, (List.append_nil _).symm⟩, List.nodup_nil,
    fun place listed => absurd listed (by simp), fun place listed => .inl (directories listed), ?_⟩
  intro place chosen kept
  rcases explicit_erase chosen with still | ⟨closed, inside⟩
  · exact .inl still
  · exact .inr (explicit place inside closed kept)

theorem publish_grows {published : List JobAddress} (counters : ∀ other, counter store.db other ≤ counter stored.db other)
    (live : ∀ place, stored.db.jobs.contains place = true →
      store.db.jobs.contains place = true ∨ place ∈ published)
    (numbered : ∀ place ∈ published, place.2 < counter stored.db place.1)
    (directories : ∀ place ∈ stored.directories, place ∈ store.directories ∨ place ∈ published) :
    Grows ⟨store, batches⟩ ⟨stored, batches⟩ published [] := by
  refine ⟨counters, live, numbered, ⟨_, List.Sublist.refl _, by simp [NumberingState.reserved]⟩, List.nodup_nil,
    fun place listed => absurd listed (by simp), ?_, fun place chosen _ => .inl chosen⟩
  intro place listed
  rcases directories place listed with old | new
  · exact .inl old
  · exact .inr (.inl new)

theorem single_grows {request : SingleCreation} {withInput : Bool} {answer : Bool × Nat}
    (done : commitSingleJob hash causes store request withInput = .ok (answer, stored)) :
    Grows ⟨store, batches⟩ ⟨stored, batches⟩ [request.job.address] [] ∨ stored = store := by
  rcases commit_single_cases done with ⟨_, _, _, same⟩ | ⟨_, _, published, _, _, made⟩
  · exact .inr same
  · obtain ⟨written, sequences⟩ := publish_single_published published
    have counters : ∀ other, counter stored.db other =
        if request.job.nodeName = other then max (counter store.db other) (request.job.jobId + 1)
        else counter store.db other := fun other => counter_raise sequences
    refine .inl (publish_grows ?_ (fun place present => published_contains written.jobs present) ?_ ?_)
    · intro other
      rw [counters]
      split
      · exact Nat.le_max_left _ _
      · exact Nat.le_refl _
    · intro place listed
      obtain rfl := List.mem_singleton.mp listed
      rw [counters, NewJob.address, if_pos rfl]
      exact Nat.le_max_right _ _
    · intro place listed
      rw [made] at listed
      split at listed
      · exact List.mem_append.mp listed
      · exact .inl listed

theorem automatic_grows {publishes : List AutoJobPublish} {outcomes : List (Result (Bool × Nat))}
    (done : applyAutoJobPublishes hash causes store publishes = .ok (outcomes, stored)) :
    ∃ published, Grows ⟨store, batches⟩ ⟨stored, batches⟩ published [] ∧
      ∀ place ∈ published, counter store.db place.1 ≤ place.2 := by
  obtain ⟨items, planned, plans, written, sequences, made⟩ := auto_publishes_published done
  obtain ⟨ascending, fresh⟩ := plan_nodes_fresh plans
  have above : ∀ place ∈ (planned.filterMap pendingItem).map pendingPlace, counter store.db place.1 ≤ place.2 :=
    fun place member => Nat.le_trans (counter_le_next store.db place.1) (fresh place member)
  obtain ⟨grown, covered⟩ := counter_set_sequences ascending above sequences
  refine ⟨_, publish_grows grown ?_ covered ?_, above⟩
  · intro place present
    rcases published_contains written.jobs present with old | new
    · exact .inl old
    · rw [List.map_map] at new
      exact .inr new
  · intro place listed
    rw [made] at listed
    exact List.mem_append.mp listed

theorem entries_places {batch : BatchCommit} {open_ : OpenBatch} {entries : List (NewJob × Option String)}
    (fills : batch.fills open_) (node : sameNode batch = true) (listed : entries.Sublist batch.entries) :
    ∀ place ∈ (entries.map Prod.fst).map NewJob.address, place ∈ open_.places := by
  intro place member
  simp only [List.map_map, List.mem_map, Function.comp_apply] at member
  obtain ⟨entry, inside, rfl⟩ := member
  have job : entry.1 ∈ batch.jobs := (List.of_mem_zip (listed.subset inside)).1
  have here : entry.1.nodeName = batch.nodeName := by simpa using List.all_eq_true.mp node entry.1 job
  refine List.mem_map.mpr ⟨entry.1.jobId, ?_, ?_⟩
  · rw [← fills.2]
    exact List.mem_map_of_mem job
  · rw [NewJob.address, here, fills.1]

theorem commit_grows {open_ : OpenBatch} {commit : BatchCommit} {answer : List NewJob × List (String × Nat)}
    (before : NumberingInvariant ⟨store, batches⟩) (member : open_ ∈ batches) (reserved : open_.explicit = false)
    (fills : commit.fills open_)
    (done : commitPreparedJobsBatchResolvingIdempotency hash causes store.db commit = .ok (answer, next)) :
    ∃ published, Grows ⟨store, batches⟩ ⟨{ store with db := next }, batches.erase open_⟩ published [] ∧
      published ⊆ open_.places := by
  have closed : ∀ place ∈ open_.places, open_.explicit = true → place ∈ store.directories →
      place.2 < counter next place.1 := fun _ _ explicit _ => absurd (reserved.symm.trans explicit) (by simp)
  have kept : next = store.db → ∃ published,
      Grows ⟨store, batches⟩ ⟨{ store with db := next }, batches.erase open_⟩ published [] ∧
        published ⊆ open_.places := by
    rintro rfl
    exact ⟨[], close_grows (fun _ => Nat.le_refl _) (fun _ present => .inl present)
      (fun _ listed => absurd listed (by simp)) (fun _ listed => listed) closed, by simp⟩
  rcases commit_batch_cases done with ⟨_, _, same⟩ | ⟨_, _, _, node, _, _, _, ⟨_, same⟩ | published⟩
  · exact kept same
  · exact kept same
  · obtain ⟨written, sequences⟩ := publish_batch_published published
    have counters := counter_congr sequences
    have listed : (newEntries commit answer.2).Sublist commit.entries := List.filter_sublist
    have inside := entries_places fills node listed
    refine ⟨_, close_grows (fun other => Nat.le_of_eq (counters other).symm)
      (fun place present => published_contains written.jobs present) ?_ (fun _ listed => listed) closed, inside⟩
    intro place listed
    rw [counters]
    exact before.reserved place (places_reserved member reserved (inside place listed))

theorem commit_explicit_grows {open_ : OpenBatch} {commit : BatchCommit} {jobs : List NewJob}
    (fills : commit.fills open_) (done : commitPreparedJobsBatch hash causes store.db commit = .ok (jobs, next)) :
    Grows ⟨store, batches⟩ ⟨{ store with db := next }, batches.erase open_⟩ open_.places [] := by
  rcases commit_explicit_published done with ⟨none, rfl⟩ | ⟨rows, node, sequences⟩
  · have empty : open_.places = [] := by
      rw [OpenBatch.places, ← fills.2, none]
      rfl
    rw [empty]
    refine close_grows (fun _ => Nat.le_refl _) (fun _ present => .inl present) (fun _ listed => absurd listed (by simp))
      (fun _ listed => listed) ?_
    intro place listed
    rw [empty] at listed
    exact absurd listed (by simp)
  · have counters : ∀ other, counter next other =
        if commit.nodeName = other then max (counter store.db other) ((commit.jobs.map NewJob.jobId).foldr max 0 + 1)
        else counter store.db other := fun other => counter_raise sequences
    have covered : ∀ place ∈ open_.places, place.2 < counter next place.1 := by
      intro place listed
      obtain ⟨jobId, inside, rfl⟩ := List.mem_map.mp listed
      rw [← fills.2] at inside
      rw [counters, if_pos fills.1]
      have largest := le_foldr_max inside
      simp only
      omega
    refine close_grows ?_ ?_ covered (fun _ listed => listed) fun place listed _ _ => covered place listed
    · intro other
      rw [counters]
      split
      · exact Nat.le_max_left _ _
      · exact Nat.le_refl _
    · intro place present
      rcases published_contains rows present with old | new
      · exact .inl old
      · obtain ⟨job, inside, rfl⟩ := List.mem_map.mp new
        have here : job.nodeName = commit.nodeName := by simpa using List.all_eq_true.mp node job inside
        refine .inr (List.mem_map.mpr ⟨job.jobId, ?_, ?_⟩)
        · rw [← fills.2]
          exact List.mem_map_of_mem inside
        · rw [NewJob.address, here, fills.1]

theorem discard_grows (before : NumberingInvariant ⟨store, batches⟩) :
    Grows ⟨store, batches⟩ ⟨discardPreparedJobs store batch.nodeName batch.ids [], batches.erase batch⟩ [] [] := by
  refine close_grows (fun _ => Nat.le_refl _) (fun _ present => .inl present) (fun _ listed => absurd listed (by simp))
    (fun _ listed => (List.mem_filter.mp listed).1) ?_
  intro place listed _ kept
  obtain ⟨jobId, inside, rfl⟩ := List.mem_map.mp listed
  have stays := (List.mem_filter.mp kept).2
  simp only [inside, List.not_mem_nil, not_false_eq_true, and_self, decide_true, Bool.true_and, Bool.not_not] at stays
  exact before.live (batch.nodeName, jobId) stays

theorem preparation_kept {preparations : List NodeJobPreparation} {keepTrace : Bool} {eventTime : Timestamp}
    (before : NumberingInvariant ⟨store, batches⟩) (clear : RewindClear ⟨store, batches⟩ preparations)
    (done : applyJobPreparation store.db preparations keepTrace eventTime = .ok next) :
    NumberingInvariant ⟨⟨next, remainingDirectories store preparations⟩, batches⟩ ∧
      (ReservedFresh ⟨store, batches⟩ → ReservedFresh ⟨⟨next, remainingDirectories store preparations⟩, batches⟩) := by
  have rewound := preparation_rewound done
  have remaining : ∀ node, tailJobId next.jobs node = tailJobId (remainingJobs store.db preparations) node := fun node =>
    tail_congr fun jobId => (rewound.kept _).trans (contains_delete (deletedBy preparations)).symm
  have cleared : ∀ node, (preparations.any fun plan => plan.rewinds node) = true →
      ∃ plan ∈ preparations, plan.node = node ∧ plan.deleteIds ≠ [] := by
    intro node touched
    obtain ⟨plan, member, rewinds⟩ := List.any_eq_true.mp touched
    simp only [NodeJobPreparation.rewinds, Bool.and_eq_true, beq_iff_eq, Bool.not_eq_true',
      List.isEmpty_eq_false_iff] at rewinds
    exact ⟨plan, member, rewinds⟩
  have old : ∀ place, next.jobs.contains place = true → store.db.jobs.contains place = true := by
    intro place present
    rw [rewound.kept] at present
    exact (Bool.and_eq_true_iff.mp present).1
  refine ⟨⟨?_, ?_, before.distinct, ?_⟩, ?_⟩
  · intro place present
    simp only [NumberingState.db, rewound.counters]
    split
    · obtain ⟨row, member, rfl⟩ := contains_iff.mp present
      exact below_tail member
    · exact before.live place (old place present)
  · intro place member
    simp only [NumberingState.db, rewound.counters]
    split
    · rename_i touched
      obtain ⟨plan, listed, here, deletes⟩ := cleared place.1 touched
      rw [remaining, ← here]
      exact (clear plan listed deletes).1 place member here.symm
    · exact before.reserved place member
  · intro place member
    simp only [NumberingState.db, rewound.counters]
    split
    · rename_i touched
      obtain ⟨plan, listed, here, deletes⟩ := cleared place.1 touched
      rw [remaining, ← here]
      exact (clear plan listed deletes).2 place member here.symm
    · exact before.placed place (List.mem_filter.mp member).1
  · intro free place member
    cases present : next.jobs.contains place with
    | false => exact present
    | true => exact absurd ((old place present).symm.trans (free place member)) (by simp)

theorem not_listed {property : JobAddress → Prop} : ∀ place ∈ ([] : List JobAddress), property place :=
  fun _ listed => absurd listed (by simp)

theorem numbering_step_kept {operation : NumberingOperation} (before : NumberingInvariant state)
    (clear : RewindsClear state operation) (step : NumberingStep hash causes state operation after) :
    NumberingInvariant after ∧ (ReservedFresh state → ChosenApart state operation → ReservedFresh after) := by
  have whole : ∀ {published drawn : List JobAddress}, Grows state after published drawn →
      (ChosenApart state operation → ∀ place ∈ published, place ∉ after.reserved) →
        NumberingInvariant after ∧ (ReservedFresh state → ChosenApart state operation → ReservedFresh after) :=
    fun grown apart => ⟨grown.invariant before, fun free chosen => grown.fresh before free (apart chosen)⟩
  cases step with
  | reserve done => exact whole (reserve_grows done) fun _ => not_listed
  | prepare member reserved done => exact whole (prepare_grows member reserved done) fun _ => not_listed
  | abandon reserved failed =>
      refine whole (close_grows (fun _ => Nat.le_refl _) (fun _ present => .inl present) not_listed
        (fun _ listed => listed) ?_) fun _ => not_listed
      exact fun _ _ explicit _ => absurd (reserved.symm.trans explicit) (by simp)
  | prepareExplicit explicit done => exact whole (prepare_explicit_grows explicit done) fun _ => not_listed
  | commit member reserved fills done =>
      obtain ⟨published, grown, inside⟩ := commit_grows before member reserved fills done
      refine whole grown fun _ place listed => ?_
      exact reserved_erase_apart _ member reserved before.distinct place (inside listed)
  | commitExplicit member explicit fills done =>
      refine whole (commit_explicit_grows fills done) fun chosen place listed again => ?_
      exact chosen place listed (reserved_erase.subset again)
  | discard => exact whole (discard_grows before) fun _ => not_listed
  | discardSome =>
      refine whole (publish_grows (fun _ => Nat.le_refl _) (fun _ present => .inl present) not_listed ?_)
        fun _ => not_listed
      exact fun _ listed => .inl (List.mem_filter.mp listed).1
  | create done =>
      obtain ⟨_, _, committed⟩ := create_job_cases done
      rcases single_grows committed with grown | rfl
      · exact whole grown fun chosen place listed => List.mem_singleton.mp listed ▸ chosen
      · exact ⟨before, fun free _ => free⟩
  | register done =>
      rcases single_grows done with grown | rfl
      · exact whole grown fun chosen place listed => List.mem_singleton.mp listed ▸ chosen
      · exact ⟨before, fun free _ => free⟩
  | automatic done =>
      obtain ⟨published, grown, above⟩ := automatic_grows done
      refine whole grown fun _ place listed again => ?_
      exact absurd (before.reserved place again) (Nat.not_lt_of_le (above place listed))
  | preparation done =>
      obtain ⟨kept, fresh⟩ := preparation_kept before clear done
      exact ⟨kept, fun free _ => fresh free⟩
  | elsewhere frame =>
      refine whole (publish_grows (fun other => Nat.le_of_eq (counter_congr frame.counters other).symm)
        (fun place present => .inl (frame.live place present)) not_listed ?_) fun _ => not_listed
      exact fun _ listed => .inl (frame.directories listed)

def Unplaced (state : NumberingState) : Prop := ∀ place ∈ state.unprepared, place ∉ state.store.directories

theorem unprepared_reserved : (NumberingState.mk store batches).unprepared ⊆ (NumberingState.mk store batches).reserved := by
  intro place member
  obtain ⟨found, listed, inside⟩ := List.mem_flatMap.mp member
  obtain ⟨open_, kind⟩ := List.mem_filter.mp listed
  simp only [Bool.and_eq_true, Bool.not_eq_true'] at kind
  exact places_reserved open_ kind.1 inside

theorem unprepared_erase : (NumberingState.mk stored (batches.erase batch)).unprepared ⊆
    (NumberingState.mk store batches).unprepared :=
  ((List.erase_sublist.filter _).flatMap _).subset

theorem unprepared_marked (stored : JobStore) (member : batch ∈ batches) (reserved : batch.explicit = false)
    (distinct : (NumberingState.mk store batches).reserved.Nodup) :
    ∀ place ∈ (NumberingState.mk stored (markPrepared batches batch)).unprepared,
      place ∈ (NumberingState.mk store batches).unprepared ∧ place ∉ batch.places := by
  intro place listed
  obtain ⟨marked, chosen, inside⟩ := List.mem_flatMap.mp listed
  obtain ⟨present, kind⟩ := List.mem_filter.mp chosen
  obtain ⟨found, open_, same⟩ := List.mem_map.mp present
  by_cases here : found = batch
  · rw [if_pos here] at same
    subst same
    simp at kind
  · rw [if_neg here] at same
    subst same
    refine ⟨List.mem_flatMap.mpr ⟨found, List.mem_filter.mpr ⟨open_, kind⟩, inside⟩, fun again => ?_⟩
    simp only [Bool.and_eq_true, Bool.not_eq_true'] at kind
    have kept : found ∈ batches.erase batch := (List.mem_erase_of_ne here).mpr open_
    exact reserved_erase_apart stored member reserved distinct place again
      (places_reserved kept kind.1 inside)

theorem unplaced_kept (unplaced : Unplaced state) (waiting : after.unprepared ⊆ state.unprepared)
    (made : List JobAddress) (apart : ∀ place ∈ made, place ∉ after.unprepared)
    (directories : ∀ place ∈ after.store.directories, place ∈ state.store.directories ∨ place ∈ made) :
    Unplaced after := by
  intro place member listed
  rcases directories place listed with old | new
  · exact unplaced place (waiting member) old
  · exact apart place new member

theorem numbering_step_unplaced {operation : NumberingOperation} (before : NumberingInvariant state)
    (chosen : ChosenApart state operation) (unplaced : Unplaced state)
    (step : NumberingStep hash causes state operation after) : Unplaced after := by
  cases step with
  | @reserve store batches node count producer ids next done =>
      simp only [reserveJobIds, Lib.bind_ok, Lib.pure_ok, Prod.mk.injEq] at done
      obtain ⟨_, _, _, _, _, _, _, _, rfl, rfl⟩ := done
      intro place member listed
      obtain ⟨found, waiting, inside⟩ := List.mem_flatMap.mp member
      obtain ⟨open_, kind⟩ := List.mem_filter.mp waiting
      rcases List.mem_append.mp open_ with old | new
      · exact unplaced place (List.mem_flatMap.mpr ⟨found, List.mem_filter.mpr ⟨old, kind⟩, inside⟩) listed
      · obtain rfl := List.mem_singleton.mp new
        simp only [OpenBatch.places, List.mem_map, List.mem_range] at inside
        obtain ⟨_, ⟨offset, below, rfl⟩, rfl⟩ := inside
        have least := counter_le_next store.db node
        rcases before.placed _ listed with under | explicit
        · simp only [NumberingState.db] at under
          omega
        · have away := chosen _ explicit rfl
          simp only [NumberingState.db] at away
          omega
  | @prepare store batches batch directories member reserved done =>
      obtain rfl := prepared_directories done
      have marked := unprepared_marked ⟨store.db, store.directories ++ batch.places⟩ member reserved before.distinct
      exact unplaced_kept unplaced (fun place listed => (marked place listed).1) _
        (fun place new listed => (marked place listed).2 new) fun place listed => List.mem_append.mp listed
  | abandon reserved failed => exact unplaced_kept unplaced unprepared_erase [] not_listed fun _ listed => .inl listed
  | @prepareExplicit store batches batch directories explicit done =>
      obtain rfl := prepared_directories done
      have same : (NumberingState.mk ⟨store.db, store.directories ++ batch.places⟩ (batches ++ [batch])).unprepared =
          (NumberingState.mk store batches).unprepared := by
        simp [NumberingState.unprepared, explicit]
      refine unplaced_kept unplaced (fun _ listed => same ▸ listed) _ (fun place new listed => ?_)
        fun place listed => List.mem_append.mp listed
      exact chosen place new (unprepared_reserved (same ▸ listed))
  | commit member reserved fills done =>
      exact unplaced_kept unplaced unprepared_erase [] not_listed fun _ listed => .inl listed
  | commitExplicit member explicit fills done =>
      exact unplaced_kept unplaced unprepared_erase [] not_listed fun _ listed => .inl listed
  | discard =>
      exact unplaced_kept unplaced unprepared_erase [] not_listed fun _ listed => .inl (List.mem_filter.mp listed).1
  | discardSome =>
      exact unplaced_kept unplaced (fun _ listed => listed) [] not_listed fun _ listed => .inl (List.mem_filter.mp listed).1
  | @create store next batches request jobId done =>
      obtain ⟨_, _, committed⟩ := create_job_cases done
      rcases commit_single_cases committed with ⟨_, _, _, rfl⟩ | ⟨_, _, _, _, _, made⟩
      · exact unplaced
      · refine unplaced_kept unplaced (fun _ listed => listed) [request.job.address] ?_ fun place listed => ?_
        · intro place new listed
          exact chosen (List.mem_singleton.mp new ▸ unprepared_reserved listed)
        · rw [made] at listed
          exact List.mem_append.mp listed
  | register done =>
      rcases commit_single_cases done with ⟨_, _, _, rfl⟩ | ⟨_, _, _, _, _, made⟩
      · exact unplaced
      · refine unplaced_kept unplaced (fun _ listed => listed) [] not_listed fun place listed => ?_
        rw [made] at listed
        exact .inl listed
  | automatic done =>
      obtain ⟨items, planned, plans, _, _, made⟩ := auto_publishes_published done
      refine unplaced_kept unplaced (fun _ listed => listed) ((planned.filterMap pendingItem).map pendingPlace) ?_ ?_
      · intro place new listed
        have above := (plan_nodes_fresh plans).2 place new
        have below := before.reserved place (unprepared_reserved listed)
        exact absurd below (Nat.not_lt_of_le (Nat.le_trans (counter_le_next _ _) above))
      · intro place listed
        rw [made] at listed
        exact List.mem_append.mp listed
  | preparation done =>
      exact unplaced_kept unplaced (fun _ listed => listed) [] not_listed fun _ listed => .inl (List.mem_filter.mp listed).1
  | elsewhere frame =>
      exact unplaced_kept unplaced (fun _ listed => listed) [] not_listed fun _ listed => .inl (frame.directories listed)

end Operations

section Runs

def NumberingState.Empty (state : NumberingState) : Prop :=
  state.db.jobs.rows = [] ∧ state.store.directories = [] ∧ state.batches = []

structure NumberingApart (state : NumberingState) : Prop where
  kept : NumberingInvariant state
  fresh : ReservedFresh state
  unplaced : Unplaced state

theorem empty_apart (empty : state.Empty) : NumberingApart state := by
  obtain ⟨rows, directories, closed⟩ := empty
  have handed : state.reserved = [] := by simp [NumberingState.reserved, closed]
  have waiting : state.unprepared = [] := by simp [NumberingState.unprepared, closed]
  refine ⟨⟨?_, ?_, ?_, ?_⟩, ?_, ?_⟩
  · intro place present
    obtain ⟨row, member, _⟩ := contains_iff.mp present
    rw [rows] at member
    exact absurd member (by simp)
  · rw [handed]
    exact not_listed
  · rw [handed]
    exact List.nodup_nil
  · rw [directories]
    exact not_listed
  · unfold ReservedFresh
    rw [handed]
    exact not_listed
  · unfold Unplaced
    rw [waiting]
    exact not_listed

def FreeAbove (state : NumberingState) (place : JobAddress) : Prop :=
  state.db.jobs.contains place = false ∧ place ∉ state.reserved ∧
    (place ∈ state.store.directories → place ∈ state.explicitPlaces)

theorem NumberingInvariant.free (kept : NumberingInvariant state) {place : JobAddress}
    (above : nextJobId state.db place.1 ≤ place.2) : FreeAbove state place := by
  have least := counter_le_next state.db place.1
  refine ⟨?_, fun handed => ?_, fun listed => ?_⟩
  · cases present : state.db.jobs.contains place with
    | false => rfl
    | true =>
        have below := kept.live place present
        omega
  · have below := kept.reserved place handed
    omega
  · rcases kept.placed place listed with below | explicit
    · omega
    · exact explicit

variable {initial final : NumberingState} {operations : List NumberingOperation}

theorem numbering_run_kept (empty : initial.Empty)
    (run : Run (fun before operation next => RewindsClear before operation ∧ NumberingStep hash causes before operation next)
      initial operations final) : NumberingInvariant final :=
  run.invariant (empty_apart empty).kept fun kept step => (numbering_step_kept kept step.1 step.2).1

theorem numbering_run_apart (empty : initial.Empty)
    (run : Run (fun before operation next => (RewindsClear before operation ∧ ChosenApart before operation) ∧
      NumberingStep hash causes before operation next) initial operations final) : NumberingApart final := by
  refine run.invariant (empty_apart empty) ?_
  rintro before next operation ⟨kept, free, unplaced⟩ ⟨⟨clear, chosen⟩, step⟩
  obtain ⟨again, fresh⟩ := numbering_step_kept kept clear step
  exact ⟨again, fresh free chosen, numbering_step_unplaced kept chosen unplaced step⟩

theorem next_job_id_above_ids_in_use (empty : initial.Empty)
    (run : Run (fun before operation next => RewindsClear before operation ∧ NumberingStep hash causes before operation next)
      initial operations final) :
    (∀ place, final.db.jobs.contains place = true → place.2 < nextJobId final.db place.1) ∧
      (∀ place ∈ final.reserved, place.2 < nextJobId final.db place.1) ∧
      (∀ items planned, planNodes hash final.db items = .ok planned →
        ∀ place ∈ (planned.filterMap pendingItem).map pendingPlace, FreeAbove final place) ∧
      (∀ node count producer ids next, reserveJobIds final.db node count producer = .ok (ids, next) →
        ∀ jobId ∈ ids, FreeAbove final (node, jobId)) ∧
      (Run (fun before operation next => (RewindsClear before operation ∧ ChosenApart before operation) ∧
          NumberingStep hash causes before operation next) initial operations final →
        (∀ place ∈ final.reserved, final.db.jobs.contains place = false) ∧
          ∀ place ∈ final.unprepared, place ∉ final.store.directories) := by
  have kept := numbering_run_kept empty run
  refine ⟨?_, ?_, ?_, ?_, ?_⟩
  · exact fun place present => Nat.lt_of_lt_of_le (kept.live place present) (counter_le_next _ _)
  · exact fun place handed => Nat.lt_of_lt_of_le (kept.reserved place handed) (counter_le_next _ _)
  · exact fun items planned plans place listed => kept.free ((plan_nodes_fresh plans).2 place listed)
  · intro node count producer ids next done jobId listed
    simp only [reserveJobIds, Lib.bind_ok, Lib.pure_ok, Prod.mk.injEq] at done
    obtain ⟨_, _, _, _, _, _, _, _, rfl, _⟩ := done
    obtain ⟨offset, _, rfl⟩ := List.mem_map.mp listed
    exact kept.free (Nat.le_add_right _ _)
  · intro apart
    have held := numbering_run_apart empty apart
    exact ⟨held.fresh, held.unplaced⟩

def jobOf (node instanceId : String) (jobId : Nat) : NewJob := ⟨jobId, node, .null, none, none, instanceId⟩

def explicitJob (node instanceId : String) (jobId : Nat) : SingleCreation :=
  ⟨jobOf node instanceId jobId, none, none, none, false, 5⟩

def automaticJob (node instanceId : String) : AutoJobPublish := ⟨jobOf node instanceId 0, none, none, none, false, 5, none⟩

def noCauses : ArrivalCauses := ⟨fun _ _ => .ok [], fun _ _ _ => .ok ()⟩

def emptyProject : NumberingState := ⟨⟨Database.empty, []⟩, []⟩

def deleteFirst : NodeJobPreparation := ⟨"b", [⟨1, .queued, 0, none,
  some ("00000000000000000000000000000001", none, none), none, none, none⟩], [], [1], [], [], false⟩

def firstCreated : JobStore := (Lib.valueOr (createJob id noCauses emptyProject.store
  (explicitJob "b" "00000000000000000000000000000001" 1)) (0, emptyProject.store)).2

def laterPublications : List AutoJobPublish :=
  [automaticJob "b" "00000000000000000000000000000002", automaticJob "b" "00000000000000000000000000000003"]

def firstDeleted : JobStore :=
  ⟨Lib.valueOr (applyJobPreparation firstCreated.db [deleteFirst] false 6) firstCreated.db, []⟩

def handedOutAgain : JobStore :=
  ⟨{ firstDeleted.db with jobSequences := setSequence firstDeleted.db.jobSequences "b" 3 }, []⟩

def publishedAbove : NumberingState :=
  ⟨(Lib.valueOr (applyAutoJobPublishes id noCauses handedOutAgain laterPublications) ([], handedOutAgain)).2,
    [⟨"b", [1, 2], false, false⟩]⟩

def ApartStep (before : NumberingState) (operation : NumberingOperation) (after : NumberingState) : Prop :=
  (RewindsClear before operation ∧ ChosenApart before operation) ∧ NumberingStep id noCauses before operation after

-- The only job is deleted and its id handed out again; the jobs published meanwhile get later ids.
theorem next_job_id_above_ids_in_use_reserved :
    publishedAbove.reserved = [("b", 1), ("b", 2)] ∧ publishedAbove.db.jobs.rows.map Job.address = [("b", 3), ("b", 4)] ∧
      (∀ place, publishedAbove.db.jobs.contains place = true → place.2 < nextJobId publishedAbove.db place.1) ∧
      (∀ place ∈ publishedAbove.reserved, place.2 < nextJobId publishedAbove.db place.1) ∧
      ∀ place ∈ publishedAbove.reserved, publishedAbove.db.jobs.contains place = false := by
  have created : ApartStep emptyProject (.create (explicitJob "b" "00000000000000000000000000000001" 1)) ⟨firstCreated, []⟩ :=
    ⟨⟨trivial, nofun⟩, .create rfl⟩
  have deleted : ApartStep ⟨firstCreated, []⟩ (.preparation [deleteFirst] false 6) ⟨firstDeleted, []⟩ := by
    refine ⟨⟨fun plan _ _ => ⟨nofun, fun place listed => absurd listed (by decide +revert)⟩, trivial⟩, .preparation rfl⟩
  have handed : ApartStep ⟨firstDeleted, []⟩ (.reserve "b" 2 none) ⟨handedOutAgain, [⟨"b", [1, 2], false, false⟩]⟩ :=
    ⟨⟨trivial, nofun⟩, .reserve rfl⟩
  have published : ApartStep ⟨handedOutAgain, [⟨"b", [1, 2], false, false⟩]⟩ (.automatic laterPublications) publishedAbove :=
    ⟨⟨trivial, trivial⟩, .automatic rfl⟩
  have apart : Run ApartStep emptyProject _ publishedAbove :=
    .snoc (.snoc (.snoc (.snoc (.nil _) created) deleted) handed) published
  have above := next_job_id_above_ids_in_use ⟨rfl, rfl, rfl⟩ (apart.imp fun met => ⟨met.1.1, met.2⟩)
  exact ⟨by decide, by decide, above.1, above.2.1, (above.2.2.2.2 apart).1⟩

def secondHandedOut : Database :=
  { firstCreated.db with jobSequences := setSequence firstCreated.db.jobSequences "b" 3 }

def counterRewound : NumberingState :=
  ⟨⟨Lib.valueOr (applyJobPreparation secondHandedOut [deleteFirst] false 6) secondHandedOut, []⟩,
    [⟨"b", [2], false, false⟩]⟩

def publishedAgain : JobStore :=
  (Lib.valueOr (applyAutoJobPublishes id noCauses counterRewound.store laterPublications) ([], counterRewound.store)).2

theorem rewind_below_reserved :
    (∃ operations, Run (NumberingStep id noCauses) emptyProject operations counterRewound) ∧
      ("b", 2) ∈ counterRewound.reserved ∧ nextJobId counterRewound.db "b" = 1 ∧
      NumberingStep id noCauses counterRewound (.automatic laterPublications) ⟨publishedAgain, counterRewound.batches⟩ ∧
      publishedAgain.db.jobs.contains ("b", 2) = true := by
  refine ⟨⟨[.create (explicitJob "b" "00000000000000000000000000000001" 1), .reserve "b" 1 none,
    .preparation [deleteFirst] false 6], ?_⟩, ?_, ?_, ?_, ?_⟩
  · have created : NumberingStep id noCauses emptyProject
        (.create (explicitJob "b" "00000000000000000000000000000001" 1)) ⟨firstCreated, []⟩ := .create rfl
    have handed : NumberingStep id noCauses ⟨firstCreated, []⟩ (.reserve "b" 1 none)
        ⟨{ firstCreated with db := secondHandedOut }, [⟨"b", [2], false, false⟩]⟩ := .reserve rfl
    have rewound : NumberingStep id noCauses ⟨{ firstCreated with db := secondHandedOut }, [⟨"b", [2], false, false⟩]⟩
        (.preparation [deleteFirst] false 6) counterRewound := .preparation rfl
    exact .snoc (.snoc (.snoc (.nil _) created) handed) rewound
  · decide
  · decide
  · exact .automatic rfl
  · decide

end Runs

end MicroWorkflow
