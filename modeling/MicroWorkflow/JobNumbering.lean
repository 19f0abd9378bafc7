import Mathlib.Data.List.Induction
import MicroWorkflow.JobCreation
import MicroWorkflow.Lib.Machine

set_option autoImplicit false

namespace MicroWorkflow

open Lib (Table Run thread collect)

-- Ids handed out and not yet committed or discarded, or explicit ids with prepared directories.
structure OpenBatch where
  nodeName : String
  ids : List Nat
  explicit : Bool
  prepared : Bool
deriving DecidableEq, Repr

def OpenBatch.places (batch : OpenBatch) : List JobAddress := batch.ids.map fun jobId => (batch.nodeName, jobId)

structure NumberingState where
  store : JobStore
  batches : List OpenBatch

def NumberingState.db (state : NumberingState) : Database := state.store.db

def NumberingState.reserved (state : NumberingState) : List JobAddress :=
  (state.batches.filter fun batch => !batch.explicit).flatMap OpenBatch.places

def NumberingState.explicitPlaces (state : NumberingState) : List JobAddress :=
  (state.batches.filter fun batch => batch.explicit).flatMap OpenBatch.places

def NumberingState.unprepared (state : NumberingState) : List JobAddress :=
  (state.batches.filter fun batch => !batch.explicit && !batch.prepared).flatMap OpenBatch.places

def markPrepared (batches : List OpenBatch) (batch : OpenBatch) : List OpenBatch :=
  batches.map fun found => if found = batch then { found with prepared := true } else found

def deletedBy (preparations : List NodeJobPreparation) (place : JobAddress) : Bool :=
  preparations.any fun plan => plan.node == place.1 && decide (place.2 ∈ plan.deleteIds)

def remainingJobs (db : Database) (preparations : List NodeJobPreparation) : Table Job.address :=
  db.jobs.delete fun row => deletedBy preparations row.address

def remainingDirectories (store : JobStore) (preparations : List NodeJobPreparation) : List JobAddress :=
  store.directories.filter fun place => !deletedBy preparations place

def RewindClear (state : NumberingState) (preparations : List NodeJobPreparation) : Prop :=
  ∀ plan ∈ preparations, plan.deleteIds ≠ [] →
    (∀ place ∈ state.reserved, place.1 = plan.node →
      place.2 < tailJobId (remainingJobs state.db preparations) plan.node) ∧
    ∀ place ∈ remainingDirectories state.store preparations, place.1 = plan.node →
      place.2 < tailJobId (remainingJobs state.db preparations) plan.node ∨ place ∈ state.explicitPlaces

inductive NumberingOperation where
  | reserve (node : String) (count : Nat) (producerExecutionId : Option String)
  | prepare (batch : OpenBatch)
  | abandon (batch : OpenBatch)
  | prepareExplicit (batch : OpenBatch)
  | commit (open_ : OpenBatch) (batch : BatchCommit)
  | commitExplicit (open_ : OpenBatch) (batch : BatchCommit)
  | discard (batch : OpenBatch)
  | discardSome (node : String) (ids retained : List Nat)
  | create (request : SingleCreation)
  | register (request : SingleCreation)
  | automatic (publishes : List AutoJobPublish)
  | preparation (preparations : List NodeJobPreparation) (keepTrace : Bool) (eventTime : Timestamp)
  | elsewhere

def BatchCommit.fills (batch : BatchCommit) (open_ : OpenBatch) : Prop :=
  batch.nodeName = open_.nodeName ∧ batch.jobs.map NewJob.jobId = open_.ids

structure NumberingFrame (store next : JobStore) : Prop where
  counters : next.db.jobSequences = store.db.jobSequences
  live : ∀ place, next.db.jobs.contains place = true → store.db.jobs.contains place = true
  directories : next.directories ⊆ store.directories

variable (hash : KeyHash) (causes : ArrivalCauses)

inductive NumberingStep : NumberingState → NumberingOperation → NumberingState → Prop where
  | reserve {store : JobStore} {batches : List OpenBatch} {node : String} {count : Nat} {producer : Option String}
      {ids : List Nat} {next : Database} (done : reserveJobIds store.db node count producer = .ok (ids, next)) :
      NumberingStep ⟨store, batches⟩ (.reserve node count producer)
        ⟨{ store with db := next }, batches ++ [⟨node, ids, false, false⟩]⟩
  | prepare {store : JobStore} {batches : List OpenBatch} {batch : OpenBatch} {directories : List JobAddress}
      (member : batch ∈ batches) (reserved : batch.explicit = false)
      (done : prepareJobsBatch store.directories batch.nodeName batch.ids = .ok directories) :
      NumberingStep ⟨store, batches⟩ (.prepare batch)
        ⟨{ store with directories := directories }, markPrepared batches batch⟩
  | abandon {store : JobStore} {batches : List OpenBatch} {batch : OpenBatch} {error : Error}
      (reserved : batch.explicit = false)
      (failed : prepareJobsBatch store.directories batch.nodeName batch.ids = .error error) :
      NumberingStep ⟨store, batches⟩ (.abandon batch) ⟨store, batches.erase batch⟩
  | prepareExplicit {store : JobStore} {batches : List OpenBatch} {batch : OpenBatch} {directories : List JobAddress}
      (explicit : batch.explicit = true)
      (done : prepareJobsBatch store.directories batch.nodeName batch.ids = .ok directories) :
      NumberingStep ⟨store, batches⟩ (.prepareExplicit batch)
        ⟨{ store with directories := directories }, batches ++ [batch]⟩
  | commit {store : JobStore} {batches : List OpenBatch} {open_ : OpenBatch} {batch : BatchCommit}
      {answer : List NewJob × List (String × Nat)} {next : Database} (member : open_ ∈ batches)
      (reserved : open_.explicit = false) (fills : batch.fills open_)
      (done : commitPreparedJobsBatchResolvingIdempotency hash causes store.db batch = .ok (answer, next)) :
      NumberingStep ⟨store, batches⟩ (.commit open_ batch) ⟨{ store with db := next }, batches.erase open_⟩
  | commitExplicit {store : JobStore} {batches : List OpenBatch} {open_ : OpenBatch} {batch : BatchCommit}
      {jobs : List NewJob} {next : Database} (member : open_ ∈ batches) (explicit : open_.explicit = true)
      (fills : batch.fills open_)
      (done : commitPreparedJobsBatch hash causes store.db batch = .ok (jobs, next)) :
      NumberingStep ⟨store, batches⟩ (.commitExplicit open_ batch) ⟨{ store with db := next }, batches.erase open_⟩
  | discard {store : JobStore} {batches : List OpenBatch} {batch : OpenBatch} :
      NumberingStep ⟨store, batches⟩ (.discard batch)
        ⟨discardPreparedJobs store batch.nodeName batch.ids [], batches.erase batch⟩
  | discardSome {store : JobStore} {batches : List OpenBatch} {node : String} {ids retained : List Nat} :
      NumberingStep ⟨store, batches⟩ (.discardSome node ids retained)
        ⟨discardPreparedJobs store node ids retained, batches⟩
  | create {store next : JobStore} {batches : List OpenBatch} {request : SingleCreation} {jobId : Nat}
      (done : createJob hash causes store request = .ok (jobId, next)) :
      NumberingStep ⟨store, batches⟩ (.create request) ⟨next, batches⟩
  | register {store next : JobStore} {batches : List OpenBatch} {request : SingleCreation} {answer : Bool × Nat}
      (done : commitSingleJob hash causes store request false = .ok (answer, next)) :
      NumberingStep ⟨store, batches⟩ (.register request) ⟨next, batches⟩
  | automatic {store next : JobStore} {batches : List OpenBatch} {publishes : List AutoJobPublish}
      {outcomes : List (Result (Bool × Nat))}
      (done : applyAutoJobPublishes hash causes store publishes = .ok (outcomes, next)) :
      NumberingStep ⟨store, batches⟩ (.automatic publishes) ⟨next, batches⟩
  | preparation {store : JobStore} {batches : List OpenBatch} {preparations : List NodeJobPreparation}
      {keepTrace : Bool} {eventTime : Timestamp} {next : Database}
      (done : applyJobPreparation store.db preparations keepTrace eventTime = .ok next) :
      NumberingStep ⟨store, batches⟩ (.preparation preparations keepTrace eventTime)
        ⟨⟨next, remainingDirectories store preparations⟩, batches⟩
  | elsewhere {store next : JobStore} {batches : List OpenBatch} (frame : NumberingFrame store next) :
      NumberingStep ⟨store, batches⟩ .elsewhere ⟨next, batches⟩

-- A preparation rewinds no counter below an id still in use.
def RewindsClear (state : NumberingState) : NumberingOperation → Prop
  | .preparation preparations _ _ => RewindClear state preparations
  | _ => True

-- An id that its caller chose and an id handed out are never the same id at the same time.
def ChosenApart (state : NumberingState) : NumberingOperation → Prop
  | .create request | .register request => request.job.address ∉ state.reserved
  | .prepareExplicit batch | .commitExplicit batch _ => ∀ place ∈ batch.places, place ∉ state.reserved
  | .reserve node count _ => ∀ place ∈ state.explicitPlaces, place.1 = node →
      place.2 < nextJobId state.db node ∨ nextJobId state.db node + count ≤ place.2
  | _ => True

def counter (db : Database) (node : String) : Nat := (db.jobSequences.find node).elim 0 JobSequence.nextJobId

structure NumberingInvariant (state : NumberingState) : Prop where
  live : ∀ place, state.db.jobs.contains place = true → place.2 < counter state.db place.1
  reserved : ∀ place ∈ state.reserved, place.2 < counter state.db place.1
  distinct : state.reserved.Nodup
  placed : ∀ place ∈ state.store.directories, place.2 < counter state.db place.1 ∨ place ∈ state.explicitPlaces

variable {hash : KeyHash} {causes : ArrivalCauses} {state after : NumberingState} {db next : Database}
  {batches : List OpenBatch} {batch : OpenBatch} {node other : String}

section Counter

theorem contains_iff {jobs : Table Job.address} {place : JobAddress} :
    jobs.contains place = true ↔ ∃ row ∈ jobs.rows, row.address = place := by
  rw [Table.contains, Table.find_isSome_iff]

theorem counter_le_next (db : Database) (node : String) : counter db node ≤ nextJobId db node := by
  unfold counter nextJobId
  cases db.jobSequences.find node with
  | none => exact Nat.zero_le _
  | some row => exact Nat.le_refl _

theorem counter_set {sequences : Table JobSequence.nodeName} {value : Nat}
    (written : next.jobSequences = setSequence sequences node value) :
    counter next other = if node = other then value else (sequences.find other).elim 0 JobSequence.nextJobId := by
  unfold counter
  rw [written, find_set_sequence]
  by_cases same : node = other
  · rw [if_pos same, if_pos same]
    rfl
  · rw [if_neg same, if_neg same]

theorem counter_raise {value : Nat} (written : next.jobSequences = raiseSequence db.jobSequences node value) :
    counter next other = if node = other then max (counter db other) value else counter db other := by
  unfold counter
  rw [written, find_raise_sequence]
  by_cases same : node = other
  · rw [if_pos same, if_pos same]
    cases found : db.jobSequences.find other with
    | none =>
        simp only [Option.elim_none, Option.elim_some]
        omega
    | some row => simp only [Option.elim_some]
  · rw [if_neg same, if_neg same]

theorem counter_set_sequences {places : List JobAddress}
    (ascending : places.Pairwise fun earlier later => earlier.1 = later.1 → earlier.2 < later.2)
    (above : ∀ place ∈ places, counter db place.1 ≤ place.2)
    (written : next.jobSequences = setSequences db.jobSequences places) :
    (∀ node, counter db node ≤ counter next node) ∧ ∀ place ∈ places, place.2 < counter next place.1 := by
  induction places using List.reverseRecOn generalizing next with
  | nil =>
      have same : ∀ node, counter next node = counter db node := fun node => by
        unfold counter
        rw [written]
        rfl
      exact ⟨fun node => Nat.le_of_eq (same node).symm, fun place member => absurd member (by simp)⟩
  | append_singleton earlier last ih =>
      have split := List.pairwise_append.mp ascending
      obtain ⟨grown, covered⟩ := @ih { db with jobSequences := setSequences db.jobSequences earlier } split.1
        (fun place member => above place (List.mem_append_left _ member)) rfl
      have snoc : next.jobSequences = setSequence (setSequences db.jobSequences earlier) last.1 (last.2 + 1) := by
        rw [written]
        simp only [setSequences, List.foldl_append, List.foldl_cons, List.foldl_nil]
      have here : ∀ node, counter next node =
          if last.1 = node then last.2 + 1
          else counter { db with jobSequences := setSequences db.jobSequences earlier } node :=
        fun node => counter_set snoc
      constructor
      · intro node
        rw [here node]
        split
        · rename_i same
          have least := above last (by simp)
          rw [same] at least
          omega
        · exact grown node
      · intro place member
        rw [here place.1]
        rcases List.mem_append.mp member with old | new
        · by_cases same : last.1 = place.1
          · have smaller := split.2.2 place old last (by simp) same.symm
            rw [if_pos same]
            omega
          · rw [if_neg same]
            exact covered place old
        · obtain rfl := List.mem_singleton.mp new
          rw [if_pos rfl]
          exact Nat.lt_succ_self _

theorem tail_congr {jobs kept : Table Job.address}
    (same : ∀ jobId, jobs.contains (node, jobId) = kept.contains (node, jobId)) :
    tailJobId jobs node = tailJobId kept node := by
  have half : ∀ left right : Table Job.address,
      (∀ jobId, left.contains (node, jobId) = right.contains (node, jobId)) →
        tailJobId left node ≤ tailJobId right node := by
    intro left right equal
    refine tail_le ?_ (Nat.succ_pos _)
    rintro row member rfl
    have here : right.contains (row.nodeName, row.jobId) = true :=
      equal row.jobId ▸ contains_iff.mpr ⟨row, member, rfl⟩
    obtain ⟨found, inside, address⟩ := contains_iff.mp here
    obtain ⟨place, number⟩ := Prod.mk.inj address
    have below := below_tail inside
    rw [place, number] at below
    exact below
  exact Nat.le_antisymm (half jobs kept same) (half kept jobs fun jobId => (same jobId).symm)

end Counter

section Allocation

def createdId : PublishPlan → Option Nat
  | .created jobId => some jobId
  | _ => none

theorem plan_node_created {resolved : KeyIndex} {start : Nat} {items : List AutoJobPublish} {plans : List PublishPlan}
    (planned : planNode hash db node resolved start items = .ok plans) :
    plans.length = items.length ∧ ∃ count, plans.filterMap createdId = List.range' start count := by
  induction items generalizing resolved start plans with
  | nil =>
      obtain rfl := Except.ok.inj planned
      exact ⟨rfl, 0, rfl⟩
  | cons item rest ih =>
      unfold planNode at planned
      split at planned
      · simp only [Lib.bind_ok, Lib.pure_ok] at planned
        obtain ⟨_, _, later, more, rfl⟩ := planned
        obtain ⟨sized, count, ids⟩ := ih more
        exact ⟨by simp [sized], count, by simpa only [List.filterMap_cons, createdId] using ids⟩
      · split at planned
        · simp only [Lib.bind_ok, Lib.pure_ok] at planned
          obtain ⟨later, more, rfl⟩ := planned
          obtain ⟨sized, count, ids⟩ := ih more
          exact ⟨by simp [sized], count, by simpa only [List.filterMap_cons, createdId] using ids⟩
        · simp only [Lib.bind_ok, Lib.pure_ok] at planned
          obtain ⟨later, more, rfl⟩ := planned
          obtain ⟨sized, count, ids⟩ := ih more
          refine ⟨by simp [sized], count + 1, ?_⟩
          simp only [List.filterMap_cons, createdId, ids, List.range'_succ]

def pendingPlace (entry : AutoJobPublish × Nat) : JobAddress := (entry.1.numbered entry.2).address

theorem pending_places_node (node : String) {group : List (Nat × AutoJobPublish)} {plans : List PublishPlan}
    (here : ∀ entry ∈ group, entry.2.provisional.nodeName = node) (sized : plans.length = group.length) :
    ((group.zip plans).filterMap pendingItem).map pendingPlace =
      (plans.filterMap createdId).map fun jobId => (node, jobId) := by
  induction group generalizing plans with
  | nil =>
      obtain rfl := List.length_eq_zero_iff.mp sized
      rfl
  | cons entry rest ih =>
      cases plans with
      | nil => exact absurd sized (by simp)
      | cons plan later =>
          have tail := ih (fun other member => here other (List.mem_cons_of_mem _ member)) (by simpa using sized)
          have place := here entry List.mem_cons_self
          cases plan with
          | refused error => simpa only [List.zip_cons_cons, List.filterMap_cons, pendingItem, createdId] using tail
          | existing jobId => simpa only [List.zip_cons_cons, List.filterMap_cons, pendingItem, createdId] using tail
          | created jobId =>
              have first : pendingPlace (entry.2, jobId) = (node, jobId) := by
                rw [← place]
                rfl
              simp only [List.zip_cons_cons, List.filterMap_cons, pendingItem, createdId, List.map_cons, first, tail]

def allocatedCount (hash : KeyHash) (db : Database) (items : List (Nat × AutoJobPublish)) (node : String) : Nat :=
  let publishes := (items.filter fun entry => entry.2.provisional.nodeName == node).map Prod.snd
  match planNode hash db node (existingByHash hash db node publishes) (nextJobId db node) publishes with
  | .ok plans => (plans.filterMap createdId).length
  | .error _ => 0

def nodeAllocation (hash : KeyHash) (db : Database) (items : List (Nat × AutoJobPublish)) (node : String) :
    List JobAddress :=
  (List.range' (nextJobId db node) (allocatedCount hash db items node)).map fun jobId => (node, jobId)

theorem plan_nodes_allocated {items : List (Nat × AutoJobPublish)} {planned : List ((Nat × AutoJobPublish) × PublishPlan)}
    (done : planNodes hash db items = .ok planned) :
    (planned.filterMap pendingItem).map pendingPlace =
      ((items.map fun entry => entry.2.provisional.nodeName).eraseDups).flatMap (nodeAllocation hash db items) := by
  simp only [planNodes, Lib.bind_ok, Lib.pure_ok] at done
  obtain ⟨blocks, collected, rfl⟩ := done
  generalize ((items.map fun entry => entry.2.provisional.nodeName).eraseDups) = nodes at collected ⊢
  have related := Lib.collect_ok.mp collected
  clear collected
  induction related with
  | nil => rfl
  | @cons node block rest later step _ ih =>
      simp only [Lib.bind_ok, Lib.pure_ok] at step
      obtain ⟨plans, planned, rfl⟩ := step
      obtain ⟨sized, count, ids⟩ := plan_node_created planned
      rw [List.length_map] at sized
      have here := pending_places_node node (fun entry member => by
        simpa using (List.mem_filter.mp member).2) sized
      have counted : allocatedCount hash db items node = count := by
        simp only [allocatedCount, planned, ids, List.length_range']
      simp only [List.flatten_cons, List.filterMap_append, List.map_append, List.flatMap_cons, ih, here, ids,
        nodeAllocation, counted]

theorem nodup_eraseDups {names : List String} : names.eraseDups.Nodup := by
  induction hlen : names.length using Nat.strong_induction_on generalizing names with
  | _ size ih =>
      cases names with
      | nil => simp
      | cons name rest =>
          rw [List.eraseDups_cons, List.nodup_cons]
          refine ⟨by simp [List.mem_eraseDups], ih _ ?_ rfl⟩
          have shorter := List.length_filter_le (fun other => !other == name) rest
          rw [List.length_cons] at hlen
          omega

theorem node_allocation_mem {items : List (Nat × AutoJobPublish)} {place : JobAddress}
    (member : place ∈ nodeAllocation hash db items node) : place.1 = node ∧ nextJobId db node ≤ place.2 := by
  obtain ⟨jobId, listed, rfl⟩ := List.mem_map.mp member
  exact ⟨rfl, (List.mem_range'_1.mp listed).1⟩

theorem allocation_ascends {items : List (Nat × AutoJobPublish)} {names : List String} (distinct : names.Nodup) :
    (names.flatMap (nodeAllocation hash db items)).Pairwise
      fun earlier later => earlier.1 = later.1 → earlier.2 < later.2 := by
  rw [List.pairwise_flatMap]
  constructor
  · intro node _
    unfold nodeAllocation
    rw [List.pairwise_map]
    refine (List.pairwise_lt_range' 1).imp ?_
    intro earlier later less _
    exact less
  · refine distinct.imp ?_
    intro first second apart earlier inFirst later inSecond same
    have left := (node_allocation_mem inFirst).1
    have right := (node_allocation_mem inSecond).1
    exact absurd (left.symm.trans (same.trans right)) apart

theorem plan_nodes_fresh {items : List (Nat × AutoJobPublish)} {planned : List ((Nat × AutoJobPublish) × PublishPlan)}
    (done : planNodes hash db items = .ok planned) :
    ((planned.filterMap pendingItem).map pendingPlace).Pairwise
        (fun earlier later => earlier.1 = later.1 → earlier.2 < later.2) ∧
      ∀ place ∈ (planned.filterMap pendingItem).map pendingPlace, nextJobId db place.1 ≤ place.2 := by
  rw [plan_nodes_allocated done]
  refine ⟨allocation_ascends nodup_eraseDups, ?_⟩
  intro place member
  obtain ⟨node, _, inside⟩ := List.mem_flatMap.mp member
  obtain ⟨rfl, above⟩ := node_allocation_mem inside
  exact above

end Allocation

end MicroWorkflow
