import Mathlib.Data.List.Flatten
import MicroWorkflow.ObservationsInTurn

set_option autoImplicit false

namespace MicroWorkflow

open Lib (Table Run LastOfHighest)

inductive RuntimeLabel where
  | register (sequence : Nat) (watchId : String)
  | write (nodeName : String) (jobId : Nat) (data : Details) (order : Option RuntimeObservationOrder)
      (wait : Bool) (priority : Int)
  | applyGroup (requests : List Nat)
  | failGroup (requests : List Nat)
  | changeJobs (jobs : Table Job.address)

def groupOf (state : RuntimeWriter) (requests : List Nat) : List RuntimeUpdateSlot :=
  state.queue.filter fun slot => requests.contains slot.request

def takeGroup (state : RuntimeWriter) (requests : List Nat) : RuntimeWriter :=
  { state with
    runtimeSlots := state.runtimeSlots.filter fun entry => !requests.contains entry.2
    queue := state.queue.filter fun slot => !requests.contains slot.request }

def groupWrites (state : RuntimeWriter) (requests : List Nat) : List RuntimeUpdate :=
  (groupOf state requests).flatMap RuntimeUpdateSlot.merged

def registerWatch (sequences : RuntimeSequences) (sequence : Nat) (watchId : String) : RuntimeSequences :=
  fun other => if other = sequence then (sequences sequence).register watchId else sequences other

def jobRuntime (invocation : Invocation) (jobs : Table Job.address) : Option Details :=
  (jobs.find invocation.address).bind Job.runtimeJson

def observes (invocation : Invocation) (sequences : RuntimeSequences) (update : RuntimeUpdate) : Bool :=
  update.attempt == invocation.attempt && observedStates.contains update.state && update.order.any fun order =>
    order.sequence == invocation.sequence && update.watchId.any fun watchId =>
      (sequences invocation.sequence).positions.lookup watchId == some order.position

def runtimeStep (invocation : Invocation) (state : RuntimeWriter) : RuntimeLabel → Option RuntimeWriter
  | .register sequence watchId =>
      if ((state.sequences sequence).positions.lookup watchId).isSome then none
      else some { state with sequences := registerWatch state.sequences sequence watchId }
  | .write nodeName jobId data order wait priority =>
      let update := runtimeUpdate nodeName jobId data order state.submitted
      if update.address = invocation.address ∧ observes invocation state.sequences update = false then none
      else some (writeJobRuntime state update wait priority)
  | .applyGroup requests =>
      some { takeGroup state requests with
        jobs := applyRuntimeUpdates state.sequences state.jobs (groupOf state requests) }
  | .failGroup requests => some (takeGroup state requests)
  | .changeJobs jobs =>
      if jobRuntime invocation jobs = jobRuntime invocation state.jobs then some { state with jobs := jobs } else none

def RuntimeStep (invocation : Invocation) (state : RuntimeWriter) (label : RuntimeLabel) (next : RuntimeWriter) : Prop :=
  runtimeStep invocation state label = some next

structure QueueFormed (state : RuntimeWriter) : Prop where
  together : ∀ slot ∈ state.queue, ∀ update ∈ slot.merged, update.attempt = slot.latest.attempt
  numbered : ((state.queue.flatMap RuntimeUpdateSlot.merged).map RuntimeUpdate.submission).Nodup
  earlier : ∀ slot ∈ state.queue, slot.request < state.submitted ∧
    ∀ update ∈ slot.merged, update.submission < state.submitted
  keyed : ∀ entry ∈ state.runtimeSlots, entry.2 < state.submitted ∧
    ∀ slot ∈ state.queue, slot.request = entry.2 → slot.key = entry.1

structure InvocationStarted (invocation : Invocation) (state : RuntimeWriter) : Prop where
  formed : QueueFormed state
  unregistered : (state.sequences invocation.sequence).positions = []
  unwritten : ∀ slot ∈ state.queue, slot.latest.address ≠ invocation.address
  cleared : jobRuntime invocation state.jobs = none

def SlotObserved (invocation : Invocation) (sequences : RuntimeSequences) (slot : RuntimeUpdateSlot) : Prop :=
  (∀ update ∈ slot.merged, Observed invocation sequences update) ∧
    LastOfHighest RuntimeUpdate.position slot.latest slot.merged

structure RuntimeAccounted (invocation : Invocation) (state : RuntimeWriter) : Prop where
  formed : QueueFormed state
  enumerated : (state.sequences invocation.sequence).positions.map Prod.snd =
    List.range (state.sequences invocation.sequence).positions.length
  observed : ∀ slot ∈ state.queue, slot.latest.address = invocation.address →
    SlotObserved invocation state.sequences slot
  holds : HoldsObservation invocation state.sequences (jobRuntime invocation state.jobs)

section Sequences

variable {invocation : Invocation} {sequences : RuntimeSequences} {update : RuntimeUpdate} {runtime : Option Details}

theorem positions_distinct {sequence : RuntimeObservationSequence}
    (enumerated : sequence.positions.map Prod.snd = List.range sequence.positions.length) : PositionsDistinct sequence := by
  intro left right position leftFound rightFound
  have entry : ∀ watchId, sequence.positions.lookup watchId = some position → (watchId, position) ∈ sequence.positions := by
    intro watchId found
    obtain ⟨before, after, split, _⟩ := List.lookup_eq_some_iff.mp found
    rw [split]
    exact List.mem_append_right _ List.mem_cons_self
  have unique : (sequence.positions.map Prod.snd).Nodup := enumerated ▸ List.nodup_range
  have same := List.inj_on_of_nodup_map unique (entry left leftFound) (entry right rightFound) rfl
  exact congrArg Prod.fst same

theorem register_lookup (sequence : Nat) {watchId other : String} {position : Nat}
    (found : (sequences invocation.sequence).positions.lookup other = some position) :
    (registerWatch sequences sequence watchId invocation.sequence).positions.lookup other = some position := by
  by_cases here : invocation.sequence = sequence
  · subst here
    simp only [registerWatch, if_pos, RuntimeObservationSequence.register, List.lookup_append, found, Option.some_or]
  · simp only [registerWatch, if_neg here, found]

theorem Observed.register (observed : Observed invocation sequences update) (sequence : Nat) (watchId : String) :
    Observed invocation (registerWatch sequences sequence watchId) update := by
  obtain ⟨own, position, facts⟩ := observed
  exact ⟨own, position, facts.attempt, facts.order, facts.watch, register_lookup sequence facts.registered,
    facts.storedWatch, facts.storedState, facts.known⟩

theorem HoldsObservation.register (holds : HoldsObservation invocation sequences runtime) (sequence : Nat) (watchId : String) :
    HoldsObservation invocation (registerWatch sequences sequence watchId) runtime := by
  cases holds with
  | inl empty => exact .inl empty
  | inr found =>
      obtain ⟨update, observed, same⟩ := found
      exact .inr ⟨update, observed.register sequence watchId, same⟩

theorem text_of_some {value : Value} {content : String} (found : textOf value = some content) : value = .text content := by
  cases value with
  | text stored => rw [textOf, Option.some.injEq] at found; rw [found]
  | null => exact absurd found (by simp [textOf])
  | int number => exact absurd found (by simp [textOf])
  | list items => exact absurd found (by simp [textOf])
  | json encoded => exact absurd found (by simp [textOf])

theorem observed_write {nodeName : String} {jobId submission : Nat} {data : Details} {order : Option RuntimeObservationOrder}
    (observed : observes invocation sequences (runtimeUpdate nodeName jobId data order submission) = true) :
    Observed invocation sequences (runtimeUpdate nodeName jobId data order submission) := by
  simp only [observes, Bool.and_eq_true, beq_iff_eq, List.contains_iff_mem, Option.any_eq_true] at observed
  obtain ⟨⟨attempt, known⟩, place, ordered, sequence, watchId, watch, registered⟩ := observed
  have storedState : data.get "state" = .text ((textOf (data.get "state")).getD "") := by
    cases stored : textOf (data.get "state") with
    | some state => exact text_of_some stored
    | none => exact absurd known (by simp [runtimeUpdate, stored, observedStates, endingStates])
  refine ⟨watchId, place.position, attempt, ?_, watch, registered, text_of_some watch, storedState, known⟩
  rw [ordered, ← sequence]

end Sequences

section Queue

variable {invocation : Invocation} {state next : RuntimeWriter} {update : RuntimeUpdate} {request : Nat}
  {queue : List RuntimeUpdateSlot} {slot : RuntimeUpdateSlot}

theorem mem_coalesce (member : slot ∈ coalesce request update queue) :
    slot ∈ queue ∨ ∃ old ∈ queue, old.request = request ∧
      slot = { old with latest := latestRuntimeUpdate old.latest update, merged := old.merged ++ [update] } := by
  induction queue with
  | nil => exact absurd member List.not_mem_nil
  | cons first rest ih =>
      by_cases here : first.request = request
      · rw [coalesce, if_pos here, List.mem_cons] at member
        cases member with
        | inl changed => exact .inr ⟨first, List.mem_cons_self, here, changed⟩
        | inr listed => exact .inl (List.mem_cons_of_mem _ listed)
      · rw [coalesce, if_neg here, List.mem_cons] at member
        cases member with
        | inl same => exact .inl (same ▸ List.mem_cons_self)
        | inr listed =>
            cases ih listed with
            | inl old => exact .inl (List.mem_cons_of_mem _ old)
            | inr changed =>
                obtain ⟨old, inside, facts⟩ := changed
                exact .inr ⟨old, List.mem_cons_of_mem _ inside, facts⟩

theorem coalesce_writes (open_ : queue.any (fun slot => slot.request = request) = true) :
    ((coalesce request update queue).flatMap RuntimeUpdateSlot.merged).Perm
      (update :: queue.flatMap RuntimeUpdateSlot.merged) := by
  induction queue with
  | nil => exact absurd open_ (by simp)
  | cons first rest ih =>
      by_cases here : first.request = request
      · rw [coalesce, if_pos here]
        simp only [List.flatMap_cons, List.append_assoc, List.singleton_append]
        exact List.perm_middle
      · rw [coalesce, if_neg here]
        have later : rest.any (fun slot => slot.request = request) = true := by simpa [here] using open_
        rw [List.flatMap_cons, List.flatMap_cons]
        exact ((ih later).append_left first.merged).trans List.perm_middle

theorem write_cases (formed : QueueFormed state) (update : RuntimeUpdate) (wait : Bool) (priority : Int) :
    ((writeJobRuntime state update wait priority).queue = state.queue ++ [⟨state.submitted, priority, update, [update]⟩] ∧
      ∀ entry ∈ (writeJobRuntime state update wait priority).runtimeSlots,
        entry ∈ state.runtimeSlots ∨ entry = ((update.attempt, priority), state.submitted)) ∨
    ∃ request, (writeJobRuntime state update wait priority).queue = coalesce request update state.queue ∧
      (writeJobRuntime state update wait priority).runtimeSlots = state.runtimeSlots ∧
      state.queue.any (fun slot => slot.request = request) = true ∧
      ∀ slot ∈ state.queue, slot.request = request → slot.key = (update.attempt, priority) := by
  by_cases waits : wait = true
  · left
    rw [writeJobRuntime, if_pos waits]
    exact ⟨rfl, fun entry listed => .inl listed⟩
  · rw [writeJobRuntime, if_neg waits]
    cases accepting : acceptingSlot state (update.attempt, priority) with
    | none =>
        left
        refine ⟨rfl, fun entry listed => ?_⟩
        cases List.mem_cons.mp listed with
        | inl new => exact .inr new
        | inr old => exact .inl (List.mem_filter.mp old).1
    | some request =>
        right
        rw [acceptingSlot, Option.filter_eq_some_iff] at accepting
        obtain ⟨before, after, split, _⟩ := List.lookup_eq_some_iff.mp accepting.1
        have entry : ((update.attempt, priority), request) ∈ state.runtimeSlots := by
          rw [split]
          exact List.mem_append_right _ List.mem_cons_self
        exact ⟨request, rfl, rfl, accepting.2, fun slot listed same => (formed.keyed _ entry).2 slot listed same⟩

theorem write_unchanged (state : RuntimeWriter) (update : RuntimeUpdate) (wait : Bool) (priority : Int) :
    (writeJobRuntime state update wait priority).jobs = state.jobs ∧
    (writeJobRuntime state update wait priority).sequences = state.sequences ∧
    (writeJobRuntime state update wait priority).submitted = state.submitted + 1 := by
  by_cases waits : wait = true
  · rw [writeJobRuntime, if_pos waits]
    exact ⟨rfl, rfl, rfl⟩
  · rw [writeJobRuntime, if_neg waits]
    cases acceptingSlot state (update.attempt, priority) with
    | none => exact ⟨rfl, rfl, rfl⟩
    | some request => exact ⟨rfl, rfl, rfl⟩

theorem write_formed (formed : QueueFormed state) (own : update.submission = state.submitted) (wait : Bool) (priority : Int) :
    QueueFormed (writeJobRuntime state update wait priority) := by
  have submitted := (write_unchanged state update wait priority).2.2
  have fresh : update.submission ∉ (state.queue.flatMap RuntimeUpdateSlot.merged).map RuntimeUpdate.submission := by
    intro listed
    obtain ⟨other, inside, same⟩ := List.mem_map.mp listed
    obtain ⟨slot, member, merged⟩ := List.mem_flatMap.mp inside
    have bound := (formed.earlier slot member).2 other merged
    omega
  have older : ∀ slot ∈ state.queue, slot.request < state.submitted + 1 ∧
      ∀ other ∈ slot.merged, other.submission < state.submitted + 1 := by
    intro slot listed
    have bound := formed.earlier slot listed
    exact ⟨Nat.lt_succ_of_lt bound.1, fun other inside => Nat.lt_succ_of_lt (bound.2 other inside)⟩
  cases write_cases formed update wait priority with
  | inl appended =>
      obtain ⟨queue, entries⟩ := appended
      refine ⟨?_, ?_, ?_, ?_⟩
      · intro slot listed other inside
        rw [queue, List.mem_append, List.mem_singleton] at listed
        cases listed with
        | inl old => exact formed.together slot old other inside
        | inr new =>
            subst new
            rw [List.mem_singleton.mp inside]
      · rw [queue]
        simp only [List.flatMap_append, List.flatMap_cons, List.flatMap_nil, List.append_nil, List.map_append]
        refine List.nodup_append.mpr ⟨formed.numbered, by simp, ?_⟩
        intro left leftListed right rightListed same
        rw [List.map_singleton, List.mem_singleton] at rightListed
        exact fresh (rightListed ▸ same ▸ leftListed)
      · intro slot listed
        rw [queue, List.mem_append, List.mem_singleton] at listed
        rw [submitted]
        cases listed with
        | inl old => exact older slot old
        | inr new =>
            subst new
            refine ⟨Nat.lt_succ_self _, fun other inside => ?_⟩
            rw [List.mem_singleton.mp inside, own]
            exact Nat.lt_succ_self _
      · intro entry listed
        rw [submitted, queue]
        cases entries entry listed with
        | inl old =>
            refine ⟨Nat.lt_succ_of_lt (formed.keyed entry old).1, fun slot member same => ?_⟩
            rw [List.mem_append, List.mem_singleton] at member
            cases member with
            | inl inside => exact (formed.keyed entry old).2 slot inside same
            | inr new =>
                subst new
                exact absurd same (Nat.ne_of_gt (formed.keyed entry old).1)
        | inr new =>
            subst new
            refine ⟨Nat.lt_succ_self _, fun slot member same => ?_⟩
            rw [List.mem_append, List.mem_singleton] at member
            cases member with
            | inl inside => exact absurd same (Nat.ne_of_lt (formed.earlier slot inside).1)
            | inr new => rw [new]; rfl
  | inr joined =>
      obtain ⟨request, queue, entries, accepting, keys⟩ := joined
      refine ⟨?_, ?_, ?_, ?_⟩
      · intro slot listed other inside
        rw [queue] at listed
        cases mem_coalesce listed with
        | inl old => exact formed.together slot old other inside
        | inr changed =>
            obtain ⟨old, member, same, rfl⟩ := changed
            have attempt : old.latest.attempt = update.attempt := congrArg Prod.fst (keys old member same)
            rw [latest_attempt attempt]
            cases List.mem_append.mp inside with
            | inl before => exact (formed.together old member other before).trans attempt
            | inr new => rw [List.mem_singleton.mp new]
      · rw [queue, ((coalesce_writes accepting).map RuntimeUpdate.submission).nodup_iff, List.map_cons, List.nodup_cons]
        exact ⟨fresh, formed.numbered⟩
      · intro slot listed
        rw [queue] at listed
        rw [submitted]
        cases mem_coalesce listed with
        | inl old => exact older slot old
        | inr changed =>
            obtain ⟨old, member, same, rfl⟩ := changed
            refine ⟨(older old member).1, fun other inside => ?_⟩
            cases List.mem_append.mp inside with
            | inl before => exact (older old member).2 other before
            | inr new =>
                rw [List.mem_singleton.mp new, own]
                exact Nat.lt_succ_self _
      · intro entry listed
        rw [entries] at listed
        rw [submitted]
        refine ⟨Nat.lt_succ_of_lt (formed.keyed entry listed).1, fun slot member here => ?_⟩
        rw [queue] at member
        cases mem_coalesce member with
        | inl old => exact (formed.keyed entry listed).2 slot old here
        | inr changed =>
            obtain ⟨old, inside, same, rfl⟩ := changed
            have key := (formed.keyed entry listed).2 old inside here
            have attempt : old.latest.attempt = update.attempt := congrArg Prod.fst (keys old inside same)
            rw [← key]
            simp only [RuntimeUpdateSlot.key, latest_attempt attempt, attempt]

theorem take_formed (formed : QueueFormed state) (requests : List Nat) : QueueFormed (takeGroup state requests) := by
  have kept : ∀ slot ∈ (takeGroup state requests).queue, slot ∈ state.queue := fun slot listed => (List.mem_filter.mp listed).1
  refine ⟨fun slot listed => formed.together slot (kept slot listed), ?_,
    fun slot listed => formed.earlier slot (kept slot listed), ?_⟩
  · exact formed.numbered.sublist ((List.filter_sublist.flatMap RuntimeUpdateSlot.merged).map RuntimeUpdate.submission)
  · intro entry listed
    have old := formed.keyed entry (List.mem_filter.mp listed).1
    exact ⟨old.1, fun slot member => old.2 slot (kept slot member)⟩

end Queue

section Groups

variable {invocation : Invocation} {state next : RuntimeWriter} {update : RuntimeUpdate} {requests : List Nat}

theorem group_mem {slot : RuntimeUpdateSlot} (listed : slot ∈ groupOf state requests) : slot ∈ state.queue :=
  (List.mem_filter.mp listed).1

def ownSlots (invocation : Invocation) (state : RuntimeWriter) (requests : List Nat) : List RuntimeUpdateSlot :=
  (groupOf state requests).filter fun slot => slot.latest.address = invocation.address

theorem own_slot (accounted : RuntimeAccounted invocation state) {slot : RuntimeUpdateSlot}
    (listed : slot ∈ ownSlots invocation state requests) : SlotObserved invocation state.sequences slot := by
  obtain ⟨member, own⟩ := List.mem_filter.mp listed
  exact accounted.observed slot (group_mem member) (by simpa using own)

theorem own_latest (accounted : RuntimeAccounted invocation state) :
    ∀ update ∈ (ownSlots invocation state requests).map RuntimeUpdateSlot.latest,
      Observed invocation state.sequences update := by
  intro update listed
  obtain ⟨slot, member, rfl⟩ := List.mem_map.mp listed
  have facts := own_slot accounted member
  exact facts.1 _ facts.2.mem

theorem own_writes (formed : QueueFormed state) :
    ((groupWrites state requests).filter fun update => update.address = invocation.address) =
      (ownSlots invocation state requests).flatMap RuntimeUpdateSlot.merged := by
  have split : ∀ slots : List RuntimeUpdateSlot, (∀ slot ∈ slots, slot ∈ state.queue) →
      ((slots.flatMap RuntimeUpdateSlot.merged).filter fun update => update.address = invocation.address) =
        (slots.filter fun slot => slot.latest.address = invocation.address).flatMap RuntimeUpdateSlot.merged := by
    intro slots
    induction slots with
    | nil => intro _; rfl
    | cons slot rest ih =>
        intro queued
        have merged := formed.together slot (queued slot List.mem_cons_self)
        have later := ih fun other listed => queued other (List.mem_cons_of_mem _ listed)
        rw [List.flatMap_cons, List.filter_append, later]
        by_cases own : slot.latest.address = invocation.address
        · have all : slot.merged.filter (fun update => update.address = invocation.address) = slot.merged := by
            apply List.filter_eq_self.mpr
            intro update inside
            simpa using (attempt_address (merged update inside)).trans own
          rw [all, List.filter_cons_of_pos (by simpa using own), List.flatMap_cons]
        · have none : slot.merged.filter (fun update => update.address = invocation.address) = [] := by
            apply List.filter_eq_nil_iff.mpr
            intro update inside
            simpa using fun same => own ((attempt_address (merged update inside)).symm.trans same)
          rw [none, List.filter_cons_of_neg (by simpa using own), List.nil_append]
  exact split _ fun slot listed => group_mem listed

theorem find_after_group (accounted : RuntimeAccounted invocation state) :
    (applyRuntimeUpdates state.sequences state.jobs (groupOf state requests)).find invocation.address =
      (state.jobs.find invocation.address).map fun row =>
        (keptUpdate ((ownSlots invocation state requests).map RuntimeUpdateSlot.latest)).elim row
          (storeRuntime state.sequences row) := by
  have attempts : ∀ slot ∈ groupOf state requests, slot.latest.address = invocation.address →
      slot.latest.attempt = invocation.attempt := by
    intro slot listed own
    have inside : slot ∈ ownSlots invocation state requests := List.mem_filter.mpr ⟨listed, by simpa using own⟩
    exact (own_latest accounted _ (List.mem_map_of_mem inside)).attempt_eq
  have slots : ((groupOf state requests).map RuntimeUpdateSlot.latest).filter
      (fun update => update.address = invocation.address) =
        (ownSlots invocation state requests).map RuntimeUpdateSlot.latest := by
    rw [List.filter_map]
    rfl
  rw [find_apply_runtime attempts, slots]

theorem find_in_turn (sequences : RuntimeSequences) (place : JobAddress) (writes : List RuntimeUpdate)
    (jobs : Table Job.address) :
    (observationsInTurn sequences jobs writes).find place = (jobs.find place).map fun row =>
      (writes.filter fun update => update.address = place).foldl (storeRuntime sequences) row := by
  induction writes generalizing jobs with
  | nil => simp [observationsInTurn]
  | cons update rest ih =>
      have one : (applyRuntimeUpdates sequences jobs [singleSlot update]).find place =
          (jobs.find place).map fun row => if update.address = place then storeRuntime sequences row update else row := by
        have attempts : ∀ slot ∈ [singleSlot update], slot.latest.address = place → slot.latest.attempt = update.attempt := by
          intro slot listed _
          rw [List.mem_singleton.mp listed]
          rfl
        rw [find_apply_runtime attempts]
        by_cases here : update.address = place
        · simp [singleSlot, here, keptUpdate]
        · simp [singleSlot, here, keptUpdate]
      have step := ih (applyRuntimeUpdates sequences jobs [singleSlot update])
      rw [observationsInTurn] at step
      rw [observationsInTurn, List.foldl_cons, step, one, Option.map_map]
      by_cases here : update.address = place
      · rw [List.filter_cons_of_pos (by simpa using here)]
        simp [here, Function.comp_def]
      · rw [List.filter_cons_of_neg (by simpa using here)]
        simp [here, Function.comp_def]

theorem submission_order_filter {writes : List RuntimeUpdate} (numbered : (writes.map RuntimeUpdate.submission).Nodup)
    (chosen : RuntimeUpdate → Bool) :
    (submissionOrder writes).filter chosen = submissionOrder (writes.filter chosen) := by
  have sorted : ∀ list : List RuntimeUpdate,
      (submissionOrder list).Pairwise fun left right => left.submission ≤ right.submission :=
    fun _ => List.pairwise_insertionSort _ _
  have perm : ∀ list : List RuntimeUpdate, (submissionOrder list).Perm list := fun _ => List.perm_insertionSort _ _
  have same : ((submissionOrder writes).filter chosen).Perm (submissionOrder (writes.filter chosen)) :=
    ((perm writes).filter chosen).trans (perm _).symm
  apply List.Perm.eq_of_pairwise _ ((sorted writes).filter chosen) (sorted _) same
  intro left right leftListed rightListed below above
  have leftMember := (perm writes).mem_iff.mp (List.mem_filter.mp leftListed).1
  have rightMember := (List.mem_filter.mp ((perm _).mem_iff.mp rightListed)).1
  exact List.inj_on_of_nodup_map numbered leftMember rightMember (Nat.le_antisymm below above)

theorem group_numbered (formed : QueueFormed state) (requests : List Nat) :
    ((groupWrites state requests).map RuntimeUpdate.submission).Nodup :=
  formed.numbered.sublist ((List.filter_sublist.flatMap RuntimeUpdateSlot.merged).map RuntimeUpdate.submission)

theorem observed_group_in_turn (accounted : RuntimeAccounted invocation state)
    (decides : ∀ row, state.jobs.find invocation.address = some row → SubmissionDecides state.sequences row
      ((groupWrites state requests).filter fun update => update.address = invocation.address)) :
    (applyRuntimeUpdates state.sequences state.jobs (groupOf state requests)).find invocation.address =
      (observationsInTurn state.sequences state.jobs (submissionOrder (groupWrites state requests))).find
        invocation.address := by
  have numbered := group_numbered accounted.formed requests
  rw [find_after_group accounted, find_in_turn, submission_order_filter numbered]
  cases found : state.jobs.find invocation.address with
  | none => rfl
  | some row =>
      have decided := decides row found
      have own : ∀ update ∈ (groupWrites state requests).filter (fun update => update.address = invocation.address),
          Observed invocation state.sequences update := by
        intro update listed
        rw [own_writes accounted.formed, List.mem_flatMap] at listed
        obtain ⟨slot, member, inside⟩ := listed
        exact (own_slot accounted member).1 update inside
      have holds : HoldsObservation invocation state.sequences row.runtimeJson := by
        have stored := accounted.holds
        rwa [jobRuntime, found, Option.bind_some] at stored
      rw [Option.map_some, Option.map_some, Option.some.injEq]
      cases kept : keptUpdate ((ownSlots invocation state requests).map RuntimeUpdateSlot.latest) with
      | none =>
          have empty : ownSlots invocation state requests = [] := by
            cases slots : ownSlots invocation state requests with
            | nil => rfl
            | cons slot rest => simp [slots, keptUpdate] at kept
          rw [own_writes accounted.formed, empty]
          rfl
      | some latest =>
          have last : Lib.LastOfHighest RuntimeUpdate.position latest
              ((groupWrites state requests).filter fun update => update.address = invocation.address) := by
            rw [own_writes accounted.formed]
            apply LastOfHighest.flatMap (fun slot member => (own_slot accounted member).2)
            exact kept_is_last (own_latest accounted) kept
          have unique := numbered.sublist ((List.filter_sublist (p := fun update =>
            update.address = invocation.address)).map RuntimeUpdate.submission)
          rw [Option.elim_some]
          exact (row_in_turn (positions_distinct accounted.enumerated) (Table.find_key found) own unique holds decided last).symm

end Groups

section Runs

variable {invocation : Invocation} {state next start : RuntimeWriter} {label : RuntimeLabel} {labels : List RuntimeLabel}
  {runtime later : Option Details}

theorem step_formed (formed : QueueFormed state) (stepped : RuntimeStep invocation state label next) : QueueFormed next := by
  cases label with
  | register sequence watchId =>
      obtain ⟨_, ⟨⟩⟩ := Option.ite_none_left_eq_some.mp stepped
      exact ⟨formed.together, formed.numbered, formed.earlier, formed.keyed⟩
  | write nodeName jobId data order wait priority =>
      obtain ⟨allowed, ⟨⟩⟩ := Option.ite_none_left_eq_some.mp stepped
      exact write_formed formed rfl wait priority
  | applyGroup requests =>
      cases stepped
      have taken := take_formed formed requests
      exact ⟨taken.together, taken.numbered, taken.earlier, taken.keyed⟩
  | failGroup requests =>
      cases stepped
      exact take_formed formed requests
  | changeJobs jobs =>
      obtain ⟨kept, ⟨⟩⟩ := Option.ite_none_right_eq_some.mp stepped
      exact ⟨formed.together, formed.numbered, formed.earlier, formed.keyed⟩

def Follows (earlier later : RuntimeUpdate) : Prop :=
  earlier.position ≤ later.position ∧
    (earlier.position = later.position → earlier.state ∈ endingStates → later.state ∈ endingStates)

theorem Follows.trans {first second third : RuntimeUpdate} (early : Follows first second) (late : Follows second third) :
    Follows first third := by
  refine ⟨Nat.le_trans early.1 late.1, fun same ended => ?_⟩
  have lower := early.1
  have upper := late.1
  exact late.2 (by omega) (early.2 (by omega) ended)

def RuntimeFollows (invocation : Invocation) (sequences : RuntimeSequences) (runtime later : Option Details) : Prop :=
  runtime = none ∨ ∃ first second, Observed invocation sequences first ∧ Observed invocation sequences second ∧
    runtime = some first.serialized ∧ later = some second.serialized ∧ Follows first second

theorem RuntimeFollows.register (follows : RuntimeFollows invocation state.sequences runtime later) (sequence : Nat)
    (watchId : String) : RuntimeFollows invocation (registerWatch state.sequences sequence watchId) runtime later := by
  cases follows with
  | inl empty => exact .inl empty
  | inr found =>
      obtain ⟨first, second, firstFacts, secondFacts, rest⟩ := found
      exact .inr ⟨first, second, firstFacts.register sequence watchId, secondFacts.register sequence watchId, rest⟩

theorem HoldsObservation.follows {sequences : RuntimeSequences} (holds : HoldsObservation invocation sequences runtime) :
    RuntimeFollows invocation sequences runtime runtime := by
  cases holds with
  | inl empty => exact .inl empty
  | inr found =>
      obtain ⟨update, observed, same⟩ := found
      exact .inr ⟨update, update, observed, observed, same, same, Nat.le_refl _, fun _ ended => ended⟩

theorem stored_follows {sequences : RuntimeSequences} {row : Job} {held update : RuntimeUpdate}
    (distinct : PositionsDistinct (sequences invocation.sequence)) (observed : Observed invocation sequences held)
    (own : Observed invocation sequences update) (holds : row.runtimeJson = some held.serialized)
    (current : runtimeSuperseded sequences (some row) update = false) (unsettled : runningAfterSettled update row = false) :
    Follows held update := by
  rw [← set_stored holds] at current unsettled
  rw [superseded_after own observed, decide_eq_false_iff_not, Nat.not_lt] at current
  rw [settled_after own observed] at unsettled
  refine ⟨current, fun same ended => ?_⟩
  cases own.known_state with
  | inr ending => exact ending
  | inl running =>
      have watch := same_watch distinct own observed same.symm
      have settled := ending_is_settled ended
      simp [running, watch, settled] at unsettled

theorem group_follows (accounted : RuntimeAccounted invocation state) (requests : List Nat) :
    jobRuntime invocation (applyRuntimeUpdates state.sequences state.jobs (groupOf state requests)) =
        jobRuntime invocation state.jobs ∨
      ∃ update, Observed invocation state.sequences update ∧
        jobRuntime invocation (applyRuntimeUpdates state.sequences state.jobs (groupOf state requests)) =
          some update.serialized ∧
        ∀ held, Observed invocation state.sequences held → jobRuntime invocation state.jobs = some held.serialized →
          Follows held update := by
  rw [jobRuntime, jobRuntime, find_after_group accounted]
  cases found : state.jobs.find invocation.address with
  | none => exact .inl rfl
  | some row =>
      cases kept : keptUpdate ((ownSlots invocation state requests).map RuntimeUpdateSlot.latest) with
      | none => exact .inl rfl
      | some latest =>
          have own := own_latest accounted latest (kept_is_last (own_latest accounted) kept).mem
          rw [Option.map_some, Option.elim_some, Option.bind_some, Option.bind_some]
          cases store_cases state.sequences row latest with
          | inl same => exact .inl (by rw [same])
          | inr stored =>
              refine .inr ⟨latest, own, by rw [stored.1]; rfl, fun held observed holds => ?_⟩
              exact stored_follows (positions_distinct accounted.enumerated) observed own holds stored.2.1 stored.2.2

theorem group_holds (accounted : RuntimeAccounted invocation state) (requests : List Nat) :
    HoldsObservation invocation state.sequences
      (jobRuntime invocation (applyRuntimeUpdates state.sequences state.jobs (groupOf state requests))) := by
  cases group_follows accounted requests with
  | inl same => rw [same]; exact accounted.holds
  | inr stored =>
      obtain ⟨update, observed, held, _⟩ := stored
      exact .inr ⟨update, observed, held⟩

theorem write_observed (accounted : RuntimeAccounted invocation state) {update : RuntimeUpdate}
    (own : update.address = invocation.address → Observed invocation state.sequences update) (wait : Bool) (priority : Int) :
    ∀ slot ∈ (writeJobRuntime state update wait priority).queue, slot.latest.address = invocation.address →
      SlotObserved invocation state.sequences slot := by
  intro slot listed here
  cases write_cases accounted.formed update wait priority with
  | inl appended =>
      rw [appended.1, List.mem_append, List.mem_singleton] at listed
      cases listed with
      | inl old => exact accounted.observed slot old here
      | inr new =>
          subst new
          refine ⟨fun other inside => ?_, Lib.last_of_one update⟩
          rw [List.mem_singleton.mp inside]
          exact own here
  | inr joined =>
      obtain ⟨request, queue, _, _, keys⟩ := joined
      rw [queue] at listed
      cases mem_coalesce listed with
      | inl old => exact accounted.observed slot old here
      | inr changed =>
          obtain ⟨old, member, same, rfl⟩ := changed
          have attempt : old.latest.attempt = update.attempt := congrArg Prod.fst (keys old member same)
          have moved := attempt_address (latest_attempt attempt)
          have written := own (moved.symm.trans here)
          have before := accounted.observed old member ((attempt_address attempt).trans (moved.symm.trans here))
          have latest := before.1 _ before.2.mem
          refine ⟨fun other inside => ?_, ?_⟩
          · cases List.mem_append.mp inside with
            | inl merged => exact before.1 other merged
            | inr new => rw [List.mem_singleton.mp new]; exact written
          · rw [latest_keeps_highest latest written]
            exact before.2.snoc update

theorem step_accounted (accounted : RuntimeAccounted invocation state) (stepped : RuntimeStep invocation state label next) :
    RuntimeAccounted invocation next := by
  have formed := step_formed accounted.formed stepped
  cases label with
  | register sequence watchId =>
      obtain ⟨_, ⟨⟩⟩ := Option.ite_none_left_eq_some.mp stepped
      refine ⟨formed, ?_, ?_, accounted.holds.register sequence watchId⟩
      · by_cases here : invocation.sequence = sequence
        · have numbered := here ▸ accounted.enumerated
          simp [registerWatch, here, RuntimeObservationSequence.register, numbered, List.range_succ]
        · simpa [registerWatch, here] using accounted.enumerated
      · intro slot listed own
        have facts := accounted.observed slot listed own
        exact ⟨fun update inside => (facts.1 update inside).register sequence watchId, facts.2⟩
  | write nodeName jobId data order wait priority =>
      obtain ⟨allowed, ⟨⟩⟩ := Option.ite_none_left_eq_some.mp stepped
      obtain ⟨jobs, sequences, _⟩ :=
        write_unchanged state (runtimeUpdate nodeName jobId data order state.submitted) wait priority
      have own : (runtimeUpdate nodeName jobId data order state.submitted).address = invocation.address →
          Observed invocation state.sequences (runtimeUpdate nodeName jobId data order state.submitted) := by
        intro here
        apply observed_write
        simpa [here] using allowed
      refine ⟨formed, by rw [sequences]; exact accounted.enumerated, ?_, by rw [jobs, sequences]; exact accounted.holds⟩
      rw [sequences]
      exact write_observed accounted own wait priority
  | applyGroup requests =>
      cases stepped
      exact ⟨formed, accounted.enumerated, fun slot listed => accounted.observed slot (List.mem_filter.mp listed).1,
        group_holds accounted requests⟩
  | failGroup requests =>
      cases stepped
      exact ⟨formed, accounted.enumerated, fun slot listed => accounted.observed slot (List.mem_filter.mp listed).1,
        accounted.holds⟩
  | changeJobs jobs =>
      obtain ⟨kept, ⟨⟩⟩ := Option.ite_none_right_eq_some.mp stepped
      exact ⟨formed, accounted.enumerated, accounted.observed, by rw [kept]; exact accounted.holds⟩

theorem InvocationStarted.accounted (started : InvocationStarted invocation start) : RuntimeAccounted invocation start := by
  refine ⟨started.formed, by rw [started.unregistered]; rfl, ?_, .inl started.cleared⟩
  exact fun slot listed own => absurd own (started.unwritten slot listed)

theorem step_follows (accounted : RuntimeAccounted invocation state) (stepped : RuntimeStep invocation state label next)
    (follows : RuntimeFollows invocation state.sequences runtime (jobRuntime invocation state.jobs)) :
    RuntimeFollows invocation next.sequences runtime (jobRuntime invocation next.jobs) := by
  cases label with
  | register sequence watchId =>
      obtain ⟨_, ⟨⟩⟩ := Option.ite_none_left_eq_some.mp stepped
      exact follows.register sequence watchId
  | write nodeName jobId data order wait priority =>
      obtain ⟨allowed, ⟨⟩⟩ := Option.ite_none_left_eq_some.mp stepped
      obtain ⟨jobs, sequences, _⟩ :=
        write_unchanged state (runtimeUpdate nodeName jobId data order state.submitted) wait priority
      rw [jobs, sequences]
      exact follows
  | applyGroup requests =>
      cases stepped
      cases follows with
      | inl empty => exact .inl empty
      | inr found =>
          obtain ⟨first, held, firstObserved, heldObserved, firstStored, heldStored, before⟩ := found
          cases group_follows accounted requests with
          | inl same => exact .inr ⟨first, held, firstObserved, heldObserved, firstStored, same.trans heldStored, before⟩
          | inr stored =>
              obtain ⟨update, observed, holds, after⟩ := stored
              exact .inr ⟨first, update, firstObserved, observed, firstStored, holds,
                before.trans (after held heldObserved heldStored)⟩
  | failGroup requests =>
      cases stepped
      exact follows
  | changeJobs jobs =>
      obtain ⟨kept, ⟨⟩⟩ := Option.ite_none_right_eq_some.mp stepped
      rw [kept]
      exact follows

-- The stored runtime never goes back: not from an ended watch to its running,
-- not from a watch to one registered before it.
def MovesForward (invocation : Invocation) (sequences : RuntimeSequences) (runtime later : Option Details) : Prop :=
  (∀ watchId state, watchOf runtime = some watchId → stateOf runtime = some state → state ∈ endingStates →
    watchOf later = some watchId → stateOf later ≠ some "running") ∧
  ∀ watchId laterWatch position laterPosition, watchOf runtime = some watchId → watchOf later = some laterWatch →
    (sequences invocation.sequence).positions.lookup watchId = some position →
    (sequences invocation.sequence).positions.lookup laterWatch = some laterPosition → position ≤ laterPosition

theorem follows_forward {sequences : RuntimeSequences} (follows : RuntimeFollows invocation sequences runtime later) :
    MovesForward invocation sequences runtime later := by
  cases follows with
  | inl empty =>
      subst empty
      exact ⟨fun _ _ watch => absurd watch (by simp [watchOf]), fun _ _ _ _ watch => absurd watch (by simp [watchOf])⟩
  | inr found =>
      obtain ⟨first, second, ⟨left, leftPosition, leftFacts⟩, ⟨right, rightPosition, rightFacts⟩, rfl, rfl, order⟩ := found
      rw [Follows, leftFacts.position_eq, rightFacts.position_eq] at order
      have leftWatch : watchOf (some first.serialized) = some left := by simp [watchOf, leftFacts.storedWatch, textOf]
      have rightWatch : watchOf (some second.serialized) = some right := by simp [watchOf, rightFacts.storedWatch, textOf]
      have leftState : stateOf (some first.serialized) = some first.state := by simp [stateOf, leftFacts.storedState, textOf]
      have rightState : stateOf (some second.serialized) = some second.state := by
        simp [stateOf, rightFacts.storedState, textOf]
      refine ⟨?_, ?_⟩
      · intro watchId state watch stored ended laterWatch running
        rw [leftWatch, Option.some.injEq] at watch
        rw [rightWatch, Option.some.injEq] at laterWatch
        rw [leftState, Option.some.injEq] at stored
        rw [rightState, Option.some.injEq] at running
        have same : leftPosition = rightPosition := by
          have registered := leftFacts.registered
          rw [watch, ← laterWatch, rightFacts.registered, Option.some.injEq] at registered
          exact registered.symm
        have ending := order.2 same (stored ▸ ended)
        exact running_not_settled (ending_is_settled (running ▸ ending))
      · intro watchId laterWatch position laterPosition watch stored registered laterRegistered
        rw [leftWatch, Option.some.injEq] at watch
        rw [rightWatch, Option.some.injEq] at stored
        rw [← watch, leftFacts.registered, Option.some.injEq] at registered
        rw [← stored, rightFacts.registered, Option.some.injEq] at laterRegistered
        rw [← registered, ← laterRegistered]
        exact order.1

theorem runtime_observations_move_forward (started : InvocationStarted invocation start)
    (run : Run (RuntimeStep invocation) start labels state) :
    (∀ requests, (∀ row, state.jobs.find invocation.address = some row → SubmissionDecides state.sequences row
        ((groupWrites state requests).filter fun update => update.address = invocation.address)) →
      jobRuntime invocation (applyRuntimeUpdates state.sequences state.jobs (groupOf state requests)) =
        jobRuntime invocation
          (observationsInTurn state.sequences state.jobs (submissionOrder (groupWrites state requests)))) ∧
    ∀ more next, Run (RuntimeStep invocation) state more next →
      MovesForward invocation next.sequences (jobRuntime invocation state.jobs) (jobRuntime invocation next.jobs) := by
  have accounted : RuntimeAccounted invocation state := run.invariant started.accounted step_accounted
  refine ⟨fun requests decides => ?_, fun more next further => ?_⟩
  · rw [jobRuntime, jobRuntime, observed_group_in_turn accounted decides]
  · apply follows_forward
    have reached : RuntimeAccounted invocation next ∧
        RuntimeFollows invocation next.sequences (jobRuntime invocation state.jobs) (jobRuntime invocation next.jobs) := by
      refine @Run.invariant _ _ (RuntimeStep invocation) state next more (fun reached => RuntimeAccounted invocation reached ∧
        RuntimeFollows invocation reached.sequences (jobRuntime invocation state.jobs) (jobRuntime invocation reached.jobs))
        further ⟨accounted, accounted.holds.follows⟩ ?_
      intro before after label both stepped
      exact ⟨step_accounted both.1 stepped, step_follows both.1 stepped both.2⟩
    exact reached.2

end Runs

section Example

def solveInvocation : Invocation := ⟨"solve", 1, 0, some "e1", 0⟩

def solveRow : Job where
  nodeName := "solve"
  jobId := 1
  status := .running
  statusJson := []
  generation := 0
  activeExecutionId := some "e1"
  activePid := some 7
  activeThreadId := some 8
  activeStartedAt := some 3
  restartRequestedAt := none
  restartRequestedByPid := none
  restartReason := none
  runtimeJson := none

def solveRuntime (state : String) : Details :=
  [("state", .text state), ("watch_id", .text "w1"), ("generation", .int 0), ("execution_id", .text "e1")]

def solveWriter : RuntimeWriter where
  jobs := ⟨[solveRow], List.nodup_singleton _⟩
  sequences := fun _ => ⟨[]⟩
  submitted := 0
  runtimeSlots := []
  queue := []

def solveWrite (state : String) : RuntimeLabel :=
  .write "solve" 1 (solveRuntime state) (some ⟨0, 0⟩) true 10

theorem solve_started : InvocationStarted solveInvocation solveWriter where
  formed := ⟨fun _ listed => absurd listed List.not_mem_nil, List.nodup_nil, fun _ listed => absurd listed List.not_mem_nil,
    fun _ listed => absurd listed List.not_mem_nil⟩
  unregistered := rfl
  unwritten := fun _ listed => absurd listed List.not_mem_nil
  cleared := rfl

theorem solve_run_forward : ∃ state, Run (RuntimeStep solveInvocation) solveWriter [.register 0 "w1",
    solveWrite "timed_out"] state ∧
    jobRuntime solveInvocation (applyRuntimeUpdates state.sequences state.jobs (groupOf state [0])) =
      jobRuntime solveInvocation
        (observationsInTurn state.sequences state.jobs (submissionOrder (groupWrites state [0]))) ∧
    ∀ more next, Run (RuntimeStep solveInvocation) state more next →
      MovesForward solveInvocation next.sequences (jobRuntime solveInvocation state.jobs)
        (jobRuntime solveInvocation next.jobs) := by
  have run : ∃ state, Run (RuntimeStep solveInvocation) solveWriter [.register 0 "w1", solveWrite "timed_out"] state ∧
      state.jobs.find solveInvocation.address = some solveRow ∧
      groupWrites state [0] = [runtimeUpdate "solve" 1 (solveRuntime "timed_out") (some ⟨0, 0⟩) 0] :=
    ⟨_, Run.of_fold rfl, rfl, rfl⟩
  obtain ⟨state, run, row, writes⟩ := run
  have forward := runtime_observations_move_forward solve_started run
  refine ⟨state, run, forward.1 [0] ?_, forward.2⟩
  intro found same
  rw [row, Option.some.injEq] at same
  subst same
  rw [writes]
  right
  intro latest last
  have member := (List.mem_filter.mp last.mem).1
  rw [List.mem_singleton] at member
  subst member
  refine ⟨by decide, fun update listed _ => ?_⟩
  rw [List.mem_singleton.mp (List.mem_filter.mp listed).1]
  exact ⟨fun later => absurd later (Nat.lt_irrefl _), fun earlier => absurd earlier (Nat.lt_irrefl _)⟩

-- A timeout and a checkpoint of its watch wait in one group: one by one the timeout stays, the group stores
-- the checkpoint.
theorem grouped_checkpoint_hides_timeout : ∃ start state labels requests, InvocationStarted solveInvocation start ∧
    Run (RuntimeStep solveInvocation) start labels state ∧
    stateOf (jobRuntime solveInvocation (applyRuntimeUpdates state.sequences state.jobs (groupOf state requests))) =
      some "running" ∧
    stateOf (jobRuntime solveInvocation
      (observationsInTurn state.sequences state.jobs (submissionOrder (groupWrites state requests)))) =
      some "timed_out" :=
  ⟨solveWriter, _, [.register 0 "w1", solveWrite "timed_out", solveWrite "running"], [0, 1], solve_started,
    Run.of_fold rfl, by decide, by decide⟩

end Example

end MicroWorkflow
