import Mathlib.Algebra.GroupWithZero.Nat
import MicroWorkflow.Lib.Machine
import Mathlib.Data.List.Sort
import Mathlib.Data.List.Nodup

set_option autoImplicit false

namespace MicroWorkflow

structure MutationRequest (ω : Type) where
  serial : Nat
  priority : Int
  weight : Nat
  work : ω

structure WriterConfig where
  maxBatch : Nat
  claimTransactionRows : Nat

def batchLimit (config : WriterConfig) (priority : Int) : Nat :=
  if 20 ≤ priority then min config.maxBatch 128
  else if 5 < priority then min config.maxBatch 256
  else min config.maxBatch 128

def weightLimit (config : WriterConfig) (priority : Int) : Nat :=
  if 20 ≤ priority then 128
  else if 5 < priority then config.claimTransactionRows
  else 128

variable {ω β : Type}

def served (left right : MutationRequest ω) : Prop :=
  left.priority < right.priority ∨ left.priority = right.priority ∧ left.serial ≤ right.serial

instance (left right : MutationRequest ω) : Decidable (served left right) := by
  unfold served
  infer_instance

inductive WriterPhase (ω β : Type) where
  | polling
  | retiring
  | collecting (batch : List (MutationRequest ω))
  | holding (batch : List (MutationRequest ω)) (candidate : MutationRequest ω)
  | closed (batch : List (MutationRequest ω))
  | resolving (batch remaining : List (MutationRequest ω)) (outcomes : Nat → β)
  | recorded

inductive Settlement (β : Type) where
  | result (value : β)
  | cancelled

-- `registered` holds the requests whose threads have not queued them yet;
-- `executed` records what the transactions of the batches gave each request.
structure WriterState (ω β : Type) where
  serial : Nat
  pendingSerials : List Nat
  pendingSerialHeap : List Nat
  completedThrough : Nat
  registered : List (MutationRequest ω)
  queue : List (MutationRequest ω)
  thread : Option (WriterPhase ω β)
  executed : List (Nat × β)
  settled : List (Nat × Settlement β)
  waiting : List Nat

def WriterState.initial : WriterState ω β where
  serial := 0
  pendingSerials := []
  pendingSerialHeap := []
  completedThrough := 0
  registered := []
  queue := []
  thread := none
  executed := []
  settled := []
  waiting := []

inductive WriterLabel (ω β : Type) where
  | newRequest (priority : Int) (weight : Nat) (work : ω)
  | enqueue (serial : Nat)
  | cancel (serial : Nat)
  | getFirst
  | getCandidate
  | putBack
  | closeBatch
  | executeBatch (outcomes : Nat → β)
  | resolve
  | recordCompleted
  | finishLoop
  | timeOut
  | retire
  | barrier (serial : Option Nat)
  | wake (target : Nat)

def isSettled (state : WriterState ω β) (serial : Nat) : Bool := serial ∈ state.settled.map Prod.fst

def newRequest (state : WriterState ω β) (priority : Int) (weight : Nat) (work : ω) : WriterState ω β :=
  let serial := state.serial + 1
  { state with
    serial := serial
    pendingSerials := serial :: state.pendingSerials
    pendingSerialHeap := state.pendingSerialHeap.orderedInsert (· ≤ ·) serial
    registered := ⟨serial, priority, weight, work⟩ :: state.registered }

def enqueue (state : WriterState ω β) (request : MutationRequest ω) : WriterState ω β :=
  { state with
    registered := state.registered.filter fun other => other.serial ≠ request.serial
    queue := state.queue.orderedInsert served request
    thread := some (state.thread.getD .polling) }

def settle (state : WriterState ω β) (serial : Nat) (settlement : Settlement β) : WriterState ω β :=
  if isSettled state serial then state else { state with settled := state.settled ++ [(serial, settlement)] }

def executedBatch (batch : List (MutationRequest ω)) (outcomes : Nat → β) : List (Nat × β) :=
  batch.map fun request => (request.serial, outcomes request.serial)

def batchWeight (batch : List (MutationRequest ω)) : Nat := (batch.map MutationRequest.weight).sum

def takeCandidate (config : WriterConfig) (state : WriterState ω β) (batch : List (MutationRequest ω)) (priority : Int)
    (candidate : MutationRequest ω) (rest : List (MutationRequest ω)) : WriterState ω β :=
  if candidate.priority ≠ priority ∨ weightLimit config priority < batchWeight batch + candidate.weight then
    { state with queue := rest, thread := some (.holding batch candidate) }
  else { state with queue := rest, thread := some (.collecting (batch ++ [candidate])) }

def staleFree (pending heap : List Nat) : List Nat := heap.dropWhile fun serial => serial ∉ pending

def rebuiltHeap (pending heap : List Nat) : List Nat :=
  if 2 * pending.length + 1024 < heap.length then pending.insertionSort (· ≤ ·) else heap

def completedThrough (serial : Nat) : List Nat → Nat
  | [] => serial
  | first :: _ => first - 1

def recordCompleted (state : WriterState ω β) (requests : List (MutationRequest ω)) : WriterState ω β :=
  let pending := state.pendingSerials.filter fun serial => serial ∉ requests.map MutationRequest.serial
  let heap := rebuiltHeap pending (staleFree pending state.pendingSerialHeap)
  { state with
    pendingSerials := pending
    pendingSerialHeap := heap
    completedThrough := completedThrough state.serial heap }

def barrierTarget (state : WriterState ω β) : Option Nat → Nat
  | none => state.serial
  | some serial => serial

-- One step of some thread. A barrier fixes its target when it is entered, and returns at a later step.
def writerStep (config : WriterConfig) (state : WriterState ω β) : WriterLabel ω β → Option (WriterState ω β)
  | .newRequest priority weight work => if 1 ≤ weight then some (newRequest state priority weight work) else none
  | .enqueue serial =>
      (state.registered.find? fun request => decide (request.serial = serial)).map fun request => enqueue state request
  | .cancel serial => if 1 ≤ serial ∧ serial ≤ state.serial then some (settle state serial .cancelled) else none
  | .getFirst =>
      match state.thread, state.queue with
      | some .polling, first :: rest => some { state with queue := rest, thread := some (.collecting [first]) }
      | _, _ => none
  | .getCandidate =>
      match state.thread, state.queue with
      | some (.collecting (first :: others)), candidate :: rest =>
          if (first :: others).length < batchLimit config first.priority then
            some (takeCandidate config state (first :: others) first.priority candidate rest)
          else none
      | _, _ => none
  | .putBack =>
      match state.thread with
      | some (.holding batch candidate) =>
          some { state with queue := state.queue.orderedInsert served candidate, thread := some (.closed batch) }
      | _ => none
  | .closeBatch =>
      match state.thread with
      | some (.collecting batch) => some { state with thread := some (.closed batch) }
      | _ => none
  | .executeBatch outcomes =>
      match state.thread with
      | some (.closed batch) =>
          some { state with
            executed := state.executed ++ executedBatch batch outcomes
            thread := some (.resolving batch batch outcomes) }
      | _ => none
  | .resolve =>
      match state.thread with
      | some (.resolving batch (request :: remaining) outcomes) =>
          some { settle state request.serial (.result (outcomes request.serial)) with
            thread := some (.resolving batch remaining outcomes) }
      | _ => none
  | .recordCompleted =>
      match state.thread with
      | some (.resolving batch [] _) => some { recordCompleted state batch with thread := some .recorded }
      | _ => none
  | .finishLoop =>
      match state.thread with
      | some .recorded => some { state with thread := if state.queue.isEmpty then none else some .polling }
      | _ => none
  | .timeOut =>
      match state.thread with
      | some .polling => if state.queue.isEmpty then some { state with thread := some .retiring } else none
      | _ => none
  | .retire =>
      match state.thread with
      | some .retiring => some { state with thread := if state.queue.isEmpty then none else some .polling }
      | _ => none
  | .barrier serial => some { state with waiting := barrierTarget state serial :: state.waiting }
  | .wake target =>
      if target ∈ state.waiting ∧ target ≤ state.completedThrough then
        some { state with waiting := state.waiting.erase target }
      else none

def WriterStep (config : WriterConfig) (state : WriterState ω β) (label : WriterLabel ω β) (next : WriterState ω β) : Prop :=
  writerStep config state label = some next

section Watermark

variable {config : WriterConfig} {state next : WriterState ω β}

structure Watermark (state : WriterState ω β) : Prop where
  sorted : state.pendingSerialHeap.Pairwise (· ≤ ·)
  covered : ∀ serial ∈ state.pendingSerials, serial ∈ state.pendingSerialHeap
  bounded : ∀ serial ∈ state.pendingSerials, 1 ≤ serial ∧ serial ≤ state.serial
  reached : state.completedThrough ≤ state.serial
  below : ∀ serial ∈ state.pendingSerials, state.completedThrough < serial
  exact : ∀ serial, serial ≤ state.serial → (∀ pending ∈ state.pendingSerials, serial < pending) →
    serial ≤ state.completedThrough

theorem mem_stale_free {pending heap : List Nat} {serial : Nat} (inside : serial ∈ heap) (waits : serial ∈ pending) :
    serial ∈ staleFree pending heap := by
  induction heap with
  | nil => cases inside
  | cons first rest ih =>
      rw [staleFree, List.dropWhile_cons]
      split
      · rename_i stale
        rcases List.mem_cons.mp inside with rfl | later
        · simp [waits] at stale
        · exact ih later
      · exact inside

theorem stale_free_head {pending heap : List Nat} {first : Nat} {rest : List Nat}
    (shape : staleFree pending heap = first :: rest) : first ∈ pending := by
  have kept := List.head?_dropWhile_not (fun serial => decide (serial ∉ pending)) heap
  rw [staleFree] at shape
  rw [shape] at kept
  simpa using kept

theorem rebuilt_heap {pending heap : List Nat} (sorted : heap.Pairwise (· ≤ ·)) (covered : ∀ serial ∈ pending, serial ∈ heap)
    (least : ∀ first rest, heap = first :: rest → first ∈ pending) :
    (rebuiltHeap pending heap).Pairwise (· ≤ ·) ∧ (∀ serial ∈ pending, serial ∈ rebuiltHeap pending heap) ∧
      ∀ first rest, rebuiltHeap pending heap = first :: rest → first ∈ pending := by
  unfold rebuiltHeap
  split
  · refine ⟨List.pairwise_insertionSort _ _, fun serial inside => (List.mem_insertionSort _).mpr inside, ?_⟩
    intro first rest shape
    have inside : first ∈ pending.insertionSort (· ≤ ·) := by
      rw [shape]
      exact List.mem_cons_self
    exact (List.mem_insertionSort _).mp inside
  · exact ⟨sorted, covered, least⟩

theorem new_request_watermark (kept : Watermark state) (priority : Int) (weight : Nat) (work : ω) :
    Watermark (newRequest state priority weight work) := by
  refine ⟨?_, ?_, ?_, ?_, ?_, ?_⟩
  · exact kept.sorted.orderedInsert _ _
  · intro serial waits
    rcases List.mem_cons.mp waits with rfl | old
    · exact (List.mem_orderedInsert _).mpr (.inl rfl)
    · exact (List.mem_orderedInsert _).mpr (.inr (kept.covered serial old))
  · intro serial waits
    rcases List.mem_cons.mp waits with rfl | old
    · exact ⟨Nat.le_add_left 1 _, Nat.le_refl _⟩
    · obtain ⟨low, high⟩ := kept.bounded serial old
      exact ⟨low, Nat.le_succ_of_le high⟩
  · exact Nat.le_succ_of_le kept.reached
  · intro serial waits
    rcases List.mem_cons.mp waits with rfl | old
    · exact Nat.lt_succ_of_le kept.reached
    · exact kept.below serial old
  · intro serial reach clear
    have fresh : serial < state.serial + 1 := clear _ List.mem_cons_self
    exact kept.exact serial (Nat.le_of_lt_succ fresh) fun pending waits => clear pending (List.mem_cons_of_mem _ waits)

theorem record_completed_watermark (kept : Watermark state) (requests : List (MutationRequest ω)) :
    Watermark (recordCompleted state requests) ∧
      state.completedThrough ≤ (recordCompleted state requests).completedThrough := by
  generalize remaining : (state.pendingSerials.filter fun serial =>
    decide (serial ∉ requests.map MutationRequest.serial)) = pending
  have subset : ∀ serial ∈ pending, serial ∈ state.pendingSerials := by
    intro serial waits
    rw [← remaining] at waits
    exact (List.mem_filter.mp waits).1
  have popped : (staleFree pending state.pendingSerialHeap).Pairwise (· ≤ ·) :=
    kept.sorted.sublist (List.dropWhile_sublist _)
  obtain ⟨sorted, covered, least⟩ := rebuilt_heap popped
    (fun serial waits => mem_stale_free (kept.covered serial (subset serial waits)) waits) fun first rest shape =>
      stale_free_head shape
  generalize rebuilt : rebuiltHeap pending (staleFree pending state.pendingSerialHeap) = heap at sorted covered least
  have shape : recordCompleted state requests = { state with
      pendingSerials := pending
      pendingSerialHeap := heap
      completedThrough := completedThrough state.serial heap } := by
    simp only [recordCompleted, remaining, rebuilt]
  rw [shape]
  cases heap with
  | nil =>
      have none_pending : ∀ serial, serial ∉ pending := fun serial waits => by cases covered serial waits
      exact ⟨⟨sorted, covered, fun serial waits => kept.bounded serial (subset serial waits), Nat.le_refl _,
        fun serial waits => absurd waits (none_pending serial), fun serial reach _ => reach⟩, kept.reached⟩
  | cons first rest =>
      have waits_first := least first rest rfl
      obtain ⟨low, high⟩ := kept.bounded first (subset first waits_first)
      have smallest : ∀ serial ∈ pending, first ≤ serial := by
        intro serial waits
        rcases List.mem_cons.mp (covered serial waits) with rfl | later
        · exact Nat.le_refl _
        · exact List.rel_of_pairwise_cons sorted later
      refine ⟨⟨sorted, covered, fun serial waits => kept.bounded serial (subset serial waits), ?_, ?_, ?_⟩, ?_⟩
      · show first - 1 ≤ state.serial
        omega
      · intro serial waits
        have above := smallest serial waits
        show first - 1 < serial
        omega
      · intro serial reach clear
        have before := clear first waits_first
        show serial ≤ first - 1
        omega
      · have before := kept.below first (subset first waits_first)
        show state.completedThrough ≤ first - 1
        omega

end Watermark

end MicroWorkflow
