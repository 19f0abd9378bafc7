import MicroWorkflow.MutationWriter

set_option autoImplicit false

namespace MicroWorkflow

open Lib (Run)

variable {ω β : Type} {config : WriterConfig} {state next : WriterState ω β}

def inFlight : Option (WriterPhase ω β) → List (MutationRequest ω)
  | some (.collecting batch) => batch
  | some (.holding batch candidate) => candidate :: batch
  | some (.closed batch) => batch
  | some (.resolving batch _ _) => batch
  | some .polling => []
  | some .retiring => []
  | some .recorded => []
  | none => []

def unstarted : Option (WriterPhase ω β) → List (MutationRequest ω)
  | some (.resolving _ _ _) => []
  | thread => inFlight thread

def heldRequests (state : WriterState ω β) : List (MutationRequest ω) :=
  state.registered ++ (state.queue ++ inFlight state.thread)

def unexecutedRequests (state : WriterState ω β) : List (MutationRequest ω) :=
  state.registered ++ (state.queue ++ unstarted state.thread)

def Resolved (state : WriterState ω β) : Prop :=
  ∀ batch remaining outcomes, state.thread = some (.resolving batch remaining outcomes) →
    (∃ answered, batch = answered ++ remaining ∧ ∀ request ∈ answered, isSettled state request.serial = true) ∧
      ∀ request ∈ batch, (request.serial, outcomes request.serial) ∈ state.executed

structure Accounted (state : WriterState ω β) : Prop where
  watermark : Watermark state
  distinct : ((heldRequests state).map MutationRequest.serial).Nodup
  held : ∀ serial, serial ∈ state.pendingSerials ↔ serial ∈ (heldRequests state).map MutationRequest.serial
  once : (state.executed.map Prod.fst).Nodup
  executed : ∀ serial, serial ∈ state.executed.map Prod.fst ↔
    (1 ≤ serial ∧ serial ≤ state.serial) ∧ serial ∉ (unexecutedRequests state).map MutationRequest.serial
  settledOnce : (state.settled.map Prod.fst).Nodup
  known : ∀ serial ∈ state.settled.map Prod.fst, 1 ≤ serial ∧ serial ≤ state.serial
  truthful : ∀ serial value, (serial, Settlement.result value) ∈ state.settled → (serial, value) ∈ state.executed
  answered : ∀ serial, 1 ≤ serial → serial ≤ state.serial → serial ∉ state.pendingSerials → isSettled state serial = true
  resolved : Resolved state
  served : state.queue ≠ [] → state.thread ≠ none

theorem unstarted_subset (state : WriterState ω β) {serial : Nat}
    (inside : serial ∈ (unexecutedRequests state).map MutationRequest.serial) :
    serial ∈ (heldRequests state).map MutationRequest.serial := by
  simp only [unexecutedRequests, heldRequests, List.map_append, List.mem_append] at inside ⊢
  rcases inside with here | queued | flying
  · exact .inl here
  · exact .inr (.inl queued)
  · refine .inr (.inr ?_)
    cases shape : state.thread with
    | none => simpa [shape, unstarted] using flying
    | some phase => cases phase <;> simp_all [unstarted, inFlight]

theorem accounted_initial : Accounted (WriterState.initial : WriterState ω β) := by
  refine ⟨⟨.nil, ?_, ?_, Nat.le_refl 0, ?_, ?_⟩, .nil, ?_, .nil, ?_, .nil, ?_, ?_, ?_, ?_, fun waits => absurd rfl waits⟩
  · intro serial waits
    cases waits
  · intro serial waits
    cases waits
  · intro serial waits
    cases waits
  · intro serial reach _
    exact reach
  · intro serial
    rfl
  · intro serial
    constructor
    · intro inside
      cases inside
    · rintro ⟨⟨low, high⟩, _⟩
      exact absurd (Nat.le_trans low high) (Nat.not_succ_le_zero 0)
  · intro serial inside
    cases inside
  · intro serial value inside
    cases inside
  · intro serial low high
    exact absurd (Nat.le_trans low high) (Nat.not_succ_le_zero 0)
  · intro batch remaining outcomes thread
    cases thread

theorem accounted_handed {registered queue : List (MutationRequest ω)} {thread : Option (WriterPhase ω β)} {waiting : List Nat}
    (kept : Accounted state)
    (handed : (registered ++ (queue ++ inFlight thread)).Perm (heldRequests state))
    (outstanding : (registered ++ (queue ++ unstarted thread)).Perm (unexecutedRequests state))
    (resolved : Resolved { state with thread := thread })
    (served : queue ≠ [] → thread ≠ none) :
    Accounted { state with registered := registered, queue := queue, thread := thread, waiting := waiting } := by
  refine ⟨⟨kept.watermark.sorted, kept.watermark.covered, kept.watermark.bounded, kept.watermark.reached,
    kept.watermark.below, kept.watermark.exact⟩, ?_, ?_, kept.once, ?_, kept.settledOnce, kept.known, kept.truthful,
    kept.answered, resolved, served⟩
  · exact (handed.map MutationRequest.serial).nodup_iff.mpr kept.distinct
  · intro serial
    rw [kept.held serial]
    exact (handed.map MutationRequest.serial).mem_iff.symm
  · intro serial
    rw [kept.executed serial]
    exact and_congr Iff.rfl (not_congr (outstanding.map MutationRequest.serial).mem_iff.symm)

theorem settled_monotone {serial other : Nat} {settlement : Settlement β} (before : isSettled state other = true) :
    isSettled (settle state serial settlement) other = true := by
  unfold settle
  split
  · exact before
  · simp only [isSettled, decide_eq_true_eq, List.map_append, List.mem_append] at before ⊢
    exact .inl before

theorem settle_settles (state : WriterState ω β) (serial : Nat) (settlement : Settlement β) :
    isSettled (settle state serial settlement) serial = true := by
  unfold settle
  split
  · rename_i already
    exact already
  · simp [isSettled]

theorem settle_shape (state : WriterState ω β) (serial : Nat) (settlement : Settlement β) :
    ∃ more, settle state serial settlement = { state with settled := state.settled ++ more } := by
  unfold settle
  split
  · exact ⟨[], by rw [List.append_nil]⟩
  · exact ⟨_, rfl⟩

theorem settle_accounted {serial : Nat} {settlement : Settlement β} (kept : Accounted state)
    (real : 1 ≤ serial ∧ serial ≤ state.serial)
    (honest : ∀ value, settlement = .result value → (serial, value) ∈ state.executed) :
    Accounted (settle state serial settlement) := by
  have monotone : ∀ other, isSettled state other = true → isSettled (settle state serial settlement) other = true :=
    fun other before => settled_monotone before
  unfold settle at monotone ⊢
  split
  · exact kept
  · rename_i open_future
    rw [if_neg open_future] at monotone
    have fresh : serial ∉ state.settled.map Prod.fst := by simpa [isSettled] using open_future
    refine ⟨⟨kept.watermark.sorted, kept.watermark.covered, kept.watermark.bounded, kept.watermark.reached,
      kept.watermark.below, kept.watermark.exact⟩, kept.distinct, kept.held, kept.once, kept.executed, ?_, ?_, ?_, ?_, ?_,
      kept.served⟩
    · simp only [List.map_append, List.map_cons, List.map_nil]
      rw [List.nodup_append]
      refine ⟨kept.settledOnce, by simp, fun other inside last same => ?_⟩
      rw [List.mem_singleton.mp same]
      rintro rfl
      exact fresh inside
    · intro other inside
      simp only [List.map_append, List.mem_append, List.map_cons, List.map_nil, List.mem_singleton] at inside
      rcases inside with old | rfl
      · exact kept.known other old
      · exact real
    · intro other value inside
      simp only [List.mem_append, List.mem_singleton, Prod.mk.injEq] at inside
      rcases inside with old | ⟨rfl, given⟩
      · exact kept.truthful other value old
      · exact honest value given.symm
    · intro other low high gone
      exact monotone other (kept.answered other low high gone)
    · intro batch remaining outcomes thread
      obtain ⟨⟨answered, split, all⟩, run⟩ := kept.resolved batch remaining outcomes thread
      exact ⟨⟨answered, split, fun request inside => monotone _ (all request inside)⟩, run⟩

theorem registered_perm {requests : List (MutationRequest ω)} {serial : Nat} {request : MutationRequest ω}
    (distinct : (requests.map MutationRequest.serial).Nodup)
    (found : requests.find? (fun request => decide (request.serial = serial)) = some request) :
    requests.Perm (request :: requests.filter fun other => other.serial ≠ request.serial) := by
  induction requests with
  | nil => cases found
  | cons first rest ih =>
      obtain ⟨fresh, later⟩ := List.nodup_cons.mp distinct
      by_cases here : first.serial = serial
      · rw [List.find?_cons_of_pos (by simpa using here)] at found
        cases found
        have others : (rest.filter fun other => decide (other.serial ≠ request.serial)) = rest := by
          refine List.filter_eq_self.mpr fun other inside => ?_
          refine decide_eq_true fun same => fresh ?_
          rw [← same]
          exact List.mem_map_of_mem inside
        rw [List.filter_cons_of_neg (by simp), others]
      · rw [List.find?_cons_of_neg (by simpa using here)] at found
        have same : request.serial = serial := by simpa using List.find?_some found
        rw [List.filter_cons_of_pos (by simpa [same] using here)]
        exact ((ih later found).cons first).trans (.swap _ _ _)

theorem unstarted_getD (thread : Option (WriterPhase ω β)) :
    inFlight (some (thread.getD .polling)) = inFlight thread ∧ unstarted (some (thread.getD .polling)) = unstarted thread := by
  cases thread with
  | none => exact ⟨rfl, rfl⟩
  | some phase => exact ⟨rfl, rfl⟩

theorem moved_perm {registered others queue flying : List (MutationRequest ω)} {request : MutationRequest ω}
    (taken : registered.Perm (request :: others)) :
    (others ++ (queue.orderedInsert MicroWorkflow.served request ++ flying)).Perm (registered ++ (queue ++ flying)) := by
  have inserted : (queue.orderedInsert MicroWorkflow.served request ++ flying).Perm (request :: (queue ++ flying)) :=
    (List.perm_orderedInsert _ _ _).append_right _
  have front : (others ++ request :: (queue ++ flying)).Perm (request :: others ++ (queue ++ flying)) := List.perm_middle
  exact (inserted.append_left others).trans (front.trans (taken.symm.append_right _))

theorem new_request_accounted (kept : Accounted state) (priority : Int) (weight : Nat) (work : ω) :
    Accounted (newRequest state priority weight work) := by
  have above : ∀ serial ∈ (heldRequests state).map MutationRequest.serial, serial ≤ state.serial := fun serial inside =>
    (kept.watermark.bounded serial ((kept.held serial).mpr inside)).2
  refine ⟨new_request_watermark kept.watermark priority weight work, ?_, ?_, kept.once, ?_, kept.settledOnce, ?_,
    kept.truthful, ?_, kept.resolved, kept.served⟩
  · refine List.nodup_cons.mpr ⟨fun inside => ?_, kept.distinct⟩
    exact absurd (above _ inside) (Nat.not_succ_le_self _)
  · intro serial
    show serial ∈ (state.serial + 1) :: state.pendingSerials ↔
      serial ∈ (state.serial + 1) :: (heldRequests state).map MutationRequest.serial
    rw [List.mem_cons, List.mem_cons, kept.held serial]
  · intro serial
    show serial ∈ state.executed.map Prod.fst ↔ (1 ≤ serial ∧ serial ≤ state.serial + 1) ∧
      serial ∉ (state.serial + 1) :: (unexecutedRequests state).map MutationRequest.serial
    rw [kept.executed serial, List.mem_cons, not_or]
    constructor
    · rintro ⟨⟨low, high⟩, done⟩
      exact ⟨⟨low, Nat.le_succ_of_le high⟩, by omega, done⟩
    · rintro ⟨⟨low, high⟩, other, done⟩
      exact ⟨⟨low, by omega⟩, done⟩
  · intro serial inside
    obtain ⟨low, high⟩ := kept.known serial inside
    exact ⟨low, Nat.le_succ_of_le high⟩
  · intro serial low high gone
    obtain ⟨other, before⟩ := not_or.mp (mt List.mem_cons.mpr gone)
    refine kept.answered serial low ?_ before
    change serial ≤ state.serial + 1 at high
    omega

theorem execute_batch_accounted {batch : List (MutationRequest ω)} (kept : Accounted state)
    (closed : state.thread = some (.closed batch)) (outcomes : Nat → β) :
    Accounted { state with
      executed := state.executed ++ executedBatch batch outcomes
      thread := some (.resolving batch batch outcomes) } := by
  have serials : (executedBatch batch outcomes).map Prod.fst = batch.map MutationRequest.serial := by
    rw [executedBatch, List.map_map]
    rfl
  have before : unexecutedRequests state = state.registered ++ (state.queue ++ batch) := by
    rw [unexecutedRequests, closed]
    rfl
  have holders : heldRequests state = state.registered ++ (state.queue ++ batch) := by
    rw [heldRequests, closed]
    rfl
  have real : ∀ request ∈ batch, 1 ≤ request.serial ∧ request.serial ≤ state.serial := by
    intro request inside
    refine kept.watermark.bounded _ ((kept.held _).mpr ?_)
    rw [holders]
    exact List.mem_map_of_mem (List.mem_append_right _ (List.mem_append_right _ inside))
  have apart := kept.distinct
  rw [holders, ← List.append_assoc, List.map_append, List.nodup_append] at apart
  refine ⟨⟨kept.watermark.sorted, kept.watermark.covered, kept.watermark.bounded, kept.watermark.reached,
    kept.watermark.below, kept.watermark.exact⟩, ?_, ?_, ?_, ?_, kept.settledOnce, kept.known, ?_, kept.answered, ?_,
    fun _ => nofun⟩
  · have same := kept.distinct
    rw [holders] at same
    exact same
  · intro serial
    rw [kept.held serial, holders]
    rfl
  · rw [List.map_append, serials, List.nodup_append]
    refine ⟨kept.once, apart.2.1, ?_⟩
    rintro serial ran _ inside rfl
    refine ((kept.executed serial).mp ran).2 ?_
    rw [before, ← List.append_assoc, List.map_append]
    exact List.mem_append_right _ inside
  · intro serial
    rw [List.map_append, List.mem_append, serials, kept.executed serial, before]
    have after : unexecutedRequests { state with
        executed := state.executed ++ executedBatch batch outcomes
        thread := some (.resolving batch batch outcomes) } = state.registered ++ (state.queue ++ []) := rfl
    rw [after, List.append_nil, ← List.append_assoc, List.map_append, List.mem_append, not_or]
    constructor
    · rintro (⟨bounds, out, _⟩ | inside)
      · exact ⟨bounds, out⟩
      · obtain ⟨request, member, rfl⟩ := List.mem_map.mp inside
        exact ⟨real request member, fun other => apart.2.2 _ other _ inside rfl⟩
    · rintro ⟨bounds, out⟩
      by_cases inside : serial ∈ batch.map MutationRequest.serial
      · exact .inr inside
      · exact .inl ⟨bounds, out, inside⟩
  · intro serial value given
    exact List.mem_append_left _ (kept.truthful serial value given)
  · intro batch' remaining outcomes' thread
    cases thread
    refine ⟨⟨[], rfl, fun request inside => by cases inside⟩, fun request inside => List.mem_append_right _ ?_⟩
    exact List.mem_map_of_mem inside

theorem resolve_accounted {batch remaining : List (MutationRequest ω)} {request : MutationRequest ω} {outcomes : Nat → β}
    (kept : Accounted state) (resolving : state.thread = some (.resolving batch (request :: remaining) outcomes)) :
    Accounted { settle state request.serial (.result (outcomes request.serial)) with
      thread := some (.resolving batch remaining outcomes) } := by
  obtain ⟨⟨answered, split, all⟩, run⟩ := kept.resolved batch (request :: remaining) outcomes resolving
  have inside : request ∈ batch := by
    rw [split]
    exact List.mem_append_right _ List.mem_cons_self
  have executed := run request inside
  have real := ((kept.executed request.serial).mp (List.mem_map_of_mem executed)).1
  have settled : Accounted (settle state request.serial (.result (outcomes request.serial))) :=
    settle_accounted kept real fun value given => by
      cases given
      exact executed
  obtain ⟨more, shape⟩ := settle_shape state request.serial (.result (outcomes request.serial))
  have now := settle_settles state request.serial (.result (outcomes request.serial))
  have before : ∀ other ∈ answered, isSettled
    (settle state request.serial (.result (outcomes request.serial))) other.serial = true :=
    fun other member => settled_monotone (all other member)
  rw [shape] at settled now before ⊢
  refine accounted_handed settled ?_ ?_ ?_ fun _ => nofun
  · rw [heldRequests]
    simp only [resolving, inFlight]
    exact .refl _
  · rw [unexecutedRequests]
    simp only [resolving, unstarted]
    exact .refl _
  · intro batch' remaining' outcomes' thread
    cases thread
    refine ⟨⟨answered ++ [request], by rw [split, List.append_assoc]; rfl, ?_⟩, run⟩
    intro other member
    rcases List.mem_append.mp member with old | last
    · exact before other old
    · rw [List.mem_singleton.mp last]
      exact now

theorem record_completed_accounted {batch : List (MutationRequest ω)} {outcomes : Nat → β} (kept : Accounted state)
    (resolving : state.thread = some (.resolving batch [] outcomes)) :
    Accounted { recordCompleted state batch with thread := some .recorded } := by
  obtain ⟨⟨answered, split, all⟩, _⟩ := kept.resolved batch [] outcomes resolving
  rw [List.append_nil] at split
  subst split
  have watermark := (record_completed_watermark kept.watermark batch).1
  have holders : heldRequests state = (state.registered ++ state.queue) ++ batch := by
    rw [heldRequests, resolving, List.append_assoc]
    rfl
  have apart := kept.distinct
  rw [holders, List.map_append, List.nodup_append] at apart
  have pending : ∀ serial, serial ∈ (recordCompleted state batch).pendingSerials ↔
      serial ∈ state.pendingSerials ∧ serial ∉ batch.map MutationRequest.serial := by
    intro serial
    simp only [recordCompleted, List.mem_filter, decide_eq_true_eq]
  refine ⟨⟨watermark.sorted, watermark.covered, watermark.bounded, watermark.reached, watermark.below, watermark.exact⟩,
    ?_, ?_, kept.once, ?_, kept.settledOnce, kept.known, kept.truthful, ?_, ?_, fun _ => (by simp)⟩
  · show ((state.registered ++ (state.queue ++ [])).map MutationRequest.serial).Nodup
    rw [List.append_nil]
    exact apart.1
  · intro serial
    show serial ∈ (recordCompleted state batch).pendingSerials ↔
      serial ∈ (state.registered ++ (state.queue ++ [])).map MutationRequest.serial
    rw [pending serial, kept.held serial, holders, List.append_nil, List.map_append, List.mem_append]
    constructor
    · rintro ⟨held | inside, out⟩
      · exact held
      · exact absurd inside out
    · intro held
      exact ⟨.inl held, fun inside => apart.2.2 _ held _ inside rfl⟩
  · intro serial
    have before := kept.executed serial
    rw [unexecutedRequests, resolving] at before
    exact before
  · intro serial low high gone
    by_cases inside : serial ∈ batch.map MutationRequest.serial
    · obtain ⟨request, member, rfl⟩ := List.mem_map.mp inside
      exact all request member
    · exact kept.answered serial low high fun waits => gone ((pending serial).mpr ⟨waits, inside⟩)
  · intro batch' remaining outcomes' thread
    cases thread

theorem accounted_moved {queue : List (MutationRequest ω)} {thread : Option (WriterPhase ω β)} (kept : Accounted state)
    (idle : unstarted state.thread = inFlight state.thread) (quiet : unstarted thread = inFlight thread)
    (other : ∀ batch remaining outcomes, thread ≠ some (.resolving batch remaining outcomes))
    (moved : (queue ++ inFlight thread).Perm (state.queue ++ inFlight state.thread))
    (served : queue ≠ [] → thread ≠ none) : Accounted { state with queue := queue, thread := thread } := by
  refine accounted_handed kept (moved.append_left _) ?_ ?_ served
  · rw [quiet, unexecutedRequests, idle]
    exact moved.append_left _
  · intro batch remaining outcomes resolving
    exact absurd resolving (other batch remaining outcomes)

theorem accounted_left (kept : Accounted state) (idle : unstarted state.thread = []) (flying : inFlight state.thread = []) :
    Accounted { state with thread := if state.queue.isEmpty then none else some .polling } := by
  cases empty : state.queue with
  | nil =>
      refine accounted_moved kept (idle.trans flying.symm) rfl (fun _ _ _ => nofun) ?_ fun waits => absurd rfl waits
      rw [empty, flying]
      exact .refl _
  | cons first rest =>
      refine accounted_moved kept (idle.trans flying.symm) rfl (fun _ _ _ => nofun) ?_ fun _ => nofun
      rw [empty, flying]
      exact .refl _

theorem enqueue_accounted {serial : Nat} {request : MutationRequest ω} (kept : Accounted state)
    (found : state.registered.find? (fun request => decide (request.serial = serial)) = some request) :
    Accounted (enqueue state request) := by
  have distinct := kept.distinct
  rw [heldRequests, List.map_append, List.nodup_append] at distinct
  have taken := registered_perm distinct.1 found
  obtain ⟨flying, unrun⟩ := unstarted_getD state.thread
  refine accounted_handed kept ?_ ?_ ?_ fun _ => nofun
  · rw [flying]
    exact moved_perm taken
  · rw [unrun]
    exact moved_perm taken
  · intro batch remaining outcomes resolving
    cases shape : state.thread with
    | none =>
        rw [shape] at resolving
        cases resolving
    | some phase =>
        rw [shape] at resolving
        exact kept.resolved batch remaining outcomes (shape.trans resolving)

theorem get_candidate_accounted {batch rest : List (MutationRequest ω)} {candidate : MutationRequest ω} {priority : Int}
    (kept : Accounted state) (collecting : state.thread = some (.collecting batch)) (queued : state.queue = candidate :: rest) :
    Accounted (takeCandidate config state batch priority candidate rest) := by
  unfold takeCandidate
  split
  · refine accounted_moved kept (by rw [collecting]; rfl) rfl (fun _ _ _ => nofun) ?_ fun _ => nofun
    rw [collecting, queued]
    exact List.perm_middle
  · refine accounted_moved kept (by rw [collecting]; rfl) rfl (fun _ _ _ => nofun) ?_ fun _ => nofun
    rw [collecting, queued]
    show (rest ++ (batch ++ [candidate])).Perm (candidate :: (rest ++ batch))
    rw [← List.append_assoc]
    exact List.perm_append_comm

inductive WriterMove (config : WriterConfig) (state : WriterState ω β) : WriterLabel ω β → WriterState ω β → Prop where
  | newRequest {priority : Int} {weight : Nat} {work : ω} :
      WriterMove config state (.newRequest priority weight work) (newRequest state priority weight work)
  | enqueue {serial : Nat} {request : MutationRequest ω}
      (found : state.registered.find? (fun request => decide (request.serial = serial)) = some request) :
      WriterMove config state (.enqueue serial) (enqueue state request)
  | cancel {serial : Nat} (real : 1 ≤ serial ∧ serial ≤ state.serial) :
      WriterMove config state (.cancel serial) (settle state serial .cancelled)
  | getFirst {first : MutationRequest ω} {rest : List (MutationRequest ω)} (polling : state.thread = some .polling)
      (queued : state.queue = first :: rest) :
      WriterMove config state .getFirst { state with queue := rest, thread := some (.collecting [first]) }
  | getCandidate {first candidate : MutationRequest ω} {others rest : List (MutationRequest ω)}
      (collecting : state.thread = some (.collecting (first :: others))) (queued : state.queue = candidate :: rest) :
      WriterMove config state .getCandidate (takeCandidate config state (first :: others) first.priority candidate rest)
  | putBack {batch : List (MutationRequest ω)} {candidate : MutationRequest ω}
      (holding : state.thread = some (.holding batch candidate)) : WriterMove config state .putBack
        { state with queue := state.queue.orderedInsert served candidate, thread := some (.closed batch) }
  | closeBatch {batch : List (MutationRequest ω)} (collecting : state.thread = some (.collecting batch)) :
      WriterMove config state .closeBatch { state with thread := some (.closed batch) }
  | executeBatch {batch : List (MutationRequest ω)} {outcomes : Nat → β} (closed : state.thread = some (.closed batch)) :
      WriterMove config state (.executeBatch outcomes) { state with
        executed := state.executed ++ executedBatch batch outcomes
        thread := some (.resolving batch batch outcomes) }
  | resolve {batch remaining : List (MutationRequest ω)} {request : MutationRequest ω} {outcomes : Nat → β}
      (resolving : state.thread = some (.resolving batch (request :: remaining) outcomes)) :
      WriterMove config state .resolve { settle state request.serial (.result (outcomes request.serial)) with
        thread := some (.resolving batch remaining outcomes) }
  | recordCompleted {batch : List (MutationRequest ω)} {outcomes : Nat → β}
      (resolving : state.thread = some (.resolving batch [] outcomes)) :
      WriterMove config state .recordCompleted { recordCompleted state batch with thread := some .recorded }
  | finishLoop (recorded : state.thread = some .recorded) : WriterMove config state .finishLoop
      { state with thread := if state.queue.isEmpty then none else some .polling }
  | timeOut (polling : state.thread = some .polling) (empty : state.queue.isEmpty = true) :
      WriterMove config state .timeOut { state with thread := some .retiring }
  | retire (retiring : state.thread = some .retiring) : WriterMove config state .retire
      { state with thread := if state.queue.isEmpty then none else some .polling }
  | barrier {serial : Option Nat} :
      WriterMove config state (.barrier serial) { state with waiting := barrierTarget state serial :: state.waiting }
  | wake {target : Nat} (ready : target ∈ state.waiting ∧ target ≤ state.completedThrough) :
      WriterMove config state (.wake target) { state with waiting := state.waiting.erase target }

theorem writer_step_move {label : WriterLabel ω β} (step : WriterStep config state label next) :
    WriterMove config state label next := by
  unfold WriterStep at step
  cases label with
  | newRequest priority weight work =>
      obtain ⟨_, ⟨⟩⟩ := Option.ite_none_right_eq_some.mp step
      exact .newRequest
  | enqueue serial =>
      obtain ⟨request, found, rfl⟩ := Option.map_eq_some_iff.mp step
      exact .enqueue found
  | cancel serial =>
      obtain ⟨real, ⟨⟩⟩ := Option.ite_none_right_eq_some.mp step
      exact .cancel real
  | barrier serial =>
      cases step
      exact .barrier
  | wake target =>
      obtain ⟨ready, ⟨⟩⟩ := Option.ite_none_right_eq_some.mp step
      exact .wake ready
  | _ =>
      rw [writerStep] at step
      split at step
      · first
        | (cases step; constructor <;> assumption)
        | (obtain ⟨_, ⟨⟩⟩ := Option.ite_none_right_eq_some.mp step; constructor <;> assumption)
      · cases step

theorem accounted_step {label : WriterLabel ω β} (kept : Accounted state) (step : WriterStep config state label next) :
    Accounted next := by
  cases writer_step_move step with
  | @newRequest priority weight work => exact new_request_accounted kept priority weight work
  | enqueue found => exact enqueue_accounted kept found
  | cancel real => exact settle_accounted kept real fun value given => by cases given
  | @getFirst first rest polling queued =>
      refine accounted_moved kept (by rw [polling]; rfl) rfl (fun _ _ _ => nofun) ?_ fun _ => nofun
      rw [polling, queued]
      show (rest ++ [first]).Perm (first :: rest ++ [])
      rw [List.append_nil]
      exact List.perm_append_comm
  | getCandidate collecting queued => exact get_candidate_accounted kept collecting queued
  | putBack holding =>
      refine accounted_moved kept (by rw [holding]; rfl) rfl (fun _ _ _ => nofun) ?_ fun _ => nofun
      rw [holding]
      exact ((List.perm_orderedInsert _ _ _).append_right _).trans List.perm_middle.symm
  | closeBatch collecting =>
      refine accounted_moved kept (by rw [collecting]; rfl) rfl (fun _ _ _ => nofun) ?_ fun _ => nofun
      rw [collecting]
      exact .refl _
  | @executeBatch batch outcomes closed => exact execute_batch_accounted kept closed outcomes
  | resolve resolving => exact resolve_accounted kept resolving
  | recordCompleted resolving => exact record_completed_accounted kept resolving
  | finishLoop recorded => exact accounted_left kept (by rw [recorded]; rfl) (by rw [recorded]; rfl)
  | timeOut polling =>
      refine accounted_moved kept (by rw [polling]; rfl) rfl (fun _ _ _ => nofun) ?_ fun _ => nofun
      rw [polling]
      exact .refl _
  | retire retiring => exact accounted_left kept (by rw [retiring]; rfl) (by rw [retiring]; rfl)
  | barrier => exact accounted_handed kept (.refl _) (.refl _) kept.resolved kept.served
  | wake => exact accounted_handed kept (.refl _) (.refl _) kept.resolved kept.served

theorem accounted_run {labels : List (WriterLabel ω β)} (run : Run (WriterStep config) .initial labels state) :
    Accounted state :=
  run.invariant accounted_initial accounted_step

theorem step_progress {label : WriterLabel ω β} (kept : Accounted state) (step : WriterStep config state label next) :
    state.completedThrough ≤ next.completedThrough ∧ state.settled <+: next.settled ∧ state.executed <+: next.executed := by
  have settles : ∀ serial settlement, state.completedThrough ≤ (settle state serial settlement).completedThrough ∧
      state.settled <+: (settle state serial settlement).settled ∧
      state.executed <+: (settle state serial settlement).executed := by
    intro serial settlement
    obtain ⟨more, shape⟩ := settle_shape state serial settlement
    rw [shape]
    exact ⟨Nat.le_refl _, List.prefix_append _ _, List.prefix_rfl⟩
  cases writer_step_move step with
  | cancel => exact settles _ _
  | resolve => exact settles _ _
  | executeBatch => exact ⟨Nat.le_refl _, List.prefix_rfl, List.prefix_append _ _⟩
  | recordCompleted => exact ⟨(record_completed_watermark kept.watermark _).2, List.prefix_rfl, List.prefix_rfl⟩
  | getCandidate =>
      rw [takeCandidate]
      split <;> exact ⟨Nat.le_refl _, List.prefix_rfl, List.prefix_rfl⟩
  | _ => exact ⟨Nat.le_refl _, List.prefix_rfl, List.prefix_rfl⟩

def Completed (state : WriterState ω β) (serial : Nat) : Prop :=
  serial ≤ state.serial ∧ serial ∉ state.pendingSerials ∧ serial ∈ state.executed.map Prod.fst ∧
    isSettled state serial = true

theorem completed_of_done {serial : Nat} (kept : Accounted state) (low : 1 ≤ serial) (high : serial ≤ state.serial)
    (done : serial ∉ state.pendingSerials) : Completed state serial := by
  refine ⟨high, done, (kept.executed serial).mpr ⟨⟨low, high⟩, fun inside => ?_⟩, kept.answered serial low high done⟩
  exact done ((kept.held serial).mpr (unstarted_subset state inside))

theorem barrier_completed {target : Nat} (kept : Accounted state) (step : WriterStep config state (.wake target) next)
    {serial : Nat} (low : 1 ≤ serial) (within : serial ≤ target) : Completed state serial := by
  cases writer_step_move step with
  | wake ready =>
      have reached : serial ≤ state.completedThrough := Nat.le_trans within ready.2
      refine completed_of_done kept low (Nat.le_trans reached kept.watermark.reached) fun waits => ?_
      exact absurd (kept.watermark.below serial waits) (Nat.not_lt_of_le reached)

theorem barrier_released {target : Nat} (kept : Accounted state) (waiting : target ∈ state.waiting)
    (known : target ≤ state.serial) (done : ∀ serial, 1 ≤ serial → serial ≤ target → serial ∉ state.pendingSerials) :
    ∃ next, WriterStep config state (.wake target) next := by
  have reached : target ≤ state.completedThrough := by
    refine kept.watermark.exact target known fun pending waits => Nat.lt_of_not_le fun low => ?_
    exact done pending (kept.watermark.bounded pending waits).1 low waits
  exact ⟨_, if_pos ⟨waiting, reached⟩⟩

section Progress

def WriterLabel.ofWriter : WriterLabel ω β → Prop
  | .getFirst | .getCandidate | .putBack | .closeBatch | .executeBatch _ | .resolve | .recordCompleted
  | .finishLoop | .timeOut | .retire => True
  | .newRequest _ _ _ | .enqueue _ | .cancel _ | .barrier _ | .wake _ => False

def phaseWork (queue : List (MutationRequest ω)) : Option (WriterPhase ω β) → Nat
  | none => 0
  | some .polling => 2
  | some .retiring => if queue.isEmpty then 1 else 3
  | some (.collecting batch) => 6 * batch.length + 7
  | some (.holding batch _) => 6 * batch.length + 18
  | some (.closed batch) => 6 * batch.length + 5
  | some (.resolving _ remaining _) => remaining.length + 4
  | some .recorded => 3

def workLeft (state : WriterState ω β) : Nat := 12 * state.queue.length + phaseWork state.queue state.thread

theorem work_used {label : WriterLabel ω β} (own : label.ofWriter) (step : WriterStep config state label next) :
    workLeft next < workLeft state := by
  cases writer_step_move step with
  | newRequest | enqueue | cancel | barrier | wake => cases own
  | getFirst polling queued =>
      simp only [workLeft, polling, queued, phaseWork, List.length_cons, List.length_nil]
      omega
  | getCandidate collecting queued =>
      rw [takeCandidate]
      split
      · simp only [workLeft, collecting, queued, phaseWork, List.length_cons]
        omega
      · simp only [workLeft, collecting, queued, phaseWork, List.length_cons, List.length_append, List.length_nil]
        omega
  | putBack holding =>
      simp only [workLeft, holding, phaseWork, List.orderedInsert_length]
      omega
  | closeBatch collecting =>
      simp only [workLeft, collecting, phaseWork]
      omega
  | executeBatch closed =>
      simp only [workLeft, closed, phaseWork]
      omega
  | @resolve batch remaining request outcomes resolving =>
      obtain ⟨more, shape⟩ := settle_shape state request.serial (.result (outcomes request.serial))
      simp only [workLeft, shape, resolving, phaseWork, List.length_cons]
      omega
  | recordCompleted resolving =>
      simp only [workLeft, recordCompleted, resolving, phaseWork, List.length_nil]
      omega
  | finishLoop recorded =>
      cases empty : state.queue.isEmpty with
      | true => simp [workLeft, recorded, phaseWork]
      | false => simp [workLeft, recorded, phaseWork]
  | timeOut polling empty =>
      simp only [workLeft, polling, phaseWork, empty, if_true]
      omega
  | retire retiring =>
      cases empty : state.queue.isEmpty with
      | true => simp [workLeft, retiring, phaseWork, empty]
      | false => simp [workLeft, retiring, phaseWork, empty]

theorem writer_enabled [Inhabited β] (config : WriterConfig) {phase : WriterPhase ω β} (alive : state.thread = some phase) :
    ∃ label, label.ofWriter ∧ ∃ next, WriterStep config state label next := by
  unfold WriterStep
  cases phase with
  | polling =>
      cases queued : state.queue with
      | nil => exact ⟨.timeOut, trivial, _, by simp only [writerStep, alive, queued, List.isEmpty_nil, if_true]; rfl⟩
      | cons first rest => exact ⟨.getFirst, trivial, _, by simp only [writerStep, alive, queued]; rfl⟩
  | retiring => exact ⟨.retire, trivial, _, by simp only [writerStep, alive]; rfl⟩
  | collecting batch => exact ⟨.closeBatch, trivial, _, by simp only [writerStep, alive]; rfl⟩
  | holding batch candidate => exact ⟨.putBack, trivial, _, by simp only [writerStep, alive]; rfl⟩
  | closed batch => exact ⟨.executeBatch default, trivial, _, by simp only [writerStep, alive]; rfl⟩
  | resolving batch remaining outcomes =>
      cases remaining with
      | nil => exact ⟨.recordCompleted, trivial, _, by simp only [writerStep, alive]; rfl⟩
      | cons request remaining => exact ⟨.resolve, trivial, _, by simp only [writerStep, alive]; rfl⟩
  | recorded => exact ⟨.finishLoop, trivial, _, by simp only [writerStep, alive]; rfl⟩

theorem stuck_served [Inhabited β] (kept : Accounted state)
    (stuck : ∀ label next, label.ofWriter → ¬WriterStep config state label next) {serial : Nat} (low : 1 ≤ serial)
    (high : serial ≤ state.serial) (queued : serial ∉ state.registered.map MutationRequest.serial) :
    Completed state serial := by
  have idle : state.thread = none := by
    cases alive : state.thread with
    | none => rfl
    | some phase =>
        obtain ⟨label, own, next, step⟩ := writer_enabled config alive
        exact absurd step (stuck label next own)
  have empty : state.queue = [] := by
    cases shape : state.queue with
    | nil => rfl
    | cons first rest => exact absurd idle (kept.served (by rw [shape]; nofun))
  refine completed_of_done kept low high fun waits => queued ?_
  have inside := (kept.held serial).mp waits
  rw [heldRequests, idle, empty] at inside
  simpa [inFlight] using inside

end Progress

-- In every run of the writer each request is run once and answered once, the watermark only rises and stays
-- below every pending request, a barrier returns only behind it, and the writer thread always works its
-- queue off.
theorem mutation_writer_barrier [Inhabited β] {labels : List (WriterLabel ω β)}
    (run : Run (WriterStep config) .initial labels state) :
    ((state.settled.map Prod.fst).Nodup ∧ (state.executed.map Prod.fst).Nodup ∧
      ∀ serial value, (serial, Settlement.result value) ∈ state.settled → (serial, value) ∈ state.executed) ∧
    (∀ pending ∈ state.pendingSerials, state.completedThrough < pending) ∧
    (∀ label next, WriterStep config state label next →
      state.completedThrough ≤ next.completedThrough ∧ state.settled <+: next.settled ∧ state.executed <+: next.executed) ∧
    (∀ target next, WriterStep config state (.wake target) next →
      ∀ serial, 1 ≤ serial → serial ≤ target → Completed state serial) ∧
    (∀ target ∈ state.waiting, target ≤ state.serial →
      (∀ serial, 1 ≤ serial → serial ≤ target → serial ∉ state.pendingSerials) →
      ∃ next, WriterStep config state (.wake target) next) ∧
    ∀ more later, Run (WriterStep config) state more later → (∀ label ∈ more, label.ofWriter) →
      more.length ≤ workLeft state ∧
        ((∀ label next, label.ofWriter → ¬WriterStep config later label next) →
          ∀ serial, 1 ≤ serial → serial ≤ later.serial → serial ∉ later.registered.map MutationRequest.serial →
            Completed later serial) := by
  have kept := accounted_run run
  refine ⟨⟨kept.settledOnce, kept.once, kept.truthful⟩, kept.watermark.below, fun label next step => step_progress kept step,
    fun target next step serial low within => barrier_completed kept step low within,
    fun target waiting known done => barrier_released kept waiting known done, ?_⟩
  intro more later follows own
  have reached : Accounted later := follows.invariant kept accounted_step
  have spent : workLeft later + more.length ≤ workLeft state :=
    follows.bounded own kept (fun kept _ step => accounted_step kept step) fun _ own step => work_used own step
  exact ⟨Nat.le_trans (Nat.le_add_left _ _) spent, fun stuck serial low high queued => stuck_served reached stuck low high queued⟩

def overtakenLabels : List (WriterLabel Unit Unit) :=
  [.newRequest 10 1 (), .newRequest 5 1 (), .enqueue 1, .enqueue 2, .barrier (some 2), .getFirst, .getCandidate, .putBack,
    .executeBatch fun _ => (), .resolve, .recordCompleted, .finishLoop, .getFirst, .closeBatch, .executeBatch fun _ => (),
    .resolve, .recordCompleted]

def overtakenState : WriterState Unit Unit where
  serial := 2
  pendingSerials := []
  pendingSerialHeap := []
  completedThrough := 2
  registered := []
  queue := []
  thread := some .recorded
  executed := [(2, ()), (1, ())]
  settled := [(2, .result ()), (1, .result ())]
  waiting := [2]

set_option maxRecDepth 8000 in
-- The second request overtakes the first; the barrier on both waits for the first.
theorem mutation_writer_barrier_overtaken :
    Completed overtakenState 1 ∧ Completed overtakenState 2 := by
  have run : Run (WriterStep ⟨1024, 192⟩) .initial overtakenLabels overtakenState := Run.of_fold rfl
  obtain ⟨_, _, _, woken, _⟩ := mutation_writer_barrier run
  have wake : WriterStep ⟨1024, 192⟩ overtakenState (.wake 2) { overtakenState with waiting := [] } := rfl
  exact ⟨woken 2 _ wake 1 (by decide) (by decide), woken 2 _ wake 2 (by decide) (by decide)⟩

end MicroWorkflow
