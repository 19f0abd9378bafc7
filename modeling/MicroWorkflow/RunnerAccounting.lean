import MicroWorkflow.ThreadedRunner

set_option autoImplicit false

namespace MicroWorkflow

open Lib (Threads Run)
open Lib.Threads (held)

variable {ι ρ ε : Type} {config : RunnerConfig} {items : List ι} {state next : RunnerState ι ρ ε} {id : Nat}
  {phase moved : WorkerPhase ι ρ ε}

namespace WorkerPhase

def batch : WorkerPhase ι ρ ε → List ι
  | .loaded batch => batch
  | _ => []

def called : WorkerPhase ι ρ ε → List Nat
  | .running index _ => [index]
  | _ => []

def answer : WorkerPhase ι ρ ε → List (Nat × ρ)
  | .finished index value => [(index, value)]
  | _ => []

def failure : WorkerPhase ι ρ ε → List ε
  | .loadFailed error => [error]
  | .failing error => [error]
  | _ => []

def loads : WorkerPhase ι ρ ε → List Unit
  | .loading => [()]
  | .loaded _ => [()]
  | .loadFailed _ => [()]
  | _ => []

def drained : WorkerPhase ι ρ ε → List Unit
  | .loaded [] => [()]
  | _ => []

theorem batch_of_idle (idle : phase.loads = []) : phase.batch = [] := by
  cases phase with
  | loaded _ => cases idle
  | _ => rfl

theorem drained_of_idle (idle : phase.loads = []) : phase.drained = [] := by
  cases phase with
  | loaded _ => cases idle
  | _ => rfl

structure Alike (left right : WorkerPhase ι ρ ε) : Prop where
  batch : left.batch = right.batch
  called : left.called = right.called
  answer : left.answer = right.answer
  failure : left.failure = right.failure
  loads : left.loads = right.loads
  drained : left.drained = right.drained

end WorkerPhase

-- The items are split between the calls, the buffer, the loader and the source; the calls between the
-- workers, the answers and the errors; and the end of the source is seen only when nothing is left of it.
structure ItemsAccounted (items : List ι) (state : RunnerState ι ρ ε) : Prop where
  distinct : state.workers.ids.Nodup
  fresh : ∀ id ∈ state.workers.ids, id < state.nextWorkerId
  whole : state.passed.map Prod.snd ++ (state.sourceBuffer ++ (held WorkerPhase.batch state.workers ++ state.source)) = items
  numbered : state.passed.map Prod.fst = List.range state.nextItemIndex
  called : (state.passed.map Prod.fst).Perm
    (held WorkerPhase.called state.workers ++ (state.answers.map Prod.fst ++ state.errors.filterMap Prod.fst))
  stored : state.answers.Perm (held WorkerPhase.answer state.workers ++ state.results)
  oneLoader : (held WorkerPhase.loads state.workers).length = if state.sourceLoading then 1 else 0
  loading : state.sourceLoading = true → state.sourceBuffer = []
  drained : held WorkerPhase.drained state.workers ≠ [] → state.source = [] ∨ state.stop = true
  stopped : state.stop = state.firstError.isSome
  exhausted : state.sourceExhausted = true → state.firstError = none →
    state.sourceBuffer = [] ∧ state.source = [] ∧ state.sourceLoading = false
  failing : state.errors ≠ [] → state.firstError = none → held WorkerPhase.failure state.workers ≠ []
  raised : ∀ error ∈ held WorkerPhase.failure state.workers, error ∈ state.errors.map Prod.snd
  first : ∀ error, state.firstError = some error → error ∈ state.errors.map Prod.snd

section Moves

theorem ItemsAccounted.running (kept : ItemsAccounted items state) (going : ¬state.stop = true) : state.firstError = none := by
  have flag := kept.stopped
  rw [Bool.not_eq_true] at going
  rw [going] at flag
  exact Option.not_isSome_iff_eq_none.mp (by rw [← flag]; nofun)

theorem ItemsAccounted.same {γ : Type} (kept : ItemsAccounted items state) (found : state.workers.phaseOf id = some phase)
    (moved : WorkerPhase ι ρ ε) (holds : WorkerPhase ι ρ ε → List γ) (equal : holds phase = holds moved) :
    held holds (state.workers.setPhase id moved) = held holds state.workers :=
  Threads.held_set_same kept.distinct found equal

theorem ItemsAccounted.loader (kept : ItemsAccounted items state) (found : state.workers.phaseOf id = some phase)
    (loads : phase.loads = [()]) :
    state.sourceLoading = true ∧ ∀ {γ : Type} (holds : WorkerPhase ι ρ ε → List γ),
      (∀ {other : WorkerPhase ι ρ ε}, other.loads = [] → holds other = []) →
        held holds state.workers = holds phase ∧ ∀ next, held holds (state.workers.setPhase id next) = holds next := by
  obtain ⟨before, after, split, _, set⟩ := Threads.split_thread kept.distinct found
  have one := kept.oneLoader
  rw [split, Threads.held_append, Threads.held_cons, loads, List.length_append, List.length_append, List.length_singleton] at one
  have busy : state.sourceLoading = true := by
    by_contra idle
    rw [if_neg idle] at one
    omega
  rw [if_pos busy] at one
  have none_before : held WorkerPhase.loads before = [] := List.length_eq_zero_iff.mp (by omega)
  have none_after : held WorkerPhase.loads after = [] := List.length_eq_zero_iff.mp (by omega)
  refine ⟨busy, fun {γ} holds only => ?_⟩
  have clear : ∀ others : Threads (WorkerPhase ι ρ ε), held WorkerPhase.loads others = [] → held holds others = [] := by
    intro others nothing
    rw [held, List.flatMap_eq_nil_iff] at nothing ⊢
    exact fun thread member => only (nothing thread member)
  refine ⟨?_, fun next => ?_⟩
  · rw [split, Threads.held_append, Threads.held_cons, clear before none_before, clear after none_after, List.nil_append,
      List.append_nil]
  · rw [set, Threads.held_append, Threads.held_cons, clear before none_before, clear after none_after, List.nil_append,
      List.append_nil]

theorem ItemsAccounted.moved_distinct (kept : ItemsAccounted items state) : (state.workers.setPhase id moved).ids.Nodup := by
  rw [Threads.ids_set_phase]
  exact kept.distinct

theorem ItemsAccounted.moved_fresh (kept : ItemsAccounted items state) :
    ∀ other ∈ (state.workers.setPhase id moved).ids, other < state.nextWorkerId := by
  rw [Threads.ids_set_phase]
  exact kept.fresh

section Same

variable (kept : ItemsAccounted items state) (found : state.workers.phaseOf id = some phase)
include kept found

theorem ItemsAccounted.whole_same (same : phase.batch = moved.batch) : state.passed.map Prod.snd ++
    (state.sourceBuffer ++ (held WorkerPhase.batch (state.workers.setPhase id moved) ++ state.source)) = items := by
  rw [kept.same found moved _ same]
  exact kept.whole

theorem ItemsAccounted.called_same (same : phase.called = moved.called) : (state.passed.map Prod.fst).Perm
    (held WorkerPhase.called (state.workers.setPhase id moved) ++
      (state.answers.map Prod.fst ++ state.errors.filterMap Prod.fst)) := by
  rw [kept.same found moved _ same]
  exact kept.called

theorem ItemsAccounted.stored_same (same : phase.answer = moved.answer) :
    state.answers.Perm (held WorkerPhase.answer (state.workers.setPhase id moved) ++ state.results) := by
  rw [kept.same found moved _ same]
  exact kept.stored

theorem ItemsAccounted.loader_same (same : phase.loads = moved.loads) :
    (held WorkerPhase.loads (state.workers.setPhase id moved)).length = if state.sourceLoading then 1 else 0 := by
  rw [kept.same found moved _ same]
  exact kept.oneLoader

theorem ItemsAccounted.drained_same (same : phase.drained = moved.drained) :
    held WorkerPhase.drained (state.workers.setPhase id moved) ≠ [] → state.source = [] ∨ state.stop = true := by
  rw [kept.same found moved _ same]
  exact kept.drained

theorem ItemsAccounted.failing_same (same : phase.failure = moved.failure) : state.errors ≠ [] → state.firstError = none →
    held WorkerPhase.failure (state.workers.setPhase id moved) ≠ [] := by
  rw [kept.same found moved _ same]
  exact kept.failing

theorem ItemsAccounted.raised_same (same : phase.failure = moved.failure) :
    ∀ error ∈ held WorkerPhase.failure (state.workers.setPhase id moved), error ∈ state.errors.map Prod.snd := by
  rw [kept.same found moved _ same]
  exact kept.raised

end Same

theorem ItemsAccounted.moveAlike (kept : ItemsAccounted items state) (found : state.workers.phaseOf id = some phase)
    (alike : phase.Alike moved) : ItemsAccounted items (moveWorker state id moved) where
  distinct := kept.moved_distinct
  fresh := kept.moved_fresh
  whole := kept.whole_same found alike.batch
  numbered := kept.numbered
  called := kept.called_same found alike.called
  stored := kept.stored_same found alike.answer
  oneLoader := kept.loader_same found alike.loads
  loading := kept.loading
  drained := kept.drained_same found alike.drained
  stopped := kept.stopped
  exhausted := kept.exhausted
  failing := kept.failing_same found alike.failure
  raised := kept.raised_same found alike.failure
  first := kept.first

theorem take_item_accounted (kept : ItemsAccounted items state) (found : state.workers.phaseOf id = some .taking) :
    ItemsAccounted items (takeItem state id) := by
  have leaves : ItemsAccounted items (moveWorker state id .leaving) := kept.moveAlike found ⟨rfl, rfl, rfl, rfl, rfl, rfl⟩
  unfold takeItem
  by_cases stopped : state.stop = true
  · rw [if_pos stopped]
    exact leaves
  rw [if_neg stopped]
  have going := kept.running stopped
  cases buffer : state.sourceBuffer with
  | cons item rest =>
      have quiet : state.sourceLoading = false := by
        cases loading : state.sourceLoading with
        | false => rfl
        | true => cases buffer.symm.trans (kept.loading loading)
      have whole := kept.whole
      rw [buffer] at whole
      obtain ⟨left, right, now, later⟩ := Threads.held_set kept.distinct found WorkerPhase.called
      have called := kept.called
      rw [now] at called
      dsimp only
      exact {
        distinct := kept.moved_distinct
        fresh := kept.moved_fresh
        whole := by
          rw [← whole]
          simp [moveWorker, kept.same found (.running state.nextItemIndex item) WorkerPhase.batch rfl]
        numbered := by
          simp only [moveWorker, List.map_append, List.map_cons, List.map_nil, kept.numbered, List.range_succ]
        called := by
          simp only [moveWorker, later, WorkerPhase.called, List.map_append, List.map_cons, List.map_nil]
          refine (called.append_right [state.nextItemIndex]).trans (List.perm_append_comm.trans ?_)
          simpa [WorkerPhase.called] using List.perm_middle.symm
        stored := kept.stored_same found rfl
        oneLoader := kept.loader_same found rfl
        loading := fun loading => by cases quiet.symm.trans loading
        drained := kept.drained_same found rfl
        stopped := kept.stopped
        exhausted := fun concluded _ => by cases buffer.symm.trans (kept.exhausted concluded going).1
        failing := kept.failing_same found rfl
        raised := kept.raised_same found rfl
        first := kept.first }
  | nil =>
      dsimp only
      by_cases concluded : state.sourceExhausted = true
      · rw [if_pos concluded]
        exact leaves
      rw [if_neg concluded]
      by_cases busy : state.sourceLoading = true
      · rw [if_pos busy]
        exact kept
      rw [if_neg busy]
      have idle : (held WorkerPhase.loads state.workers).length = 0 := by
        rw [kept.oneLoader, if_neg busy]
      obtain ⟨left, right, now, later⟩ := Threads.held_set kept.distinct found WorkerPhase.loads
      exact {
        distinct := kept.moved_distinct
        fresh := kept.moved_fresh
        whole := by
          have whole := kept.whole
          rw [buffer] at whole
          simp only [moveWorker, kept.same found .loading WorkerPhase.batch rfl]
          exact whole
        numbered := kept.numbered
        called := kept.called_same found rfl
        stored := kept.stored_same found rfl
        oneLoader := by
          rw [now] at idle
          simp only [moveWorker, later, WorkerPhase.loads, List.length_append, List.length_nil,
            List.length_cons, if_true] at idle ⊢
          omega
        loading := fun _ => rfl
        drained := kept.drained_same found rfl
        stopped := kept.stopped
        exhausted := fun ended _ => absurd ended concluded
        failing := kept.failing_same found rfl
        raised := kept.raised_same found rfl
        first := kept.first }

theorem load_accounted (kept : ItemsAccounted items state) (found : state.workers.phaseOf id = some .loading) {count : Nat}
    (given : loadable config state count = true) :
    ItemsAccounted items (moveWorker { state with source := state.source.drop count } id
      (.loaded (state.source.take count))) := by
  obtain ⟨busy, only⟩ := kept.loader found rfl
  obtain ⟨nothing, batch⟩ := only WorkerPhase.batch WorkerPhase.batch_of_idle
  obtain ⟨_, drained⟩ := only WorkerPhase.drained WorkerPhase.drained_of_idle
  exact {
    distinct := kept.moved_distinct
    fresh := kept.moved_fresh
    whole := by
      have whole := kept.whole
      rw [nothing] at whole
      simp only [moveWorker, batch, WorkerPhase.batch, List.take_append_drop]
      exact whole
    numbered := kept.numbered
    called := kept.called_same found rfl
    stored := kept.stored_same found rfl
    oneLoader := kept.loader_same found rfl
    loading := kept.loading
    drained := by
      simp only [moveWorker, drained]
      cases taken : state.source.take count with
      | cons item rest => exact fun some_drained => absurd rfl some_drained
      | nil =>
          intro _
          -- Nothing is taken only from an empty source, or once the run stops.
          rcases List.take_eq_nil_iff.mp taken with rfl | empty
          · simp only [loadable, if_true, Bool.or_eq_true, List.isEmpty_iff, Bool.and_eq_true] at given
            rcases given with empty | ⟨_, stopped⟩
            · exact .inl (by rw [empty, List.drop_nil])
            · exact .inr stopped
          · exact .inl (by rw [empty, List.drop_nil])
    stopped := kept.stopped
    exhausted := fun concluded going => by cases busy.symm.trans (kept.exhausted concluded going).2.2
    failing := kept.failing_same found rfl
    raised := kept.raised_same found rfl
    first := kept.first }

theorem ItemsAccounted.raised_more (kept : ItemsAccounted items state) (found : state.workers.phaseOf id = some phase) {error : ε}
    (quiet : phase.failure = []) (fails : moved.failure = [error]) (place : Option Nat) :
    ∀ other ∈ held WorkerPhase.failure (state.workers.setPhase id moved),
      other ∈ (state.errors ++ [(place, error)]).map Prod.snd := by
  obtain ⟨left, right, now, later⟩ := Threads.held_set kept.distinct found WorkerPhase.failure
  intro other inside
  have raised := kept.raised other
  rw [now, quiet, List.nil_append] at raised
  rw [later, fails] at inside
  rw [List.map_append, List.mem_append]
  rcases List.mem_append.mp inside with before | after
  · exact .inl (raised (List.mem_append_left _ before))
  · rcases List.mem_cons.mp after with rfl | after
    · exact .inr List.mem_cons_self
    · exact .inl (raised (List.mem_append_right _ after))

theorem load_raises_accounted (kept : ItemsAccounted items state) (found : state.workers.phaseOf id = some .loading) (error : ε) :
    ItemsAccounted items (moveWorker { state with errors := state.errors ++ [(none, error)] } id (.loadFailed error)) := by
  obtain ⟨left, right, now, later⟩ := Threads.held_set kept.distinct found WorkerPhase.failure
  exact {
    distinct := kept.moved_distinct
    fresh := kept.moved_fresh
    whole := kept.whole_same found rfl
    numbered := kept.numbered
    called := by
      simp only [moveWorker, kept.same found (.loadFailed error) WorkerPhase.called rfl, List.filterMap_append,
        List.filterMap_cons, List.filterMap_nil, List.append_nil]
      exact kept.called
    stored := kept.stored_same found rfl
    oneLoader := kept.loader_same found rfl
    loading := kept.loading
    drained := kept.drained_same found rfl
    stopped := kept.stopped
    exhausted := kept.exhausted
    failing := fun _ _ => by simp only [moveWorker, later]; exact List.append_ne_nil_of_right_ne_nil _ (List.cons_ne_nil _ _)
    raised := kept.raised_more found rfl rfl _
    first := fun other recorded => by
      simp only [moveWorker, List.map_append]
      exact List.mem_append_left _ (kept.first other recorded) }

theorem run_raises_accounted {index : Nat} {item : ι} (kept : ItemsAccounted items state)
    (found : state.workers.phaseOf id = some (.running index item)) (error : ε) :
    ItemsAccounted items (moveWorker { state with errors := state.errors ++ [(some index, error)] } id (.failing error)) := by
  obtain ⟨left, right, now, later⟩ := Threads.held_set kept.distinct found WorkerPhase.failure
  obtain ⟨before, after, calling, returned⟩ := Threads.held_set kept.distinct found WorkerPhase.called
  exact {
    distinct := kept.moved_distinct
    fresh := kept.moved_fresh
    whole := kept.whole_same found rfl
    numbered := kept.numbered
    called := by
      have called := kept.called
      rw [calling] at called
      simp only [moveWorker, returned, WorkerPhase.called, List.filterMap_append, List.filterMap_cons, List.filterMap_nil]
      refine called.trans ?_
      simp only [WorkerPhase.called, List.nil_append, List.append_assoc, List.cons_append]
      refine List.Perm.append_left before (List.perm_middle.symm.trans ?_)
      refine List.Perm.append_left after ?_
      refine (List.perm_append_singleton index _).symm.trans ?_
      rw [List.append_assoc]
    stored := kept.stored_same found rfl
    oneLoader := kept.loader_same found rfl
    loading := kept.loading
    drained := kept.drained_same found rfl
    stopped := kept.stopped
    exhausted := kept.exhausted
    failing := fun _ _ => by simp only [moveWorker, later]; exact List.append_ne_nil_of_right_ne_nil _ (List.cons_ne_nil _ _)
    raised := kept.raised_more found rfl rfl _
    first := fun other recorded => by
      simp only [moveWorker, List.map_append]
      exact List.mem_append_left _ (kept.first other recorded) }

theorem run_returns_accounted {index : Nat} {item : ι} (kept : ItemsAccounted items state)
    (found : state.workers.phaseOf id = some (.running index item)) (value : ρ) :
    ItemsAccounted items (moveWorker { state with answers := state.answers ++ [(index, value)] } id (.finished index value)) := by
  obtain ⟨left, right, now, later⟩ := Threads.held_set kept.distinct found WorkerPhase.answer
  obtain ⟨before, after, calling, returned⟩ := Threads.held_set kept.distinct found WorkerPhase.called
  exact {
    distinct := kept.moved_distinct
    fresh := kept.moved_fresh
    whole := kept.whole_same found rfl
    numbered := kept.numbered
    called := by
      have called := kept.called
      rw [calling] at called
      simp only [moveWorker, returned, WorkerPhase.called, List.map_append, List.map_cons, List.map_nil]
      refine called.trans ?_
      simp only [WorkerPhase.called, List.nil_append, List.append_assoc, List.cons_append]
      refine List.Perm.append_left before (List.perm_middle.symm.trans ?_)
      exact List.Perm.append_left after List.perm_middle.symm
    stored := by
      have stored := kept.stored
      rw [now] at stored
      simp only [moveWorker, later, WorkerPhase.answer]
      refine (stored.append_right [(index, value)]).trans (List.perm_append_comm.trans ?_)
      simpa [WorkerPhase.answer] using List.perm_middle.symm
    oneLoader := kept.loader_same found rfl
    loading := kept.loading
    drained := kept.drained_same found rfl
    stopped := kept.stopped
    exhausted := kept.exhausted
    failing := kept.failing_same found rfl
    raised := kept.raised_same found rfl
    first := kept.first }

theorem deliver_accounted {batch : List ι} (kept : ItemsAccounted items state)
    (found : state.workers.phaseOf id = some (.loaded batch)) : ItemsAccounted items (deliver state id batch) := by
  obtain ⟨busy, only⟩ := kept.loader found rfl
  obtain ⟨carried, nothing⟩ := only WorkerPhase.batch WorkerPhase.batch_of_idle
  obtain ⟨_, idle⟩ := only WorkerPhase.loads fun none => none
  obtain ⟨returning, drained⟩ := only WorkerPhase.drained WorkerPhase.drained_of_idle
  unfold deliver
  dsimp only
  generalize place : (if (state.sourceBuffer ++ batch).isEmpty && (state.sourceExhausted || batch.isEmpty) then
    (WorkerPhase.leaving : WorkerPhase ι ρ ε) else .taking) = next
  have plain : next = .leaving ∨ next = .taking := by
    rw [← place]
    split
    · exact .inl rfl
    · exact .inr rfl
  have empty : next.batch = [] ∧ next.called = [] ∧ next.answer = [] ∧ next.failure = [] ∧ next.loads = [] ∧
      next.drained = [] := by
    rcases plain with rfl | rfl <;> exact ⟨rfl, rfl, rfl, rfl, rfl, rfl⟩
  obtain ⟨noBatch, noCall, noAnswer, noFailure, noLoad, noDrain⟩ := empty
  exact {
    distinct := kept.moved_distinct
    fresh := kept.moved_fresh
    whole := by
      have whole := kept.whole
      rw [carried, WorkerPhase.batch] at whole
      simp only [moveWorker, nothing, noBatch, List.nil_append, List.append_assoc]
      exact whole
    numbered := kept.numbered
    called := kept.called_same found noCall.symm
    stored := kept.stored_same found noAnswer.symm
    oneLoader := by simp only [moveWorker, idle, noLoad]; rfl
    loading := nofun
    drained := by
      simp only [moveWorker, drained, noDrain]
      exact fun some_drained => absurd rfl some_drained
    stopped := kept.stopped
    exhausted := by
      intro concluded going
      have running : state.firstError = none := going
      have emptied : state.sourceExhausted = false := by
        cases known : state.sourceExhausted with
        | false => rfl
        | true => cases busy.symm.trans (kept.exhausted known running).2.2
      have concluded : (state.sourceExhausted || batch.isEmpty) = true := concluded
      rw [emptied, Bool.false_or, List.isEmpty_iff] at concluded
      subst concluded
      have ended : state.source = [] := by
        rcases kept.drained (by rw [returning]; exact List.cons_ne_nil _ _) with ended | stopped
        · exact ended
        · have flag := kept.stopped
          rw [stopped, running] at flag
          cases flag
      exact ⟨by simpa [moveWorker] using kept.loading busy, ended, rfl⟩
    failing := kept.failing_same found noFailure.symm
    raised := kept.raised_same found noFailure.symm
    first := kept.first }

theorem deliver_failed_accounted {error : ε} (kept : ItemsAccounted items state)
    (found : state.workers.phaseOf id = some (.loadFailed error)) :
    ItemsAccounted items (moveWorker { state with sourceLoading := false } id (.failing error)) := by
  obtain ⟨busy, only⟩ := kept.loader found rfl
  obtain ⟨_, idle⟩ := only WorkerPhase.loads fun none => none
  exact {
    distinct := kept.moved_distinct
    fresh := kept.moved_fresh
    whole := kept.whole_same found rfl
    numbered := kept.numbered
    called := kept.called_same found rfl
    stored := kept.stored_same found rfl
    oneLoader := by simp only [moveWorker, idle]; rfl
    loading := nofun
    drained := kept.drained_same found rfl
    stopped := kept.stopped
    exhausted := fun concluded going =>
      ⟨(kept.exhausted concluded going).1, (kept.exhausted concluded going).2.1, rfl⟩
    failing := kept.failing_same found rfl
    raised := kept.raised_same found rfl
    first := kept.first }

theorem record_result_accounted {index : Nat} {value : ρ} (kept : ItemsAccounted items state)
    (found : state.workers.phaseOf id = some (.finished index value)) :
    ItemsAccounted items (moveWorker { state with results := setResult state.results index value } id .looping) := by
  obtain ⟨left, right, now, later⟩ := Threads.held_set kept.distinct found WorkerPhase.answer
  have stored := kept.stored
  rw [now] at stored
  have once : (state.answers.map Prod.fst).Nodup := by
    have numbers : (state.passed.map Prod.fst).Nodup := by
      rw [kept.numbered]
      exact List.nodup_range
    have split := kept.called.nodup_iff.mp numbers
    exact (List.nodup_append.mp (List.nodup_append.mp split).2.1).1
  have apart : ∀ entry ∈ state.results, entry.1 ≠ index := by
    have distinct := (stored.map Prod.fst).nodup_iff.mp once
    rw [WorkerPhase.answer, List.append_assoc, List.append_assoc, List.map_append, List.map_append] at distinct
    have front := (List.nodup_append.mp distinct).2.1
    intro entry inside same
    have away : index ∉ (right ++ state.results).map Prod.fst := (List.nodup_cons.mp front).1
    exact away (List.mem_map.mpr ⟨entry, List.mem_append_right _ inside, same⟩)
  have fresh : state.results.filter (fun entry => entry.1 ≠ index) = state.results :=
    List.filter_eq_self.mpr fun entry inside => decide_eq_true (apart entry inside)
  exact {
    distinct := kept.moved_distinct
    fresh := kept.moved_fresh
    whole := kept.whole_same found rfl
    numbered := kept.numbered
    called := kept.called_same found rfl
    stored := by
      simp only [moveWorker, later, WorkerPhase.answer, setResult, fresh]
      refine stored.trans ?_
      simp only [WorkerPhase.answer, List.append_assoc, List.cons_append, List.nil_append]
      refine List.Perm.append_left left ?_
      rw [← List.append_assoc right]
      exact (List.perm_append_singleton (index, value) (right ++ state.results)).symm
    oneLoader := kept.loader_same found rfl
    loading := kept.loading
    drained := kept.drained_same found rfl
    stopped := kept.stopped
    exhausted := kept.exhausted
    failing := kept.failing_same found rfl
    raised := kept.raised_same found rfl
    first := kept.first }

theorem record_error_accounted {error : ε} (kept : ItemsAccounted items state)
    (found : state.workers.phaseOf id = some (.failing error)) :
    ItemsAccounted items
      (moveWorker { state with firstError := state.firstError.or (some error), stop := true } id .leaving) := by
  obtain ⟨left, right, now, later⟩ := Threads.held_set kept.distinct found WorkerPhase.failure
  have failed : (state.firstError.or (some error)).isSome = true := by cases state.firstError <;> rfl
  have never : state.firstError.or (some error) ≠ none := fun nothing => by
    rw [nothing] at failed
    cases failed
  exact {
    distinct := kept.moved_distinct
    fresh := kept.moved_fresh
    whole := kept.whole_same found rfl
    numbered := kept.numbered
    called := kept.called_same found rfl
    stored := kept.stored_same found rfl
    oneLoader := kept.loader_same found rfl
    loading := kept.loading
    drained := fun _ => .inr rfl
    stopped := failed.symm
    exhausted := fun _ going => absurd going never
    failing := fun _ going => absurd going never
    raised := by
      simp only [moveWorker, later, WorkerPhase.failure, List.nil_append]
      intro other inside
      refine kept.raised other ?_
      rw [now]
      rcases List.mem_append.mp inside with before | after
      · exact List.mem_append_left _ before
      · exact List.mem_append_right _ (List.mem_append_right _ after)
    first := fun other recorded => by
      have recorded : state.firstError.or (some error) = some other := recorded
      cases before : state.firstError with
      | some earlier =>
          rw [before, Option.some_or] at recorded
          exact kept.first other (before.trans recorded)
      | none =>
          rw [before, Option.none_or] at recorded
          obtain rfl := Option.some.inj recorded
          refine kept.raised error ?_
          rw [now]
          exact List.mem_append_right _ (List.mem_append_left _ List.mem_cons_self) }

theorem ItemsAccounted.withThreads (kept : ItemsAccounted items state) (phase : WorkerPhase ι ρ ε)
    {workers : Threads (WorkerPhase ι ρ ε)} {bound : Nat} (distinct : workers.ids.Nodup)
    (fresh : ∀ other ∈ workers.ids, other < bound) (idle : phase.Alike .looping)
    (same : ∀ {γ : Type} (holds : WorkerPhase ι ρ ε → List γ), holds phase = [] → held holds workers = held holds state.workers) :
    ItemsAccounted items { state with workers := workers, nextWorkerId := bound } where
  distinct := distinct
  fresh := fresh
  whole := by rw [same WorkerPhase.batch idle.batch]; exact kept.whole
  numbered := kept.numbered
  called := by rw [same WorkerPhase.called idle.called]; exact kept.called
  stored := by rw [same WorkerPhase.answer idle.answer]; exact kept.stored
  oneLoader := by rw [same WorkerPhase.loads idle.loads]; exact kept.oneLoader
  loading := kept.loading
  drained := by rw [same WorkerPhase.drained idle.drained]; exact kept.drained
  stopped := kept.stopped
  exhausted := kept.exhausted
  failing := by rw [same WorkerPhase.failure idle.failure]; exact kept.failing
  raised := by rw [same WorkerPhase.failure idle.failure]; exact kept.raised
  first := kept.first

theorem leave_accounted (kept : ItemsAccounted items state) (found : state.workers.phaseOf id = some .leaving) :
    ItemsAccounted items { state with workers := state.workers.leave id } := by
  refine kept.withThreads .leaving ?_ (fun other inside => kept.fresh other ?_) ⟨rfl, rfl, rfl, rfl, rfl, rfl⟩
    fun _ nothing => Threads.held_leave kept.distinct found nothing
  · rw [Threads.ids_leave]
    exact kept.distinct.filter _
  · rw [Threads.ids_leave] at inside
    exact (List.mem_filter.mp inside).1

end Moves

section Steps

theorem worker_step_accounted {action : WorkerAction ρ ε} (kept : ItemsAccounted items state)
    (found : state.workers.phaseOf id = some phase) (step : workerStep config state id phase action = some next) :
    ItemsAccounted items next := by
  cases phase with
  | looping =>
      cases action with
      | check =>
          have leaves : ItemsAccounted items (moveWorker state id .leaving) := kept.moveAlike found ⟨rfl, rfl, rfl, rfl, rfl, rfl⟩
          have goes : ItemsAccounted items (moveWorker state id .taking) := kept.moveAlike found ⟨rfl, rfl, rfl, rfl, rfl, rfl⟩
          rw [workerStep] at step
          by_cases stopped : state.stop = true
          · rw [if_pos stopped] at step
            exact Option.some.inj step ▸ leaves
          rw [if_neg stopped] at step
          by_cases surplus : state.desired < state.workers.length
          · rw [if_pos surplus] at step
            exact Option.some.inj step ▸ leaves
          · rw [if_neg surplus] at step
            exact Option.some.inj step ▸ goes
      | _ => cases step
  | taking =>
      cases action with
      | take => exact Option.some.inj step ▸ take_item_accounted kept found
      | _ => cases step
  | loading =>
      cases action with
      | load count =>
          rw [workerStep] at step
          by_cases given : loadable config state count = true
          · rw [if_pos given] at step
            exact Option.some.inj step ▸ load_accounted kept found given
          · rw [if_neg given] at step
            cases step
      | loadRaises error => exact Option.some.inj step ▸ load_raises_accounted kept found error
      | _ => cases step
  | loaded batch =>
      cases action with
      | deliver => exact Option.some.inj step ▸ deliver_accounted kept found
      | _ => cases step
  | loadFailed error =>
      cases action with
      | deliver => exact Option.some.inj step ▸ deliver_failed_accounted kept found
      | _ => cases step
  | running index item =>
      cases action with
      | runReturns value => exact Option.some.inj step ▸ run_returns_accounted kept found value
      | runRaises error => exact Option.some.inj step ▸ run_raises_accounted kept found error
      | _ => cases step
  | finished index value =>
      cases action with
      | record => exact Option.some.inj step ▸ record_result_accounted kept found
      | _ => cases step
  | failing error =>
      cases action with
      | record => exact Option.some.inj step ▸ record_error_accounted kept found
      | _ => cases step
  | leaving =>
      cases action with
      | leave => exact Option.some.inj step ▸ leave_accounted kept found
      | _ => cases step

theorem spawn_worker_accounted (kept : ItemsAccounted items state) : ItemsAccounted items (spawnWorker state) := by
  have same : ∀ {γ : Type} (holds : WorkerPhase ι ρ ε → List γ), holds .looping = [] →
      held holds (spawnWorker state).workers = held holds state.workers := by
    intro γ holds nothing
    rw [spawnWorker, Threads.held_append, Threads.held_cons, nothing, Threads.held_nil, List.append_nil, List.append_nil]
  have known : ∀ other ∈ (spawnWorker state).workers.ids, other ∈ state.workers.ids ∨ other = state.nextWorkerId := by
    intro other inside
    rw [spawnWorker, Threads.ids_append, List.mem_append] at inside
    exact inside.imp_right List.mem_singleton.mp
  refine kept.withThreads .looping ?_ (fun other inside => ?_) ⟨rfl, rfl, rfl, rfl, rfl, rfl⟩ same
  · rw [Threads.ids_append, List.nodup_append]
    refine ⟨kept.distinct, List.nodup_singleton _, fun other old fresh new same => ?_⟩
    have low := kept.fresh other old
    rw [same, List.mem_singleton.mp new] at low
    exact Nat.lt_irrefl _ low
  · rcases known other inside with old | rfl
    · exact Nat.lt_succ_of_lt (kept.fresh other old)
    · exact Nat.lt_succ_self _

end Steps

end MicroWorkflow
