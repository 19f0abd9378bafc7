import Mathlib.Data.List.Nodup
import Mathlib.Data.List.Perm.Basic

set_option autoImplicit false

namespace MicroWorkflow.Lib

section Threads

variable {φ γ : Type}

abbrev Threads (φ : Type) := List (Nat × φ)

namespace Threads

def ids (threads : Threads φ) : List Nat := threads.map Prod.fst

def phaseOf (threads : Threads φ) (id : Nat) : Option φ := threads.lookup id

def setPhase (threads : Threads φ) (id : Nat) (phase : φ) : Threads φ :=
  threads.map fun thread => if thread.1 = id then (id, phase) else thread

def leave (threads : Threads φ) (id : Nat) : Threads φ := threads.filter fun thread => thread.1 ≠ id

def held (holds : φ → List γ) (threads : Threads φ) : List γ := threads.flatMap fun thread => holds thread.2

variable {threads others : Threads φ} {id other : Nat} {phase next : φ} {holds : φ → List γ}

@[simp] theorem ids_cons {thread : Nat × φ} : ids (thread :: threads) = thread.1 :: ids threads := rfl

@[simp] theorem ids_append : ids (threads ++ others) = ids threads ++ ids others := List.map_append

@[simp] theorem held_nil : held holds ([] : Threads φ) = [] := rfl

@[simp] theorem held_cons : held holds ((id, phase) :: threads) = holds phase ++ held holds threads := rfl

@[simp] theorem held_append : held holds (threads ++ others) = held holds threads ++ held holds others :=
  List.flatMap_append

theorem mem_of_phase (found : phaseOf threads id = some phase) : (id, phase) ∈ threads := by
  induction threads with
  | nil => cases found
  | cons thread rest ih =>
      obtain ⟨first, here⟩ := thread
      rw [phaseOf, List.lookup_cons] at found
      by_cases same : id = first
      · subst same
        rw [beq_self_eq_true] at found
        cases found
        exact List.mem_cons_self
      · rw [beq_false_of_ne same] at found
        exact List.mem_cons_of_mem _ (ih found)

theorem set_phase_absent (absent : id ∉ ids threads) : setPhase threads id next = threads := by
  refine (List.map_congr_left fun thread member => ?_).trans (List.map_id threads)
  exact if_neg fun same => absent (List.mem_map.mpr ⟨thread, member, same⟩)

theorem leave_absent (absent : id ∉ ids threads) : leave threads id = threads := by
  refine List.filter_eq_self.mpr fun thread member => decide_eq_true ?_
  intro same
  exact absent (List.mem_map.mpr ⟨thread, member, same⟩)

theorem split_thread (distinct : (ids threads).Nodup) (found : phaseOf threads id = some phase) :
    ∃ before after, threads = before ++ (id, phase) :: after ∧ leave threads id = before ++ after ∧
      ∀ next, setPhase threads id next = before ++ (id, next) :: after := by
  obtain ⟨before, after, rfl⟩ := List.append_of_mem (mem_of_phase found)
  rw [ids_append, ids_cons] at distinct
  have apart := List.nodup_middle.mp distinct
  obtain ⟨absent, _⟩ := List.nodup_cons.mp apart
  rw [List.mem_append, not_or] at absent
  refine ⟨before, after, rfl, ?_, fun next => ?_⟩
  · rw [leave, List.filter_append, List.filter_cons, if_neg (by simp)]
    exact congrArg₂ _ (leave_absent absent.1) (leave_absent absent.2)
  · rw [setPhase, List.map_append, List.map_cons, if_pos rfl]
    exact congrArg₂ _ (set_phase_absent absent.1) (congrArg _ (set_phase_absent absent.2))

theorem phase_of_mem (distinct : (ids threads).Nodup) (member : (id, phase) ∈ threads) : phaseOf threads id = some phase := by
  induction threads with
  | nil => cases member
  | cons thread rest ih =>
      obtain ⟨apart, later⟩ := List.nodup_cons.mp distinct
      rw [phaseOf, List.lookup_cons]
      rcases List.mem_cons.mp member with here | inside
      · rw [← here, beq_self_eq_true]
      · have other : id ≠ thread.1 := fun same => apart (same ▸ List.mem_map.mpr ⟨_, inside, rfl⟩)
        rw [beq_false_of_ne other]
        exact ih later inside

theorem mem_set_phase (found : phaseOf threads id = some phase) : (id, next) ∈ setPhase threads id next :=
  List.mem_map.mpr ⟨_, mem_of_phase found, if_pos rfl⟩

theorem mem_set_other (member : (other, phase) ∈ threads) (apart : other ≠ id) :
    (other, phase) ∈ setPhase threads id next := List.mem_map.mpr ⟨_, member, if_neg apart⟩

theorem mem_leave_other (member : (other, phase) ∈ threads) (apart : other ≠ id) : (other, phase) ∈ leave threads id :=
  List.mem_filter.mpr ⟨member, decide_eq_true apart⟩

theorem of_mem_set_phase (member : (other, phase) ∈ setPhase threads id next) :
    other = id ∧ phase = next ∨ other ≠ id ∧ (other, phase) ∈ threads := by
  obtain ⟨thread, inside, moved⟩ := List.mem_map.mp member
  by_cases same : thread.1 = id
  · rw [if_pos same] at moved
    cases moved
    exact .inl ⟨rfl, rfl⟩
  · rw [if_neg same] at moved
    subst moved
    exact .inr ⟨same, inside⟩

theorem of_mem_leave (member : (other, phase) ∈ leave threads id) : (other, phase) ∈ threads :=
  (List.mem_filter.mp member).1

theorem ids_set_phase : ids (setPhase threads id next) = ids threads := by
  rw [ids, setPhase, List.map_map]
  refine List.map_congr_left fun thread _ => ?_
  by_cases same : thread.1 = id
  · rw [Function.comp_apply, if_pos same]
    exact same.symm
  · rw [Function.comp_apply, if_neg same]

theorem ids_leave : ids (leave threads id) = (ids threads).filter fun other => other ≠ id := by
  rw [ids, ids, leave, List.filter_map]
  rfl

theorem held_set (distinct : (ids threads).Nodup) (found : phaseOf threads id = some phase) (holds : φ → List γ) :
    ∃ left right, held holds threads = left ++ (holds phase ++ right) ∧
      ∀ next, held holds (setPhase threads id next) = left ++ (holds next ++ right) := by
  obtain ⟨before, after, split, _, set⟩ := split_thread distinct found
  refine ⟨held holds before, held holds after, ?_, fun next => ?_⟩
  · rw [split, held_append, held_cons]
  · rw [set, held_append, held_cons]

theorem held_set_same (distinct : (ids threads).Nodup) (found : phaseOf threads id = some phase)
    (same : holds phase = holds next) : held holds (setPhase threads id next) = held holds threads := by
  obtain ⟨left, right, now, later⟩ := held_set distinct found holds
  rw [later, now, same]

theorem held_leave (distinct : (ids threads).Nodup) (found : phaseOf threads id = some phase) (nothing : holds phase = []) :
    held holds (leave threads id) = held holds threads := by
  obtain ⟨before, after, split, left, _⟩ := split_thread distinct found
  rw [left, split, held_append, held_append, held_cons, nothing, List.nil_append]

end Threads

end Threads

end MicroWorkflow.Lib
