import Mathlib.Data.List.Dedup
import Mathlib.Data.List.Sort
import Mathlib.Data.List.Chain
import Mathlib.Order.WellFounded
import Mathlib.Data.Fintype.EquivFin
import Mathlib.Data.Fintype.Sets
import MicroWorkflow.Lib.Closure

set_option autoImplicit false

namespace MicroWorkflow.Lib

open Relation (ReflTransGen TransGen)

section TopologicalOrder

variable {α : Type} [DecidableEq α]

def ready (sources : α → List α) (left : List α) (item : α) : Bool :=
  (sources item).all fun source => source ∉ left

def takeReady (sources : α → List α) : Nat → List α → Option (List α)
  | 0, left => if left.isEmpty then some [] else none
  | turns + 1, left =>
      match left.find? (ready sources left) with
      | some item => (takeReady sources turns (left.erase item)).map (item :: ·)
      | none => if left.isEmpty then some [] else none

def topologicalOrder (sources : α → List α) (items : List α) : Option (List α) :=
  takeReady sources items.length items

variable {sources : α → List α} {left order items : List α} {turns : Nat} {item : α}

theorem ready_iff : ready sources left item = true ↔ ∀ source ∈ sources item, source ∉ left := by
  simp only [ready, List.all_eq_true, decide_eq_true_eq]

theorem take_ready_cons (chosen : left.find? (ready sources left) = some item) :
    takeReady sources (turns + 1) left = (takeReady sources turns (left.erase item)).map (item :: ·) := by
  rw [takeReady, chosen]

theorem take_ready_cases (taken : takeReady sources turns left = some order) :
    left = [] ∧ order = [] ∨ ∃ item later fewer, item ∈ left ∧ ready sources left item = true ∧ turns = fewer + 1 ∧
      takeReady sources fewer (left.erase item) = some later ∧ order = item :: later := by
  have ended : (if left.isEmpty then some [] else none) = some order → left = [] ∧ order = [] := by
    intro ended
    split at ended
    · rename_i nothing
      cases ended
      exact ⟨List.isEmpty_iff.mp nothing, rfl⟩
    · cases ended
  cases turns with
  | zero => exact .inl (ended taken)
  | succ fewer =>
      cases chosen : left.find? (ready sources left) with
      | none =>
          rw [takeReady, chosen] at taken
          exact .inl (ended taken)
      | some item =>
          rw [take_ready_cons chosen] at taken
          obtain ⟨later, rest, rfl⟩ := Option.map_eq_some_iff.mp taken
          exact .inr ⟨item, later, fewer, List.mem_of_find?_eq_some chosen, List.find?_some chosen, rfl, rest, rfl⟩

theorem take_ready_perm (taken : takeReady sources turns left = some order) : order.Perm left := by
  induction turns generalizing left order with
  | zero =>
      rcases take_ready_cases taken with ⟨rfl, rfl⟩ | ⟨_, _, _, _, _, absurd_turns, _⟩
      · exact .nil
      · cases absurd_turns
  | succ turns ih =>
      rcases take_ready_cases taken with ⟨rfl, rfl⟩ | ⟨item, later, _, member, _, same, taken, rfl⟩
      · exact .nil
      · obtain rfl := Nat.succ.inj same
        exact ((ih taken).cons item).trans (List.perm_cons_erase member).symm

theorem take_ready_ordered (distinct : left.Nodup) (taken : takeReady sources turns left = some order) :
    order.Pairwise fun earlier later => later ∉ sources earlier := by
  induction turns generalizing left order with
  | zero =>
      rcases take_ready_cases taken with ⟨rfl, rfl⟩ | ⟨_, _, _, _, _, absurd_turns, _⟩
      · exact .nil
      · cases absurd_turns
  | succ turns ih =>
      rcases take_ready_cases taken with ⟨rfl, rfl⟩ | ⟨item, later, _, member, free, same, taken, rfl⟩
      · exact .nil
      · obtain rfl := Nat.succ.inj same
        refine .cons (fun other listed source => ?_) (ih (distinct.erase item) taken)
        have inside := List.mem_of_mem_erase ((take_ready_perm taken).mem_iff.mp listed)
        exact ready_iff.mp free other source inside

theorem find_ready_least {le : α → α → Prop} (sorted : left.Pairwise le) (chosen : left.find? (ready sources left) = some item)
    {other : α} (member : other ∈ left.erase item) (free : ready sources left other = true) : le item other := by
  obtain ⟨_, skipped, kept, rfl, passed⟩ := List.find?_eq_some_iff_append.mp chosen
  have unready : ∀ skip ∈ skipped, skip ≠ item ∧ skip ≠ other := by
    intro skip listed
    have blocked := passed skip listed
    constructor
    · rintro rfl
      rw [List.find?_some chosen] at blocked
      cases blocked
    · rintro rfl
      rw [free] at blocked
      cases blocked
  have fresh : item ∉ skipped := fun listed => (unready item listed).1 rfl
  rw [List.erase_append_right _ fresh, List.erase_cons_head] at member
  have after : other ∈ kept := (List.mem_append.mp member).resolve_left fun listed => (unready other listed).2 rfl
  exact (List.pairwise_cons.mp (List.pairwise_append.mp sorted).2.1).1 other after

theorem take_ready_least {le : α → α → Prop} (sorted : left.Pairwise le) {before after : List α}
    (taken : takeReady sources turns left = some (before ++ item :: after)) {other : α} (later : other ∈ after)
    (free : ∀ source ∈ sources other, source ∉ item :: after) : le item other := by
  induction before generalizing left turns with
  | nil =>
      have listed := take_ready_perm taken
      have unblocked : ready sources left other = true :=
        ready_iff.mpr fun source edge inside => free source edge (listed.mem_iff.mpr inside)
      rcases take_ready_cases taken with ⟨_, nothing⟩ | ⟨first, rest, fewer, _, _, rfl, _, _⟩
      · cases nothing
      cases chosen : left.find? (ready sources left) with
      | none => exact absurd unblocked (List.find?_eq_none.mp chosen other (listed.mem_iff.mp (.tail _ later)))
      | some taken_item =>
          rw [take_ready_cons chosen] at taken
          obtain ⟨_, shorter, same⟩ := Option.map_eq_some_iff.mp taken
          cases same
          exact find_ready_least sorted chosen ((take_ready_perm shorter).mem_iff.mp later) unblocked
  | cons first before ih =>
      rcases take_ready_cases taken with ⟨_, nothing⟩ | ⟨_, _, _, _, _, rfl, shorter, same⟩
      · cases nothing
      · cases same
        exact ih (sorted.sublist List.erase_sublist) shorter

omit [DecidableEq α] in
theorem exists_first [Finite α] [Nonempty α] {before : α → α → Prop} (acyclic : ∀ item, ¬TransGen before item item) :
    ∃ first, ∀ other, ¬before other first := by
  have : IsTrans α (TransGen before) := ⟨fun _ _ _ => TransGen.trans⟩
  have : Std.Irrefl (TransGen before) := ⟨acyclic⟩
  have founded : WellFounded (TransGen before) := Finite.wellFounded_of_trans_of_irrefl _
  obtain ⟨first, _, least⟩ := founded.has_min Set.univ Set.univ_nonempty
  exact ⟨first, fun other edge => least other trivial (.single edge)⟩

theorem exists_ready (acyclic : ∀ item ∈ left, ¬TransGen (fun source target => source ∈ sources target) item item)
    (remaining : left ≠ []) : ∃ item ∈ left, ready sources left item = true := by
  obtain ⟨some_item, member⟩ := List.exists_mem_of_ne_nil left remaining
  have : Nonempty {item // item ∈ left} := ⟨⟨some_item, member⟩⟩
  have listed_acyclic : ∀ item : {item // item ∈ left},
      ¬TransGen (fun source target : {item // item ∈ left} => source.val ∈ sources target.val) item item :=
    fun item cycle => acyclic item.val item.property (cycle.lift Subtype.val fun _ _ edge => edge)
  obtain ⟨first, free⟩ := exists_first listed_acyclic
  exact ⟨first.val, first.property, ready_iff.mpr fun source edge listed => free ⟨source, listed⟩ edge⟩

theorem take_ready_total (acyclic : ∀ item ∈ left, ¬TransGen (fun source target => source ∈ sources target) item item)
    (enough : left.length ≤ turns) : ∃ order, takeReady sources turns left = some order := by
  induction turns generalizing left with
  | zero =>
      have none_left : left = [] := List.length_eq_zero_iff.mp (Nat.le_zero.mp enough)
      exact ⟨[], by rw [none_left]; rfl⟩
  | succ turns ih =>
      by_cases none_left : left = []
      · exact ⟨[], by rw [none_left]; rfl⟩
      · obtain ⟨item, member, free⟩ := exists_ready acyclic none_left
        have found : (left.find? (ready sources left)).isSome := List.find?_isSome.mpr ⟨item, member, free⟩
        obtain ⟨chosen, found⟩ := Option.isSome_iff_exists.mp found
        have listed := List.mem_of_find?_eq_some found
        have shorter := List.length_erase_of_mem listed
        have remains : ∀ other ∈ left.erase chosen, ¬TransGen (fun source target => source ∈ sources target) other other :=
          fun other inside => acyclic other (List.mem_of_mem_erase inside)
        obtain ⟨later, taken⟩ := ih remains (by omega)
        exact ⟨chosen :: later, by rw [take_ready_cons found, taken, Option.map_some]⟩

theorem topological_order_total
    (acyclic : ∀ item ∈ items, ¬TransGen (fun source target => source ∈ sources target) item item) :
    ∃ order, topologicalOrder sources items = some order := take_ready_total acyclic (Nat.le_refl _)

end TopologicalOrder

section OnPath

variable {α : Type} {edge : α → α → Prop} {start finish item : α}

def Walks (edge : α → α → Prop) (start finish : α) (walk : List α) : Prop :=
  walk.head? = some start ∧ walk.getLast? = some finish ∧ walk.IsChain edge

theorem walk_of_reach (path : ReflTransGen edge start finish) : ∃ walk, Walks edge start finish walk := by
  obtain ⟨rest, chain, last⟩ := List.exists_isChain_cons_of_relationReflTransGen path
  refine ⟨start :: rest, rfl, ?_, chain⟩
  rw [List.getLast?_eq_some_getLast (List.cons_ne_nil start rest), last]

theorem reach_end {walk : List α} (starts : walk.head? = some start) (ends : walk.getLast? = some finish)
    (chain : walk.IsChain edge) : ReflTransGen edge start finish := by
  induction walk generalizing start with
  | nil => cases starts
  | cons first rest ih =>
      obtain rfl : first = start := Option.some.inj starts
      cases rest with
      | nil =>
          obtain rfl : first = finish := Option.some.inj ends
          exact .refl
      | cons second rest =>
          obtain ⟨step, chain⟩ := List.isChain_cons_cons.mp chain
          rw [List.getLast?_cons_cons] at ends
          exact .head step (ih rfl ends chain)

theorem reach_in_walk {walk : List α} (walks : Walks edge start finish walk) (member : item ∈ walk) :
    ReflTransGen edge start item ∧ ReflTransGen edge item finish := by
  obtain ⟨starts, ends, chain⟩ := walks
  induction walk generalizing start with
  | nil => cases starts
  | cons first rest ih =>
      obtain rfl : first = start := Option.some.inj starts
      cases rest with
      | nil =>
          obtain rfl := List.mem_singleton.mp member
          obtain rfl : item = finish := Option.some.inj ends
          exact ⟨.refl, .refl⟩
      | cons second rest =>
          obtain ⟨step, onward⟩ := List.isChain_cons_cons.mp chain
          rw [List.getLast?_cons_cons] at ends
          rcases List.mem_cons.mp member with here | later
          · subst here
            exact ⟨.refl, .head step (reach_end rfl ends onward)⟩
          · obtain ⟨before, after⟩ := ih later rfl ends onward
            exact ⟨.head step before, after⟩

theorem on_walk_iff : (∃ walk, Walks edge start finish walk ∧ item ∈ walk) ↔
    ReflTransGen edge start item ∧ ReflTransGen edge item finish := by
  constructor
  · rintro ⟨walk, walks, member⟩
    exact reach_in_walk walks member
  · rintro ⟨before, after⟩
    obtain ⟨first, starts, ends, chain⟩ := walk_of_reach before
    obtain ⟨rest, later, last⟩ := List.exists_isChain_cons_of_relationReflTransGen after
    obtain ⟨front, rfl⟩ := List.getLast?_eq_some_iff.mp ends
    have joined : (front ++ item :: rest).IsChain edge := by
      rw [List.isChain_split]
      exact ⟨chain, later⟩
    refine ⟨front ++ item :: rest, ⟨?_, ?_, joined⟩, by simp⟩
    · cases front with
      | nil => exact starts
      | cons head tail => exact starts
    · rw [List.getLast?_append, List.getLast?_eq_some_getLast (List.cons_ne_nil item rest), last, Option.some_or]

end OnPath

end MicroWorkflow.Lib
