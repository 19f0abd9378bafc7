import Mathlib.Data.List.Sort

set_option autoImplicit false

namespace MicroWorkflow.Lib

section Ranking

variable {α ρ : Type} [LinearOrder ρ] (rank : α → ρ)

def ranked (items : List α) : List α := items.insertionSort fun first second => rank first ≤ rank second

def smallest (count : Nat) (items : List α) : List α := (ranked rank items).take count

def Apart (items : List α) : Prop := ∀ first ∈ items, ∀ second ∈ items, rank first = rank second → first = second

variable {rank} {items others : List α} {count more : Nat}

theorem ranked_perm : (ranked rank items).Perm items := List.perm_insertionSort ..

theorem ranked_ordered : (ranked rank items).Pairwise fun first second => rank first ≤ rank second := by
  have total : Std.Total fun first second : α => rank first ≤ rank second := ⟨fun first second => le_total _ _⟩
  have trans : IsTrans α fun first second => rank first ≤ rank second := ⟨fun _ _ _ => le_trans⟩
  exact List.pairwise_insertionSort _ items

theorem ranked_of_perm (apart : Apart rank items) (same : others.Perm items) : ranked rank others = ranked rank items := by
  apply List.Perm.eq_of_pairwise _ ranked_ordered ranked_ordered
  · exact ranked_perm.trans (same.trans ranked_perm.symm)
  · intro first second inside listed below above
    exact apart first (same.mem_iff.mp (ranked_perm.mem_iff.mp inside)) second (ranked_perm.mem_iff.mp listed)
      (le_antisymm below above)

theorem smallest_of_perm (apart : Apart rank items) (same : others.Perm items) :
    smallest rank count others = smallest rank count items := by
  rw [smallest, ranked_of_perm apart same, smallest]

theorem smallest_length (enough : count ≤ items.length) : (smallest rank count items).length = count := by
  rw [smallest, List.length_take, ranked_perm.length_eq, Nat.min_eq_left enough]

theorem smallest_sublist (le : count ≤ more) : (smallest rank count items).Sublist (smallest rank more items) :=
  (List.take_prefix_take_left le).sublist

theorem smallest_map_subperm {β : Type} (label : α → β) :
    ((smallest rank count items).map label).Subperm (items.map label) := by
  have taken : (smallest rank count items).Sublist (ranked rank items) := List.take_sublist ..
  exact (taken.map label).subperm.trans (ranked_perm.map label).subperm

end Ranking

end MicroWorkflow.Lib
