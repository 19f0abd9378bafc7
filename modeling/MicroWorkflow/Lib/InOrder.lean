import Mathlib.Data.List.Sort

set_option autoImplicit false

namespace MicroWorkflow.Lib

variable {σ ι β : Type} (run : σ → ι → β × σ)

def inOrder : σ → List ι → List β × σ
  | state, [] => ([], state)
  | state, item :: rest =>
      let first := run state item
      let later := inOrder first.2 rest
      (first.1 :: later.1, later.2)

def Commutes (left right : ι) : Prop :=
  ∀ state, (run (run state left).2 right).1 = (run state right).1 ∧ (run (run state right).2 left).1 = (run state left).1 ∧
    (run (run state left).2 right).2 = (run (run state right).2 left).2

variable {run} {state : σ} {item : ι} {items : List ι}

theorem in_order_append (earlier later : List ι) :
    inOrder run state (earlier ++ later) =
      ((inOrder run state earlier).1 ++ (inOrder run (inOrder run state earlier).2 later).1,
        (inOrder run (inOrder run state earlier).2 later).2) := by
  induction earlier generalizing state with
  | nil => rfl
  | cons item rest ih =>
      simp only [List.cons_append, inOrder]
      rw [ih]

theorem in_order_idle {earlier : List ι} (later : List ι)
    (idle : (run (inOrder run state earlier).2 item).2 = (inOrder run state earlier).2) :
    (inOrder run state (earlier ++ item :: later)).2 = (inOrder run state (earlier ++ later)).2 ∧
      (inOrder run state (earlier ++ item :: later)).1 =
        (inOrder run state earlier).1 ++ (run (inOrder run state earlier).2 item).1 ::
          (inOrder run (inOrder run state earlier).2 later).1 ∧
      (inOrder run state (earlier ++ later)).1 =
        (inOrder run state earlier).1 ++ (inOrder run (inOrder run state earlier).2 later).1 := by
  rw [in_order_append, in_order_append]
  simp only [inOrder, idle]
  exact ⟨trivial, trivial, trivial⟩

section Sorting

variable (order : ι → ι → Prop) [DecidableRel order]

theorem in_order_inserted (state : σ) (free : ∀ other ∈ items, ¬order item other → Commutes run item other) :
    ((inOrder run state (item :: items)).1.Perm (inOrder run state (items.orderedInsert order item)).1) ∧
      (inOrder run state (item :: items)).2 = (inOrder run state (items.orderedInsert order item)).2 := by
  induction items generalizing state with
  | nil => exact ⟨.refl _, rfl⟩
  | cons first rest ih =>
      by_cases before : order item first
      · rw [List.orderedInsert_cons_of_le order rest before]
        exact ⟨.refl _, rfl⟩
      · rw [List.orderedInsert_of_not_le order rest before]
        obtain ⟨firstKept, itemKept, same⟩ := free first List.mem_cons_self before state
        obtain ⟨answers, final⟩ := ih (run state first).2 fun other member =>
          free other (List.mem_cons_of_mem _ member)
        simp only [inOrder] at answers final ⊢
        rw [firstKept, same, ← itemKept]
        exact ⟨(List.Perm.swap _ _ _).trans (answers.cons _), final⟩

theorem in_order_sorted (state : σ) (free : items.Pairwise fun left right => ¬order left right → Commutes run left right) :
    ((inOrder run state items).1.Perm (inOrder run state (items.insertionSort order)).1) ∧
      (inOrder run state items).2 = (inOrder run state (items.insertionSort order)).2 := by
  induction items generalizing state with
  | nil => exact ⟨.refl _, rfl⟩
  | cons first rest ih =>
      obtain ⟨ahead, later⟩ := List.pairwise_cons.mp free
      obtain ⟨answers, final⟩ := ih (run state first).2 later
      have moved := in_order_inserted order state fun other member =>
        ahead other ((List.mem_insertionSort order).mp member)
      rw [List.insertionSort_cons]
      refine ⟨.trans ?_ moved.1, .trans ?_ moved.2⟩
      · exact answers.cons _
      · exact final

end Sorting

end MicroWorkflow.Lib
