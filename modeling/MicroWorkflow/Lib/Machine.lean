import Mathlib.Logic.Relation

set_option autoImplicit false

namespace MicroWorkflow.Lib

section Machine

variable {σ lbl : Type}

inductive Run (step : σ → lbl → σ → Prop) : σ → List lbl → σ → Prop where
  | nil (s : σ) : Run step s [] s
  | snoc {s t u : σ} {labels : List lbl} {label : lbl} :
      Run step s labels t → step t label u → Run step s (labels ++ [label]) u

variable {step : σ → lbl → σ → Prop} {s t u : σ} {labels more : List lbl}

theorem Run.invariant {Inv : σ → Prop} (run : Run step s labels t) (initial : Inv s)
    (preserved : ∀ {a b : σ} {label : lbl}, Inv a → step a label b → Inv b) : Inv t := by
  induction run with
  | nil => exact initial
  | snoc _ last ih => exact preserved ih last

theorem Run.invariant_of_labels {Inv : σ → Prop} {Good : lbl → Prop} (run : Run step s labels t)
    (good : ∀ label ∈ labels, Good label) (initial : Inv s)
    (preserved : ∀ {a b : σ} {label : lbl}, Inv a → Good label → step a label b → Inv b) : Inv t := by
  induction run with
  | nil => exact initial
  | snoc _ last ih =>
      refine preserved (ih ?_) (good _ (by simp)) last
      exact fun label member => good label (by simp [member])

theorem Run.imp {wider : σ → lbl → σ → Prop} (run : Run step s labels t)
    (allowed : ∀ {a b : σ} {label : lbl}, step a label b → wider a label b) : Run wider s labels t := by
  induction run with
  | nil => exact .nil _
  | snoc _ last ih => exact .snoc ih (allowed last)

theorem Run.append (first : Run step s labels t) (second : Run step t more u) :
    Run step s (labels ++ more) u := by
  induction second with
  | nil => simpa using first
  | snoc _ last ih =>
      rw [← List.append_assoc]
      exact .snoc ih last

theorem Run.of_fold {next : σ → lbl → Option σ} (computed : labels.foldlM next s = some t) :
    Run (fun before label after => next before label = some after) s labels t := by
  induction labels generalizing s with
  | nil =>
      cases computed
      exact .nil _
  | cons label rest ih =>
      rw [List.foldlM_cons] at computed
      obtain ⟨after, first, later⟩ := Option.bind_eq_some_iff.mp computed
      exact (Run.snoc (.nil s) first).append (ih later)

theorem Run.of_guarded_fold {next : σ → lbl → Option σ} {Allowed : σ → lbl → Prop} [∀ s label, Decidable (Allowed s label)]
    (computed : labels.foldlM (fun s label => if Allowed s label then next s label else none) s = some t) :
    Run (fun before label after => Allowed before label ∧ next before label = some after) s labels t := by
  refine (Run.of_fold computed).imp fun {before after label} moved => ?_
  by_cases allowed : Allowed before label
  · rw [if_pos allowed] at moved
    exact ⟨allowed, moved⟩
  · rw [if_neg allowed] at moved
    cases moved

theorem Run.bounded {Inv : σ → Prop} {Good : lbl → Prop} {work : σ → Nat} (run : Run step s labels t)
    (good : ∀ label ∈ labels, Good label) (initial : Inv s)
    (preserved : ∀ {a b : σ} {label : lbl}, Inv a → Good label → step a label b → Inv b)
    (used : ∀ {a b : σ} {label : lbl}, Inv a → Good label → step a label b → work b < work a) :
    work t + labels.length ≤ work s := by
  induction run with
  | nil => exact Nat.le_refl _
  | snoc earlier last ih =>
      have before : ∀ label ∈ _, Good label := fun label member => good label (List.mem_append_left _ member)
      have reached := earlier.invariant_of_labels before initial preserved
      have spent := used reached (good _ (List.mem_append_right _ List.mem_cons_self)) last
      have rest := ih before
      rw [List.length_append, List.length_singleton]
      omega

end Machine

end MicroWorkflow.Lib
