import Mathlib.Algebra.Order.Field.Basic
import Mathlib.Algebra.BigOperators.Group.List.Basic
import Mathlib.Data.List.MinMax
import Mathlib.Tactic.Linarith

set_option autoImplicit false

namespace MicroWorkflow.Lib

variable {ι 𝕜 : Type} [Field 𝕜] [LinearOrder 𝕜] [IsStrictOrderedRing 𝕜] {cost : ι → Nat → 𝕜} {cap count other : ι → Nat}
  {names : List ι}

def saving (cost : ι → Nat → 𝕜) (name : ι) (units : Nat) : 𝕜 := cost name units - cost name (units + 1)

structure Diminishing (cost : ι → Nat → 𝕜) : Prop where
  helps : ∀ name units, 1 ≤ units → 0 ≤ saving cost name units
  less : ∀ name units, 1 ≤ units → saving cost name (units + 1) ≤ saving cost name units

def Balanced (cost : ι → Nat → 𝕜) (cap : ι → Nat) (names : List ι) (count : ι → Nat) : Prop :=
  ∀ taken ∈ names, ∀ next ∈ names, 1 < count taken → count next < cap next →
    saving cost next (count next) ≤ saving cost taken (count taken - 1)

omit [IsStrictOrderedRing 𝕜] in
theorem saving_antitone (diminishing : Diminishing cost) (name : ι) {fewer units : Nat} (positive : 1 ≤ fewer)
    (less : fewer ≤ units) : saving cost name units ≤ saving cost name fewer := by
  induction units, less using Nat.le_induction with
  | base => exact le_rfl
  | succ units more ih => exact (diminishing.less name units (positive.trans more)).trans ih

theorem saved_le {rate : 𝕜} {name : ι} {fewer units : Nat} (less : fewer ≤ units)
    (each : ∀ place, fewer ≤ place → place < units → saving cost name place ≤ rate) :
    cost name fewer - cost name units ≤ rate * ((units : 𝕜) - fewer) := by
  induction units, less using Nat.le_induction with
  | base => simp
  | succ units more ih =>
      have before := ih fun place low high => each place low (Nat.lt_succ_of_lt high)
      have last := each units more (Nat.lt_succ_self units)
      rw [saving] at last
      push_cast
      linarith

theorem le_saved {rate : 𝕜} {name : ι} {fewer units : Nat} (less : fewer ≤ units)
    (each : ∀ place, fewer ≤ place → place < units → rate ≤ saving cost name place) :
    rate * ((units : 𝕜) - fewer) ≤ cost name fewer - cost name units := by
  induction units, less using Nat.le_induction with
  | base => simp
  | succ units more ih =>
      have before := ih fun place low high => each place low (Nat.lt_succ_of_lt high)
      have last := each units more (Nat.lt_succ_self units)
      rw [saving] at last
      push_cast
      linarith

omit [IsStrictOrderedRing 𝕜] in
theorem balanced_rate (diminishing : Diminishing cost) (balanced : Balanced cost cap names count) :
    ∃ rate : 𝕜, (∀ name ∈ names, count name < cap name → saving cost name (count name) ≤ rate) ∧
      ∀ name ∈ names, 1 < count name → rate ≤ saving cost name (count name - 1) := by
  by_cases full : ∀ name ∈ names, ¬count name < cap name
  · refine ⟨0, fun name member room => absurd room (full name member), fun name member several => ?_⟩
    exact diminishing.helps name _ (by omega)
  · have someone : names.filter (fun name => count name < cap name) ≠ [] := by
      intro nobody
      refine full fun name member room => ?_
      have inside : name ∈ names.filter fun name => count name < cap name := List.mem_filter.mpr ⟨member, by simpa using room⟩
      rw [nobody] at inside
      cases inside
    obtain ⟨best, member, most⟩ : ∃ best ∈ names.filter (fun name => count name < cap name),
        ∀ name ∈ names.filter (fun name => count name < cap name),
          saving cost name (count name) ≤ saving cost best (count best) := by
      obtain ⟨best, found⟩ : ∃ best,
          (names.filter fun name => count name < cap name).argmax (fun name => saving cost name (count name)) = some best := by
        rw [← Option.ne_none_iff_exists', Ne, List.argmax_eq_none]
        exact someone
      exact ⟨best, List.argmax_mem found, fun name inside => List.le_of_mem_argmax inside found⟩
    obtain ⟨inside, room⟩ := List.mem_filter.mp member
    refine ⟨saving cost best (count best), fun name named vacant => ?_, fun name named several => ?_⟩
    · exact most name (List.mem_filter.mpr ⟨named, by simpa using vacant⟩)
    · exact balanced name named best inside several (by simpa using room)

theorem balanced_optimal (diminishing : Diminishing cost) (balanced : Balanced cost cap names count)
    (positive : ∀ name ∈ names, 1 ≤ count name)
    (bounds : ∀ name ∈ names, 1 ≤ other name ∧ other name ≤ cap name)
    (total : (names.map other).sum = (names.map count).sum) :
    (names.map fun name => cost name (count name)).sum ≤ (names.map fun name => cost name (other name)).sum := by
  obtain ⟨rate, left, taken⟩ := balanced_rate diminishing balanced
  have each : ∀ name ∈ names, cost name (count name) - cost name (other name) ≤ rate * ((other name : 𝕜) - count name) := by
    intro name member
    have bound := bounds name member
    have one := positive name member
    by_cases more : count name ≤ other name
    · by_cases same : count name = other name
      · rw [same]
        simp
      · refine saved_le more fun place low high => ?_
        exact (saving_antitone diminishing name one low).trans (left name member (by omega))
    · have lost := @le_saved _ _ _ _ _ cost rate name (other name) (count name) (by omega) fun place low high => by
        exact (taken name member (by omega)).trans (saving_antitone diminishing name (by omega) (by omega))
      linarith
  have summed : ∀ items : List ι, (∀ name ∈ items, name ∈ names) →
      (items.map fun name => cost name (count name)).sum - (items.map fun name => cost name (other name)).sum ≤
        rate * (((items.map other).sum : 𝕜) - (items.map count).sum) := by
    intro items inside
    induction items with
    | nil => simp
    | cons item rest ih =>
        have first := each item (inside item List.mem_cons_self)
        have later := ih fun name member => inside name (List.mem_cons_of_mem item member)
        simp only [List.map_cons, List.sum_cons]
        simp only [Nat.cast_add]
        linarith
  have whole := summed names fun _ member => member
  rw [total, sub_self, mul_zero] at whole
  linarith

section Step

variable [DecidableEq ι] {chosen : ι}

omit [IsStrictOrderedRing 𝕜] in
theorem balanced_step (diminishing : Diminishing cost) (balanced : Balanced cost cap names count)
    (positive : ∀ name ∈ names, 1 ≤ count name) (member : chosen ∈ names) (room : count chosen < cap chosen)
    (best : ∀ name ∈ names, count name < cap name → saving cost name (count name) ≤ saving cost chosen (count chosen)) :
    Balanced cost cap names (Function.update count chosen (count chosen + 1)) := by
  intro taken takenIn next nextIn several vacant
  have less := diminishing.less chosen (count chosen) (positive chosen member)
  have nextSaves : saving cost next (Function.update count chosen (count chosen + 1) next) ≤ saving cost next (count next) := by
    by_cases here : next = chosen
    · subst next
      rw [Function.update_self]
      exact less
    · rw [Function.update_of_ne here]
  have nextOpen : count next < cap next := by
    by_cases here : next = chosen
    · subst next
      exact room
    · rwa [Function.update_of_ne here] at vacant
  by_cases here : taken = chosen
  · subst taken
    rw [Function.update_self, Nat.add_sub_cancel]
    exact nextSaves.trans (best next nextIn nextOpen)
  · rw [Function.update_of_ne here] at several ⊢
    exact nextSaves.trans (balanced taken takenIn next nextIn several nextOpen)

end Step

end MicroWorkflow.Lib
