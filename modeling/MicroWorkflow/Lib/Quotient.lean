import Mathlib.Logic.Relation

set_option autoImplicit false

namespace MicroWorkflow.Lib

open Relation (ReflTransGen TransGen)

section Quotient

variable {α κ : Type} (step : α → α → Prop)

def Mutual (left right : α) : Prop := ReflTransGen step left right ∧ ReflTransGen step right left

variable {step} {left middle right : α}

theorem Mutual.refl (item : α) : Mutual step item item := ⟨.refl, .refl⟩

theorem Mutual.symm (both : Mutual step left right) : Mutual step right left := ⟨both.2, both.1⟩

theorem Mutual.trans (first : Mutual step left middle) (second : Mutual step middle right) : Mutual step left right :=
  ⟨first.1.trans second.1, second.2.trans first.2⟩

variable (step) in
def QuotientEdge (inside : α → Prop) (classOf : α → κ) (source target : κ) : Prop :=
  source ≠ target ∧ ∃ left right, inside left ∧ inside right ∧ step left right ∧ classOf left = source ∧ classOf right = target

variable {inside : α → Prop} {classOf : α → κ} {source target : κ}

theorem quotient_path (same : ∀ left right, inside left → inside right → (classOf left = classOf right ↔ Mutual step left right))
    (path : TransGen (QuotientEdge step inside classOf) source target) :
    ∀ left right, inside left → inside right → classOf left = source → classOf right = target → ReflTransGen step left right := by
  have edge : ∀ {source target : κ}, QuotientEdge step inside classOf source target →
      ∀ left right, inside left → inside right → classOf left = source → classOf right = target →
        ReflTransGen step left right := by
    rintro _ _ ⟨_, first, last, firstIn, lastIn, joined, rfl, rfl⟩ left right leftIn rightIn leftClass rightClass
    have before := (same left first leftIn firstIn).mp leftClass
    have after := (same last right lastIn rightIn).mp rightClass.symm
    exact (before.1.tail joined).trans after.1
  induction path with
  | single last => exact edge last
  | tail earlier last ih =>
      intro left right leftIn rightIn leftClass rightClass
      have ⟨_, middle, _, middleIn, _, _, middleClass, _⟩ := last
      exact (ih left middle leftIn middleIn leftClass middleClass).trans
        (edge last middle right middleIn rightIn middleClass rightClass)

theorem quotient_acyclic (same : ∀ left right, inside left → inside right →
    (classOf left = classOf right ↔ Mutual step left right))
    (source : κ) : ¬TransGen (QuotientEdge step inside classOf) source source := by
  intro cycle
  obtain ⟨target, first, back⟩ := Relation.TransGen.head'_iff.mp cycle
  obtain ⟨different, left, right, leftIn, rightIn, joined, leftClass, rightClass⟩ := first
  have returns : ReflTransGen step right left := by
    rcases Relation.reflTransGen_iff_eq_or_transGen.mp back with equal | path
    · exact absurd equal different
    · exact quotient_path same path right left rightIn leftIn rightClass leftClass
  have joinedClass := (same left right leftIn rightIn).mpr ⟨.single joined, returns⟩
  exact different (leftClass.symm.trans (joinedClass.trans rightClass))

end Quotient

end MicroWorkflow.Lib
