import Mathlib.Data.List.Basic

set_option autoImplicit false

namespace MicroWorkflow.Lib

section Rounds

variable {σ : Type} (step : σ → σ) (size : σ → Nat)

def rounds : Nat → σ → σ
  | 0, state => state
  | fuel + 1, state => if size (step state) = size state then step state else rounds fuel (step state)

variable {step size} {state : σ} {fuel bound : Nat}

theorem rounds_invariant (Inv : σ → Prop) (initial : Inv state) (kept : ∀ current, Inv current → Inv (step current)) :
    Inv (rounds step size fuel state) := by
  induction fuel generalizing state with
  | zero => exact initial
  | succ fuel ih =>
      rw [rounds]
      split
      · exact kept state initial
      · exact ih (kept state initial)

theorem rounds_settle {Inv : σ → Prop} (initial : Inv state) (kept : ∀ current, Inv current → Inv (step current))
    (grows : ∀ current, Inv current → size current ≤ size (step current))
    (bounded : ∀ current, Inv current → size current ≤ bound)
    (still : ∀ current, Inv current → size (step current) = size current → step current = current)
    (enough : bound < fuel + size state) :
    step (rounds step size fuel state) = rounds step size fuel state := by
  induction fuel generalizing state with
  | zero =>
      have inside := bounded state initial
      omega
  | succ fuel ih =>
      rw [rounds]
      split
      · rename_i same
        rw [still state initial same, still state initial same]
      · rename_i more
        have longer := grows state initial
        exact ih (kept state initial) (by omega)

end Rounds

end MicroWorkflow.Lib
