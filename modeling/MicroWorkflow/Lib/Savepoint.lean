import MicroWorkflow.Lib.Guarded

set_option autoImplicit false

namespace MicroWorkflow.Lib

variable {σ ι β ε : Type}

def attempt (operation : σ → ι → Except ε (β × σ)) (state : σ) (item : ι) : Except ε β × σ :=
  match operation state item with
  | .ok (value, next) => (.ok value, next)
  | .error error => (.error error, state)

def inTurn (operation : σ → ι → Except ε (β × σ)) : σ → List ι → List (Except ε β) × σ
  | state, [] => ([], state)
  | state, item :: rest =>
      let first := attempt operation state item
      let later := inTurn operation first.2 rest
      (first.1 :: later.1, later.2)

variable {operation other : σ → ι → Except ε (β × σ)} {state : σ} {item : ι} {items : List ι}

theorem attempt_ok {value : β} {next : σ} (done : operation state item = .ok (value, next)) :
    attempt operation state item = (.ok value, next) := by
  simp only [attempt, done]

theorem attempt_error {error : ε} (failed : operation state item = .error error) :
    attempt operation state item = (.error error, state) := by
  simp only [attempt, failed]

theorem in_turn_append (earlier later : List ι) :
    inTurn operation state (earlier ++ later) =
      ((inTurn operation state earlier).1 ++ (inTurn operation (inTurn operation state earlier).2 later).1,
        (inTurn operation (inTurn operation state earlier).2 later).2) := by
  induction earlier generalizing state with
  | nil => rfl
  | cons item rest ih =>
      simp only [List.cons_append, inTurn]
      rw [ih]

theorem in_turn_length : (inTurn operation state items).1.length = items.length := by
  induction items generalizing state with
  | nil => rfl
  | cons item rest ih =>
      simp only [inTurn, List.length_cons]
      rw [ih]

theorem in_turn_congr (same : ∀ current, ∀ item ∈ items, operation current item = other current item) :
    inTurn operation state items = inTurn other state items := by
  induction items generalizing state with
  | nil => rfl
  | cons item rest ih =>
      have first : attempt operation state item = attempt other state item := by
        simp only [attempt, same state item List.mem_cons_self]
      simp only [inTurn, first]
      rw [ih fun current item member => same current item (List.mem_cons_of_mem _ member)]

theorem in_turn_invariant {motive : σ → Prop} (initial : motive state)
    (step : ∀ current next value, ∀ item ∈ items, motive current → operation current item = .ok (value, next) →
      motive next) : motive (inTurn operation state items).2 := by
  induction items generalizing state with
  | nil => exact initial
  | cons item rest ih =>
      have kept : motive (attempt operation state item).2 := by
        cases done : operation state item with
        | error error => rwa [attempt_error done]
        | ok answer =>
            obtain ⟨value, next⟩ := answer
            rw [attempt_ok done]
            exact step state next value item List.mem_cons_self initial done
      exact ih kept fun current next value item member =>
        step current next value item (List.mem_cons_of_mem _ member)

end MicroWorkflow.Lib
