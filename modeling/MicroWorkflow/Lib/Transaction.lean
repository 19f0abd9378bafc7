import MicroWorkflow.Lib.Guarded

set_option autoImplicit false

namespace MicroWorkflow.Lib

section Transaction

variable {σ ε α β : Type}

def inspect (read : σ → Except ε α) : EStateM ε σ α := fun state =>
  match read state with
  | .ok value => .ok value state
  | .error error => .error error state

def statement (write : σ → Except ε σ) : EStateM ε σ Unit := fun state =>
  match write state with
  | .ok next => .ok () next
  | .error error => .error error state

def transaction (writer : EStateM ε σ α) : EStateM ε σ α := fun state =>
  match writer state with
  | .ok value next => .ok value next
  | .error error _ => .error error state

variable {writer : EStateM ε σ α} {state next : σ} {value : α} {error : ε}

theorem writer_bind_ok {f : α → EStateM ε σ β} {result : β} :
    (writer >>= f) state = .ok result next ↔ ∃ value mid, writer state = .ok value mid ∧ f value mid = .ok result next := by
  show EStateM.bind writer f state = _ ↔ _
  unfold EStateM.bind
  cases writer state with
  | ok value mid => simp
  | error error mid => simp

theorem writer_pure_ok {result : α} :
    (pure value : EStateM ε σ α) state = .ok result next ↔ value = result ∧ state = next := by
  show EStateM.pure value state = _ ↔ _
  simp [EStateM.pure]

theorem inspect_ok {read : σ → Except ε α} :
    inspect read state = .ok value next ↔ read state = .ok value ∧ state = next := by
  unfold inspect
  cases read state with
  | ok found => simp
  | error error => simp

theorem statement_ok {write : σ → Except ε σ} {done : Unit} :
    statement write state = .ok done next ↔ write state = .ok next := by
  unfold statement
  cases write state <;> simp

theorem transaction_ok : transaction writer state = .ok value next ↔ writer state = .ok value next := by
  unfold transaction
  cases writer state <;> simp

theorem transaction_error (failed : transaction writer state = .error error next) : next = state := by
  unfold transaction at failed
  cases ran : writer state with
  | ok value mid => simp [ran] at failed
  | error error mid =>
      simp only [ran, EStateM.Result.error.injEq] at failed
      exact failed.2.symm

end Transaction

end MicroWorkflow.Lib
