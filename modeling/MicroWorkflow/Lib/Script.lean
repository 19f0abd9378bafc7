set_option autoImplicit false

-- Programs over a state that survives the process: at every primitive the run may go on, fail before it,
-- fail just after it, or stop for good. A handler sees a failure and never a stop.
namespace MicroWorkflow.Lib

inductive Fate where
  | proceed
  | fail (reason : String)
  | late (reason : String)
  | stop
deriving DecidableEq, Repr

inductive Outcome (α : Type) where
  | done (value : α)
  | raised (reason : String)
  | stopped
deriving DecidableEq, Repr

structure Ended (σ α : Type) where
  outcome : Outcome α
  state : σ
  fates : List Fate

def Script (σ α : Type) : Type := List Fate → σ → Ended σ α

namespace Script

variable {σ α β : Type}

instance : Monad (Script σ) where
  pure value := fun fates state => ⟨.done value, state, fates⟩
  bind first next := fun fates state =>
    match first fates state with
    | ⟨.done value, later, rest⟩ => next value rest later
    | ⟨.raised reason, later, rest⟩ => ⟨.raised reason, later, rest⟩
    | ⟨.stopped, later, rest⟩ => ⟨.stopped, later, rest⟩

def act (primitive : σ → Except String (α × σ)) : Script σ α := fun fates state =>
  match fates with
  | .fail reason :: rest => ⟨.raised reason, state, rest⟩
  | .stop :: rest => ⟨.stopped, state, rest⟩
  | .late reason :: rest =>
      match primitive state with
      | .error refused => ⟨.raised refused, state, rest⟩
      | .ok (_, later) => ⟨.raised reason, later, rest⟩
  | .proceed :: rest =>
      match primitive state with
      | .error refused => ⟨.raised refused, state, rest⟩
      | .ok (value, later) => ⟨.done value, later, rest⟩
  | [] =>
      match primitive state with
      | .error refused => ⟨.raised refused, state, []⟩
      | .ok (value, later) => ⟨.done value, later, []⟩

def change (primitive : σ → Except String σ) : Script σ Unit :=
  act fun state => (primitive state).map fun later => ((), later)

def observe (read : σ → Except String α) : Script σ α :=
  act fun state => (read state).map fun value => (value, state)

def forEach (body : α → Script σ Unit) : List α → Script σ Unit
  | [] => pure ()
  | item :: rest => do
      body item
      forEach body rest

def onRaise (body : Script σ α) (handler : Script σ Unit) : Script σ α := fun fates state =>
  match body fates state with
  | ⟨.raised reason, later, rest⟩ =>
      match handler rest later with
      | ⟨.stopped, final, left⟩ => ⟨.stopped, final, left⟩
      | ⟨_, final, left⟩ => ⟨.raised reason, final, left⟩
  | ended => ended

def attempt (body : Script σ Unit) : Script σ Unit := fun fates state =>
  match body fates state with
  | ⟨.raised _, later, rest⟩ => ⟨.done (), later, rest⟩
  | ended => ended

section Meets

variable {before : σ → Prop} {after : Outcome α → σ → Prop}

def Meets (before : σ → Prop) (script : Script σ α) (after : Outcome α → σ → Prop) : Prop :=
  ∀ fates state, before state → after (script fates state).outcome (script fates state).state

def andThen (middle : α → σ → Prop) (after : Outcome β → σ → Prop) : Outcome α → σ → Prop
  | .done value, state => middle value state
  | .raised reason, state => after (.raised reason) state
  | .stopped, state => after .stopped state

theorem meets_weaken {stronger : σ → Prop} {weaker : Outcome α → σ → Prop} {script : Script σ α}
    (met : Meets before script after) (pre : ∀ state, stronger state → before state)
    (post : ∀ outcome state, after outcome state → weaker outcome state) : Meets stronger script weaker :=
  fun fates state holds => post _ _ (met fates state (pre state holds))

theorem meets_bind (middle : α → σ → Prop) {first : Script σ α} {next : α → Script σ β}
    {after : Outcome β → σ → Prop} (met : Meets before first (andThen middle after))
    (later : ∀ value, Meets (middle value) (next value) after) : Meets before (first >>= next) after := by
  intro fates state start
  have here := met fates state start
  show after (bind first next fates state).outcome (bind first next fates state).state
  simp only [bind]
  rcases ended : first fates state with ⟨outcome, state', rest⟩
  rw [ended] at here
  cases outcome with
  | done value => exact later value rest state' here
  | raised reason => exact here
  | stopped => exact here

theorem meets_act {primitive : σ → Except String (α × σ)}
    (refused : ∀ state reason, before state → after (.raised reason) state)
    (stopped : ∀ state, before state → after .stopped state)
    (moved : ∀ state value later, before state → primitive state = .ok (value, later) →
      after (.done value) later ∧ ∀ reason, after (.raised reason) later) :
    Meets before (act primitive) after := by
  intro fates state start
  unfold act
  split
  · exact refused state _ start
  · exact stopped state start
  · split
    · exact refused state _ start
    · rename_i ok
      exact (moved state _ _ start ok).2 _
  · split
    · exact refused state _ start
    · rename_i ok
      exact (moved state _ _ start ok).1
  · split
    · exact refused state _ start
    · rename_i ok
      exact (moved state _ _ start ok).1

theorem meets_change {primitive : σ → Except String σ} {after : Outcome Unit → σ → Prop}
    (refused : ∀ state reason, before state → after (.raised reason) state)
    (stopped : ∀ state, before state → after .stopped state)
    (moved : ∀ state later, before state → primitive state = .ok later →
      after (.done ()) later ∧ ∀ reason, after (.raised reason) later) :
    Meets before (change primitive) after := by
  refine meets_act refused stopped fun state value later start ok => ?_
  cases step : primitive state with
  | error reason => simp [step, Except.map] at ok
  | ok result =>
      simp only [step, Except.map, Except.ok.injEq, Prod.mk.injEq] at ok
      obtain ⟨_, rfl⟩ := ok
      exact moved state result start step

theorem meets_observe {read : σ → Except String α}
    (refused : ∀ state reason, before state → after (.raised reason) state)
    (stopped : ∀ state, before state → after .stopped state)
    (seen : ∀ state value, before state → read state = .ok value → after (.done value) state) :
    Meets before (observe read) after := by
  refine meets_act refused stopped fun state value later start ok => ?_
  cases step : read state with
  | error reason => simp [step, Except.map] at ok
  | ok result =>
      simp only [step, Except.map, Except.ok.injEq, Prod.mk.injEq] at ok
      obtain ⟨rfl, rfl⟩ := ok
      exact ⟨seen state result start step, fun reason => refused state reason start⟩

theorem meets_onRaise (failed : String → σ → Prop) {body : Script σ α} {handler : Script σ Unit}
    (met : Meets before body fun outcome state =>
      match outcome with
      | .done value => after (.done value) state
      | .raised reason => failed reason state
      | .stopped => after .stopped state)
    (handled : ∀ reason, Meets (failed reason) handler fun outcome state =>
      match outcome with
      | .done _ => after (.raised reason) state
      | .raised _ => after (.raised reason) state
      | .stopped => after .stopped state) : Meets before (onRaise body handler) after := by
  intro fates state start
  have here := met fates state start
  unfold onRaise
  rcases ended : body fates state with ⟨outcome, state', rest⟩
  rw [ended] at here
  cases outcome with
  | done value => exact here
  | stopped => exact here
  | raised reason =>
      have there := handled reason rest state' here
      rcases result : handler rest state' with ⟨final, state'', left⟩
      rw [result] at there
      cases final with
      | done value => simpa [result] using there
      | raised noted => simpa [result] using there
      | stopped => simpa [result] using there

end Meets

section Keeps

variable {invariant : σ → Prop}

def Keeps (invariant : σ → Prop) (script : Script σ α) : Prop := Meets invariant script fun _ => invariant

theorem keeps_pure (value : α) : Keeps invariant (pure value : Script σ α) := fun _ _ start => start

theorem keeps_bind {first : Script σ α} {next : α → Script σ β} (left : Keeps invariant first)
    (right : ∀ value, Keeps invariant (next value)) : Keeps invariant (first >>= next) := by
  refine meets_bind (fun _ => invariant) (meets_weaken left (fun _ start => start) ?_) right
  intro outcome state held
  cases outcome <;> exact held

theorem keeps_observe {read : σ → Except String α} : Keeps invariant (observe read) :=
  meets_observe (fun _ _ start => start) (fun _ start => start) fun _ _ start _ => start

theorem keeps_read {read : σ → Except String α} {next : α → Script σ β}
    (right : ∀ value state, invariant state → read state = .ok value → Keeps invariant (next value)) :
    Keeps invariant (observe read >>= next) := by
  refine meets_bind (fun value state => invariant state ∧ Keeps invariant (next value))
    (meets_observe (fun _ _ start => start) (fun _ start => start) fun state value start seen =>
      ⟨start, right value state start seen⟩) fun value fates state start => ?_
  exact start.2 fates state start.1

theorem keeps_checked {read : σ → Except String α} {next : α → Script σ β}
    (right : ∀ value, Meets (fun state => invariant state ∧ read state = .ok value) (next value) fun _ => invariant) :
    Keeps invariant (observe read >>= next) :=
  meets_bind (fun value state => invariant state ∧ read state = .ok value)
    (meets_observe (fun _ _ start => start) (fun _ start => start) fun _ _ start seen => ⟨start, seen⟩) right

theorem meets_then_keeps {before : σ → Prop} {first : Script σ α} {next : α → Script σ β}
    (left : Meets before first fun _ => invariant) (right : ∀ value, Keeps invariant (next value)) :
    Meets before (first >>= next) fun _ => invariant := by
  refine meets_bind (fun _ => invariant) (meets_weaken left (fun _ start => start) ?_) right
  intro outcome state held
  cases outcome <;> exact held

theorem meets_step {before : σ → Prop} {primitive : σ → Except String σ} (weaker : ∀ state, before state → invariant state)
    (preserved : ∀ state later, before state → primitive state = .ok later → invariant later) :
    Meets before (change primitive) fun _ => invariant :=
  meets_change (fun state _ start => weaker state start) (fun state start => weaker state start) fun state later start ok =>
    ⟨preserved state later start ok, fun _ => preserved state later start ok⟩

theorem meets_check {before : σ → Prop} {read : σ → Except String α} {next : α → Script σ β}
    (weaker : ∀ state, before state → invariant state) (right : ∀ value, Meets before (next value) fun _ => invariant) :
    Meets before (observe read >>= next) fun _ => invariant :=
  meets_bind (fun _ => before)
    (meets_observe (fun state _ start => weaker state start) (fun state start => weaker state start) fun _ _ start _ => start)
    right

theorem keeps_change {primitive : σ → Except String σ}
    (preserved : ∀ state later, invariant state → primitive state = .ok later → invariant later) :
    Keeps invariant (change primitive) :=
  meets_change (fun _ _ start => start) (fun _ start => start) fun state later start ok =>
    ⟨preserved state later start ok, fun _ => preserved state later start ok⟩

theorem keeps_forEach {body : α → Script σ Unit} {items : List α}
    (each : ∀ item ∈ items, Keeps invariant (body item)) : Keeps invariant (forEach body items) := by
  induction items with
  | nil => exact keeps_pure ()
  | cons item rest ih =>
      exact keeps_bind (each item List.mem_cons_self) fun _ => ih fun other inside => each other (List.mem_cons_of_mem _ inside)

theorem keeps_onRaise {body : Script σ α} {handler : Script σ Unit} (left : Keeps invariant body)
    (right : Keeps invariant handler) : Keeps invariant (onRaise body handler) := by
  refine meets_onRaise (fun _ => invariant) (meets_weaken left (fun _ start => start) ?_) fun reason =>
    meets_weaken right (fun _ start => start) ?_
  · intro outcome state held
    cases outcome <;> exact held
  · intro outcome state held
    cases outcome <;> exact held

theorem keeps_attempt {body : Script σ Unit} (kept : Keeps invariant body) : Keeps invariant (attempt body) := by
  intro fates state start
  have here := kept fates state start
  unfold attempt
  rcases ended : body fates state with ⟨outcome, state', rest⟩
  rw [ended] at here
  cases outcome <;> exact here

end Keeps

theorem refused_at_once {read : σ → Except String α} {next : α → Script σ β} {state : σ}
    (refused : ∀ value, read state ≠ .ok value) (fates : List Fate) :
    ((observe read >>= next) fates state).state = state ∧
      ∀ value, ((observe read >>= next) fates state).outcome ≠ .done value := by
  cases seen : read state with
  | ok value => exact absurd seen (refused value)
  | error reason =>
      cases fates with
      | nil => simp [bind, observe, act, seen, Except.map]
      | cons fate rest => cases fate <;> simp [bind, observe, act, seen, Except.map]

section Completes

def Completes (script : Script σ α) (state : σ) (value : α) (final : σ) : Prop :=
  script [] state = ⟨.done value, final, []⟩

theorem completes_pure (value : α) (state : σ) : Completes (pure value : Script σ α) state value state := rfl

theorem completes_bind {first : Script σ α} {next : α → Script σ β} {start middle final : σ} {value : α} {result : β}
    (left : Completes first start value middle) (right : Completes (next value) middle result final) :
    Completes (first >>= next) start result final := by
  unfold Completes at *
  simp only [bind, left, right]

theorem completes_then {first : Script σ Unit} {next : Unit → Script σ β} {start middle final : σ} {result : β}
    (left : Completes first start () middle) (right : Completes (next ()) middle result final) :
    Completes (first >>= next) start result final :=
  completes_bind left right

theorem completes_observe {read : σ → Except String α} {state : σ} {value : α} (seen : read state = .ok value) :
    Completes (observe read) state value state := by
  simp [Completes, observe, act, seen, Except.map]

theorem completes_change {primitive : σ → Except String σ} {state final : σ} (step : primitive state = .ok final) :
    Completes (change primitive) state () final := by
  simp [Completes, change, act, step, Except.map]

theorem completes_onRaise {body : Script σ α} {handler : Script σ Unit} {start final : σ} {value : α}
    (done : Completes body start value final) : Completes (onRaise body handler) start value final := by
  unfold Completes at *
  simp [onRaise, done]

def Steady (script : Script σ α) : Prop :=
  ∀ fates state value, (script fates state).outcome = .done value →
    Completes script state value (script fates state).state

theorem steady_pure (value : α) : Steady (pure value : Script σ α) := by
  intro fates state result done
  cases done
  rfl

theorem steady_bind {first : Script σ α} {next : α → Script σ β} (left : Steady first)
    (right : ∀ value, Steady (next value)) : Steady (first >>= next) := by
  intro fates state result done
  have step : ∀ ended, first fates state = ended → Completes (first >>= next) state result
      ((first >>= next) fates state).state := by
    rintro ⟨outcome, middle, rest⟩ ended
    have here := left fates state
    rw [ended] at here
    simp only [bind, ended] at done ⊢
    cases outcome with
    | done value => exact completes_bind (here value rfl) (right value rest middle result done)
    | raised reason => cases done
    | stopped => cases done
  exact step _ rfl

theorem steady_act {primitive : σ → Except String (α × σ)} : Steady (act primitive) := by
  intro fates state value done
  unfold Completes
  cases step : primitive state with
  | error refused =>
      cases fates with
      | nil => simp [act, step] at done
      | cons fate rest => cases fate <;> simp [act, step] at done
  | ok moved =>
      cases fates with
      | nil => simpa [act, step] using done
      | cons fate rest => cases fate <;> simp_all [act]

theorem steady_observe {read : σ → Except String α} : Steady (observe read) := steady_act

theorem steady_change {primitive : σ → Except String σ} : Steady (change primitive) := steady_act

theorem steady_forEach {body : α → Script σ Unit} {items : List α} (each : ∀ item, Steady (body item)) :
    Steady (forEach body items) := by
  induction items with
  | nil => exact steady_pure ()
  | cons item rest ih => exact steady_bind (each item) fun _ => ih

theorem steady_onRaise {body : Script σ α} {handler : Script σ Unit} (steady : Steady body) :
    Steady (onRaise body handler) := by
  intro fates state value done
  have step : ∀ ended, body fates state = ended → Completes (onRaise body handler) state value
      (onRaise body handler fates state).state := by
    rintro ⟨outcome, middle, rest⟩ ended
    have here := steady fates state
    rw [ended] at here
    unfold onRaise at done ⊢
    rw [ended] at done
    rw [ended]
    cases outcome with
    | done result =>
        cases done
        exact completes_onRaise (here value rfl)
    | raised reason =>
        simp only at done
        split at done
        · cases done
        · cases done
    | stopped => cases done
  exact step _ rfl

end Completes

end Script

end MicroWorkflow.Lib
