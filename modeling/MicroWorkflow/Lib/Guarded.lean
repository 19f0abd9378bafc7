import Mathlib.Data.List.Forall2

set_option autoImplicit false

namespace MicroWorkflow.Lib

section Guarded

variable {ε α β : Type}

def require (condition : Bool) (error : ε) : Except ε Unit :=
  if condition then .ok () else .error error

def refuse (condition : Bool) (error : ε) : Except ε Unit :=
  if condition then .error error else .ok ()

def orRaise (value : Option α) (error : ε) : Except ε α :=
  match value with
  | some found => .ok found
  | none => .error error

def each (action : α → Except ε Unit) : List α → Except ε Unit
  | [] => .ok ()
  | item :: rest =>
      match action item with
      | .error error => .error error
      | .ok () => each action rest

def collect (action : α → Except ε β) : List α → Except ε (List β)
  | [] => .ok []
  | item :: rest =>
      match action item with
      | .error error => .error error
      | .ok value =>
          match collect action rest with
          | .error error => .error error
          | .ok values => .ok (value :: values)

def thread (action : β → α → Except ε β) (state : β) : List α → Except ε β
  | [] => .ok state
  | item :: rest =>
      match action state item with
      | .error error => .error error
      | .ok next => thread action next rest

@[simp] theorem bind_ok {x : Except ε α} {f : α → Except ε β} {result : β} :
    (x >>= f) = .ok result ↔ ∃ value, x = .ok value ∧ f value = .ok result := by
  cases x with
  | error error => simp [bind, Except.bind]
  | ok value => simp [bind, Except.bind]

theorem map_ok {x : Except ε α} {f : α → β} {result : β} :
    x.map f = .ok result ↔ ∃ value, x = .ok value ∧ f value = result := by
  cases x <;> simp [Except.map]

theorem map_bind {γ : Type} {x : Except ε α} {f : α → Except ε β} {g : β → γ} :
    (x >>= f).map g = x >>= fun value => (f value).map g := by
  cases x <;> rfl

@[simp] theorem pure_ok {value result : α} : (pure value : Except ε α) = .ok result ↔ value = result := by
  simp [pure, Except.pure]

@[simp] theorem throw_ok {error : ε} {result : α} : ¬ (throw error : Except ε α) = .ok result := by
  simp [throw, throwThe, MonadExceptOf.throw]

@[simp] theorem require_ok {condition : Bool} {error : ε} {result : Unit} :
    require condition error = .ok result ↔ condition = true := by
  cases condition <;> simp [require]

@[simp] theorem refuse_ok {condition : Bool} {error : ε} {result : Unit} :
    refuse condition error = .ok result ↔ condition = false := by
  cases condition <;> simp [refuse]

@[simp] theorem orRaise_ok {value : Option α} {error : ε} {result : α} :
    orRaise value error = .ok result ↔ value = some result := by
  cases value <;> simp [orRaise]

theorem orRaise_some_bind {value : α} {error : ε} {f : α → Except ε β} : (orRaise (some value) error >>= f) = f value := rfl

def valueOr (x : Except ε α) (fallback : α) : α :=
  match x with
  | .ok value => value
  | .error _ => fallback

theorem ok_valueOr {x : Except ε α} {fallback : α} (accepted : x.isOk = true) : x = .ok (valueOr x fallback) := by
  cases x with
  | error error => exact absurd accepted (by simp [Except.isOk, Except.toBool])
  | ok value => rfl

theorem each_ok {action : α → Except ε Unit} {items : List α} {result : Unit} :
    each action items = .ok result ↔ ∀ item ∈ items, action item = .ok () := by
  induction items with
  | nil => simp [each]
  | cons item rest ih =>
      cases step : action item with
      | error error => simp [each, step]
      | ok value => simp [each, step, ih]

theorem collect_ok {action : α → Except ε β} {items : List α} {values : List β} :
    collect action items = .ok values ↔
      List.Forall₂ (fun item value => action item = .ok value) items values := by
  induction items generalizing values with
  | nil => simp [collect, List.forall₂_nil_left_iff, eq_comm]
  | cons item rest ih =>
      rw [List.forall₂_cons_left_iff]
      cases step : action item with
      | error error => simp [collect, step]
      | ok value =>
          cases later : collect action rest with
          | error error =>
              simp only [collect, step, later, reduceCtorEq, Except.ok.injEq, ← ih, false_and, and_false,
                exists_false]
          | ok found =>
              simp only [collect, step, later, Except.ok.injEq, ← ih]
              constructor
              · rintro rfl
                exact ⟨value, found, rfl, rfl, rfl⟩
              · rintro ⟨_, _, rfl, rfl, rfl⟩
                rfl

theorem mem_of_collect {action : α → Except ε β} {items : List α} {values : List β}
    (collected : collect action items = .ok values) :
    (∀ value ∈ values, ∃ item ∈ items, action item = .ok value) ∧
      ∀ item ∈ items, ∃ value ∈ values, action item = .ok value := by
  have related := collect_ok.mp collected
  clear collected
  induction related with
  | nil => exact ⟨fun _ member => absurd member (by simp), fun _ member => absurd member (by simp)⟩
  | cons step _ ih =>
      obtain ⟨back, forth⟩ := ih
      constructor
      · intro value member
        rcases List.mem_cons.mp member with rfl | later
        · exact ⟨_, List.mem_cons_self, step⟩
        · obtain ⟨item, inside, done⟩ := back value later
          exact ⟨item, List.mem_cons_of_mem _ inside, done⟩
      · intro item member
        rcases List.mem_cons.mp member with rfl | later
        · exact ⟨_, List.mem_cons_self, step⟩
        · obtain ⟨value, inside, done⟩ := forth item later
          exact ⟨value, List.mem_cons_of_mem _ inside, done⟩

theorem each_one {action : α → Except ε Unit} {item : α} : each action [item] = action item := by
  rw [each]
  cases action item with
  | error error => rfl
  | ok value => rfl

theorem each_error {action : α → Except ε Unit} {items : List α} {error : ε} (failed : each action items = .error error) :
    ∃ item ∈ items, action item = .error error := by
  induction items with
  | nil => cases failed
  | cons item rest ih =>
      cases step : action item with
      | error other =>
          rw [each, step] at failed
          exact ⟨item, List.mem_cons_self, step.trans failed⟩
      | ok value =>
          rw [each, step] at failed
          obtain ⟨later, inside, stopped⟩ := ih failed
          exact ⟨later, List.mem_cons_of_mem _ inside, stopped⟩

theorem collect_error {action : α → Except ε β} {items : List α} {error : ε}
    (failed : collect action items = .error error) : ∃ item ∈ items, action item = .error error := by
  induction items with
  | nil => cases failed
  | cons item rest ih =>
      cases step : action item with
      | error other =>
          simp only [collect, step, Except.error.injEq] at failed
          exact ⟨item, List.mem_cons_self, step.trans (congrArg Except.error failed)⟩
      | ok value =>
          cases others : collect action rest with
          | error other =>
              simp only [collect, step, others, Except.error.injEq] at failed
              obtain ⟨later, inside, stopped⟩ := ih (others.trans (congrArg Except.error failed))
              exact ⟨later, List.mem_cons_of_mem _ inside, stopped⟩
          | ok values =>
              simp only [collect, step, others] at failed
              cases failed

theorem collect_congr {action other : α → Except ε β} {items : List α}
    (same : ∀ item ∈ items, action item = other item) : collect action items = collect other items := by
  induction items with
  | nil => rfl
  | cons item rest ih =>
      simp only [collect, same item List.mem_cons_self,
        ih fun later member => same later (List.mem_cons_of_mem _ member)]

theorem each_congr {action other : α → Except ε Unit} {items : List α}
    (same : ∀ item ∈ items, action item = other item) : each action items = each other items := by
  induction items with
  | nil => rfl
  | cons item rest ih =>
      simp only [each, same item List.mem_cons_self, ih fun later member => same later (List.mem_cons_of_mem _ member)]

theorem collect_eq_map {action : α → Except ε β} {items : List α} {values : List β} (f : α → β)
    (value : ∀ item found, action item = .ok found → found = f item) (collected : collect action items = .ok values) :
    values = items.map f := by
  have related := collect_ok.mp collected
  clear collected
  induction related with
  | nil => rfl
  | cons step _ ih => rw [List.map_cons, ← ih, value _ _ step]

theorem collect_total {action : α → Except ε β} {items : List α}
    (each : ∀ item ∈ items, ∃ value, action item = .ok value) : ∃ values, collect action items = .ok values := by
  induction items with
  | nil => exact ⟨[], rfl⟩
  | cons item rest ih =>
      obtain ⟨value, first⟩ := each item List.mem_cons_self
      obtain ⟨values, later⟩ := ih fun other member => each other (List.mem_cons_of_mem _ member)
      exact ⟨value :: values, by simp only [collect, first, later]⟩

theorem collect_perm {action : α → Except ε β} {items others : List α} {values : List β} (same : items.Perm others)
    (collected : collect action items = .ok values) : ∃ found, collect action others = .ok found ∧ values.Perm found := by
  have related := collect_ok.mp collected
  clear collected
  induction same generalizing values with
  | nil =>
      cases related
      exact ⟨[], rfl, .nil⟩
  | cons item _ ih =>
      cases related with
      | cons step rest =>
          obtain ⟨found, done, perm⟩ := ih rest
          exact ⟨_ :: found, by simp only [collect, step, done], perm.cons _⟩
  | swap first second rest =>
      cases related with
      | cons step later =>
          cases later with
          | cons next rest =>
              exact ⟨_, collect_ok.mpr (.cons next (.cons step rest)), .swap _ _ _⟩
  | trans _ _ first second =>
      obtain ⟨middle, done, perm⟩ := first related
      obtain ⟨found, last, onward⟩ := second (collect_ok.mp done)
      exact ⟨found, last, perm.trans onward⟩

theorem thread_cons {action : β → α → Except ε β} {state : β} {item : α} {rest : List α} :
    thread action state (item :: rest) = action state item >>= fun next => thread action next rest := by
  cases step : action state item <;> simp [thread, step, bind, Except.bind]

theorem thread_invariant {action : β → α → Except ε β} {motive : β → Prop} {items : List α} {state result : β}
    (initial : motive state)
    (step : ∀ current next, ∀ item ∈ items, motive current → action current item = .ok next → motive next)
    (done : thread action state items = .ok result) : motive result := by
  induction items generalizing state with
  | nil =>
      simp only [thread, Except.ok.injEq] at done
      exact done ▸ initial
  | cons item rest ih =>
      rw [thread_cons, bind_ok] at done
      obtain ⟨next, first, later⟩ := done
      exact ih (step state next item List.mem_cons_self initial first)
        (fun current after other member => step current after other (List.mem_cons_of_mem _ member)) later

end Guarded

section Keys

instance lawful_names : LawfulBEq (List String) := inferInstance

instance lawful_pair : LawfulBEq (String × String) := inferInstance

instance lawful_numbered : LawfulBEq (String × Nat) := inferInstance

instance lawful_numbered_pair : LawfulBEq (String × Nat × String) := inferInstance

end Keys

end MicroWorkflow.Lib
