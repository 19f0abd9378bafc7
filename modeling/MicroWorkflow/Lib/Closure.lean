import Mathlib.Data.List.Dedup
import Mathlib.Data.List.Perm.Subperm
import Mathlib.Logic.Relation
import Mathlib.Tactic.Common

set_option autoImplicit false

namespace MicroWorkflow.Lib

section Closure

variable {α : Type} [DecidableEq α]

def worklist (next : α → List α) : Nat → List α → List α → List α
  | _, [], known => known
  | 0, _ :: _, known => known
  | fuel + 1, current :: pending, known =>
      let fresh := ((next current).filter fun item => item ∉ known).dedup
      worklist next fuel (fresh.reverse ++ pending) (known ++ fresh)

def closure (next : α → List α) (whole : List α) (start : α) : List α :=
  worklist next whole.length [start] [start]

def Step (next : α → List α) (source target : α) : Prop := target ∈ next source

structure Progress (next : α → List α) (whole : List α) (fuel : Nat) (pending known : List α) : Prop where
  distinct : known.Nodup
  bounded : ∀ item ∈ known, item ∈ whole
  seen : ∀ item ∈ pending, item ∈ known
  expanded : ∀ item ∈ known, item ∉ pending → ∀ other ∈ next item, other ∈ known
  paid : whole.length + pending.length ≤ fuel + known.length

variable {next : α → List α} {whole : List α}

omit [DecidableEq α] in
theorem Progress.room {fuel : Nat} {pending known : List α} (progress : Progress next whole fuel pending known) :
    known.length ≤ whole.length :=
  (List.Nodup.subperm progress.distinct progress.bounded).length_le

theorem Progress.pop {fuel : Nat} {current : α} {pending known : List α}
    (closed : ∀ item ∈ whole, ∀ other ∈ next item, other ∈ whole)
    (progress : Progress next whole (fuel + 1) (current :: pending) known) :
    let fresh := ((next current).filter fun item => item ∉ known).dedup
    Progress next whole fuel (fresh.reverse ++ pending) (known ++ fresh) := by
  intro fresh
  have unseen : ∀ item ∈ fresh, item ∈ next current ∧ item ∉ known := by
    intro item member
    simpa [fresh] using member
  have here : current ∈ known := progress.seen current List.mem_cons_self
  constructor
  · rw [List.nodup_append]
    refine ⟨progress.distinct, List.nodup_dedup _, ?_⟩
    intro left old right new same
    exact (unseen right new).2 (same ▸ old)
  · intro item member
    rcases List.mem_append.mp member with old | new
    · exact progress.bounded item old
    · exact closed current (progress.bounded current here) item (unseen item new).1
  · intro item member
    rcases List.mem_append.mp member with new | old
    · exact List.mem_append_right _ (List.mem_reverse.mp new)
    · exact List.mem_append_left _ (progress.seen item (List.mem_cons_of_mem _ old))
  · intro item member absent other successor
    simp only [List.mem_append, List.mem_reverse, not_or] at absent
    rcases List.mem_append.mp member with old | new
    · by_cases popped : item = current
      · subst popped
        by_cases already : other ∈ known
        · exact List.mem_append_left _ already
        · exact List.mem_append_right _ (by simp [fresh, successor, already])
      · refine List.mem_append_left _ (progress.expanded item old ?_ other successor)
        simp [popped, absent.2]
    · exact absurd new absent.1
  · have paid := progress.paid
    simp only [List.length_cons, List.length_append, List.length_reverse] at paid ⊢
    omega

theorem worklist_closed {fuel : Nat} {pending known : List α}
    (closed : ∀ item ∈ whole, ∀ other ∈ next item, other ∈ whole)
    (progress : Progress next whole fuel pending known) :
    (∀ item ∈ known, item ∈ worklist next fuel pending known) ∧
      ∀ item ∈ worklist next fuel pending known, ∀ other ∈ next item,
        other ∈ worklist next fuel pending known := by
  induction fuel generalizing pending known with
  | zero =>
      cases pending with
      | nil => exact ⟨fun _ member => member, fun item member => progress.expanded item member (by simp)⟩
      | cons current rest =>
          have room := progress.room
          have paid := progress.paid
          simp only [List.length_cons] at paid
          omega
  | succ fuel ih =>
      cases pending with
      | nil => exact ⟨fun _ member => member, fun item member => progress.expanded item member (by simp)⟩
      | cons current rest =>
          obtain ⟨kept, done⟩ := ih (progress.pop closed)
          exact ⟨fun item member => kept item (List.mem_append_left _ member), done⟩

theorem worklist_sound {start : α} {fuel : Nat} {pending known : List α}
    (seen : ∀ item ∈ pending, item ∈ known)
    (reached : ∀ item ∈ known, Relation.ReflTransGen (Step next) start item) :
    ∀ item ∈ worklist next fuel pending known, Relation.ReflTransGen (Step next) start item := by
  induction fuel generalizing pending known with
  | zero => cases pending <;> exact reached
  | succ fuel ih =>
      cases pending with
      | nil => exact reached
      | cons current rest =>
          apply ih
          · intro item member
            rcases List.mem_append.mp member with new | old
            · exact List.mem_append_right _ (List.mem_reverse.mp new)
            · exact List.mem_append_left _ (seen item (List.mem_cons_of_mem _ old))
          · intro item member
            rcases List.mem_append.mp member with old | new
            · exact reached item old
            · have step : Step next current item := by
                simp only [List.mem_dedup, List.mem_filter] at new
                exact new.1
              exact (reached current (seen current List.mem_cons_self)).tail step

theorem mem_closure {start : α} (closed : ∀ item ∈ whole, ∀ other ∈ next item, other ∈ whole)
    (member : start ∈ whole) (item : α) :
    item ∈ closure next whole start ↔ Relation.ReflTransGen (Step next) start item := by
  have initial : Progress next whole whole.length [start] [start] := by
    constructor <;> simp [member]
  obtain ⟨kept, done⟩ := worklist_closed closed initial
  constructor
  · refine worklist_sound (by simp) ?_ item
    intro other here
    rw [List.mem_singleton.mp here]
  · intro path
    induction path with
    | refl => exact kept start (by simp)
    | tail _ step ih => exact done _ ih _ step

end Closure

end MicroWorkflow.Lib
