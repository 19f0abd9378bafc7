import Mathlib.Data.List.Sort
import Mathlib.Logic.Function.Iterate
import Mathlib.Algebra.GroupWithZero.Nat

set_option autoImplicit false

namespace MicroWorkflow.Lib

section While

variable {σ : Type} {body : σ → Option σ} {holds : σ → Prop}

def whileSome (body : σ → Option σ) : Nat → σ → Option σ
  | 0, _ => none
  | fuel + 1, state =>
      match body state with
      | none => some state
      | some next => whileSome body fuel next

theorem while_ends (measure : σ → Nat)
    (keeps : ∀ state next, holds state → body state = some next → holds next ∧ measure next < measure state)
    (fuel : Nat) (state : σ) (start : holds state) (enough : measure state < fuel) :
    ∃ last, whileSome body fuel state = some last ∧ holds last ∧ body last = none := by
  induction fuel generalizing state with
  | zero => exact absurd enough (Nat.not_lt_zero _)
  | succ fuel ih =>
      cases round : body state with
      | none => exact ⟨state, by rw [whileSome, round], start, round⟩
      | some next =>
          obtain ⟨kept, lower⟩ := keeps state next start round
          obtain ⟨last, ended, holds, left⟩ := ih next kept (by omega)
          exact ⟨last, by rw [whileSome, round]; exact ended, holds, left⟩

end While

section Sweep

variable {ι : Type} {eligible : ι → Nat → Bool} {move : Nat → Nat} {target : Nat}

def movers (eligible : ι → Nat → Bool) (counts : ι → Nat) (names : List ι) : List ι :=
  names.filter fun name => eligible name (counts name)

theorem movers_cons {counts : ι → Nat} {name : ι} {rest : List ι} : movers eligible counts (name :: rest) =
    if eligible name (counts name) then name :: movers eligible counts rest else movers eligible counts rest := List.filter_cons

variable [DecidableEq ι]

def sweep (eligible : ι → Nat → Bool) (move : Nat → Nat) (target : Nat) : List ι → (ι → Nat) × Nat → (ι → Nat) × Nat
  | [], state => state
  | name :: rest, (counts, total) =>
      if eligible name (counts name) then
        if move total = target then (Function.update counts name (move (counts name)), move total)
        else sweep eligible move target rest (Function.update counts name (move (counts name)), move total)
      else sweep eligible move target rest (counts, total)

def MovesTo (move : Nat → Nat) (total target moves : Nat) : Prop :=
  move^[moves] total = target ∧ ∀ fewer, fewer < moves → move^[fewer] total ≠ target

theorem moves_to_move {total moves : Nat} (reaches : MovesTo move total target (moves + 1)) :
    MovesTo move (move total) target moves :=
  ⟨reaches.1, fun fewer less => reaches.2 (fewer + 1) (Nat.succ_lt_succ less)⟩

theorem iterate_add_one (count total : Nat) : (· + 1)^[count] total = total + count := by
  induction count with
  | zero => rfl
  | succ count ih =>
      rw [Function.iterate_succ_apply', ih]
      rfl

theorem iterate_sub_one (count total : Nat) : (· - 1)^[count] total = total - count := by
  induction count with
  | zero => rfl
  | succ count ih =>
      rw [Function.iterate_succ_apply', ih]
      rfl

theorem moves_to_add {total : Nat} (below : total ≤ target) : MovesTo (· + 1) total target (target - total) := by
  refine ⟨by rw [iterate_add_one]; omega, fun fewer less => ?_⟩
  rw [iterate_add_one]
  omega

theorem moves_to_sub {total : Nat} (above : target ≤ total) : MovesTo (· - 1) total target (total - target) := by
  refine ⟨by rw [iterate_sub_one]; omega, fun fewer less => ?_⟩
  rw [iterate_sub_one]
  omega

theorem sweep_eq {names : List ι} (distinct : names.Nodup) (counts : ι → Nat) (total moves : Nat) (wanted : 0 < moves)
    (reaches : MovesTo move total target moves) :
    sweep eligible move target names (counts, total) =
      (fun name => if name ∈ (movers eligible counts names).take moves then move (counts name) else counts name,
        move^[min moves (movers eligible counts names).length] total) := by
  induction names generalizing counts total moves with
  | nil => simp [sweep, movers]
  | cons name rest ih =>
      obtain ⟨fresh, distinct⟩ := List.nodup_cons.mp distinct
      by_cases chosen : eligible name (counts name) = true
      · obtain ⟨moves, rfl⟩ : ∃ fewer, moves = fewer + 1 := ⟨moves - 1, by omega⟩
        have same : movers eligible (Function.update counts name (move (counts name))) rest = movers eligible counts rest := by
          refine List.filter_congr fun other member => ?_
          rw [Function.update_of_ne]
          rintro rfl
          exact fresh member
        rw [sweep, if_pos chosen, movers_cons, if_pos chosen, List.take_succ_cons, List.length_cons, Nat.add_min_add_right,
          Function.iterate_succ_apply]
        by_cases last : move total = target
        · have none_left : moves = 0 := by
            by_contra more
            exact reaches.2 1 (by omega) last
          subst moves
          rw [if_pos last, Nat.zero_min, List.take_zero]
          refine Prod.ext (funext fun other => ?_) rfl
          by_cases here : other = name
          · subst other
            simp
          · simp [here]
        · have more : 0 < moves := by
            by_contra none_left
            have none_left : moves = 0 := by omega
            subst moves
            exact last reaches.1
          rw [if_neg last, ih distinct _ _ _ more (moves_to_move reaches), same]
          refine Prod.ext (funext fun other => ?_) rfl
          by_cases here : other = name
          · subst other
            have absent : name ∉ (movers eligible counts rest).take moves :=
              fun member => fresh (List.mem_of_mem_filter (List.mem_of_mem_take member))
            simp [absent]
          · simp [here]
      · rw [sweep, if_neg chosen, movers_cons, if_neg chosen]
        exact ih distinct counts total moves wanted reaches

end Sweep

section Ranks

variable {ι : Type} {before : ι → ι → Prop} {names : List ι} {name : ι}

theorem take_before {count : Nat} {other : ι} (ordered : names.Pairwise before) (taken : name ∈ names.take count)
    (member : other ∈ names) (left : other ∉ names.take count) : before name other := by
  rw [← List.take_append_drop count names] at ordered member
  rcases List.mem_append.mp member with inside | inside
  · exact absurd inside left
  · exact (List.pairwise_append.mp ordered).2.2 name taken other inside

theorem mem_take_iff_rank [DecidableRel before] (ordered : names.Pairwise before) (irrefl : ∀ item, ¬before item item)
    (asymm : ∀ left right, before left right → ¬before right left) (member : name ∈ names) (count : Nat) :
    name ∈ names.take count ↔ (names.filter fun other => before other name).length < count := by
  induction names generalizing count with
  | nil => cases member
  | cons first rest ih =>
      obtain ⟨ahead, later⟩ := List.pairwise_cons.mp ordered
      cases count with
      | zero => simp
      | succ count =>
          rw [List.take_succ_cons]
          rcases List.mem_cons.mp member with rfl | inside
          · have nobody : (name :: rest).filter (fun other => before other name) = [] := by
              rw [List.filter_eq_nil_iff]
              intro other found
              rcases List.mem_cons.mp found with rfl | found
              · simpa using irrefl other
              · simpa using asymm _ _ (ahead other found)
            rw [nobody]
            simp
          · have different : name ≠ first := by
              rintro rfl
              exact irrefl name (ahead name inside)
            rw [List.filter_cons_of_pos (by simpa using ahead name inside), List.length_cons, List.mem_cons, ih later inside]
            constructor
            · rintro (equal | less)
              · exact absurd equal different
              · omega
            · exact fun less => .inr (by omega)

end Ranks

section Marks

variable {ι : Type} [DecidableEq ι] {names chosen : List ι}

theorem sum_marks (distinct : names.Nodup) (once : chosen.Nodup) (inside : ∀ name ∈ chosen, name ∈ names) :
    (names.map fun name => if name ∈ chosen then 1 else 0).sum = chosen.length := by
  have counted : ∀ items : List ι, (items.map fun name => if name ∈ chosen then 1 else 0).sum =
      (items.filter fun name => name ∈ chosen).length := by
    intro items
    induction items with
    | nil => rfl
    | cons item rest ih =>
        by_cases marked : item ∈ chosen
        · simp [marked, ih, Nat.add_comm]
        · simp [marked, ih]
  rw [counted]
  refine List.Perm.length_eq ((List.perm_ext_iff_of_nodup (distinct.filter _) once).mpr fun name => ?_)
  rw [List.mem_filter, decide_eq_true_eq]
  exact ⟨fun both => both.2, fun marked => ⟨inside name marked, marked⟩⟩

theorem sum_update_succ {name : ι} (distinct : names.Nodup) (member : name ∈ names) (counts : ι → Nat) :
    (names.map (Function.update counts name (counts name + 1))).sum = (names.map counts).sum + 1 := by
  induction names with
  | nil => cases member
  | cons first rest ih =>
      obtain ⟨fresh, distinct⟩ := List.nodup_cons.mp distinct
      simp only [List.map_cons, List.sum_cons]
      by_cases here : first = name
      · subst first
        have same : rest.map (Function.update counts name (counts name + 1)) = rest.map counts := by
          refine List.map_congr_left fun other inside => ?_
          rw [Function.update_of_ne]
          rintro rfl
          exact fresh inside
        rw [same, Function.update_self]
        omega
      · have inside : name ∈ rest := by
          rcases List.mem_cons.mp member with equal | inside
          · exact absurd equal.symm here
          · exact inside
        rw [ih distinct inside, Function.update_of_ne here]
        omega

end Marks

end MicroWorkflow.Lib
