import Mathlib.Algebra.BigOperators.Group.List.Basic
import Mathlib.Algebra.Ring.Int.Defs
import MicroWorkflow.Lib.Dict
import MicroWorkflow.Lib.Sweep

set_option autoImplicit false

namespace MicroWorkflow

open Lib (sweep whileSome movers MovesTo)

abbrev Requests := List (String × Nat)

namespace Requests

def names (checked : Requests) : List String := checked.map Prod.fst

def request (checked : Requests) (name : String) : Nat :=
  ((checked.find? fun entry => entry.1 = name).map Prod.snd).getD 0

def requestedTotal (checked : Requests) : Nat := (checked.map Prod.snd).sum

def floorShare (checked : Requests) (target : Nat) (name : String) : Nat :=
  target * checked.request name / checked.requestedTotal

def remainder (checked : Requests) (target : Nat) (name : String) : Nat :=
  target * checked.request name % checked.requestedTotal

def firstShare (checked : Requests) (target : Nat) (name : String) : Nat := max 1 (checked.floorShare target name)

def keyLe (checked : Requests) (target : Nat) (left right : String) : Prop :=
  checked.remainder target right < checked.remainder target left ∨
    checked.remainder target left = checked.remainder target right ∧ left ≤ right

instance (checked : Requests) (target : Nat) : DecidableRel (checked.keyLe target) :=
  fun _ _ => inferInstanceAs (Decidable (_ ∨ _))

def remainders (checked : Requests) (target : Nat) : List String := checked.names.insertionSort (checked.keyLe target)

def usedAtFirst (checked : Requests) (target : Nat) : Nat := (checked.names.map (checked.firstShare target)).sum

def growRound (checked : Requests) (target : Nat) (state : (String → Nat) × Nat) : Option ((String → Nat) × Nat) :=
  if state.2 < target then
    let next := sweep (fun name share => share < checked.request name) (· + 1) target (checked.remainders target) state
    if next.2 = state.2 then none else some next
  else none

def shrinkRound (checked : Requests) (target : Nat) (state : (String → Nat) × Nat) : Option ((String → Nat) × Nat) :=
  if target < state.2 then
    let next := sweep (fun _ share => 1 < share) (· - 1) target (checked.remainders target).reverse state
    if next.2 = state.2 then none else some next
  else none

def spreadShares (checked : Requests) (target : Nat) : Option ((String → Nat) × Nat) := do
  let grown ← whileSome (checked.growRound target) (target + 1) (checked.firstShare target, checked.usedAtFirst target)
  whileSome (checked.shrinkRound target) (grown.2 + 1) grown

end Requests

def checkedRequests (requested : List (String × Int)) : Requests := requested.map fun entry => (entry.1, (max 1 entry.2).toNat)

-- None stands for a loop that has not ended after as many rounds as it could need.
def allocateApiCapacity (requested : List (String × Int)) (configuredTotal : Option Int) : Option Requests :=
  let checked := checkedRequests requested
  if checked = [] then some []
  else
    match configuredTotal with
    | none => some checked
    | some total =>
        if (checked.requestedTotal : Int) ≤ total then some checked
        else (checked.spreadShares (max checked.length total.toNat)).map fun state =>
          checked.map fun entry => (entry.1, state.1 entry.1)

namespace Requests

section Shares

variable {checked : Requests} {target : Nat} {name : String}

structure Proper (checked : Requests) : Prop where
  distinct : checked.names.Nodup
  positive : ∀ name ∈ checked.names, 1 ≤ checked.request name

theorem request_of_entry (distinct : checked.names.Nodup) {entry : String × Nat} (member : entry ∈ checked) :
    checked.request entry.1 = entry.2 := by
  have found := Lib.Dict.get_of_mem distinct member
  rw [Lib.Dict.get] at found
  rw [request, found, Option.getD_some]

theorem sum_requests (distinct : checked.names.Nodup) : (checked.names.map checked.request).sum = checked.requestedTotal := by
  rw [names, List.map_map, requestedTotal]
  congr 1
  exact List.map_congr_left fun entry member => request_of_entry distinct member

theorem sum_floors (distinct : checked.names.Nodup) :
    checked.requestedTotal * (checked.names.map (checked.floorShare target)).sum +
      (checked.names.map (checked.remainder target)).sum = target * checked.requestedTotal := by
  have summed : ∀ items : List String,
      checked.requestedTotal * (items.map (checked.floorShare target)).sum +
        (items.map (checked.remainder target)).sum = target * (items.map checked.request).sum := by
    intro items
    induction items with
    | nil => simp
    | cons item rest ih =>
        have here : checked.requestedTotal * checked.floorShare target item + checked.remainder target item =
            target * checked.request item := Nat.div_add_mod _ _
        simp only [List.map_cons, List.sum_cons, Nat.mul_add]
        omega
  rw [summed, sum_requests distinct]

theorem length_le_requested (proper : checked.Proper) : checked.names.length ≤ checked.requestedTotal := by
  rw [← sum_requests proper.distinct]
  have each : ∀ items : List String, (∀ name ∈ items, 1 ≤ checked.request name) →
      items.length ≤ (items.map checked.request).sum := by
    intro items positive
    induction items with
    | nil => simp
    | cons item rest ih =>
        have first := positive item List.mem_cons_self
        have later := ih fun name member => positive name (List.mem_cons_of_mem item member)
        simp only [List.length_cons, List.map_cons, List.sum_cons]
        omega
  exact each _ proper.positive

theorem floor_lt_request (proper : checked.Proper) (less : target < checked.requestedTotal) (member : name ∈ checked.names) :
    checked.floorShare target name < checked.request name := by
  have positive := proper.positive name member
  rw [floorShare, Nat.div_lt_iff_lt_mul (by omega), Nat.mul_comm]
  exact Nat.mul_lt_mul_of_pos_left less positive

theorem floor_le_request (proper : checked.Proper) (within : target ≤ checked.requestedTotal) (member : name ∈ checked.names) :
    checked.floorShare target name ≤ checked.request name := by
  have positive := proper.positive name member
  have total := length_le_requested proper
  have some_name := List.length_pos_of_mem member
  rw [floorShare]
  refine Nat.div_le_of_le_mul ?_
  exact Nat.mul_le_mul_right _ within

theorem first_share_bounds (proper : checked.Proper) (within : target ≤ checked.requestedTotal)
    (member : name ∈ checked.names) :
    1 ≤ checked.firstShare target name ∧ checked.firstShare target name ≤ checked.request name := by
  have positive := proper.positive name member
  have floor := floor_le_request proper within member
  rw [firstShare]
  omega

theorem floor_mono {small large : String} (less : checked.request small ≤ checked.request large) :
    checked.floorShare target small ≤ checked.floorShare target large :=
  Nat.div_le_div_right (Nat.mul_le_mul_left target less)

theorem remainder_lt {small large : String} (positive : 0 < target) (less : checked.request small < checked.request large)
    (same : checked.floorShare target small = checked.floorShare target large) :
    checked.remainder target small < checked.remainder target large := by
  have first : checked.requestedTotal * checked.floorShare target small + checked.remainder target small =
      target * checked.request small := Nat.div_add_mod _ _
  have second : checked.requestedTotal * checked.floorShare target large + checked.remainder target large =
      target * checked.request large := Nat.div_add_mod _ _
  have product : target * checked.request small < target * checked.request large := Nat.mul_lt_mul_of_pos_left less positive
  rw [same] at first
  omega

instance : Std.Total (checked.keyLe target) where
  total left right := by
    rw [keyLe, keyLe]
    rcases String.le_total left right with low | high
    · by_cases same : checked.remainder target left = checked.remainder target right
      · exact .inl (.inr ⟨same, low⟩)
      · omega
    · by_cases same : checked.remainder target left = checked.remainder target right
      · exact .inr (.inr ⟨same.symm, high⟩)
      · omega

instance : IsTrans String (checked.keyLe target) where
  trans left middle right := by
    rw [keyLe, keyLe, keyLe]
    rintro (first | ⟨first, low⟩) (second | ⟨second, high⟩)
    · exact .inl (by omega)
    · exact .inl (by omega)
    · exact .inl (by omega)
    · exact .inr ⟨first.trans second, String.le_trans low high⟩

def Ahead (checked : Requests) (target : Nat) (left right : String) : Prop := checked.keyLe target left right ∧ left ≠ right

instance : DecidableRel (checked.Ahead target) := fun _ _ => inferInstanceAs (Decidable (_ ∧ _))

theorem ahead_asymm (left right : String) (before : checked.Ahead target left right) : ¬checked.Ahead target right left := by
  rintro ⟨back, _⟩
  obtain ⟨forth, different⟩ := before
  rcases forth with less | ⟨same, low⟩
  · rcases back with more | ⟨same, _⟩
    · omega
    · omega
  · rcases back with more | ⟨_, high⟩
    · omega
    · exact different (String.le_antisymm low high)

theorem remainders_perm : (checked.remainders target).Perm checked.names := List.perm_insertionSort _ _

theorem remainders_distinct (distinct : checked.names.Nodup) : (checked.remainders target).Nodup :=
  remainders_perm.nodup_iff.mpr distinct

theorem remainders_ordered (distinct : checked.names.Nodup) : (checked.remainders target).Pairwise (checked.Ahead target) := by
  have sorted : (checked.remainders target).Pairwise (checked.keyLe target) := List.pairwise_insertionSort _ _
  exact (List.pairwise_and_iff.mpr ⟨sorted, remainders_distinct distinct⟩)

def Grows (checked : Requests) (target : Nat) (name : String) : Prop := checked.firstShare target name < checked.request name

instance : DecidablePred (checked.Grows target) := fun _ => inferInstanceAs (Decidable (_ < _))

def growing (checked : Requests) (target : Nat) : List String :=
  movers (fun name share => share < checked.request name) (checked.firstShare target) (checked.remainders target)

theorem mem_growing : name ∈ checked.growing target ↔ name ∈ checked.names ∧ checked.Grows target name := by
  rw [growing, movers, List.mem_filter, remainders_perm.mem_iff, decide_eq_true_eq]
  rfl

def freeSlots (checked : Requests) (target : Nat) : Nat := target - checked.usedAtFirst target

theorem target_lt_requested (proper : checked.Proper) (within : target ≤ checked.requestedTotal)
    (below : checked.usedAtFirst target < target) : target < checked.requestedTotal := by
  by_contra exact_budget
  have same : target = checked.requestedTotal := by omega
  have requests : checked.usedAtFirst target = (checked.names.map checked.request).sum := by
    rw [usedAtFirst]
    congr 1
    refine List.map_congr_left fun name member => ?_
    have positive := proper.positive name member
    have floor : checked.floorShare target name = checked.request name := by
      rw [floorShare, same, Nat.mul_div_cancel_left _ (by omega)]
    rw [firstShare, floor]
    omega
  rw [sum_requests proper.distinct] at requests
  omega

theorem free_slots_le_growing (proper : checked.Proper) (within : target ≤ checked.requestedTotal)
    (below : checked.usedAtFirst target < target) : checked.freeSlots target ≤ (checked.growing target).length := by
  have less := target_lt_requested proper within below
  have floors := @sum_floors checked target proper.distinct
  have lifted : ∀ items : List String, (items.map (checked.firstShare target)).sum +
      (items.filter fun name => 1 ≤ checked.floorShare target name).length =
        (items.map (checked.floorShare target)).sum + items.length := by
    intro items
    induction items with
    | nil => rfl
    | cons item rest ih =>
        by_cases whole : 1 ≤ checked.floorShare target item
        · simp only [List.map_cons, List.sum_cons, List.length_cons, firstShare, whole, List.filter_cons, decide_true,
            ↓reduceIte, Nat.max_eq_right] at ih ⊢
          omega
        · simp only [List.map_cons, List.sum_cons, List.length_cons, firstShare, whole, List.filter_cons, decide_false,
            Bool.false_eq_true, ↓reduceIte] at ih ⊢
          omega
  have left_over : ∀ items : List String, (items.map (checked.remainder target)).sum + items.length ≤
      items.length * checked.requestedTotal := by
    intro items
    induction items with
    | nil => simp
    | cons item rest ih =>
        have small : checked.remainder target item < checked.requestedTotal := Nat.mod_lt _ (by omega)
        simp only [List.map_cons, List.sum_cons, List.length_cons, Nat.add_mul, Nat.one_mul]
        omega
  have grown : (checked.names.filter fun name => 1 ≤ checked.floorShare target name).length ≤
      (checked.growing target).length := by
    have same : (checked.growing target).Perm (checked.names.filter fun name => checked.Grows target name) :=
      remainders_perm.filter _
    rw [same.length_eq, ← List.countP_eq_length_filter, ← List.countP_eq_length_filter]
    refine List.countP_mono_left fun name member whole => ?_
    rw [decide_eq_true_eq] at whole ⊢
    have floor := floor_lt_request proper less member
    rw [Grows, firstShare]
    omega
  have counted := lifted checked.names
  have bounded := left_over checked.names
  have product : target * checked.requestedTotal ≤
      ((checked.names.map (checked.floorShare target)).sum + checked.names.length) * checked.requestedTotal := by
    rw [← floors, Nat.add_mul, Nat.mul_comm]
    omega
  have enough := Nat.le_of_mul_le_mul_right product (by omega)
  rw [freeSlots, usedAtFirst]
  omega

def grownShare (checked : Requests) (target : Nat) (name : String) : Nat :=
  if name ∈ (checked.growing target).take (checked.freeSlots target) then checked.firstShare target name + 1
  else checked.firstShare target name

theorem grow_round_eq (proper : checked.Proper) (within : target ≤ checked.requestedTotal)
    (below : checked.usedAtFirst target < target) :
    checked.growRound target (checked.firstShare target, checked.usedAtFirst target) =
      some (checked.grownShare target, target) := by
  have moves : MovesTo (· + 1) (checked.usedAtFirst target) target (checked.freeSlots target) :=
    Lib.moves_to_add (Nat.le_of_lt below)
  have enough := free_slots_le_growing proper within below
  have wanted : 0 < checked.freeSlots target := Nat.sub_pos_of_lt below
  have swept : sweep (fun name share => share < checked.request name) (· + 1) target (checked.remainders target)
      (checked.firstShare target, checked.usedAtFirst target) = (checked.grownShare target, target) := by
    rw [Lib.sweep_eq (remainders_distinct proper.distinct) _ _ _ wanted moves]
    refine Prod.ext rfl ?_
    show (· + 1)^[min (checked.freeSlots target) (checked.growing target).length] _ = target
    rw [Nat.min_eq_left enough, moves.1]
  rw [growRound, if_pos below, swept]
  exact if_neg (Nat.ne_of_gt below)

theorem sum_grown (proper : checked.Proper) (within : target ≤ checked.requestedTotal)
    (below : checked.usedAtFirst target < target) : (checked.names.map (checked.grownShare target)).sum = target := by
  have marks : (checked.names.map fun name =>
      if name ∈ (checked.growing target).take (checked.freeSlots target) then 1 else 0).sum =
        ((checked.growing target).take (checked.freeSlots target)).length := by
    refine Lib.sum_marks proper.distinct ?_ fun name member => (mem_growing.mp (List.mem_of_mem_take member)).1
    exact ((remainders_distinct proper.distinct).filter _).sublist (List.take_sublist _ _)
  have split : ∀ items : List String, (items.map (checked.grownShare target)).sum =
      (items.map (checked.firstShare target)).sum + (items.map fun name =>
        if name ∈ (checked.growing target).take (checked.freeSlots target) then 1 else 0).sum := by
    intro items
    induction items with
    | nil => rfl
    | cons item rest ih =>
        simp only [List.map_cons, List.sum_cons, ih, grownShare]
        by_cases taken : item ∈ (checked.growing target).take (checked.freeSlots target)
        · rw [if_pos taken, if_pos taken]
          omega
        · rw [if_neg taken, if_neg taken]
          omega
  rw [split, marks, List.length_take, Nat.min_eq_left (free_slots_le_growing proper within below)]
  show checked.usedAtFirst target + (target - checked.usedAtFirst target) = target
  omega

theorem grown_bounds (proper : checked.Proper) (within : target ≤ checked.requestedTotal) (member : name ∈ checked.names) :
    1 ≤ checked.grownShare target name ∧ checked.grownShare target name ≤ checked.request name := by
  have first := first_share_bounds proper within member
  rw [grownShare]
  by_cases taken : name ∈ (checked.growing target).take (checked.freeSlots target)
  · have grows : checked.firstShare target name < checked.request name := (mem_growing.mp (List.mem_of_mem_take taken)).2
    rw [if_pos taken]
    omega
  · rw [if_neg taken]
    exact first

def turn (checked : Requests) (target : Nat) (name : String) : Nat :=
  (checked.names.filter fun other => checked.Grows target other ∧ checked.Ahead target other name).length

theorem takes_turn (proper : checked.Proper) (member : name ∈ checked.growing target) (count : Nat) :
    name ∈ (checked.growing target).take count ↔ checked.turn target name < count := by
  have ordered : (checked.growing target).Pairwise (checked.Ahead target) :=
    (remainders_ordered proper.distinct).filter _
  rw [Lib.mem_take_iff_rank ordered (fun _ ahead => ahead.2 rfl) ahead_asymm member]
  have same : ((checked.growing target).filter fun other => checked.Ahead target other name).length =
      checked.turn target name := by
    rw [turn, growing, movers, List.filter_filter]
    refine (remainders_perm.filter _).length_eq.trans ?_
    congr 1
    refine List.filter_congr fun other _ => ?_
    rw [Bool.decide_and, Bool.and_comm]
    rfl
  rw [same]

def Ordered (checked : Requests) (shares : String → Nat) : Prop :=
  ∀ small ∈ checked.names, ∀ large ∈ checked.names, checked.request small < checked.request large → shares small ≤ shares large

theorem first_share_mono {small large : String} (less : checked.request small < checked.request large) :
    checked.firstShare target small ≤ checked.firstShare target large := by
  have floors := @floor_mono checked target small large (Nat.le_of_lt less)
  rw [firstShare, firstShare]
  omega

def Level (checked : Requests) (target passes : Nat) (shares : String → Nat) : Prop :=
  ∀ name ∈ checked.names, shares name = max 1 (checked.firstShare target name - passes)

theorem ordered_of_level {passes : Nat} {shares : String → Nat} (level : checked.Level target passes shares) :
    checked.Ordered shares := by
  intro small smallIn large largeIn less
  have mono := @first_share_mono checked target _ _ less
  rw [level small smallIn, level large largeIn]
  omega

structure Shrinking (checked : Requests) (target : Nat) (state : (String → Nat) × Nat) : Prop where
  summed : (checked.names.map state.1).sum = state.2
  above : target ≤ state.2
  bounds : ∀ name ∈ checked.names, 1 ≤ state.1 name ∧ state.1 name ≤ checked.request name
  even : (∃ passes, checked.Level target passes state.1) ∨ state.2 = target ∧ checked.Ordered state.1

def shrinkable (checked : Requests) (target : Nat) (shares : String → Nat) : List String :=
  movers (fun _ share => 1 < share) shares (checked.remainders target).reverse

theorem mem_shrinkable {shares : String → Nat} :
    name ∈ checked.shrinkable target shares ↔ name ∈ checked.names ∧ 1 < shares name := by
  rw [shrinkable, movers, List.mem_filter, List.mem_reverse, remainders_perm.mem_iff, decide_eq_true_eq]

def shrunkShare (checked : Requests) (target excess : Nat) (shares : String → Nat) (name : String) : Nat :=
  if name ∈ (checked.shrinkable target shares).take excess then shares name - 1 else shares name

theorem shrink_sweep_eq {state : (String → Nat) × Nat} (distinct : checked.names.Nodup) (above : target < state.2) :
    sweep (fun _ share => 1 < share) (· - 1) target (checked.remainders target).reverse state =
      (checked.shrunkShare target (state.2 - target) state.1,
        state.2 - min (state.2 - target) (checked.shrinkable target state.1).length) := by
  have moves : MovesTo (· - 1) state.2 target (state.2 - target) := Lib.moves_to_sub (Nat.le_of_lt above)
  have reversed : (checked.remainders target).reverse.Nodup := List.nodup_reverse.mpr (remainders_distinct distinct)
  rw [show state = (state.1, state.2) from rfl, Lib.sweep_eq reversed _ _ _ (Nat.sub_pos_of_lt above) moves]
  refine Prod.ext rfl ?_
  rw [Lib.iterate_sub_one]
  rfl

theorem sum_shrunk {shares : String → Nat} (distinct : checked.names.Nodup) (excess : Nat) :
    (checked.names.map (checked.shrunkShare target excess shares)).sum +
      min excess (checked.shrinkable target shares).length = (checked.names.map shares).sum := by
  have marks : (checked.names.map fun name =>
      if name ∈ (checked.shrinkable target shares).take excess then 1 else 0).sum =
        ((checked.shrinkable target shares).take excess).length := by
    refine Lib.sum_marks distinct ?_ fun name member => (mem_shrinkable.mp (List.mem_of_mem_take member)).1
    exact ((List.nodup_reverse.mpr (remainders_distinct distinct)).filter _).sublist (List.take_sublist _ _)
  have split : ∀ items : List String, (items.map (checked.shrunkShare target excess shares)).sum +
      (items.map fun name => if name ∈ (checked.shrinkable target shares).take excess then 1 else 0).sum =
        (items.map shares).sum := by
    intro items
    induction items with
    | nil => rfl
    | cons item rest ih =>
        simp only [List.map_cons, List.sum_cons, shrunkShare] at ih ⊢
        by_cases taken : item ∈ (checked.shrinkable target shares).take excess
        · have several := (mem_shrinkable.mp (List.mem_of_mem_take taken)).2
          rw [if_pos taken, if_pos taken]
          omega
        · rw [if_neg taken, if_neg taken]
          omega
  have whole := split checked.names
  rw [marks, List.length_take] at whole
  exact whole

theorem ordered_shrunk {passes excess : Nat} {shares : String → Nat} (proper : checked.Proper) (positive : 0 < target)
    (level : checked.Level target passes shares) : checked.Ordered (checked.shrunkShare target excess shares) := by
  intro small smallIn large largeIn less
  have before := ordered_of_level level small smallIn large largeIn less
  rw [shrunkShare, shrunkShare]
  by_cases taken : large ∈ (checked.shrinkable target shares).take excess
  · rw [if_pos taken]
    have several := (mem_shrinkable.mp (List.mem_of_mem_take taken)).2
    by_cases same : shares small = shares large
    · have alsoTaken : small ∈ (checked.shrinkable target shares).take excess := by
        by_contra left
        have inside : small ∈ checked.shrinkable target shares := mem_shrinkable.mpr ⟨smallIn, by omega⟩
        have ordered : (checked.shrinkable target shares).Pairwise fun left right => checked.Ahead target right left :=
          (List.pairwise_reverse.mpr (remainders_ordered proper.distinct)).filter _
        have ahead := Lib.take_before ordered taken inside left
        have floors : checked.floorShare target small = checked.floorShare target large := by
          have smallLevel := level small smallIn
          have largeLevel := level large largeIn
          rw [firstShare] at smallLevel largeLevel
          omega
        have remainders := remainder_lt positive less floors
        rcases ahead.1 with fewer | ⟨equal, _⟩
        · omega
        · omega
      rw [if_pos alsoTaken]
      omega
    · by_cases alsoTaken : small ∈ (checked.shrinkable target shares).take excess
      · rw [if_pos alsoTaken]
        omega
      · rw [if_neg alsoTaken]
        omega
  · rw [if_neg taken]
    by_cases alsoTaken : small ∈ (checked.shrinkable target shares).take excess
    · rw [if_pos alsoTaken]
      omega
    · rw [if_neg alsoTaken]
      exact before

theorem shrink_round_keeps {state next : (String → Nat) × Nat} (proper : checked.Proper) (positive : 0 < target)
    (kept : checked.Shrinking target state) (round : checked.shrinkRound target state = some next) :
    checked.Shrinking target next ∧ next.2 < state.2 := by
  rw [shrinkRound] at round
  by_cases above : target < state.2
  · rw [if_pos above, shrink_sweep_eq proper.distinct above] at round
    dsimp only at round
    by_cases still : state.2 - min (state.2 - target) (checked.shrinkable target state.1).length = state.2
    · rw [if_pos still] at round
      cases round
    rw [if_neg still] at round
    cases round
    have summed := @sum_shrunk checked target state.1 proper.distinct (state.2 - target)
    rw [kept.summed] at summed
    obtain ⟨passes, level⟩ : ∃ passes, checked.Level target passes state.1 := by
      rcases kept.even with level | ⟨reached, _⟩
      · exact level
      · omega
    refine ⟨⟨by dsimp only; omega, by dsimp only; omega, fun name member => ?_, ?_⟩, by dsimp only; omega⟩
    · have bounds := kept.bounds name member
      dsimp only [shrunkShare]
      by_cases taken : name ∈ (checked.shrinkable target state.1).take (state.2 - target)
      · have several := (mem_shrinkable.mp (List.mem_of_mem_take taken)).2
        rw [if_pos taken]
        omega
      · rw [if_neg taken]
        exact bounds
    · by_cases all : (checked.shrinkable target state.1).length ≤ state.2 - target
      · refine .inl ⟨passes + 1, fun name member => ?_⟩
        have here := level name member
        dsimp only [shrunkShare]
        rw [List.take_of_length_le all]
        by_cases several : 1 < state.1 name
        · rw [if_pos (mem_shrinkable.mpr ⟨member, several⟩)]
          omega
        · rw [if_neg fun found => several (mem_shrinkable.mp found).2]
          omega
      · exact .inr ⟨by dsimp only; omega, ordered_shrunk proper positive level⟩
  · rw [if_neg above] at round
    cases round

theorem shrink_ends {state : (String → Nat) × Nat} (proper : checked.Proper) (positive : 0 < target)
    (room : checked.names.length ≤ target) (kept : checked.Shrinking target state) :
    ∃ shares, whileSome (checked.shrinkRound target) (state.2 + 1) state = some (shares, target) ∧
      (∀ name ∈ checked.names, 1 ≤ shares name ∧ shares name ≤ checked.request name) ∧
      (checked.names.map shares).sum = target ∧ checked.Ordered shares := by
  obtain ⟨⟨shares, used⟩, ended, last, left⟩ := Lib.while_ends (fun state => state.2)
    (fun state next kept round => shrink_round_keeps proper positive kept round) (state.2 + 1) state kept (Nat.lt_succ_self _)
  have reached : used = target := by
    by_contra different
    have above : target < used := Nat.lt_of_le_of_ne last.above (Ne.symm different)
    rw [shrinkRound, if_pos above, shrink_sweep_eq proper.distinct above] at left
    by_cases still : used - min (used - target) (checked.shrinkable target shares).length = used
    · have nobody : checked.shrinkable target shares = [] := List.length_eq_zero_iff.mp (by omega)
      have ones : ∀ items : List String, (∀ name ∈ items, name ∈ checked.names) → (items.map shares).sum ≤ items.length := by
        intro items inside
        induction items with
        | nil => simp
        | cons item rest ih =>
            have later := ih fun name member => inside name (List.mem_cons_of_mem item member)
            have one : ¬1 < shares item := by
              intro several
              have found := @mem_shrinkable checked target item shares |>.mpr ⟨inside item List.mem_cons_self, several⟩
              rw [nobody] at found
              cases found
            simp only [List.map_cons, List.sum_cons, List.length_cons]
            omega
      have few := ones checked.names fun _ member => member
      have summed := last.summed
      dsimp only at summed
      omega
    · dsimp only at left
      rw [if_neg still] at left
      cases left
  subst reached
  refine ⟨shares, ended, last.bounds, last.summed, ?_⟩
  rcases last.even with ⟨passes, level⟩ | ⟨_, ordered⟩
  · exact ordered_of_level level
  · exact ordered

-- No name whose floor was lifted to one, and which may grow, has its turn among the free slots while a name
-- whose floor is one comes too late for them.
def LiftedKeepTurn (checked : Requests) (target : Nat) : Prop :=
  ∀ small ∈ checked.names, ∀ large ∈ checked.names, checked.floorShare target small = 0 → 1 < checked.request small →
    checked.floorShare target large = 1 →
      ¬(checked.turn target small < checked.freeSlots target ∧ checked.freeSlots target ≤ checked.turn target large)

theorem ordered_grown_iff (proper : checked.Proper) (within : target ≤ checked.requestedTotal)
    (below : checked.usedAtFirst target < target) :
    checked.Ordered (checked.grownShare target) ↔ checked.LiftedKeepTurn target := by
  have less := target_lt_requested proper within below
  constructor
  · intro ordered small smallIn large largeIn lifted more one turns
    have smallGrows : small ∈ checked.growing target := by
      refine mem_growing.mpr ⟨smallIn, ?_⟩
      rw [Grows, firstShare]
      omega
    have largeGrows : large ∈ checked.growing target := by
      refine mem_growing.mpr ⟨largeIn, ?_⟩
      have floor := floor_lt_request proper less largeIn
      rw [Grows, firstShare]
      omega
    have larger : checked.request small < checked.request large := by
      by_contra most
      have floors := @floor_mono checked target large small (Nat.le_of_not_lt most)
      omega
    have shares := ordered small smallIn large largeIn larger
    rw [grownShare, grownShare, if_pos ((takes_turn proper smallGrows _).mpr turns.1),
      if_neg (fun taken => absurd ((takes_turn proper largeGrows _).mp taken) (Nat.not_lt.mpr turns.2)), firstShare, firstShare]
      at shares
    omega
  · intro turns small smallIn large largeIn larger
    have mono := @first_share_mono checked target _ _ larger
    rw [grownShare, grownShare]
    by_cases taken : small ∈ (checked.growing target).take (checked.freeSlots target)
    · rw [if_pos taken]
      have inside := List.mem_of_mem_take taken
      have grows : checked.firstShare target small < checked.request small := (mem_growing.mp inside).2
      by_cases alsoTaken : large ∈ (checked.growing target).take (checked.freeSlots target)
      · rw [if_pos alsoTaken]
        omega
      · rw [if_neg alsoTaken]
        by_contra fewer
        have same : checked.firstShare target small = checked.firstShare target large := by omega
        have largeInside : large ∈ checked.growing target := by
          refine mem_growing.mpr ⟨largeIn, ?_⟩
          rw [Grows]
          omega
        by_cases floors : checked.floorShare target small = checked.floorShare target large
        · have ordered : (checked.growing target).Pairwise (checked.Ahead target) :=
            (remainders_ordered proper.distinct).filter _
          have ahead := Lib.take_before ordered taken largeInside alsoTaken
          have remainders := remainder_lt (by omega) larger floors
          rcases ahead.1 with more | ⟨equal, _⟩
          · omega
          · omega
        · rw [firstShare, firstShare] at same
          have floorMono := @floor_mono checked target small large (Nat.le_of_lt larger)
          refine turns small smallIn large largeIn (by omega) ?_ (by omega) ⟨?_, ?_⟩
          · rw [firstShare] at grows
            omega
          · exact (takes_turn proper inside _).mp taken
          · exact Nat.not_lt.mp fun early => alsoTaken ((takes_turn proper largeInside _).mpr early)
    · rw [if_neg taken]
      by_cases alsoTaken : large ∈ (checked.growing target).take (checked.freeSlots target)
      · rw [if_pos alsoTaken]
        omega
      · rw [if_neg alsoTaken]
        exact mono

theorem spread_shares_eq (proper : checked.Proper) (some_name : 0 < checked.names.length)
    (room : checked.names.length ≤ target) (within : target ≤ checked.requestedTotal) :
    ∃ shares, checked.spreadShares target = some (shares, target) ∧
      (∀ name ∈ checked.names, 1 ≤ shares name ∧ shares name ≤ checked.request name) ∧
      (checked.names.map shares).sum = target ∧ (checked.Ordered shares ↔ checked.LiftedKeepTurn target) := by
  by_cases below : checked.usedAtFirst target < target
  · refine ⟨checked.grownShare target, ?_, fun name member => grown_bounds proper within member, sum_grown proper within below,
      ordered_grown_iff proper within below⟩
    obtain ⟨rounds, rfl⟩ : ∃ rounds, target = rounds + 1 := ⟨target - 1, by omega⟩
    have grown : whileSome (checked.growRound (rounds + 1)) (rounds + 1 + 1)
        (checked.firstShare (rounds + 1), checked.usedAtFirst (rounds + 1)) =
          some (checked.grownShare (rounds + 1), rounds + 1) := by
      rw [whileSome, grow_round_eq proper within below]
      dsimp only
      rw [whileSome, growRound, if_neg (Nat.lt_irrefl _)]
    rw [spreadShares, grown]
    show whileSome (checked.shrinkRound (rounds + 1)) (rounds + 1 + 1) (checked.grownShare (rounds + 1), rounds + 1) = _
    rw [whileSome, shrinkRound, if_neg (Nat.lt_irrefl _)]
  · have stays : whileSome (checked.growRound target) (target + 1) (checked.firstShare target, checked.usedAtFirst target) =
        some (checked.firstShare target, checked.usedAtFirst target) := by
      rw [whileSome, growRound, if_neg below]
    have start : checked.Shrinking target (checked.firstShare target, checked.usedAtFirst target) := {
      summed := rfl
      above := Nat.not_lt.mp below
      bounds := fun name member => first_share_bounds proper within member
      even := .inl ⟨0, fun name member => by
        have bounds := first_share_bounds proper within member
        dsimp only
        omega⟩ }
    obtain ⟨shares, ended, bounds, summed, ordered⟩ := shrink_ends proper (by omega) room start
    refine ⟨shares, by rw [spreadShares, stays]; exact ended, bounds, summed, fun _ => ?_, fun _ => ordered⟩
    intro small _ large _ _ _ _ turns
    have none_free : checked.freeSlots target = 0 := Nat.sub_eq_zero_of_le (Nat.not_lt.mp below)
    omega

section Reordered

variable {others : Requests}

instance : Std.Antisymm (checked.keyLe target) where
  antisymm left right := by
    intro forth back
    by_contra different
    exact ahead_asymm left right ⟨forth, different⟩ ⟨back, Ne.symm different⟩

theorem request_reordered (distinct : checked.names.Nodup) (same : others.Perm checked) : others.request = checked.request := by
  have distinctOthers : others.names.Nodup := (same.map Prod.fst).nodup_iff.mpr distinct
  funext name
  by_cases member : name ∈ checked.names
  · obtain ⟨entry, inside, rfl⟩ := List.mem_map.mp member
    rw [request_of_entry distinct inside, request_of_entry distinctOthers (same.mem_iff.mpr inside)]
  · have absent : ∀ items : Requests, name ∉ items.names → items.request name = 0 := by
      intro items outside
      rw [request, List.find?_eq_none.mpr]
      · rfl
      · intro entry inside here
        exact outside (List.mem_map.mpr ⟨entry, inside, by simpa using here⟩)
    rw [absent checked member, absent others fun inside => member ((same.map Prod.fst).mem_iff.mp inside)]

theorem spread_reordered (distinct : checked.names.Nodup) (same : others.Perm checked) :
    others.spreadShares target = checked.spreadShares target := by
  have request := request_reordered distinct same
  have total : others.requestedTotal = checked.requestedTotal := (same.map Prod.snd).sum_nat
  have floors : others.floorShare target = checked.floorShare target := by
    funext name
    rw [floorShare, floorShare, request, total]
  have rest : others.remainder target = checked.remainder target := by
    funext name
    rw [remainder, remainder, request, total]
  have first : others.firstShare target = checked.firstShare target := by
    funext name
    rw [firstShare, firstShare, floors]
  have used : others.usedAtFirst target = checked.usedAtFirst target := by
    rw [usedAtFirst, usedAtFirst, first]
    exact ((same.map Prod.fst).map _).sum_nat
  have keys : others.keyLe target = checked.keyLe target := by
    funext left right
    rw [keyLe, keyLe, rest]
  have order : others.remainders target = checked.remainders target := by
    have sorted : (others.remainders target).Pairwise (checked.keyLe target) := by
      rw [← keys]
      exact List.pairwise_insertionSort _ _
    refine List.Perm.eq_of_pairwise' sorted (List.pairwise_insertionSort _ _) ?_
    exact (remainders_perm.trans (same.map Prod.fst)).trans remainders_perm.symm
  have grow : others.growRound target = checked.growRound target := by
    funext state
    rw [growRound, growRound, request, order]
  have shrink : others.shrinkRound target = checked.shrinkRound target := by
    funext state
    rw [shrinkRound, shrinkRound, order]
  rw [spreadShares, spreadShares, grow, shrink, first, used]

end Reordered

end Shares

end Requests

section Allocation

variable {requested : List (String × Int)} {configuredTotal : Option Int} {shares : Requests}

structure CapacityShared (requested : List (String × Int)) (configuredTotal : Option Int) (shares : Requests) : Prop where
  names : shares.map Prod.fst = requested.map Prod.fst
  bounds : ∀ entry ∈ requested, 1 ≤ shares.request entry.1 ∧ (shares.request entry.1 : Int) ≤ entry.2
  unbounded : (∀ total, configuredTotal = some total → (requested.map Prod.snd).sum ≤ total) →
    ∀ entry ∈ requested, (shares.request entry.1 : Int) = entry.2
  whole : ∀ total, configuredTotal = some total → total < (requested.map Prod.snd).sum →
    (shares.requestedTotal : Int) = max (requested.length : Int) total
  unordered : ∀ others : List (String × Int), others.Perm requested →
    ∃ same, allocateApiCapacity others configuredTotal = some same ∧ same.Perm shares

def LargerFirst (requested : List (String × Int)) (shares : Requests) : Prop :=
  ∀ small ∈ requested, ∀ large ∈ requested, small.2 < large.2 → shares.request small.1 ≤ shares.request large.1

theorem checked_names : (checkedRequests requested).names = requested.map Prod.fst := by
  rw [Requests.names, checkedRequests, List.map_map]
  rfl

theorem checked_request (distinct : (requested.map Prod.fst).Nodup) {entry : String × Int} (member : entry ∈ requested)
    (positive : 1 ≤ entry.2) : ((checkedRequests requested).request entry.1 : Int) = entry.2 := by
  have inside : (entry.1, (max 1 entry.2).toNat) ∈ checkedRequests requested :=
    List.mem_map.mpr ⟨entry, member, rfl⟩
  rw [Requests.request_of_entry (by rw [checked_names]; exact distinct) inside]
  omega

theorem checked_total (positive : ∀ entry ∈ requested, 1 ≤ entry.2) :
    ((checkedRequests requested).requestedTotal : Int) = (requested.map Prod.snd).sum := by
  rw [Requests.requestedTotal, checkedRequests, List.map_map]
  induction requested with
  | nil => rfl
  | cons entry rest ih =>
      have first := positive entry List.mem_cons_self
      have later := ih fun other member => positive other (List.mem_cons_of_mem entry member)
      simp only [List.map_cons, List.sum_cons, Function.comp_apply]
      omega

theorem checked_proper (distinct : (requested.map Prod.fst).Nodup) (positive : ∀ entry ∈ requested, 1 ≤ entry.2) :
    (checkedRequests requested).Proper where
  distinct := by
    rw [checked_names]
    exact distinct
  positive := by
    intro name member
    rw [checked_names] at member
    obtain ⟨entry, inside, rfl⟩ := List.mem_map.mp member
    have value := checked_request distinct inside (positive entry inside)
    have one := positive entry inside
    omega

theorem allocate_unbounded (some_node : requested ≠ []) (positive : ∀ entry ∈ requested, 1 ≤ entry.2)
    (covered : ∀ total, configuredTotal = some total → (requested.map Prod.snd).sum ≤ total) :
    allocateApiCapacity requested configuredTotal = some (checkedRequests requested) := by
  have some_checked : checkedRequests requested ≠ [] := by
    rw [checkedRequests, Ne, List.map_eq_nil_iff]
    exact some_node
  cases configuredTotal with
  | none => exact if_neg some_checked
  | some total =>
      have within : ((checkedRequests requested).requestedTotal : Int) ≤ total := by
        rw [checked_total positive]
        exact covered total rfl
      rw [allocateApiCapacity, if_neg some_checked, if_pos within]

theorem allocate_budgeted {total : Int} (some_node : requested ≠ []) (positive : ∀ entry ∈ requested, 1 ≤ entry.2)
    (short : total < (requested.map Prod.snd).sum) :
    allocateApiCapacity requested (some total) =
      ((checkedRequests requested).spreadShares (max requested.length total.toNat)).map fun state =>
        (checkedRequests requested).map fun entry => (entry.1, state.1 entry.1) := by
  have some_checked : checkedRequests requested ≠ [] := by
    rw [checkedRequests, Ne, List.map_eq_nil_iff]
    exact some_node
  have outside : ¬((checkedRequests requested).requestedTotal : Int) ≤ total := by
    rw [checked_total positive]
    omega
  have length : (checkedRequests requested).length = requested.length := List.length_map _
  rw [allocateApiCapacity, if_neg some_checked, if_neg outside, length]

theorem unordered_unbounded (some_node : requested ≠ []) (positive : ∀ entry ∈ requested, 1 ≤ entry.2)
    (covered : ∀ total, configuredTotal = some total → (requested.map Prod.snd).sum ≤ total)
    (others : List (String × Int)) (same : others.Perm requested) :
    ∃ shares, allocateApiCapacity others configuredTotal = some shares ∧ shares.Perm (checkedRequests requested) := by
  refine ⟨checkedRequests others, allocate_unbounded ?_ ?_ ?_, same.map _⟩
  · rintro rfl
    exact some_node same.symm.eq_nil
  · exact fun entry member => positive entry (same.mem_iff.mp member)
  · intro total known
    rw [(same.map Prod.snd).sum_eq]
    exact covered total known

-- An allocation ends; it shares the budget out whatever the requests, and gives larger requests no smaller
-- shares exactly where the names lifted to one slot keep their turn.
theorem api_capacity_allocated (requested : List (String × Int)) (configuredTotal : Option Int) (some_node : requested ≠ [])
    (distinct : (requested.map Prod.fst).Nodup) (positive : ∀ entry ∈ requested, 1 ≤ entry.2) :
    ∃ shares, allocateApiCapacity requested configuredTotal = some shares ∧
      CapacityShared requested configuredTotal shares ∧
      (LargerFirst requested shares ↔ ∀ total, configuredTotal = some total → total < (requested.map Prod.snd).sum →
        (checkedRequests requested).LiftedKeepTurn (max requested.length total.toNat)) := by
  by_cases covered : ∀ total, configuredTotal = some total → (requested.map Prod.snd).sum ≤ total
  · refine ⟨checkedRequests requested, allocate_unbounded some_node positive covered, ?_, ?_, ?_⟩
    · exact {
        names := checked_names
        bounds := fun entry member => by
          have value := checked_request distinct member (positive entry member)
          have one := positive entry member
          omega
        unbounded := fun _ entry member => checked_request distinct member (positive entry member)
        whole := fun total known short => by
          have enough := covered total known
          omega
        unordered := unordered_unbounded some_node positive covered }
    · intro _ total known short
      have enough := covered total known
      omega
    · intro _ small smallIn large largeIn less
      have first := checked_request distinct smallIn (positive small smallIn)
      have second := checked_request distinct largeIn (positive large largeIn)
      omega
  · obtain ⟨total, known, short⟩ : ∃ total, configuredTotal = some total ∧ total < (requested.map Prod.snd).sum := by
      by_contra nowhere
      refine covered fun total known => ?_
      by_contra short
      exact nowhere ⟨total, known, by omega⟩
    subst known
    have proper := checked_proper distinct positive
    have length : (checkedRequests requested).names.length = requested.length := by
      rw [checked_names, List.length_map]
    have several := length ▸ Requests.length_le_requested proper
    have sum := checked_total positive
    have nonempty : 0 < requested.length := List.length_pos_of_ne_nil some_node
    obtain ⟨spread, ended, bounds, summed, ordered⟩ := Requests.spread_shares_eq proper (by omega)
      (show (checkedRequests requested).names.length ≤ max requested.length total.toNat by omega) (by omega)
    have result : allocateApiCapacity requested (some total) =
        some ((checkedRequests requested).map fun entry => (entry.1, spread entry.1)) := by
      rw [allocate_budgeted some_node positive short, ended]
      rfl
    have names : Requests.names ((checkedRequests requested).map fun entry => (entry.1, spread entry.1)) =
        requested.map Prod.fst := by
      rw [← checked_names, Requests.names, List.map_map]
      rfl
    have shareOf : ∀ entry ∈ requested,
        Requests.request ((checkedRequests requested).map fun entry => (entry.1, spread entry.1)) entry.1 = spread entry.1 := by
      intro entry member
      refine @Requests.request_of_entry _ (by rw [names]; exact distinct) (entry.1, spread entry.1) ?_
      rw [checkedRequests, List.map_map]
      exact List.mem_map.mpr ⟨entry, member, rfl⟩
    refine ⟨_, result, ?_, ?_⟩
    · exact {
        names := names
        bounds := fun entry member => by
          have value := checked_request distinct member (positive entry member)
          have here := bounds entry.1 (by rw [checked_names]; exact List.mem_map_of_mem member)
          rw [shareOf entry member]
          omega
        unbounded := fun enough => absurd (enough total rfl) (by omega)
        whole := fun other known _ => by
          cases known
          have total : Requests.requestedTotal ((checkedRequests requested).map fun entry => (entry.1, spread entry.1)) =
              ((checkedRequests requested).names.map spread).sum := by
            rw [Requests.requestedTotal, Requests.names, List.map_map, List.map_map]
            rfl
          rw [total, summed]
          omega
        unordered := fun others same => by
          have some_other : others ≠ [] := by
            rintro rfl
            exact some_node same.symm.eq_nil
          have shortOther : total < (others.map Prod.snd).sum := by
            rw [(same.map Prod.snd).sum_eq]
            exact short
          have checked : (checkedRequests others).Perm (checkedRequests requested) := same.map _
          refine ⟨_, ?_, checked.map fun entry => (entry.1, spread entry.1)⟩
          rw [allocate_budgeted some_other (fun entry member => positive entry (same.mem_iff.mp member)) shortOther,
            same.length_eq, Requests.spread_reordered proper.distinct checked, ended]
          rfl }
    · constructor
      · intro larger other known _
        cases known
        refine ordered.mp fun small smallIn large largeIn less => ?_
        rw [checked_names] at smallIn largeIn
        obtain ⟨least, leastIn, rfl⟩ := List.mem_map.mp smallIn
        obtain ⟨most, mostIn, rfl⟩ := List.mem_map.mp largeIn
        have first := checked_request distinct leastIn (positive least leastIn)
        have second := checked_request distinct mostIn (positive most mostIn)
        have share := larger least leastIn most mostIn (by omega)
        rw [shareOf least leastIn, shareOf most mostIn] at share
        exact share
      · intro turns small smallIn large largeIn less
        have first := checked_request distinct smallIn (positive small smallIn)
        have second := checked_request distinct largeIn (positive large largeIn)
        rw [shareOf small smallIn, shareOf large largeIn]
        refine ordered.mpr (turns total rfl short) small.1 ?_ large.1 ?_ (by omega)
        · rw [checked_names]
          exact List.mem_map_of_mem smallIn
        · rw [checked_names]
          exact List.mem_map_of_mem largeIn

theorem api_capacity_allocated_unevenly :
    CapacityShared [("left", 2), ("middle", 3), ("right", 7)] (some 8) [("left", 1), ("middle", 2), ("right", 5)] ∧
      LargerFirst [("left", 2), ("middle", 3), ("right", 7)] [("left", 1), ("middle", 2), ("right", 5)] := by
  obtain ⟨shares, allocated, shared, larger⟩ :=
    api_capacity_allocated [("left", 2), ("middle", 3), ("right", 7)] (some 8) (by decide) (by decide) (by decide)
  have computed : allocateApiCapacity [("left", 2), ("middle", 3), ("right", 7)] (some 8) =
      some [("left", 1), ("middle", 2), ("right", 5)] := by decide +kernel
  cases allocated.symm.trans computed
  refine ⟨shared, larger.mpr fun total known _ => ?_⟩
  cases known
  unfold Requests.LiftedKeepTurn
  decide +kernel

-- A request of two rounds down to no slot, is lifted to one and still has the largest remainder.
theorem smaller_request_larger_share :
    allocateApiCapacity [("a", 2), ("b", 3), ("c", 4)] (some 4) = some [("a", 2), ("b", 1), ("c", 1)] ∧
      ¬LargerFirst [("a", 2), ("b", 3), ("c", 4)] [("a", 2), ("b", 1), ("c", 1)] := by
  refine ⟨by decide +kernel, fun larger => ?_⟩
  have shares := larger ("a", 2) (by decide) ("b", 3) (by decide) (by decide)
  exact absurd shares (by decide)

end Allocation

end MicroWorkflow
