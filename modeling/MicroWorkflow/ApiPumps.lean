import Mathlib.Algebra.Order.Ring.Rat
import Mathlib.Data.Rat.Floor
import Mathlib.Tactic.FieldSimp
import Mathlib.Tactic.Ring
import MicroWorkflow.Lib.Dict
import MicroWorkflow.Lib.GreedyAllocation
import MicroWorkflow.Lib.Guarded
import MicroWorkflow.Lib.Sweep
import MicroWorkflow.Values

set_option autoImplicit false

namespace MicroWorkflow

open Lib (require whileSome Balanced Diminishing saving)

abbrev PumpLimits := List (String × Int)

namespace PumpLimits

def names (limits : PumpLimits) : List String := (limits.map Prod.fst).insertionSort (· ≤ ·)

def limit (limits : PumpLimits) (name : String) : Int := ((limits.find? fun entry => entry.1 = name).map Prod.snd).getD 0

def independent (limits : PumpLimits) (name : String) : Nat := (min 12 (max 1 ((limits.limit name + 63) / 64))).toNat

def independentTotal (limits : PumpLimits) : Nat := (limits.names.map limits.independent).sum

def benefit (limits : PumpLimits) (allocations : String → Nat) (name : String) : Rat :=
  limits.limit name / (allocations name * (allocations name + 1))

def pumpRound (limits : PumpLimits) (budget : Nat) (allocations : String → Nat) : Option (String → Nat) :=
  if (limits.names.map allocations).sum < budget then
    let candidates := limits.names.filter fun name => allocations name < limits.independent name
    (candidates.argmax (limits.benefit allocations)).map fun chosen =>
      Function.update allocations chosen (allocations chosen + 1)
  else none

end PumpLimits

def givenPumpBudget (logicalProcessors pumpBudget cpuCount : Option Int) : Except Error Int :=
  match pumpBudget with
  | some budget => .ok budget
  | none => do
      let processors := (logicalProcessors.orElse fun _ => cpuCount).getD 1
      require (1 ≤ processors) (.value "logical processor count must be an integer >= 1")
      return max 12 (processors + 5)

def pumpBudgetOf (logicalProcessors pumpBudget cpuCount : Option Int) : Except Error Int := do
  let budget ← givenPumpBudget logicalProcessors pumpBudget cpuCount
  require (1 ≤ budget) (.value "API pump budget must be an integer >= 1")
  return budget

def allocateApiPumps (limits : PumpLimits) (logicalProcessors pumpBudget cpuCount : Option Int) :
    Except Error (Option (List (String × Nat))) :=
  if limits = [] then .ok (some [])
  else do
    require (limits.all fun entry => 1 ≤ entry.2) (.value "API pump allocation limits must be integers >= 1")
    let poolBudget ← pumpBudgetOf logicalProcessors pumpBudget cpuCount
    let budget := max limits.length (min limits.independentTotal poolBudget.toNat)
    return (whileSome (limits.pumpRound budget) (budget + 1) fun _ => 1).map fun allocations =>
      limits.names.map fun name => (name, allocations name)

namespace PumpLimits

section Allocation

variable {limits : PumpLimits} {allocations : String → Nat} {budget : Nat} {name : String}

structure Proper (limits : PumpLimits) : Prop where
  distinct : (limits.map Prod.fst).Nodup
  positive : ∀ name ∈ limits.names, 1 ≤ limits.limit name

def load (limits : PumpLimits) (name : String) (pumps : Nat) : Rat := limits.limit name / pumps

theorem load_saving {pumps : Nat} (positive : 1 ≤ pumps) :
    saving limits.load name pumps = limits.limit name / (pumps * (pumps + 1) : Rat) := by
  have some_pump : (pumps : Rat) ≠ 0 := by exact_mod_cast Nat.ne_of_gt positive
  have next : (pumps : Rat) + 1 ≠ 0 := by exact_mod_cast Nat.succ_ne_zero pumps
  rw [saving, load, load]
  push_cast
  field_simp
  ring

theorem mem_names : name ∈ limits.names ↔ name ∈ limits.map Prod.fst := (List.perm_insertionSort _ _).mem_iff

theorem limit_nonneg (positive : ∀ name ∈ limits.names, 1 ≤ limits.limit name) (name : String) : 0 ≤ limits.limit name := by
  by_cases member : name ∈ limits.names
  · have one := positive name member
    omega
  · rw [limit, List.find?_eq_none.mpr]
    · rfl
    · intro entry inside here
      exact member (mem_names.mpr (List.mem_map.mpr ⟨entry, inside, by simpa using here⟩))

theorem load_diminishing (positive : ∀ name ∈ limits.names, 1 ≤ limits.limit name) : Diminishing limits.load where
  helps := by
    intro name pumps one
    have limit : (0 : Rat) ≤ limits.limit name := by exact_mod_cast limit_nonneg positive name
    rw [load_saving one]
    positivity
  less := by
    intro name pumps one
    have limit : (0 : Rat) ≤ limits.limit name := by exact_mod_cast limit_nonneg positive name
    have some_pump : (0 : Rat) < pumps := by exact_mod_cast one
    rw [load_saving one, load_saving (Nat.le_succ_of_le one)]
    refine div_le_div_of_nonneg_left limit (by positivity) ?_
    push_cast
    nlinarith

theorem names_distinct (proper : limits.Proper) : limits.names.Nodup :=
  (List.perm_insertionSort _ _).nodup_iff.mpr proper.distinct

theorem names_length : limits.names.length = limits.length := by
  rw [names, (List.perm_insertionSort _ _).length_eq, List.length_map]

theorem independent_bounds : 1 ≤ limits.independent name ∧ limits.independent name ≤ 12 := by
  rw [independent]
  omega

theorem length_le_independent : limits.length ≤ limits.independentTotal := by
  rw [← names_length, independentTotal]
  have each : ∀ items : List String, items.length ≤ (items.map limits.independent).sum := by
    intro items
    induction items with
    | nil => exact Nat.le_refl 0
    | cons item rest ih =>
        have one := (@independent_bounds limits item).1
        simp only [List.length_cons, List.map_cons, List.sum_cons]
        omega
  exact each limits.names

structure Pumping (limits : PumpLimits) (budget : Nat) (allocations : String → Nat) : Prop where
  bounds : ∀ name ∈ limits.names, 1 ≤ allocations name ∧ allocations name ≤ limits.independent name
  within : (limits.names.map allocations).sum ≤ budget
  balanced : Balanced limits.load limits.independent limits.names allocations

theorem pumping_start (enough : limits.length ≤ budget) : limits.Pumping budget fun _ => 1 where
  bounds := fun name _ => ⟨Nat.le_refl 1, independent_bounds.1⟩
  within := by
    rw [List.map_const', List.sum_replicate_nat, names_length, Nat.mul_one]
    exact enough
  balanced := fun _ _ _ _ several => absurd several (Nat.lt_irrefl 1)

theorem pump_round_keeps {next : String → Nat} (proper : limits.Proper) (kept : limits.Pumping budget allocations)
    (round : limits.pumpRound budget allocations = some next) :
    limits.Pumping budget next ∧ budget - (limits.names.map next).sum < budget - (limits.names.map allocations).sum := by
  rw [pumpRound] at round
  by_cases below : (limits.names.map allocations).sum < budget
  · rw [if_pos below] at round
    obtain ⟨chosen, best, rfl⟩ := Option.map_eq_some_iff.mp round
    obtain ⟨member, room⟩ := List.mem_filter.mp (List.argmax_mem best)
    have room : allocations chosen < limits.independent chosen := by simpa using room
    have summed := Lib.sum_update_succ (names_distinct proper) member allocations
    refine ⟨⟨fun name named => ?_, ?_, ?_⟩, ?_⟩
    · have bounds := kept.bounds name named
      by_cases here : name = chosen
      · subst name
        rw [Function.update_self]
        omega
      · rw [Function.update_of_ne here]
        exact bounds
    · rw [summed]
      omega
    · refine Lib.balanced_step (load_diminishing proper.positive) kept.balanced (fun name named => (kept.bounds name named).1)
        member room fun name named vacant => ?_
      have inside : name ∈ limits.names.filter fun name => allocations name < limits.independent name :=
        List.mem_filter.mpr ⟨named, by simpa using vacant⟩
      have most := List.le_of_mem_argmax inside best
      rw [load_saving (kept.bounds name named).1, load_saving (kept.bounds chosen member).1]
      exact most
    · rw [summed]
      omega
  · rw [if_neg below] at round
    cases round

theorem pump_loop_ends (proper : limits.Proper) (enough : limits.length ≤ budget) (most : budget ≤ limits.independentTotal) :
    ∃ allocations, whileSome (limits.pumpRound budget) (budget + 1) (fun _ => 1) = some allocations ∧
      limits.Pumping budget allocations ∧ (limits.names.map allocations).sum = budget := by
  obtain ⟨allocations, ended, kept, left⟩ := Lib.while_ends (fun allocations => budget - (limits.names.map allocations).sum)
    (fun allocations next kept round => pump_round_keeps proper kept round) (budget + 1) (fun _ => 1) (pumping_start enough)
    (by omega)
  refine ⟨allocations, ended, kept, ?_⟩
  have within := kept.within
  by_contra short
  rw [pumpRound, if_pos (by omega), Option.map_eq_none_iff, List.argmax_eq_none, List.filter_eq_nil_iff] at left
  have full : limits.names.map allocations = limits.names.map limits.independent := by
    refine List.map_congr_left fun name member => ?_
    have bounds := kept.bounds name member
    have closed := left name member
    rw [decide_eq_true_eq] at closed
    omega
  rw [full] at short within
  exact short (Nat.le_antisymm within most)

theorem independent_eq_ceil (positive : 1 ≤ limits.limit name) :
    (limits.independent name : Int) = min 12 ⌈(limits.limit name : Rat) / 64⌉ := by
  have ceiling : ⌈(limits.limit name : Rat) / 64⌉ = (limits.limit name + 63) / 64 := by
    rw [Int.ceil_eq_iff]
    have low : 64 * ((limits.limit name + 63) / 64 - 1) < limits.limit name := by omega
    have high : limits.limit name ≤ 64 * ((limits.limit name + 63) / 64) := by omega
    have low : (64 : Rat) * (((limits.limit name + 63) / 64 : Int) - 1) < limits.limit name := by exact_mod_cast low
    have high : (limits.limit name : Rat) ≤ 64 * ((limits.limit name + 63) / 64 : Int) := by exact_mod_cast high
    constructor
    · linarith
    · linarith
  rw [ceiling, independent]
  omega

theorem limit_of_entry (distinct : (limits.map Prod.fst).Nodup) {entry : String × Int} (member : entry ∈ limits) :
    limits.limit entry.1 = entry.2 := by
  have found := Lib.Dict.get_of_mem distinct member
  rw [Lib.Dict.get] at found
  rw [limit, found, Option.getD_some]

theorem proper_of_entries (distinct : (limits.map Prod.fst).Nodup) (positive : ∀ entry ∈ limits, 1 ≤ entry.2) :
    limits.Proper where
  distinct := distinct
  positive := by
    intro name member
    obtain ⟨entry, inside, rfl⟩ := List.mem_map.mp (mem_names.mp member)
    rw [limit_of_entry distinct inside]
    exact positive entry inside

end Allocation

end PumpLimits

section Pumps

variable {limits : PumpLimits} {logicalProcessors pumpBudget cpuCount : Option Int} {poolBudget : Int}

theorem allocate_api_pumps_eq (some_node : limits ≠ []) (distinct : (limits.map Prod.fst).Nodup)
    (positive : ∀ entry ∈ limits, 1 ≤ entry.2)
    (resolved : pumpBudgetOf logicalProcessors pumpBudget cpuCount = .ok poolBudget) :
    ∃ allocations, allocateApiPumps limits logicalProcessors pumpBudget cpuCount =
        .ok (some (limits.names.map fun name => (name, allocations name))) ∧
      limits.Pumping (max limits.length (min limits.independentTotal poolBudget.toNat)) allocations ∧
      (limits.names.map allocations).sum = max limits.length (min limits.independentTotal poolBudget.toNat) := by
  have proper := PumpLimits.proper_of_entries distinct positive
  have enough := @PumpLimits.length_le_independent limits
  obtain ⟨allocations, ended, kept, summed⟩ := @PumpLimits.pump_loop_ends limits
    (max limits.length (min limits.independentTotal poolBudget.toNat)) proper (by omega) (by omega)
  refine ⟨allocations, ?_, kept, summed⟩
  have checked : (limits.all fun entry => 1 ≤ entry.2) = true :=
    List.all_eq_true.mpr fun entry member => decide_eq_true (positive entry member)
  rw [allocateApiPumps, if_neg some_node, checked, resolved]
  show Except.ok ((whileSome _ _ _).map _) = _
  rw [ended]
  rfl

theorem pump_budget_positive (resolved : pumpBudgetOf logicalProcessors pumpBudget cpuCount = .ok poolBudget) :
    1 ≤ poolBudget := by
  obtain ⟨budget, _, rest⟩ := Lib.bind_ok.mp resolved
  obtain ⟨_, positive, same⟩ := Lib.bind_ok.mp rest
  cases same
  simpa using positive

theorem sum_over_names {α : Type} [AddCommMonoid α] (value : String → α) :
    (limits.names.map value).sum = (limits.map fun entry => value entry.1).sum := by
  have same : limits.names.Perm (limits.map Prod.fst) := List.perm_insertionSort _ _
  rw [(same.map value).sum_eq, List.map_map]
  rfl

theorem independent_total_eq (distinct : (limits.map Prod.fst).Nodup) (positive : ∀ entry ∈ limits, 1 ≤ entry.2) :
    (limits.independentTotal : Int) = (limits.map fun entry => min 12 ⌈(entry.2 : Rat) / 64⌉).sum := by
  have summed : limits.independentTotal = (limits.map fun entry => limits.independent entry.1).sum := sum_over_names _
  have cast : ∀ items : PumpLimits, (∀ entry ∈ items, entry ∈ limits) →
      ((items.map fun entry => limits.independent entry.1).sum : Int) =
        (items.map fun entry => min 12 ⌈(entry.2 : Rat) / 64⌉).sum := by
    intro items inside
    induction items with
    | nil => rfl
    | cons item rest ih =>
        have member := inside item List.mem_cons_self
        have here := PumpLimits.limit_of_entry distinct member
        have one := positive item member
        have ceiling := @PumpLimits.independent_eq_ceil limits item.1 (by omega)
        rw [here] at ceiling
        rw [List.map_cons, List.map_cons, List.sum_cons, List.sum_cons, Nat.cast_add,
          ih fun entry later => inside entry (List.mem_cons_of_mem item later), ceiling]
  rw [summed]
  exact cast limits fun _ member => member

-- The pumps of the shared pool: each node's number within its bounds, the pool used up, and no other
-- division of it with these bounds gives less controller load.
theorem api_pumps_optimal (limits : PumpLimits) (logicalProcessors pumpBudget cpuCount : Option Int) (poolBudget : Int)
    (some_node : limits ≠ []) (distinct : (limits.map Prod.fst).Nodup) (positive : ∀ entry ∈ limits, 1 ≤ entry.2)
    (resolved : pumpBudgetOf logicalProcessors pumpBudget cpuCount = .ok poolBudget) :
    ∃ pumps : String → Nat, allocateApiPumps limits logicalProcessors pumpBudget cpuCount =
        .ok (some (limits.names.map fun name => (name, pumps name))) ∧
      (∀ entry ∈ limits, 1 ≤ pumps entry.1 ∧ (pumps entry.1 : Int) ≤ min 12 ⌈(entry.2 : Rat) / 64⌉) ∧
      ((limits.names.map pumps).sum : Int) =
        max (limits.length : Int) (min poolBudget (limits.map fun entry => min 12 ⌈(entry.2 : Rat) / 64⌉).sum) ∧
      ∀ other : String → Nat, (∀ entry ∈ limits, 1 ≤ other entry.1 ∧ (other entry.1 : Int) ≤ min 12 ⌈(entry.2 : Rat) / 64⌉) →
        (limits.map fun entry => other entry.1).sum = (limits.map fun entry => pumps entry.1).sum →
        (limits.map fun entry => (entry.2 : Rat) / pumps entry.1).sum ≤
          (limits.map fun entry => (entry.2 : Rat) / other entry.1).sum := by
  obtain ⟨pumps, result, kept, summed⟩ := allocate_api_pumps_eq some_node distinct positive resolved
  have proper := PumpLimits.proper_of_entries distinct positive
  have ceiling : ∀ entry ∈ limits, (limits.independent entry.1 : Int) = min 12 ⌈(entry.2 : Rat) / 64⌉ := by
    intro entry member
    have here := PumpLimits.limit_of_entry distinct member
    have one := positive entry member
    rw [PumpLimits.independent_eq_ceil (by omega), here]
  have named : ∀ entry ∈ limits, entry.1 ∈ limits.names :=
    fun entry member => PumpLimits.mem_names.mpr (List.mem_map_of_mem member)
  refine ⟨pumps, result, fun entry member => ?_, ?_, fun other bounds total => ?_⟩
  · have bounds := kept.bounds entry.1 (named entry member)
    have cap := ceiling entry member
    omega
  · have one := pump_budget_positive resolved
    have total := independent_total_eq distinct positive
    rw [summed, ← total]
    omega
  · have loads : ∀ counts : String → Nat, (limits.map fun entry => (entry.2 : Rat) / counts entry.1).sum =
        (limits.names.map fun name => limits.load name (counts name)).sum := by
      intro counts
      rw [sum_over_names]
      congr 1
      refine List.map_congr_left fun entry member => ?_
      rw [PumpLimits.load, PumpLimits.limit_of_entry distinct member]
    rw [loads, loads]
    refine Lib.balanced_optimal (PumpLimits.load_diminishing proper.positive) kept.balanced
      (fun name member => (kept.bounds name member).1) (fun name member => ?_) ?_
    · obtain ⟨entry, inside, rfl⟩ := List.mem_map.mp (PumpLimits.mem_names.mp member)
      have bound := bounds entry inside
      have cap := ceiling entry inside
      omega
    · rw [sum_over_names, sum_over_names]
      exact total

theorem api_pumps_optimal_shared :
    allocateApiPumps [("wide", 640), ("middle", 320), ("narrow", 128)] (some 4) none none =
        .ok (some [("middle", 4), ("narrow", 2), ("wide", 6)]) ∧
      ∀ wide middle narrow : Nat, 1 ≤ wide → wide ≤ 10 → 1 ≤ middle → middle ≤ 5 → 1 ≤ narrow → narrow ≤ 2 →
        wide + middle + narrow = 12 → (640 / 6 + 320 / 4 + 128 / 2 : Rat) ≤ 640 / wide + 320 / middle + 128 / narrow := by
  obtain ⟨pumps, result, _, _, least⟩ := api_pumps_optimal [("wide", 640), ("middle", 320), ("narrow", 128)] (some 4) none none
    12 (by decide) (by decide) (by decide) (by rfl)
  have computed : allocateApiPumps [("wide", 640), ("middle", 320), ("narrow", 128)] (some 4) none none =
      .ok (some [("middle", 4), ("narrow", 2), ("wide", 6)]) := by decide +kernel
  have names : PumpLimits.names [("wide", 640), ("middle", 320), ("narrow", 128)] = ["middle", "narrow", "wide"] := by decide
  rw [names] at result
  have same : pumps "middle" = 4 ∧ pumps "narrow" = 2 ∧ pumps "wide" = 6 := by simpa using result.symm.trans computed
  obtain ⟨middleShare, narrowShare, wideShare⟩ := same
  refine ⟨computed, fun wide middle narrow wideLow wideHigh middleLow middleHigh narrowLow narrowHigh whole => ?_⟩
  have load := least (fun name => if name = "wide" then wide else if name = "middle" then middle else narrow) ?_ ?_
  · simp [middleShare, narrowShare, wideShare] at load
    linarith
  · simp
    norm_num
    omega
  · simp [middleShare, narrowShare, wideShare]
    omega

end Pumps

end MicroWorkflow
