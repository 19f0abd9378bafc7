import MicroWorkflow.ApiPumps
import MicroWorkflow.Lib.Dict
import MicroWorkflow.Topology

set_option autoImplicit false

namespace MicroWorkflow

open Lib (require Dict.get Dict.set Dict.update)

abbrev ApiPumps := List (String × Nat)

namespace ApiPumps

def total (pumps : ApiPumps) : Nat := (pumps.map Prod.snd).sum

def of (pumps : ApiPumps) (node : String) : Nat := (Dict.get pumps node).getD 0

end ApiPumps

structure UnitScheduler where
  units : List Component
  distinct : units.Nodup
  members : ∀ unit ∈ units, unit.Nodup
  apart : ∀ first ∈ units, ∀ second ∈ units, ∀ node ∈ first, node ∈ second → first = second
  apiNode : String → Bool
  sequential : Bool
  interruptBlocked : List Component
  refuseAfter : Option Component
  refuseBefore : Option Component
  parentComponent : Option Component

section Components

variable {topology : ComponentTopology}

theorem component_members {component : Component} (listed : component ∈ topology.hoefleinComponents) : component.Nodup := by
  obtain ⟨node, _, rfl⟩ := Shape.mem_hoeflein_components.mp listed
  rw [← Shape.component_for_canonical node]
  exact (List.perm_insertionSort _ _).nodup_iff.mpr (List.nodup_dedup _)

theorem components_apart {first second : Component} {node : String} (one : first ∈ topology.hoefleinComponents)
    (other : second ∈ topology.hoefleinComponents) (left : node ∈ first) (right : node ∈ second) : first = second :=
  (Shape.component_of_member topology.directed one left).2.trans (Shape.component_of_member topology.directed other right).2.symm

end Components

def ComponentTopology.unitScheduler (topology : ComponentTopology) (units : List Component) (distinct : units.Nodup)
    (listed : ∀ unit ∈ units, unit ∈ topology.hoefleinComponents) (apiNode : String → Bool) (sequential : Bool)
    (interruptBlocked : List Component) (refuseAfter refuseBefore parentComponent : Option Component) : UnitScheduler where
  units
  distinct
  members := fun unit inside => component_members (listed unit inside)
  apart := fun first one second other _ left right =>
    components_apart (listed first one) (listed second other) left right
  apiNode
  sequential
  interruptBlocked
  refuseAfter
  refuseBefore
  parentComponent

structure Selection where
  launch : List Component
  launchApiNodes : PumpLimits
  availablePumps : Nat
  skippedApiUnit : Bool
deriving DecidableEq

structure WavePlan where
  launch : List Component
  wavePumps : ApiPumps
  target : Nat
deriving DecidableEq

namespace UnitScheduler

variable (scheduler : UnitScheduler) (limits : String → Int) (cpuCount : Option Int)

def unitApiNodes (unit : Component) : List String := unit.filter scheduler.apiNode

def readyApiNodes (unit : Component) : PumpLimits := (scheduler.unitApiNodes unit).map fun node => (node, limits node)

def activeApiPumps (futureApiPumps : List (Nat × ApiPumps)) : ApiPumps := Dict.update [] (futureApiPumps.flatMap Prod.snd)

def possibleApiNodes (active : ApiPumps) (ready : List Component) : PumpLimits :=
  ready.foldl (fun nodes unit => Dict.update nodes (scheduler.readyApiNodes limits unit))
    (active.map fun entry => (entry.1, limits entry.1))

def selectUnit (selection : Selection) (unit : Component) : Selection :=
  let unitNodes := scheduler.readyApiNodes limits unit
  if unitNodes.length > selection.availablePumps then { selection with skippedApiUnit := true }
  else {
    launch := selection.launch ++ [unit]
    launchApiNodes := Dict.update selection.launchApiNodes unitNodes
    availablePumps := selection.availablePumps - unitNodes.length
    skippedApiUnit := selection.skippedApiUnit }

def selectUnits (availablePumps : Nat) (ready : List Component) : Selection :=
  ready.foldl (scheduler.selectUnit limits) ⟨[], [], availablePumps, false⟩

def launchBudget (selection : Selection) (target : Nat) (active : ApiPumps) : Int :=
  if selection.skippedApiUnit then selection.launchApiNodes.length else (target : Int) - active.total

def wavePumps (selection : Selection) (target : Nat) (active : ApiPumps) : Except Error (Option ApiPumps) :=
  if selection.launchApiNodes = [] then .ok (some [])
  else allocateApiPumps selection.launchApiNodes none (some (launchBudget selection target active)) cpuCount

def planFor (active : ApiPumps) (ready : List Component) (possible : ApiPumps) : Except Error (Option WavePlan) := do
  let selection := scheduler.selectUnits limits (possible.total - active.total) ready
  let given ← wavePumps cpuCount selection possible.total active
  return given.map fun given => ⟨selection.launch, given, possible.total⟩

-- None stands for a loop of the division that has not ended.
def planWave (futureApiPumps : List (Nat × ApiPumps)) (ready : List Component) : Except Error (Option WavePlan) := do
  let active := activeApiPumps futureApiPumps
  let possible ← allocateApiPumps (scheduler.possibleApiNodes limits active ready) none none cpuCount
  match possible with
  | none => return none
  | some possible => scheduler.planFor limits cpuCount active ready possible

end UnitScheduler

section Division

variable {limits : PumpLimits} {logicalProcessors pumpBudget cpuCount : Option Int} {pumps : ApiPumps}

structure Divided (limits : PumpLimits) (pumps : ApiPumps) : Prop where
  names : pumps.map Prod.fst = limits.names
  positive : ∀ entry ∈ pumps, 1 ≤ entry.2
  enough : limits.length ≤ pumps.total

theorem given_budget {budget poolBudget : Int}
    (resolved : pumpBudgetOf logicalProcessors (some budget) cpuCount = .ok poolBudget) : poolBudget = budget := by
  obtain ⟨given, same, rest⟩ := Lib.bind_ok.mp resolved
  obtain ⟨_, _, kept⟩ := Lib.bind_ok.mp rest
  cases same
  cases kept
  rfl

theorem division_read {answer : Option ApiPumps} (some_node : limits ≠ [])
    (divided : allocateApiPumps limits logicalProcessors pumpBudget cpuCount = .ok answer) :
    (∀ entry ∈ limits, 1 ≤ entry.2) ∧
      ∃ poolBudget, pumpBudgetOf logicalProcessors pumpBudget cpuCount = .ok poolBudget := by
  rw [allocateApiPumps, if_neg some_node] at divided
  obtain ⟨_, checked, body⟩ := Lib.bind_ok.mp divided
  obtain ⟨poolBudget, resolved, _⟩ := Lib.bind_ok.mp body
  refine ⟨fun entry member => ?_, poolBudget, resolved⟩
  exact of_decide_eq_true (List.all_eq_true.mp (Lib.require_ok.mp checked) entry member)

theorem divided_of_ok (distinct : (limits.map Prod.fst).Nodup)
    (found : allocateApiPumps limits logicalProcessors pumpBudget cpuCount = .ok (some pumps)) :
    Divided limits pumps ∧ ∀ budget, pumpBudget = some budget → pumps.total ≤ max limits.length budget.toNat := by
  by_cases nothing : limits = []
  · subst nothing
    cases found
    exact ⟨⟨rfl, nofun, Nat.le_refl 0⟩, fun budget _ => Nat.zero_le _⟩
  · obtain ⟨positive, poolBudget, resolved⟩ := division_read nothing found
    obtain ⟨allocations, result, kept, summed⟩ := allocate_api_pumps_eq nothing distinct positive resolved
    rw [result] at found
    cases found
    have total : ApiPumps.total (limits.names.map fun name => (name, allocations name)) =
        max limits.length (min limits.independentTotal poolBudget.toNat) := by
      rw [← summed, ApiPumps.total, List.map_map]
      rfl
    refine ⟨⟨?_, ?_, ?_⟩, ?_⟩
    · rw [List.map_map]
      exact List.map_id _
    · intro entry member
      obtain ⟨name, inside, rfl⟩ := List.mem_map.mp member
      exact (kept.bounds name inside).1
    · omega
    · rintro budget rfl
      have same := given_budget resolved
      subst same
      omega

theorem allocation_ends (distinct : (limits.map Prod.fst).Nodup) :
    allocateApiPumps limits logicalProcessors pumpBudget cpuCount ≠ .ok none := by
  intro endless
  by_cases nothing : limits = []
  · subst nothing
    cases endless
  · obtain ⟨positive, poolBudget, resolved⟩ := division_read nothing endless
    obtain ⟨allocations, result, _⟩ := allocate_api_pumps_eq nothing distinct positive resolved
    rw [result] at endless
    cases endless

theorem total_eq_sum (distinct : (pumps.map Prod.fst).Nodup) : pumps.total = ((pumps.map Prod.fst).map pumps.of).sum := by
  rw [ApiPumps.total, List.map_map]
  congr 1
  refine List.map_congr_left fun entry member => ?_
  show entry.2 = (Dict.get pumps entry.1).getD 0
  rw [Lib.Dict.get_of_mem distinct member]
  rfl

theorem of_positive (distinct : (pumps.map Prod.fst).Nodup) (positive : ∀ entry ∈ pumps, 1 ≤ entry.2) {node : String}
    (member : node ∈ pumps.map Prod.fst) : 1 ≤ pumps.of node := by
  obtain ⟨entry, inside, rfl⟩ := List.mem_map.mp member
  rw [ApiPumps.of, Lib.Dict.get_of_mem distinct inside]
  exact positive entry inside

end Division

namespace UnitScheduler

section Wave

variable {scheduler : UnitScheduler} {limits : String → Int} {cpuCount : Option Int}
variable {futureApiPumps : List (Nat × ApiPumps)} {running ready : List Component} {plan : WavePlan}

theorem ready_names (unit : Component) :
    (scheduler.readyApiNodes limits unit).map Prod.fst = scheduler.unitApiNodes unit := by
  rw [readyApiNodes, List.map_map]
  exact List.map_id _

theorem ready_names_all (items : List Component) :
    (items.flatMap (scheduler.readyApiNodes limits)).map Prod.fst = items.flatMap scheduler.unitApiNodes := by
  rw [List.map_flatMap]
  exact congrArg (fun names => items.flatMap names) (funext ready_names)

theorem unit_nodes_distinct (distinct : running.Nodup) (inside : ∀ unit ∈ running, unit ∈ scheduler.units) :
    (running.flatMap scheduler.unitApiNodes).Nodup := by
  rw [List.nodup_flatMap]
  refine ⟨fun unit member => (scheduler.members unit (inside unit member)).filter _, ?_⟩
  refine distinct.imp_of_mem fun {first second} one other differ => ?_
  intro node left right
  refine differ (scheduler.apart first (inside first one) second (inside second other) node ?_ ?_)
  · exact (List.mem_filter.mp left).1
  · exact (List.mem_filter.mp right).1

structure Picked (scheduler : UnitScheduler) (limits : String → Int) (before : Selection) (ready chosen : List Component)
    (after : Selection) : Prop where
  sublist : chosen.Sublist ready
  launch : after.launch = before.launch ++ chosen
  nodes : after.launchApiNodes = before.launchApiNodes ++ chosen.flatMap (scheduler.readyApiNodes limits)
  left : (chosen.flatMap (scheduler.readyApiNodes limits)).length + after.availablePumps = before.availablePumps
  all : (ready.flatMap (scheduler.readyApiNodes limits)).length ≤ before.availablePumps →
    chosen = ready ∧ after.skippedApiUnit = before.skippedApiUnit

theorem select_units_picked {before : Selection}
    (distinct : ((before.launchApiNodes ++ ready.flatMap (scheduler.readyApiNodes limits)).map Prod.fst).Nodup) :
    ∃ chosen, Picked scheduler limits before ready chosen (ready.foldl (scheduler.selectUnit limits) before) := by
  induction ready generalizing before with
  | nil =>
      refine ⟨[], List.Sublist.refl [], ?_, ?_, ?_, fun _ => ⟨rfl, rfl⟩⟩
      · exact (List.append_nil _).symm
      · exact (List.append_nil _).symm
      · exact Nat.zero_add _
  | cons unit rest ih =>
      rw [List.flatMap_cons] at distinct
      by_cases larger : (scheduler.readyApiNodes limits unit).length > before.availablePumps
      · have step : scheduler.selectUnit limits before unit = { before with skippedApiUnit := true } := if_pos larger
        have later : ((before.launchApiNodes ++ rest.flatMap (scheduler.readyApiNodes limits)).map Prod.fst).Nodup := by
          refine distinct.sublist (List.Sublist.map _ ?_)
          exact (List.Sublist.refl _).append (List.sublist_append_right _ _)
        obtain ⟨chosen, picked⟩ := @ih { before with skippedApiUnit := true } later
        rw [List.foldl_cons, step]
        refine ⟨chosen, picked.sublist.cons unit, picked.launch, picked.nodes, picked.left, fun enough => ?_⟩
        rw [List.flatMap_cons, List.length_append] at enough
        omega
      · have first : ((before.launchApiNodes ++ scheduler.readyApiNodes limits unit).map Prod.fst).Nodup := by
          refine distinct.sublist (List.Sublist.map _ ?_)
          exact (List.Sublist.refl _).append (List.sublist_append_left _ _)
        have step : scheduler.selectUnit limits before unit = ⟨before.launch ++ [unit],
            before.launchApiNodes ++ scheduler.readyApiNodes limits unit,
            before.availablePumps - (scheduler.readyApiNodes limits unit).length, before.skippedApiUnit⟩ := by
          rw [← Lib.Dict.update_fresh first]
          exact if_neg larger
        rw [List.foldl_cons, step]
        obtain ⟨chosen, picked⟩ := @ih ⟨before.launch ++ [unit], before.launchApiNodes ++ scheduler.readyApiNodes limits unit,
          before.availablePumps - (scheduler.readyApiNodes limits unit).length, before.skippedApiUnit⟩
          (by rw [List.append_assoc]; exact distinct)
        have left := picked.left
        simp only at left
        refine ⟨unit :: chosen, picked.sublist.cons_cons unit, ?_, ?_, ?_, fun enough => ?_⟩
        · rw [picked.launch, List.append_assoc]
          rfl
        · rw [picked.nodes, List.append_assoc, List.flatMap_cons]
        · rw [List.flatMap_cons, List.length_append]
          omega
        · rw [List.flatMap_cons, List.length_append] at enough
          obtain ⟨same, flag⟩ := picked.all (by simp only; omega)
          exact ⟨by rw [same], flag⟩

structure Chosen (scheduler : UnitScheduler) (limits : String → Int) (availablePumps : Nat) (ready : List Component)
    (selection : Selection) : Prop where
  sublist : selection.launch.Sublist ready
  nodes : selection.launchApiNodes = selection.launch.flatMap (scheduler.readyApiNodes limits)
  left : selection.launchApiNodes.length + selection.availablePumps = availablePumps
  all : (ready.flatMap (scheduler.readyApiNodes limits)).length ≤ availablePumps → selection.launch = ready

theorem select_units_chosen (availablePumps : Nat) (distinct : (ready.flatMap scheduler.unitApiNodes).Nodup) :
    Chosen scheduler limits availablePumps ready (scheduler.selectUnits limits availablePumps ready) := by
  obtain ⟨chosen, picked⟩ := @select_units_picked scheduler limits ready ⟨[], [], availablePumps, false⟩
    (by rw [List.nil_append, ready_names_all]; exact distinct)
  have launch : (scheduler.selectUnits limits availablePumps ready).launch = chosen := picked.launch
  have nodes : (scheduler.selectUnits limits availablePumps ready).launchApiNodes =
      chosen.flatMap (scheduler.readyApiNodes limits) := picked.nodes
  constructor
  · rw [launch]
    exact picked.sublist
  · rw [nodes, launch]
  · rw [nodes]
    exact picked.left
  · intro enough
    rw [launch]
    exact (picked.all enough).1

structure Planned (scheduler : UnitScheduler) (active : ApiPumps) (ready : List Component) (plan : WavePlan) : Prop where
  sublist : plan.launch.Sublist ready
  given : ∀ unit ∈ plan.launch, ∀ node ∈ scheduler.unitApiNodes unit, 1 ≤ plan.wavePumps.of node
  total : plan.wavePumps.total = ((plan.launch.flatMap scheduler.unitApiNodes).map plan.wavePumps.of).sum
  within : active.total + plan.wavePumps.total ≤ max active.total plan.target
  all : active = [] → plan.launch = ready

theorem plan_for_planned {active possible : ApiPumps} (ready_distinct : ready.Nodup)
    (ready_inside : ∀ unit ∈ ready, unit ∈ scheduler.units)
    (room : active = [] → (ready.flatMap (scheduler.readyApiNodes limits)).length ≤ possible.total)
    (found : scheduler.planFor limits cpuCount active ready possible = .ok (some plan)) :
    Planned scheduler active ready plan := by
  obtain ⟨given, division, same⟩ := Lib.bind_ok.mp found
  cases given with
  | none => cases same
  | some given =>
      cases same
      have chosen := @select_units_chosen scheduler limits ready (possible.total - active.total)
        (unit_nodes_distinct ready_distinct ready_inside)
      dsimp only
      generalize scheduler.selectUnits limits (possible.total - active.total) ready = selection at chosen division
      have names : selection.launchApiNodes.map Prod.fst = selection.launch.flatMap scheduler.unitApiNodes := by
        rw [chosen.nodes, ready_names_all]
      have names_distinct : (selection.launchApiNodes.map Prod.fst).Nodup := by
        rw [names]
        exact unit_nodes_distinct (ready_distinct.sublist chosen.sublist) fun unit member =>
          ready_inside unit (chosen.sublist.subset member)
      have left := chosen.left
      have all : active = [] → selection.launch = ready := by
        intro idle
        refine chosen.all ?_
        subst idle
        exact room rfl
      by_cases nothing : selection.launchApiNodes = []
      · rw [nothing] at names
        rw [wavePumps, if_pos nothing] at division
        cases division
        refine ⟨chosen.sublist, fun unit member node inside => ?_, ?_, Nat.le_max_left _ _, all⟩
        · exact absurd (List.mem_flatMap.mpr ⟨unit, member, inside⟩) (by rw [← names]; exact List.not_mem_nil)
        · rw [← names]
          rfl
      · have some_node : 0 < selection.launchApiNodes.length := List.length_pos_of_ne_nil nothing
        rw [wavePumps, if_neg nothing] at division
        obtain ⟨divided, most⟩ := divided_of_ok names_distinct division
        have keys : (given.map Prod.fst).Perm (selection.launch.flatMap scheduler.unitApiNodes) := by
          rw [divided.names, ← names]
          exact List.perm_insertionSort _ _
        have keys_distinct : (given.map Prod.fst).Nodup := by
          rw [keys.nodup_iff, ← names]
          exact names_distinct
        refine ⟨chosen.sublist, fun unit member node inside => ?_, ?_, ?_, all⟩
        · exact of_positive keys_distinct divided.positive (keys.mem_iff.mpr (List.mem_flatMap.mpr ⟨unit, member, inside⟩))
        · rw [total_eq_sum keys_distinct]
          exact (keys.map given.of).sum_eq
        · have bound := most _ rfl
          rw [launchBudget] at bound
          dsimp only
          by_cases waits : selection.skippedApiUnit = true
          · rw [if_pos waits] at bound
            omega
          · rw [if_neg waits] at bound
            omega

theorem active_recorded (distinct : ((futureApiPumps.flatMap Prod.snd).map Prod.fst).Nodup) :
    activeApiPumps futureApiPumps = futureApiPumps.flatMap Prod.snd := Lib.Dict.update_fresh distinct

theorem possible_names (recorded : (futureApiPumps.flatMap Prod.snd).map Prod.fst = running.flatMap scheduler.unitApiNodes) :
    (((futureApiPumps.flatMap Prod.snd).map fun entry => (entry.1, limits entry.1)) ++
      ready.flatMap (scheduler.readyApiNodes limits)).map Prod.fst =
        running.flatMap scheduler.unitApiNodes ++ ready.flatMap scheduler.unitApiNodes := by
  rw [List.map_append, ready_names_all, List.map_map, ← recorded]
  rfl

theorem possible_nodes (distinct : (running.flatMap scheduler.unitApiNodes ++ ready.flatMap scheduler.unitApiNodes).Nodup)
    (recorded : (futureApiPumps.flatMap Prod.snd).map Prod.fst = running.flatMap scheduler.unitApiNodes) :
    scheduler.possibleApiNodes limits (futureApiPumps.flatMap Prod.snd) ready =
      ((futureApiPumps.flatMap Prod.snd).map fun entry => (entry.1, limits entry.1)) ++
        ready.flatMap (scheduler.readyApiNodes limits) := by
  refine Lib.Dict.update_all _ ?_
  rw [possible_names recorded]
  exact distinct

theorem possible_distinct (distinct : (running.flatMap scheduler.unitApiNodes ++ ready.flatMap scheduler.unitApiNodes).Nodup)
    (recorded : (futureApiPumps.flatMap Prod.snd).map Prod.fst = running.flatMap scheduler.unitApiNodes) :
    ((scheduler.possibleApiNodes limits (futureApiPumps.flatMap Prod.snd) ready).map Prod.fst).Nodup := by
  rw [possible_nodes distinct recorded, possible_names recorded]
  exact distinct

theorem plan_wave_planned (running_distinct : (running ++ ready).Nodup)
    (inside : ∀ unit ∈ running ++ ready, unit ∈ scheduler.units)
    (recorded : (futureApiPumps.flatMap Prod.snd).map Prod.fst = running.flatMap scheduler.unitApiNodes)
    (found : scheduler.planWave limits cpuCount futureApiPumps ready = .ok (some plan)) :
    Planned scheduler (futureApiPumps.flatMap Prod.snd) ready plan := by
  have distinct := unit_nodes_distinct running_distinct inside
  rw [List.flatMap_append] at distinct
  have active := active_recorded (recorded ▸ distinct.of_append_left)
  obtain ⟨possible, division, rest⟩ := Lib.bind_ok.mp found
  cases possible with
  | none => cases rest
  | some possible =>
      rw [active] at division rest
      obtain ⟨divided, _⟩ := divided_of_ok (possible_distinct distinct recorded) division
      refine plan_for_planned running_distinct.of_append_right
        (fun unit member => inside unit (List.mem_append_right _ member)) (fun _ => ?_) rest
      have enough := divided.enough
      rw [possible_nodes distinct recorded, List.length_append] at enough
      omega

theorem plan_wave_ends (running_distinct : (running ++ ready).Nodup)
    (inside : ∀ unit ∈ running ++ ready, unit ∈ scheduler.units)
    (recorded : (futureApiPumps.flatMap Prod.snd).map Prod.fst = running.flatMap scheduler.unitApiNodes) :
    scheduler.planWave limits cpuCount futureApiPumps ready ≠ .ok none := by
  intro endless
  have distinct := unit_nodes_distinct running_distinct inside
  rw [List.flatMap_append] at distinct
  have active := active_recorded (recorded ▸ distinct.of_append_left)
  obtain ⟨possible, division, rest⟩ := Lib.bind_ok.mp endless
  rw [active] at division rest
  cases possible with
  | none => exact allocation_ends (possible_distinct distinct recorded) division
  | some possible =>
      obtain ⟨given, division, same⟩ := Lib.bind_ok.mp rest
      have chosen := @select_units_chosen scheduler limits ready
        (ApiPumps.total possible - ApiPumps.total (futureApiPumps.flatMap Prod.snd)) distinct.of_append_right
      generalize scheduler.selectUnits limits (ApiPumps.total possible - ApiPumps.total (futureApiPumps.flatMap Prod.snd)) ready =
        selection at chosen division
      cases given with
      | some given => cases same
      | none =>
          rw [wavePumps] at division
          by_cases nothing : selection.launchApiNodes = []
          · rw [if_pos nothing] at division
            cases division
          · rw [if_neg nothing] at division
            refine allocation_ends ?_ division
            rw [chosen.nodes, ready_names_all]
            exact unit_nodes_distinct (running_distinct.of_append_right.sublist chosen.sublist) fun unit member =>
              inside unit (List.mem_append_right _ (chosen.sublist.subset member))

end Wave

end UnitScheduler

end MicroWorkflow
