import MicroWorkflow.ComponentInterval

set_option autoImplicit false

namespace MicroWorkflow

open Relation (ReflTransGen TransGen)
open Lib (require refuse each orRaise)

inductive InterruptPolicy where
  | runAll | stopAll | individual
deriving DecidableEq, Repr

inductive InterruptAction where
  | run | stop
deriving DecidableEq, Repr

inductive PreflightError where
  | runtime (text : String)
  | value (text : String)
  | policyRequired (text : String)
  | choiceRequired (component : Component)
deriving DecidableEq, Repr

structure InterruptDecision where
  canonicalKey : String
  members : Component
  action : InterruptAction
deriving DecidableEq, Repr

structure UnusedInterruptChoice where
  key : String
  canonicalKey : String
  members : Component
  action : InterruptAction
  reason : String
deriving DecidableEq, Repr

structure InterruptPreflight where
  policy : InterruptPolicy
  decisions : List InterruptDecision
  stoppedComponents : List Component
  blockedComponents : List Component
  unusedChoices : List UnusedInterruptChoice
  explicitStartComponent : Option Component
deriving DecidableEq, Repr

structure SuppliedChoice where
  key : String
  component : Component
  action : InterruptAction
deriving DecidableEq, Repr

def canonical (component : Component) : String := component.headD ""

namespace ComponentTopology

def interruptComponents (topology : ComponentTopology) (interruptNodes : List String) :
    Except PreflightError (List Component) := do
  let unknown := (interruptNodes.filter fun name => name ∉ topology.graph.nodes).dedup.insertionSort (· ≤ ·)
  require unknown.isEmpty (.runtime ("Interrupt declarations name unknown raw nodes: " ++ ", ".intercalate unknown))
  return interruptNodes.map topology.componentId

end ComponentTopology

def stripped (chars : List Char) : String :=
  String.ofList ((chars.dropWhile blank).reverse.dropWhile blank).reverse

def interruptAction (text : String) : Option InterruptAction :=
  if text = "run" then some .run else if text = "stop" then some .stop else none

def parseChoice (text : String) : Except PreflightError (String × InterruptAction) := do
  let badChoice := PreflightError.value "Interrupt choices must use RAW_NODE=run or RAW_NODE=stop"
  require (text.toList.count '=' == 1) badChoice
  let key := stripped (text.toList.takeWhile fun c => c ≠ '=')
  let action ← orRaise (interruptAction (stripped ((text.toList.dropWhile fun c => c ≠ '=').drop 1))) badChoice
  require (key ≠ "") badChoice
  return (key, action)

def choiceFor (supplied : List SuppliedChoice) (component : Component) : Option InterruptAction :=
  (supplied.find? fun choice => choice.component = component).map SuppliedChoice.action

def validatedChoice (topology : ComponentTopology) (classified : List Component) (supplied : List SuppliedChoice)
    (text : String) : Except PreflightError (List SuppliedChoice) := do
  let (key, action) ← parseChoice text
  require (key ∈ topology.graph.nodes) (.value ("Unknown interrupt-choice raw node " ++ reprText key))
  let component := topology.componentId key
  require (component ∈ classified) (.value ("Raw node " ++ reprText key ++ " is not interrupt-classified"))
  require ((choiceFor supplied component).all fun previous => previous = action)
    (.value ("Conflicting interrupt choices for component \x7b" ++ ", ".intercalate component ++ "\x7d"))
  return supplied ++ [⟨key, component, action⟩]

def validatedChoices (topology : ComponentTopology) (classified : List Component) (policy : Option InterruptPolicy)
    (rawChoices : List String) : Except PreflightError (List SuppliedChoice) := do
  refuse (!rawChoices.isEmpty && policy != some .individual)
    (.value "Interrupt choices contradict the selected policy; choices require individual")
  rawChoices.foldlM (validatedChoice topology classified) []

def reachableComponents (dag : ComponentDag) (selected roots stopped : List Component) : List Component :=
  let remaining := selected.filter fun component => component ∉ stopped
  (roots.filter fun root => root ∈ remaining).flatMap fun root => root :: (dag.subgraph remaining).descendants root

def preflightRoots (dag : ComponentDag) (selection : GraphCommandSelection) : List Component :=
  match selection.startComponent with
  | some start => [start]
  | none => selection.components.filter fun component => (dag.predecessors component).isEmpty

def decidedAction (policy : Option InterruptPolicy) (supplied : List SuppliedChoice) (component : Component) :
    Except PreflightError InterruptAction :=
  match policy with
  | none => .error (.policyRequired
      ("Interrupt policy is required before mutation; choose run-all, stop-all, or individual with "
        ++ canonical component ++ "=run or " ++ canonical component ++ "=stop"))
  | some .individual => orRaise (choiceFor supplied component) (.choiceRequired component)
  | some .runAll => .ok .run
  | some .stopAll => .ok .stop

structure PreflightScope where
  dag : ComponentDag
  selected : List Component
  roots : List Component
  classified : List Component
  excluded : Option Component
  policy : Option InterruptPolicy
  supplied : List SuppliedChoice

def PreflightScope.decides (scope : PreflightScope) (stopped : List Component) (component : Component) : Bool :=
  component ∈ reachableComponents scope.dag scope.selected scope.roots stopped ∧ component ∈ scope.classified ∧
    some component ≠ scope.excluded

def PreflightScope.resolve (scope : PreflightScope) : List Component → List InterruptDecision → List Component →
    Except PreflightError (List InterruptDecision × List Component)
  | [], decisions, stopped => .ok (decisions, stopped)
  | component :: rest, decisions, stopped =>
      if scope.decides stopped component then do
        let action ← decidedAction scope.policy scope.supplied component
        scope.resolve rest (decisions ++ [⟨canonical component, component, action⟩])
          (if action = .stop then stopped ++ [component] else stopped)
      else scope.resolve rest decisions stopped

def unusedChoices (excluded : Option Component) (decided : List Component) (supplied : List SuppliedChoice) :
    List UnusedInterruptChoice :=
  let idle := supplied.filter fun choice => choice.component ∉ decided
  (idle.reverse.dedup.reverse).map fun choice =>
    ⟨choice.key, canonical choice.component, choice.component, choice.action,
      if some choice.component = excluded then "explicit starting component" else "unreachable or outside the selection"⟩

def preflightScope (topology : ComponentTopology) (selection : GraphCommandSelection) (classified : List Component)
    (policy : Option InterruptPolicy) (supplied : List SuppliedChoice) (explicitStart : Bool) : PreflightScope where
  dag := topology.componentDag.subgraph selection.components
  selected := selection.components
  roots := preflightRoots (topology.componentDag.subgraph selection.components) selection
  classified := classified
  excluded := if explicitStart then selection.startComponent else none
  policy := policy
  supplied := supplied

def resolveInterruptPreflight (topology : ComponentTopology) (selection : GraphCommandSelection)
    (interruptNodes : List String) (policy : Option InterruptPolicy) (rawChoices : List String) (explicitStart : Bool) :
    Except PreflightError InterruptPreflight := do
  let classified ← topology.interruptComponents interruptNodes
  refuse (explicitStart && !(selection.startComponent.any fun start => start ∈ classified))
    (.value "The explicit starting component is not interrupt-classified")
  let supplied ← validatedChoices topology classified policy rawChoices
  let scope := preflightScope topology selection classified policy supplied explicitStart
  let (decisions, stopped) ← scope.resolve selection.components [] []
  return {
    policy := policy.getD .runAll
    decisions
    stoppedComponents := stopped
    blockedComponents := selection.components.filter fun component =>
      component ∉ reachableComponents scope.dag scope.selected scope.roots stopped
    unusedChoices := unusedChoices scope.excluded (decisions.map InterruptDecision.members) supplied
    explicitStartComponent := if explicitStart then selection.startComponent else none }

section Reachability

variable {topology : ComponentTopology} {selected roots stopped others before after : List Component}
  {component parent : Component}

def OpenEdge (topology : ComponentTopology) (selected stopped : List Component) (source target : Component) : Prop :=
  topology.DagEdge source target ∧ (source ∈ selected ∧ source ∉ stopped) ∧ target ∈ selected ∧ target ∉ stopped

def OpenThrough (topology : ComponentTopology) (selected roots stopped : List Component) (component : Component) : Prop :=
  ∃ root ∈ roots, (root ∈ selected ∧ root ∉ stopped) ∧ ReflTransGen (OpenEdge topology selected stopped) root component

def ReachedThrough (topology : ComponentTopology) (selected roots stopped : List Component) (component : Component) : Prop :=
  component ∈ selected ∧
    (component ∈ roots ∨ ∃ parent, OpenThrough topology selected roots stopped parent ∧ topology.DagEdge parent component)

theorem mem_descendants {dag : ComponentDag} (closed : ∀ edge ∈ dag.edges, edge.2 ∈ dag.nodes)
    (inside : component ∈ dag.nodes) (other : Component) :
    other ∈ component :: dag.descendants component ↔
      ReflTransGen (fun source target => (source, target) ∈ dag.edges) component other := by
  have steps : ∀ item ∈ dag.nodes, ∀ next ∈ dag.successors item, next ∈ dag.nodes :=
    fun _ _ _ step => closed _ (ComponentTopology.mem_successors.mp step)
  have same : Lib.Step dag.successors = fun source target => (source, target) ∈ dag.edges := by
    funext source target
    exact propext ComponentTopology.mem_successors
  rw [List.mem_cons, ComponentDag.descendants, List.mem_filter, Lib.mem_closure steps inside, same, decide_eq_true_eq]
  constructor
  · rintro (rfl | ⟨path, _⟩)
    · exact .refl
    · exact path
  · intro path
    by_cases here : other = component
    · exact .inl here
    · exact .inr ⟨path, here⟩

theorem mem_reachable_components (known : ∀ component ∈ selected, component ∈ topology.hoefleinComponents) :
    component ∈ reachableComponents (topology.componentDag.subgraph selected) selected roots stopped ↔
      OpenThrough topology selected roots stopped component := by
  have remaining : ∀ item, item ∈ selected.filter (fun component => component ∉ stopped) ↔ item ∈ selected ∧ item ∉ stopped := by
    intro item
    rw [List.mem_filter, decide_eq_true_eq]
  have edges : ∀ source target, (source, target) ∈ ((topology.componentDag.subgraph selected).subgraph
      (selected.filter fun component => component ∉ stopped)).edges ↔ OpenEdge topology selected stopped source target := by
    intro source target
    rw [ComponentDag.subgraph, ComponentDag.subgraph, List.mem_filter, List.mem_filter, decide_eq_true_eq, decide_eq_true_eq,
      remaining, remaining]
    constructor
    · rintro ⟨⟨edge, _⟩, both⟩
      exact ⟨edge, both⟩
    · rintro ⟨edge, both⟩
      exact ⟨⟨edge, both.1.1, both.2.1⟩, both⟩
  have nodes : ∀ item, item ∈ selected ∧ item ∉ stopped → item ∈ ((topology.componentDag.subgraph selected).subgraph
      (selected.filter fun component => component ∉ stopped)).nodes := by
    intro item inside
    rw [ComponentDag.subgraph, ComponentDag.subgraph, List.mem_filter, List.mem_filter, decide_eq_true_eq, decide_eq_true_eq,
      remaining]
    exact ⟨⟨known item inside.1, inside.1⟩, inside⟩
  have relation : (fun source target => (source, target) ∈ ((topology.componentDag.subgraph selected).subgraph
      (selected.filter fun component => component ∉ stopped)).edges) = OpenEdge topology selected stopped := by
    funext source target
    exact propext (edges source target)
  have closed : ∀ edge ∈ ((topology.componentDag.subgraph selected).subgraph
      (selected.filter fun component => component ∉ stopped)).edges, edge.2 ∈ ((topology.componentDag.subgraph selected).subgraph
        (selected.filter fun component => component ∉ stopped)).nodes :=
    fun edge member => nodes _ ((edges edge.1 edge.2).mp member).2.2
  rw [reachableComponents, List.mem_flatMap]
  constructor
  · rintro ⟨root, member, found⟩
    rw [List.mem_filter, decide_eq_true_eq, remaining] at member
    rw [mem_descendants closed (nodes root member.2), relation] at found
    exact ⟨root, member.1, member.2, found⟩
  · rintro ⟨root, member, inside, path⟩
    refine ⟨root, ?_, ?_⟩
    · rw [List.mem_filter, decide_eq_true_eq, remaining]
      exact ⟨member, inside⟩
    · rw [mem_descendants closed (nodes root inside), relation]
      exact path

theorem open_inside (reached : OpenThrough topology selected roots stopped component) :
    component ∈ selected ∧ component ∉ stopped := by
  obtain ⟨root, _, inside, path⟩ := reached
  cases path with
  | refl => exact inside
  | tail _ last => exact last.2.2

theorem open_iff_reached (inside : component ∈ selected) (going : component ∉ stopped) :
    OpenThrough topology selected roots stopped component ↔ ReachedThrough topology selected roots stopped component := by
  constructor
  · rintro ⟨root, member, start, path⟩
    cases path with
    | refl => exact ⟨inside, .inl member⟩
    | tail before last => exact ⟨inside, .inr ⟨_, ⟨root, member, start, before⟩, last.1⟩⟩
  · rintro ⟨_, member | ⟨parent, reached, edge⟩⟩
    · exact ⟨component, member, ⟨inside, going⟩, .refl⟩
    · have parentIn := open_inside reached
      obtain ⟨root, member, start, path⟩ := reached
      exact ⟨root, member, start, path.tail ⟨edge, parentIn, inside, going⟩⟩

theorem source_before (ordered : (before ++ component :: after).Pairwise fun earlier later => ¬topology.DagEdge later earlier)
    {source target : Component} (inside : source ∈ before ++ component :: after) (here : target ∈ before ∨ target = component)
    (edge : topology.DagEdge source target) : source ∈ before := by
  obtain ⟨_, tail, across⟩ := List.pairwise_append.mp ordered
  obtain ⟨ahead, _⟩ := List.pairwise_cons.mp tail
  have acyclic : source ≠ target := by
    rintro rfl
    exact ComponentTopology.dag_acyclic _ (.single edge)
  rcases List.mem_append.mp inside with first | rest
  · exact first
  rcases List.mem_cons.mp rest with rfl | later
  · rcases here with first | same
    · exact absurd edge (across target first source List.mem_cons_self)
    · exact absurd same.symm acyclic
  · rcases here with first | rfl
    · exact absurd edge (across target first source (List.mem_cons_of_mem _ later))
    · exact absurd edge (ahead source later)

theorem reached_congr (whole : selected = before ++ component :: after)
    (ordered : selected.Pairwise fun earlier later => ¬topology.DagEdge later earlier)
    (same : ∀ item ∈ before, item ∈ stopped ↔ item ∈ others)
    (reached : ReachedThrough topology selected roots stopped component) :
    ReachedThrough topology selected roots others component := by
  obtain ⟨inside, member | ⟨parent, opened, edge⟩⟩ := reached
  · exact ⟨inside, .inl member⟩
  have parentIn := open_inside opened
  have parentBefore : parent ∈ before := by
    subst whole
    exact source_before ordered parentIn.1 (.inr rfl) edge
  have moved : ∀ item, ReflTransGen (OpenEdge topology selected stopped) item parent →
      item ∈ before ∧ ReflTransGen (OpenEdge topology selected others) item parent := by
    intro item path
    induction path using ReflTransGen.head_induction_on with
    | refl => exact ⟨parentBefore, .refl⟩
    | @head first next step _ ih =>
        obtain ⟨link, firstIn, nextIn⟩ := step
        obtain ⟨nextBefore, rest⟩ := ih
        have firstBefore : first ∈ before := by
          subst whole
          exact source_before ordered firstIn.1 (.inl nextBefore) link
        refine ⟨firstBefore, .head ⟨link, ⟨firstIn.1, ?_⟩, nextIn.1, ?_⟩ rest⟩
        · rw [← same first firstBefore]
          exact firstIn.2
        · rw [← same next nextBefore]
          exact nextIn.2
  obtain ⟨root, member, start, path⟩ := opened
  obtain ⟨rootBefore, walk⟩ := moved root path
  refine ⟨inside, .inr ⟨parent, ⟨root, member, ⟨start.1, ?_⟩, walk⟩, edge⟩⟩
  rw [← same root rootBefore]
  exact start.2

end Reachability

section Resolution

variable {topology : ComponentTopology} {selection : GraphCommandSelection} {scope : PreflightScope}
  {before rest stopped final : List Component} {decisions result : List InterruptDecision} {component : Component}

def PreflightScope.Needs (scope : PreflightScope) (component : Component) : Prop :=
  component ∈ scope.classified ∧ some component ≠ scope.excluded

structure PreflightScope.Over (scope : PreflightScope) (topology : ComponentTopology) : Prop where
  dag : scope.dag = topology.componentDag.subgraph scope.selected
  known : ∀ component ∈ scope.selected, component ∈ topology.hoefleinComponents
  distinct : scope.selected.Nodup
  ordered : scope.selected.Pairwise fun earlier later => ¬topology.DagEdge later earlier

structure Settled (topology : ComponentTopology) (scope : PreflightScope) (before : List Component)
    (decisions : List InterruptDecision) (stopped : List Component) : Prop where
  members : (decisions.map InterruptDecision.members).Sublist before
  halts : stopped = (decisions.filter fun decision => decision.action = .stop).map InterruptDecision.members
  decided : ∀ component ∈ before, component ∈ decisions.map InterruptDecision.members ↔
    scope.Needs component ∧ ReachedThrough topology scope.selected scope.roots stopped component

theorem Settled.stopped_before (settled : Settled topology scope before decisions stopped) (halted : component ∈ stopped) :
    component ∈ before := by
  rw [settled.halts] at halted
  obtain ⟨decision, member, rfl⟩ := List.mem_map.mp halted
  exact settled.members.mem (List.mem_map_of_mem (List.mem_of_mem_filter member))

theorem decides_iff (concluded : scope.Over topology) (inside : component ∈ scope.selected) (going : component ∉ stopped) :
    scope.decides stopped component = true ↔
      scope.Needs component ∧ ReachedThrough topology scope.selected scope.roots stopped component := by
  rw [PreflightScope.decides, decide_eq_true_eq, concluded.dag, mem_reachable_components concluded.known,
    open_iff_reached inside going]
  constructor
  · rintro ⟨reached, needs⟩
    exact ⟨needs, reached⟩
  · rintro ⟨needs, reached⟩
    exact ⟨reached, needs⟩

theorem reached_later (concluded : scope.Over topology) (whole : scope.selected = before ++ component :: rest)
    (halted : List Component) (fresh : ∀ item ∈ before, item ∈ stopped ↔ item ∈ halted) {item : Component}
    (passed : item ∈ before) :
    ReachedThrough topology scope.selected scope.roots stopped item ↔
      ReachedThrough topology scope.selected scope.roots halted item := by
  obtain ⟨first, last, rfl⟩ := List.append_of_mem passed
  have split : scope.selected = first ++ item :: (last ++ component :: rest) := by
    rw [whole, List.append_assoc, List.cons_append]
  constructor
  · exact reached_congr split concluded.ordered fun other member => fresh other (List.mem_append_left _ member)
  · exact reached_congr split concluded.ordered fun other member => (fresh other (List.mem_append_left _ member)).symm

theorem PreflightScope.Over.here (concluded : scope.Over topology) (whole : scope.selected = before ++ component :: rest) :
    component ∉ before ∧ component ∈ scope.selected := by
  have distinct := concluded.distinct
  rw [whole] at distinct ⊢
  exact ⟨fun member => List.disjoint_of_nodup_append distinct member List.mem_cons_self,
    List.mem_append_right _ List.mem_cons_self⟩

theorem settled_step (concluded : scope.Over topology) (whole : scope.selected = before ++ component :: rest)
    (settled : Settled topology scope before decisions stopped) (action : InterruptAction)
    (decides : scope.decides stopped component = true) :
    Settled topology scope (before ++ [component]) (decisions ++ [⟨canonical component, component, action⟩])
      (if action = .stop then stopped ++ [component] else stopped) := by
  obtain ⟨unseen, inside⟩ := concluded.here whole
  have agrees : ∀ item ∈ before, item ∈ stopped ↔ item ∈ if action = .stop then stopped ++ [component] else stopped := by
    intro item member
    have different : item ≠ component := fun same => unseen (same ▸ member)
    by_cases stops : action = .stop
    · rw [if_pos stops, List.mem_append, List.mem_singleton]
      exact ⟨.inl, fun either => either.elim id fun same => absurd same different⟩
    · rw [if_neg stops]
  exact {
    members := by
      rw [List.map_append]
      exact settled.members.append (List.Sublist.refl _)
    halts := by
      rw [List.filter_append, List.map_append, ← settled.halts]
      cases action with
      | run => simp
      | stop => simp
    decided := by
      intro item member
      rw [List.map_append, List.mem_append]
      rcases List.mem_append.mp member with passed | here
      · have different : item ≠ component := fun same => unseen (same ▸ passed)
        rw [settled.decided item passed, reached_later concluded whole _ agrees passed]
        constructor
        · rintro (known | now)
          · exact known
          · exact absurd (List.mem_singleton.mp now) different
        · exact .inl
      · rw [List.mem_singleton] at here
        subst item
        obtain ⟨needs, reached⟩ := (decides_iff concluded inside fun halted => unseen (settled.stopped_before halted)).mp decides
        exact ⟨fun _ => ⟨needs, reached_congr whole concluded.ordered agrees reached⟩, fun _ => .inr List.mem_cons_self⟩ }

theorem settled_skip (concluded : scope.Over topology) (whole : scope.selected = before ++ component :: rest)
    (settled : Settled topology scope before decisions stopped) (skips : ¬scope.decides stopped component = true) :
    Settled topology scope (before ++ [component]) decisions stopped := by
  obtain ⟨unseen, inside⟩ := concluded.here whole
  exact {
    members := settled.members.trans (List.sublist_append_left _ _)
    halts := settled.halts
    decided := by
      intro item member
      rcases List.mem_append.mp member with passed | here
      · exact settled.decided item passed
      · rw [List.mem_singleton] at here
        subst item
        rw [decides_iff concluded inside fun halted => unseen (settled.stopped_before halted)] at skips
        exact ⟨fun decided => absurd (settled.members.mem decided) unseen, fun needs => absurd needs skips⟩ }

theorem resolve_settles (concluded : scope.Over topology) (whole : scope.selected = before ++ rest)
    (settled : Settled topology scope before decisions stopped)
    (resolved : scope.resolve rest decisions stopped = .ok (result, final)) :
    Settled topology scope scope.selected result final := by
  induction rest generalizing before decisions stopped with
  | nil =>
      cases resolved
      rw [whole, List.append_nil]
      exact settled
  | cons component rest ih =>
      have further : scope.selected = (before ++ [component]) ++ rest := by
        rw [whole, List.append_assoc]
        rfl
      rw [PreflightScope.resolve] at resolved
      by_cases decides : scope.decides stopped component = true
      · rw [if_pos decides] at resolved
        obtain ⟨action, _, resolved⟩ := Lib.bind_ok.mp resolved
        exact ih further (settled_step concluded whole settled action decides) resolved
      · rw [if_neg decides] at resolved
        exact ih further (settled_skip concluded whole settled decides) resolved

theorem resolve_extends (resolved : scope.resolve rest decisions stopped = .ok (result, final)) {decision : InterruptDecision}
    (member : decision ∈ decisions) : decision ∈ result := by
  induction rest generalizing decisions stopped with
  | nil =>
      cases resolved
      exact member
  | cons component rest ih =>
      rw [PreflightScope.resolve] at resolved
      by_cases decides : scope.decides stopped component = true
      · rw [if_pos decides] at resolved
        obtain ⟨action, _, resolved⟩ := Lib.bind_ok.mp resolved
        exact ih resolved (List.mem_append_left _ member)
      · rw [if_neg decides] at resolved
        exact ih resolved member

theorem resolve_choices (supplied : List SuppliedChoice)
    (resolved : scope.resolve rest decisions stopped = .ok (result, final))
    (same : ∀ decision ∈ result, choiceFor supplied decision.members = choiceFor scope.supplied decision.members) :
    PreflightScope.resolve { scope with supplied } rest decisions stopped = .ok (result, final) := by
  induction rest generalizing decisions stopped with
  | nil => exact resolved
  | cons component rest ih =>
      rw [PreflightScope.resolve] at resolved ⊢
      by_cases decides : scope.decides stopped component = true
      · rw [if_pos decides] at resolved
        obtain ⟨action, chosen, resolved⟩ := Lib.bind_ok.mp resolved
        have kept := resolve_extends resolved (List.mem_append_right _ List.mem_cons_self)
        have equal := same _ kept
        have again : decidedAction scope.policy supplied component = .ok action := by
          rw [← chosen]
          cases scope.policy with
          | none => rfl
          | some policy =>
              cases policy with
              | runAll => rfl
              | stopAll => rfl
              | individual => rw [decidedAction, decidedAction, equal]
        rw [if_pos (show PreflightScope.decides { scope with supplied } stopped component = true from decides)]
        exact Lib.bind_ok.mpr ⟨action, again, ih resolved⟩
      · rw [if_neg decides] at resolved
        rw [if_neg (show ¬PreflightScope.decides { scope with supplied } stopped component = true from decides)]
        exact ih resolved

end Resolution

section Preflight

variable {topology : ComponentTopology} {selection : GraphCommandSelection} {interruptNodes rawChoices : List String}
  {policy : Option InterruptPolicy} {explicitStart : Bool} {result : InterruptPreflight}

def suppliedChoices (topology : ComponentTopology) (interruptNodes : List String) (policy : Option InterruptPolicy)
    (rawChoices : List String) : Except PreflightError (List SuppliedChoice) := do
  let classified ← topology.interruptComponents interruptNodes
  validatedChoices topology classified policy rawChoices

def NeedsDecision (topology : ComponentTopology) (selection : GraphCommandSelection) (interruptNodes : List String)
    (explicitStart : Bool) (component : Component) : Prop :=
  component ∈ interruptNodes.map topology.componentId ∧ ¬(explicitStart = true ∧ selection.startComponent = some component)

def rootsOf (topology : ComponentTopology) (selection : GraphCommandSelection) : List Component :=
  preflightRoots (topology.componentDag.subgraph selection.components) selection

theorem preflight_steps (resolved : resolveInterruptPreflight topology selection interruptNodes policy rawChoices explicitStart
    = .ok result) :
    ∃ supplied, suppliedChoices topology interruptNodes policy rawChoices = .ok supplied ∧
      topology.interruptComponents interruptNodes = .ok (interruptNodes.map topology.componentId) ∧
      (explicitStart && !(selection.startComponent.any fun start => start ∈ interruptNodes.map topology.componentId)) = false ∧
      (preflightScope topology selection (interruptNodes.map topology.componentId) policy supplied explicitStart).resolve
        selection.components [] [] = .ok (result.decisions, result.stoppedComponents) ∧
      result.policy = policy.getD .runAll ∧
      result.blockedComponents = (selection.components.filter fun component =>
        component ∉ reachableComponents (topology.componentDag.subgraph selection.components) selection.components
          (rootsOf topology selection) result.stoppedComponents) ∧
      result.explicitStartComponent = if explicitStart then selection.startComponent else none := by
  obtain ⟨classified, located, resolved⟩ := Lib.bind_ok.mp resolved
  obtain ⟨_, allowed, resolved⟩ := Lib.bind_ok.mp resolved
  obtain ⟨supplied, given, resolved⟩ := Lib.bind_ok.mp resolved
  obtain ⟨⟨decisions, stopped⟩, settled, resolved⟩ := Lib.bind_ok.mp resolved
  have components : classified = interruptNodes.map topology.componentId := by
    obtain ⟨_, _, same⟩ := Lib.bind_ok.mp located
    cases same
    rfl
  subst components
  cases resolved
  exact ⟨supplied, Lib.bind_ok.mpr ⟨_, located, given⟩, located, by simpa using allowed, settled, rfl, rfl, rfl⟩

theorem preflight_of_steps {supplied : List SuppliedChoice} {decisions : List InterruptDecision} {stopped : List Component}
    (given : suppliedChoices topology interruptNodes policy rawChoices = .ok supplied)
    (located : topology.interruptComponents interruptNodes = .ok (interruptNodes.map topology.componentId))
    (allowed : (explicitStart && !(selection.startComponent.any fun start =>
      start ∈ interruptNodes.map topology.componentId)) = false)
    (settled : (preflightScope topology selection (interruptNodes.map topology.componentId) policy supplied explicitStart).resolve
      selection.components [] [] = .ok (decisions, stopped)) :
    ∃ other, resolveInterruptPreflight topology selection interruptNodes policy rawChoices explicitStart = .ok other ∧
      other.policy = policy.getD .runAll ∧ other.decisions = decisions ∧ other.stoppedComponents = stopped ∧
      other.blockedComponents = (selection.components.filter fun component =>
        component ∉ reachableComponents (topology.componentDag.subgraph selection.components) selection.components
          (rootsOf topology selection) stopped) ∧
      other.explicitStartComponent = if explicitStart then selection.startComponent else none := by
  obtain ⟨classified, again, given⟩ := Lib.bind_ok.mp given
  rw [located] at again
  cases again
  refine ⟨_, Lib.bind_ok.mpr ⟨_, located, Lib.bind_ok.mpr ⟨(), by simpa using allowed, Lib.bind_ok.mpr ⟨supplied, given,
    Lib.bind_ok.mpr ⟨_, settled, rfl⟩⟩⟩⟩, rfl, rfl, rfl, rfl, rfl⟩

theorem needs_iff (supplied : List SuppliedChoice) (component : Component) :
    (preflightScope topology selection (interruptNodes.map topology.componentId) policy supplied explicitStart).Needs component ↔
      NeedsDecision topology selection interruptNodes explicitStart component := by
  rw [PreflightScope.Needs, NeedsDecision, preflightScope]
  cases explicitStart with
  | false => simp
  | true => simp [eq_comm]

-- A preflight decides each classified component once that the running part of the selection reaches, and no
-- other, blocks what it cannot reach, and reads no choice of a component it does not decide but to report
-- it as unused.
theorem interrupt_preflight_resolved (topology : ComponentTopology) (selection : GraphCommandSelection)
    (interruptNodes rawChoices : List String) (policy : Option InterruptPolicy) (explicitStart : Bool)
    (result : InterruptPreflight)
    (known : ∀ component ∈ selection.components, component ∈ topology.hoefleinComponents)
    (distinct : selection.components.Nodup)
    (ordered : selection.components.Pairwise fun earlier later => ¬topology.DagEdge later earlier)
    (resolved : resolveInterruptPreflight topology selection interruptNodes policy rawChoices explicitStart = .ok result) :
    (∀ component ∈ selection.components, NeedsDecision topology selection interruptNodes explicitStart component →
      ReachedThrough topology selection.components (rootsOf topology selection) result.stoppedComponents component →
        (result.decisions.map InterruptDecision.members).count component = 1) ∧
    (∀ decision ∈ result.decisions, NeedsDecision topology selection interruptNodes explicitStart decision.members ∧
      ReachedThrough topology selection.components (rootsOf topology selection) result.stoppedComponents decision.members) ∧
    result.stoppedComponents =
      (result.decisions.filter fun decision => decision.action = .stop).map InterruptDecision.members ∧
    (∀ component, component ∈ result.blockedComponents ↔ component ∈ selection.components ∧
      ¬OpenThrough topology selection.components (rootsOf topology selection) result.stoppedComponents component) ∧
    ∀ otherChoices supplied others, suppliedChoices topology interruptNodes policy rawChoices = .ok supplied →
      suppliedChoices topology interruptNodes policy otherChoices = .ok others →
      (∀ decision ∈ result.decisions, choiceFor others decision.members = choiceFor supplied decision.members) →
        ∃ other, resolveInterruptPreflight topology selection interruptNodes policy otherChoices explicitStart = .ok other ∧
          { other with unusedChoices := result.unusedChoices } = result := by
  obtain ⟨supplied, given, located, allowed, looped, policyIs, blockedIs, startIs⟩ := preflight_steps resolved
  have concluded : (preflightScope topology selection (interruptNodes.map topology.componentId) policy supplied
      explicitStart).Over topology := ⟨rfl, known, distinct, ordered⟩
  have start : Settled topology (preflightScope topology selection (interruptNodes.map topology.componentId) policy supplied
      explicitStart) [] [] [] := ⟨List.Sublist.refl _, rfl, fun _ member => by cases member⟩
  have settled := resolve_settles concluded rfl start looped
  refine ⟨fun component inside needs reached => ?_, fun decision member => ?_, settled.halts, fun component => ?_, ?_⟩
  · have decided := (settled.decided component inside).mpr ⟨(needs_iff supplied component).mpr needs, reached⟩
    exact List.count_eq_one_of_mem (settled.members.nodup distinct) decided
  · have listed : decision.members ∈ result.decisions.map InterruptDecision.members := List.mem_map_of_mem member
    obtain ⟨needs, reached⟩ := (settled.decided _ (settled.members.mem listed)).mp listed
    exact ⟨(needs_iff supplied _).mp needs, reached⟩
  · rw [blockedIs, List.mem_filter, decide_eq_true_eq, mem_reachable_components known]
  · intro otherChoices supplied' others first second same
    rw [given] at first
    cases first
    have looped' := resolve_choices others looped same
    obtain ⟨other, result', policyIs', decisionsAre, stoppedAre, blockedIs', startIs'⟩ :=
      preflight_of_steps second located allowed looped'
    refine ⟨other, result', ?_⟩
    cases other
    cases result
    simp_all

def diamondSelection : GraphCommandSelection where
  command := "runfrom"
  operation := .run
  scope := .downstream
  startComponent := some ["A"]
  components := [["A"], ["B"], ["C"], ["D"], ["Side"]]
  nodes := ["A", "B", "C", "D", "Side"]
  excludedEndComponent := none
  enteringEdges := []
  leavingEdges := []

def diamondPreflight (unused : InterruptAction) : InterruptPreflight where
  policy := .individual
  decisions := [⟨"B", ["B"], .stop⟩, ⟨"C", ["C"], .stop⟩]
  stoppedComponents := [["B"], ["C"]]
  blockedComponents := [["B"], ["C"], ["D"]]
  unusedChoices := [⟨"D", "D", ["D"], unused, "unreachable or outside the selection"⟩]
  explicitStartComponent := none

theorem interrupt_preflight_resolved_diamond :
    ¬OpenThrough ComponentTopology.diamond diamondSelection.components (rootsOf ComponentTopology.diamond diamondSelection)
      [["B"], ["C"]] ["D"] := by
  have ordered : diamondSelection.components.Pairwise fun earlier later =>
      ¬(later, earlier) ∈ ComponentTopology.diamond.componentDag.edges := by decide +kernel
  have resolved := interrupt_preflight_resolved ComponentTopology.diamond diamondSelection ["B", "C", "D"]
    ["B=stop", "C=stop", "D=run"] (some .individual) false (diamondPreflight .run) (by decide +kernel) (by decide +kernel)
    ordered (by decide +kernel)
  exact ((resolved.2.2.2.1 ["D"]).mp (by decide)).2

-- The choice given for a component that is not decided is reported back.
theorem unused_choice_reported :
    resolveInterruptPreflight ComponentTopology.diamond diamondSelection ["B", "C", "D"] (some .individual)
        ["B=stop", "C=stop", "D=run"] false = .ok (diamondPreflight .run) ∧
      resolveInterruptPreflight ComponentTopology.diamond diamondSelection ["B", "C", "D"] (some .individual)
        ["B=stop", "C=stop", "D=stop"] false = .ok (diamondPreflight .stop) ∧
      (∀ decision ∈ (diamondPreflight .run).decisions, decision.members ≠ ["D"]) ∧
      diamondPreflight .run ≠ diamondPreflight .stop := by
  decide +kernel

end Preflight

end MicroWorkflow
