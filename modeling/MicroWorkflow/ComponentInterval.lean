import MicroWorkflow.Lib.TopologicalOrder
import MicroWorkflow.Topology

set_option autoImplicit false

namespace MicroWorkflow

open Relation (ReflTransGen TransGen)

inductive GraphError where
  | invalidGraph (text : String)
  | value (text : String)
  | unfeasible (text : String)
deriving DecidableEq, Repr

namespace ComponentDag

def successors (dag : ComponentDag) (component : Component) : List Component :=
  dag.edges.filterMap fun edge => if edge.1 = component then some edge.2 else none

def descendants (dag : ComponentDag) (component : Component) : List Component :=
  (Lib.closure dag.successors dag.nodes component).filter fun other => other ≠ component

def subgraph (dag : ComponentDag) (selected : List Component) : ComponentDag where
  nodes := dag.nodes.filter fun component => component ∈ selected
  edges := dag.edges.filter fun edge => edge.1 ∈ selected ∧ edge.2 ∈ selected

def lexicographicalTopologicalSort (dag : ComponentDag) : Except GraphError (List Component) :=
  Lib.orRaise (Lib.topologicalOrder dag.predecessors (dag.nodes.insertionSort (· ≤ ·)))
    (.unfeasible "Graph contains a cycle or graph changed during iteration")

end ComponentDag

namespace ComponentTopology

def componentInterval (topology : ComponentTopology) (startNode endNode : String) : Except GraphError (List Component) := do
  Lib.each (fun name => Lib.require (name ∈ topology.graph.nodes)
    (.invalidGraph ("Unknown interval endpoint node " ++ reprText name))) [startNode, endNode]
  let dag := topology.componentDag
  let start := topology.componentId startNode
  let finish := topology.componentId endNode
  let descendants := dag.descendants start
  Lib.require (finish ∈ descendants) (.invalidGraph
    ("End component " ++ reprMembers finish ++ " must be a strict directed descendant of " ++ reprMembers start))
  let selected := (start :: descendants).filter fun component => component ∈ finish :: dag.ancestors finish
  (dag.subgraph (selected.filter fun component => component ≠ finish)).lexicographicalTopologicalSort

structure Interval (topology : ComponentTopology) (start finish : Component) (selected : List Component) : Prop where
  distinct : selected.Nodup
  sourcesFirst : selected.Pairwise fun earlier later => ¬topology.DagEdge later earlier
  between : ∀ component, component ∈ selected ↔
    component ≠ finish ∧ ∃ walk, Lib.Walks topology.DagEdge start finish walk ∧ component ∈ walk
  convex : ∀ first ∈ selected, ∀ last ∈ selected, ∀ component, ReflTransGen topology.DagEdge first component →
    ReflTransGen topology.DagEdge component last → component ∈ selected

section Interval

variable {topology : ComponentTopology} {start finish : Component}

theorem mem_successors {dag : ComponentDag} {source target : Component} :
    target ∈ dag.successors source ↔ (source, target) ∈ dag.edges := by
  simp only [ComponentDag.successors, List.mem_filterMap]
  constructor
  · rintro ⟨⟨first, last⟩, member, chosen⟩
    split at chosen
    · rename_i here
      cases chosen
      have here : first = source := here
      rwa [← here]
    · cases chosen
  · intro member
    exact ⟨_, member, if_pos rfl⟩

theorem mem_dag_successors {component target : Component} :
    target ∈ topology.componentDag.successors component ↔ topology.DagEdge component target := mem_successors

theorem mem_dag_descendants {component : Component} (inside : start ∈ topology.hoefleinComponents) :
    component ∈ topology.componentDag.descendants start ↔ TransGen topology.DagEdge start component := by
  have closed : ∀ item ∈ topology.componentDag.nodes, ∀ other ∈ topology.componentDag.successors item,
      other ∈ topology.componentDag.nodes := fun _ _ _ step => dag_edge_target (mem_dag_successors.mp step)
  have same : Lib.Step topology.componentDag.successors = topology.DagEdge := by
    funext source target
    exact propext mem_dag_successors
  rw [ComponentDag.descendants, List.mem_filter, Lib.mem_closure closed inside, same, decide_eq_true_eq,
    Relation.reflTransGen_iff_eq_or_transGen]
  constructor
  · rintro ⟨equal | path, different⟩
    · exact absurd equal different
    · exact path
  · intro path
    refine ⟨.inr path, ?_⟩
    rintro rfl
    exact dag_acyclic _ path

theorem component_id_listed {node : String} (inside : node ∈ topology.graph.nodes) :
    topology.componentId node ∈ topology.hoefleinComponents := by
  rw [component_id_inside inside]
  exact Shape.mem_hoeflein_components.mpr ⟨node, inside, rfl⟩

theorem dag_reach_inside {component : Component} (inside : start ∈ topology.hoefleinComponents)
    (path : ReflTransGen topology.DagEdge start component) : component ∈ topology.hoefleinComponents := by
  cases path with
  | refl => exact inside
  | tail _ last => exact dag_edge_target last

theorem mem_subgraph_predecessors {selected : List Component} {component source : Component} :
    source ∈ (topology.componentDag.subgraph selected).predecessors component ↔
      topology.DagEdge source component ∧ source ∈ selected ∧ component ∈ selected := by
  simp only [ComponentDag.predecessors, ComponentDag.subgraph, List.mem_filterMap, List.mem_filter, DagEdge, decide_eq_true_eq]
  constructor
  · rintro ⟨⟨first, last⟩, ⟨member, chosenSource, chosenTarget⟩, chosen⟩
    split at chosen
    · rename_i here
      cases chosen
      have here : last = component := here
      subst here
      exact ⟨member, chosenSource, chosenTarget⟩
    · cases chosen
  · rintro ⟨member, chosenSource, chosenTarget⟩
    exact ⟨_, ⟨member, chosenSource, chosenTarget⟩, if_pos rfl⟩

theorem subgraph_sorted (selected : List Component) :
    ∃ order, (topology.componentDag.subgraph selected).lexicographicalTopologicalSort = .ok order ∧ order.Nodup ∧
      (∀ component, component ∈ order ↔ component ∈ topology.hoefleinComponents ∧ component ∈ selected) ∧
      order.Pairwise fun earlier later => ¬topology.DagEdge later earlier := by
  have acyclic : ∀ component ∈ (topology.componentDag.subgraph selected).nodes.insertionSort (· ≤ ·),
      ¬TransGen (fun source target => source ∈ (topology.componentDag.subgraph selected).predecessors target)
        component component := by
    intro component _ cycle
    exact dag_acyclic component
      (Relation.TransGen.mono (fun _ _ edge => (mem_subgraph_predecessors.mp edge).1) _ _ cycle)
  obtain ⟨order, sorted⟩ := Lib.topological_order_total acyclic
  have listed : ∀ component, component ∈ order ↔ component ∈ topology.hoefleinComponents ∧ component ∈ selected := by
    intro component
    rw [(Lib.take_ready_perm sorted).mem_iff, (List.perm_insertionSort _ _).mem_iff, ComponentDag.subgraph, List.mem_filter,
      decide_eq_true_eq]
    rfl
  have sources : ((topology.componentDag.subgraph selected).nodes.insertionSort (· ≤ ·)).Nodup :=
    (List.perm_insertionSort _ _).nodup_iff.mpr (Shape.hoeflein_components_nodup.filter _)
  refine ⟨order, by rw [ComponentDag.lexicographicalTopologicalSort, sorted]; rfl,
    (Lib.take_ready_perm sorted).nodup_iff.mpr sources, listed, ?_⟩
  refine (Lib.take_ready_ordered sources sorted).imp_of_mem fun {earlier later} first second free edge => free ?_
  exact mem_subgraph_predecessors.mpr ⟨edge, ((listed later).mp second).2, ((listed earlier).mp first).2⟩

theorem lexicographical_sort_least {dag : ComponentDag} {before after : List Component} {component other : Component}
    (sorted : dag.lexicographicalTopologicalSort = .ok (before ++ component :: after)) (later : other ∈ after)
    (free : ∀ source ∈ dag.predecessors other, source ∉ component :: after) : component ≤ other := by
  have taken := Lib.orRaise_ok.mp sorted
  exact Lib.take_ready_least (List.pairwise_insertionSort _ _) taken later free

theorem mem_interval_selection {component : Component} (startIn : start ∈ topology.hoefleinComponents)
    (finishIn : finish ∈ topology.hoefleinComponents) :
    component ∈ ((start :: topology.componentDag.descendants start).filter fun other =>
        other ∈ finish :: topology.componentDag.ancestors finish).filter (fun other => other ≠ finish) ↔
      component ≠ finish ∧ ReflTransGen topology.DagEdge start component ∧ ReflTransGen topology.DagEdge component finish := by
  rw [List.mem_filter, List.mem_filter, List.mem_cons, decide_eq_true_eq, decide_eq_true_eq, List.mem_cons,
    mem_dag_descendants startIn, mem_dag_ancestors finishIn, Relation.reflTransGen_iff_eq_or_transGen,
    Relation.reflTransGen_iff_eq_or_transGen, eq_comm (a := finish)]
  exact ⟨fun ⟨⟨after, before⟩, different⟩ => ⟨different, after, before⟩,
    fun ⟨different, after, before⟩ => ⟨⟨after, before⟩, different⟩⟩

theorem interval_of_members {selected : List Component} (startIn : start ∈ topology.hoefleinComponents)
    (distinct : selected.Nodup) (sourcesFirst : selected.Pairwise fun earlier later => ¬topology.DagEdge later earlier)
    (members : ∀ component, component ∈ selected ↔ component ∈ topology.hoefleinComponents ∧
      component ≠ finish ∧ ReflTransGen topology.DagEdge start component ∧ ReflTransGen topology.DagEdge component finish) :
    topology.Interval start finish selected := by
  have between : ∀ component, component ∈ selected ↔
      component ≠ finish ∧ ReflTransGen topology.DagEdge start component ∧ ReflTransGen topology.DagEdge component finish := by
    intro component
    rw [members]
    exact ⟨And.right, fun inside => ⟨dag_reach_inside startIn inside.2.1, inside⟩⟩
  refine ⟨distinct, sourcesFirst, fun component => by rw [between, Lib.on_walk_iff], ?_⟩
  intro first firstIn last lastIn component before after
  have ⟨_, reached, _⟩ := (between first).mp firstIn
  have ⟨different, _, reaches⟩ := (between last).mp lastIn
  refine (between component).mpr ⟨?_, reached.trans before, after.trans reaches⟩
  rintro rfl
  rcases Relation.reflTransGen_iff_eq_or_transGen.mp after with same | path
  · exact different same
  · exact dag_acyclic _ (path.trans_left reaches)

end Interval

section Endpoints

variable {topology : ComponentTopology} {startNode endNode : String}

variable (topology startNode endNode) in
def StrictlyBelow : Prop :=
  startNode ∈ topology.graph.nodes ∧ endNode ∈ topology.graph.nodes ∧
    TransGen topology.DagEdge (topology.componentId startNode) (topology.componentId endNode)

theorem interval_accepted (below : topology.StrictlyBelow startNode endNode) :
    ∃ selected, topology.componentInterval startNode endNode = .ok selected ∧
      topology.Interval (topology.componentId startNode) (topology.componentId endNode) selected := by
  obtain ⟨startIn, endIn, path⟩ := below
  have startListed := component_id_listed startIn
  have finishListed := component_id_listed endIn
  have strict := (mem_dag_descendants startListed).mpr path
  obtain ⟨selected, sorted, distinct, listed, sourcesFirst⟩ := @subgraph_sorted topology
    (((topology.componentId startNode :: topology.componentDag.descendants (topology.componentId startNode)).filter fun other =>
      other ∈ topology.componentId endNode :: topology.componentDag.ancestors (topology.componentId endNode)).filter
        fun other => other ≠ topology.componentId endNode)
  refine ⟨selected, ?_, interval_of_members startListed distinct sourcesFirst fun component => ?_⟩
  · simp only [componentInterval, Lib.each, Lib.require, startIn, endIn, strict, decide_true, if_true]
    exact sorted
  · rw [listed, mem_interval_selection startListed finishListed]

theorem interval_refused (outside : ¬topology.StrictlyBelow startNode endNode) :
    ∃ text, topology.componentInterval startNode endNode = .error (.invalidGraph text) := by
  by_cases startIn : startNode ∈ topology.graph.nodes
  · by_cases endIn : endNode ∈ topology.graph.nodes
    · have notBelow : topology.componentId endNode ∉ topology.componentDag.descendants (topology.componentId startNode) :=
        fun strict => outside ⟨startIn, endIn, (mem_dag_descendants (component_id_listed startIn)).mp strict⟩
      refine ⟨"End component " ++ reprMembers (topology.componentId endNode) ++
        " must be a strict directed descendant of " ++ reprMembers (topology.componentId startNode), ?_⟩
      simp only [componentInterval, Lib.each, Lib.require, startIn, endIn, notBelow, decide_true, decide_false, if_true]
      rfl
    · refine ⟨"Unknown interval endpoint node " ++ reprText endNode, ?_⟩
      simp only [componentInterval, Lib.each, Lib.require, startIn, endIn, decide_true, decide_false, if_true]
      rfl
  · refine ⟨"Unknown interval endpoint node " ++ reprText startNode, ?_⟩
    simp only [componentInterval, Lib.each, Lib.require, startIn, decide_false]
    rfl

end Endpoints

-- The interval is refused exactly when the end is not strictly below the start, and otherwise holds what
-- lies between.
theorem component_interval_between (topology : ComponentTopology) (startNode endNode : String) :
    ((∃ text, topology.componentInterval startNode endNode = .error (.invalidGraph text)) ↔
      ¬topology.StrictlyBelow startNode endNode) ∧
    ((∃ selected, topology.componentInterval startNode endNode = .ok selected ∧
        topology.Interval (topology.componentId startNode) (topology.componentId endNode) selected) ↔
      topology.StrictlyBelow startNode endNode) := by
  constructor
  · refine ⟨fun ⟨text, refused⟩ below => ?_, interval_refused⟩
    obtain ⟨selected, accepted, _⟩ := interval_accepted below
    cases accepted.symm.trans refused
  · refine ⟨fun ⟨selected, accepted, _⟩ => ?_, interval_accepted⟩
    by_contra outside
    obtain ⟨text, refused⟩ := interval_refused outside
    cases accepted.symm.trans refused

def diamond : ComponentTopology :=
  ⟨⟨["A", "B", "C", "D", "Side"], [("A", "B"), ("B", "D"), ("A", "C"), ("C", "D"), ("A", "Side")], []⟩, by simp [Shape.Directed]⟩

example : diamond.componentInterval "A" "D" = .ok [["A"], ["B"], ["C"]] := by decide

end ComponentTopology

inductive GraphOperation where
  | run | resume | reset
deriving DecidableEq, Repr

inductive GraphScope where
  | one | downstream | between | all
deriving DecidableEq, Repr

structure GraphCommandSpec where
  operation : GraphOperation
  scope : GraphScope
deriving DecidableEq, Repr

def graphCommands : List (String × GraphCommandSpec) :=
  [("run", ⟨.run, .one⟩), ("runfrom", ⟨.run, .downstream⟩), ("runbetween", ⟨.run, .between⟩),
    ("resume", ⟨.resume, .one⟩), ("resumefrom", ⟨.resume, .downstream⟩), ("resumebetween", ⟨.resume, .between⟩),
    ("reset", ⟨.reset, .one⟩), ("resetfrom", ⟨.reset, .downstream⟩), ("resetbetween", ⟨.reset, .between⟩)]

def graphCommandSpec (command : String) : Option GraphCommandSpec := graphCommands.lookup command

structure GraphCommandSelection where
  command : String
  operation : GraphOperation
  scope : GraphScope
  startComponent : Option Component
  components : List Component
  nodes : List String
  excludedEndComponent : Option Component
  enteringEdges : List Edge
  leavingEdges : List Edge
deriving DecidableEq, Repr

namespace ComponentTopology

section Selection

-- A topological sort that breaks its ties by the insertion order of the graph, which the components do not record.
variable (topologicalSort : ComponentDag → List Component)

def componentDescendants (topology : ComponentTopology) (component : Component) : List Component :=
  let descendants := topology.componentDag.descendants component
  (topologicalSort topology.componentDag).filter fun item => item ∈ descendants

def executionComponents (topology : ComponentTopology) : List Component :=
  if topology.graph.nodes.isEmpty then []
  else (topologicalSort topology.componentDag).filter fun component => component.any fun node => node ∈ topology.graph.nodes

def enteringEdges (topology : ComponentTopology) (selected : List String) : List Edge :=
  Shape.sortedEdges (topology.graph.edges.filter fun edge => edge.1 ∉ selected ∧ edge.2 ∈ selected)

def leavingEdges (topology : ComponentTopology) (selected : List String) : List Edge :=
  Shape.sortedEdges (topology.graph.edges.filter fun edge => edge.1 ∈ selected ∧ edge.2 ∉ selected)

def selectScope (topology : ComponentTopology) (command : String) (scope : GraphScope) (start : String) (finish : Option String) :
    Except GraphError (List Component × Option Component) :=
  match scope, finish with
  | .between, none => .error (.value (command ++ " requires an end node"))
  | .between, some finish => do
      let components ← topology.componentInterval start finish
      return (components, some (topology.componentId finish))
  | _, some _ => .error (.value (command ++ " does not accept an end node"))
  | .downstream, none =>
      let first := topology.componentId start
      .ok (first :: topology.componentDescendants topologicalSort first, none)
  | _, none => .ok ([topology.componentId start], none)

def selectGraphCommand (topology : ComponentTopology) (command start : String) (finish : Option String) :
    Except GraphError GraphCommandSelection := do
  let spec ← Lib.orRaise (graphCommandSpec command) (.value ("Unknown graph command: " ++ command))
  if (command = "reset" ∨ command = "resetfrom") ∧ start = "*" then
    Lib.require finish.isNone (.value (command ++ " '*' does not accept an end node"))
    let components := topology.executionComponents topologicalSort
    return {
      command, operation := spec.operation, scope := .all, startComponent := none, components, nodes := components.flatten,
      excludedEndComponent := none, enteringEdges := [], leavingEdges := topology.leavingEdges components.flatten }
  else
    Lib.require (start ∈ topology.graph.nodes) (.invalidGraph ("Unknown start node " ++ reprText start))
    let (components, excludedEnd) ← topology.selectScope topologicalSort command spec.scope start finish
    return {
      command, operation := spec.operation, scope := spec.scope, startComponent := some (topology.componentId start),
      components, nodes := components.flatten, excludedEndComponent := excludedEnd,
      enteringEdges := topology.enteringEdges components.flatten,
      leavingEdges := topology.leavingEdges components.flatten }

variable {topologicalSort : ComponentDag → List Component} {topology : ComponentTopology} {command start : String}
  {finish : Option String} {operation : GraphOperation} {selection : GraphCommandSelection}

theorem between_command_selects (spec : graphCommandSpec command = some ⟨operation, .between⟩)
    (selected : topology.selectGraphCommand topologicalSort command start finish = .ok selection) :
    ∃ endNode, finish = some endNode ∧ topology.StrictlyBelow start endNode ∧
      topology.Interval (topology.componentId start) (topology.componentId endNode) selection.components ∧
      selection.nodes = selection.components.flatten ∧
      selection.excludedEndComponent = some (topology.componentId endNode) ∧
      topology.componentId endNode ∉ selection.components := by
  have plain : ¬((command = "reset" ∨ command = "resetfrom") ∧ start = "*") := by
    rintro ⟨rfl | rfl, _⟩ <;> cases spec
  simp only [selectGraphCommand, spec, if_neg plain, Lib.orRaise_some_bind, Lib.bind_ok, Lib.require_ok, Lib.pure_ok] at selected
  obtain ⟨_, _, ⟨components, excluded⟩, chosen, rfl⟩ := selected
  cases finish with
  | none => cases chosen
  | some endNode =>
      simp only [selectScope, Lib.bind_ok, Lib.pure_ok, Prod.mk.injEq] at chosen
      obtain ⟨interval, accepted, rfl, rfl⟩ := chosen
      by_cases below : topology.StrictlyBelow start endNode
      · obtain ⟨again, same, between⟩ := interval_accepted below
        obtain rfl := Except.ok.inj (accepted.symm.trans same)
        exact ⟨endNode, rfl, below, between, rfl, rfl, fun member => ((between.between _).mp member).1 rfl⟩
      · obtain ⟨text, refused⟩ := interval_refused below
        cases accepted.symm.trans refused

end Selection

end ComponentTopology

end MicroWorkflow
