import MicroWorkflow.Lib.Quotient
import MicroWorkflow.Shape

set_option autoImplicit false

namespace MicroWorkflow

open Relation (ReflTransGen TransGen)

section SortedLists

variable {α : Type} [DecidableEq α] (order : α → α → Prop) [DecidableRel order] [Std.Total order] [IsTrans α order]
  [Std.Antisymm order] {left right : List α}

theorem sorted_distinct_congr (same : ∀ item, item ∈ left ↔ item ∈ right) :
    left.dedup.insertionSort order = right.dedup.insertionSort order := by
  refine List.Perm.eq_of_pairwise' (List.pairwise_insertionSort order _) (List.pairwise_insertionSort order _) ?_
  have distinct : left.dedup.Perm right.dedup := by
    refine (List.perm_ext_iff_of_nodup (List.nodup_dedup _) (List.nodup_dedup _)).mpr fun item => ?_
    rw [List.mem_dedup, List.mem_dedup]
    exact same item
  exact ((List.perm_insertionSort order _).trans distinct).trans (List.perm_insertionSort order _).symm

end SortedLists

theorem edge_le_iff {left right : Edge} :
    edgeLe left right = true ↔ left.1 < right.1 ∨ left.1 = right.1 ∧ left.2 ≤ right.2 := by
  simp only [edgeLe, Bool.or_eq_true, Bool.and_eq_true, decide_eq_true_eq, beq_iff_eq]

instance : Std.Total fun left right : Edge => edgeLe left right = true where
  total left right := by
    rw [edge_le_iff, edge_le_iff]
    by_cases before : left.1 < right.1
    · exact .inl (.inl before)
    by_cases after : right.1 < left.1
    · exact .inr (.inl after)
    have same : left.1 = right.1 := String.le_antisymm (String.not_lt.mp after) (String.not_lt.mp before)
    rcases String.le_total left.2 right.2 with low | high
    · exact .inl (.inr ⟨same, low⟩)
    · exact .inr (.inr ⟨same.symm, high⟩)

instance : IsTrans Edge fun left right => edgeLe left right = true where
  trans left middle right := by
    rw [edge_le_iff, edge_le_iff, edge_le_iff]
    rintro (first | ⟨first, low⟩) (second | ⟨second, high⟩)
    · exact .inl (String.lt_trans first second)
    · exact .inl (second ▸ first)
    · exact .inl (first ▸ second)
    · exact .inr ⟨first.trans second, String.le_trans low high⟩

instance : Std.Antisymm fun left right : Edge => edgeLe left right = true where
  antisymm left right := by
    rw [edge_le_iff, edge_le_iff]
    rintro (first | ⟨same, low⟩) (second | ⟨back, high⟩)
    · exact absurd second (String.lt_asymm first)
    · exact absurd first (back ▸ String.lt_irrefl _)
    · exact absurd second (same ▸ String.lt_irrefl _)
    · exact Prod.ext same (String.le_antisymm low high)

theorem component_key_congr {left right : List String} (same : ∀ node, node ∈ left ↔ node ∈ right) :
    componentKey left = componentKey right := sorted_distinct_congr _ same

namespace Shape

variable {shape : Shape}

def Directed (shape : Shape) : Prop := ∀ edge ∈ shape.edges, edge.1 ∈ shape.nodes ∧ edge.2 ∈ shape.nodes

def Next (shape : Shape) : String → String → Prop := Lib.Step shape.hoefleinNext

theorem next_iff {node other : String} : shape.Next node other ↔
    (node, other) ∈ shape.edges ∨ (other, node) ∈ shape.edges ∧ (other, node) ∈ shape.autostartEdges := by
  simp only [Next, Lib.Step, hoefleinNext, List.mem_append, List.mem_filterMap]
  constructor
  · rintro (⟨⟨start, finish⟩, member, chosen⟩ | ⟨⟨start, finish⟩, member, chosen⟩)
    · split at chosen
      · rename_i here
        cases chosen
        exact .inl (by simpa [← show start = node from here] using member)
      · cases chosen
    · split at chosen
      · rename_i here
        cases chosen
        obtain ⟨same, edge⟩ := here
        have same : finish = node := same
        subst same
        exact .inr ⟨edge, member⟩
      · cases chosen
  · rintro (member | ⟨edge, member⟩)
    · exact .inl ⟨_, member, if_pos rfl⟩
    · exact .inr ⟨_, member, if_pos ⟨rfl, edge⟩⟩

theorem next_inside (directed : shape.Directed) {node other : String} (step : shape.Next node other) :
    other ∈ shape.nodes := by
  rcases next_iff.mp step with member | ⟨member, _⟩
  · exact (directed _ member).2
  · exact (directed _ member).1

theorem mem_hoeflein_reach (directed : shape.Directed) {node other : String} (inside : node ∈ shape.nodes) :
    other ∈ shape.hoefleinReach node ↔ ReflTransGen shape.Next node other :=
  Lib.mem_closure (fun _ _ _ step => next_inside directed step) inside other

theorem mem_component_for (directed : shape.Directed) {node other : String} (inside : node ∈ shape.nodes) :
    other ∈ shape.componentFor node ↔ other ∈ shape.nodes ∧ Lib.Mutual shape.Next node other := by
  rw [componentFor, mem_component_key, List.mem_filter]
  constructor
  · rintro ⟨listed, both⟩
    have both := of_decide_eq_true both
    exact ⟨listed, (mem_hoeflein_reach directed inside).mp both.1, (mem_hoeflein_reach directed listed).mp both.2⟩
  · rintro ⟨listed, forth, back⟩
    exact ⟨listed, decide_eq_true ⟨(mem_hoeflein_reach directed inside).mpr forth, (mem_hoeflein_reach directed listed).mpr back⟩⟩

theorem component_for_eq (directed : shape.Directed) {left right : String} (leftIn : left ∈ shape.nodes)
    (rightIn : right ∈ shape.nodes) :
    shape.componentFor left = shape.componentFor right ↔ Lib.Mutual shape.Next left right := by
  constructor
  · intro same
    have itself := (mem_component_for directed rightIn).mpr ⟨rightIn, .refl right⟩
    rw [← same] at itself
    exact ((mem_component_for directed leftIn).mp itself).2
  · intro both
    have members : ∀ other, other ∈ shape.componentFor left ↔ other ∈ shape.componentFor right := by
      intro other
      rw [mem_component_for directed leftIn, mem_component_for directed rightIn]
      exact and_congr_right fun _ => ⟨both.symm.trans, both.trans⟩
    have keyed := component_key_congr members
    have canonical : ∀ node, componentKey (shape.componentFor node) = shape.componentFor node :=
      fun node => component_key_idem _
    rwa [canonical, canonical] at keyed

theorem mem_hoeflein_components {component : Component} :
    component ∈ shape.hoefleinComponents ↔ ∃ node ∈ shape.nodes, shape.componentFor node = component := by
  rw [hoefleinComponents, (List.perm_insertionSort _ _).mem_iff, List.mem_dedup, List.mem_map]

theorem component_of_member (directed : shape.Directed) {component : Component} {node : String}
    (listed : component ∈ shape.hoefleinComponents) (member : node ∈ component) :
    node ∈ shape.nodes ∧ component = shape.componentFor node := by
  obtain ⟨first, inside, rfl⟩ := mem_hoeflein_components.mp listed
  obtain ⟨known, both⟩ := (mem_component_for directed inside).mp member
  exact ⟨known, (component_for_eq directed inside known).mpr both⟩

theorem by_node_component_for (directed : shape.Directed) {node : String} (inside : node ∈ shape.nodes) :
    byNode shape.hoefleinComponents node = some (shape.componentFor node) := by
  have own : node ∈ shape.componentFor node := (mem_component_for directed inside).mpr ⟨inside, .refl node⟩
  cases found : byNode shape.hoefleinComponents node with
  | none =>
      have nowhere := List.find?_eq_none.mp found (shape.componentFor node) (mem_hoeflein_components.mpr ⟨node, inside, rfl⟩)
      exact absurd (decide_eq_true own) nowhere
  | some component =>
      obtain ⟨listed, member⟩ := by_node_mem found
      rw [(component_of_member directed listed member).2]

theorem component_for_canonical (node : String) : componentKey (shape.componentFor node) = shape.componentFor node :=
  component_key_idem _

theorem hoeflein_components_nodup : shape.hoefleinComponents.Nodup :=
  (List.perm_insertionSort _ _).nodup_iff.mpr (List.nodup_dedup _)

section Stored

theorem mem_sorted_edges {edges : List Edge} {edge : Edge} : edge ∈ sortedEdges edges ↔ edge ∈ edges := by
  rw [sortedEdges, (List.perm_insertionSort _ _).mem_iff, List.mem_dedup]

theorem graph_shape_nodes {node : String} : node ∈ shape.graphShape.nodes ↔ node ∈ shape.nodes := mem_component_key

theorem graph_shape_edges {edge : Edge} : edge ∈ shape.graphShape.edges ↔ edge ∈ shape.edges := mem_sorted_edges

theorem graph_shape_autostart {edge : Edge} :
    edge ∈ shape.graphShape.autostartEdges ↔ edge ∈ shape.autostartEdges ∧ edge ∈ shape.edges := by
  rw [graphShape, mem_sorted_edges, List.mem_filter, decide_eq_true_eq]

theorem graph_shape_directed (directed : shape.Directed) : shape.graphShape.Directed := by
  intro edge member
  obtain ⟨start, finish⟩ := directed edge (graph_shape_edges.mp member)
  exact ⟨graph_shape_nodes.mpr start, graph_shape_nodes.mpr finish⟩

theorem graph_shape_next : shape.graphShape.Next = shape.Next := by
  funext node other
  refine propext ?_
  rw [next_iff, next_iff, graph_shape_edges, graph_shape_edges, graph_shape_autostart]
  constructor
  · rintro (member | ⟨edge, member, _⟩)
    · exact .inl member
    · exact .inr ⟨edge, member⟩
  · rintro (member | ⟨edge, member⟩)
    · exact .inl member
    · exact .inr ⟨edge, member, edge⟩

theorem graph_shape_component_for (directed : shape.Directed) {node : String} (inside : node ∈ shape.nodes) :
    shape.graphShape.componentFor node = shape.componentFor node := by
  have members : ∀ other, other ∈ shape.graphShape.componentFor node ↔ other ∈ shape.componentFor node := by
    intro other
    rw [mem_component_for (graph_shape_directed directed) (graph_shape_nodes.mpr inside), mem_component_for directed inside,
      graph_shape_nodes, graph_shape_next]
  have keyed := component_key_congr members
  rwa [component_for_canonical, component_for_canonical] at keyed

theorem graph_shape_components (directed : shape.Directed) :
    shape.graphShape.hoefleinComponents = shape.hoefleinComponents := by
  refine sorted_distinct_congr _ fun component => ?_
  rw [List.mem_map, List.mem_map]
  constructor
  · rintro ⟨node, inside, rfl⟩
    have inside := graph_shape_nodes.mp inside
    exact ⟨node, inside, (graph_shape_component_for directed inside).symm⟩
  · rintro ⟨node, inside, rfl⟩
    exact ⟨node, graph_shape_nodes.mpr inside, graph_shape_component_for directed inside⟩

theorem graph_shape_idem : shape.graphShape.graphShape = shape.graphShape := by
  have nodes : componentKey shape.graphShape.nodes = shape.graphShape.nodes := component_key_idem _
  have edges : sortedEdges shape.graphShape.edges = shape.graphShape.edges :=
    sorted_distinct_congr _ fun _ => mem_sorted_edges
  have autostart : sortedEdges (shape.graphShape.autostartEdges.filter fun edge => edge ∈ shape.graphShape.edges) =
      shape.graphShape.autostartEdges := by
    refine sorted_distinct_congr _ fun edge => ?_
    rw [List.mem_filter, decide_eq_true_eq, graph_shape_edges, graph_shape_autostart, List.mem_filter, decide_eq_true_eq]
    exact ⟨fun both => both.1, fun both => ⟨both, both.2⟩⟩
  conv_lhs => rw [graphShape, nodes, edges, autostart]

theorem graph_shape_well_formed (directed : shape.Directed) (named : ∀ node ∈ shape.nodes, validNodeName node = true) :
    shape.graphShape.wellFormed = true := by
  have stored := graph_shape_directed directed
  simp only [wellFormed, graph_shape_idem, beq_self_eq_true, Bool.and_true, Bool.and_eq_true, List.all_eq_true,
    List.mem_append, decide_eq_true_eq]
  refine ⟨fun node inside => named node (graph_shape_nodes.mp inside), fun edge member => stored edge ?_⟩
  rcases member with member | member
  · exact member
  · exact graph_shape_edges.mpr (graph_shape_autostart.mp member).2

end Stored

end Shape

structure ComponentTopology where
  graph : Shape
  directed : graph.Directed

structure ComponentDag where
  nodes : List Component
  edges : List (Component × Component)

def ComponentDag.predecessors (dag : ComponentDag) (component : Component) : List Component :=
  dag.edges.filterMap fun edge => if edge.2 = component then some edge.1 else none

def ComponentDag.ancestors (dag : ComponentDag) (component : Component) : List Component :=
  (Lib.closure dag.predecessors dag.nodes component).filter fun other => other ≠ component

namespace ComponentTopology

variable {topology : ComponentTopology}

def hoefleinComponents (topology : ComponentTopology) : List Component := topology.graph.hoefleinComponents

def componentId (topology : ComponentTopology) (node : String) : Component :=
  if node ∈ topology.graph.nodes then topology.graph.componentFor node else componentKey [node]

def componentDag (topology : ComponentTopology) : ComponentDag where
  nodes := topology.hoefleinComponents
  edges := topology.graph.edges.filterMap fun edge =>
    match byNode topology.hoefleinComponents edge.1, byNode topology.hoefleinComponents edge.2 with
    | some start, some finish => if start ≠ finish then some (start, finish) else none
    | _, _ => none

def componentPredecessors (topology : ComponentTopology) (component : Component) : List String :=
  (topology.graph.edges.filterMap fun edge => if edge.2 ∈ component then some edge.1 else none).filter fun node =>
    node ∉ component

def componentPredecessorComponents (topology : ComponentTopology) (component : Component) : List Component :=
  (topology.componentPredecessors component).map topology.componentId

def storedShape (topology : ComponentTopology) : Shape := topology.graph.graphShape

def DagEdge (topology : ComponentTopology) (source target : Component) : Prop := (source, target) ∈ topology.componentDag.edges

theorem dag_edge_iff {source target : Component} : topology.DagEdge source target ↔
    source ≠ target ∧ ∃ edge ∈ topology.graph.edges,
      topology.graph.componentFor edge.1 = source ∧ topology.graph.componentFor edge.2 = target := by
  have located := fun edge member => topology.directed edge member
  simp only [DagEdge, componentDag, List.mem_filterMap, hoefleinComponents]
  constructor
  · rintro ⟨edge, member, chosen⟩
    rw [Shape.by_node_component_for topology.directed (located edge member).1,
      Shape.by_node_component_for topology.directed (located edge member).2] at chosen
    simp only [ne_eq, ite_not] at chosen
    split at chosen
    · cases chosen
    · rename_i different
      cases chosen
      exact ⟨different, edge, member, rfl, rfl⟩
  · rintro ⟨different, edge, member, rfl, rfl⟩
    refine ⟨edge, member, ?_⟩
    rw [Shape.by_node_component_for topology.directed (located edge member).1,
      Shape.by_node_component_for topology.directed (located edge member).2]
    exact if_pos different

theorem dag_acyclic (component : Component) : ¬TransGen topology.DagEdge component component := by
  have same : ∀ left right, left ∈ topology.graph.nodes → right ∈ topology.graph.nodes →
      (topology.graph.componentFor left = topology.graph.componentFor right ↔ Lib.Mutual topology.graph.Next left right) :=
    fun _ _ leftIn rightIn => Shape.component_for_eq topology.directed leftIn rightIn
  intro cycle
  refine Lib.quotient_acyclic same component (Relation.TransGen.mono (fun source target edge => ?_) _ _ cycle)
  obtain ⟨different, ⟨start, finish⟩, member, first, last⟩ := dag_edge_iff.mp edge
  obtain ⟨startIn, finishIn⟩ := topology.directed _ member
  exact ⟨different, start, finish, startIn, finishIn, Shape.next_iff.mpr (.inl member), first, last⟩

theorem mem_dag_predecessors {component source : Component} :
    source ∈ topology.componentDag.predecessors component ↔ topology.DagEdge source component := by
  simp only [ComponentDag.predecessors, List.mem_filterMap, DagEdge]
  constructor
  · rintro ⟨⟨first, last⟩, member, chosen⟩
    split at chosen
    · rename_i here
      cases chosen
      have here : last = component := here
      rwa [← here]
    · cases chosen
  · intro member
    exact ⟨_, member, if_pos rfl⟩

theorem dag_edge_inside {source target : Component} (edge : topology.DagEdge source target) :
    source ∈ topology.hoefleinComponents := by
  obtain ⟨_, arrow, member, rfl, _⟩ := dag_edge_iff.mp edge
  exact Shape.mem_hoeflein_components.mpr ⟨arrow.1, (topology.directed arrow member).1, rfl⟩

theorem dag_edge_target {source target : Component} (edge : topology.DagEdge source target) :
    target ∈ topology.hoefleinComponents := by
  obtain ⟨_, arrow, member, _, rfl⟩ := dag_edge_iff.mp edge
  exact Shape.mem_hoeflein_components.mpr ⟨arrow.2, (topology.directed arrow member).2, rfl⟩

theorem reach_flip {target source : Component} :
    ReflTransGen (Lib.Step topology.componentDag.predecessors) target source ↔ ReflTransGen topology.DagEdge source target := by
  have same : Lib.Step topology.componentDag.predecessors = Function.swap topology.DagEdge := by
    funext receiver source
    exact propext mem_dag_predecessors
  rw [same, Relation.reflTransGen_swap]

theorem mem_dag_ancestors {component source : Component} (inside : component ∈ topology.hoefleinComponents) :
    source ∈ topology.componentDag.ancestors component ↔ TransGen topology.DagEdge source component := by
  have closed : ∀ item ∈ topology.componentDag.nodes, ∀ other ∈ topology.componentDag.predecessors item,
      other ∈ topology.componentDag.nodes := fun _ _ _ step => dag_edge_inside (mem_dag_predecessors.mp step)
  rw [ComponentDag.ancestors, List.mem_filter, Lib.mem_closure closed inside, reach_flip, decide_eq_true_eq,
    Relation.reflTransGen_iff_eq_or_transGen]
  constructor
  · rintro ⟨same | path, different⟩
    · exact absurd same.symm different
    · exact path
  · intro path
    refine ⟨.inr path, ?_⟩
    rintro rfl
    exact dag_acyclic _ path

section Stored

variable {target : Component}

theorem component_id_inside {node : String} (inside : node ∈ topology.graph.nodes) :
    topology.componentId node = topology.graph.componentFor node := if_pos inside

theorem stored_components : topology.storedShape.hoefleinComponents = topology.hoefleinComponents :=
  Shape.graph_shape_components topology.directed

theorem stored_snapshot (named : ∀ node ∈ topology.graph.nodes, validNodeName node = true) :
    componentSnapshotFromShape topology.storedShape = .ok topology.hoefleinComponents := by
  have formed : topology.storedShape.wellFormed = true := Shape.graph_shape_well_formed topology.directed named
  rw [componentSnapshotFromShape, if_pos formed, stored_components]

theorem mem_predecessor_components {source : Component} :
    source ∈ topology.componentPredecessorComponents target ↔
      ∃ edge ∈ topology.graph.edges, edge.2 ∈ target ∧ edge.1 ∉ target ∧ topology.graph.componentFor edge.1 = source := by
  simp only [componentPredecessorComponents, componentPredecessors, List.mem_map, List.mem_filter, List.mem_filterMap,
    decide_eq_true_eq]
  constructor
  · rintro ⟨node, ⟨⟨⟨start, finish⟩, member, chosen⟩, outside⟩, rfl⟩
    split at chosen
    · rename_i receives
      cases chosen
      exact ⟨_, member, receives, outside, (component_id_inside (topology.directed _ member).1).symm⟩
    · cases chosen
  · rintro ⟨edge, member, receives, outside, rfl⟩
    exact ⟨edge.1, ⟨⟨edge, member, if_pos receives⟩, outside⟩, component_id_inside (topology.directed _ member).1⟩

theorem stored_predecessors (named : ∀ node ∈ topology.graph.nodes, validNodeName node = true) :
    MicroWorkflow.componentPredecessors topology.storedShape target =
      .ok ((topology.componentPredecessorComponents target).dedup.insertionSort (· ≤ ·)) := by
  rw [MicroWorkflow.componentPredecessors, stored_snapshot named]
  refine congrArg Except.ok (sorted_distinct_congr _ fun source => ?_)
  rw [mem_predecessor_components]
  simp only [List.mem_filterMap, List.mem_filter, decide_eq_true_eq]
  constructor
  · rintro ⟨edge, ⟨member, receives, outside⟩, located⟩
    have member := Shape.graph_shape_edges.mp member
    rw [hoefleinComponents, Shape.by_node_component_for topology.directed (topology.directed _ member).1] at located
    exact ⟨edge, member, receives, outside, Option.some.inj located⟩
  · rintro ⟨edge, member, receives, outside, rfl⟩
    exact ⟨edge, ⟨Shape.graph_shape_edges.mpr member, receives, outside⟩,
      Shape.by_node_component_for topology.directed (topology.directed _ member).1⟩

theorem mem_direct_predecessors {receiver source : Component} :
    source ∈ directPredecessors topology.storedShape topology.hoefleinComponents receiver ↔ topology.DagEdge source receiver := by
  rw [dag_edge_iff]
  simp only [directPredecessors, List.mem_dedup, List.mem_filterMap]
  constructor
  · rintro ⟨edge, member, chosen⟩
    have member := Shape.graph_shape_edges.mp member
    rw [hoefleinComponents, Shape.by_node_component_for topology.directed (topology.directed _ member).1,
      Shape.by_node_component_for topology.directed (topology.directed _ member).2] at chosen
    dsimp only at chosen
    by_cases located : some (topology.graph.componentFor edge.2) = some receiver ∧ topology.graph.componentFor edge.1 ≠ receiver
    · rw [if_pos located] at chosen
      cases chosen
      exact ⟨located.2, edge, member, rfl, Option.some.inj located.1⟩
    · rw [if_neg located] at chosen
      cases chosen
  · rintro ⟨different, edge, member, rfl, rfl⟩
    refine ⟨edge, Shape.graph_shape_edges.mpr member, ?_⟩
    rw [hoefleinComponents, Shape.by_node_component_for topology.directed (topology.directed _ member).1,
      Shape.by_node_component_for topology.directed (topology.directed _ member).2]
    exact if_pos ⟨rfl, different⟩

theorem stored_ancestors (named : ∀ node ∈ topology.graph.nodes, validNodeName node = true)
    (inside : target ∈ topology.hoefleinComponents) :
    componentAncestors topology.storedShape target =
      .ok (topology.hoefleinComponents.filter fun component =>
        component = target ∨ component ∈ topology.componentDag.ancestors target) := by
  have closed : ∀ item ∈ topology.hoefleinComponents,
      ∀ other ∈ directPredecessors topology.storedShape topology.hoefleinComponents item, other ∈ topology.hoefleinComponents :=
    fun _ _ _ => direct_predecessors_mem
  have same : Lib.Step (directPredecessors topology.storedShape topology.hoefleinComponents) =
      Lib.Step topology.componentDag.predecessors := by
    funext receiver source
    exact propext (mem_direct_predecessors.trans mem_dag_predecessors.symm)
  rw [componentAncestors, stored_snapshot named]
  show (Lib.require (decide (target ∈ topology.hoefleinComponents)) _ >>= fun _ => pure _) = _
  rw [decide_eq_true inside]
  refine congrArg Except.ok (List.filter_congr fun component listed => ?_)
  rw [decide_eq_decide, Lib.mem_closure closed inside, same, reach_flip, mem_dag_ancestors inside,
    Relation.reflTransGen_iff_eq_or_transGen]
  exact or_congr eq_comm Iff.rfl

end Stored

-- The components partition the nodes, their quotient has no cycle, and the stored shape answers for
-- predecessors and ancestors as the topology does, the ancestors together with the component they are asked
-- for.
theorem quotient_dag (topology : ComponentTopology) :
    (topology.hoefleinComponents.Nodup ∧
      (∀ component ∈ topology.hoefleinComponents, component ≠ [] ∧ ∀ node ∈ component, node ∈ topology.graph.nodes) ∧
      ∀ node ∈ topology.graph.nodes, ∃ component ∈ topology.hoefleinComponents, node ∈ component ∧
        ∀ other ∈ topology.hoefleinComponents, node ∈ other → other = component) ∧
    (topology.componentDag.nodes = topology.hoefleinComponents ∧
      (∀ source target, topology.DagEdge source target → source ∈ topology.hoefleinComponents ∧
        target ∈ topology.hoefleinComponents) ∧
      ∀ component, ¬TransGen topology.DagEdge component component) ∧
    ((∀ node ∈ topology.graph.nodes, validNodeName node = true) → ∀ target ∈ topology.hoefleinComponents,
      MicroWorkflow.componentPredecessors topology.storedShape target =
        .ok ((topology.componentPredecessorComponents target).dedup.insertionSort (· ≤ ·)) ∧
      componentAncestors topology.storedShape target =
        .ok (topology.hoefleinComponents.filter fun component =>
          component = target ∨ component ∈ topology.componentDag.ancestors target) ∧
      ∀ component, component ∈ topology.componentDag.ancestors target ↔ TransGen topology.DagEdge component target) := by
  refine ⟨⟨Shape.hoeflein_components_nodup, fun component listed => ⟨?_, fun node member => ?_⟩, fun node inside => ?_⟩,
    ⟨rfl, fun source target edge => ⟨dag_edge_inside edge, dag_edge_target edge⟩, dag_acyclic⟩,
    fun named target inside => ⟨stored_predecessors named, stored_ancestors named inside, fun _ => mem_dag_ancestors inside⟩⟩
  · rintro rfl
    obtain ⟨node, inside, same⟩ := Shape.mem_hoeflein_components.mp listed
    have own := (Shape.mem_component_for topology.directed inside).mpr ⟨inside, .refl node⟩
    rw [same] at own
    cases own
  · exact (Shape.component_of_member topology.directed listed member).1
  · refine ⟨_, Shape.mem_hoeflein_components.mpr ⟨node, inside, rfl⟩,
      (Shape.mem_component_for topology.directed inside).mpr ⟨inside, .refl node⟩, fun other listed member => ?_⟩
    exact (Shape.component_of_member topology.directed listed member).2

def soleNode : ComponentTopology := ⟨⟨["a"], [], []⟩, nofun⟩

-- A component is listed among the ancestors read from the stored shape, and is not an ancestor of itself.
theorem component_own_ancestor :
    componentAncestors soleNode.storedShape ["a"] = .ok [["a"]] ∧ soleNode.componentDag.ancestors ["a"] = [] := by
  decide

end ComponentTopology

end MicroWorkflow
