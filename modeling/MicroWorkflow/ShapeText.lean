import MicroWorkflow.Lib.JsonWriter
import MicroWorkflow.Topology

set_option autoImplicit false

namespace MicroWorkflow

open Lib (Json require orRaise collect)

structure ComponentTopologySnapshot where
  shapeJson : String
  components : List Component
deriving DecidableEq, Repr

def edgeJson (edge : Edge) : Json := .array [.string edge.1, .string edge.2]

def Shape.json (shape : Shape) : Json :=
  .object [("nodes", .array (shape.nodes.map .string)), ("edges", .array (shape.edges.map edgeJson)),
    ("autostart_edges", .array (shape.autostartEdges.map edgeJson))]

def Shape.text (shape : Shape) : String := String.ofList (Json.dumps Json.escapeChar shape.json)

def Shape.snapshot (shape : Shape) : ComponentTopologySnapshot where
  shapeJson := shape.graphShape.text
  components := shape.hoefleinComponents

def ComponentTopology.snapshot (topology : ComponentTopology) : ComponentTopologySnapshot := topology.graph.snapshot

section Reading

def shapeCollections : List String := ["nodes", "edges", "autostart_edges"]

def memberOf (members : List (String × Json)) (name : String) : Option Json :=
  (members.reverse.find? fun member => member.1 = name).map Prod.snd

def readMembers : Json → Except Error (List (String × Json))
  | .object members =>
      if members.all (fun member => member.1 ∈ shapeCollections) &&
          shapeCollections.all (fun name => (memberOf members name).isSome) then .ok members
      else .error (.value "Invalid graph shape collections")
  | _ => .error (.value "Invalid graph shape collections")

def readCollection (members : List (String × Json)) (name : String) : Except Error (List Json) :=
  match memberOf members name with
  | some (.array items) => .ok items
  | _ => .error (.value "Graph shape collections must be lists")

def readNode : Json → Except Error String
  | .string name => if validNodeName name then .ok name else .error (.value ("Unsafe node name: " ++ name))
  | _ => .error (.value "Invalid node name")

def readEdge (nodes : List String) : Json → Except Error Edge
  | .array [.string start, .string finish] =>
      if start ∈ nodes ∧ finish ∈ nodes then .ok (start, finish) else .error (.value "Invalid graph shape edge")
  | _ => .error (.value "Invalid graph shape edge")

def readShape (text : String) : Except Error Shape := do
  let loaded ← orRaise (Json.loads text.toList) (.value "Expecting value")
  let members ← readMembers loaded
  let nodes ← readCollection members "nodes"
  let edges ← readCollection members "edges"
  let autostartEdges ← readCollection members "autostart_edges"
  let nodes ← collect readNode nodes
  let edges ← collect (readEdge nodes) edges
  let autostartEdges ← collect (readEdge nodes) autostartEdges
  return ⟨nodes, edges, autostartEdges⟩

def canonicalSnapshot (text : String) : Except Error ComponentTopologySnapshot := do
  let shape ← readShape text
  require (shape.snapshot.shapeJson == text) (.value "Graph shape must be canonical")
  return shape.snapshot

def componentSnapshotFromShapeText (text : String) : Except Error ComponentTopologySnapshot :=
  match canonicalSnapshot text with
  | .ok snapshot => .ok snapshot
  | .error _ => .error (.value "Invalid producing graph shape")

end Reading

section Codec

variable {shape : Shape}

theorem integral_strings (names : List String) : Json.IntegralItems (names.map .string) := by
  induction names with
  | nil => trivial
  | cons name rest ih => exact ⟨trivial, ih⟩

theorem integral_edges (edges : List Edge) : Json.IntegralItems (edges.map edgeJson) := by
  induction edges with
  | nil => trivial
  | cons edge rest ih => exact ⟨⟨trivial, trivial, trivial⟩, ih⟩

theorem shape_text_loads (shape : Shape) : Json.loads shape.text.toList = some shape.json := by
  rw [Shape.text, String.toList_ofList]
  exact Json.loads_dumps Json.scan_string_escape
    ⟨integral_strings shape.nodes, integral_edges shape.edges, integral_edges shape.autostartEdges, trivial⟩

theorem collect_written {α : Type} {read : Json → Except Error α} {write : α → Json} {items : List α}
    (back : ∀ item ∈ items, read (write item) = .ok item) : collect read (items.map write) = .ok items := by
  induction items with
  | nil => rfl
  | cons item rest ih =>
      rw [List.map_cons, collect, back item List.mem_cons_self, ih fun other inside => back other (List.mem_cons_of_mem _ inside)]

theorem read_shape_text (named : ∀ node ∈ shape.nodes, validNodeName node = true) (directed : shape.Directed)
    (started : ∀ edge ∈ shape.autostartEdges, edge ∈ shape.edges) : readShape shape.text = .ok shape := by
  have nodes : collect readNode (shape.nodes.map .string) = .ok shape.nodes :=
    collect_written fun node inside => by simp only [readNode, named node inside, if_true]
  have edges : ∀ edges : List Edge, (∀ edge ∈ edges, edge ∈ shape.edges) →
      collect (readEdge shape.nodes) (edges.map edgeJson) = .ok edges := by
    intro edges known
    refine collect_written fun edge inside => ?_
    simp only [readEdge, edgeJson]
    exact if_pos (directed edge (known edge inside))
  have members : readMembers shape.json = .ok [("nodes", .array (shape.nodes.map .string)),
      ("edges", .array (shape.edges.map edgeJson)), ("autostart_edges", .array (shape.autostartEdges.map edgeJson))] := rfl
  rw [readShape, shape_text_loads, Lib.orRaise_some_bind, members]
  show (collect readNode (shape.nodes.map .string) >>= _) = _
  rw [nodes]
  show (collect (readEdge shape.nodes) (shape.edges.map edgeJson) >>= _) = _
  rw [edges shape.edges fun _ inside => inside]
  show (collect (readEdge shape.nodes) (shape.autostartEdges.map edgeJson) >>= _) = _
  rw [edges shape.autostartEdges started]
  rfl

theorem read_node_ok {item : Json} {node : String} (read : readNode item = .ok node) :
    validNodeName node = true ∧ item = .string node := by
  unfold readNode at read
  split at read
  · split at read
    · rename_i valid
      cases read
      exact ⟨valid, rfl⟩
    · cases read
  · cases read

theorem read_edge_ok {nodes : List String} {item : Json} {edge : Edge} (read : readEdge nodes item = .ok edge) :
    (edge.1 ∈ nodes ∧ edge.2 ∈ nodes) ∧ item = edgeJson edge := by
  unfold readEdge at read
  split at read
  · split at read
    · rename_i known
      cases read
      exact ⟨known, rfl⟩
    · cases read
  · cases read

theorem read_shape_parts {text : String} (read : readShape text = .ok shape) :
    ∃ loaded members nodes edges autostartEdges, Json.loads text.toList = some loaded ∧ readMembers loaded = .ok members ∧
      (readCollection members "nodes" = .ok nodes ∧ readCollection members "edges" = .ok edges ∧
        readCollection members "autostart_edges" = .ok autostartEdges) ∧
      collect readNode nodes = .ok shape.nodes ∧ collect (readEdge shape.nodes) edges = .ok shape.edges ∧
      collect (readEdge shape.nodes) autostartEdges = .ok shape.autostartEdges := by
  simp only [readShape, Lib.bind_ok, Lib.orRaise_ok, Lib.pure_ok] at read
  obtain ⟨loaded, parsed, members, named, nodes, nodeItems, edges, edgeItems, autostartEdges, autostartItems,
    nodeNames, nodesRead, edgeNames, edgesRead, autostartNames, autostartRead, rfl⟩ := read
  exact ⟨loaded, members, nodes, edges, autostartEdges, parsed, named, ⟨nodeItems, edgeItems, autostartItems⟩, nodesRead,
    edgesRead, autostartRead⟩

theorem read_shape_ok {text : String} (read : readShape text = .ok shape) :
    (∀ node ∈ shape.nodes, validNodeName node = true) ∧ shape.Directed ∧
      ∀ edge ∈ shape.autostartEdges, edge.1 ∈ shape.nodes ∧ edge.2 ∈ shape.nodes := by
  obtain ⟨_, _, nodes, edges, autostartEdges, _, _, _, nodesRead, edgesRead, autostartRead⟩ := read_shape_parts read
  refine ⟨fun node inside => ?_, fun edge inside => ?_, fun edge inside => ?_⟩
  · obtain ⟨item, _, done⟩ := (Lib.mem_of_collect nodesRead).1 node inside
    exact (read_node_ok done).1
  · obtain ⟨item, _, done⟩ := (Lib.mem_of_collect edgesRead).1 edge inside
    exact (read_edge_ok done).1
  · obtain ⟨item, _, done⟩ := (Lib.mem_of_collect autostartRead).1 edge inside
    exact (read_edge_ok done).1

theorem component_snapshot_text_ok {text : String} {snapshot : ComponentTopologySnapshot} :
    componentSnapshotFromShapeText text = .ok snapshot ↔
      ∃ shape, readShape text = .ok shape ∧ shape.snapshot.shapeJson = text ∧ snapshot = shape.snapshot := by
  have inner : canonicalSnapshot text = .ok snapshot ↔
      ∃ shape, readShape text = .ok shape ∧ shape.snapshot.shapeJson = text ∧ snapshot = shape.snapshot := by
    simp only [canonicalSnapshot, Lib.bind_ok, Lib.require_ok, beq_iff_eq, Lib.pure_ok]
    constructor
    · rintro ⟨shape, read, _, same, rfl⟩
      exact ⟨shape, read, same, rfl⟩
    · rintro ⟨shape, read, same, rfl⟩
      exact ⟨shape, read, (), same, rfl⟩
  rw [← inner, componentSnapshotFromShapeText]
  cases canonicalSnapshot text with
  | ok found => exact Iff.rfl
  | error error => simp

end Codec

section RoundTrip

variable {topology : ComponentTopology}

theorem snapshot_read_back (named : ∀ node ∈ topology.graph.nodes, validNodeName node = true) :
    componentSnapshotFromShapeText topology.snapshot.shapeJson = .ok topology.snapshot := by
  have stored := Shape.graph_shape_directed topology.directed
  have names : ∀ node ∈ topology.graph.graphShape.nodes, validNodeName node = true :=
    fun node inside => named node (Shape.graph_shape_nodes.mp inside)
  have started : ∀ edge ∈ topology.graph.graphShape.autostartEdges, edge ∈ topology.graph.graphShape.edges :=
    fun edge inside => Shape.graph_shape_edges.mpr (Shape.graph_shape_autostart.mp inside).2
  have again : topology.graph.graphShape.snapshot = topology.snapshot := by
    show ComponentTopologySnapshot.mk _ _ = ComponentTopologySnapshot.mk _ _
    rw [Shape.graph_shape_idem, Shape.graph_shape_components topology.directed]
  refine component_snapshot_text_ok.mpr ⟨topology.graph.graphShape, read_shape_text names stored started, ?_, again.symm⟩
  rw [again]

theorem snapshot_congr {left right : ComponentTopology} (nodes : ∀ node, node ∈ left.graph.nodes ↔ node ∈ right.graph.nodes)
    (edges : ∀ edge, edge ∈ left.graph.edges ↔ edge ∈ right.graph.edges)
    (autostart : ∀ edge ∈ left.graph.edges, edge ∈ left.graph.autostartEdges ↔ edge ∈ right.graph.autostartEdges) :
    left.snapshot = right.snapshot := by
  have shapes : left.graph.graphShape = right.graph.graphShape := by
    have nodeKey : componentKey left.graph.nodes = componentKey right.graph.nodes := component_key_congr nodes
    have edgeKey : Shape.sortedEdges left.graph.edges = Shape.sortedEdges right.graph.edges := sorted_distinct_congr _ edges
    have autostartKey : Shape.sortedEdges (left.graph.autostartEdges.filter fun edge => edge ∈ left.graph.edges) =
        Shape.sortedEdges (right.graph.autostartEdges.filter fun edge => edge ∈ right.graph.edges) := by
      refine sorted_distinct_congr _ fun edge => ?_
      rw [List.mem_filter, List.mem_filter, decide_eq_true_eq, decide_eq_true_eq, ← edges edge]
      exact ⟨fun both => ⟨(autostart edge both.2).mp both.1, both.2⟩, fun both => ⟨(autostart edge both.2).mpr both.1, both.2⟩⟩
    rw [Shape.graphShape, nodeKey, edgeKey, autostartKey]
    rfl
  show ComponentTopologySnapshot.mk _ _ = ComponentTopologySnapshot.mk _ _
  rw [shapes, ← Shape.graph_shape_components left.directed, ← Shape.graph_shape_components right.directed, shapes]

theorem accepted_text_canonical {text : String} {snapshot : ComponentTopologySnapshot}
    (accepted : componentSnapshotFromShapeText text = .ok snapshot) :
    snapshot.shapeJson = text ∧ ∃ topology : ComponentTopology,
      (∀ node ∈ topology.graph.nodes, validNodeName node = true) ∧ topology.snapshot = snapshot := by
  obtain ⟨shape, read, same, rfl⟩ := component_snapshot_text_ok.mp accepted
  obtain ⟨named, directed, _⟩ := read_shape_ok read
  exact ⟨same, ⟨shape, directed⟩, named, rfl⟩

theorem shape_text_injective {left right : Shape} (same : left.text = right.text) : left = right := by
  have loaded := shape_text_loads left
  rw [same, shape_text_loads right] at loaded
  have strings : Function.Injective Json.string := fun _ _ => Json.string.inj
  have pairs : Function.Injective edgeJson := by
    rintro ⟨start, finish⟩ ⟨other, last⟩ equal
    simp only [edgeJson, Json.array.injEq, List.cons.injEq, Json.string.injEq, and_true] at equal
    exact Prod.ext equal.1 equal.2
  obtain ⟨nodes, edges, autostart⟩ : right.nodes.map Json.string = left.nodes.map Json.string ∧
      right.edges.map edgeJson = left.edges.map edgeJson ∧
      right.autostartEdges.map edgeJson = left.autostartEdges.map edgeJson := by
    simpa [Shape.json] using loaded
  have nodes := List.map_injective_iff.mpr strings nodes
  have edges := List.map_injective_iff.mpr pairs edges
  have autostart := List.map_injective_iff.mpr pairs autostart
  cases left
  cases right
  simp_all

theorem snapshot_text_shows {left right : ComponentTopology} (same : left.snapshot.shapeJson = right.snapshot.shapeJson) :
    (∀ node, node ∈ left.graph.nodes ↔ node ∈ right.graph.nodes) ∧
      (∀ edge, edge ∈ left.graph.edges ↔ edge ∈ right.graph.edges) ∧
      ∀ edge ∈ left.graph.edges, edge ∈ left.graph.autostartEdges ↔ edge ∈ right.graph.autostartEdges := by
  have shapes : left.graph.graphShape = right.graph.graphShape := shape_text_injective same
  have edges : ∀ edge, edge ∈ left.graph.edges ↔ edge ∈ right.graph.edges := by
    intro edge
    rw [← Shape.graph_shape_edges, shapes, Shape.graph_shape_edges]
  refine ⟨fun node => ?_, edges, fun edge inside => ?_⟩
  · rw [← Shape.graph_shape_nodes, shapes, Shape.graph_shape_nodes]
  · have started : edge ∈ left.graph.graphShape.autostartEdges ↔ edge ∈ right.graph.graphShape.autostartEdges := by rw [shapes]
    rw [Shape.graph_shape_autostart, Shape.graph_shape_autostart] at started
    exact ⟨fun here => (started.mp ⟨here, inside⟩).1, fun here => (started.mpr ⟨here, (edges edge).mp inside⟩).1⟩

section StoredShape

variable {shape : Shape}

theorem collect_back {α : Type} {read : Json → Except Error α} {write : α → Json} {items found : List α}
    (back : ∀ item value, read (write item) = .ok value → value = item)
    (collected : collect read (items.map write) = .ok found) : found = items := by
  have related := Lib.collect_ok.mp collected
  rw [List.forall₂_map_left_iff] at related
  refine (List.forall₂_eq_eq_eq ▸ related.imp fun item value read => (back item value read).symm :).symm

theorem read_text_unique {other : Shape} (read : readShape shape.text = .ok other) : other = shape := by
  obtain ⟨loaded, members, nodes, edges, autostartEdges, parsed, named, ⟨nodeItems, edgeItems, autostartItems⟩, nodesRead,
    edgesRead, autostartRead⟩ := read_shape_parts read
  rw [shape_text_loads] at parsed
  cases parsed
  cases named
  cases nodeItems
  cases edgeItems
  cases autostartItems
  have strings : ∀ item value, readNode (.string item) = .ok value → value = item := by
    intro item value done
    exact (Json.string.inj (read_node_ok done).2).symm
  have pairs : ∀ nodes item value, readEdge nodes (edgeJson item) = .ok value → value = item := by
    intro nodes item value done
    have same := (read_edge_ok done).2
    simp only [edgeJson, Json.array.injEq, List.cons.injEq, Json.string.injEq, and_true] at same
    exact (Prod.ext same.1 same.2).symm
  have nodes := collect_back strings nodesRead
  have edges := collect_back (pairs other.nodes) edgesRead
  have autostart := collect_back (pairs other.nodes) autostartRead
  cases other
  cases shape
  simp_all

theorem stored_shape_reads (shape : Shape) : componentSnapshotFromShapeText shape.text =
    (componentSnapshotFromShape shape).map fun components => ⟨shape.text, components⟩ := by
  by_cases formed : shape.wellFormed = true
  · have accepted : componentSnapshotFromShape shape = .ok shape.hoefleinComponents := if_pos formed
    simp only [Shape.wellFormed, Bool.and_eq_true, List.all_eq_true, List.mem_append, decide_eq_true_eq, beq_iff_eq] at formed
    obtain ⟨⟨named, ends⟩, canonical⟩ := formed
    have started : ∀ edge ∈ shape.autostartEdges, edge ∈ shape.edges := by
      intro edge inside
      rw [← canonical] at inside
      exact (Shape.graph_shape_autostart.mp inside).2
    have read := read_shape_text named (fun edge inside => ends edge (.inl inside)) started
    rw [accepted]
    refine component_snapshot_text_ok.mpr ⟨shape, read, ?_, ?_⟩
    · rw [Shape.snapshot, canonical]
    · rw [Shape.snapshot, canonical]
  · have refused : componentSnapshotFromShape shape = .error (.value "Invalid producing graph shape") := if_neg formed
    rw [refused]
    cases outcome : componentSnapshotFromShapeText shape.text with
    | ok snapshot =>
        obtain ⟨other, read, same, _⟩ := component_snapshot_text_ok.mp outcome
        have unique := read_text_unique read
        subst unique
        have canonical : other.graphShape = other := shape_text_injective same
        obtain ⟨named, directed, started⟩ := read_shape_ok read
        refine absurd ?_ formed
        simp only [Shape.wellFormed, canonical, beq_self_eq_true, Bool.and_eq_true, List.all_eq_true,
          List.mem_append, decide_eq_true_eq]
        refine ⟨⟨named, fun edge inside => ?_⟩, trivial⟩
        rcases inside with edge_of_graph | starting
        · exact directed edge edge_of_graph
        · exact started edge starting
    | error error =>
        unfold componentSnapshotFromShapeText at outcome
        split at outcome
        · cases outcome
        · cases outcome
          rfl

end StoredShape

-- The written shape of every graph is read back, shows the graph and not how it was declared, and is the
-- only text that is accepted. A stored shape reads as its text does.
theorem component_shape_round_trip :
    (∀ topology : ComponentTopology, (∀ node ∈ topology.graph.nodes, validNodeName node = true) →
      componentSnapshotFromShapeText topology.snapshot.shapeJson = .ok topology.snapshot) ∧
    (∀ left right : ComponentTopology, (∀ node, node ∈ left.graph.nodes ↔ node ∈ right.graph.nodes) →
      (∀ edge, edge ∈ left.graph.edges ↔ edge ∈ right.graph.edges) →
      (∀ edge ∈ left.graph.edges, edge ∈ left.graph.autostartEdges ↔ edge ∈ right.graph.autostartEdges) →
      left.snapshot = right.snapshot) ∧
    (∀ left right : ComponentTopology, left.snapshot.shapeJson = right.snapshot.shapeJson →
      (∀ node, node ∈ left.graph.nodes ↔ node ∈ right.graph.nodes) ∧
      (∀ edge, edge ∈ left.graph.edges ↔ edge ∈ right.graph.edges) ∧
      ∀ edge ∈ left.graph.edges, edge ∈ left.graph.autostartEdges ↔ edge ∈ right.graph.autostartEdges) ∧
    (∀ shape : Shape, componentSnapshotFromShapeText shape.text =
      (componentSnapshotFromShape shape).map fun components => ⟨shape.text, components⟩) ∧
    ∀ text snapshot, componentSnapshotFromShapeText text = .ok snapshot →
      snapshot.shapeJson = text ∧ ∃ topology : ComponentTopology,
        (∀ node ∈ topology.graph.nodes, validNodeName node = true) ∧ topology.snapshot = snapshot :=
  ⟨fun _ named => snapshot_read_back named, fun _ _ nodes edges autostart => snapshot_congr nodes edges autostart,
    fun _ _ => snapshot_text_shows, stored_shape_reads, fun _ _ accepted => accepted_text_canonical accepted⟩

example : (Shape.mk ["B", "A"] [("A", "B")] [] : Shape).text =
    "\x7b\"nodes\":[\"B\",\"A\"],\"edges\":[[\"A\",\"B\"]],\"autostart_edges\":[]\x7d" := by
  simp [Shape.text, Shape.json, edgeJson, Lib.Json.dumps, Lib.Json.dumpsMembers, Lib.Json.dumpsItems, Lib.Json.quoted,
    Lib.Json.escapeChar]

end RoundTrip

end MicroWorkflow
