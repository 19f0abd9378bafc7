import MicroWorkflow.Lib.Closure
import MicroWorkflow.Values

set_option autoImplicit false

namespace MicroWorkflow

abbrev Edge := String × String

def edgeLe (left right : Edge) : Bool := left.1 < right.1 || (left.1 == right.1 && left.2 ≤ right.2)

structure Shape where
  nodes : List String
  edges : List Edge
  autostartEdges : List Edge
deriving DecidableEq, Repr

namespace Shape

def sortedEdges (edges : List Edge) : List Edge := edges.dedup.insertionSort fun left right => edgeLe left right

def graphShape (shape : Shape) : Shape where
  nodes := componentKey shape.nodes
  edges := sortedEdges shape.edges
  autostartEdges := sortedEdges (shape.autostartEdges.filter fun edge => edge ∈ shape.edges)

-- Autostart edges also run backwards in the graph whose cycles are components.
def hoefleinNext (shape : Shape) (node : String) : List String :=
  (shape.edges.filterMap fun edge => if edge.1 = node then some edge.2 else none) ++
    shape.autostartEdges.filterMap fun edge => if edge.2 = node ∧ edge ∈ shape.edges then some edge.1 else none

def hoefleinReach (shape : Shape) (source : String) : List String :=
  Lib.closure shape.hoefleinNext shape.nodes source

def componentFor (shape : Shape) (node : String) : Component :=
  componentKey (shape.nodes.filter fun other =>
    other ∈ shape.hoefleinReach node ∧ node ∈ shape.hoefleinReach other)

def hoefleinComponents (shape : Shape) : List Component :=
  (shape.nodes.map shape.componentFor).dedup.insertionSort (· ≤ ·)

def wellFormed (shape : Shape) : Bool :=
  shape.nodes.all validNodeName &&
    (shape.edges ++ shape.autostartEdges).all (fun edge => edge.1 ∈ shape.nodes && edge.2 ∈ shape.nodes) &&
    shape.graphShape == shape

end Shape

def componentSnapshotFromShape (shape : Shape) : Except Error (List Component) :=
  if shape.wellFormed then .ok shape.hoefleinComponents
  else .error (.value "Invalid producing graph shape")

def snapshotOr (shape : Shape) (error : Error) : Except Error (List Component) :=
  match componentSnapshotFromShape shape with
  | .ok components => .ok components
  | .error _ => .error error

def byNode (components : List Component) (node : String) : Option Component :=
  components.find? fun component => node ∈ component

def componentPredecessors (shape : Shape) (target : Component) : Except Error (List Component) := do
  let components ← componentSnapshotFromShape shape
  let sources := shape.edges.filter fun edge => edge.2 ∈ target ∧ edge.1 ∉ target
  return ((sources.filterMap fun edge => byNode components edge.1).dedup).insertionSort (· ≤ ·)

def directPredecessors (shape : Shape) (components : List Component) (receiver : Component) : List Component :=
  (shape.edges.filterMap fun edge =>
    match byNode components edge.1 with
    | some source =>
        if byNode components edge.2 = some receiver ∧ source ≠ receiver then some source else none
    | none => none).dedup

def componentAncestors (shape : Shape) (target : Component) : Except Error (List Component) := do
  let components ← componentSnapshotFromShape shape
  Lib.require (target ∈ components) (.key "Component is outside its shape")
  let result := Lib.closure (directPredecessors shape components) components target
  return components.filter fun component => component ∈ result

theorem by_node_mem {components : List Component} {node : String} {component : Component}
    (found : byNode components node = some component) : component ∈ components ∧ node ∈ component :=
  ⟨List.mem_of_find?_eq_some found, by simpa using List.find?_some found⟩

theorem direct_predecessors_mem {shape : Shape} {components : List Component} {receiver source : Component}
    (member : source ∈ directPredecessors shape components receiver) : source ∈ components := by
  simp only [directPredecessors, List.mem_dedup, List.mem_filterMap] at member
  obtain ⟨edge, _, chosen⟩ := member
  split at chosen
  · rename_i found located
    split at chosen
    · exact Option.some.inj chosen ▸ (by_node_mem located).1
    · exact absurd chosen (by simp)
  · exact absurd chosen (by simp)

theorem component_snapshot_ok {shape : Shape} {components : List Component}
    (taken : componentSnapshotFromShape shape = .ok components) :
    components = shape.hoefleinComponents ∧ shape.wellFormed = true := by
  unfold componentSnapshotFromShape at taken
  split at taken
  · rename_i formed
    exact ⟨(Except.ok.inj taken).symm, formed⟩
  · exact absurd taken (by simp)

@[simp] theorem snapshot_or_ok {shape : Shape} {error : Error} {components : List Component} :
    snapshotOr shape error = .ok components ↔ components = shape.hoefleinComponents ∧ shape.wellFormed = true := by
  unfold snapshotOr
  cases taken : componentSnapshotFromShape shape with
  | error refusal =>
      unfold componentSnapshotFromShape at taken
      split at taken
      · exact absurd taken (by simp)
      · rename_i malformed
        simp [malformed]
  | ok found =>
      obtain ⟨rfl, formed⟩ := component_snapshot_ok taken
      simp [formed, eq_comm]

theorem hoeflein_component_canonical {shape : Shape} {component : Component}
    (member : component ∈ shape.hoefleinComponents) : componentKey component = component := by
  simp only [Shape.hoefleinComponents, (List.perm_insertionSort _ _).mem_iff, List.mem_dedup, List.mem_map] at member
  obtain ⟨node, _, rfl⟩ := member
  exact component_key_idem _

theorem hoeflein_next_inside {shape : Shape} (formed : shape.wellFormed = true) {node other : String}
    (step : other ∈ shape.hoefleinNext node) : other ∈ shape.nodes := by
  simp only [Shape.wellFormed, Bool.and_eq_true, List.all_eq_true, List.mem_append, decide_eq_true_eq] at formed
  have ends := formed.1.2
  simp only [Shape.hoefleinNext, List.mem_append, List.mem_filterMap] at step
  rcases step with ⟨edge, member, chosen⟩ | ⟨edge, member, chosen⟩
  · split at chosen
    · exact Option.some.inj chosen ▸ (ends edge (.inl member)).2
    · exact absurd chosen (by simp)
  · split at chosen
    · exact Option.some.inj chosen ▸ (ends edge (.inr member)).1
    · exact absurd chosen (by simp)

theorem hoeflein_component_named {shape : Shape} (formed : shape.wellFormed = true) {component : Component}
    (member : component ∈ shape.hoefleinComponents) :
    component ≠ [] ∧ ∀ node ∈ component, validNodeName node = true := by
  simp only [Shape.hoefleinComponents, (List.perm_insertionSort _ _).mem_iff, List.mem_dedup, List.mem_map] at member
  obtain ⟨node, inside, rfl⟩ := member
  have closed : ∀ item ∈ shape.nodes, ∀ other ∈ shape.hoefleinNext item, other ∈ shape.nodes :=
    fun _ _ _ step => hoeflein_next_inside formed step
  have itself : node ∈ shape.hoefleinReach node := (Lib.mem_closure closed inside node).mpr .refl
  refine ⟨fun nothing => ?_, fun other listed => ?_⟩
  · have listed : node ∈ shape.componentFor node := by
      rw [Shape.componentFor, mem_component_key, List.mem_filter]
      exact ⟨inside, by simp [itself]⟩
    rw [nothing] at listed
    exact absurd listed List.not_mem_nil
  · rw [Shape.componentFor, mem_component_key, List.mem_filter] at listed
    simp only [Shape.wellFormed, Bool.and_eq_true, List.all_eq_true] at formed
    exact formed.1.1 other listed.1

end MicroWorkflow
