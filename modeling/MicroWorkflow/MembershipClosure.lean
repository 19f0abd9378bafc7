import MicroWorkflow.Lib.Rounds
import MicroWorkflow.MembershipPreparation
import MicroWorkflow.Topology

set_option autoImplicit false

namespace MicroWorkflow

open Lib (require refuse orRaise each collect Table)

section Region

variable {targets established : List Component} {history : List HistoricalMembership} {region other : Region}

theorem meets_iff {nodes members : List String} : meets nodes members = true ↔ ∃ node ∈ members, node ∈ nodes := by
  simp [meets]

theorem meets_mono {nodes larger members : List String} (inside : ∀ node ∈ nodes, node ∈ larger)
    (met : meets nodes members = true) : meets larger members = true := by
  obtain ⟨node, member, known⟩ := meets_iff.mp met
  exact meets_iff.mpr ⟨node, member, inside node known⟩

namespace Region

structure ClosedOver (targets established : List Component) (history : List HistoricalMembership)
    (requested : List Component) (region : Region) : Prop where
  requested : ∀ item ∈ requested, item ∈ region.target
  target : ∀ item ∈ targets, meets region.nodes item = true → item ∈ region.target
  active : ∀ item ∈ established, meets region.nodes item = true → item ∈ region.active
  reusable : ∀ item ∈ history, item.hasReusableWork = true → meets region.nodes item.members = true → item ∈ region.reusable

structure Drawn (targets established : List Component) (history : List HistoricalMembership) (region : Region) : Prop where
  target : region.target = targets.filter fun item => item ∈ region.target
  active : region.active = established.filter fun item => item ∈ region.active
  reusable : region.reusable = history.filter fun item => item ∈ region.reusable

structure Within (region other : Region) : Prop where
  target : ∀ item ∈ region.target, item ∈ other.target
  active : ∀ item ∈ region.active, item ∈ other.active
  reusable : ∀ item ∈ region.reusable, item ∈ other.reusable

theorem Within.nodes (within : Within region other) : ∀ node ∈ region.nodes, node ∈ other.nodes := by
  intro node member
  simp only [Region.nodes, List.mem_append, List.mem_flatten, List.mem_map] at member ⊢
  rcases member with (⟨item, listed, inside⟩ | ⟨item, listed, inside⟩) | ⟨_, ⟨item, listed, rfl⟩, inside⟩
  · exact .inl (.inl ⟨item, within.target item listed, inside⟩)
  · exact .inl (.inr ⟨item, within.active item listed, inside⟩)
  · exact .inr ⟨_, ⟨item, within.reusable item listed, rfl⟩, inside⟩

theorem active_nodes {node : String} (member : node ∈ region.active.flatten) : node ∈ region.nodes :=
  List.mem_append_left _ (List.mem_append_right _ member)

theorem work_nodes {node : String} (member : node ∈ (region.reusable.map HistoricalMembership.members).flatten) :
    node ∈ region.nodes := List.mem_append_right _ member

theorem grow_within {requested : List Component} (closed : ClosedOver targets established history requested other)
    (within : Within region other) : Within (region.grow targets established history) other := by
  have active : ∀ item ∈ (region.grow targets established history).active, item ∈ other.active := by
    intro item listed
    obtain ⟨candidate, chosen⟩ := List.mem_filter.mp listed
    simp only [Bool.or_eq_true, decide_eq_true_eq] at chosen
    rcases chosen with old | met
    · exact within.active item old
    · exact closed.active item candidate (meets_mono within.nodes met)
  have reached : ∀ node ∈ region.nodes ++ (region.grow targets established history).active.flatten, node ∈ other.nodes := by
    intro node member
    rcases List.mem_append.mp member with old | new
    · exact within.nodes node old
    · obtain ⟨item, listed, inside⟩ := List.mem_flatten.mp new
      exact active_nodes (List.mem_flatten.mpr ⟨item, active item listed, inside⟩)
  have reusable : ∀ item ∈ (region.grow targets established history).reusable, item ∈ other.reusable := by
    intro item listed
    obtain ⟨candidate, chosen⟩ := List.mem_filter.mp listed
    simp only [Bool.or_eq_true, Bool.and_eq_true, decide_eq_true_eq] at chosen
    rcases chosen with old | ⟨flagged, met⟩
    · exact within.reusable item old
    · exact closed.reusable item candidate flagged (meets_mono reached met)
  refine ⟨fun item listed => ?_, active, reusable⟩
  obtain ⟨candidate, chosen⟩ := List.mem_filter.mp listed
  simp only [Bool.or_eq_true, decide_eq_true_eq] at chosen
  rcases chosen with old | met
  · exact within.target item old
  · refine closed.target item candidate (meets_mono (fun node member => ?_) met)
    rcases List.mem_append.mp member with before | new
    · exact reached node before
    · obtain ⟨_, named, inside⟩ := List.mem_flatten.mp new
      obtain ⟨work, listed, rfl⟩ := List.mem_map.mp named
      exact work_nodes (List.mem_flatten.mpr ⟨_, List.mem_map_of_mem (reusable work listed), inside⟩)

theorem filter_drawn {α : Type} [BEq α] [LawfulBEq α] {items : List α} {p : α → Bool} :
    items.filter p = items.filter fun item => item ∈ items.filter p := by
  refine List.filter_congr fun item listed => ?_
  simp [List.mem_filter, listed]

theorem grow_drawn (region : Region) : Drawn targets established history (region.grow targets established history) :=
  ⟨filter_drawn, filter_drawn, filter_drawn⟩

theorem grow_sublists (drawn : Drawn targets established history region) :
    region.target.Sublist (region.grow targets established history).target ∧
      region.active.Sublist (region.grow targets established history).active ∧
        region.reusable.Sublist (region.grow targets established history).reusable := by
  refine ⟨?_, ?_, ?_⟩
  · conv_lhs => rw [drawn.target]
    exact List.monotone_filter_right _ fun item old => by simp_all
  · conv_lhs => rw [drawn.active]
    exact List.monotone_filter_right _ fun item old => by simp_all
  · conv_lhs => rw [drawn.reusable]
    exact List.monotone_filter_right _ fun item old => by simp_all

theorem grow_size (drawn : Drawn targets established history region) :
    region.size ≤ (region.grow targets established history).size := by
  obtain ⟨target, active, reusable⟩ := grow_sublists drawn
  have targetLength := target.length_le
  have activeLength := active.length_le
  have reusableLength := reusable.length_le
  simp only [Region.size]
  omega

theorem grow_still (drawn : Drawn targets established history region)
    (same : (region.grow targets established history).size = region.size) :
    region.grow targets established history = region := by
  obtain ⟨target, active, reusable⟩ := grow_sublists drawn
  have targetLength := target.length_le
  have activeLength := active.length_le
  have reusableLength := reusable.length_le
  simp only [Region.size] at same
  have sameTarget := target.eq_of_length (by omega)
  have sameActive := active.eq_of_length (by omega)
  have sameReusable := reusable.eq_of_length (by omega)
  calc region.grow targets established history
      = ⟨(region.grow targets established history).target, (region.grow targets established history).active,
          (region.grow targets established history).reusable⟩ := rfl
    _ = ⟨region.target, region.active, region.reusable⟩ := by rw [← sameTarget, ← sameActive, ← sameReusable]
    _ = region := rfl

theorem drawn_size (drawn : Drawn targets established history region) :
    region.size ≤ targets.length + established.length + history.length := by
  have target := List.length_filter_le (fun item => decide (item ∈ region.target)) targets
  have active := List.length_filter_le (fun item => decide (item ∈ region.active)) established
  have reusable := List.length_filter_le (fun item => decide (item ∈ region.reusable)) history
  rw [← drawn.target] at target
  rw [← drawn.active] at active
  rw [← drawn.reusable] at reusable
  simp only [Region.size]
  omega

theorem close_eq_rounds (fuel : Nat) (region : Region) :
    close targets established history fuel region =
      Lib.rounds (grow targets established history) size fuel region := by
  induction fuel generalizing region with
  | zero => rfl
  | succ fuel ih =>
      rw [close, Lib.rounds]
      split
      · rfl
      · exact ih _

theorem initial_drawn (requested : List Component) :
    Drawn targets established history ⟨targets.filter fun item => item ∈ requested, [], []⟩ :=
  ⟨filter_drawn, by simp, by simp⟩

theorem still_closed {requested : List Component} (start : ∀ item ∈ requested, item ∈ region.target)
    (still : region.grow targets established history = region) : ClosedOver targets established history requested region := by
  have reached : ∀ node ∈ region.nodes, node ∈ region.nodes ++ (region.grow targets established history).active.flatten :=
    fun node member => List.mem_append_left _ member
  refine ⟨start, fun item candidate met => ?_, fun item candidate met => ?_, fun item candidate flagged met => ?_⟩
  · rw [← still]
    refine List.mem_filter.mpr ⟨candidate, Bool.or_eq_true_iff.mpr (.inr (meets_mono (fun node member => ?_) met))⟩
    exact List.mem_append_left _ (reached node member)
  · rw [← still]
    exact List.mem_filter.mpr ⟨candidate, Bool.or_eq_true_iff.mpr (.inr met)⟩
  · rw [← still]
    refine List.mem_filter.mpr ⟨candidate, Bool.or_eq_true_iff.mpr (.inr ?_)⟩
    rw [Bool.and_eq_true]
    exact ⟨flagged, meets_mono reached met⟩

theorem close_least (targets established : List Component) (history : List HistoricalMembership)
    (requested : List Component) (known : ∀ item ∈ requested, item ∈ targets) :
    let region := close targets established history (targets.length + established.length + history.length + 1)
      ⟨targets.filter fun item => item ∈ requested, [], []⟩
    Drawn targets established history region ∧ ClosedOver targets established history requested region ∧
      (∀ item ∈ region.reusable, item.hasReusableWork = true) ∧
      ∀ other, ClosedOver targets established history requested other → Within region other := by
  intro region
  have initial : Drawn targets established history ⟨targets.filter fun item => item ∈ requested, [], []⟩ :=
    initial_drawn requested
  have same : region = Lib.rounds (grow targets established history) size
      (targets.length + established.length + history.length + 1) ⟨targets.filter fun item => item ∈ requested, [], []⟩ :=
    close_eq_rounds _ _
  have drawn : Drawn targets established history region := by
    rw [same]
    exact Lib.rounds_invariant _ initial fun current _ => grow_drawn current
  have still : region.grow targets established history = region := by
    rw [same]
    exact Lib.rounds_settle initial (fun current _ => grow_drawn current) (fun current drawn => grow_size drawn)
      (fun current drawn => drawn_size drawn) (fun current drawn equal => grow_still drawn equal) (by omega)
  have start : ∀ item ∈ requested, item ∈ region.target := by
    rw [same]
    refine Lib.rounds_invariant (fun current : Region => ∀ item ∈ requested, item ∈ current.target) ?_ ?_
    · exact fun item asked => List.mem_filter.mpr ⟨known item asked, decide_eq_true asked⟩
    · exact fun current held item asked =>
        List.mem_filter.mpr ⟨known item asked, Bool.or_eq_true_iff.mpr (.inl (decide_eq_true (held item asked)))⟩
  have flagged : ∀ item ∈ region.reusable, item.hasReusableWork = true := by
    rw [same]
    refine Lib.rounds_invariant (fun current : Region => ∀ item ∈ current.reusable, item.hasReusableWork = true) ?_ ?_
    · intro item nowhere
      cases nowhere
    · intro current held item listed
      have chosen := (List.mem_filter.mp listed).2
      simp only [Bool.or_eq_true, Bool.and_eq_true, decide_eq_true_eq] at chosen
      exact chosen.elim (held item) And.left
  refine ⟨drawn, still_closed start still, flagged, fun other closed => ?_⟩
  rw [same]
  refine Lib.rounds_invariant (fun current : Region => Within current other) ⟨?_, ?_, ?_⟩
    fun current within => grow_within closed within
  · exact fun item listed => closed.requested item (of_decide_eq_true (List.mem_filter.mp listed).2)
  · intro item nowhere
    cases nowhere
  · intro item nowhere
    cases nowhere

end Region

end Region

section HistoryOrder

theorem history_le_iff {left right : HistoricalMembership} : historyLe left right = true ↔
    left.shapeId < right.shapeId ∨ left.shapeId = right.shapeId ∧
      (left.members < right.members ∨ left.members = right.members ∧ left.alignmentGeneration ≤ right.alignmentGeneration) := by
  simp only [historyLe, Bool.or_eq_true, Bool.and_eq_true, decide_eq_true_eq, beq_iff_eq]

instance : Std.Total fun left right : HistoricalMembership => historyLe left right = true where
  total left right := by
    rw [history_le_iff, history_le_iff]
    rcases Nat.lt_trichotomy left.shapeId right.shapeId with before | same | after
    · exact .inl (.inl before)
    · by_cases low : left.members < right.members
      · exact .inl (.inr ⟨same, .inl low⟩)
      by_cases high : right.members < left.members
      · exact .inr (.inr ⟨same.symm, .inl high⟩)
      have members : left.members = right.members := List.le_antisymm (List.not_lt.mp high) (List.not_lt.mp low)
      rcases Nat.le_total left.alignmentGeneration right.alignmentGeneration with old | new
      · exact .inl (.inr ⟨same, .inr ⟨members, old⟩⟩)
      · exact .inr (.inr ⟨same.symm, .inr ⟨members.symm, new⟩⟩)
    · exact .inr (.inl after)

instance : IsTrans HistoricalMembership fun left right => historyLe left right = true where
  trans left middle right := by
    rw [history_le_iff, history_le_iff, history_le_iff]
    rintro (first | ⟨first, low⟩) (second | ⟨second, high⟩)
    · exact .inl (Nat.lt_trans first second)
    · exact .inl (second ▸ first)
    · exact .inl (first ▸ second)
    · refine .inr ⟨first.trans second, ?_⟩
      rcases low with low | ⟨low, old⟩
      · rcases high with high | ⟨high, _⟩
        · exact .inl (List.lt_trans low high)
        · exact .inl (high ▸ low)
      · rcases high with high | ⟨high, new⟩
        · exact .inl (low ▸ high)
        · exact .inr ⟨low.trans high, Nat.le_trans old new⟩

theorem history_le_identity {left right : HistoricalMembership} (low : historyLe left right = true)
    (high : historyLe right left = true) : historicalIdentity left = historicalIdentity right := by
  rw [history_le_iff] at low high
  rcases low with before | ⟨same, low⟩
  · rcases high with after | ⟨same, _⟩
    · exact absurd after (Nat.lt_asymm before)
    · exact absurd same (Nat.ne_of_gt before)
  · rcases high with after | ⟨_, high⟩
    · exact absurd same (Nat.ne_of_gt after)
    rcases low with low | ⟨members, old⟩
    · rcases high with high | ⟨members, _⟩
      · exact absurd high (List.lt_asymm low)
      · exact absurd low (members ▸ List.lt_irrefl _)
    · rcases high with high | ⟨_, new⟩
      · exact absurd high (members ▸ List.lt_irrefl _)
      · simp only [historicalIdentity, members, same, Nat.le_antisymm old new]

variable {historical recorded ordered : List HistoricalMembership}

theorem ordered_history_ok : orderedHistory historical = .ok ordered ↔
    (historical.map historicalIdentity).Nodup ∧
      ordered = historical.insertionSort fun left right => historyLe left right := by
  simp only [orderedHistory, Lib.bind_ok, Lib.require_ok, decide_eq_true_eq, Lib.pure_ok]
  constructor
  · rintro ⟨_, distinct, rfl⟩
    exact ⟨distinct, rfl⟩
  · rintro ⟨distinct, rfl⟩
    exact ⟨(), distinct, rfl⟩

theorem mem_ordered_history (sorted : orderedHistory historical = .ok ordered) {item : HistoricalMembership} :
    item ∈ ordered ↔ item ∈ historical := by
  obtain ⟨_, rfl⟩ := ordered_history_ok.mp sorted
  exact (List.perm_insertionSort _ _).mem_iff

theorem ordered_history_perm (sorted : orderedHistory historical = .ok ordered) (same : historical.Perm recorded) :
    orderedHistory recorded = .ok ordered := by
  obtain ⟨distinct, rfl⟩ := ordered_history_ok.mp sorted
  refine ordered_history_ok.mpr ⟨(same.map historicalIdentity).nodup_iff.mp distinct, ?_⟩
  refine List.Perm.eq_of_pairwise ?_ (List.pairwise_insertionSort _ _) (List.pairwise_insertionSort _ _)
    (((List.perm_insertionSort _ _).trans same).trans (List.perm_insertionSort _ _).symm)
  intro left right leftIn rightIn low high
  have leftIn := (List.perm_insertionSort _ _).mem_iff.mp leftIn
  have rightIn := same.mem_iff.mpr ((List.perm_insertionSort _ _).mem_iff.mp rightIn)
  exact List.inj_on_of_nodup_map distinct leftIn rightIn (history_le_identity low high)

end HistoryOrder

section Observation

def reachedRegion (active : ActiveComponentPartition) (shape : Shape) (requested : List Component)
    (ordered : List HistoricalMembership) : Region :=
  Region.close shape.hoefleinComponents (active.components.map ActiveComponent.componentKey) ordered
    (shape.hoefleinComponents.length + (active.components.map ActiveComponent.componentKey).length + ordered.length + 1)
    ⟨shape.hoefleinComponents.filter fun item => item ∈ requested, [], []⟩

def observedChange (active : ActiveComponentPartition) (shape : Shape) (requested : List Component)
    (ordered : List HistoricalMembership) : MembershipChange :=
  let region := reachedRegion active shape requested ordered
  let relevant := ordered.filter fun item => meets region.nodes item.members
  let reusableNodes := (region.reusable.map HistoricalMembership.members).flatten
  let prepared := shape.hoefleinComponents.filter fun item =>
    item ∈ requested || (item ∈ region.target && meets reusableNodes item)
  ⟨active, shape, requested, region.active.insertionSort (· ≤ ·), region.target,
    prepared.map fun item => (item, generationFloor relevant item), relevant,
    (region.nodes.filter fun node => node ∉ shape.hoefleinComponents.flatten).dedup.insertionSort (· ≤ ·)⟩

variable {active other : ActiveComponentPartition} {shape : Shape} {requested asked keys : List Component}
  {historical recorded ordered : List HistoricalMembership} {change : MembershipChange}

theorem observe_membership_change_iff : observeMembershipChange active shape requested historical = .ok change ↔
    ∃ keys ordered, shape.wellFormed = true ∧ collect (normalizedMembers "Requested membership") requested = .ok keys ∧
      keys.Nodup ∧ (keys ≠ [] ∧ ∀ item ∈ keys, item ∈ shape.hoefleinComponents) ∧ orderedHistory historical = .ok ordered ∧
      change = observedChange active shape keys ordered := by
  simp only [observeMembershipChange, Lib.bind_ok, snapshot_or_ok, Lib.require_ok, Lib.pure_ok, decide_eq_true_eq,
    Bool.and_eq_true, Bool.not_eq_true', List.isEmpty_eq_false_iff, List.all_eq_true]
  constructor
  · rintro ⟨_, ⟨rfl, formed⟩, keys, normalized, _, distinct, _, checked, ordered, sorted, rfl⟩
    exact ⟨keys, ordered, formed, normalized, distinct, checked, sorted, rfl⟩
  · rintro ⟨keys, ordered, formed, normalized, distinct, checked, sorted, rfl⟩
    exact ⟨_, ⟨rfl, formed⟩, keys, normalized, (), distinct, (), checked, ordered, sorted, rfl⟩

-- The least region of candidates that holds the requested components and every candidate sharing a node
-- with one of its own.
structure LeastRegion (targets established : List Component) (historical : List HistoricalMembership)
    (requested : List Component) (region : Region) : Prop where
  closed : Region.ClosedOver targets established historical requested region
  fromTargets : ∀ item ∈ region.target, item ∈ targets
  fromEstablished : ∀ item ∈ region.active, item ∈ established
  fromRecorded : ∀ item ∈ region.reusable, item ∈ historical ∧ item.hasReusableWork = true
  least : ∀ other, Region.ClosedOver targets established historical requested other → Region.Within region other

theorem closed_over_history {targets established : List Component} {region : Region}
    (same : ∀ item, item ∈ ordered ↔ item ∈ historical) :
    Region.ClosedOver targets established ordered requested region ↔
      Region.ClosedOver targets established historical requested region :=
  ⟨fun closed => ⟨closed.requested, closed.target, closed.active,
    fun item listed => closed.reusable item ((same item).mpr listed)⟩,
    fun closed => ⟨closed.requested, closed.target, closed.active,
      fun item listed => closed.reusable item ((same item).mp listed)⟩⟩

theorem reached_region_least (active : ActiveComponentPartition) (known : ∀ item ∈ keys, item ∈ shape.hoefleinComponents)
    (sorted : orderedHistory historical = .ok ordered) :
    LeastRegion shape.hoefleinComponents (active.components.map ActiveComponent.componentKey) historical keys
      (reachedRegion active shape keys ordered) := by
  obtain ⟨drawn, closed, flagged, least⟩ := Region.close_least shape.hoefleinComponents
    (active.components.map ActiveComponent.componentKey) ordered keys known
  have same : ∀ item, item ∈ ordered ↔ item ∈ historical := fun _ => mem_ordered_history sorted
  refine ⟨(closed_over_history same).mp closed, fun item listed => ?_, fun item listed => ?_,
    fun item listed => ⟨?_, flagged item listed⟩,
    fun other closed => least other ((closed_over_history same).mpr closed)⟩
  · have listed : item ∈ (reachedRegion active shape keys ordered).target := listed
    rw [show (reachedRegion active shape keys ordered).target = _ from drawn.target] at listed
    exact (List.mem_filter.mp listed).1
  · have listed : item ∈ (reachedRegion active shape keys ordered).active := listed
    rw [show (reachedRegion active shape keys ordered).active = _ from drawn.active] at listed
    exact (List.mem_filter.mp listed).1
  · have listed : item ∈ (reachedRegion active shape keys ordered).reusable := listed
    rw [show (reachedRegion active shape keys ordered).reusable = _ from drawn.reusable] at listed
    exact (same item).mp (List.mem_filter.mp listed).1

theorem normalized_members_perm {label : String} {supplied renamed : List String} {members : Component}
    (same : supplied.Perm renamed) (normalized : normalizedMembers label supplied = .ok members) :
    normalizedMembers label renamed = .ok members := by
  have keyed : componentKey supplied = componentKey renamed := component_key_congr fun _ => same.mem_iff
  simp only [normalizedMembers, Lib.bind_ok, Lib.refuse_ok, Lib.require_ok, Lib.pure_ok, Lib.each_ok] at normalized ⊢
  obtain ⟨_, filled, _, named, _, distinct, rfl⟩ := normalized
  refine ⟨(), ?_, (), fun node inside => named node (same.mem_iff.mpr inside), (), ?_, keyed.symm⟩
  · rwa [← same.isEmpty_eq]
  · rwa [← keyed, ← same.length_eq]

theorem collect_renamed {renamed : List (List String)} (reordered : List.Forall₂ List.Perm requested renamed)
    (normalized : collect (normalizedMembers "Requested membership") requested = .ok keys) :
    collect (normalizedMembers "Requested membership") renamed = .ok keys := by
  induction reordered generalizing keys with
  | nil => exact normalized
  | cons same _ ih =>
      have related := Lib.collect_ok.mp normalized
      cases related with
      | cons step rest =>
          have later := ih (Lib.collect_ok.mpr rest)
          simp only [collect, normalized_members_perm same step, later]

theorem reached_region_same (known : ∀ item ∈ keys, item ∈ shape.hoefleinComponents)
    (sameActive : active.components.Perm other.components) (sameKeys : keys.Perm asked)
    (sorted : orderedHistory historical = .ok ordered) :
    Region.Within (reachedRegion active shape keys ordered) (reachedRegion other shape asked ordered) := by
  have first := reached_region_least active known sorted
  have knownAsked : ∀ item ∈ asked, item ∈ shape.hoefleinComponents := fun item listed => known item (sameKeys.mem_iff.mpr listed)
  have second := reached_region_least other knownAsked sorted
  refine first.least _ ⟨fun item listed => ?_, second.closed.target, fun item listed => ?_, second.closed.reusable⟩
  · exact second.closed.requested item (sameKeys.mem_iff.mp listed)
  · exact second.closed.active item ((sameActive.map ActiveComponent.componentKey).mem_iff.mp listed)

theorem observed_change_same (known : ∀ item ∈ keys, item ∈ shape.hoefleinComponents)
    (sameActive : active.components.Perm other.components) (sameKeys : keys.Perm asked)
    (sorted : orderedHistory historical = .ok ordered) :
    (observedChange other shape asked ordered).sourceComponents = (observedChange active shape keys ordered).sourceComponents ∧
      (observedChange other shape asked ordered).targetComponents = (observedChange active shape keys ordered).targetComponents ∧
      (observedChange other shape asked ordered).preparation = (observedChange active shape keys ordered).preparation ∧
      (observedChange other shape asked ordered).historicalMemberships =
        (observedChange active shape keys ordered).historicalMemberships ∧
      (observedChange other shape asked ordered).removedMembers = (observedChange active shape keys ordered).removedMembers := by
  have knownAsked : ∀ item ∈ asked, item ∈ shape.hoefleinComponents := fun item listed => known item (sameKeys.mem_iff.mpr listed)
  have forth := reached_region_same known sameActive sameKeys sorted
  have back := reached_region_same knownAsked sameActive.symm sameKeys.symm sorted
  have drawnFirst : Region.Drawn _ _ _ (reachedRegion active shape keys ordered) := (Region.close_least _ _ _ keys known).1
  have drawnSecond : Region.Drawn _ _ _ (reachedRegion other shape asked ordered) := (Region.close_least _ _ _ asked knownAsked).1
  have nodes : ∀ node, node ∈ (reachedRegion other shape asked ordered).nodes ↔
    node ∈ (reachedRegion active shape keys ordered).nodes :=
    fun node => ⟨back.nodes node, forth.nodes node⟩
  have target : (reachedRegion other shape asked ordered).target = (reachedRegion active shape keys ordered).target := by
    rw [drawnSecond.target, drawnFirst.target]
    exact List.filter_congr fun item _ => decide_eq_decide.mpr ⟨back.target item, forth.target item⟩
  have reusable : (reachedRegion other shape asked ordered).reusable = (reachedRegion active shape keys ordered).reusable := by
    rw [drawnSecond.reusable, drawnFirst.reusable]
    exact List.filter_congr fun item _ => decide_eq_decide.mpr ⟨back.reusable item, forth.reusable item⟩
  have source : (reachedRegion other shape asked ordered).active.Perm (reachedRegion active shape keys ordered).active := by
    rw [drawnSecond.active, drawnFirst.active]
    refine ((sameActive.map ActiveComponent.componentKey).symm.filter _).trans (.of_eq ?_)
    exact List.filter_congr fun item _ => decide_eq_decide.mpr ⟨back.active item, forth.active item⟩
  have met : ∀ members, meets (reachedRegion other shape asked ordered).nodes members =
      meets (reachedRegion active shape keys ordered).nodes members := by
    intro members
    rw [Bool.eq_iff_iff]
    exact ⟨meets_mono back.nodes, meets_mono forth.nodes⟩
  have relevant : (observedChange other shape asked ordered).historicalMemberships =
      (observedChange active shape keys ordered).historicalMemberships :=
    List.filter_congr fun item _ => met item.members
  refine ⟨?_, target, ?_, relevant, ?_⟩
  · exact List.Perm.eq_of_pairwise' (List.pairwise_insertionSort _ _) (List.pairwise_insertionSort _ _)
      (((List.perm_insertionSort _ _).trans source).trans (List.perm_insertionSort _ _).symm)
  · have prepared : (shape.hoefleinComponents.filter fun item =>
      item ∈ asked || (item ∈ (reachedRegion other shape asked ordered).target
          && meets ((reachedRegion other shape asked ordered).reusable.map HistoricalMembership.members).flatten item)) =
        shape.hoefleinComponents.filter fun item => item ∈ keys || (item ∈ (reachedRegion active shape keys ordered).target
          && meets ((reachedRegion active shape keys ordered).reusable.map HistoricalMembership.members).flatten item) := by
      refine List.filter_congr fun item _ => ?_
      rw [target, reusable, decide_eq_decide.mpr sameKeys.symm.mem_iff]
    show List.map (fun item => (item, generationFloor (observedChange other shape asked ordered).historicalMemberships item)) _ =
      List.map (fun item => (item, generationFloor (observedChange active shape keys ordered).historicalMemberships item)) _
    rw [relevant, prepared]
  · refine sorted_distinct_congr _ fun node => ?_
    rw [List.mem_filter, List.mem_filter, nodes]

theorem observe_membership_change_order {renamed : List (List String)}
    (observed : observeMembershipChange active shape requested historical = .ok change)
    (sameActive : active.components.Perm other.components) (reordered : List.Forall₂ List.Perm requested renamed)
    (sameRequested : renamed.Perm asked) (sameHistory : historical.Perm recorded) :
    ∃ again, observeMembershipChange other shape asked recorded = .ok again ∧
      again.sourceComponents = change.sourceComponents ∧ again.targetComponents = change.targetComponents ∧
      again.preparation = change.preparation ∧ again.historicalMemberships = change.historicalMemberships ∧
      again.removedMembers = change.removedMembers := by
  obtain ⟨keys, ordered, formed, normalized, distinct, ⟨filled, known⟩, sorted, rfl⟩ := observe_membership_change_iff.mp observed
  obtain ⟨found, done, perm⟩ := Lib.collect_perm sameRequested (collect_renamed reordered normalized)
  have filledFound : found ≠ [] := by
    rintro rfl
    exact filled perm.eq_nil
  refine ⟨observedChange other shape found ordered, observe_membership_change_iff.mpr
    ⟨found, ordered, formed, done, perm.nodup_iff.mp distinct,
      ⟨filledFound, fun item listed => known item (perm.mem_iff.mpr listed)⟩,
      ordered_history_perm sorted sameHistory, rfl⟩, observed_change_same known sameActive perm sorted⟩

theorem observe_membership_change_total (formed : shape.wellFormed = true) (distinct : keys.Nodup) (filled : keys ≠ [])
    (known : ∀ item ∈ keys, item ∈ shape.hoefleinComponents) (identified : (historical.map historicalIdentity).Nodup) :
    ∃ change, observeMembershipChange active shape keys historical = .ok change := by
  have normalized : ∀ label, ∀ item ∈ keys, normalizedMembers label item = .ok item := by
    intro label item listed
    have canonical := hoeflein_component_canonical (known item listed)
    obtain ⟨members, named⟩ := hoeflein_component_named formed (known item listed)
    simp only [normalizedMembers, Lib.bind_ok, Lib.refuse_ok, Lib.require_ok, Lib.pure_ok, Lib.each_ok, canonical]
    refine ⟨(), by simpa using members, (), fun node inside => ?_, (), by simp, trivial⟩
    rw [validateNodeName, named node inside]
    rfl
  have collected : ∀ items : List Component, (∀ item ∈ items, item ∈ keys) →
      collect (normalizedMembers "Requested membership") items = .ok items := by
    intro items inside
    induction items with
    | nil => rfl
    | cons item rest ih =>
        simp only [collect, normalized _ item (inside item List.mem_cons_self),
          ih fun other later => inside other (List.mem_cons_of_mem _ later)]
  exact ⟨_, observe_membership_change_iff.mpr ⟨keys, _, formed, collected keys fun _ inside => inside, distinct, ⟨filled, known⟩,
    ordered_history_ok.mpr ⟨identified, rfl⟩, rfl⟩⟩

theorem observe_membership_change_least (observed : observeMembershipChange active shape requested historical = .ok change) :
    ∃ region, LeastRegion shape.hoefleinComponents (active.components.map ActiveComponent.componentKey) historical
        change.requestedComponents region ∧
      (∀ item, item ∈ change.sourceComponents ↔ item ∈ region.active) ∧
      (∀ item, item ∈ change.targetComponents ↔ item ∈ region.target) := by
  obtain ⟨keys, ordered, _, _, _, ⟨_, known⟩, sorted, rfl⟩ := observe_membership_change_iff.mp observed
  exact ⟨reachedRegion active shape keys ordered, reached_region_least active known sorted,
    fun item => (List.perm_insertionSort _ _).mem_iff, fun _ => Iff.rfl⟩

end Observation

section Replacement

variable {db next : Database} {change : MembershipChange} {partition : ActiveComponentPartition}

theorem disjoint_members_iff {components : List Component} : disjointMembers components = true ↔
    components.Pairwise fun left right => ∀ node ∈ left, node ∉ right := by
  induction components with
  | nil => simp [disjointMembers]
  | cons component rest ih =>
      rw [disjointMembers, Bool.and_eq_true, ih, List.pairwise_cons]
      refine and_congr ?_ Iff.rfl
      simp only [List.all_eq_true, decide_eq_true_eq]

theorem read_active_component_partition_ok (read : readActiveComponentPartition db = .ok (some partition)) :
    db.componentPartitionState = some partition.revision ∧
      (∀ row, row ∈ partition.components ↔ row ∈ db.activeComponents.rows) ∧
      (∀ row ∈ db.activeComponents.rows, encodeComponentKey row.componentKey = row.componentKey) ∧
      (partition.components.map ActiveComponent.componentKey).Pairwise fun left right => ∀ node ∈ left, node ∉ right := by
  unfold readActiveComponentPartition at read
  rw [Lib.bind_ok] at read
  obtain ⟨revision, stored, read⟩ := read
  cases revision with
  | none => simp [pure, Except.pure] at read
  | some revision =>
      simp only [Lib.bind_ok, Lib.require_ok, Lib.pure_ok, Option.some.injEq] at read
      obtain ⟨components, collected, _, _, _, disjoint, rfl⟩ := read
      have state : db.componentPartitionState = some revision := by
        unfold readPartitionRevision at stored
        split at stored
        · rename_i found
          cases stored
          exact found
        · split at stored <;> cases stored
      have decoded := Lib.mem_of_collect collected
      have listed : ∀ row, row ∈ db.activeComponents.rows.insertionSort (fun left right => left.componentKey ≤
        right.componentKey) ↔
          row ∈ db.activeComponents.rows := fun row => (List.perm_insertionSort _ _).mem_iff
      refine ⟨state, fun row => ⟨fun inside => ?_, fun inside => ?_⟩, fun row inside => ?_, disjoint_members_iff.mp disjoint⟩
      · obtain ⟨item, member, done⟩ := decoded.1 row inside
        rw [(decode_active_component_ok done).1]
        exact (listed item).mp member
      · obtain ⟨value, member, done⟩ := decoded.2 row ((listed row).mpr inside)
        rwa [← (decode_active_component_ok done).1]
      · obtain ⟨_, _, done⟩ := decoded.2 row ((listed row).mpr inside)
        exact (decode_active_component_ok done).2.1

theorem validate_membership_change_source (valid : validateMembershipChange db change = .ok ()) :
    readActiveComponentPartition db = .ok (some change.source) := by
  simp only [validateMembershipChange, Lib.bind_ok, Lib.require_ok, beq_iff_eq] at valid
  obtain ⟨_, read, _, rfl, _⟩ := valid
  exact read

theorem validate_membership_change_targets (valid : validateMembershipChange db change = .ok ()) :
    ∀ item ∈ change.targetComponents, encodeComponentKey item = item := by
  simp only [validateMembershipChange, Lib.bind_ok, Lib.require_ok] at valid
  obtain ⟨_, _, _, _, valid⟩ := valid
  split at valid
  · exact absurd valid (by simp)
  · rename_i expected found
    have same : expected = change := by simpa using valid
    rw [← same]
    unfold expectedChange at found
    split at found
    · simp only [observeRemovedMemberships, Lib.bind_ok, Lib.pure_ok] at found
      obtain ⟨_, _, _, _, rfl⟩ := found
      intro item nowhere
      cases nowhere
    · exact fun item chosen => hoeflein_component_canonical ((observe_membership_change_targets found).2 item chosen)

theorem same_elements_iff {α : Type} [DecidableEq α] {left right : List α} :
    sameElements left right = true ↔ ∀ item, item ∈ left ↔ item ∈ right := by
  simp only [sameElements, Bool.and_eq_true, List.all_eq_true, decide_eq_true_eq]
  exact ⟨fun both item => ⟨both.1 item, both.2 item⟩, fun same => ⟨fun item => (same item).mp, fun item => (same item).mpr⟩⟩

theorem replaced_membership_rows {source target : List Component} {revision : Nat}
    (replaced : replacedMembership db source target revision = .ok next) :
    next.activeComponents.rows = (db.activeComponents.rows.filter fun row =>
      !decide (row.componentKey ∈ source.map encodeComponentKey)) ++
        (target.insertionSort (· ≤ ·)).map (fun item => ⟨encodeComponentKey item, revision + 1⟩) ∧
      next.componentPartitionState = some (revision + 1) ∧ db.componentPartitionState = some revision := by
  simp only [replacedMembership, Lib.bind_ok, Lib.require_ok, Lib.orRaise_ok, Lib.pure_ok, beq_iff_eq] at replaced
  obtain ⟨_, _, _, _, active, inserted, members, _, _, state, rfl⟩ := replaced
  exact ⟨Table.insertAll_rows inserted, rfl, state⟩

structure Replaced (db next : Database) (change : MembershipChange) (partition : ActiveComponentPartition) : Prop where
  reads : readActiveComponentPartition next = .ok (some partition)
  disjoint : (partition.components.map ActiveComponent.componentKey).Pairwise fun left right => ∀ node ∈ left, node ∉ right
  components : ∀ item, item ∈ partition.components.map ActiveComponent.componentKey ↔
    (item ∈ change.source.components.map ActiveComponent.componentKey ∧ item ∉ change.sourceComponents) ∨
      item ∈ change.targetComponents
  kept : ∀ row ∈ db.activeComponents.rows, row.componentKey ∉ change.sourceComponents → row ∈ next.activeComponents.rows
  added : ∀ row ∈ next.activeComponents.rows, row.componentKey ∉ change.targetComponents → row ∈ db.activeComponents.rows
  states : next.componentStates = db.componentStates
  before : db.componentPartitionState = some change.source.revision
  revision : next.componentPartitionState = some partition.revision ∧
    partition.revision = if change.changesActiveMembership then change.source.revision + 1 else change.source.revision

theorem replace_active_component_closure_replaced
    (replaced : replaceActiveComponentClosure db change = .ok (partition, next)) : Replaced db next change partition := by
  have states : next.componentStates = db.componentStates := by
    obtain ⟨_, _, _, rfl⟩ := replace_active_component_closure_ok replaced
    rfl
  simp only [replaceActiveComponentClosure, Lib.bind_ok, Lib.require_ok, Lib.refuse_ok, List.all_eq_true,
    decide_eq_true_eq] at replaced
  obtain ⟨_, valid, _, active, _, apart, replaced⟩ := replaced
  have read := validate_membership_change_source valid
  obtain ⟨before, rows, canonical, disjoint⟩ := read_active_component_partition_ok read
  split at replaced
  · rename_i same
    rw [Lib.pure_ok] at replaced
    obtain ⟨rfl, rfl⟩ := Prod.mk.inj replaced
    have same := same_elements_iff.mp same
    refine ⟨read, disjoint, fun item => ?_, fun row member _ => member, fun row member _ => member, states, before, before, ?_⟩
    · constructor
      · intro member
        by_cases replaced : item ∈ change.sourceComponents
        · exact .inr ((same item).mp replaced)
        · exact .inl ⟨member, replaced⟩
      · rintro (⟨member, _⟩ | target)
        · exact member
        · exact active item ((same item).mpr target)
    · rw [MembershipChange.changesActiveMembership, same_elements_iff.mpr same]
      rfl
  · rename_i different
    simp only [Lib.bind_ok, Lib.orRaise_ok, Lib.require_ok, Lib.pure_ok, Bool.and_eq_true, beq_iff_eq, Prod.mk.injEq] at replaced
    obtain ⟨written, moved, _, reread, result, rfl, _, ⟨advanced, listed⟩, rfl, rfl⟩ := replaced
    obtain ⟨written, state, _⟩ := replaced_membership_rows moved
    obtain ⟨_, _, _, disjoint⟩ := read_active_component_partition_ok reread
    have listed := same_elements_iff.mp listed
    refine ⟨reread, disjoint, fun item => ?_, fun row member outside => ?_, fun row member outside => ?_, states, before, ?_, ?_⟩
    · rw [listed, List.mem_append, List.mem_filter, decide_eq_true_eq]
    · rw [written]
      refine List.mem_append_left _ (List.mem_filter.mpr ⟨member, ?_⟩)
      simp only [Bool.not_eq_true', decide_eq_false_iff_not, List.mem_map, not_exists, not_and]
      intro item chosen same
      obtain ⟨known, knownIn, named⟩ := List.mem_map.mp (active item chosen)
      have plain := canonical known ((rows known).mp knownIn)
      rw [named] at plain
      rw [plain] at same
      exact outside (same ▸ chosen)
    · rw [written] at member
      rcases List.mem_append.mp member with old | new
      · exact (List.mem_filter.mp old).1
      · obtain ⟨item, chosen, rfl⟩ := List.mem_map.mp new
        have chosen := (List.perm_insertionSort _ _).mem_iff.mp chosen
        rw [validate_membership_change_targets valid item chosen] at outside
        exact absurd chosen outside
    · rw [state, advanced]
    · rw [advanced, MembershipChange.changesActiveMembership, Bool.eq_false_of_not_eq_true different]
      rfl

theorem finish_membership_preparation_replaced {repair : MembershipRepair}
    (finished : finishMembershipPreparation db repair = .ok next) :
    ∃ partition middle sessions, Replaced db middle repair.change partition ∧
      next = { middle with executionSessions := sessions } := by
  simp only [finishMembershipPreparation, Lib.bind_ok] at finished
  obtain ⟨_, _, _, _, ⟨active, middle⟩, replaced, moved⟩ := finished
  have kept := replace_active_component_closure_replaced replaced
  unfold movePartitionRevision at moved
  split at moved
  · cases moved
    exact ⟨active, middle, middle.executionSessions, kept, rfl⟩
  · simp only [Lib.bind_ok, Lib.pure_ok] at moved
    obtain ⟨sessions, _, rfl⟩ := moved
    exact ⟨active, middle, sessions, kept, rfl⟩

-- A membership change is the least region closed under sharing a node, whatever the order of what it was
-- observed from; replacing it leaves a partition, and everything outside as it was.
theorem membership_replacement_closure :
    (∀ (active : ActiveComponentPartition) shape (keys : List Component) historical, shape.wellFormed = true → keys.Nodup →
      keys ≠ [] → (∀ item ∈ keys, item ∈ shape.hoefleinComponents) → (historical.map historicalIdentity).Nodup →
      ∃ change, observeMembershipChange active shape keys historical = .ok change) ∧
    (∀ active shape requested historical change, observeMembershipChange active shape requested historical = .ok change →
      (∃ region, LeastRegion shape.hoefleinComponents (active.components.map ActiveComponent.componentKey) historical
          change.requestedComponents region ∧
        (∀ item, item ∈ change.sourceComponents ↔ item ∈ region.active) ∧
        ∀ item, item ∈ change.targetComponents ↔ item ∈ region.target) ∧
      ∀ other renamed asked recorded, active.components.Perm other.components → List.Forall₂ List.Perm requested renamed →
        renamed.Perm asked → historical.Perm recorded →
        ∃ again, observeMembershipChange other shape asked recorded = .ok again ∧
          again.sourceComponents = change.sourceComponents ∧ again.targetComponents = change.targetComponents ∧
          again.preparation = change.preparation ∧ again.historicalMemberships = change.historicalMemberships ∧
          again.removedMembers = change.removedMembers) ∧
    (∀ db change partition next, replaceActiveComponentClosure db change = .ok (partition, next) →
      Replaced db next change partition) ∧
    ∀ db repair next, finishMembershipPreparation db repair = .ok next →
      ∃ partition middle sessions, Replaced db middle repair.change partition ∧
        next = { middle with executionSessions := sessions } :=
  ⟨fun _ _ _ _ formed distinct filled known identified => observe_membership_change_total formed distinct filled known identified,
    fun _ _ _ _ _ observed => ⟨observe_membership_change_least observed,
      fun _ _ _ _ sameActive reordered sameRequested sameHistory =>
        observe_membership_change_order observed sameActive reordered sameRequested sameHistory⟩,
    fun _ _ _ _ replaced => replace_active_component_closure_replaced replaced,
    fun _ _ _ finished => finish_membership_preparation_replaced finished⟩

example : Region.close [["A"], ["B"], ["C"], ["D"]] [["A", "B"], ["D"]] [⟨["B", "C"], 1, 0, true⟩] 8 ⟨[["A"]], [], []⟩ =
    ⟨[["A"], ["B"], ["C"]], [["A", "B"]], [⟨["B", "C"], 1, 0, true⟩]⟩ := by decide

end Replacement

end MicroWorkflow
