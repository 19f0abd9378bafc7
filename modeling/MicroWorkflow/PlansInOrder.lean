import MicroWorkflow.AutoPublication

set_option autoImplicit false

namespace MicroWorkflow

open Lib (require Table collect)

section Order

variable (hash : KeyHash) (db : Database)

def seenKey (seen : List Pending) (node keyHash : String) : Option (String × Nat) :=
  ((pendingKeyRows hash seen).find? fun row => row.key = (node, keyHash)).map fun row => (row.keyText, row.jobId)

def resolveSeen (seen : List Pending) (item : AutoJobPublish) : Option (String × Nat) :=
  item.idempotencyKey.bind fun key =>
    (lookupKey db item.provisional.nodeName (hash key)).or (seenKey hash seen item.provisional.nodeName (hash key))

def seenAt (seen : List Pending) (node : String) : List Pending := seen.filter fun entry => pendingNode entry = node

def nextSeen (seen : List Pending) (node : String) : Nat := nextJobId db node + (seenAt seen node).length

def planItem (seen : List Pending) (item : AutoJobPublish) : Result PublishPlan :=
  match validProducer db item with
  | .error error => .ok (.refused error)
  | .ok () =>
      match resolveSeen hash db seen item with
      | some (text, jobId) => do
          require (some text == item.idempotencyKey) (keyCollision item.provisional.nodeName)
          return .existing jobId
      | none =>
          match admitItem db item.provisional.nodeName item with
          | .error error => .ok (.refused error)
          | .ok () => .ok (.created (nextSeen db seen item.provisional.nodeName))

def pendingOf (item : AutoJobPublish) : PublishPlan → List Pending
  | .created jobId => [(item, jobId)]
  | _ => []

def planInOrder (seen : List Pending) : List AutoJobPublish → Result (List PublishPlan)
  | [] => .ok []
  | item :: rest => do
      let plan ← planItem hash db seen item
      let later ← planInOrder (seen ++ pendingOf item plan) rest
      return plan :: later

def pendingInOrder (items : List AutoJobPublish) (plans : List PublishPlan) : List Pending :=
  (items.zip plans).flatMap fun entry => pendingOf entry.1 entry.2

def plannedAt (node : String) (item : AutoJobPublish) : Bool :=
  (validProducer db item).isOk && item.provisional.nodeName == node

def nodePlans (node : String) (items : List AutoJobPublish) (plans : List PublishPlan) : List PublishPlan :=
  ((items.zip plans).filter fun entry => plannedAt db node entry.1).map Prod.snd

def resolvedAfter (resolved : KeyIndex) (item : AutoJobPublish) : PublishPlan → KeyIndex
  | .created jobId =>
      match item.idempotencyKey with
      | some key => (hash key, (key, jobId)) :: resolved
      | none => resolved
  | _ => resolved

def KeysAgree (seen : List Pending) (node : String) (resolved : KeyIndex) (items : List AutoJobPublish) : Prop :=
  ∀ item ∈ items, plannedAt db node item = true → ∀ key, item.idempotencyKey = some key →
    resolved.lookup (hash key) = (lookupKey db node (hash key)).or (seenKey hash seen node (hash key))

end Order

variable {hash : KeyHash} {db : Database} {seen more : List Pending} {node keyHash : String} {item : AutoJobPublish}
  {items : List AutoJobPublish} {plan : PublishPlan} {plans : List PublishPlan} {resolved : KeyIndex} {jobId : Nat}

section Node

theorem seen_key_append : seenKey hash (seen ++ more) node keyHash =
    (seenKey hash seen node keyHash).or (seenKey hash more node keyHash) := by
  have split : pendingKeyRows hash (seen ++ more) = pendingKeyRows hash seen ++ pendingKeyRows hash more :=
    List.flatMap_append
  unfold seenKey
  rw [split, List.find?_append]
  cases (pendingKeyRows hash seen).find? fun row => row.key = (node, keyHash) <;> rfl

theorem seen_key_elsewhere (apart : item.provisional.nodeName ≠ node) :
    seenKey hash (pendingOf item plan) node keyHash = none := by
  cases plan with
  | refused error => rfl
  | existing number => rfl
  | created number =>
      cases named : item.idempotencyKey with
      | none => simp [seenKey, pendingOf, pendingKeyRows, keyRows, named]
      | some key => simp [seenKey, pendingOf, pendingKeyRows, keyRows, named, IdempotencyRow.key, apart]

theorem seen_key_here (here : item.provisional.nodeName = node) : seenKey hash [(item, jobId)] node keyHash =
    item.idempotencyKey.bind fun key => if hash key = keyHash then some (key, jobId) else none := by
  cases named : item.idempotencyKey with
  | none => simp [seenKey, pendingKeyRows, keyRows, named]
  | some key =>
      by_cases same : hash key = keyHash
      · simp [seenKey, pendingKeyRows, keyRows, named, IdempotencyRow.key, here, same]
      · simp [seenKey, pendingKeyRows, keyRows, named, IdempotencyRow.key, same]

theorem seen_at_append : seenAt (seen ++ more) node = seenAt seen node ++ seenAt more node := List.filter_append ..

theorem next_seen_elsewhere (apart : item.provisional.nodeName ≠ node) :
    nextSeen db (seen ++ pendingOf item plan) node = nextSeen db seen node := by
  have none_ : seenAt (pendingOf item plan) node = [] := by
    cases plan with
    | refused error => rfl
    | existing number => rfl
    | created number => simp [seenAt, pendingOf, pendingNode, apart]
  unfold nextSeen
  rw [seen_at_append, none_, List.append_nil]

theorem next_seen_created (here : item.provisional.nodeName = node) :
    nextSeen db (seen ++ [(item, jobId)]) node = nextSeen db seen node + 1 := by
  have one : seenAt [(item, jobId)] node = [(item, jobId)] := by simp [seenAt, pendingNode, here]
  unfold nextSeen
  rw [seen_at_append, one, List.length_append, List.length_singleton]
  omega

theorem planned_at_iff : plannedAt db node item = true ↔
    validProducer db item = .ok () ∧ item.provisional.nodeName = node := by
  unfold plannedAt
  rw [Bool.and_eq_true, beq_iff_eq]
  constructor
  · rintro ⟨accepted, here⟩
    exact ⟨valid_of_isOk accepted, here⟩
  · rintro ⟨valid, here⟩
    rw [valid]
    exact ⟨rfl, here⟩

theorem agrees_tail (agrees : KeysAgree hash db seen node resolved (item :: items)) :
    KeysAgree hash db seen node resolved items :=
  fun other listed => agrees other (List.mem_cons_of_mem _ listed)

theorem resolved_seen (agrees : KeysAgree hash db seen node resolved (item :: items))
    (planned : plannedAt db node item = true) : resolvedKey hash resolved item = resolveSeen hash db seen item := by
  have here := (planned_at_iff.mp planned).2
  unfold resolvedKey resolveSeen
  cases named : item.idempotencyKey with
  | none => rfl
  | some key =>
      rw [here]
      exact agrees item List.mem_cons_self planned key named

theorem plan_item_created (made : planItem hash db seen item = .ok (.created jobId)) :
    validProducer db item = .ok () ∧ resolveSeen hash db seen item = none ∧
      admitItem db item.provisional.nodeName item = .ok () ∧ jobId = nextSeen db seen item.provisional.nodeName := by
  unfold planItem at made
  cases valid : validProducer db item with
  | error error => simp [valid] at made
  | ok accepted =>
      simp only [valid] at made
      cases found : resolveSeen hash db seen item with
      | some known => cases same : some known.1 == item.idempotencyKey <;> simp [found, same, require] at made
      | none =>
          simp only [found] at made
          cases admitted : admitItem db item.provisional.nodeName item with
          | error error => simp [admitted] at made
          | ok done =>
              simp only [admitted, Except.ok.injEq, PublishPlan.created.injEq] at made
              exact ⟨rfl, rfl, rfl, made.symm⟩

theorem agrees_elsewhere (apart : item.provisional.nodeName ≠ node)
    (agrees : KeysAgree hash db seen node resolved (item :: items)) :
    KeysAgree hash db (seen ++ pendingOf item plan) node resolved items := by
  intro other listed planned key named
  rw [seen_key_append, seen_key_elsewhere apart, Option.or_none]
  exact agrees other (List.mem_cons_of_mem _ listed) planned key named

theorem agrees_after (planned : plannedAt db node item = true) (made : planItem hash db seen item = .ok plan)
    (agrees : KeysAgree hash db seen node resolved (item :: items)) :
    KeysAgree hash db (seen ++ pendingOf item plan) node (resolvedAfter hash resolved item plan) items := by
  have here := (planned_at_iff.mp planned).2
  intro other listed also key named
  have before := agrees other (List.mem_cons_of_mem _ listed) also key named
  cases plan with
  | refused error => simpa only [pendingOf, List.append_nil, resolvedAfter] using before
  | existing number => simpa only [pendingOf, List.append_nil, resolvedAfter] using before
  | created number =>
      simp only [pendingOf, resolvedAfter]
      rw [seen_key_append, seen_key_here here]
      cases taken : item.idempotencyKey with
      | none => simpa using before
      | some first =>
          rw [List.lookup_cons, Option.bind_some]
          by_cases same : hash key = hash first
          · have absent := (plan_item_created made).2.1
            rw [resolveSeen, taken, here, Option.bind_some, ← same] at absent
            obtain ⟨unknown, unseen⟩ := Option.or_eq_none_iff.mp absent
            have equal : (hash key == hash first) = true := beq_iff_eq.mpr same
            rw [equal, unknown, unseen, if_pos same.symm]
            obtain ⟨_, _, _, rfl⟩ := plan_item_created made
            rfl
          · have different : (hash key == hash first) = false := beq_eq_false_iff_ne.mpr same
            rw [different, if_neg (Ne.symm same), Option.or_none]
            exact before

theorem plan_node_step {later : List AutoJobPublish} (planned : plannedAt db node item = true)
    (agrees : KeysAgree hash db seen node resolved (item :: items)) :
    planNode hash db node resolved (nextSeen db seen node) (item :: later) = (do
      let plan ← planItem hash db seen item
      let plans ← planNode hash db node (resolvedAfter hash resolved item plan)
        (nextSeen db (seen ++ pendingOf item plan) node) later
      return plan :: plans) := by
  obtain ⟨valid, here⟩ := planned_at_iff.mp planned
  have same := resolved_seen agrees planned
  rw [planNode, same, planItem, valid, here]
  cases resolveSeen hash db seen item with
  | some known =>
      obtain ⟨text, number⟩ := known
      cases agree : some text == item.idempotencyKey with
      | false => simp only [agree, require, bind, Except.bind, Bool.false_eq_true, if_false]
      | true =>
          simp only [agree, require, pendingOf, resolvedAfter, List.append_nil, bind, Except.bind, pure, Except.pure,
            if_true]
  | none =>
      cases admitItem db node item with
      | error error => simp only [pendingOf, resolvedAfter, List.append_nil, bind, Except.bind]
      | ok done =>
          show _ = (do
            let plans ← planNode hash db node (resolvedAfter hash resolved item (.created (nextSeen db seen node)))
              (nextSeen db (seen ++ pendingOf item (.created (nextSeen db seen node))) node) later
            return PublishPlan.created (nextSeen db seen node) :: plans)
          rw [pendingOf, next_seen_created here]
          rfl

theorem plan_node_in_order (agrees : KeysAgree hash db seen node resolved items)
    (planned : planInOrder hash db seen items = .ok plans) :
    planNode hash db node resolved (nextSeen db seen node) (items.filter (plannedAt db node)) =
      .ok (nodePlans db node items plans) := by
  induction items generalizing seen resolved plans with
  | nil =>
      obtain rfl := Except.ok.inj planned
      rfl
  | cons item rest ih =>
      simp only [planInOrder, Lib.bind_ok, Lib.pure_ok] at planned
      obtain ⟨plan, made, later, more, rfl⟩ := planned
      by_cases inside : plannedAt db node item = true
      · have onward := ih (agrees_after inside made agrees) more
        rw [List.filter_cons_of_pos inside, plan_node_step inside agrees, made]
        simp only [bind, Except.bind]
        rw [onward]
        simp only [nodePlans, List.zip_cons_cons, List.filter_cons_of_pos, inside, List.map_cons, pure, Except.pure]
      · have skipped : nodePlans db node (item :: rest) (plan :: later) = nodePlans db node rest later := by
          simp only [nodePlans, List.zip_cons_cons, List.filter_cons_of_neg, inside, Bool.false_eq_true, not_false_eq_true]
        rw [List.filter_cons_of_neg inside, skipped]
        by_cases here : item.provisional.nodeName = node
        · have none_ : pendingOf item plan = [] := by
            cases plan with
            | refused error => rfl
            | existing number => rfl
            | created number => exact absurd (planned_at_iff.mpr ⟨(plan_item_created made).1, here⟩) inside
          rw [none_, List.append_nil] at more
          exact ih (agrees_tail agrees) more
        · rw [← next_seen_elsewhere here]
          exact ih (agrees_elsewhere here agrees) more

theorem plan_in_order_of_nodes (nodes : ∀ node, ∃ resolved plans, KeysAgree hash db seen node resolved items ∧
    planNode hash db node resolved (nextSeen db seen node) (items.filter (plannedAt db node)) = .ok plans) :
    ∃ plans, planInOrder hash db seen items = .ok plans := by
  induction items generalizing seen with
  | nil => exact ⟨[], rfl⟩
  | cons item rest ih =>
      obtain ⟨resolved, found, agrees, planned⟩ := nodes item.provisional.nodeName
      cases valid : validProducer db item with
      | error error =>
          have made : planItem hash db seen item = .ok (.refused error) := by simp only [planItem, valid]
          have later : ∀ node, ∃ resolved plans, KeysAgree hash db seen node resolved rest ∧
              planNode hash db node resolved (nextSeen db seen node) (rest.filter (plannedAt db node)) = .ok plans := by
            intro node
            obtain ⟨index, answers, held, done⟩ := nodes node
            have outside : ¬ plannedAt db node item = true :=
              fun inside => absurd (valid.symm.trans (planned_at_iff.mp inside).1) (by simp)
            rw [List.filter_cons_of_neg outside] at done
            exact ⟨index, answers, agrees_tail held, done⟩
          obtain ⟨plans, done⟩ := ih later
          refine ⟨.refused error :: plans, ?_⟩
          simp only [planInOrder, made, pendingOf, List.append_nil, done, bind, Except.bind, pure, Except.pure]
      | ok accepted =>
          have inside : plannedAt db item.provisional.nodeName item = true := planned_at_iff.mpr ⟨valid, rfl⟩
          rw [List.filter_cons_of_pos inside, plan_node_step inside agrees] at planned
          simp only [Lib.bind_ok, Lib.pure_ok] at planned
          obtain ⟨plan, made, more, onward, rfl⟩ := planned
          have later : ∀ node, ∃ resolved plans, KeysAgree hash db (seen ++ pendingOf item plan) node resolved rest ∧
              planNode hash db node resolved (nextSeen db (seen ++ pendingOf item plan) node)
                (rest.filter (plannedAt db node)) = .ok plans := by
            intro node
            by_cases here : item.provisional.nodeName = node
            · subst here
              exact ⟨_, more, agrees_after inside made agrees, onward⟩
            · obtain ⟨index, answers, held, done⟩ := nodes node
              have outside : ¬ plannedAt db node item = true := fun also => here (planned_at_iff.mp also).2
              rw [List.filter_cons_of_neg outside] at done
              refine ⟨index, answers, agrees_elsewhere here held, ?_⟩
              rw [next_seen_elsewhere here]
              exact done
          obtain ⟨plans, done⟩ := ih later
          refine ⟨plan :: plans, ?_⟩
          simp only [planInOrder, made, done, bind, Except.bind, pure, Except.pure]

theorem plan_in_order_length (planned : planInOrder hash db seen items = .ok plans) : plans.length = items.length := by
  induction items generalizing seen plans with
  | nil =>
      obtain rfl := Except.ok.inj planned
      rfl
  | cons item rest ih =>
      simp only [planInOrder, Lib.bind_ok, Lib.pure_ok] at planned
      obtain ⟨plan, _, later, more, rfl⟩ := planned
      rw [List.length_cons, List.length_cons, ih more]

theorem plan_in_order_refused {error : Error} (planned : planInOrder hash db seen items = .ok plans)
    (listed : (item, plan) ∈ items.zip plans) (invalid : validProducer db item = .error error) :
    plan = .refused error := by
  induction items generalizing seen plans with
  | nil => exact absurd listed (by simp)
  | cons first rest ih =>
      simp only [planInOrder, Lib.bind_ok, Lib.pure_ok] at planned
      obtain ⟨found, made, later, more, rfl⟩ := planned
      rcases List.mem_cons.mp (List.zip_cons_cons ▸ listed) with here | there
      · obtain ⟨rfl, rfl⟩ := Prod.mk.inj here
        simp only [planItem, invalid, Except.ok.injEq] at made
        exact made.symm
      · exact ih more there

theorem plan_in_order_created (planned : planInOrder hash db seen items = .ok plans)
    (listed : (item, .created jobId) ∈ items.zip plans) : validProducer db item = .ok () := by
  cases valid : validProducer db item with
  | ok accepted => rfl
  | error error => exact absurd (plan_in_order_refused planned listed valid) (by simp)

end Node

section Whole

variable {publishes : List AutoJobPublish} {planned : List ((Nat × AutoJobPublish) × PublishPlan)}

def indexed (publishes : List AutoJobPublish) : List (Nat × AutoJobPublish) :=
  publishes.zipIdx.map fun entry => (entry.2, entry.1)

def plannedNodeNames (db : Database) (publishes : List AutoJobPublish) : List String :=
  ((validItems db publishes).map itemNode).eraseDups

def nodeMembers (db : Database) (publishes : List AutoJobPublish) (plans : List PublishPlan) (node : String) :
    List ((Nat × AutoJobPublish) × PublishPlan) :=
  ((indexed publishes).zip plans).filter fun entry => plannedAt db node entry.1.2

theorem indexed_items (publishes : List AutoJobPublish) : (indexed publishes).map Prod.snd = publishes := by
  rw [indexed, List.map_map]
  exact List.zipIdx_map_fst 0 publishes

theorem valid_items_filter :
    validItems db publishes = (indexed publishes).filter fun entry => (validProducer db entry.2).isOk := by
  rw [validItems, map_zipIdx publishes, List.zip_map', List.filter_map, List.map_map, indexed, List.filter_map]
  rfl

theorem node_group : (validItems db publishes).filter (fun entry => entry.2.provisional.nodeName == node) =
    (indexed publishes).filter fun entry => plannedAt db node entry.2 := by
  rw [valid_items_filter, List.filter_filter]
  apply List.filter_congr
  intro entry _
  rw [plannedAt, Bool.and_comm]

theorem node_group_items : ((indexed publishes).filter fun entry => plannedAt db node entry.2).map Prod.snd =
    publishes.filter (plannedAt db node) := by
  conv_rhs => rw [← indexed_items publishes]
  rw [List.filter_map]
  rfl

theorem zip_filter {α β : Type} {kept : α → Bool} {left : List α} {right : List β} (sized : right.length = left.length) :
    (left.filter kept).zip (((left.zip right).filter fun pair => kept pair.1).map Prod.snd) =
      (left.zip right).filter fun pair => kept pair.1 := by
  induction left generalizing right with
  | nil => simp
  | cons first rest ih =>
      cases right with
      | nil => exact absurd sized (by simp)
      | cons value values =>
          have later := ih (Nat.succ.inj sized)
          cases inside : kept first with
          | true => simp [inside, later]
          | false => simp [inside, later]

theorem node_plans_indexed :
    nodePlans db node publishes plans = (nodeMembers db publishes plans node).map Prod.snd := by
  unfold nodePlans nodeMembers
  conv_lhs => rw [← indexed_items publishes]
  rw [List.zip_map_left, List.filter_map, List.map_map]
  rfl

theorem node_members_zip (sized : plans.length = publishes.length) :
    ((indexed publishes).filter fun entry => plannedAt db node entry.2).zip (nodePlans db node publishes plans) =
      nodeMembers db publishes plans node := by
  rw [node_plans_indexed]
  apply zip_filter
  rw [sized, indexed, List.length_map, List.length_zipIdx]

theorem agrees_start : KeysAgree hash db [] node
    (existingByHash hash db node (publishes.filter (plannedAt db node))) publishes := by
  intro item listed planned key named
  have inside : item ∈ publishes.filter (plannedAt db node) := List.mem_filter.mpr ⟨listed, planned⟩
  rw [existing_lookup hash db node inside named]
  have none_ : seenKey hash [] node (hash key) = none := rfl
  rw [none_, Option.or_none]

theorem next_seen_start : nextSeen db [] node = nextJobId db node := rfl

def groupPlans (hash : KeyHash) (db : Database) (publishes : List AutoJobPublish) (node : String) :
    Result (List ((Nat × AutoJobPublish) × PublishPlan)) := do
  let group := (validItems db publishes).filter fun entry => entry.2.provisional.nodeName == node
  let members := group.map Prod.snd
  let plans ← planNode hash db node (existingByHash hash db node members) (nextJobId db node) members
  return group.zip plans

theorem node_block (done : planInOrder hash db [] publishes = .ok plans) :
    groupPlans hash db publishes node = .ok (nodeMembers db publishes plans node) := by
  unfold groupPlans
  dsimp only
  rw [node_group, node_group_items, ← next_seen_start, plan_node_in_order agrees_start done]
  exact congrArg Except.ok (node_members_zip (plan_in_order_length done))

theorem plan_nodes_iff : planNodes hash db (validItems db publishes) = .ok planned ↔
    ∃ plans, planInOrder hash db [] publishes = .ok plans ∧
      planned = (plannedNodeNames db publishes).flatMap (nodeMembers db publishes plans) := by
  have whole : ∀ plans, planInOrder hash db [] publishes = .ok plans →
      planNodes hash db (validItems db publishes) =
        .ok ((plannedNodeNames db publishes).flatMap (nodeMembers db publishes plans)) := by
    intro plans done
    have block : ∀ node, groupPlans hash db publishes node = .ok (nodeMembers db publishes plans node) :=
      fun _ => node_block done
    have gathered : ∃ blocks, collect (groupPlans hash db publishes) (plannedNodeNames db publishes) = .ok blocks :=
      Lib.collect_total fun node _ => ⟨_, block node⟩
    obtain ⟨blocks, collected⟩ := gathered
    have same := Lib.collect_eq_map (nodeMembers db publishes plans)
      (fun node found made => Except.ok.inj (made.symm.trans (block node))) collected
    have planning : planNodes hash db (validItems db publishes) = (do
        let blocks ← collect (groupPlans hash db publishes) (plannedNodeNames db publishes)
        return blocks.flatten) := rfl
    rw [planning, collected, same, List.flatMap_def]
    rfl
  constructor
  · intro done
    have nodes : ∀ node, ∃ resolved plans, KeysAgree hash db [] node resolved publishes ∧
        planNode hash db node resolved (nextSeen db [] node) (publishes.filter (plannedAt db node)) = .ok plans := by
      intro node
      by_cases present : node ∈ plannedNodeNames db publishes
      · simp only [planNodes, Lib.bind_ok, Lib.pure_ok] at done
        obtain ⟨blocks, collected, _⟩ := done
        obtain ⟨_, _, step⟩ := (Lib.mem_of_collect collected).2 node present
        simp only [Lib.bind_ok, Lib.pure_ok] at step
        obtain ⟨answers, planned, _⟩ := step
        rw [node_group, node_group_items] at planned
        exact ⟨_, answers, agrees_start, planned⟩
      · have none_ : publishes.filter (plannedAt db node) = [] := by
          rw [List.filter_eq_nil_iff]
          intro item listed inside
          apply present
          obtain ⟨valid, here⟩ := planned_at_iff.mp inside
          obtain ⟨index, at_⟩ := List.mem_iff_getElem?.mp listed
          have member : (index, item) ∈ validItems db publishes := mem_validItems.mpr ⟨at_, by rw [valid]; rfl⟩
          rw [plannedNodeNames, List.mem_eraseDups]
          exact List.mem_map.mpr ⟨_, member, here⟩
        rw [none_]
        exact ⟨[], [], fun item listed inside => absurd (List.mem_filter.mpr ⟨listed, inside⟩) (by simp [none_]), rfl⟩
    obtain ⟨plans, ordered⟩ := plan_in_order_of_nodes nodes
    exact ⟨plans, ordered, Except.ok.inj (done.symm.trans (whole plans ordered))⟩
  · rintro ⟨plans, ordered, rfl⟩
    exact whole plans ordered

theorem planned_outcomes (ordered : planInOrder hash db [] publishes = .ok plans)
    (done : planNodes hash db (validItems db publishes) = .ok planned) :
    ((publishes.map (validProducer db)).zipIdx.map fun entry => publishOutcome entry.1 entry.2 planned) =
      plans.map planOutcome := by
  have sized := plan_in_order_length ordered
  have members : planned = (plannedNodeNames db publishes).flatMap (nodeMembers db publishes plans) := by
    obtain ⟨found, again, rfl⟩ := plan_nodes_iff.mp done
    rw [Except.ok.inj (ordered.symm.trans again)]
  apply List.ext_getElem?
  intro index
  rw [List.zipIdx_map, List.map_map, List.getElem?_map, List.getElem?_zipIdx, List.getElem?_map]
  cases here : publishes[index]? with
  | none =>
      have past : plans[index]? = none := by
        rw [List.getElem?_eq_none_iff] at here ⊢
        omega
      rw [past]
      rfl
  | some item =>
      have inside : index < plans.length := by
        have bound := (List.getElem?_eq_some_iff.mp here).1
        omega
      have at_ : plans[index]? = some plans[index] := List.getElem?_eq_getElem inside
      rw [at_]
      simp only [Option.map_some, Function.comp_apply, Nat.zero_add, Option.some.injEq, Prod.map]
      have paired : (publishes.zip plans)[index]? = some (item, plans[index]) := by
        rw [List.getElem?_zip_eq_some]
        exact ⟨here, at_⟩
      cases valid : validProducer db item with
      | error error =>
          rw [plan_in_order_refused ordered (List.mem_of_getElem? paired) valid]
          rfl
      | ok accepted =>
          have indexedAt : (indexed publishes)[index]? = some (index, item) := by
            rw [indexed, List.getElem?_map, List.getElem?_zipIdx, here]
            simp
          have zipped : ((indexed publishes).zip plans)[index]? = some ((index, item), plans[index]) := by
            rw [List.getElem?_zip_eq_some]
            exact ⟨indexedAt, at_⟩
          apply outcome_of_plan (planned_indices validItems_indices done)
          rw [members, List.mem_flatMap]
          refine ⟨item.provisional.nodeName, ?_, ?_⟩
          · rw [plannedNodeNames, List.mem_eraseDups]
            exact List.mem_map.mpr ⟨(index, item), mem_validItems.mpr ⟨here, by rw [valid]; rfl⟩, rfl⟩
          · exact List.mem_filter.mpr ⟨List.mem_of_getElem? zipped, planned_at_iff.mpr ⟨valid, rfl⟩⟩

end Whole

section ByNode

variable {publishes : List AutoJobPublish} {planned : List ((Nat × AutoJobPublish) × PublishPlan)}

def SameByNode (left right : List Pending) : Prop := ∀ node, seenAt left node = seenAt right node

theorem pending_item_of {entry : (Nat × AutoJobPublish) × PublishPlan} :
    (pendingItem entry).toList = pendingOf entry.1.2 entry.2 := by
  obtain ⟨_, plan⟩ := entry
  cases plan <;> rfl

theorem pending_in_order_indexed : pendingInOrder publishes plans =
    ((indexed publishes).zip plans).filterMap pendingItem := by
  unfold pendingInOrder
  conv_lhs => rw [← indexed_items publishes]
  rw [List.zip_map_left, List.flatMap_map, List.filterMap_eq_flatMap_toList]
  apply List.flatMap_congr
  intro entry _
  exact pending_item_of.symm

theorem flat_map_at {names : List String} {pending : String → List Pending} (distinct : names.Nodup)
    (own : ∀ name, ∀ entry ∈ pending name, pendingNode entry = name) :
    seenAt (names.flatMap pending) node = if node ∈ names then pending node else [] := by
  induction names with
  | nil => rfl
  | cons name rest ih =>
      rw [List.nodup_cons] at distinct
      rw [List.flatMap_cons, seen_at_append, ih distinct.2]
      by_cases here : node = name
      · subst here
        have all : seenAt (pending node) node = pending node := by
          rw [seenAt, List.filter_eq_self]
          intro entry listed
          simpa using own node entry listed
        rw [all, if_neg distinct.1, if_pos List.mem_cons_self, List.append_nil]
      · have none_ : seenAt (pending name) node = [] := by
          rw [seenAt, List.filter_eq_nil_iff]
          intro entry listed same
          exact here ((by simpa using same : pendingNode entry = node).symm.trans (own name entry listed))
        rw [none_, List.nil_append]
        simp only [List.mem_cons, here, false_or]

theorem node_members_pending (ordered : planInOrder hash db [] publishes = .ok plans) (node : String) :
    (nodeMembers db publishes plans node).filterMap pendingItem = seenAt (pendingInOrder publishes plans) node := by
  rw [pending_in_order_indexed, seenAt, List.filter_filterMap, nodeMembers, List.filterMap_filter]
  apply List.filterMap_congr
  intro entry listed
  obtain ⟨⟨index, item⟩, plan⟩ := entry
  have paired : (item, plan) ∈ publishes.zip plans := by
    rw [← indexed_items publishes, List.zip_map_left]
    exact List.mem_map.mpr ⟨_, listed, rfl⟩
  cases plan with
  | refused error => simp [pendingItem]
  | existing number => simp [pendingItem]
  | created number =>
      have valid := plan_in_order_created ordered paired
      by_cases here : item.provisional.nodeName = node
      · have inside : plannedAt db node item = true := planned_at_iff.mpr ⟨valid, here⟩
        simp [pendingItem, inside, pendingNode, here, Option.filter_some]
      · have outside : plannedAt db node item = false := by
          rw [Bool.eq_false_iff]
          exact fun inside => here (planned_at_iff.mp inside).2
        simp [pendingItem, outside, pendingNode, here, Option.filter_some]

theorem planned_by_node (ordered : planInOrder hash db [] publishes = .ok plans)
    (done : planNodes hash db (validItems db publishes) = .ok planned) :
    SameByNode (planned.filterMap pendingItem) (pendingInOrder publishes plans) := by
  intro node
  have members : planned = (plannedNodeNames db publishes).flatMap (nodeMembers db publishes plans) := by
    obtain ⟨found, again, rfl⟩ := plan_nodes_iff.mp done
    rw [Except.ok.inj (ordered.symm.trans again)]
  have blocks : planned.filterMap pendingItem =
      (plannedNodeNames db publishes).flatMap (seenAt (pendingInOrder publishes plans)) := by
    rw [members, List.filterMap_flatMap]
    apply List.flatMap_congr
    intro name _
    exact node_members_pending ordered name
  have own : ∀ name, ∀ entry ∈ seenAt (pendingInOrder publishes plans) name, pendingNode entry = name := by
    intro name entry listed
    simpa using (List.mem_filter.mp listed).2
  have distinct : (plannedNodeNames db publishes).Nodup := nodup_eraseDups
  rw [blocks, flat_map_at distinct own]
  by_cases present : node ∈ plannedNodeNames db publishes
  · rw [if_pos present]
  · rw [if_neg present, eq_comm, ← node_members_pending ordered]
    have none_ : nodeMembers db publishes plans node = [] := by
      unfold nodeMembers
      rw [List.filter_eq_nil_iff]
      rintro ⟨entry, plan⟩ listed inside
      apply present
      rw [plannedNodeNames, List.mem_eraseDups, valid_items_filter]
      obtain ⟨valid, here⟩ := planned_at_iff.mp inside
      refine List.mem_map.mpr ⟨entry, List.mem_filter.mpr ⟨(List.of_mem_zip listed).1, ?_⟩, here⟩
      rw [valid]
      rfl
    rw [none_]
    rfl

theorem SameByNode.perm {left right : List Pending} (same : SameByNode left right) : left.Perm right := by
  classical
  rw [List.perm_iff_count]
  intro entry
  have gathered : ∀ pending : List Pending, (seenAt pending (pendingNode entry)).count entry = pending.count entry :=
    fun pending => List.count_filter (by simp)
  rw [← gathered left, ← gathered right, same]

end ByNode

end MicroWorkflow
