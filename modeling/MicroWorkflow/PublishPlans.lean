import MicroWorkflow.JobNumbering

set_option autoImplicit false

namespace MicroWorkflow

open Lib (Table collect)

variable {hash : KeyHash} {causes : ArrivalCauses} {db : Database} {store stored : JobStore} {node key : String}
  {publishes : List AutoJobPublish} {item : AutoJobPublish} {planned : List ((Nat × AutoJobPublish) × PublishPlan)}

section Planned

def validProducer (db : Database) (item : AutoJobPublish) : Result Unit :=
  validateJobProducer db item.provisional item.producerExecutionId

def validItems (db : Database) (publishes : List AutoJobPublish) : List (Nat × AutoJobPublish) :=
  (((publishes.zipIdx.map fun entry => (entry.2, entry.1)).zip (publishes.map (validProducer db))).filter
    fun entry => entry.2.isOk).map Prod.fst

theorem map_zipIdx {α β : Type} (items : List α) (f : α → β) : items.map f = items.zipIdx.map fun entry => f entry.1 := by
  have first : items.zipIdx.map Prod.fst = items := List.zipIdx_map_fst 0 items
  conv_lhs => rw [← first]
  rw [List.map_map]
  rfl

theorem mem_validItems {index : Nat} :
    (index, item) ∈ validItems db publishes ↔ publishes[index]? = some item ∧ (validProducer db item).isOk = true := by
  rw [validItems, map_zipIdx publishes, List.zip_map']
  simp only [List.mem_map, List.mem_filter, Prod.exists, Prod.mk.injEq]
  constructor
  · rintro ⟨_, _, _, ⟨⟨found, position, listed, ⟨rfl, rfl⟩, rfl⟩, accepted⟩, rfl, rfl⟩
    exact ⟨List.mk_mem_zipIdx_iff_getElem?.mp listed, accepted⟩
  · rintro ⟨here, accepted⟩
    exact ⟨index, item, _, ⟨⟨item, index, List.mk_mem_zipIdx_iff_getElem?.mpr here, ⟨rfl, rfl⟩, rfl⟩, accepted⟩, rfl, rfl⟩

theorem validItems_indices : ((validItems db publishes).map Prod.fst).Nodup := by
  have whole : (publishes.zipIdx.map Prod.snd).Nodup := by
    rw [List.zipIdx_map_snd]
    exact List.nodup_range'
  refine whole.sublist ?_
  rw [validItems, map_zipIdx publishes, List.zip_map', List.map_map, List.filter_map, List.map_map]
  exact List.filter_sublist.map Prod.snd

def itemNode (entry : Nat × AutoJobPublish) : String := entry.2.provisional.nodeName

theorem plan_nodes_items {items : List (Nat × AutoJobPublish)} (done : planNodes hash db items = .ok planned) :
    planned.map Prod.fst =
      (items.map itemNode).eraseDups.flatMap fun node => items.filter fun entry => itemNode entry == node := by
  simp only [planNodes, Lib.bind_ok, Lib.pure_ok] at done
  obtain ⟨blocks, collected, rfl⟩ := done
  change collect _ ((items.map itemNode).eraseDups) = .ok blocks at collected
  generalize (items.map itemNode).eraseDups = nodes at collected ⊢
  have related := Lib.collect_ok.mp collected
  clear collected
  induction related with
  | nil => rfl
  | @cons node block rest later step _ ih =>
      simp only [Lib.bind_ok, Lib.pure_ok] at step
      obtain ⟨plans, planned, rfl⟩ := step
      have sized := (plan_node_created planned).1
      rw [List.length_map] at sized
      rw [List.flatten_cons, List.map_append, ih, List.flatMap_cons, List.map_fst_zip (Nat.le_of_eq sized.symm)]
      rfl

theorem planned_item {items : List (Nat × AutoJobPublish)} {entry : Nat × AutoJobPublish}
    (done : planNodes hash db items = .ok planned) : entry ∈ planned.map Prod.fst ↔ entry ∈ items := by
  rw [plan_nodes_items done, List.mem_flatMap]
  constructor
  · rintro ⟨_, _, listed⟩
    exact (List.mem_filter.mp listed).1
  · intro listed
    exact ⟨itemNode entry, by rw [List.mem_eraseDups]; exact List.mem_map_of_mem listed,
      List.mem_filter.mpr ⟨listed, by simp⟩⟩

theorem planned_indices {items : List (Nat × AutoJobPublish)} (distinct : (items.map Prod.fst).Nodup)
    (done : planNodes hash db items = .ok planned) : ((planned.map Prod.fst).map Prod.fst).Nodup := by
  rw [plan_nodes_items done, List.map_flatMap]
  unfold List.Nodup
  rw [List.pairwise_flatMap]
  refine ⟨fun node _ => distinct.sublist (List.filter_sublist.map _), ?_⟩
  refine List.Pairwise.imp ?_ nodup_eraseDups
  intro first second apart index inFirst again inSecond same
  obtain ⟨one, here, rfl⟩ := List.mem_map.mp inFirst
  obtain ⟨two, there, rfl⟩ := List.mem_map.mp inSecond
  obtain ⟨left, leftNode⟩ := List.mem_filter.mp here
  obtain ⟨right, rightNode⟩ := List.mem_filter.mp there
  obtain rfl := List.inj_on_of_nodup_map distinct left right same
  exact apart ((beq_iff_eq.mp leftNode).symm.trans (beq_iff_eq.mp rightNode))

theorem outcome_of_plan {index : Nat} {plan : PublishPlan} (distinct : ((planned.map Prod.fst).map Prod.fst).Nodup)
    (listed : ((index, item), plan) ∈ planned) : publishOutcome (.ok ()) index planned = planOutcome plan := by
  unfold publishOutcome
  rw [List.map_map] at distinct
  cases found : planned.find? fun entry => entry.1.1 = index with
  | none => exact absurd (List.find?_eq_none.mp found _ listed) (by simp)
  | some entry =>
      have same : entry.1.1 = index := by simpa using List.find?_some found
      obtain rfl := List.inj_on_of_nodup_map distinct (List.mem_of_find?_eq_some found) listed same
      rfl

theorem mem_zip_zipIdx {α β : Type} {items : List α} {f : α × Nat → β} {member : α} {value : β} :
    (member, value) ∈ items.zip (items.zipIdx.map f) ↔ ∃ index, items[index]? = some member ∧ value = f (member, index) := by
  have paired : items.zip (items.zipIdx.map f) = items.zipIdx.map fun entry => (entry.1, f entry) :=
    calc items.zip (items.zipIdx.map f)
        = (items.zipIdx.map Prod.fst).zip (items.zipIdx.map f) := by rw [List.zipIdx_map_fst]
      _ = items.zipIdx.map fun entry => (entry.1, f entry) := List.zip_map'
  rw [paired]
  simp only [List.mem_map, Prod.exists, Prod.mk.injEq]
  constructor
  · rintro ⟨_, index, listed, rfl, rfl⟩
    exact ⟨index, List.mk_mem_zipIdx_iff_getElem?.mp listed, rfl⟩
  · rintro ⟨index, here, rfl⟩
    exact ⟨member, index, List.mk_mem_zipIdx_iff_getElem?.mpr here, rfl, rfl⟩

theorem auto_publishes_outcomes {outcomes : List (Result (Bool × Nat))}
    (done : applyAutoJobPublishes hash causes store publishes = .ok (outcomes, stored)) :
    ∃ planned, planNodes hash store.db (validItems store.db publishes) = .ok planned ∧
      JobsPublished store.db stored.db ((planned.filterMap pendingItem).map fun entry => entry.1.numbered entry.2)
        (pendingKeyRows hash (planned.filterMap pendingItem)) ∧
      ∀ item outcome, (item, outcome) ∈ publishes.zip outcomes ↔
        ∃ index, publishes[index]? = some item ∧
          outcome = publishOutcome (validProducer store.db item) index planned := by
  simp only [applyAutoJobPublishes, Lib.bind_ok] at done
  obtain ⟨planned, plans, done⟩ := done
  split at done
  · exact absurd done Lib.throw_ok
  have answered : ∀ item outcome, (item, outcome) ∈ publishes.zip ((publishes.map (validProducer store.db)).zipIdx.map
      fun entry => publishOutcome entry.1 entry.2 planned) ↔
        ∃ index, publishes[index]? = some item ∧
          outcome = publishOutcome (validProducer store.db item) index planned := by
    intro item outcome
    rw [List.zipIdx_map, List.map_map]
    exact mem_zip_zipIdx
  split at done
  · simp only [Lib.bind_ok, Lib.pure_ok, Prod.mk.injEq] at done
    obtain ⟨_, rfl, rfl, rfl⟩ := done
    have none := List.isEmpty_iff.mp ‹_›
    refine ⟨planned, plans, ?_, answered⟩
    rw [none]
    exact ⟨by simp, by simp [pendingKeyRows], rfl, rfl, rfl, rfl⟩
  · simp only [Lib.bind_ok, Lib.pure_ok, Prod.mk.injEq] at done
    obtain ⟨next, published, rfl, rfl⟩ := done
    obtain ⟨written, _⟩ := publish_pending_published published
    exact ⟨planned, plans, ⟨written.jobs, written.keys, written.guards, written.receipts, written.attempts,
      written.inputs⟩, answered⟩

theorem valid_of_isOk (accepted : (validProducer db item).isOk = true) : validProducer db item = .ok () := by
  cases produced : validProducer db item with
  | error error => exact absurd (produced ▸ accepted) (by simp [Except.isOk, Except.toBool])
  | ok value => rfl

theorem planned_answer {index : Nat} (plans : planNodes hash db (validItems db publishes) = .ok planned)
    (here : publishes[index]? = some item) (valid : validProducer db item = .ok ()) :
    ∃ plan, ((index, item), plan) ∈ planned ∧
      publishOutcome (validProducer db item) index planned = planOutcome plan := by
  have listed : (index, item) ∈ validItems db publishes := mem_validItems.mpr ⟨here, by rw [valid]; rfl⟩
  obtain ⟨⟨_, plan⟩, member, rfl⟩ := List.mem_map.mp ((planned_item plans).mpr listed)
  refine ⟨plan, member, ?_⟩
  rw [valid]
  exact outcome_of_plan (planned_indices validItems_indices plans) member

theorem pending_iff_created {jobId : Nat} (plans : planNodes hash db (validItems db publishes) = .ok planned) :
    (item, jobId) ∈ planned.filterMap pendingItem ↔
      ∃ index, publishes[index]? = some item ∧
        .ok (true, jobId) = publishOutcome (validProducer db item) index planned := by
  rw [List.mem_filterMap]
  constructor
  · rintro ⟨⟨⟨index, found⟩, plan⟩, member, pending⟩
    cases plan with
    | refused error => exact absurd pending (by simp [pendingItem])
    | existing number => exact absurd pending (by simp [pendingItem])
    | created number =>
        simp only [pendingItem, Option.some.injEq, Prod.mk.injEq] at pending
        obtain ⟨rfl, rfl⟩ := pending
        have listed := (planned_item plans).mp (List.mem_map_of_mem member)
        obtain ⟨here, accepted⟩ := mem_validItems.mp listed
        refine ⟨index, here, ?_⟩
        rw [valid_of_isOk accepted, outcome_of_plan (planned_indices validItems_indices plans) member]
        rfl
  · rintro ⟨index, here, answer⟩
    cases valid : validProducer db item with
    | error error =>
        rw [valid] at answer
        exact absurd answer (by simp [publishOutcome])
    | ok value =>
        obtain ⟨plan, member, outcome⟩ := planned_answer plans here valid
        rw [outcome] at answer
        cases plan with
        | refused error => exact absurd answer (by simp [planOutcome])
        | existing number => exact absurd answer (by simp [planOutcome])
        | created number =>
            simp only [planOutcome, Except.ok.injEq, Prod.mk.injEq, true_and] at answer
            subst answer
            exact ⟨_, member, rfl⟩

end Planned

section Resolution

theorem plan_node_resolves {resolved : KeyIndex} {start jobId : Nat} {text : String} {items : List AutoJobPublish}
    {plans : List PublishPlan} (found : resolved.lookup (hash key) = some (text, jobId))
    (planned : planNode hash db node resolved start items = .ok plans) {plan : PublishPlan}
    (named : item.idempotencyKey = some key) (listed : (item, plan) ∈ items.zip plans) : plan = .existing jobId := by
  induction items generalizing resolved start plans with
  | nil => exact absurd listed (by simp)
  | cons first rest ih =>
      have headed : first = item → resolvedKey hash resolved first = some (text, jobId) := by
        rintro rfl
        rw [resolvedKey, named]
        exact found
      unfold planNode at planned
      split at planned
      · rename_i answer number resolving
        simp only [Lib.bind_ok, Lib.pure_ok] at planned
        obtain ⟨_, _, later, more, rfl⟩ := planned
        rcases List.mem_cons.mp (List.zip_cons_cons ▸ listed) with here | there
        · obtain ⟨rfl, rfl⟩ := Prod.mk.inj here
          have same := resolving.symm.trans (headed rfl)
          rw [(Prod.mk.inj (Option.some.inj same)).2]
        · exact ih found more there
      · rename_i unresolved
        have apart : first ≠ item := fun same => absurd (unresolved.symm.trans (headed same)) (by simp)
        split at planned
        · simp only [Lib.bind_ok, Lib.pure_ok] at planned
          obtain ⟨later, more, rfl⟩ := planned
          rcases List.mem_cons.mp (List.zip_cons_cons ▸ listed) with here | there
          · exact absurd (Prod.mk.inj here).1.symm apart
          · exact ih found more there
        · simp only [Lib.bind_ok, Lib.pure_ok] at planned
          obtain ⟨later, more, rfl⟩ := planned
          rcases List.mem_cons.mp (List.zip_cons_cons ▸ listed) with here | there
          · exact absurd (Prod.mk.inj here).1.symm apart
          · refine ih ?_ more there
            cases other : first.idempotencyKey with
            | none => exact found
            | some taken =>
                rw [resolvedKey, other] at unresolved
                have different : (hash key == hash taken) = false := by
                  rw [beq_eq_false_iff_ne]
                  intro same
                  rw [Option.bind_some, ← same] at unresolved
                  exact absurd (unresolved.symm.trans found) (by simp)
                rw [List.lookup_cons, different]
                exact found

theorem existing_lookup (hash : KeyHash) (db : Database) (node : String) {items : List AutoJobPublish}
    (listed : item ∈ items) (named : item.idempotencyKey = some key) :
    (existingByHash hash db node items).lookup (hash key) = lookupKey db node (hash key) := by
  have present : key ∈ items.filterMap AutoJobPublish.idempotencyKey := List.mem_filterMap.mpr ⟨item, listed, named⟩
  unfold existingByHash
  generalize items.filterMap AutoJobPublish.idempotencyKey = keys at present
  induction keys with
  | nil => exact absurd present (by simp)
  | cons first rest ih =>
      rw [List.filterMap_cons]
      cases found : lookupKey db node (hash first) with
      | none =>
          rcases List.mem_cons.mp present with rfl | later
          · simp only [Option.map_none]
            rw [found]
            have none : ∀ others : List String, (others.filterMap fun other =>
                (lookupKey db node (hash other)).map fun value => (hash other, value)).lookup (hash key) = none := by
              intro others
              rw [List.lookup_eq_none_iff]
              intro pair member
              obtain ⟨other, _, recorded⟩ := List.mem_filterMap.mp member
              obtain ⟨value, stored, rfl⟩ := Option.map_eq_some_iff.mp recorded
              rw [bne_iff_ne]
              intro (same : hash key = hash other)
              rw [← same, found] at stored
              exact absurd stored (by simp)
            exact none rest
          · exact ih later
      | some value =>
          simp only [Option.map_some]
          rw [List.lookup_cons]
          cases same : hash key == hash first with
          | true =>
              rw [beq_iff_eq.mp same]
              exact found.symm
          | false =>
              rcases List.mem_cons.mp present with rfl | later
              · exact absurd same (by simp)
              · exact ih later

theorem planned_existing {items : List (Nat × AutoJobPublish)} {index jobId : Nat} {plan : PublishPlan}
    (plans : planNodes hash db items = .ok planned) (member : ((index, item), plan) ∈ planned)
    (named : item.idempotencyKey = some key)
    (found : lookupKey db item.provisional.nodeName (hash key) = some (key, jobId)) : plan = .existing jobId := by
  simp only [planNodes, Lib.bind_ok, Lib.pure_ok] at plans
  obtain ⟨blocks, collected, rfl⟩ := plans
  obtain ⟨block, inside, listed⟩ := List.mem_flatten.mp member
  obtain ⟨node, _, step⟩ := (Lib.mem_of_collect collected).1 block inside
  simp only [Lib.bind_ok, Lib.pure_ok] at step
  obtain ⟨answers, planned, rfl⟩ := step
  have grouped := (List.of_mem_zip listed).1
  have here : item.provisional.nodeName = node := by simpa using (List.mem_filter.mp grouped).2
  have paired : (item, plan) ∈ ((items.filter fun entry => entry.2.provisional.nodeName == node).map Prod.snd).zip answers := by
    rw [List.zip_map_left]
    exact List.mem_map.mpr ⟨_, listed, rfl⟩
  have inGroup : item ∈ (items.filter fun entry => entry.2.provisional.nodeName == node).map Prod.snd :=
    List.mem_map.mpr ⟨_, grouped, rfl⟩
  have resolved := existing_lookup hash db node inGroup named
  rw [← here, found] at resolved
  exact plan_node_resolves (here ▸ resolved) planned named paired

end Resolution

end MicroWorkflow
