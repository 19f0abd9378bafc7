import MicroWorkflow.PlansInOrder

set_option autoImplicit false

namespace MicroWorkflow

open Lib (require refuse orRaise collect Table)

section Statement

variable (hash : KeyHash) (membership : ReceiptProducer) (moveInput : NewJob → Result Unit)

structure SoundPublications (store : PublicationStore) : Prop where
  keys : ∀ row ∈ store.db.idempotency.rows, store.db.jobs.contains (row.nodeName, row.jobId) = true
  counters : ∀ row ∈ store.db.jobSequences.rows, 1 ≤ row.nextJobId
  latches : LatchesRecorded store

structure FreshInstances (store : PublicationStore) (publishes : List AutoJobPublish) : Prop where
  formed : ∀ item ∈ publishes, validInstance item.provisional.instanceId = true
  unnamed : ∀ item ∈ publishes, ∀ row ∈ store.causes.rows,
    row.receiverJobInstanceId ≠ some item.provisional.instanceId

def SettledInTurn (store : PublicationStore) : List AutoJobPublish → Prop
  | [] => True
  | item :: rest => ∃ done, store.applyAutoJobPublishes hash membership moveInput [item] = .ok done ∧
      SettledInTurn done.2 rest

def SameRows {κ ρ : Type} [DecidableEq κ] {key : ρ → κ} (left right : Table key) : Prop :=
  ∀ row, row ∈ left.rows ↔ row ∈ right.rows

structure SameStore (left right : PublicationStore) : Prop where
  jobs : SameRows left.db.jobs right.db.jobs
  instances : SameRows left.db.jobInstances right.db.jobInstances
  nodes : SameRows left.db.nodes right.db.nodes
  states : SameRows left.db.componentStates right.db.componentStates
  keys : SameRows left.db.idempotency right.db.idempotency
  sequences : SameRows left.db.jobSequences right.db.jobSequences
  events : left.db.jobEvents.Perm right.db.jobEvents
  others : ∃ tables, right.db = left.db.withTables tables
  causes : SameRows left.causes right.causes
  directories : left.directories.Perm right.directories

end Statement

variable {hash : KeyHash} {membership : ReceiptProducer} {moveInput : NewJob → Result Unit}
  {store next after final : PublicationStore} {publishes items : List AutoJobPublish} {item : AutoJobPublish}
  {plans : List PublishPlan} {plan : PublishPlan} {seen pending others : List Pending} {parents : List JobEvent}
  {entry : Pending} {node : String} {db : Database}

section Numbers

structure SeenPlanned (db : Database) (seen : List Pending) : Prop where
  numbered : ∀ node, (seenAt seen node).map Prod.snd = List.range' (nextJobId db node) (seenAt seen node).length
  producers : ∀ entry ∈ seen, validProducer db entry.1 = .ok ()

theorem seen_planned_start : SeenPlanned db [] := ⟨fun _ => rfl, fun _ listed => absurd listed (by simp)⟩

theorem seen_planned_step (before : SeenPlanned db seen) (made : planItem hash db seen item = .ok plan) :
    SeenPlanned db (seen ++ pendingOf item plan) := by
  cases plan with
  | refused error => simpa [pendingOf] using before
  | existing number => simpa [pendingOf] using before
  | created number =>
      obtain ⟨valid, _, _, rfl⟩ := plan_item_created made
      constructor
      · intro node
        rw [seen_at_append, List.map_append, before.numbered]
        by_cases here : item.provisional.nodeName = node
        · have one : ∀ number, seenAt (pendingOf item (.created number)) node = [(item, number)] := by
            intro number
            simp [seenAt, pendingOf, pendingNode, here]
          rw [one, List.length_append, List.length_singleton, List.range'_concat, here]
          simp [nextSeen]
        · have none_ : ∀ number, seenAt (pendingOf item (.created number)) node = [] := by
            intro number
            simp [seenAt, pendingOf, pendingNode, here]
          rw [none_]
          simp
      · intro entry listed
        rcases List.mem_append.mp listed with old | new
        · exact before.producers entry old
        · obtain rfl := List.mem_singleton.mp new
          exact valid

theorem seen_planned_run (before : SeenPlanned db seen) (planned : planInOrder hash db seen items = .ok plans) :
    SeenPlanned db (seen ++ pendingInOrder items plans) := by
  induction items generalizing seen plans with
  | nil => simpa [pendingInOrder] using before
  | cons item rest ih =>
      simp only [planInOrder, Lib.bind_ok, Lib.pure_ok] at planned
      obtain ⟨plan, made, later, more, rfl⟩ := planned
      have onward := ih (seen_planned_step before made) more
      rwa [List.append_assoc] at onward

theorem next_job_id_pos (counters : ∀ row ∈ db.jobSequences.rows, 1 ≤ row.nextJobId) (node : String) :
    1 ≤ nextJobId db node := by
  unfold nextJobId
  cases found : db.jobSequences.find node with
  | none => exact Nat.succ_pos _
  | some row => exact counters row (Table.find_mem found)

theorem seen_number (planned : SeenPlanned db seen) (listed : entry ∈ seen) : nextJobId db (pendingNode entry) ≤ entry.2 := by
  have here : entry ∈ seenAt seen (pendingNode entry) := List.mem_filter.mpr ⟨listed, by simp⟩
  have number : entry.2 ∈ (seenAt seen (pendingNode entry)).map Prod.snd := List.mem_map_of_mem here
  rw [planned.numbered] at number
  exact (List.mem_range'_1.mp number).1

theorem pending_item_listed (listed : entry ∈ pendingInOrder items plans) : entry.1 ∈ items := by
  obtain ⟨⟨item, plan⟩, paired, inside⟩ := List.mem_flatMap.mp listed
  cases plan with
  | refused error => exact absurd inside (by simp [pendingOf])
  | existing number => exact absurd inside (by simp [pendingOf])
  | created number =>
      obtain rfl := List.mem_singleton.mp inside
      exact (List.of_mem_zip paired).1

theorem pending_in_order_cons : pendingInOrder (item :: items) (plan :: plans) =
    pendingOf item plan ++ pendingInOrder items plans := rfl

end Numbers

section Reads

variable {tables : PublishedTables}

structure Reached (hash : KeyHash) (membership : ReceiptProducer) (moveInput : NewJob → Result Unit)
    (store : PublicationStore) (seen : List Pending) (parents : List JobEvent) (next : PublicationStore) : Prop where
  planned : SeenPlanned store.db seen
  premises : PublicationPremises store seen
  ready : Publishable hash membership moveInput store seen
  published : GroupPublished hash store seen parents next

theorem reached_start (sound : SoundPublications store) : Reached hash membership moveInput store [] [] store := by
  refine ⟨seen_planned_start, ⟨?_, ?_, ?_, sound.latches⟩, ?_, .refl⟩
  · simp
  · simp
  · simp
  · constructor
    · simp
    · simp
    · simp
    · simp
    · simp
    · simp
    · simp [pendingKeyRows]
    · simp [pendingKeyRows]

theorem find_published_job (before : GroupPublished hash store pending parents next) (place : JobAddress) :
    next.db.jobs.find place = (store.db.jobs.find place).or
      ((pending.find? fun entry => pendingPlace entry = place).map fun entry => (entry.1.numbered entry.2).row) := by
  unfold Table.find
  rw [before.jobs, List.find?_append, pendingJobs, List.map_map, List.find?_map]
  rfl

theorem find_published_key (before : GroupPublished hash store pending parents next) (key : String × String) :
    next.db.idempotency.find key = (store.db.idempotency.find key).or
      ((pendingKeyRows hash pending).find? fun row => row.key = key) := by
  unfold Table.find
  rw [before.keys, List.find?_append]

theorem pending_key_row {row : IdempotencyRow} (listed : row ∈ pendingKeyRows hash pending) :
    ∃ entry ∈ pending, (row.nodeName, row.jobId) = pendingPlace entry := by
  obtain ⟨entry, member, inside⟩ := List.mem_flatMap.mp listed
  refine ⟨entry, member, ?_⟩
  cases named : entry.1.idempotencyKey with
  | none => exact absurd inside (by simp [keyRows, named])
  | some key =>
      rw [named] at inside
      obtain rfl := List.mem_singleton.mp inside
      rfl

theorem publication_contains (before : GroupPublished hash store pending parents next) (member : entry ∈ pending) :
    next.db.jobs.contains (pendingPlace entry) = true := by
  rw [contains_iff]
  refine ⟨(entry.1.numbered entry.2).row, ?_, rfl⟩
  rw [before.jobs]
  exact List.mem_append_right _ (List.mem_map_of_mem (List.mem_map_of_mem member))

theorem kept_contains {place : JobAddress} (before : GroupPublished hash store pending parents next)
    (there : store.db.jobs.contains place = true) : next.db.jobs.contains place = true := by
  rw [contains_iff] at there ⊢
  obtain ⟨row, member, address⟩ := there
  refine ⟨row, ?_, address⟩
  rw [before.jobs]
  exact List.mem_append_left _ member

theorem lookup_in_turn {keyHash : String} (sound : SoundPublications store)
    (before : GroupPublished hash store pending parents next) :
    lookupKey next.db node keyHash = (lookupKey store.db node keyHash).or (seenKey hash pending node keyHash) := by
  unfold lookupKey seenKey
  rw [find_published_key before]
  cases old : store.db.idempotency.find (node, keyHash) with
  | some row =>
      have named := Table.find_key old
      have place : row.nodeName = node := (Prod.mk.inj named).1
      have live := sound.keys row (Table.find_mem old)
      rw [place] at live
      simp only [Option.some_or, live, kept_contains before live, if_true]
  | none =>
      rw [Option.none_or]
      cases new : (pendingKeyRows hash pending).find? fun row => row.key = (node, keyHash) with
      | none => rfl
      | some row =>
          have named : row.key = (node, keyHash) := by simpa using List.find?_some new
          have place : row.nodeName = node := (Prod.mk.inj named).1
          obtain ⟨entry, member, address⟩ := pending_key_row (List.mem_of_find?_eq_some new)
          have live := publication_contains before member
          rw [← address, place] at live
          simp only [live, if_true]
          rfl

theorem resolve_in_turn (sound : SoundPublications store) (before : GroupPublished hash store pending parents next) :
    resolveSeen hash next.db [] item = resolveSeen hash store.db pending item := by
  unfold resolveSeen
  cases item.idempotencyKey with
  | none => rfl
  | some key =>
      have none_ : seenKey hash [] item.provisional.nodeName (hash key) = none := rfl
      rw [Option.bind_some, Option.bind_some, lookup_in_turn sound before, none_, Option.or_none]

theorem number_in_turn (planned : SeenPlanned store.db pending)
    (before : GroupPublished hash store pending parents next) :
    nextSeen next.db [] node = nextSeen store.db pending node := by
  have counted : nextSeen next.db [] node = nextJobId next.db node := rfl
  have places : ((pending.map pendingPlace).filter fun place => place.1 = node) = (seenAt pending node).map pendingPlace := by
    rw [List.filter_map]
    rfl
  have numbers := planned.numbered node
  have sequences := before.sequences node
  rw [places] at sequences
  rw [counted, nextSeen]
  cases here : seenAt pending node with
  | nil =>
      rw [here] at sequences
      have same : next.db.jobSequences.find node = store.db.jobSequences.find node := sequences
      unfold nextJobId
      rw [same, List.length_nil, Nat.add_zero]
      cases store.db.jobSequences.find node with
      | some row => rfl
      | none =>
          apply tail_congr
          intro jobId
          unfold Table.contains
          rw [find_published_job before]
          have absent : (pending.find? fun entry => pendingPlace entry = (node, jobId)) = none := by
            rw [List.find?_eq_none]
            intro entry listed same
            have place : pendingPlace entry = (node, jobId) := by simpa using same
            have named : pendingNode entry = node := congrArg Prod.fst place
            have there : entry ∈ seenAt pending node := List.mem_filter.mpr ⟨listed, by simpa using named⟩
            rw [here] at there
            exact absurd there (by simp)
          rw [absent, Option.map_none, Option.or_none]
  | cons first rest =>
      rw [here] at sequences numbers
      obtain ⟨earlier, last, shape⟩ : ∃ earlier last, first :: rest = earlier ++ [last] :=
        ⟨_, _, (List.dropLast_append_getLast (by simp)).symm⟩
      rw [shape] at sequences numbers ⊢
      rw [List.map_append, List.map_singleton, List.getLast?_concat] at sequences
      rw [List.length_append, List.length_singleton, List.range'_concat, List.map_append, List.map_singleton] at numbers
      have number : last.2 = nextJobId store.db node + earlier.length := by
        have parts := List.append_inj_right' numbers rfl
        simpa using parts
      have counter : nextJobId next.db node = last.2 + 1 := by
        unfold nextJobId
        rw [sequences]
        rfl
      rw [counter, number, List.length_append, List.length_singleton]
      omega

theorem instance_in_turn {place : JobAddress} {row : Job} (ready : Publishable hash membership moveInput store pending)
    (before : GroupPublished hash store pending parents next) (found : store.db.jobs.find place = some row) :
    next.db.jobInstances.find place = store.db.jobInstances.find place := by
  rw [before.marked.instances]
  have absent : (pending.find? fun entry => pendingPlace entry = place) = none := by
    rw [List.find?_eq_none]
    intro entry listed same
    have here : pendingPlace entry = place := by simpa using same
    have free := ready.jobs entry listed
    rw [here, found] at free
    exact absurd free (by simp)
  rw [absent]
  rfl

theorem observation_kept {row : Job}
    (same : tables.jobInstances.find row.address = db.jobInstances.find row.address) :
    jobOwnerObservationFromRow (db.withTables tables) row = jobOwnerObservationFromRow db row := by
  have read : (db.withTables tables).jobInstances.find row.address = db.jobInstances.find row.address := same
  unfold jobOwnerObservationFromRow
  rw [read]
  rfl

theorem active_producer_kept {marked : Component → Bool} {job : NewJob} {executionId : String}
    {observed : JobOwnerObservation} (states : StatesMisaligned marked db.componentStates tables.componentStates) :
    requireActiveProducer (db.withTables tables) job executionId observed =
      requireActiveProducer db job executionId observed := by
  unfold requireActiveProducer
  simp only [producing_identity_misaligned states]
  rfl

theorem fresh_observation {job : NewJob} {producer : Option String} (formed : validInstance job.instanceId = true)
    (valid : validateJobProducer db job producer = .ok ())
    (found : tables.jobInstances.find job.address = some (job.instance producer)) :
    ∃ observed, jobOwnerObservationFromRow (db.withTables tables) job.row = .ok observed ∧ observed.owner = none := by
  have creator : creatorRecorded (db.withTables tables) producer = true := by
    cases producer with
    | none => rfl
    | some executionId =>
        simp only [validateJobProducer, Lib.bind_ok, Lib.require_ok, Lib.orRaise_ok] at valid
        obtain ⟨_, text, owner, owned, _⟩ := valid
        have there : (db.withTables tables).jobExecutionOwners.find executionId = some owner := owned
        simp [creatorRecorded, text, Table.contains, there]
  have here : (db.withTables tables).jobInstances.find job.row.address = some (job.instance producer) := found
  refine ⟨⟨job.instanceId, 0, .queued, none, none, none, .unclaimed, none, none⟩, ?_, rfl⟩
  unfold jobOwnerObservationFromRow
  rw [here]
  simp only [Lib.bind_ok, Lib.orRaise_ok, Lib.require_ok, Lib.refuse_ok]
  exact ⟨_, rfl, (), formed, (), creator, (), rfl, rfl⟩

theorem producer_in_turn (reached : Reached hash membership moveInput store pending parents next) :
    validProducer next.db item = validProducer store.db item := by
  obtain ⟨tables, same⟩ := reached.published.marked.tables
  have states := reached.published.marked.states
  unfold validProducer validateJobProducer
  cases item.producerExecutionId with
  | none => rfl
  | some executionId =>
      have owners : next.db.jobExecutionOwners = store.db.jobExecutionOwners := by
        rw [same]
        rfl
      simp only [owners]
      congr 1
      funext _
      cases store.db.jobExecutionOwners.find executionId with
      | none => rfl
      | some producer =>
          simp only [orRaise, bind, Except.bind]
          have read := find_published_job reached.published (producer.nodeName, producer.jobId)
          unfold readJobOwnerObservation
          rw [read]
          cases old : store.db.jobs.find (producer.nodeName, producer.jobId) with
          | some row =>
              have address := Table.find_key old
              have instances := instance_in_turn reached.ready reached.published old
              rw [same] at instances states ⊢
              rw [← address] at instances
              rw [Option.some_or]
              simp only [observation_kept instances, active_producer_kept states]
          | none =>
              rw [Option.none_or]
              cases new : pending.find? fun entry => pendingPlace entry = (producer.nodeName, producer.jobId) with
              | none => rfl
              | some entry =>
                  have listed := List.mem_of_find?_eq_some new
                  have found := inserted_instance (inserted_fresh_of reached.premises reached.ready)
                    reached.published.marked listed
                  rw [same] at found ⊢
                  have observing : ∃ observed, jobOwnerObservationFromRow (store.db.withTables tables)
                      (entry.1.numbered entry.2).row = .ok observed ∧ observed.owner = none :=
                    fresh_observation (reached.premises.formed entry listed) (reached.planned.producers entry listed) found
                  obtain ⟨observed, done, unowned⟩ := observing
                  simp only [Option.map_some, done, requireActiveProducer, unowned, orRaise, bind, Except.bind, pure,
                    Except.pure]

theorem plan_in_turn (sound : SoundPublications store)
    (reached : Reached hash membership moveInput store pending parents next) :
    planItem hash next.db [] item = planItem hash store.db pending item := by
  obtain ⟨tables, same⟩ := reached.published.marked.tables
  have admitted : admitItem next.db item.provisional.nodeName item = admitItem store.db item.provisional.nodeName item := by
    rw [same]
    rfl
  unfold planItem
  rw [producer_in_turn reached, resolve_in_turn sound reached.published, admitted,
    number_in_turn reached.planned reached.published]

end Reads

section Members

variable {done : List (Result (Bool × Nat)) × PublicationStore}

def groupPending (db : Database) (publishes : List AutoJobPublish) (plans : List PublishPlan) : List Pending :=
  ((plannedNodeNames db publishes).flatMap (nodeMembers db publishes plans)).filterMap pendingItem

theorem publish_pending_nil : store.publishPending hash membership moveInput [] = .ok store := by
  have arrivals : markArrivals membership { store with db := store.db } [] = .ok ([], store) := rfl
  have events : store.db.jobEvents ++ pendingEvents store.db [] = store.db.jobEvents := List.append_nil _
  have inserted : insertJobs store.db (pendingJobs []) = .ok store.db := rfl
  have produced : recordPendingProducers store.db [] = .ok store.db := rfl
  simp only [PublicationStore.publishPending, Lib.thread, inserted, produced, arrivals, events, bind, Except.bind]
  rfl

theorem apply_publishes_eq : store.applyAutoJobPublishes hash membership moveInput publishes = (do
    let planned ← planNodes hash store.db (validItems store.db publishes)
    let next ← store.publishPending hash membership moveInput (planned.filterMap pendingItem)
    let outcomes := (publishes.map (validProducer store.db)).zipIdx.map fun entry =>
      publishOutcome entry.1 entry.2 planned
    return (outcomes, next.insertParentEvents (parentEvents (publishes.zip outcomes)))) := by
  unfold PublicationStore.applyAutoJobPublishes
  dsimp only
  congr 1
  funext planned
  split
  · rename_i empty
    rw [List.isEmpty_iff.mp empty, publish_pending_nil]
    rfl
  · rfl

theorem apply_publishes_iff : store.applyAutoJobPublishes hash membership moveInput publishes = .ok done ↔
    ∃ plans published, planInOrder hash store.db [] publishes = .ok plans ∧
      store.publishPending hash membership moveInput (groupPending store.db publishes plans) = .ok published ∧
      done = (plans.map planOutcome,
        published.insertParentEvents (parentEvents (publishes.zip (plans.map planOutcome)))) := by
  rw [apply_publishes_eq]
  simp only [Lib.bind_ok, Lib.pure_ok]
  constructor
  · rintro ⟨planned, whole, published, written, rfl⟩
    obtain ⟨plans, ordered, members⟩ := plan_nodes_iff.mp whole
    refine ⟨plans, published, ordered, ?_, ?_⟩
    · rw [groupPending, ← members]
      exact written
    · rw [planned_outcomes ordered whole]
  · rintro ⟨plans, published, ordered, written, rfl⟩
    have whole := plan_nodes_iff.mpr ⟨plans, ordered, rfl⟩
    refine ⟨_, whole, published, written, ?_⟩
    rw [planned_outcomes ordered whole]

theorem group_by_node (ordered : planInOrder hash db [] publishes = .ok plans) :
    SameByNode (groupPending db publishes plans) (pendingInOrder publishes plans) :=
  planned_by_node ordered (plan_nodes_iff.mpr ⟨plans, ordered, rfl⟩)

theorem group_single (made : planItem hash db [] item = .ok plan) : groupPending db [item] [plan] = pendingOf item plan := by
  have ordered : planInOrder hash db [] [item] = .ok [plan] := by
    simp only [planInOrder, made, bind, Except.bind, pure, Except.pure]
  have perm := (group_by_node ordered).perm
  have one : pendingInOrder [item] [plan] = pendingOf item plan := List.append_nil _
  rw [one] at perm
  cases plan with
  | refused error => exact List.perm_nil.mp perm
  | existing number => exact List.perm_nil.mp perm
  | created number => exact List.perm_singleton.mp perm

theorem parental_events {entries : List (AutoJobPublish × Result (Bool × Nat))} :
    ∀ event ∈ parentEvents entries, event.event = "jobs_created" := by
  intro event listed
  obtain ⟨⟨item, outcome⟩, _, recorded⟩ := List.mem_filterMap.mp listed
  dsimp only at recorded
  split at recorded
  · obtain rfl := Option.some.inj recorded
    rfl
  · exact absurd recorded (by simp)

theorem parents_recorded {events : List JobEvent} (before : GroupPublished hash store pending parents next)
    (parental : ∀ event ∈ events, event.event = "jobs_created") :
    GroupPublished hash store pending (parents ++ events) (next.insertParentEvents events) := by
  obtain ⟨tables, same⟩ := before.marked.tables
  refine ⟨⟨⟨{ tables with jobEvents := next.db.jobEvents ++ events }, ?_⟩, before.marked.instances,
    before.marked.states, before.marked.causes, before.marked.latches⟩, before.jobs, before.keys, before.sequences,
    before.nodes, ?_, ?_, before.directories⟩
  · dsimp only [PublicationStore.insertParentEvents]
    rw [same]
    rfl
  · intro event listed
    rcases List.mem_append.mp listed with old | new
    · exact before.parental event old
    · exact parental event new
  · obtain ⟨added, grown, perm⟩ := before.events
    refine ⟨added ++ events, ?_, ?_⟩
    · dsimp only [PublicationStore.insertParentEvents]
      rw [grown, List.append_assoc]
    · rw [← List.append_assoc]
      exact perm.append_right events

theorem Publishable.left {more : List Pending} (ready : Publishable hash membership moveInput store (pending ++ more)) :
    Publishable hash membership moveInput store pending := by
  have inside : ∀ entry ∈ pending, entry ∈ pending ++ more := fun _ listed => List.mem_append_left _ listed
  have rows : pendingKeyRows hash (pending ++ more) = pendingKeyRows hash pending ++ pendingKeyRows hash more :=
    List.flatMap_append
  have keyed := ready.keyed
  have distinct := ready.distinct
  rw [rows, List.map_append, List.nodup_append] at keyed
  rw [List.map_append, List.nodup_append] at distinct
  exact ⟨fun entry listed => ready.jobs entry (inside entry listed),
    fun entry listed => ready.instances entry (inside entry listed), distinct.1,
    fun entry listed => ready.placed entry (inside entry listed),
    fun entry listed => ready.moved entry (inside entry listed),
    fun entry listed => ready.arrives entry (inside entry listed),
    fun row listed => ready.keys row (rows ▸ List.mem_append_left _ listed), keyed.1⟩

theorem Publishable.perm (ready : Publishable hash membership moveInput store pending) (same : pending.Perm others) :
    Publishable hash membership moveInput store others := by
  have inside : ∀ entry ∈ others, entry ∈ pending := fun _ listed => same.mem_iff.mpr listed
  have rows : (pendingKeyRows hash pending).Perm (pendingKeyRows hash others) := same.flatMap_right _
  exact ⟨fun entry listed => ready.jobs entry (inside entry listed),
    fun entry listed => ready.instances entry (inside entry listed), (same.map _).nodup_iff.mp ready.distinct,
    fun entry listed => ready.placed entry (inside entry listed),
    fun entry listed => ready.moved entry (inside entry listed),
    fun entry listed => ready.arrives entry (inside entry listed),
    fun row listed => ready.keys row (rows.mem_iff.mpr listed), (rows.map _).nodup_iff.mp ready.keyed⟩

theorem premises_of (sound : SoundPublications store) (fresh : FreshInstances store publishes)
    (planned : SeenPlanned store.db pending) (members : ∀ entry ∈ pending, entry.1 ∈ publishes) :
    PublicationPremises store pending := by
  refine ⟨fun entry listed => fresh.formed _ (members entry listed), fun entry listed => fresh.unnamed _ (members entry listed),
    fun entry listed => ?_, sound.latches⟩
  have least := next_job_id_pos sound.counters (pendingNode entry)
  have above := seen_number planned listed
  omega

theorem PublicationPremises.append {more : List Pending} (left : PublicationPremises store pending)
    (right : PublicationPremises store more) : PublicationPremises store (pending ++ more) := by
  have both {P : Pending → Prop} (old : ∀ entry ∈ pending, P entry) (new : ∀ entry ∈ more, P entry) :
      ∀ entry ∈ pending ++ more, P entry := by
    intro entry listed
    rcases List.mem_append.mp listed with earlier | later
    · exact old entry earlier
    · exact new entry later
  exact ⟨both left.formed right.formed, both left.unnamed right.unnamed, both left.numbered right.numbered, left.latches⟩

theorem member_premises (sound : SoundPublications store) (fresh : FreshInstances store (item :: items))
    (planned : SeenPlanned store.db (seen ++ pendingOf item plan)) (before : PublicationPremises store seen) :
    PublicationPremises store (seen ++ pendingOf item plan) := by
  refine before.append ⟨?_, ?_, ?_, sound.latches⟩
  · intro entry listed
    cases plan with
    | refused error => exact absurd listed (by simp [pendingOf])
    | existing number => exact absurd listed (by simp [pendingOf])
    | created number =>
        obtain rfl := List.mem_singleton.mp listed
        exact fresh.formed item List.mem_cons_self
  · intro entry listed
    cases plan with
    | refused error => exact absurd listed (by simp [pendingOf])
    | existing number => exact absurd listed (by simp [pendingOf])
    | created number =>
        obtain rfl := List.mem_singleton.mp listed
        exact fresh.unnamed item List.mem_cons_self
  · intro entry listed
    have least := next_job_id_pos sound.counters (pendingNode entry)
    have above := seen_number planned (List.mem_append_right _ listed)
    omega

theorem member_settles (sound : SoundPublications store) (fresh : FreshInstances store (item :: items))
    (reached : Reached hash membership moveInput store seen parents next)
    (settled : next.applyAutoJobPublishes hash membership moveInput [item] = .ok done) :
    ∃ plan, planItem hash store.db seen item = .ok plan ∧ done.1 = [planOutcome plan] ∧
      Reached hash membership moveInput store (seen ++ pendingOf item plan)
        (parents ++ parentEvents [(item, planOutcome plan)]) done.2 := by
  obtain ⟨plans, published, ordered, written, rfl⟩ := apply_publishes_iff.mp settled
  simp only [planInOrder, Lib.bind_ok, Lib.pure_ok, Except.ok.injEq] at ordered
  obtain ⟨plan, made, _, rfl, rfl⟩ := ordered
  rw [group_single made] at written
  rw [plan_in_turn sound reached] at made
  have planned := seen_planned_step reached.planned made
  have premises := member_premises sound fresh planned reached.premises
  obtain ⟨ready, group⟩ := publish_pending_ok premises reached.ready reached.published written
  exact ⟨plan, made, rfl, planned, premises, ready, parents_recorded group parental_events⟩

theorem member_possible (sound : SoundPublications store) (fresh : FreshInstances store (item :: items))
    (reached : Reached hash membership moveInput store seen parents next)
    (made : planItem hash store.db seen item = .ok plan)
    (ready : Publishable hash membership moveInput store (seen ++ pendingOf item plan)) :
    ∃ done, next.applyAutoJobPublishes hash membership moveInput [item] = .ok done := by
  have planned := seen_planned_step reached.planned made
  have premises := member_premises sound fresh planned reached.premises
  obtain ⟨published, written⟩ := publish_pending_possible premises reached.published ready
  rw [← plan_in_turn sound reached] at made
  have ordered : planInOrder hash next.db [] [item] = .ok [plan] := by
    simp only [planInOrder, made, bind, Except.bind, pure, Except.pure]
  rw [← group_single made] at written
  exact ⟨_, apply_publishes_iff.mpr ⟨[plan], published, ordered, written, rfl⟩⟩

end Members

section Runs

variable {done : List (Result (Bool × Nat)) × PublicationStore}

theorem FreshInstances.tail (fresh : FreshInstances store (item :: items)) : FreshInstances store items :=
  ⟨fun other listed => fresh.formed other (List.mem_cons_of_mem _ listed),
    fun other listed => fresh.unnamed other (List.mem_cons_of_mem _ listed)⟩

theorem in_turn_settles (sound : SoundPublications store) (fresh : FreshInstances store items)
    (reached : Reached hash membership moveInput store seen parents next)
    (settled : SettledInTurn hash membership moveInput next items) :
    ∃ plans final, planInOrder hash store.db seen items = .ok plans ∧
      next.createInTurn hash membership moveInput items = (plans.map planOutcome, final) ∧
      Reached hash membership moveInput store (seen ++ pendingInOrder items plans)
        (parents ++ parentEvents (items.zip (plans.map planOutcome))) final := by
  induction items generalizing seen parents next with
  | nil => exact ⟨[], next, rfl, rfl, by simpa [pendingInOrder, parentEvents] using reached⟩
  | cons item rest ih =>
      obtain ⟨done, here, later⟩ := settled
      obtain ⟨plan, made, answered, onward⟩ := member_settles sound fresh reached here
      obtain ⟨plans, final, ordered, published, held⟩ := ih fresh.tail onward later
      refine ⟨plan :: plans, final, ?_, ?_, ?_⟩
      · simp only [planInOrder, made, ordered, bind, Except.bind, pure, Except.pure]
      · simp only [PublicationStore.createInTurn, PublicationStore.createAutoIdJobs, here]
        rw [published, answered]
        rfl
      · rw [List.append_assoc, List.append_assoc] at held
        have events : parentEvents ((item :: rest).zip ((plan :: plans).map planOutcome)) =
            parentEvents [(item, planOutcome plan)] ++ parentEvents (rest.zip (plans.map planOutcome)) := by
          rw [parentEvents, parentEvents, parentEvents, ← List.filterMap_append]
          rfl
        rw [pending_in_order_cons, events]
        exact held

theorem in_turn_possible (sound : SoundPublications store) (fresh : FreshInstances store items)
    (reached : Reached hash membership moveInput store seen parents next)
    (planned : planInOrder hash store.db seen items = .ok plans)
    (ready : Publishable hash membership moveInput store (seen ++ pendingInOrder items plans)) :
    SettledInTurn hash membership moveInput next items := by
  induction items generalizing seen parents next plans with
  | nil => trivial
  | cons item rest ih =>
      simp only [planInOrder, Lib.bind_ok, Lib.pure_ok] at planned
      obtain ⟨plan, made, later, more, rfl⟩ := planned
      rw [pending_in_order_cons, ← List.append_assoc] at ready
      obtain ⟨done, here⟩ := member_possible sound fresh reached made ready.left
      obtain ⟨again, same, _, onward⟩ := member_settles sound fresh reached here
      obtain rfl := Except.ok.inj (made.symm.trans same)
      exact ⟨done, here, ih fresh.tail onward more ready⟩

theorem group_premises (sound : SoundPublications store) (fresh : FreshInstances store publishes)
    (ordered : planInOrder hash store.db [] publishes = .ok plans) :
    PublicationPremises store (groupPending store.db publishes plans) := by
  have same := (group_by_node ordered).perm
  have inOrder := premises_of sound fresh (seen_planned_run seen_planned_start ordered)
    fun entry listed => pending_item_listed listed
  exact ⟨fun entry listed => inOrder.formed entry (same.mem_iff.mp listed),
    fun entry listed => inOrder.unnamed entry (same.mem_iff.mp listed),
    fun entry listed => inOrder.numbered entry (same.mem_iff.mp listed), sound.latches⟩

theorem group_settles (sound : SoundPublications store) (fresh : FreshInstances store publishes)
    (settled : store.applyAutoJobPublishes hash membership moveInput publishes = .ok done) :
    ∃ plans, planInOrder hash store.db [] publishes = .ok plans ∧ done.1 = plans.map planOutcome ∧
      Publishable hash membership moveInput store (groupPending store.db publishes plans) ∧
      GroupPublished hash store (groupPending store.db publishes plans)
        (parentEvents (publishes.zip (plans.map planOutcome))) done.2 := by
  obtain ⟨plans, published, ordered, written, rfl⟩ := apply_publishes_iff.mp settled
  have start : Reached hash membership moveInput store [] [] store := reached_start sound
  obtain ⟨ready, group⟩ := publish_pending_ok (group_premises sound fresh ordered) start.ready start.published written
  exact ⟨plans, ordered, rfl, ready, parents_recorded group parental_events⟩

theorem group_possible (sound : SoundPublications store) (fresh : FreshInstances store publishes)
    (ordered : planInOrder hash store.db [] publishes = .ok plans)
    (ready : Publishable hash membership moveInput store (groupPending store.db publishes plans)) :
    ∃ done, store.applyAutoJobPublishes hash membership moveInput publishes = .ok done := by
  have start : Reached hash membership moveInput store [] [] store := reached_start sound
  obtain ⟨published, written⟩ := publish_pending_possible (group_premises sound fresh ordered) start.published ready
  exact ⟨_, apply_publishes_iff.mpr ⟨plans, published, ordered, written, rfl⟩⟩

end Runs

section Same

theorem find_same {κ ρ : Type} [DecidableEq κ] {key : ρ → κ} {left right : Table key}
    (same : ∀ k, left.find k = right.find k) : SameRows left right := by
  intro row
  constructor
  · intro member
    exact Table.find_mem (same (key row) ▸ Table.find_of_mem member)
  · intro member
    exact Table.find_mem ((same (key row)).symm ▸ Table.find_of_mem member)

theorem find_of_perm (same : pending.Perm others) (distinct : (pending.map pendingPlace).Nodup) (place : JobAddress) :
    (pending.find? fun entry => pendingPlace entry = place) = others.find? fun entry => pendingPlace entry = place := by
  have onward : (others.map pendingPlace).Nodup := (same.map _).nodup_iff.mp distinct
  cases found : pending.find? fun entry => pendingPlace entry = place with
  | some entry =>
      have here : pendingPlace entry = place := by simpa using List.find?_some found
      rw [find_place onward (same.mem_iff.mp (List.mem_of_find?_eq_some found)) here]
  | none =>
      rw [eq_comm, List.find?_eq_none]
      intro entry listed
      exact List.find?_eq_none.mp found entry (same.mem_iff.mpr listed)

theorem marked_by_perm (same : pending.Perm others) : markedBy store pending = markedBy store others := by
  funext key
  rw [Bool.eq_iff_iff, marked_by_iff, marked_by_iff]
  simp only [same.mem_iff]

theorem first_cause_same {row : MisalignmentCause} (same : SameByNode pending others)
    (first : FirstCause store pending entry row) : FirstCause store others entry row := by
  obtain ⟨found, rest⟩ := first
  refine ⟨?_, rest⟩
  rw [← List.head?_filter] at found ⊢
  exact (congrArg List.head? (same (pendingNode entry))).symm.trans found

theorem same_store (same : SameByNode pending others) (ready : Publishable hash membership moveInput store pending)
    (left : GroupPublished hash store pending parents next) (right : GroupPublished hash store others parents final) :
    SameStore next final := by
  have perm := same.perm
  have back : SameByNode others pending := fun node => (same node).symm
  constructor
  · intro row
    have rows : ((pendingJobs pending).map NewJob.row).Perm ((pendingJobs others).map NewJob.row) :=
      (perm.map _).map NewJob.row
    rw [left.jobs, right.jobs, List.mem_append, List.mem_append, rows.mem_iff]
  · apply find_same
    intro place
    rw [left.marked.instances, right.marked.instances, find_of_perm perm ready.distinct]
  · apply find_same
    intro node
    rw [left.nodes, right.nodes]
    simp only [(perm.map pendingNode).mem_iff]
  · apply find_same
    intro key
    rw [left.marked.states.found, right.marked.states.found, marked_by_perm perm]
  · intro row
    have rows : (pendingKeyRows hash pending).Perm (pendingKeyRows hash others) := perm.flatMap_right _
    rw [left.keys, right.keys, List.mem_append, List.mem_append, rows.mem_iff]
  · apply find_same
    intro node
    have places : ∀ entries : List Pending, ((entries.map pendingPlace).filter fun place => place.1 = node) =
        (seenAt entries node).map pendingPlace := by
      intro entries
      rw [List.filter_map]
      rfl
    rw [left.sequences, right.sequences, places, places, same node]
  · obtain ⟨added, grown, listed⟩ := left.events
    obtain ⟨alsoAdded, alsoGrown, alsoListed⟩ := right.events
    rw [grown, alsoGrown]
    apply List.Perm.append_left
    have own : (pendingEvents store.db pending).Perm (pendingEvents store.db others) := perm.flatMap_right _
    exact listed.trans ((own.append_right _).trans alsoListed.symm)
  · obtain ⟨tables, held⟩ := left.marked.tables
    obtain ⟨alsoTables, alsoHeld⟩ := right.marked.tables
    refine ⟨alsoTables, ?_⟩
    rw [alsoHeld, held]
    rfl
  · intro row
    rw [left.marked.causes, right.marked.causes]
    constructor
    · rintro (old | ⟨entry, first⟩)
      · exact .inl old
      · exact .inr ⟨entry, first_cause_same same first⟩
    · rintro (old | ⟨entry, first⟩)
      · exact .inl old
      · exact .inr ⟨entry, first_cause_same back first⟩
  · rw [left.directories, right.directories]
    exact (perm.map _).append_left _

end Same

section Soundness

theorem latches_published (sound : SoundPublications store) (ready : Publishable hash membership moveInput store pending)
    (before : GroupPublished hash store pending parents next) : LatchesRecorded next := by
  intro node seen known latch
  have held := before.marked
  have read := observed_of_receiver known
  rw [observed_next held none] at read
  obtain ⟨found, here, shape⟩ := Lib.map_ok.mp read
  cases found with
  | none => exact absurd shape (by simp)
  | some observed =>
      obtain rfl := Option.some.inj shape
      have base : receiverOf store node = some observed := receiver_of_observed here
      have kept : (∃ row ∈ currentCauses store.causes observed.state, row.receiverNode = node) →
          ∃ row ∈ currentCauses next.causes observed.state, row.receiverNode = node := by
        rintro ⟨row, current, named⟩
        obtain ⟨member, place⟩ := mem_current_causes.mp current
        exact ⟨row, mem_current_causes.mpr ⟨(held.causes row).mpr (.inl member), place⟩, named⟩
      have recorded : store.latches node = some observed.identity →
          ∃ row ∈ currentCauses next.causes observed.state, row.receiverNode = node :=
        fun same => kept (sound.latches node observed base same)
      have named : latched store node observed = true → store.latches node = some observed.identity := by
        intro latch
        simp only [latched, Bool.and_eq_true, beq_iff_eq] at latch
        exact latch.2
      rcases held.latches node with same | ⟨entry, listed, rfl, another, also, ⟨_, _, same⟩ | ⟨kind, _⟩⟩
      · exact recorded (same.symm.trans latch)
      · exact absurd (same.symm.trans latch) (by simp)
      · obtain rfl := Option.some.inj (base.symm.trans also)
        rcases kind with already | busy
        · exact recorded (named already)
        · cases opened : opens store (pendingNode entry) with
          | true =>
              obtain ⟨first, row, cause, place, key, generation⟩ := opened_cause listed opened base
              exact ⟨row, mem_current_causes.mpr ⟨(held.causes row).mpr (.inr ⟨first, cause⟩), key, generation⟩, place⟩
          | false =>
              obtain ⟨found, observing, accepted⟩ := ready.arrives entry listed
              obtain ⟨_, already | ⟨_, waits | present | absent⟩⟩ :=
                accepted observed ((receiver_of_observed observing).symm.trans base)
              · exact recorded (named already)
              · exact absurd (busy.symm.trans waits) (by simp)
              · exact kept present
              · cases already : latched store (pendingNode entry) observed with
                | true => exact recorded (named already)
                | false =>
                    have opens_ := opens_iff.mpr ⟨observed, base, already, busy, absent⟩
                    exact absurd (opened.symm.trans opens_) (by simp)

theorem published_sound (sound : SoundPublications store) (ready : Publishable hash membership moveInput store pending)
    (before : GroupPublished hash store pending parents next) : SoundPublications next := by
  constructor
  · intro row member
    rw [before.keys] at member
    rcases List.mem_append.mp member with old | new
    · exact kept_contains before (sound.keys row old)
    · obtain ⟨entry, listed, address⟩ := pending_key_row new
      rw [address]
      exact publication_contains before listed
  · intro row member
    have found := Table.find_of_mem member
    rw [before.sequences] at found
    cases last : ((pending.map pendingPlace).filter fun place => place.1 = row.nodeName).getLast? with
    | some place =>
        rw [last] at found
        have number : place.2 + 1 = row.nextJobId := congrArg JobSequence.nextJobId (Option.some.inj found)
        omega
    | none =>
        rw [last] at found
        exact sound.counters row (Table.find_mem found)
  · exact latches_published sound ready before

end Soundness

section Refinement

theorem grouped_publication_in_turn (hash : KeyHash) (membership : ReceiptProducer) (moveInput : NewJob → Result Unit)
    (store : PublicationStore) (publishes : List AutoJobPublish) (sound : SoundPublications store)
    (fresh : FreshInstances store publishes) :
    (SettledInTurn hash membership moveInput store publishes →
      (store.createAutoIdJobs hash membership moveInput publishes).1 =
          (store.createInTurn hash membership moveInput publishes).1 ∧
        SameStore (store.createAutoIdJobs hash membership moveInput publishes).2
          (store.createInTurn hash membership moveInput publishes).2) ∧
      (¬ SettledInTurn hash membership moveInput store publishes →
        ∃ error, store.createAutoIdJobs hash membership moveInput publishes =
          (publishes.map fun _ => .error error, store)) ∧
      SoundPublications (store.createAutoIdJobs hash membership moveInput publishes).2 := by
  have start : Reached hash membership moveInput store [] [] store := reached_start sound
  cases grouped : store.applyAutoJobPublishes hash membership moveInput publishes with
  | ok done =>
      obtain ⟨plans, ordered, answers, ready, group⟩ := group_settles sound fresh grouped
      have same := group_by_node ordered
      have settled : SettledInTurn hash membership moveInput store publishes :=
        in_turn_possible sound fresh start ordered (ready.perm same.perm)
      simp only [PublicationStore.createAutoIdJobs, grouped]
      refine ⟨fun _ => ?_, fun unsettled => absurd settled unsettled, published_sound sound ready group⟩
      obtain ⟨again, final, ordered', published, reached⟩ := in_turn_settles sound fresh start settled
      obtain rfl := Except.ok.inj (ordered.symm.trans ordered')
      rw [published]
      exact ⟨answers, same_store same ready group reached.published⟩
  | error error =>
      have unsettled : ¬ SettledInTurn hash membership moveInput store publishes := by
        intro settled
        obtain ⟨plans, final, ordered, _, reached⟩ := in_turn_settles sound fresh start settled
        have back := (group_by_node ordered).perm.symm
        obtain ⟨done, returned⟩ := group_possible sound fresh ordered (reached.ready.perm back)
        exact absurd (grouped.symm.trans returned) (by simp)
      simp only [PublicationStore.createAutoIdJobs, grouped]
      exact ⟨fun settled => absurd settled unsettled, fun _ => ⟨error, rfl⟩, sound⟩

end Refinement

section Agreement

variable (hash : KeyHash) (membership : ReceiptProducer) (moveInput : NewJob → Result Unit)

def AgreesInTurn (store : PublicationStore) (publishes : List AutoJobPublish) : Prop :=
  (store.createAutoIdJobs hash membership moveInput publishes).1 =
      (store.createInTurn hash membership moveInput publishes).1 ∧
    SameStore (store.createAutoIdJobs hash membership moveInput publishes).2
      (store.createInTurn hash membership moveInput publishes).2

def EachPublishable (store : PublicationStore) (publishes : List AutoJobPublish) : Prop :=
  ∃ plans, planInOrder hash store.db [] publishes = .ok plans ∧
    Publishable hash membership moveInput store (pendingInOrder publishes plans)

def RefusedAlike (store : PublicationStore) (publishes : List AutoJobPublish) : Prop :=
  ∃ error, ∀ item ∈ publishes, store.createAutoIdJobs hash membership moveInput [item] = ([.error error], store)

variable {hash membership moveInput} {store next : PublicationStore} {publishes items : List AutoJobPublish}
  {item : AutoJobPublish} {error : Error}

theorem settled_iff (sound : SoundPublications store) (fresh : FreshInstances store publishes) :
    SettledInTurn hash membership moveInput store publishes ↔ EachPublishable hash membership moveInput store publishes := by
  have start : Reached hash membership moveInput store [] [] store := reached_start sound
  constructor
  · intro settled
    obtain ⟨plans, _, ordered, _, reached⟩ := in_turn_settles sound fresh start settled
    exact ⟨plans, ordered, reached.ready⟩
  · rintro ⟨plans, ordered, ready⟩
    exact in_turn_possible sound fresh start ordered ready

theorem same_store_refl (store : PublicationStore) : SameStore store store :=
  ⟨fun _ => .rfl, fun _ => .rfl, fun _ => .rfl, fun _ => .rfl, fun _ => .rfl, fun _ => .rfl, .refl _,
    ⟨⟨store.db.jobs, store.db.jobInstances, store.db.jobEvents, store.db.nodes, store.db.componentStates,
      store.db.idempotency, store.db.jobSequences⟩, rfl⟩, fun _ => .rfl, .refl _⟩

theorem agrees_alone (few : publishes.length ≤ 1) (sound : SoundPublications store)
    (fresh : FreshInstances store publishes) : AgreesInTurn hash membership moveInput store publishes := by
  cases publishes with
  | nil => exact (grouped_publication_in_turn hash membership moveInput store [] sound fresh).1 trivial
  | cons item rest =>
      obtain rfl : rest = [] := List.length_eq_zero_iff.mp (by simpa using few)
      exact ⟨(List.append_nil _).symm, same_store_refl _⟩

theorem insert_no_events (store : PublicationStore) : store.insertParentEvents [] = store := by
  have events : store.db.jobEvents ++ [] = store.db.jobEvents := List.append_nil _
  unfold PublicationStore.insertParentEvents
  rw [events]

theorem called_alone (store : PublicationStore) (item : AutoJobPublish) :
    ∃ answer next, store.createAutoIdJobs hash membership moveInput [item] = ([answer], next) ∧
      ∀ error, answer = .error error → next = store := by
  unfold PublicationStore.createAutoIdJobs
  cases called : store.applyAutoJobPublishes hash membership moveInput [item] with
  | error error => exact ⟨_, _, rfl, fun _ _ => rfl⟩
  | ok done =>
      obtain ⟨plans, published, ordered, written, rfl⟩ := apply_publishes_iff.mp called
      simp only [planInOrder, Lib.bind_ok, Lib.pure_ok, Except.ok.injEq] at ordered
      obtain ⟨plan, made, _, rfl, rfl⟩ := ordered
      refine ⟨planOutcome plan, _, rfl, ?_⟩
      intro error refused
      rw [group_single made] at written
      cases plan with
      | refused raised =>
          have unchanged : published = store := Except.ok.inj (written.symm.trans publish_pending_nil)
          have silent : parentEvents ([item].zip ([PublishPlan.refused raised].map planOutcome)) = [] := by
            simp [parentEvents, planOutcome]
          rw [unchanged, silent, insert_no_events]
      | existing number => exact absurd refused (by simp [planOutcome])
      | created number => exact absurd refused (by simp [planOutcome])

theorem refused_in_turn
    (refused : (store.createInTurn hash membership moveInput items).1 = items.map fun _ => .error error) :
    ∀ item ∈ items, store.createAutoIdJobs hash membership moveInput [item] = ([.error error], store) := by
  induction items with
  | nil => simp
  | cons first rest ih =>
      obtain ⟨answer, next, called, unchanged⟩ :=
        @called_alone hash membership moveInput store first
      simp only [PublicationStore.createInTurn, called, List.map_cons, List.singleton_append, List.cons.injEq] at refused
      obtain ⟨rfl, later⟩ := refused
      obtain rfl := unchanged error rfl
      intro item listed
      rcases List.mem_cons.mp listed with rfl | more
      · exact called
      · exact ih later item more

theorem grouped_publications_agree (hash : KeyHash) (membership : ReceiptProducer) (moveInput : NewJob → Result Unit)
    (store : PublicationStore) (publishes : List AutoJobPublish) (sound : SoundPublications store)
    (fresh : FreshInstances store publishes) :
    (publishes.length ≤ 1 ∨ EachPublishable hash membership moveInput store publishes →
      AgreesInTurn hash membership moveInput store publishes) ∧
    (AgreesInTurn hash membership moveInput store publishes →
      publishes.length ≤ 1 ∨ EachPublishable hash membership moveInput store publishes ∨
        RefusedAlike hash membership moveInput store publishes) := by
  obtain ⟨together, apart, _⟩ := grouped_publication_in_turn hash membership moveInput store publishes sound fresh
  constructor
  · rintro (few | each)
    · exact agrees_alone few sound fresh
    · exact together ((settled_iff sound fresh).mpr each)
  · intro agrees
    by_cases settled : SettledInTurn hash membership moveInput store publishes
    · exact .inr (.inl ((settled_iff sound fresh).mp settled))
    · obtain ⟨error, grouped⟩ := apart settled
      have answers := agrees.1
      rw [grouped] at answers
      exact .inr (.inr ⟨error, refused_in_turn answers.symm⟩)

end Agreement

section Example

def plainPublish (node instanceId : String) : AutoJobPublish :=
  ⟨⟨1, node, .null, none, none, instanceId⟩, none, none, none, false, 0, none⟩

def publishPair : List AutoJobPublish :=
  [plainPublish "a" "00000000000000000000000000000001", plainPublish "b" "00000000000000000000000000000002"]

def emptyStore (directories : List (JobAddress × NewJob)) : PublicationStore :=
  ⟨Database.empty, .empty, fun _ => none, directories⟩

theorem empty_store_sound (directories : List (JobAddress × NewJob)) : SoundPublications (emptyStore directories) := by
  constructor
  · intro row listed
    exact absurd listed (by simp [emptyStore, Database.empty, Table.empty])
  · intro row listed
    exact absurd listed (by simp [emptyStore, Database.empty, Table.empty])
  · intro node observed _ latch
    exact absurd latch (by simp [emptyStore])

theorem publish_pair_fresh (directories : List (JobAddress × NewJob)) :
    FreshInstances (emptyStore directories) publishPair := by
  constructor
  · decide
  · intro item _ row listed
    exact absurd listed (by simp [emptyStore, Table.empty])

def noMembership : ReceiptProducer := fun _ _ _ _ => .ok ()
def movable : NewJob → Result Unit := fun _ => .ok ()

-- Two nodes without a graph: both members get the first number of their node.
theorem grouped_publications_agree_two_nodes :
    ((emptyStore []).createAutoIdJobs id noMembership movable publishPair).1 =
      ((emptyStore []).createInTurn id noMembership movable publishPair).1 := by
  have planned : planInOrder id (emptyStore []).db [] publishPair = .ok [.created 1, .created 1] := rfl
  have ready : Publishable id noMembership movable (emptyStore [])
      (pendingInOrder publishPair [.created 1, .created 1]) := by
    constructor
    · decide
    · decide
    · decide
    · decide
    · exact fun _ _ => rfl
    · intro entry listed
      have pair : entry = (plainPublish "a" "00000000000000000000000000000001", 1) ∨
          entry = (plainPublish "b" "00000000000000000000000000000002", 1) := by
        simpa [publishPair, pendingInOrder, pendingOf] using listed
      rcases pair with rfl | rfl
      · exact ⟨none, rfl, fun _ found => absurd found (by simp)⟩
      · exact ⟨none, rfl, fun _ found => absurd found (by simp)⟩
    · decide
    · decide
  have agrees := (grouped_publications_agree id noMembership movable (emptyStore []) publishPair
    (empty_store_sound []) (publish_pair_fresh [])).1 (.inr ⟨_, planned, ready⟩)
  exact agrees.1

def leftoverStore : PublicationStore :=
  emptyStore [(("b", 1), (plainPublish "b" "00000000000000000000000000000003").provisional)]

theorem taken_directory_refuses_group :
    SoundPublications leftoverStore ∧ FreshInstances leftoverStore publishPair ∧
      leftoverStore.createAutoIdJobs id noMembership movable publishPair =
        ([.error (.fileExists "b/1"), .error (.fileExists "b/1")], leftoverStore) ∧
      (leftoverStore.createInTurn id noMembership movable publishPair).1 =
        [.ok (true, 1), .error (.fileExists "b/1")] ∧
      ¬ AgreesInTurn id noMembership movable leftoverStore publishPair := by
  have grouped : leftoverStore.createAutoIdJobs id noMembership movable publishPair =
      ([.error (.fileExists "b/1"), .error (.fileExists "b/1")], leftoverStore) := rfl
  have inTurn : (leftoverStore.createInTurn id noMembership movable publishPair).1 =
      [.ok (true, 1), .error (.fileExists "b/1")] := rfl
  refine ⟨empty_store_sound _, publish_pair_fresh _, grouped, inTurn, ?_⟩
  intro agrees
  have answers := agrees.1
  rw [grouped, inTurn] at answers
  exact absurd answers (by simp)

end Example

end MicroWorkflow
