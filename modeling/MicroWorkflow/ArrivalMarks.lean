import MicroWorkflow.JobNumbering
import MicroWorkflow.ObservedReceivers

set_option autoImplicit false

namespace MicroWorkflow

open Lib (require refuse orRaise each Table)

abbrev Pending := AutoJobPublish × Nat

def pendingNode (entry : Pending) : String := entry.1.provisional.nodeName

def pendingInstance (entry : Pending) : JobInstance :=
  (entry.1.numbered entry.2).instance entry.1.producerExecutionId

def receiverOf (store : PublicationStore) (node : String) : Option ObservedReceiver :=
  match observeJobReceiver store.db node none with
  | .ok found => found
  | .error _ => none

def opens (store : PublicationStore) (node : String) : Bool :=
  (receiverOf store node).any fun observed =>
    !latched store node observed && !idle observed.state
      && (store.causes.find (node, observed.state.alignmentGeneration)).isNone

def markedBy (store : PublicationStore) (entries : List Pending) (key : Component) : Bool :=
  entries.any fun entry => opens store (pendingNode entry)
    && (receiverOf store (pendingNode entry)).any fun observed => observed.state.members == key

variable (membership : ReceiptProducer)

def Readable (store : PublicationStore) (state : ComponentStateSnapshot) : Prop :=
  ∃ causes, readComponentArrivalCauses membership store.db store.causes state = .ok causes

def Arrives (store : PublicationStore) (entry : Pending) : Prop :=
  ∃ found, observeJobReceiver store.db (pendingNode entry) entry.1.expectedShape = .ok found ∧
    ∀ observed, found = some observed → requireCreator store.db entry.1.producerExecutionId = .ok () ∧
      (latched store (pendingNode entry) observed = true ∨ Readable membership store observed.state ∧
        (idle observed.state = true ∨ (∃ row ∈ currentCauses store.causes observed.state,
          row.receiverNode = pendingNode entry) ∨
          store.causes.find (pendingNode entry, observed.state.alignmentGeneration) = none))

def LatchesRecorded (store : PublicationStore) : Prop :=
  ∀ node observed, receiverOf store node = some observed → store.latches node = some observed.identity →
    ∃ row ∈ currentCauses store.causes observed.state, row.receiverNode = node

variable {membership} {store next : PublicationStore} {entry : Pending} {entries earlier : List Pending}
  {db : Database} {tables : PublishedTables} {state : ComponentStateSnapshot} {row : MisalignmentCause}

section Causes

theorem decode_cause_kept
    (agree : ∀ jobId identity, namedJob row = some (jobId, identity) →
      creatorAgrees (db.withTables tables) row jobId identity = creatorAgrees db row jobId identity) :
    decodeComponentArrivalCause membership (db.withTables tables) state row =
      decodeComponentArrivalCause membership db state row := by
  have job : decodeComponentJobCause (db.withTables tables) row = decodeComponentJobCause db row := by
    unfold decodeComponentJobCause
    cases named : namedJob row with
    | none => rfl
    | some pair =>
        obtain ⟨jobId, identity⟩ := pair
        have same := agree jobId identity named
        simp only [orRaise, bind, Except.bind]
        rw [same]
        rfl
  unfold decodeComponentArrivalCause
  rw [job]
  rfl

theorem mem_current_causes {causes : CauseTable} :
    row ∈ currentCauses causes state ↔ row ∈ causes.rows ∧ row.componentKey = encodeComponentKey state.members ∧
      row.alignmentGeneration = state.alignmentGeneration := by
  unfold currentCauses
  rw [(List.perm_insertionSort _ _).mem_iff, Table.mem_select]
  simp

theorem current_causes_misalign {causes : CauseTable} {marked : Component → Bool} :
    currentCauses causes (state.misalign marked) = currentCauses causes state := rfl

theorem readable_iff {causes : CauseTable} :
    (∃ rows, readComponentArrivalCauses membership db causes state = .ok rows) ↔
      (∀ row ∈ currentCauses causes state, decodeComponentArrivalCause membership db state row = .ok ()) ∧
        ((∃ row, row ∈ currentCauses causes state) ↔ state.misaligned = true) := by
  have listed : (!(currentCauses causes state).isEmpty) = state.misaligned ↔
      ((∃ row, row ∈ currentCauses causes state) ↔ state.misaligned = true) := by
    rw [← List.isEmpty_eq_false_iff_exists_mem]
    cases (currentCauses causes state).isEmpty <;> cases state.misaligned <;> simp
  rw [← listed]
  unfold readComponentArrivalCauses
  simp only [Lib.bind_ok, Lib.pure_ok, Lib.each_ok, Lib.require_ok, beq_iff_eq]
  constructor
  · rintro ⟨_, _, decoded, _, agree, _⟩
    exact ⟨decoded, agree⟩
  · rintro ⟨decoded, agree⟩
    exact ⟨_, (), decoded, (), agree, rfl⟩

theorem read_causes_rows {causes : CauseTable} {rows : List MisalignmentCause}
    (read : readComponentArrivalCauses membership db causes state = .ok rows) : rows = currentCauses causes state := by
  unfold readComponentArrivalCauses at read
  simp only [Lib.bind_ok, Lib.pure_ok] at read
  obtain ⟨_, _, _, _, rfl⟩ := read
  rfl

theorem recorded_cause_decodes {receiver : String} {observed : ObservedReceiver} {current : JobInstance}
    (read : observeJobReceiver db receiver none = .ok (some observed)) (numbered : 1 ≤ current.jobId)
    (formed : validInstance current.instanceId = true)
    (created : requireCreator db current.createdByExecutionId = .ok ())
    (inserted : tables.jobInstances.find (receiver, current.jobId) = some current) :
    decodeComponentArrivalCause membership (db.withTables tables) observed.state
      (jobCause receiver observed current) = .ok () := by
  obtain ⟨row, shape, known⟩ := observed_row read
  have shaped : (db.withTables tables).graphShapes.find observed.shapeId = some shape := known.shapeRow
  have snapshot : componentSnapshotFromShape shape.shapeJson = .ok shape.shapeJson.hoefleinComponents := by
    unfold componentSnapshotFromShape
    rw [if_pos known.formed]
  have named : namedJob (jobCause receiver observed current) = some (current.jobId, current.instanceId) := by
    simp [namedJob, jobCause, numbered, formed]
  have agrees : creatorAgrees (db.withTables tables) (jobCause receiver observed current) current.jobId
      current.instanceId = true := by
    have here : (db.withTables tables).jobInstances.find (receiver, current.jobId) = some current := inserted
    simp [creatorAgrees, jobCause, here]
  have creator : requireCauseCreator (db.withTables tables) (jobCause receiver observed current) = .ok () := by
    cases producer : current.createdByExecutionId with
    | none => simp [requireCauseCreator, jobCause, producer]
    | some execution =>
        rw [producer] at created
        simp only [requireCreator, Lib.bind_ok, Lib.require_ok] at created
        obtain ⟨owner, owned, present⟩ := created
        have same : readExecutionOwner (db.withTables tables) execution = .ok owner := owned
        simp only [requireCauseCreator, jobCause, producer, Lib.bind_ok, Lib.require_ok]
        exact ⟨owner, same, present⟩
  have job : decodeComponentJobCause (db.withTables tables) (jobCause receiver observed current) = .ok () := by
    simp only [decodeComponentJobCause, named, orRaise, Lib.bind_ok, Lib.require_ok]
    exact ⟨_, rfl, (), creator, agrees⟩
  unfold decodeComponentArrivalCause
  simp only [Lib.bind_ok, Lib.require_ok, Lib.orRaise_ok]
  refine ⟨(), ?_, shape, shaped, _, snapshot, (), by simpa using known.producing, ?_⟩
  · simp [jobCause, known.inside]
  · simp only [jobCause, Option.isSome_none, Bool.false_eq_true, if_false, Lib.bind_ok, Lib.require_ok,
      Option.isSome_some, Option.isNone_none, Bool.and_self, true_and, beq_self_eq_true, if_true]
    exact ⟨(), job⟩

end Causes

section Marked

def FirstCause (store : PublicationStore) (entries : List Pending) (entry : Pending) (row : MisalignmentCause) : Prop :=
  entries.find? (fun other => pendingNode other = pendingNode entry) = some entry ∧
    opens store (pendingNode entry) = true ∧
    ∃ observed, receiverOf store (pendingNode entry) = some observed ∧
      row = jobCause (pendingNode entry) observed (pendingInstance entry)

def LatchAfter (store : PublicationStore) (entries : List Pending) (node : String) (latch : Option ArrivalIdentity) :
    Prop :=
  latch = store.latches node ∨ ∃ entry ∈ entries, pendingNode entry = node ∧
    ∃ observed, receiverOf store node = some observed ∧
      (idle observed.state = true ∧ latched store node observed = false ∧ latch = none ∨
        (latched store node observed = true ∨ idle observed.state = false) ∧ latch = some observed.identity)

structure ArrivalsMarked (store : PublicationStore) (inserted entries : List Pending) (next : PublicationStore) :
    Prop where
  tables : ∃ tables, next.db = store.db.withTables tables
  instances : ∀ place, next.db.jobInstances.find place =
    ((inserted.find? fun entry => pendingPlace entry = place).map pendingInstance).or (store.db.jobInstances.find place)
  states : StatesMisaligned (markedBy store entries) store.db.componentStates next.db.componentStates
  causes : ∀ row, row ∈ next.causes.rows ↔ row ∈ store.causes.rows ∨ ∃ entry, FirstCause store entries entry row
  latches : ∀ node, LatchAfter store entries node (next.latches node)

structure InsertedFresh (store : PublicationStore) (inserted : List Pending) : Prop where
  fresh : ∀ entry ∈ inserted, store.db.jobInstances.find (pendingPlace entry) = none
  distinct : (inserted.map pendingPlace).Nodup
  formed : ∀ entry ∈ inserted, validInstance entry.1.provisional.instanceId = true
  unnamed : ∀ entry ∈ inserted, ∀ row ∈ store.causes.rows,
    row.receiverJobInstanceId ≠ some entry.1.provisional.instanceId
  numbered : ∀ entry ∈ inserted, 1 ≤ entry.2
  latches : LatchesRecorded store

variable {inserted : List Pending} {node : String} {observed : ObservedReceiver}

theorem receiver_of_observed {expectedShape : Option Shape} {found : Option ObservedReceiver}
    (read : observeJobReceiver store.db node expectedShape = .ok found) : receiverOf store node = found := by
  unfold receiverOf
  rw [observed_unshaped read]

theorem observed_of_receiver (known : receiverOf store node = some observed) :
    observeJobReceiver store.db node none = .ok (some observed) := by
  unfold receiverOf at known
  split at known
  · rename_i found read
    rw [read, known]
  · exact absurd known (by simp)

theorem receiver_alike {other : String} {another : ObservedReceiver} (known : receiverOf store node = some observed)
    (also : receiverOf store other = some another) (same : another.state.members = observed.state.members) :
    another = observed :=
  observed_alike (observed_of_receiver known) (observed_of_receiver also) same

theorem opens_iff : opens store node = true ↔ ∃ observed, receiverOf store node = some observed ∧
    latched store node observed = false ∧ idle observed.state = false ∧
      store.causes.find (node, observed.state.alignmentGeneration) = none := by
  unfold opens
  rw [Option.any_eq_true]
  simp only [Bool.and_eq_true, Bool.not_eq_true', Option.isNone_iff_eq_none, and_assoc]

theorem marked_by_iff {key : Component} : markedBy store entries key = true ↔ ∃ entry ∈ entries,
    opens store (pendingNode entry) = true ∧
      ∃ observed, receiverOf store (pendingNode entry) = some observed ∧ observed.state.members = key := by
  unfold markedBy
  rw [List.any_eq_true]
  simp only [Bool.and_eq_true, Option.any_eq_true, beq_iff_eq]

theorem arrives_readable (arrived : Arrives membership store entry) (known : receiverOf store (pendingNode entry) = some observed)
    (unlatched : latched store (pendingNode entry) observed = false) : Readable membership store observed.state := by
  obtain ⟨found, read, accepted⟩ := arrived
  have same := receiver_of_observed read
  rw [known] at same
  obtain ⟨_, latch | readable⟩ := accepted observed same.symm
  · exact absurd (unlatched.symm.trans latch) (by simp)
  · exact readable.1

theorem marked_readable (arrived : ∀ entry ∈ entries, Arrives membership store entry)
    (known : receiverOf store node = some observed)
    (marked : markedBy store entries observed.state.members = true) : Readable membership store observed.state := by
  obtain ⟨entry, member, opened, another, also, same⟩ := marked_by_iff.mp marked
  obtain ⟨found, there, unlatched, _⟩ := opens_iff.mp opened
  obtain rfl := Option.some.inj (there.symm.trans also)
  obtain rfl := receiver_alike known also same
  exact arrives_readable (arrived entry member) also unlatched

theorem find_inserted (fresh : InsertedFresh store inserted) (member : entry ∈ inserted) :
    (inserted.find? fun other => pendingPlace other = pendingPlace entry) = some entry := by
  have distinct := fresh.distinct
  clear fresh
  induction inserted with
  | nil => exact absurd member List.not_mem_nil
  | cons first rest ih =>
      rw [List.map_cons, List.nodup_cons] at distinct
      rcases List.mem_cons.mp member with rfl | later
      · simp
      · have apart : pendingPlace first ≠ pendingPlace entry :=
          fun same => distinct.1 (same ▸ List.mem_map_of_mem later)
        rw [List.find?_cons_of_neg (by simpa using apart)]
        exact ih later distinct.2

theorem inserted_instance (fresh : InsertedFresh store inserted) (held : ArrivalsMarked store inserted entries next)
    (member : entry ∈ inserted) : next.db.jobInstances.find (pendingPlace entry) = some (pendingInstance entry) := by
  rw [held.instances, find_inserted fresh member]
  rfl

theorem old_cause_decodes (fresh : InsertedFresh store inserted) (held : ArrivalsMarked store inserted entries next)
    (member : row ∈ store.causes.rows) :
    decodeComponentArrivalCause membership next.db state row =
      decodeComponentArrivalCause membership store.db state row := by
  obtain ⟨tables, same⟩ := held.tables
  rw [same]
  apply decode_cause_kept
  intro jobId identity named
  rw [← same]
  unfold creatorAgrees
  rw [held.instances]
  cases found : inserted.find? fun entry => pendingPlace entry = (row.receiverNode, jobId) with
  | none => rfl
  | some entry =>
      have listed := List.mem_of_find?_eq_some found
      have place : pendingPlace entry = (row.receiverNode, jobId) := by simpa using List.find?_some found
      have absent := fresh.fresh entry listed
      rw [place] at absent
      have other : entry.1.provisional.instanceId ≠ identity := by
        intro equal
        apply fresh.unnamed entry listed row member
        unfold namedJob at named
        split at named
        · rename_i identified
          split at named
          · rw [identified, equal]
            exact congrArg some (Prod.mk.inj (Option.some.inj named)).2
          · exact absurd named (by simp)
        · exact absurd named (by simp)
      have apart : ((pendingInstance entry).instanceId != identity) = true := bne_iff_ne.mpr other
      simp only [Option.map_some, Option.some_or, absent, apart, Bool.true_or]

theorem new_cause_decodes (fresh : InsertedFresh store inserted) (held : ArrivalsMarked store inserted entries next)
    (member : entry ∈ inserted) (arrived : Arrives membership store entry)
    (known : receiverOf store (pendingNode entry) = some observed) :
    decodeComponentArrivalCause membership next.db observed.state
      (jobCause (pendingNode entry) observed (pendingInstance entry)) = .ok () := by
  have here := inserted_instance fresh held member
  obtain ⟨tables, same⟩ := held.tables
  obtain ⟨found, read, accepted⟩ := arrived
  have created := (accepted observed ((receiver_of_observed read).symm.trans known)).1
  rw [same] at here ⊢
  exact recorded_cause_decodes (observed_of_receiver known) (fresh.numbered entry member) (fresh.formed entry member)
    created here

theorem first_cause_member (first : FirstCause store entries entry row) : entry ∈ entries :=
  List.mem_of_find?_eq_some first.1

theorem opened_cause (member : entry ∈ entries) (opened : opens store (pendingNode entry) = true)
    (known : receiverOf store (pendingNode entry) = some observed) :
    ∃ first row, FirstCause store entries first row ∧ row.receiverNode = pendingNode entry ∧
      row.componentKey = encodeComponentKey observed.state.members ∧
      row.alignmentGeneration = observed.state.alignmentGeneration := by
  cases found : entries.find? fun other => pendingNode other = pendingNode entry with
  | none => exact absurd (List.find?_eq_none.mp found entry member) (by simp)
  | some first =>
      have place : pendingNode first = pendingNode entry := by simpa using List.find?_some found
      refine ⟨first, jobCause (pendingNode first) observed (pendingInstance first), ⟨?_, ?_, observed, ?_, rfl⟩, ?_, rfl, rfl⟩
      · rw [place]
        exact found
      · rw [place]
        exact opened
      · rw [place]
        exact known
      · exact place

theorem cause_marks (first : FirstCause store entries entry row) (known : receiverOf store node = some observed)
    (current : row.componentKey = encodeComponentKey observed.state.members) :
    markedBy store entries observed.state.members = true ∧
      receiverOf store (pendingNode entry) = some observed := by
  obtain ⟨_, opened, another, also, rfl⟩ := first
  obtain ⟨_, _, keyed⟩ := observed_row (observed_of_receiver known)
  obtain ⟨_, _, keyedAlso⟩ := observed_row (observed_of_receiver also)
  have same : another.state.members = observed.state.members :=
    keyedAlso.canonical.symm.trans (current.trans keyed.canonical)
  obtain rfl := receiver_alike known also same
  exact ⟨marked_by_iff.mpr ⟨entry, first_cause_member ⟨by assumption, opened, another, also, rfl⟩,
    opened, another, also, rfl⟩, also⟩

theorem unmarked_causes (held : ArrivalsMarked store inserted entries next) (known : receiverOf store node = some observed)
    (unmarked : markedBy store entries observed.state.members = false) :
    row ∈ currentCauses next.causes observed.state ↔ row ∈ currentCauses store.causes observed.state := by
  rw [mem_current_causes, mem_current_causes, held.causes]
  constructor
  · rintro ⟨old | ⟨entry, first⟩, named⟩
    · exact ⟨old, named⟩
    · have marked := (cause_marks first known named.1).1
      exact absurd (unmarked.symm.trans marked) (by simp)
  · rintro ⟨old, named⟩
    exact ⟨.inl old, named⟩

theorem misaligned_after (known : receiverOf store node = some observed) :
    (observed.state.misalign (markedBy store entries)).misaligned =
      (observed.state.misaligned || markedBy store entries observed.state.members) := by
  obtain ⟨_, _, keyed⟩ := observed_row (observed_of_receiver known)
  simp only [ComponentStateSnapshot.misalign, keyed.canonical]

theorem readable_kept (fresh : InsertedFresh store inserted) (held : ArrivalsMarked store inserted entries next)
    (inside : ∀ entry ∈ entries, entry ∈ inserted) (arrived : ∀ entry ∈ entries, Arrives membership store entry)
    (known : receiverOf store node = some observed) :
    (∃ causes, readComponentArrivalCauses membership next.db next.causes
      (observed.state.misalign (markedBy store entries)) = .ok causes) ↔ Readable membership store observed.state := by
  have misaligned : (observed.state.misalign (markedBy store entries)).misaligned = _ := misaligned_after known
  constructor
  · intro readable
    obtain ⟨decoded, agree⟩ := readable_iff.mp readable
    cases marked : markedBy store entries observed.state.members with
    | true => exact marked_readable arrived known marked
    | false =>
        have same : ∀ row, row ∈ currentCauses next.causes observed.state ↔ row ∈ currentCauses store.causes observed.state :=
          fun _ => unmarked_causes held known marked
        rw [misaligned, marked, Bool.or_false, current_causes_misalign] at agree
        refine readable_iff.mpr ⟨?_, ?_⟩
        · intro row current
          rw [← old_cause_decodes fresh held (mem_current_causes.mp current).1]
          exact decoded row ((same row).mpr current)
        · simpa only [same] using agree
  · intro readable
    obtain ⟨decoded, agree⟩ := readable_iff.mp readable
    refine readable_iff.mpr ⟨?_, ?_⟩
    · intro row current
      obtain ⟨present, named⟩ := mem_current_causes.mp current
      rcases (held.causes row).mp present with old | ⟨entry, first⟩
      · have here := decoded row (mem_current_causes.mpr ⟨old, named⟩)
        rw [← old_cause_decodes fresh held old] at here
        exact here
      · have also := (cause_marks first known named.1).2
        have listed := first_cause_member first
        obtain ⟨_, _, another, there, rfl⟩ := first
        obtain rfl := Option.some.inj (there.symm.trans also)
        exact new_cause_decodes fresh held (inside entry listed) (arrived entry listed) also
    · cases marked : markedBy store entries observed.state.members with
      | true =>
          obtain ⟨entry, listed, opened, another, also, same⟩ := marked_by_iff.mp marked
          obtain rfl := receiver_alike known also same
          obtain ⟨first, row, cause, _, named⟩ := opened_cause listed opened also
          have present : row ∈ currentCauses next.causes another.state :=
            mem_current_causes.mpr ⟨(held.causes row).mpr (.inr ⟨first, cause⟩), named⟩
          exact ⟨fun _ => by rw [misaligned, marked, Bool.or_true], fun _ => ⟨row, present⟩⟩
      | false =>
          have same : ∀ row, row ∈ currentCauses next.causes observed.state ↔
              row ∈ currentCauses store.causes observed.state := fun _ => unmarked_causes held known marked
          rw [misaligned, marked, Bool.or_false, current_causes_misalign]
          simpa only [same] using agree

end Marked

section Steps

variable {inserted : List Pending} {node : String} {observed : ObservedReceiver} {after : PublicationStore}
  {identity : Option ArrivalIdentity}

theorem latch_kept (held : ArrivalsMarked store inserted entries next) (known : receiverOf store node = some observed)
    (latch : latched store node observed = true) :
    latched next node (observed.misalign (markedBy store entries)) = true := by
  have misaligned : (observed.state.misalign (markedBy store entries)).misaligned = _ := misaligned_after known
  simp only [latched, Bool.and_eq_true, beq_iff_eq] at latch
  simp only [latched, ObservedReceiver.misalign, Bool.and_eq_true, beq_iff_eq, misaligned, latch.1, Bool.true_or, true_and]
  rcases held.latches node with same | ⟨_, _, _, another, also, ⟨_, unlatched, _⟩ | ⟨_, some_⟩⟩
  · exact same.trans latch.2
  · obtain rfl := Option.some.inj (known.symm.trans also)
    simp only [latched, latch.1, latch.2, beq_self_eq_true, Bool.and_self] at unlatched
    exact absurd unlatched (by simp)
  · obtain rfl := Option.some.inj (known.symm.trans also)
    exact some_

theorem latch_origin (fresh : InsertedFresh store inserted) (held : ArrivalsMarked store inserted entries next)
    (arrived : ∀ entry ∈ entries, Arrives membership store entry) (known : receiverOf store node = some observed)
    (latch : latched next node (observed.misalign (markedBy store entries)) = true) :
    latched store node observed = true ∨
      idle observed.state = false ∧ ∃ entry ∈ entries, pendingNode entry = node := by
  have misaligned : (observed.state.misalign (markedBy store entries)).misaligned = _ := misaligned_after known
  simp only [latched, ObservedReceiver.misalign, Bool.and_eq_true, beq_iff_eq, misaligned] at latch
  obtain ⟨wrong, named⟩ := latch
  rcases held.latches node with same | ⟨entry, listed, here, another, also, ⟨_, _, none_⟩ | ⟨kind, _⟩⟩
  · have before : store.latches node = some observed.identity := same.symm.trans named
    left
    simp only [latched, before, beq_self_eq_true, Bool.and_true]
    rcases (Bool.or_eq_true _ _).mp wrong with already | marked
    · exact already
    · obtain ⟨row, current, _⟩ := fresh.latches node observed known before
      exact (readable_iff.mp (marked_readable arrived known marked)).2.mp ⟨row, current⟩
  · rw [none_] at named
    exact absurd named (by simp)
  · obtain rfl := Option.some.inj (known.symm.trans also)
    rcases kind with latch | busy
    · exact .inl latch
    · exact .inr ⟨busy, entry, listed, here⟩

theorem observed_next (held : ArrivalsMarked store inserted entries next) (expectedShape : Option Shape) :
    observeJobReceiver next.db node expectedShape =
      (observeJobReceiver store.db node expectedShape).map
        (Option.map (ObservedReceiver.misalign (markedBy store entries))) := by
  obtain ⟨tables, same⟩ := held.tables
  have states := held.states
  rw [same] at states ⊢
  exact observe_receiver_misaligned states node expectedShape

theorem requireCreator_next (held : ArrivalsMarked store inserted entries next) (creator : Option String) :
    requireCreator next.db creator = requireCreator store.db creator := by
  obtain ⟨tables, same⟩ := held.tables
  rw [same]
  rfl

inductive ArrivalEffect (store : PublicationStore) (entries : List Pending) (next : PublicationStore) (entry : Pending) :
    Option ArrivalIdentity → PublicationStore → Prop where
  | outside (unknown : receiverOf store (pendingNode entry) = none) : ArrivalEffect store entries next entry none next
  | known {observed : ObservedReceiver} (found : receiverOf store (pendingNode entry) = some observed)
      (kind : latched store (pendingNode entry) observed = true ∨ idle observed.state = false)
      (closed : opens store (pendingNode entry) = true → ∃ other ∈ entries, pendingNode other = pendingNode entry) :
      ArrivalEffect store entries next entry (some observed.identity) next
  | idle {observed : ObservedReceiver} (found : receiverOf store (pendingNode entry) = some observed)
      (kind : idle observed.state = true) (unlatched : latched store (pendingNode entry) observed = false) :
      ArrivalEffect store entries next entry none
        { next with latches := Function.update next.latches (pendingNode entry) none }
  | first {observed : ObservedReceiver} {db : Database} {causes : CauseTable}
      (found : receiverOf store (pendingNode entry) = some observed)
      (opened : opens store (pendingNode entry) = true)
      (alone : ∀ other ∈ entries, pendingNode other ≠ pendingNode entry)
      (misaligned : misalign next.db (observed.state.misalign (markedBy store entries)) = .ok db)
      (recorded : next.causes.insert (jobCause (pendingNode entry) observed (pendingInstance entry)) = some causes) :
      ArrivalEffect store entries next entry (some observed.identity) { next with db := db, causes := causes }

theorem readable_rows {causes : List MisalignmentCause}
    (read : readComponentArrivalCauses membership next.db next.causes
      (observed.state.misalign (markedBy store entries)) = .ok causes) :
    causes = currentCauses next.causes observed.state := by
  rw [read_causes_rows read, current_causes_misalign]

theorem present_cause (held : ArrivalsMarked store inserted entries next)
    (current : row ∈ currentCauses next.causes observed.state) (here : row.receiverNode = node) :
    row ∈ currentCauses store.causes observed.state ∨ ∃ other ∈ entries, pendingNode other = node := by
  obtain ⟨present, named⟩ := mem_current_causes.mp current
  rcases (held.causes row).mp present with old | ⟨other, first⟩
  · exact .inl (mem_current_causes.mpr ⟨old, named⟩)
  · have listed := first_cause_member first
    obtain ⟨_, _, another, _, rfl⟩ := first
    exact .inr ⟨other, listed, here⟩

theorem closed_by_cause (known : receiverOf store node = some observed)
    (current : row ∈ currentCauses store.causes observed.state) (here : row.receiverNode = node) :
    opens store node = false := by
  rw [Bool.eq_false_iff]
  intro opened
  obtain ⟨another, also, _, _, absent⟩ := opens_iff.mp opened
  obtain rfl := Option.some.inj (known.symm.trans also)
  obtain ⟨present, _, generation⟩ := mem_current_causes.mp current
  apply Table.find_none_iff.mp absent row present
  rw [MisalignmentCause.key, here, generation]

inductive CauseMark (membership : ReceiptProducer) (store : PublicationStore) (receiver : String) (observed : ObservedReceiver)
    (instance_ : JobInstance) : Option ArrivalIdentity → PublicationStore → Prop where
  | latched (latch : latched store receiver observed = true) :
      CauseMark membership store receiver observed instance_ (some observed.identity) store
  | idle {causes : List MisalignmentCause} (unlatched : MicroWorkflow.latched store receiver observed = false)
      (read : readComponentArrivalCauses membership store.db store.causes observed.state = .ok causes)
      (resting : MicroWorkflow.idle observed.state = true) :
      CauseMark membership store receiver observed instance_ none
        { store with latches := Function.update store.latches receiver none }
  | known {causes : List MisalignmentCause} {row : MisalignmentCause}
      (unlatched : MicroWorkflow.latched store receiver observed = false)
      (read : readComponentArrivalCauses membership store.db store.causes observed.state = .ok causes)
      (busy : MicroWorkflow.idle observed.state = false) (member : row ∈ causes) (here : row.receiverNode = receiver) :
      CauseMark membership store receiver observed instance_ (some observed.identity) store
  | first {causes : List MisalignmentCause} {db : Database} {row : MisalignmentCause}
      (unlatched : MicroWorkflow.latched store receiver observed = false)
      (read : readComponentArrivalCauses membership store.db store.causes observed.state = .ok causes)
      (busy : MicroWorkflow.idle observed.state = false) (unnamed : ∀ row ∈ causes, row.receiverNode ≠ receiver)
      (misaligned : misalign store.db observed.state = .ok db)
      (found : (recordCause store.causes (jobCause receiver observed instance_)).find
        (receiver, observed.state.alignmentGeneration) = some row)
      (decoded : decodeComponentArrivalCause membership db observed.state row = .ok ()) :
      CauseMark membership store receiver observed instance_ (some observed.identity)
        { store with db := db, causes := recordCause store.causes (jobCause receiver observed instance_) }

theorem mark_job_cause_iff {receiver : String} {instance_ : JobInstance} :
    markJobCause membership store receiver observed instance_ = .ok (identity, after) ↔
      CauseMark membership store receiver observed instance_ identity after := by
  have named : ∀ causes : List MisalignmentCause, (causes.any fun row => row.receiverNode == receiver) = true ↔
      ∃ row ∈ causes, row.receiverNode = receiver := by simp
  constructor
  · intro marked
    unfold markJobCause at marked
    split at marked
    · cases marked
      exact .latched ‹_›
    obtain ⟨causes, read, marked⟩ := Lib.bind_ok.mp marked
    have unlatched := Bool.eq_false_iff.mpr ‹¬latched store receiver observed = true›
    split at marked
    · cases marked
      exact .idle unlatched read ‹_›
    have busy := Bool.eq_false_iff.mpr ‹¬idle observed.state = true›
    split at marked
    · cases marked
      obtain ⟨row, member, here⟩ := (named causes).mp ‹_›
      exact .known unlatched read busy member here
    · simp only [Lib.bind_ok, Lib.orRaise_ok, Lib.pure_ok, Prod.mk.injEq] at marked
      obtain ⟨db, rewritten, row, found, _, decoded, rfl, rfl⟩ := marked
      exact .first unlatched read busy (fun other member here => ‹¬_› ((named causes).mpr ⟨other, member, here⟩)) rewritten found
        decoded
  · intro mark
    unfold markJobCause
    cases mark with
    | latched latch => rw [if_pos latch]; rfl
    | idle unlatched read resting => simp only [unlatched, read, resting, if_true]; rfl
    | known unlatched read busy member here =>
        simp only [unlatched, read, busy, bind, Except.bind, (named _).mpr ⟨_, member, here⟩, if_true]
        rfl
    | first unlatched read busy unnamed misaligned found decoded =>
        have nobody := Bool.eq_false_iff.mpr fun met => (named _).mp met |>.elim fun row listed => unnamed row listed.1 listed.2
        simp only [unlatched, read, busy, nobody, misaligned, orRaise, found, decoded, bind, Except.bind]
        rfl

theorem arrives_accepted (read : observeJobReceiver store.db (pendingNode entry) entry.1.expectedShape = .ok (some observed))
    (created : requireCreator store.db entry.1.producerExecutionId = .ok ())
    (accepted : latched store (pendingNode entry) observed = true ∨ Readable membership store observed.state ∧
      (idle observed.state = true ∨
        (∃ row ∈ currentCauses store.causes observed.state, row.receiverNode = pendingNode entry) ∨
        store.causes.find (pendingNode entry, observed.state.alignmentGeneration) = none)) :
    Arrives membership store entry := by
  refine ⟨some observed, read, ?_⟩
  rintro _ ⟨⟩
  exact ⟨created, accepted⟩

-- An earlier entry of the same receiver settled what this one needs.
theorem arrives_again (arrived : ∀ entry ∈ entries, Arrives membership store entry)
    (read : observeJobReceiver store.db (pendingNode entry) entry.1.expectedShape = .ok (some observed))
    (created : requireCreator store.db entry.1.producerExecutionId = .ok ())
    (unlatched : latched store (pendingNode entry) observed = false)
    (earlier : ∃ other ∈ entries, pendingNode other = pendingNode entry) : Arrives membership store entry := by
  obtain ⟨other, listed, same⟩ := earlier
  obtain ⟨foundOther, readOther, accepted⟩ := arrived other listed
  have also := receiver_of_observed readOther
  rw [same, receiver_of_observed read] at also
  subst also
  obtain ⟨_, latch | ⟨readable, opened⟩⟩ := accepted observed rfl
  · rw [same, unlatched] at latch
    cases latch
  · refine arrives_accepted read created (.inr ⟨readable, ?_⟩)
    rw [← same]
    exact opened

theorem unnamed_alone (held : ArrivalsMarked store inserted entries next)
    (known : receiverOf store (pendingNode entry) = some observed) (opened : opens store (pendingNode entry) = true)
    (unnamed : ∀ row ∈ currentCauses next.causes observed.state, row.receiverNode ≠ pendingNode entry) :
    ∀ other ∈ entries, pendingNode other ≠ pendingNode entry := by
  intro other listed same
  rw [← same] at opened known
  obtain ⟨first, cause, recorded, receiver, group⟩ := opened_cause listed opened known
  have present := (held.causes cause).mpr (.inr ⟨first, recorded⟩)
  exact unnamed cause (mem_current_causes.mpr ⟨present, group⟩) (receiver.trans same)

theorem recorded_unnamed {row : MisalignmentCause} {db : Database} {instance_ : JobInstance}
    (unnamed : ∀ row ∈ currentCauses next.causes observed.state, row.receiverNode ≠ node)
    (found : (recordCause next.causes (jobCause node observed instance_)).find (node, observed.state.alignmentGeneration) =
      some row)
    (decoded : decodeComponentArrivalCause membership db (observed.state.misalign (markedBy store entries)) row = .ok ()) :
    ∃ causes, next.causes.insert (jobCause node observed instance_) = some causes ∧
      recordCause next.causes (jobCause node observed instance_) = causes := by
  cases added : next.causes.insert (jobCause node observed instance_) with
  | some causes => exact ⟨causes, rfl, by rw [recordCause, added, Option.getD_some]⟩
  | none =>
      rw [recordCause, added, Option.getD_none] at found
      simp only [decodeComponentArrivalCause, Lib.bind_ok, Lib.require_ok, Bool.and_eq_true, beq_iff_eq] at decoded
      obtain ⟨_, ⟨⟨key, _⟩, generation⟩, _⟩ := decoded
      have place : MisalignmentCause.key row = (node, observed.state.alignmentGeneration) := Table.find_key found
      have current := mem_current_causes.mpr ⟨Table.find_mem found, key, generation⟩
      exact absurd (Prod.mk.inj place).1 (unnamed row current)

theorem cause_effect (fresh : InsertedFresh store inserted) (held : ArrivalsMarked store inserted entries next)
    (inside : ∀ entry ∈ entries, entry ∈ inserted) (arrived : ∀ entry ∈ entries, Arrives membership store entry)
    (read : observeJobReceiver store.db (pendingNode entry) entry.1.expectedShape = .ok (some observed))
    (created : requireCreator store.db entry.1.producerExecutionId = .ok ())
    (mark : CauseMark membership next (pendingNode entry) (observed.misalign (markedBy store entries)) (pendingInstance entry)
      identity after) :
    Arrives membership store entry ∧ ArrivalEffect store entries next entry identity after := by
  have known := receiver_of_observed read
  have opens_latch : latched next (pendingNode entry) (observed.misalign (markedBy store entries)) = false →
      latched store (pendingNode entry) observed = false := by
    intro free
    rw [Bool.eq_false_iff]
    intro latch
    exact absurd (free.symm.trans (latch_kept held known latch)) (by simp)
  have still : ∀ {causes}, readComponentArrivalCauses membership next.db next.causes
      (observed.misalign (markedBy store entries)).state = .ok causes → Readable membership store observed.state :=
    fun {causes} readCauses => (readable_kept fresh held inside arrived known).mp ⟨causes, readCauses⟩
  have named : (observed.misalign (markedBy store entries)).identity = observed.identity := rfl
  have cause : jobCause (pendingNode entry) (observed.misalign (markedBy store entries)) (pendingInstance entry) =
    jobCause (pendingNode entry) observed (pendingInstance entry) := rfl
  cases mark with
  | latched latch =>
      rw [named]
      rcases latch_origin fresh held arrived known latch with before | ⟨busy, earlier⟩
      · refine ⟨arrives_accepted read created (.inl before), .known known (.inl before) fun opened => ?_⟩
        obtain ⟨another, also, unlatched, _⟩ := opens_iff.mp opened
        obtain rfl := Option.some.inj (known.symm.trans also)
        exact absurd (unlatched.symm.trans before) (by simp)
      · refine ⟨?_, .known known (.inr busy) fun _ => earlier⟩
        cases unlatched : latched store (pendingNode entry) observed with
        | true => exact arrives_accepted read created (.inl unlatched)
        | false => exact arrives_again arrived read created unlatched earlier
  | idle free readCauses resting =>
      exact ⟨arrives_accepted read created (.inr ⟨still readCauses, .inl resting⟩), .idle known resting (opens_latch free)⟩
  | known free readCauses busy listed here =>
      have unlatched := opens_latch free
      obtain rfl := readable_rows readCauses
      rw [named]
      rcases present_cause held listed here with old | earlier
      · refine ⟨arrives_accepted read created (.inr ⟨still readCauses, .inr (.inl ⟨_, old, here⟩)⟩), .known known (.inr busy) ?_⟩
        intro opened
        exact absurd (opened.symm.trans (closed_by_cause known old here)) (by simp)
      · exact ⟨arrives_again arrived read created unlatched earlier, .known known (.inr busy) fun _ => earlier⟩
  | first free readCauses busy unnamed misaligned found decoded =>
      have unlatched := opens_latch free
      obtain rfl := readable_rows readCauses
      obtain ⟨causes, added, recorded⟩ := recorded_unnamed unnamed found decoded
      have absent : store.causes.find (pendingNode entry, observed.state.alignmentGeneration) = none := by
        have unused := (Table.insert_eq_some.mp added).1
        rw [Table.find_none_iff] at unused ⊢
        exact fun other old => unused other ((held.causes other).mpr (.inl old))
      have opened := opens_iff.mpr ⟨observed, known, unlatched, busy, absent⟩
      refine ⟨arrives_accepted read created (.inr ⟨still readCauses, .inr (.inr absent)⟩), ?_⟩
      rw [named, cause, recorded]
      exact .first known opened (unnamed_alone held known opened unnamed) misaligned added

theorem mark_effect (fresh : InsertedFresh store inserted) (held : ArrivalsMarked store inserted entries next)
    (inside : ∀ entry ∈ entries, entry ∈ inserted) (arrived : ∀ entry ∈ entries, Arrives membership store entry)
    (member : entry ∈ inserted)
    (marked : markJobArrival membership next (pendingPlace entry) entry.1.expectedShape = .ok (identity, after)) :
    Arrives membership store entry ∧ ArrivalEffect store entries next entry identity after := by
  have place : (pendingPlace entry).1 = pendingNode entry := rfl
  simp only [markJobArrival, inserted_instance fresh held member, Lib.orRaise_some_bind, place, observed_next held,
    Lib.bind_ok, Lib.map_ok] at marked
  obtain ⟨_, ⟨found, read, rfl⟩, marked⟩ := marked
  cases found with
  | none =>
      simp only [Option.map_none, Lib.pure_ok, Prod.mk.injEq] at marked
      obtain ⟨rfl, rfl⟩ := marked
      exact ⟨⟨none, read, by simp⟩, .outside (receiver_of_observed read)⟩
  | some observed =>
      simp only [Option.map_some, Lib.bind_ok, requireCreator_next held] at marked
      obtain ⟨_, created, marked⟩ := marked
      exact cause_effect fresh held inside arrived read created (mark_job_cause_iff.mp marked)

theorem misalign_possible (held : ArrivalsMarked store inserted entries next) (known : receiverOf store node = some observed)
    (busy : idle observed.state = false) :
    ∃ states, misalign next.db (observed.state.misalign (markedBy store entries)) =
      .ok { next.db with componentStates := states } := by
  unfold misalign
  cases wrong : (observed.state.misalign (markedBy store entries)).misaligned with
  | true => exact ⟨next.db.componentStates, rfl⟩
  | false =>
      obtain ⟨row, _, keyed⟩ := observed_row (observed_of_receiver known)
      rw [misaligned_after known, Bool.or_eq_false_iff] at wrong
      have found : next.db.componentStates.find observed.state.members = some (misaligning false row) := by
        rw [held.states.found, keyed.found, wrong.2]
        rfl
      have chosen : misalignable (observed.state.misalign (markedBy store entries)) (misaligning false row) = true := by
        have generation := keyed.generation
        have aligned := keyed.misaligned.trans wrong.1
        simp only [idle, Bool.or_eq_false_iff, beq_eq_false_iff_ne, ← keyed.lifecycle] at busy
        simp only [misalignable, misaligning, ComponentStateSnapshot.misalign, aligned, generation, Bool.or_self,
          Bool.not_false, beq_self_eq_true, Bool.true_and]
        cases life : row.lifecycle with
        | queued => exact absurd life busy.1
        | running => exact absurd life busy.2
        | sampled => rfl
        | done => rfl
        | failed => rfl
      have key : encodeComponentKey (observed.state.misalign (markedBy store entries)).members = observed.state.members :=
        keyed.canonical
      simp only [Bool.false_eq_true, if_false, key, Table.changeOne, found, Option.any_some, chosen, if_true, Lib.bind_ok,
        Lib.pure_ok, Except.ok.injEq, exists_eq_left']
      exact ⟨_, rfl⟩

theorem unnamed_absent (held : ArrivalsMarked store inserted entries next)
    (unnamed : ∀ row ∈ currentCauses next.causes observed.state, row.receiverNode ≠ node) (busy : idle observed.state = false)
    (arrival : idle observed.state = true ∨ (∃ row ∈ currentCauses store.causes observed.state, row.receiverNode = node) ∨
      store.causes.find (node, observed.state.alignmentGeneration) = none) :
    store.causes.find (node, observed.state.alignmentGeneration) = none := by
  rcases arrival with resting | ⟨row, current, receiver⟩ | absent
  · exact absurd (busy.symm.trans resting) (by simp)
  · obtain ⟨present, named⟩ := mem_current_causes.mp current
    have still := mem_current_causes.mpr ⟨(held.causes row).mpr (.inl present), named⟩
    exact absurd receiver (unnamed row still)
  · exact absent

theorem unnamed_free (held : ArrivalsMarked store inserted entries next) (known : receiverOf store node = some observed)
    (unnamed : ∀ row ∈ currentCauses next.causes observed.state, row.receiverNode ≠ node)
    (absent : store.causes.find (node, observed.state.alignmentGeneration) = none) :
    next.causes.find (node, observed.state.alignmentGeneration) = none := by
  rw [Table.find_none_iff] at absent ⊢
  intro row present keyed
  rcases (held.causes row).mp present with old | ⟨first, cause⟩
  · exact absent row old keyed
  · have receiver : row.receiverNode = node := (Prod.mk.inj keyed).1
    obtain ⟨_, _, another, also, rfl⟩ := id cause
    have here : pendingNode first = node := receiver
    rw [here, known] at also
    obtain rfl := Option.some.inj also
    exact unnamed _ (mem_current_causes.mpr ⟨present, rfl, rfl⟩) receiver

theorem first_possible (fresh : InsertedFresh store inserted) (held : ArrivalsMarked store inserted entries next)
    (member : entry ∈ inserted) (here : Arrives membership store entry)
    (known : receiverOf store (pendingNode entry) = some observed) (busy : idle observed.state = false)
    (free : next.causes.find (pendingNode entry, observed.state.alignmentGeneration) = none) :
    ∃ db row, misalign next.db (observed.state.misalign (markedBy store entries)) = .ok db ∧
      (recordCause next.causes (jobCause (pendingNode entry) observed (pendingInstance entry))).find
        (pendingNode entry, observed.state.alignmentGeneration) = some row ∧
      decodeComponentArrivalCause membership db (observed.state.misalign (markedBy store entries)) row = .ok () := by
  obtain ⟨states, misaligned⟩ := misalign_possible held known busy
  have keyed : next.causes.find (jobCause (pendingNode entry) observed (pendingInstance entry)).key = none := free
  obtain ⟨causes, added⟩ := Table.insert_free keyed
  refine ⟨_, jobCause (pendingNode entry) observed (pendingInstance entry), misaligned, ?_,
    new_cause_decodes fresh held member here known⟩
  rw [recordCause, added, Option.getD_some, Table.find_insert added, if_pos]
  rfl

theorem mark_possible (fresh : InsertedFresh store inserted) (held : ArrivalsMarked store inserted entries next)
    (inside : ∀ entry ∈ entries, entry ∈ inserted) (arrived : ∀ entry ∈ entries, Arrives membership store entry)
    (member : entry ∈ inserted) (here : Arrives membership store entry) :
    ∃ answer, markJobArrival membership next (pendingPlace entry) entry.1.expectedShape = .ok answer := by
  obtain ⟨found, read, accepted⟩ := id here
  have known := receiver_of_observed read
  have place : (pendingPlace entry).1 = pendingNode entry := rfl
  simp only [markJobArrival, inserted_instance fresh held member, Lib.orRaise_some_bind, place, observed_next held, read]
  cases found with
  | none => exact ⟨_, rfl⟩
  | some observed =>
      obtain ⟨created, arrival⟩ := accepted observed rfl
      have creator : requireCreator next.db (pendingInstance entry).createdByExecutionId = .ok () :=
        (requireCreator_next held _).trans created
      simp only [Except.map, Option.map_some, bind, Except.bind, creator]
      cases latch : latched next (pendingNode entry) (observed.misalign (markedBy store entries)) with
      | true => exact ⟨_, mark_job_cause_iff.mpr (.latched latch)⟩
      | false =>
          have unlatched : ¬latched store (pendingNode entry) observed = true :=
            fun before => absurd (latch.symm.trans (latch_kept held known before)) (by simp)
          obtain ⟨readable, arrival⟩ := arrival.resolve_left unlatched
          obtain ⟨causes, readCauses⟩ := (readable_kept fresh held inside arrived known).mpr readable
          obtain rfl := readable_rows readCauses
          cases busy : idle observed.state with
          | true => exact ⟨_, mark_job_cause_iff.mpr (.idle latch readCauses busy)⟩
          | false =>
              by_cases unnamed : ∀ row ∈ currentCauses next.causes observed.state, row.receiverNode ≠ pendingNode entry
              · have free := unnamed_free held known unnamed (unnamed_absent held unnamed busy arrival)
                obtain ⟨db, row, misaligned, recorded, decoded⟩ := first_possible fresh held member here known busy free
                exact ⟨_, mark_job_cause_iff.mpr (.first latch readCauses busy unnamed misaligned recorded decoded)⟩
              · push Not at unnamed
                obtain ⟨row, listed, receiver⟩ := unnamed
                exact ⟨_, mark_job_cause_iff.mpr (.known latch readCauses busy listed receiver)⟩

end Steps

section Progress

variable {inserted : List Pending} {node : String} {after : PublicationStore} {identity : Option ArrivalIdentity}

def AlreadyClosed (store : PublicationStore) (entries : List Pending) (entry : Pending) : Prop :=
  opens store (pendingNode entry) = true → ∃ other ∈ entries, pendingNode other = pendingNode entry

theorem marked_by_append (key : Component) : markedBy store (entries ++ [entry]) key =
    (markedBy store entries key || opens store (pendingNode entry)
      && (receiverOf store (pendingNode entry)).any fun observed => observed.state.members == key) := by
  simp only [markedBy, List.any_append, List.any_cons, List.any_nil, Bool.or_false]

theorem marked_by_closed (closed : AlreadyClosed store entries entry) :
    markedBy store (entries ++ [entry]) = markedBy store entries := by
  funext key
  rw [marked_by_append]
  cases marked : markedBy store entries key with
  | true => rfl
  | false =>
      rw [Bool.false_or, Bool.eq_false_iff]
      intro chosen
      obtain ⟨opened, chosen⟩ := (Bool.and_eq_true _ _).mp chosen
      obtain ⟨other, listed, same⟩ := closed opened
      obtain ⟨observed, known, members⟩ := (Option.any_eq_true _ _).mp chosen
      rw [← same] at opened known
      exact absurd (marked.symm.trans (marked_by_iff.mpr ⟨other, listed, opened, observed, known, beq_iff_eq.mp members⟩))
        (by simp)

theorem first_cause_append {other : Pending} : FirstCause store (entries ++ [entry]) other row ↔
    FirstCause store entries other row ∨ other = entry ∧ (∀ earlier ∈ entries, pendingNode earlier ≠ pendingNode entry) ∧
      opens store (pendingNode entry) = true ∧ ∃ observed, receiverOf store (pendingNode entry) = some observed ∧
        row = jobCause (pendingNode entry) observed (pendingInstance entry) := by
  unfold FirstCause
  rw [List.find?_append]
  cases found : entries.find? fun earlier => pendingNode earlier = pendingNode other with
  | some first =>
      simp only [Option.some_or]
      constructor
      · exact .inl
      · rintro (old | ⟨rfl, alone, _⟩)
        · exact old
        · have same : pendingNode first = pendingNode other := by simpa using List.find?_some found
          exact absurd same (alone first (List.mem_of_find?_eq_some found))
  | none =>
      have alone := List.find?_eq_none.mp found
      simp only [decide_eq_true_eq] at alone
      simp only [Option.none_or, reduceCtorEq, false_and, false_or]
      constructor
      · rintro ⟨here, rest⟩
        have same := List.mem_singleton.mp (List.mem_of_find?_eq_some here)
        subst same
        exact ⟨rfl, alone, rest⟩
      · rintro ⟨rfl, _, rest⟩
        exact ⟨by simp, rest⟩

theorem latch_after_append {latch : Option ArrivalIdentity} (held : LatchAfter store entries node latch) :
    LatchAfter store (entries ++ [entry]) node latch := by
  rcases held with same | ⟨other, listed, rest⟩
  · exact .inl same
  · exact .inr ⟨other, List.mem_append_left _ listed, rest⟩

theorem misalign_found {state : ComponentStateSnapshot} {next : Database} (misaligned : misalign db state = .ok next)
    (canonical : encodeComponentKey state.members = state.members)
    (agree : ∀ row, db.componentStates.find state.members = some row → row.misaligned = state.misaligned) :
    next = { db with componentStates := next.componentStates } ∧
      ∀ key, next.componentStates.find key =
        (db.componentStates.find key).map (misaligning (state.members == key)) := by
  unfold misalign at misaligned
  have still : ∀ key row, key ≠ state.members → db.componentStates.find key = some row →
      some row = (some row).map (misaligning (state.members == key)) := by
    intro key row apart _
    have other : (state.members == key) = false := beq_eq_false_iff_ne.mpr (Ne.symm apart)
    simp [other, misaligning]
  split at misaligned
  · rename_i wrong
    obtain rfl := Except.ok.inj misaligned
    refine ⟨rfl, fun key => ?_⟩
    cases found : db.componentStates.find key with
    | none => rfl
    | some row =>
        by_cases here : key = state.members
        · subst here
          have already := (agree row found).trans wrong
          simp only [Option.map_some, misaligning, already, Bool.true_or]
          cases row
          simp only at already
          rw [already]
        · exact still key row here found
  · simp only [Lib.bind_ok, Lib.pure_ok] at misaligned
    obtain ⟨states, changed, rfl⟩ := misaligned
    rw [canonical] at changed
    obtain ⟨row, found, _, now, others⟩ := Table.change_one_ok changed
    refine ⟨rfl, fun key => ?_⟩
    by_cases here : key = state.members
    · subst here
      rw [found, now]
      simp [misaligning]
    · rw [others key here]
      cases there : db.componentStates.find key with
      | none => rfl
      | some row => exact still key row here there

theorem arrivals_marked_step (held : ArrivalsMarked store inserted entries next)
    (effect : ArrivalEffect store entries next entry identity after) :
    ArrivalsMarked store inserted (entries ++ [entry]) after := by
  have quiet : AlreadyClosed store entries entry → ∀ latches : String → Option ArrivalIdentity,
      (∀ node, LatchAfter store (entries ++ [entry]) node (latches node)) →
      ArrivalsMarked store inserted (entries ++ [entry]) { next with latches := latches } := by
    intro closed latches kept
    refine ⟨held.tables, held.instances, ?_, ?_, kept⟩
    · rw [marked_by_closed closed]
      exact held.states
    · intro row
      rw [held.causes]
      refine or_congr_right (exists_congr fun other => ?_)
      rw [first_cause_append]
      constructor
      · exact .inl
      · rintro (old | ⟨_, alone, opened, _⟩)
        · exact old
        · obtain ⟨earlier, listed, same⟩ := closed opened
          exact absurd same (alone earlier listed)
  have listed : entry ∈ entries ++ [entry] := List.mem_append_right _ (List.mem_singleton.mpr rfl)
  cases effect with
  | outside unknown =>
      refine quiet ?_ next.latches fun node => latch_after_append (held.latches node)
      intro opened
      obtain ⟨observed, known, _⟩ := opens_iff.mp opened
      exact absurd (unknown.symm.trans known) (by simp)
  | known found kind closed => exact quiet closed next.latches fun node => latch_after_append (held.latches node)
  | @idle observed found kind unlatched =>
      refine quiet ?_ _ ?_
      · intro opened
        obtain ⟨another, also, _, busy, _⟩ := opens_iff.mp opened
        obtain rfl := Option.some.inj (found.symm.trans also)
        exact absurd (busy.symm.trans kind) (by simp)
      · intro node
        by_cases here : node = pendingNode entry
        · subst here
          refine .inr ⟨entry, listed, rfl, observed, found, .inl ⟨kind, unlatched, ?_⟩⟩
          exact Function.update_self ..
        · rw [Function.update_of_ne here]
          exact latch_after_append (held.latches node)
  | @first observed db causes found opened alone misaligned recorded =>
      obtain ⟨row, _, keyed⟩ := observed_row (observed_of_receiver found)
      have canonical : encodeComponentKey (observed.state.misalign (markedBy store entries)).members =
          (observed.state.misalign (markedBy store entries)).members := keyed.canonical
      have agree : ∀ row, next.db.componentStates.find (observed.state.misalign (markedBy store entries)).members =
          some row → row.misaligned = (observed.state.misalign (markedBy store entries)).misaligned := by
        intro other there
        have before : next.db.componentStates.find observed.state.members =
            some (misaligning (markedBy store entries observed.state.members) row) := by
          rw [held.states.found, keyed.found]
          rfl
        obtain rfl := Option.some.inj (there.symm.trans before)
        rw [misaligned_after found, ← keyed.misaligned]
        rfl
      obtain ⟨only, states⟩ := misalign_found misaligned canonical agree
      obtain ⟨tables, same⟩ := held.tables
      have written : ∀ key, markedBy store (entries ++ [entry]) key =
          (markedBy store entries key || observed.state.members == key) := by
        intro key
        rw [marked_by_append, opened, found]
        rfl
      constructor
      · refine ⟨{ tables with componentStates := db.componentStates }, ?_⟩
        rw [only, same]
        rfl
      · intro place
        have instances := held.instances place
        rw [← instances, only]
      · constructor
        · intro key
          have there : (observed.state.misalign (markedBy store entries)).members = observed.state.members := rfl
          rw [states key, there, held.states.found, written, Option.map_map]
          congr 1
          funext row
          simp only [Function.comp, misaligning, Bool.or_assoc]
        · intro key row marked present
          rw [written, Bool.or_eq_true] at marked
          rcases marked with earlier | here
          · exact held.states.opened key row earlier present
          · have same := beq_iff_eq.mp here
            subst same
            obtain rfl := Option.some.inj (keyed.found.symm.trans present)
            obtain ⟨another, also, _, busy, _⟩ := opens_iff.mp opened
            obtain rfl := Option.some.inj (found.symm.trans also)
            simp only [MicroWorkflow.idle, Bool.or_eq_false_iff, beq_eq_false_iff_ne] at busy
            rw [keyed.lifecycle]
            exact busy.1
      · intro cause
        rw [Table.mem_insert recorded, held.causes, or_assoc]
        refine or_congr_right ?_
        constructor
        · rintro (⟨other, old⟩ | rfl)
          · exact ⟨other, first_cause_append.mpr (.inl old)⟩
          · exact ⟨entry, first_cause_append.mpr (.inr ⟨rfl, alone, opened, observed, found, rfl⟩)⟩
        · rintro ⟨other, new⟩
          rcases first_cause_append.mp new with old | ⟨rfl, _, _, another, also, rfl⟩
          · exact .inl ⟨other, old⟩
          · obtain rfl := Option.some.inj (found.symm.trans also)
            exact .inr rfl
      · exact fun node => latch_after_append (held.latches node)

end Progress

end MicroWorkflow
