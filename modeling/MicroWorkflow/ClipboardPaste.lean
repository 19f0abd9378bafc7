import MicroWorkflow.Clipboard
import MicroWorkflow.Lib.Statement

set_option autoImplicit false

namespace MicroWorkflow

open Lib (require refuse orRaise each thread inspect statement transaction Table)

section Outside

def ClipboardStore.withoutNode (node : String) (store : ClipboardStore) : ClipboardStore where
  db := { store.db with
    nodes := store.db.nodes.delete fun row => row.nodeName = node
    jobs := store.db.jobs.delete fun row => row.nodeName = node
    jobInstances := store.db.jobInstances.delete fun row => row.nodeName = node
    jobEvents := (store.eventRows.filter fun row => row.event.nodeName ≠ node).map EventRow.event
    idempotency := store.db.idempotency.delete fun row => row.nodeName = node
    jobSequences := store.db.jobSequences.delete fun row => row.nodeName = node
    managedInputFiles := store.db.managedInputFiles.delete fun row => row.receiverNode = node
    managedInputProducers := store.db.managedInputProducers.delete fun row => row.receiverNode = node }
  eventIds := (store.eventRows.filter fun row => row.event.nodeName ≠ node).map EventRow.eventId
  defaultJobSpecs := store.defaultJobSpecs.delete fun row => row.nodeName = node
  misalignmentCauses := store.misalignmentCauses
  clipboardAttempts := store.clipboardAttempts
  clipboardReceipts := store.clipboardReceipts

def ClipboardStore.withoutComponent (key : Component) (store : ClipboardStore) : ClipboardStore :=
  { store with
    db := { store.db with
      componentStates := store.db.componentStates.delete fun row => row.componentKey = key
      componentSuccessfulResults := .empty }
    misalignmentCauses := .empty }

def OutsideKept (node : String) (store next : ClipboardStore) : Prop := next.withoutNode node = store.withoutNode node

variable {node : String} {store mid next : ClipboardStore}

theorem OutsideKept.refl : OutsideKept node store store := rfl

theorem OutsideKept.trans (first : OutsideKept node store mid) (later : OutsideKept node mid next) :
    OutsideKept node store next := Eq.trans later first

theorem event_rows_with (rows : List EventRow) : (store.withEvents rows).eventRows = rows := by
  simp only [ClipboardStore.eventRows, ClipboardStore.withEvents, List.zipWith_map]
  induction rows with
  | nil => rfl
  | cons row rest ih => rw [List.zipWith_cons_cons, ih]

end Outside

section Clear

variable {node : String} {store next : ClipboardStore}

theorem clear_idempotency_kept (done : clearIdempotency node store = .ok next) : OutsideKept node store next := by
  cases done
  simp only [OutsideKept, ClipboardStore.withoutNode, Table.delete_delete fun _ chosen => chosen]
  rfl

theorem clear_default_jobs_kept (done : clearDefaultJobs node store = .ok next) : OutsideKept node store next := by
  cases done
  simp only [OutsideKept, ClipboardStore.withoutNode, Table.delete_delete fun _ chosen => chosen]
  rfl

theorem clear_events_kept (done : clearEvents node store = .ok next) : OutsideKept node store next := by
  cases done
  simp only [OutsideKept, ClipboardStore.withoutNode, event_rows_with, List.filter_filter, Bool.and_self]
  rfl

theorem clear_managed_inputs_kept (done : clearManagedInputs node store = .ok next) :
    OutsideKept node store next := by
  cases done
  have producers := Table.delete_delete (t := store.db.managedInputProducers)
    (p := fun row => row.receiverNode = node)
    (q := fun row => row.receiverNode = node && store.db.managedInputFiles.contains (row.receiverNode, row.relativePath))
    (fun _ chosen => (Bool.and_eq_true _ _ ▸ chosen).1)
  simp only [OutsideKept, ClipboardStore.withoutNode, Table.delete_delete fun _ chosen => chosen, producers]
  rfl

theorem clear_jobs_kept (done : clearJobs node store = .ok next) : OutsideKept node store next := by
  cases done
  have instances := Table.delete_delete (t := store.db.jobInstances) (p := fun row => row.nodeName = node)
    (q := fun row => row.nodeName = node && store.db.jobs.contains row.address)
    (fun _ chosen => (Bool.and_eq_true _ _ ▸ chosen).1)
  simp only [OutsideKept, ClipboardStore.withoutNode, Table.delete_delete fun _ chosen => chosen, instances]
  rfl

theorem clear_job_sequence_kept (done : clearJobSequence node store = .ok next) : OutsideKept node store next := by
  cases done
  simp only [OutsideKept, ClipboardStore.withoutNode, Table.delete_delete fun _ chosen => chosen]
  rfl

theorem clear_node_kept (done : clearNode node store = .ok () next) : OutsideKept node store next := by
  simp only [clearNode, Lib.writer_bind_ok, Lib.statement_ok] at done
  obtain ⟨_, _, idempotency, _, _, specs, _, _, events, _, _, inputs, _, _, jobs, sequence⟩ := done
  exact (clear_idempotency_kept idempotency).trans <| (clear_default_jobs_kept specs).trans <|
    (clear_events_kept events).trans <| (clear_managed_inputs_kept inputs).trans <|
    (clear_jobs_kept jobs).trans (clear_job_sequence_kept sequence)

end Clear

structure NodeRows.AllOf (node : String) (rows : NodeRows) : Prop where
  nodes : ∀ row ∈ rows.nodes, row.nodeName = node
  jobs : ∀ row ∈ rows.jobs, row.nodeName = node
  instances : ∀ row ∈ rows.instances, row.nodeName = node
  events : ∀ row ∈ rows.events, row.event.nodeName = node
  idempotency : ∀ row ∈ rows.idempotency, row.nodeName = node
  defaultJobs : ∀ row ∈ rows.defaultJobs, row.nodeName = node
  sequences : ∀ row ∈ rows.sequences, row.nodeName = node
  managedInputs : ∀ row ∈ rows.managedInputs, row.receiverNode = node
  managedProducers : ∀ row ∈ rows.managedProducers, row.receiverNode = node

theorem rows_of_all (store : ClipboardStore) (node : String) : (store.rowsOf node).AllOf node := by
  constructor <;> intro row member <;>
    simp only [ClipboardStore.rowsOf, List.mem_insertionSort, Table.select, List.mem_filter, decide_eq_true_eq] at member <;>
    exact member.2

theorem restored_rows_ok {actual expected : NodeRows} (restored : requireRestoredRows actual expected = .ok ()) :
    actual = expected := by
  simp only [requireRestoredRows, requireRows, Lib.bind_ok, Lib.require_ok, beq_iff_eq, exists_const] at restored
  obtain ⟨nodes, jobs, instances, events, idempotency, specs, sequences, inputs, producers⟩ := restored
  cases actual
  cases expected
  simp_all

section Restore

variable {node : String} {store next : ClipboardStore} {data : ClipboardData}
  {fresh : JobAddress → String}

theorem restore_node_row_kept {saved current : Option NodeRow} (mine : ∀ row ∈ saved.toList, row.nodeName = node)
    (done : restoreNodeRow node saved current store = .ok next) : OutsideKept node store next := by
  unfold restoreNodeRow at done
  split at done
  · cases done
    exact .refl
  · simp only [Lib.bind_ok, Lib.pure_ok] at done
    obtain ⟨_, _, rfl⟩ := done
    simp only [OutsideKept, ClipboardStore.withoutNode, Table.delete_delete fun _ chosen => chosen]
    rfl
  · rename_i row
    simp only [Lib.bind_ok, Lib.orRaise_ok, Lib.pure_ok] at done
    obtain ⟨nodes, inserted, rfl⟩ := done
    have own : row.nodeName = node := mine row (by simp)
    simp only [OutsideKept, ClipboardStore.withoutNode, Table.insert_delete
      (p := fun row => decide (row.nodeName = node)) inserted
      (decide_eq_true own)]
    rfl
  · simp only [Lib.bind_ok, Lib.pure_ok] at done
    obtain ⟨nodes, changed, rfl⟩ := done
    simp only [OutsideKept, ClipboardStore.withoutNode, Table.change_one_delete changed fun _ here => decide_eq_true here]
    rfl

theorem restore_job_row_kept {db after : Database} {job : Job} (mine : job.nodeName = node)
    (done : restoreJobRow fresh db job = .ok after) :
    OutsideKept node { store with db := db } { store with db := after } := by
  simp only [restoreJobRow, Lib.bind_ok, Lib.orRaise_ok, Lib.pure_ok] at done
  obtain ⟨jobs, inserted, _, _, instances, created, rfl⟩ := done
  simp only [OutsideKept, ClipboardStore.withoutNode, 
    Table.insert_delete (p := fun row => decide (row.nodeName = node)) inserted (decide_eq_true mine),
    Table.insert_delete (p := fun row => decide (row.nodeName = node)) created (decide_eq_true mine)]
  rfl

theorem restore_jobs_kept (mine : ∀ job ∈ data.jobs, job.nodeName = node)
    (done : restoreJobs data fresh store = .ok next) : OutsideKept node store next := by
  simp only [restoreJobs, Lib.bind_ok, Lib.pure_ok] at done
  obtain ⟨db, threaded, rfl⟩ := done
  let Kept : Database → Prop := fun after => OutsideKept node store { store with db := after }
  have last : Kept db := by
    refine Lib.thread_invariant OutsideKept.refl ?_ threaded
    intro current after job member before step
    exact OutsideKept.trans before (restore_job_row_kept (mine job member) step)
  exact last

theorem restore_instance_kept {db after : Database} {saved : JobInstance}
    (done : restoreInstance node db saved = .ok after) :
    OutsideKept node { store with db := db } { store with db := after } := by
  simp only [restoreInstance, Lib.bind_ok, Lib.pure_ok] at done
  obtain ⟨instances, changed, _, _, _, _, rfl⟩ := done
  have same := Table.change_one_delete (p := fun row => decide (row.nodeName = node)) changed
    fun row here => decide_eq_true (congrArg Prod.fst here)
  simp only [OutsideKept, ClipboardStore.withoutNode, same]
  rfl

theorem restore_instances_kept (done : restoreInstances data node store = .ok next) :
    OutsideKept node store next := by
  simp only [restoreInstances, Lib.bind_ok, Lib.pure_ok] at done
  obtain ⟨db, threaded, rfl⟩ := done
  let Kept : Database → Prop := fun after => OutsideKept node store { store with db := after }
  have last : Kept db := by
    refine Lib.thread_invariant OutsideKept.refl ?_ threaded
    intro current after saved _ before step
    exact OutsideKept.trans before (restore_instance_kept step)
  exact last

theorem restore_events_kept (mine : ∀ row ∈ data.events, row.event.nodeName = node)
    (done : restoreEvents data store = .ok next) : OutsideKept node store next := by
  simp only [restoreEvents, Lib.bind_ok, Lib.pure_ok] at done
  obtain ⟨_, _, rfl⟩ := done
  have gone : data.events.filter (fun row => row.event.nodeName ≠ node) = [] := by
    rw [List.filter_eq_nil_iff]
    intro row member
    simp [mine row member]
  simp only [OutsideKept, ClipboardStore.withoutNode, event_rows_with, List.filter_append, gone, List.append_nil]
  rfl

theorem restore_idempotency_kept (mine : ∀ row ∈ data.idempotency, row.nodeName = node)
    (done : restoreIdempotency data store = .ok next) : OutsideKept node store next := by
  simp only [restoreIdempotency, Lib.bind_ok, Lib.orRaise_ok, Lib.pure_ok] at done
  obtain ⟨_, inserted, rfl⟩ := done
  simp only [OutsideKept, ClipboardStore.withoutNode,
    Table.insertAll_delete inserted fun row member => decide_eq_true (mine row member)]
  rfl

theorem restore_default_jobs_kept (mine : ∀ row ∈ data.defaultJobs, row.nodeName = node)
    (done : restoreDefaultJobs data store = .ok next) : OutsideKept node store next := by
  simp only [restoreDefaultJobs, Lib.bind_ok, Lib.orRaise_ok, Lib.pure_ok] at done
  obtain ⟨_, inserted, rfl⟩ := done
  simp only [OutsideKept, ClipboardStore.withoutNode,
    Table.insertAll_delete inserted fun row member => decide_eq_true (mine row member)]
  rfl

theorem restore_sequence_kept (mine : ∀ row ∈ data.sequence.toList, row.nodeName = node)
    (done : restoreSequence data store = .ok next) : OutsideKept node store next := by
  simp only [restoreSequence, Lib.bind_ok, Lib.orRaise_ok, Lib.pure_ok] at done
  obtain ⟨_, inserted, rfl⟩ := done
  simp only [OutsideKept, ClipboardStore.withoutNode,
    Table.insertAll_delete inserted fun row member => decide_eq_true (mine row member)]
  rfl

theorem restore_managed_inputs_kept (mine : ∀ row ∈ data.managedInputs, row.receiverNode = node)
    (done : restoreManagedInputs data store = .ok next) : OutsideKept node store next := by
  simp only [restoreManagedInputs, Lib.bind_ok, Lib.orRaise_ok, Lib.pure_ok] at done
  obtain ⟨_, inserted, rfl⟩ := done
  simp only [OutsideKept, ClipboardStore.withoutNode,
    Table.insertAll_delete inserted fun row member => decide_eq_true (mine row member)]
  rfl

theorem restore_managed_producers_kept (mine : ∀ row ∈ data.managedProducers, row.receiverNode = node)
    (done : restoreManagedProducers data store = .ok next) : OutsideKept node store next := by
  simp only [restoreManagedProducers, Lib.bind_ok, Lib.orRaise_ok, Lib.pure_ok] at done
  obtain ⟨_, _, _, inserted, rfl⟩ := done
  simp only [OutsideKept, ClipboardStore.withoutNode,
    Table.insertAll_delete inserted fun row member => decide_eq_true (mine row member)]
  rfl

theorem restore_node_kept {saved current : ClipboardObservation} (mine : saved.data.rows.AllOf saved.node)
    (done : restoreNode fresh saved current store = .ok () next) : OutsideKept saved.node store next := by
  simp only [restoreNode, Lib.writer_bind_ok, Lib.statement_ok] at done
  obtain ⟨_, _, row, _, _, jobs, _, _, instances, _, _, events, _, _, idempotency, _, _, specs, _, _, sequence, _, _,
    inputs, producers⟩ := done
  exact (restore_node_row_kept mine.nodes row).trans <| (restore_jobs_kept mine.jobs jobs).trans <|
    (restore_instances_kept instances).trans <| (restore_events_kept mine.events events).trans <|
    (restore_idempotency_kept mine.idempotency idempotency).trans <|
    (restore_default_jobs_kept mine.defaultJobs specs).trans <| (restore_sequence_kept mine.sequences sequence).trans <|
    (restore_managed_inputs_kept mine.managedInputs inputs).trans
      (restore_managed_producers_kept mine.managedProducers producers)

end Restore

section Component

variable {key : Component} {shapeId generation : Nat} {store mid next : ClipboardStore} {data : ClipboardData}
  {saved : ClipboardObservation}

structure ComponentRestored (key : Component) (generation : Nat) (store next : ClipboardStore) : Prop where
  others : next.withoutComponent key = store.withoutComponent key
  results : ∃ added, next.db.componentSuccessfulResults.rows = store.db.componentSuccessfulResults.rows ++ added ∧
    ∀ row ∈ added, row.componentKey = key ∧ row.alignmentGeneration = generation
  causes : ∃ added, next.misalignmentCauses.rows = store.misalignmentCauses.rows ++ added ∧
    ∀ row ∈ added, row.alignmentGeneration = generation

theorem ComponentRestored.trans (first : ComponentRestored key generation store mid)
    (later : ComponentRestored key generation mid next) : ComponentRestored key generation store next := by
  obtain ⟨results, appended, ours⟩ := first.results
  obtain ⟨moreResults, appendedLater, oursLater⟩ := later.results
  obtain ⟨causes, grown, stamped⟩ := first.causes
  obtain ⟨moreCauses, grownLater, stampedLater⟩ := later.causes
  refine ⟨later.others.trans first.others, ⟨results ++ moreResults, ?_, ?_⟩, ⟨causes ++ moreCauses, ?_, ?_⟩⟩
  · rw [appendedLater, appended, List.append_assoc]
  · intro row member
    exact (List.mem_append.mp member).elim (ours row) (oursLater row)
  · rw [grownLater, grown, List.append_assoc]
  · intro row member
    exact (List.mem_append.mp member).elim (stamped row) (stampedLater row)

theorem restore_retained_result_ok {retained : Option ComponentSuccessfulResult}
    (done : restoreRetainedResult key shapeId generation retained store = .ok next) :
    ComponentRestored key generation store next := by
  cases retained with
  | none =>
      obtain rfl := Except.ok.inj done
      exact ⟨rfl, ⟨[], by simp, by simp⟩, ⟨[], by simp, by simp⟩⟩
  | some retained =>
      simp only [restoreRetainedResult, Lib.bind_ok, Lib.orRaise_ok, Lib.pure_ok] at done
      obtain ⟨_, _, results, inserted, _, _, rfl⟩ := done
      refine ⟨rfl, ⟨_, (Table.insert_eq_some.mp inserted).2, ?_⟩, ⟨[], by simp, by simp⟩⟩
      intro row member
      rw [List.mem_singleton.mp member]
      exact ⟨rfl, rfl⟩

theorem restore_component_state_ok (done : restoreComponentState key shapeId generation data store = .ok next) :
    ComponentRestored key generation store next := by
  simp only [restoreComponentState, Lib.bind_ok, Lib.pure_ok] at done
  obtain ⟨states, changed, _, _, rfl⟩ := done
  refine ⟨?_, ⟨[], by simp, by simp⟩, ⟨[], by simp, by simp⟩⟩
  simp only [ClipboardStore.withoutComponent, Table.change_one_delete changed fun _ here => decide_eq_true here]

theorem restore_causes_ok {causes : List MisalignmentCause}
    (done : restoreCauses key shapeId generation causes store = .ok next) :
    ComponentRestored key generation store next := by
  simp only [restoreCauses, Lib.bind_ok, Lib.orRaise_ok, Lib.pure_ok] at done
  obtain ⟨_, _, stored, inserted, _, _, rfl⟩ := done
  refine ⟨rfl, ⟨[], by simp, by simp⟩, ⟨_, Table.insertAll_rows inserted, ?_⟩⟩
  intro row member
  obtain ⟨cause, _, rfl⟩ := List.mem_map.mp member
  rfl

theorem restored_state_ok {before : ComponentStateRecord}
    (restored : requireRestoredState saved before generation store = .ok ()) :
    ∃ state, readComponentStateRecord store.db saved.component false = .ok (some state) ∧
      state.identity.alignmentGeneration = generation ∧ state.lifecycle = saved.data.componentState.lifecycle ∧
      state.stability = saved.data.componentState.stability ∧
      state.instabilityOrigin = saved.data.componentState.instabilityOrigin ∧
      state.misaligned = saved.data.componentState.misaligned := by
  simp only [requireRestoredState, Lib.bind_ok, Lib.orRaise_ok, Lib.require_ok, beq_iff_eq] at restored
  obtain ⟨_, read, state, rfl, same⟩ := restored
  simp only [ComponentStateRecord.snapshot, ComponentStateSnapshot.mk.injEq] at same
  obtain ⟨_, _, lifecycle, stability, origin, misaligned, generation⟩ := same
  exact ⟨state, read, generation, lifecycle, stability, origin, misaligned⟩

theorem floor_above {component : Component} {used : Nat} (recorded : used ∈ recordedGenerations store component) :
    used < clipboardGenerationFloor store component := by
  unfold clipboardGenerationFloor
  generalize recordedGenerations store component = generations at recorded
  induction generations with
  | nil => exact absurd recorded List.not_mem_nil
  | cons first rest ih =>
      rw [List.map_cons, List.foldr_cons]
      rcases List.mem_cons.mp recorded with rfl | later
      · omega
      · have below := ih later
        omega

theorem restore_component_ok (done : restoreComponent saved store = .ok generation next) :
    generation = clipboardGenerationFloor store saved.component ∧
      ComponentRestored (encodeComponentKey saved.component) generation store next ∧
      ∃ before, requireRestoredState saved before generation next = .ok () := by
  simp only [restoreComponent, Lib.writer_bind_ok, Lib.inspect_ok, Lib.statement_ok, Lib.writer_pure_ok,
    Except.ok.injEq] at done
  obtain ⟨_, _, ⟨rfl, rfl⟩, before, _, ⟨_, rfl⟩, _, _, result, _, _, state, _, _, causes, _, _, ⟨checked, rfl⟩, rfl,
    rfl⟩ := done
  exact ⟨rfl, (restore_retained_result_ok result).trans <| (restore_component_state_ok state).trans
    (restore_causes_ok causes), before, checked⟩

end Component

section Paste

variable {store mid next : ClipboardStore} {saved current : ClipboardObservation} {generation : Nat}
  {fresh : JobAddress → String} {operationId : String}

-- What a paste leaves: the saved rows of its node, everything else of the store as it was, and the
-- component's state under a generation above all of the component's history and of its nodes' first causes.
structure NodePasted (saved : ClipboardObservation) (generation : Nat) (store next : ClipboardStore) : Prop where
  restored : next.rowsOf saved.node = saved.data.rows
  others : (next.withoutNode saved.node).withoutComponent (encodeComponentKey saved.component) =
    (store.withoutNode saved.node).withoutComponent (encodeComponentKey saved.component)
  results : ∃ added, next.db.componentSuccessfulResults.rows = store.db.componentSuccessfulResults.rows ++ added ∧
    ∀ row ∈ added, row.componentKey = encodeComponentKey saved.component ∧ row.alignmentGeneration = generation
  causes : ∃ added, next.misalignmentCauses.rows = store.misalignmentCauses.rows ++ added ∧
    ∀ row ∈ added, row.alignmentGeneration = generation
  above : ∀ used ∈ recordedGenerations store saved.component, used < generation
  accepted : ∃ state, readComponentStateRecord next.db saved.component false = .ok (some state) ∧
    state.identity.alignmentGeneration = generation ∧ state.lifecycle = saved.data.componentState.lifecycle ∧
    state.stability = saved.data.componentState.stability ∧
    state.instabilityOrigin = saved.data.componentState.instabilityOrigin ∧
    state.misaligned = saved.data.componentState.misaligned

theorem outside_generations {node : String} {component : Component} (kept : OutsideKept node store mid) :
    recordedGenerations mid component = recordedGenerations store component := by
  have states : mid.db.componentStates = store.db.componentStates :=
    congrArg (fun masked => masked.db.componentStates) kept
  have results : mid.db.componentSuccessfulResults = store.db.componentSuccessfulResults :=
    congrArg (fun masked => masked.db.componentSuccessfulResults) kept
  have owners : mid.db.jobExecutionOwners = store.db.jobExecutionOwners :=
    congrArg (fun masked => masked.db.jobExecutionOwners) kept
  have causes : mid.misalignmentCauses = store.misalignmentCauses :=
    congrArg (fun masked => masked.misalignmentCauses) kept
  simp only [recordedGenerations, states, results, owners, causes]

theorem replace_clipboard_node_state_ok
    (done : replaceClipboardNodeState fresh saved current operationId store = .ok generation next) :
    NodePasted saved generation store next := by
  simp only [replaceClipboardNodeState, Lib.writer_bind_ok, Lib.inspect_ok, Lib.writer_pure_ok] at done
  obtain ⟨_, _, ⟨_, rfl⟩, _, _, ⟨_, rfl⟩, _, cleared, clears, _, mid, restores, _, _, component, _, _,
    ⟨readback, rfl⟩, rfl, rfl⟩ := done
  have restored := restored_rows_ok readback
  have mine : saved.data.rows.AllOf saved.node := restored ▸ rows_of_all _ saved.node
  have kept : OutsideKept saved.node store mid := (clear_node_kept clears).trans (restore_node_kept mine restores)
  obtain ⟨floor, changed, before, checked⟩ := restore_component_ok component
  have results : mid.db.componentSuccessfulResults = store.db.componentSuccessfulResults :=
    congrArg (fun masked => masked.db.componentSuccessfulResults) kept
  have causes : mid.misalignmentCauses = store.misalignmentCauses :=
    congrArg (fun masked => masked.misalignmentCauses) kept
  refine ⟨restored, ?_, results ▸ changed.results, causes ▸ changed.causes, ?_, restored_state_ok checked⟩
  · calc
      _ = (ClipboardStore.withoutComponent (encodeComponentKey saved.component) _).withoutNode saved.node := rfl
      _ = (mid.withoutComponent (encodeComponentKey saved.component)).withoutNode saved.node := by rw [changed.others]
      _ = (mid.withoutNode saved.node).withoutComponent (encodeComponentKey saved.component) := rfl
      _ = _ := congrArg _ kept
  · intro used recorded
    rw [floor]
    exact floor_above (outside_generations kept ▸ recorded)

structure CommitEnded (mid next : ClipboardStore) : Prop where
  others : next = { mid with
    clipboardAttempts := next.clipboardAttempts
    clipboardReceipts := next.clipboardReceipts
    db := { mid.db with receiverMutationGuards := next.db.receiverMutationGuards } }

theorem commit_clipboard_ok {observe : ClipboardStore → String → Result ClipboardObservation} {published : Result Unit}
    {request : PasteCommit} {result : Option Nat} (pasted : request.saved = some saved)
    (done : commitClipboard observe published fresh request store = .ok result next) :
    ∃ current mid generation, observe store request.expected.nodeName = .ok current ∧
      replaceClipboardNodeState fresh saved current request.expected.operationId store = .ok generation mid ∧
      result = some generation ∧ CommitEnded mid next := by
  simp only [commitClipboard, pasted, Lib.writer_bind_ok, Lib.inspect_ok, Lib.statement_ok, Lib.writer_pure_ok] at done
  obtain ⟨_, _, ⟨_, rfl⟩, _, _, ⟨_, rfl⟩, _, _, ⟨_, rfl⟩, current, _, ⟨observed, rfl⟩, _, _, ⟨_, rfl⟩,
    generation, mid, replaced, _, _, ⟨rfl, rfl⟩, _, _, ⟨_, rfl⟩, _, _, ⟨_, rfl⟩, _, _, receipt, _, _, guards, _, _, attempt, _, _,
    ⟨_, rfl⟩, _, _, ⟨_, rfl⟩, rfl, rfl⟩ := done
  refine ⟨current, _, generation, observed, replaced, rfl, ⟨?_⟩⟩
  simp only [finishClipboardReceipt, Lib.bind_ok, Lib.pure_ok] at receipt
  obtain ⟨_, _, rfl⟩ := receipt
  simp only [releaseClipboardGuards, Lib.bind_ok, Lib.pure_ok] at guards
  obtain ⟨_, _, rfl⟩ := guards
  simp only [finishClipboardAttempt, Lib.bind_ok, Lib.pure_ok] at attempt
  obtain ⟨_, _, rfl⟩ := attempt
  rfl

-- Clipboard paste: an accepted replacement leaves exactly the saved rows and a fresh generation, the commit
-- around it adds only the end of its attempt, and a refusal or an error at any point of the writer leaves
-- every row unchanged.
theorem clipboard_paste (store : ClipboardStore) (fresh : JobAddress → String) :
    (∀ saved current operationId,
      (∀ generation next,
        transaction (replaceClipboardNodeState fresh saved current operationId) store = .ok generation next →
          NodePasted saved generation store next) ∧
      ∀ error next, transaction (replaceClipboardNodeState fresh saved current operationId) store = .error error next →
        next = store) ∧
    ∀ observe published request,
      (∀ saved result next, request.saved = some saved →
        transaction (commitClipboard observe published fresh request) store = .ok result next →
          ∃ mid generation, result = some generation ∧ NodePasted saved generation store mid ∧ CommitEnded mid next) ∧
      ∀ error next, transaction (commitClipboard observe published fresh request) store = .error error next →
        next = store := by
  refine ⟨fun saved current operationId => ⟨fun generation next done => ?_, fun error next => Lib.transaction_error⟩,
    fun observe published request => ⟨fun saved result next pasted done => ?_, fun error next => Lib.transaction_error⟩⟩
  · exact replace_clipboard_node_state_ok (Lib.transaction_ok.mp done)
  · obtain ⟨_, mid, generation, _, replaced, named, ended⟩ := commit_clipboard_ok pasted (Lib.transaction_ok.mp done)
    exact ⟨mid, generation, named, replace_clipboard_node_state_ok replaced, ended⟩

end Paste

section OneNode

def splitNode : ClipboardStore where
  db := { oneNodeProject with
    nodes := oneNodeRows
    executionSessions := .empty
    sessionComponents := .empty
    componentReservations := .empty
    graphShapes := ⟨[⟨1, oneNodeShape⟩, ⟨2, ⟨["a", "b"], [("a", "b"), ("b", "a")], []⟩⟩], by decide⟩
    componentDefinitions := ⟨[⟨["a"], 1⟩, ⟨["a", "b"], 2⟩], by decide⟩
    componentStates := ⟨[⟨["a"], 1, none, none, .queued, none, none, false, 0⟩,
      ⟨["a", "b"], 2, none, none, .queued, none, none, false, 5⟩], by decide⟩ }
  eventIds := []
  defaultJobSpecs := .empty
  misalignmentCauses := .empty
  clipboardAttempts := .empty
  clipboardReceipts := .empty

def splitSnapshot : ClipboardObservation where
  projectId := "0000000000000000000000000000000f"
  node := "a"
  component := ["a"]
  data := {
    nodeRow := some ⟨"a", none⟩
    jobs := [oneNodeJob 1]
    instances := [⟨"a", 1, "00000000000000000000000000000001", none, none⟩]
    events := []
    idempotency := []
    defaultJobs := []
    sequence := none
    managedInputs := []
    managedProducers := []
    owners := []
    preparationReceipts := []
    preparationAttempts := []
    componentState := ⟨["a"], 1, none, none, .queued, none, none, false, 0⟩
    retainedResult := none
    misalignmentCauses := []
    peerWork := ⟨[], [], [], [], [], [], [], [], []⟩ }

def splitPaste : EStateM Error ClipboardStore Nat :=
  transaction (replaceClipboardNodeState (fun _ => "00000000000000000000000000000002") splitSnapshot splitSnapshot "o")

def pastedGeneration (writer : EStateM Error ClipboardStore Nat) (store : ClipboardStore) : Option Nat :=
  match writer store with
  | .ok generation _ => some generation
  | .error _ _ => none

theorem pasted_generation_some {writer : EStateM Error ClipboardStore Nat} {store : ClipboardStore} {generation : Nat}
    (pasted : pastedGeneration writer store = some generation) : ∃ next, writer store = .ok generation next := by
  unfold pastedGeneration at pasted
  split at pasted
  · rename_i found next ran
    exact ⟨next, Option.some.inj pasted ▸ ran⟩
  · exact absurd pasted (by simp)

-- A paste numbers below the generation an earlier component over its node reached.
theorem paste_below_earlier_component :
    validateClipboardSupport splitNode splitSnapshot splitSnapshot = .ok () ∧
      ∃ generation next, splitPaste splitNode = .ok generation next ∧
        ∃ earlier ∈ splitNode.db.componentStates.rows, splitSnapshot.node ∈ earlier.componentKey ∧
          (readComponentStateRecord splitNode.db earlier.componentKey false).isOk = true ∧
          generation < earlier.alignmentGeneration := by
  refine ⟨by decide, 1, ?_⟩
  obtain ⟨next, pasted⟩ := pasted_generation_some (show pastedGeneration splitPaste splitNode = some 1 by decide)
  exact ⟨next, pasted, ⟨["a", "b"], 2, none, none, .queued, none, none, false, 5⟩, by decide, by decide, by decide, by decide⟩

theorem clipboard_paste_one_node : ∃ next, NodePasted splitSnapshot 1 splitNode next := by
  obtain ⟨next, pasted⟩ := pasted_generation_some (show pastedGeneration splitPaste splitNode = some 1 by decide)
  exact ⟨next, ((clipboard_paste splitNode _).1 _ _ _).1 1 next pasted⟩

end OneNode

end MicroWorkflow
