import MicroWorkflow.ClaimVerdicts
import MicroWorkflow.Lib.Walk

set_option autoImplicit false

namespace MicroWorkflow

open Lib (require refuse orRaise each collect Table)

structure Unused (db : Database) (executionId : String) : Prop where
  owner : db.jobExecutionOwners.find executionId = none
  creator : ∀ owner ∈ db.jobExecutionOwners.rows, owner.createdByExecutionId ≠ some executionId
  last : ∀ identity ∈ db.jobInstances.rows, identity.lastExecutionId ≠ some executionId
  created : ∀ identity ∈ db.jobInstances.rows, identity.createdByExecutionId ≠ some executionId
  active : ∀ row ∈ db.jobs.rows, row.activeExecutionId ≠ some executionId
  event : ∀ event ∈ db.jobEvents, event.data.get "execution_id" ≠ .text executionId

def Accepted.Unused (claimed : Accepted) (db : Database) : Prop :=
  ∀ entry ∈ claimed, MicroWorkflow.Unused db entry.2.owner.executionId

def Accepted.Spares (claimed : Accepted) (place : JobAddress) : Prop :=
  ∀ entry ∈ claimed, claimedAddress entry ≠ place

variable {db mid : Database} {claimed : Accepted} {place : JobAddress} {row : Job}

section Frame

variable (written : ClaimsWritten db mid claimed)
include written

theorem ClaimsWritten.sessions : mid.executionSessions = db.executionSessions := by rw [written.others]
theorem ClaimsWritten.scopes : mid.sessionComponents = db.sessionComponents := by rw [written.others]
theorem ClaimsWritten.definitions : mid.componentDefinitions = db.componentDefinitions := by rw [written.others]
theorem ClaimsWritten.shapes : mid.graphShapes = db.graphShapes := by rw [written.others]
theorem ClaimsWritten.pending : mid.pendingComponentExecutions = db.pendingComponentExecutions := by rw [written.others]

theorem ClaimsWritten.parents (sessionId : String) : readSessionParentIds mid sessionId = readSessionParentIds db sessionId := by
  rw [written.others]
  rfl

theorem ClaimsWritten.blockers (sessionId : String) (component : Component) :
    readInterruptClaimBlockers mid sessionId component = readInterruptClaimBlockers db sessionId component := by
  rw [written.others]
  rfl

theorem ClaimsWritten.fences (sessionId : String) (component : Component) :
    readInterruptExecutionFences mid sessionId component = readInterruptExecutionFences db sessionId component := by
  rw [written.others]
  rfl

theorem ClaimsWritten.ownerRow (sessionId : String) (key : Component) :
    claimOwnerRow mid sessionId key = claimOwnerRow db sessionId key := by
  rw [written.others]
  rfl

theorem ClaimsWritten.activeComponent (node : String) :
    readActiveComponentForNode mid node = readActiveComponentForNode db node := by
  rw [written.others]
  rfl

theorem ClaimsWritten.overrideSession (probe : Probe) (sessionId : String) (allowTerminal : Bool) :
    overrideSession mid probe sessionId allowTerminal = MicroWorkflow.overrideSession db probe sessionId allowTerminal := by
  rw [written.others]
  rfl

theorem ClaimsWritten.reservation (probe : Probe) (node : String) :
    reservationForNode mid probe node = reservationForNode db probe node := by
  rw [written.others]
  rfl

theorem ClaimsWritten.nodeOverrides (probe : Probe) (node : String) :
    storedNodeOverrides mid probe node = storedNodeOverrides db probe node := by
  rw [written.others]
  rfl

theorem ClaimsWritten.producing (component : Component) :
    readComponentProducingIdentity mid component = readComponentProducingIdentity db component := by
  rw [written.others]
  rfl

theorem ClaimsWritten.jobRoots (sessionId : String) : readSessionJobRoots mid sessionId = readSessionJobRoots db sessionId := by
  rw [written.others]
  rfl

theorem ClaimsWritten.outcomes (sessionId : String) (outcomes : List ComponentTerminalOutcome) :
    validateComponentTerminalOutcomes mid sessionId outcomes = validateComponentTerminalOutcomes db sessionId outcomes := by
  rw [written.others]
  rfl

theorem ClaimsWritten.restartEvent (node : String) (jobId : Nat) :
    latestRestartEvent mid node jobId = latestRestartEvent db node jobId := by
  have silent : ((claimed.flatMap claimEvents).reverse.find? fun event =>
      event.nodeName = node && event.jobId = jobId && event.event = "restart_requested") = none := by
    rw [List.find?_eq_none]
    intro event member
    rw [List.mem_reverse, List.mem_flatMap] at member
    obtain ⟨entry, _, inside⟩ := member
    unfold claimEvents at inside
    dsimp only at inside
    split at inside
    · rcases List.mem_cons.mp inside with rfl | later
      · simp
      · rw [List.mem_singleton.mp later]
        simp
    · rw [List.mem_singleton.mp inside]
      simp
  unfold latestRestartEvent
  rw [written.events, List.reverse_append, List.find?_append, silent, Option.none_or]

theorem ClaimsWritten.rows : mid.jobs.rows =
    db.jobs.rows.map fun row => Table.rewritten claimedAddress claimUpdate claimed row.address row := by
  refine Table.rows_of_find written.order fun row member => ?_
  rw [written.jobs, Table.find_of_mem member, Option.map_some]

end Frame

theorem ClaimsWritten.row_cases (written : ClaimsWritten db mid claimed) (member : row ∈ mid.jobs.rows) :
    (row ∈ db.jobs.rows ∧ claimed.Spares row.address) ∨
      ∃ entry ∈ claimed, ∃ stored ∈ db.jobs.rows, stored.address = claimedAddress entry ∧ row = claimUpdate entry stored := by
  rw [written.rows] at member
  obtain ⟨stored, inside, rfl⟩ := List.mem_map.mp member
  rcases Table.rewritten_cases claimedAddress claimUpdate claimed stored.address stored with
    ⟨untouched, absent⟩ | ⟨entry, listed, at_, rewritten⟩
  · rw [untouched]
    exact .inl ⟨inside, absent⟩
  · rw [rewritten]
    exact .inr ⟨entry, listed, stored, inside, at_.symm, rfl⟩

theorem ClaimsWritten.spared_row (written : ClaimsWritten db mid claimed) (member : row ∈ db.jobs.rows)
    (spared : claimed.Spares row.address) : row ∈ mid.jobs.rows := by
  rw [written.rows]
  exact List.mem_map.mpr ⟨row, member, Table.rewritten_absent spared⟩

theorem ClaimsWritten.claimed_row (written : ClaimsWritten db mid claimed) {entry : ExecutionClaimBatch × ClaimedJob}
    (listed : entry ∈ claimed) (member : row ∈ db.jobs.rows) (here : row.address = claimedAddress entry) :
    claimUpdate entry row ∈ mid.jobs.rows := by
  rw [written.rows]
  refine List.mem_map.mpr ⟨row, member, ?_⟩
  rw [here]
  exact Table.rewritten_mem written.distinct listed

section Spared

variable (written : ClaimsWritten db mid claimed) (unused : claimed.Unused db)
include written

theorem ClaimsWritten.spared_job (spared : claimed.Spares place) : mid.jobs.find place = db.jobs.find place := by
  rw [written.jobs, Table.rewritten_absent_fun spared, Option.map_id_fun, id]

theorem ClaimsWritten.spared_instance (spared : claimed.Spares place) :
    mid.jobInstances.find place = db.jobInstances.find place := by
  rw [written.instances, Table.rewritten_absent_fun spared, Option.map_id_fun, id]

theorem ClaimsWritten.old_owner {executionId : String} (old : ∀ entry ∈ claimed, entry.2.owner.executionId ≠ executionId) :
    mid.jobExecutionOwners.find executionId = db.jobExecutionOwners.find executionId := by
  have absent : (claimed.map fun entry => entry.2.owner).find? (fun owner => owner.executionId = executionId) = none := by
    rw [List.find?_eq_none]
    intro owner member
    obtain ⟨entry, listed, rfl⟩ := List.mem_map.mp member
    simpa using old entry listed
  rw [Table.find_insertAll written.owners, absent, Option.none_or]

theorem ClaimsWritten.creator {creator : Option String}
    (old : ∀ entry ∈ claimed, creator ≠ some entry.2.owner.executionId) :
    creatorRecorded mid creator = creatorRecorded db creator := by
  cases creator with
  | none => rfl
  | some creator =>
      have apart : ∀ entry ∈ claimed, entry.2.owner.executionId ≠ creator := fun entry listed same =>
        old entry listed (same ▸ rfl)
      simp only [creatorRecorded, Table.contains, written.old_owner apart]

include unused

theorem ClaimsWritten.owner_from_row {owner : ExecutionOwner} (member : owner ∈ db.jobExecutionOwners.rows) :
    executionOwnerFromRow mid owner = executionOwnerFromRow db owner := by
  unfold executionOwnerFromRow
  simp only [written.sessions, written.scopes, written.definitions, written.shapes,
    written.creator fun entry listed => (unused entry listed).creator owner member]

theorem ClaimsWritten.execution_owner {executionId : String}
    (old : ∀ entry ∈ claimed, entry.2.owner.executionId ≠ executionId) :
    readExecutionOwner mid executionId = readExecutionOwner db executionId := by
  unfold readExecutionOwner
  rw [written.old_owner old]
  cases found : db.jobExecutionOwners.find executionId with
  | none => rfl
  | some owner => simp only [written.owner_from_row unused (Table.find_mem found)]

theorem ClaimsWritten.spared_observation (member : row ∈ db.jobs.rows) (spared : claimed.Spares row.address) :
    jobOwnerObservationFromRow mid row = jobOwnerObservationFromRow db row := by
  unfold jobOwnerObservationFromRow
  rw [written.spared_instance spared]
  cases found : db.jobInstances.find row.address with
  | none => rfl
  | some identity =>
      have instanceMember := Table.find_mem found
      have current : ∀ executionId, row.activeExecutionId.or identity.lastExecutionId = some executionId →
          mid.jobExecutionOwners.find executionId = db.jobExecutionOwners.find executionId := by
        intro executionId named
        refine written.old_owner fun entry listed same => ?_
        cases active : row.activeExecutionId with
        | some other =>
            rw [active, Option.some_or, Option.some.injEq] at named
            exact (unused entry listed).active row member (by rw [active, named, same])
        | none =>
            rw [active, Option.none_or] at named
            exact (unused entry listed).last identity instanceMember (by rw [named, same])
      rw [Lib.orRaise_some_bind, Lib.orRaise_some_bind,
        written.creator fun entry listed => (unused entry listed).created identity instanceMember]
      dsimp only
      cases executing : row.activeExecutionId.or identity.lastExecutionId with
      | none => rfl
      | some executionId =>
          dsimp only
          rw [current executionId executing]
          cases owned : db.jobExecutionOwners.find executionId with
          | none => rfl
          | some owner =>
              rw [Lib.orRaise_some_bind, Lib.orRaise_some_bind]
              simp only [written.sessions, written.scopes, written.parents,
                written.owner_from_row unused (Table.find_mem owned)]

theorem ClaimsWritten.spared_read {node : String} {jobId : Nat} (spared : claimed.Spares (node, jobId)) :
    readJobOwnerObservation mid node jobId = readJobOwnerObservation db node jobId := by
  unfold readJobOwnerObservation
  rw [written.spared_job spared]
  cases found : db.jobs.find (node, jobId) with
  | none => rfl
  | some row =>
      have here : row.address = (node, jobId) := Table.find_key found
      simp only [written.spared_observation unused (Table.find_mem found) (here ▸ spared)]

theorem ClaimsWritten.spared_restart {node : String} {jobId : Nat} (spared : claimed.Spares (node, jobId))
    (sessionId : String) (component : Component) :
    readOwnedRestart mid node jobId sessionId component = readOwnedRestart db node jobId sessionId component := by
  unfold readOwnedRestart
  rw [written.spared_read unused spared, written.spared_job spared, written.restartEvent]

theorem ClaimsWritten.claimed_restart (observed : JobOwnerObservation) (owner : ExecutionOwner) :
    isClaimedComponentRestart mid observed owner = isClaimedComponentRestart db observed owner := by
  unfold isClaimedComponentRestart
  rw [written.restartEvent]
  cases found : latestRestartEvent db owner.nodeName owner.jobId with
  | none => rfl
  | some event =>
      have member : event ∈ db.jobEvents := List.mem_reverse.mp (List.mem_of_find?_eq_some found)
      have requested : requestedExecution mid event = requestedExecution db event := by
        unfold requestedExecution
        cases named : event.data.get "execution_id" with
        | text executionId =>
            have old : ∀ entry ∈ claimed, entry.2.owner.executionId ≠ executionId := fun entry listed same =>
              (unused entry listed).event event member (same ▸ named)
            exact written.execution_owner unused old
        | null => rfl
        | int number => rfl
        | list items => rfl
        | json encoded => rfl
      simp only [requested]

end Spared

theorem read_execution_owner_some {executionId : String} {owner : ExecutionOwner}
    (read : readExecutionOwner db executionId = .ok (some owner)) :
    db.jobExecutionOwners.find executionId = some owner := by
  unfold readExecutionOwner at read
  split at read
  · exact absurd read (by simp)
  · rename_i stored found
    simp only [Lib.bind_ok, Lib.pure_ok, Option.some.injEq] at read
    obtain ⟨checked, valid, rfl⟩ := read
    simp only [executionOwnerFromRow, Lib.bind_ok, Lib.pure_ok] at valid
    obtain ⟨_, _, _, _, _, _, _, _, _, _, _, _, _, _, rfl⟩ := valid
    exact found

section SelectedRoots

variable {roots : List JobRoot} {sessionId : String} {component : Component} {identity : Nat × Nat}

def creatorOnward (db : Database) (roots : List JobRoot) (sessionId : String) (component : Component)
    (identity : Nat × Nat) (creator : String) : Result (Lib.Onward String) := do
  let owner ← orRaise (← readExecutionOwner db creator) (.runtime "Missing selected job creation ancestry")
  if owner.sessionId != sessionId || owner.componentKey != component
      || (owner.shapeId, owner.alignmentGeneration) != identity then return .stop false
  if (owner.nodeName, owner.jobId, owner.jobInstanceId) ∈ roots then return .stop true
  return .next owner.createdByExecutionId

theorem descends_walk {fuel : Nat} {visited : List String} {creator : Option String} :
    jobDescendsFromSelectedRoot db roots sessionId component identity fuel visited creator =
      Lib.walk (creatorOnward db roots sessionId component identity)
        (.runtime "Cyclic selected job creation ancestry") fuel visited creator := by
  induction fuel generalizing visited creator with
  | zero => cases creator <;> rfl
  | succ fuel ih =>
      cases creator with
      | none => rfl
      | some creator =>
          by_cases seen : creator ∈ visited
          · rw [Lib.walk_seen seen]
            simp only [jobDescendsFromSelectedRoot, seen, decide_true, refuse, if_true, bind, Except.bind]
          rw [Lib.walk_unseen seen]
          simp only [jobDescendsFromSelectedRoot, creatorOnward, seen, decide_false, refuse, Bool.false_eq_true, if_false]
          cases readExecutionOwner db creator with
          | error error => rfl
          | ok found =>
              cases found with
              | none => rfl
              | some owner =>
                  simp only [orRaise, bind, Except.bind, pure, Except.pure]
                  split
                  · rfl
                  · split
                    · rfl
                    · exact ih

def recordedExecutions (db : Database) : List String := db.jobExecutionOwners.rows.map ExecutionOwner.executionId

theorem creator_recorded {creator : String} {onward : Lib.Onward String}
    (looked : creatorOnward db roots sessionId component identity creator = .ok onward) :
    creator ∈ recordedExecutions db := by
  obtain ⟨found, read, rest⟩ := Lib.bind_ok.mp looked
  obtain ⟨owner, present, _⟩ := Lib.bind_ok.mp rest
  rw [Lib.orRaise_ok] at present
  subst present
  have here := read_execution_owner_some read
  exact Table.find_key here ▸ List.mem_map_of_mem (Table.find_mem here)

theorem descends_fuel {fuel extra : Nat} {visited : List String} {creator : Option String}
    (distinct : visited.Nodup) (known : ∀ seen ∈ visited, seen ∈ recordedExecutions db)
    (enough : db.jobExecutionOwners.rows.length + 1 ≤ fuel + visited.length) :
    jobDescendsFromSelectedRoot db roots sessionId component identity (fuel + extra) visited creator =
      jobDescendsFromSelectedRoot db roots sessionId component identity fuel visited creator := by
  rw [descends_walk, descends_walk]
  exact Lib.walk_fuel (fun _ _ looked => creator_recorded looked) distinct known
    (by simpa only [recordedExecutions, List.length_map] using enough)

variable (written : ClaimsWritten db mid claimed) (unused : claimed.Unused db)
include written unused

theorem ClaimsWritten.descends {fuel : Nat} {visited : List String} {creator : Option String}
    (old : ∀ entry ∈ claimed, creator ≠ some entry.2.owner.executionId) :
    jobDescendsFromSelectedRoot mid roots sessionId component identity fuel visited creator =
      jobDescendsFromSelectedRoot db roots sessionId component identity fuel visited creator := by
  induction fuel generalizing visited creator with
  | zero => cases creator <;> rfl
  | succ fuel ih =>
      cases creator with
      | none => rfl
      | some creator =>
          have apart : ∀ entry ∈ claimed, entry.2.owner.executionId ≠ creator := fun entry listed same =>
            old entry listed (same ▸ rfl)
          simp only [jobDescendsFromSelectedRoot, written.execution_owner unused apart]
          cases read : readExecutionOwner db creator with
          | error error => simp only [bind, Except.bind]
          | ok found =>
              cases found with
              | none => simp only [orRaise, bind, Except.bind]
              | some owner =>
                  have member := Table.find_mem (read_execution_owner_some read)
                  have next := @ih (creator :: visited) owner.createdByExecutionId fun entry listed =>
                    (unused entry listed).creator owner member
                  simp only [orRaise, bind, Except.bind, next]

end SelectedRoots

end MicroWorkflow
