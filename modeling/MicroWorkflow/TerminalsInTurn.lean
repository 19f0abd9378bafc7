import MicroWorkflow.Terminal

set_option autoImplicit false

namespace MicroWorkflow

open Lib (require refuse orRaise Table)

def terminalsInTurn (db : Database) (eventTime : Timestamp) : List TerminalUpdate → Result (List TerminalOutcome × Database)
  | [] => .ok ([], db)
  | update :: rest => do
      let (first, mid) ← applyTerminalUpdates db eventTime [update]
      let (later, last) ← terminalsInTurn mid eventTime rest
      return (first ++ later, last)

def ActiveIsLast (db : Database) (row : Job) : Prop :=
  ∀ executionId, row.activeExecutionId = some executionId →
    (∀ identity, db.jobInstances.find row.address = some identity → identity.lastExecutionId = some executionId) ∧
    ∀ owner, db.jobExecutionOwners.find executionId = some owner → owner.generation = row.generation

structure JobEventAppend where
  nodeName : String
  jobId : Nat
  eventTime : Timestamp
  event : String
  data : Details
  generation : Option Nat
  executionId : Option String
  allowTerminalOwner : Bool
deriving DecidableEq, Repr

def JobEventAppend.address (append : JobEventAppend) : JobAddress := (append.nodeName, append.jobId)

def appendRestartError (append : JobEventAppend) : Error :=
  .jobRestarted ("Job " ++ MicroWorkflow.address append.nodeName append.jobId ++ " generation " ++
    (append.generation.elim "None" toString) ++ " was restarted")

def appendOwnerIsCurrent (db : Database) (append : JobEventAppend) : Bool :=
  match db.jobs.find append.address with
  | none => false
  | some row => some row.generation == append.generation && row.activeExecutionId == append.executionId

def appendOwnerEndedJob (db : Database) (append : JobEventAppend) (executionId : String) : Bool :=
  match db.jobs.find append.address with
  | none => false
  | some row => some row.generation == append.generation && row.status.terminal
      && row.statusJson.get "execution_id" == .text executionId

def appendIsValid (db : Database) (append : JobEventAppend) : Bool :=
  match append.executionId with
  | none => true
  | some executionId => appendOwnerIsCurrent db append
      || (append.allowTerminalOwner && append.event == "timeout" && appendOwnerEndedJob db append executionId)

def appendedEvent (append : JobEventAppend) : JobEvent :=
  ⟨append.nodeName, append.jobId, append.eventTime, append.event, append.data⟩

def appendOutcome (db : Database) (append : JobEventAppend) : Option Error :=
  if appendIsValid db append then none else some (appendRestartError append)

def applyJobEventAppends (db : Database) (appends : List JobEventAppend) : List (Option Error) × Database :=
  (appends.map (appendOutcome db),
    { db with jobEvents := db.jobEvents ++ (appends.filter (appendIsValid db)).map appendedEvent })

def appendsInTurn (db : Database) : List JobEventAppend → List (Option Error) × Database
  | [] => ([], db)
  | append :: rest =>
      let first := applyJobEventAppends db [append]
      let later := appendsInTurn first.2 rest
      (first.1 ++ later.1, later.2)

section Appends

variable {db : Database}

theorem append_fence_same (events : List JobEvent) (append : JobEventAppend) :
    appendIsValid { db with jobEvents := events } append = appendIsValid db append := rfl

theorem job_event_appends_in_turn (appends : List JobEventAppend) :
    appendsInTurn db appends = applyJobEventAppends db appends := by
  induction appends generalizing db with
  | nil =>
      have same := congrArg (fun events => ({ db with jobEvents := events } : Database)) (List.append_nil db.jobEvents)
      exact Prod.ext rfl same.symm
  | cons append rest ih =>
      rw [appendsInTurn, ih]
      have outcomes : (applyJobEventAppends db [append]).1 ++
          (applyJobEventAppends (applyJobEventAppends db [append]).2 rest).1 = (append :: rest).map (appendOutcome db) := rfl
      have events : (applyJobEventAppends (applyJobEventAppends db [append]).2 rest).2 =
          (applyJobEventAppends db (append :: rest)).2 := by
        have fences : ∀ later : JobEventAppend, appendIsValid (applyJobEventAppends db [append]).2 later =
            appendIsValid db later := fun later => append_fence_same _ later
        have written : (applyJobEventAppends (applyJobEventAppends db [append]).2 rest).2.jobEvents =
            (applyJobEventAppends db (append :: rest)).2.jobEvents := by
          change (db.jobEvents ++ ([append].filter (appendIsValid db)).map appendedEvent) ++
            (rest.filter (appendIsValid (applyJobEventAppends db [append]).2)).map appendedEvent =
              db.jobEvents ++ ((append :: rest).filter (appendIsValid db)).map appendedEvent
          rw [List.append_assoc, ← List.map_append, funext fences, ← List.filter_append]
          rfl
        exact congrArg (fun events => ({ db with jobEvents := events } : Database)) written
      exact Prod.ext outcomes events

end Appends

section Owners

variable {db : Database} {row : Job} {update : TerminalUpdate} {expected : TerminalOwnerExpectation} {α β : Type}

def Caught (result : Result α) : Prop := ∀ error, result = .error error → error.runtimeOrValue = true

theorem Caught.ok (value : α) : Caught (.ok value : Result α) := nofun

theorem Caught.require {condition : Bool} {error : Error} (caught : error.runtimeOrValue = true) :
    Caught (require condition error) := by
  intro other failed
  cases condition with
  | true => cases failed
  | false =>
      cases failed
      exact caught

theorem Caught.refuse {condition : Bool} {error : Error} (caught : error.runtimeOrValue = true) :
    Caught (refuse condition error) := by
  intro other failed
  cases condition with
  | false => cases failed
  | true =>
      cases failed
      exact caught

theorem Caught.orRaise {value : Option α} {error : Error} (caught : error.runtimeOrValue = true) :
    Caught (orRaise value error) := by
  intro other failed
  cases value with
  | some found => cases failed
  | none =>
      cases failed
      exact caught

theorem Caught.bind {result : Result α} {next : α → Result β} (first : Caught result)
    (later : ∀ value, result = .ok value → Caught (next value)) : Caught (result >>= next) := by
  intro error failed
  cases here : result with
  | error other =>
      rw [here] at failed
      cases failed
      exact first error here
  | ok value =>
      rw [here] at failed
      exact later value here error failed

theorem snapshot_or_caught {shape : Shape} {error : Error} (caught : error.runtimeOrValue = true) :
    Caught (snapshotOr shape error) := by
  intro other failed
  unfold snapshotOr at failed
  split at failed
  · cases failed
  · cases failed
    exact caught

theorem execution_owner_caught (owner : ExecutionOwner) : Caught (executionOwnerFromRow db owner) := by
  unfold executionOwnerFromRow
  refine .bind (.require rfl) fun _ _ => .bind (.require rfl) fun _ _ => .bind (.require rfl) fun _ _ => ?_
  refine .bind (.orRaise rfl) fun shape _ => .bind (snapshot_or_caught rfl) fun snapshot _ => ?_
  exact .bind (.require rfl) fun _ _ => .bind (.require rfl) fun _ _ => .ok owner

theorem observation_caught : Caught (jobOwnerObservationFromRow db row) := by
  unfold jobOwnerObservationFromRow
  refine .bind (.orRaise rfl) fun identity _ => .bind (.require rfl) fun _ _ => .bind (.require rfl) fun _ _ => ?_
  refine .bind (.refuse rfl) fun _ _ => ?_
  cases row.activeExecutionId.or identity.lastExecutionId with
  | none => exact .ok _
  | some executionId =>
      refine .bind (.orRaise rfl) fun owner _ => .bind (.orRaise rfl) fun session _ => .bind (.require rfl) fun _ _ => ?_
      exact .bind (.require rfl) fun _ _ => .bind (execution_owner_caught owner) fun _ _ => .ok _

def checkTerminalOwner (db : Database) (update : TerminalUpdate) (expected : TerminalOwnerExpectation)
    (owned : Option ExecutionOwner × Option OwnerSession) : Result Unit :=
  let changed := Error.runtime ("Execution ownership changed during terminal cleanup for " ++
    MicroWorkflow.address update.nodeName update.jobId)
  match owned.1, owned.2 with
  | some owner, some session =>
      require (owner.executionId == update.executionId && owner.generation == update.generation
          && owner.jobInstanceId == expected.jobInstanceId && owner.sessionId == expected.sessionId
          && owner.componentKey == expected.component && session.row.status == .running
          && reservationOwner db (encodeComponentKey expected.component) == some expected.sessionId) changed
  | _, _ => throw changed

def observedOwner (db : Database) (row : Job) : Result (Option ExecutionOwner × Option OwnerSession) :=
  (jobOwnerObservationFromRow db row).map fun observed => (observed.owner, observed.session)

theorem validate_terminal_owner (found : db.jobs.find update.address = some row) :
    validateTerminalOwner db update expected = observedOwner db row >>= checkTerminalOwner db update expected := by
  have here : db.jobs.find (update.nodeName, update.jobId) = some row := found
  unfold validateTerminalOwner readJobOwnerObservation observedOwner
  rw [here]
  dsimp only
  cases jobOwnerObservationFromRow db row with
  | error error => rfl
  | ok observed =>
      dsimp only [bind, Except.bind, pure, Except.pure, orRaise, Except.map]
      unfold checkTerminalOwner
      cases observed.owner with
      | none => rfl
      | some owner =>
          cases observed.session with
          | none => rfl
          | some session => rfl

theorem owner_refusal_total (found : db.jobs.find update.address = some row) :
    ∃ refusal, ownerRefusal db update = .ok refusal := by
  unfold ownerRefusal
  cases update.expectedOwner with
  | none => exact ⟨none, rfl⟩
  | some expected =>
      dsimp only
      have caught : Caught (validateTerminalOwner db update expected) := by
        rw [validate_terminal_owner found]
        refine .bind ?_ fun owned _ => ?_
        · intro error failed
          unfold observedOwner at failed
          cases seen : jobOwnerObservationFromRow db row with
          | error other =>
              rw [seen] at failed
              cases failed
              exact observation_caught error seen
          | ok observed =>
              rw [seen] at failed
              cases failed
        · unfold checkTerminalOwner
          dsimp only
          split
          · exact .require rfl
          · intro error failed
            cases failed
            rfl
      cases checked : validateTerminalOwner db update expected with
      | ok _ => exact ⟨none, rfl⟩
      | error error =>
          dsimp only
          rw [if_pos (caught error checked)]
          exact ⟨some error, rfl⟩

theorem bind_same {result : Result α} {left right : α → Result β}
    (same : ∀ value, result = .ok value → left value = right value) :
    (result >>= left) = (result >>= right) := by
  cases here : result with
  | error error => rfl
  | ok value => exact same value here

theorem observed_owner_ended {executionId : String} (last : ActiveIsLast db row)
    (active : row.activeExecutionId = some executionId) (entry : TerminalUpdate × JobStatus) :
    observedOwner db (terminalUpdateRow entry row) = observedOwner db row := by
  obtain ⟨recorded, generation⟩ := last executionId active
  have ended : (terminalUpdateRow entry row).activeExecutionId = none := rfl
  unfold observedOwner jobOwnerObservationFromRow
  dsimp only
  rw [ended, active]
  simp only [Lib.map_bind]
  refine bind_same fun identity found => bind_same fun _ _ => bind_same fun _ _ => ?_
  rw [Lib.orRaise_ok] at found
  have lastly := recorded identity found
  rw [lastly]
  have quiet : ((none : Option String).isSome && (none : Option String) != some executionId) = false := rfl
  have agrees : ((some executionId).isSome && some executionId != some executionId) = false := by simp
  rw [quiet, agrees]
  refine bind_same fun _ _ => ?_
  dsimp only [Option.or]
  simp only [Lib.map_bind]
  refine bind_same fun owner taken => bind_same fun session _ => ?_
  rw [Lib.orRaise_ok] at taken
  have before : ((some executionId).isNone || owner.generation == row.generation) = true := by
    rw [generation owner taken]
    exact beq_self_eq_true row.generation
  have after : ((none : Option String).isNone || owner.generation == (terminalUpdateRow entry row).generation) = true := rfl
  rw [before, after]
  rfl

end Owners

section Terminals

variable {db mid : Database} {eventTime : Timestamp} {updates : List TerminalUpdate} {group next : TerminalGroup}
  {update : TerminalUpdate}

def groupWritten (db : Database) (eventTime : Timestamp) (accepted : List (TerminalUpdate × JobStatus)) : Database :=
  { db with
    jobs := (db.jobs.updateEach (fun entry => terminalStatusGuard entry.1) terminalUpdateRow accepted
      terminal_row_address).1
    jobEvents := db.jobEvents ++ accepted.map (terminalEvent eventTime) }

theorem group_written_snoc (accepted : List (TerminalUpdate × JobStatus)) (entry : TerminalUpdate × JobStatus) :
    groupWritten (groupWritten db eventTime accepted) eventTime [entry] = groupWritten db eventTime (accepted ++ [entry]) := by
  unfold groupWritten
  dsimp only
  rw [Table.updateEach_append, List.map_append, List.append_assoc]

theorem group_written_find (tracks : group.Tracks db updates) (place : JobAddress) :
    (groupWritten db eventTime group.accepted).jobs.find place =
      (db.jobs.find place).map (Table.rewritten acceptedAddress terminalUpdateRow group.accepted place) := by
  have met : ∀ entry ∈ group.accepted, ∃ row, db.jobs.find (acceptedAddress entry) = some row ∧
      terminalStatusGuard entry.1 row = true := by
    intro entry member
    obtain ⟨_, row, found, guarded, _⟩ := tracks.current entry member
    exact ⟨row, found, guarded⟩
  have addressed : ∀ (entry : TerminalUpdate × JobStatus) (row : Job), terminalStatusGuard entry.1 row = true →
      row.address = acceptedAddress entry := fun _ _ => terminal_guard_address
  exact Table.find_updateEach_met addressed tracks.distinct met place

theorem owner_refusal_in_turn {row : Job} (tracks : group.Tracks db updates) (found : db.jobs.find update.address = some row)
    (last : update.expectedOwner.isSome = true → ActiveIsLast db row) :
    ownerRefusal (groupWritten db eventTime group.accepted) update = ownerRefusal db update := by
  cases expectation : update.expectedOwner with
  | none => rw [ownerRefusal, ownerRefusal, expectation]
  | some expected =>
      have now := @group_written_find db eventTime updates group tracks update.address
      rw [found, Option.map_some] at now
      have same : observedOwner (groupWritten db eventTime group.accepted)
          (Table.rewritten acceptedAddress terminalUpdateRow group.accepted update.address row) = observedOwner db row := by
        rcases Table.rewritten_cases acceptedAddress terminalUpdateRow group.accepted update.address row with
          ⟨untouched, _⟩ | ⟨entry, member, here, ended⟩
        · rw [untouched]
          rfl
        · obtain ⟨_, stored, there, guarded, _⟩ := tracks.current entry member
          have placed : entry.1.address = update.address := here
          rw [placed, found] at there
          obtain rfl := Option.some.inj there
          simp only [terminalStatusGuard, Bool.and_eq_true, decide_eq_true_eq] at guarded
          rw [ended]
          exact observed_owner_ended (last (by rw [expectation]; rfl)) guarded.2 entry
      have checked : validateTerminalOwner (groupWritten db eventTime group.accepted) update expected =
          validateTerminalOwner db update expected := by
        rw [validate_terminal_owner now, validate_terminal_owner found, same]
        rfl
      rw [ownerRefusal, ownerRefusal, expectation]
      dsimp only
      rw [checked]

theorem terminal_decision_in_turn (tracks : group.Tracks db updates)
    (last : update.expectedOwner.isSome = true → ∀ row, db.jobs.find update.address = some row → ActiveIsLast db row) :
    terminalDecision (groupWritten db eventTime group.accepted) (groupWritten db eventTime group.accepted).jobs update =
      terminalDecision db group.rows update ∧ ∃ decision, terminalDecision db group.rows update = .ok decision := by
  have now := @group_written_find db eventTime updates group tracks update.address
  have cached := tracks.rows update.address
  unfold terminalDecision
  rw [now, cached]
  cases found : db.jobs.find update.address with
  | none => exact ⟨rfl, _, rfl⟩
  | some row =>
      have refusal := @owner_refusal_in_turn db eventTime updates group update row tracks found
        fun expects => last expects row found
      obtain ⟨answer, total⟩ := owner_refusal_total found
      rw [Option.map_some, Option.map_some, refusal, total]
      have fields : (Table.rewritten acceptedAddress terminalUpdateRow group.accepted update.address row).generation =
            (Table.rewritten acceptedAddress cachedTerminalRow group.accepted update.address row).generation ∧
          (Table.rewritten acceptedAddress terminalUpdateRow group.accepted update.address row).activeExecutionId =
            (Table.rewritten acceptedAddress cachedTerminalRow group.accepted update.address row).activeExecutionId ∧
          (Table.rewritten acceptedAddress terminalUpdateRow group.accepted update.address row).status =
            (Table.rewritten acceptedAddress cachedTerminalRow group.accepted update.address row).status := by
        unfold Table.rewritten
        cases group.accepted.find? fun entry => acceptedAddress entry = update.address with
        | none => exact ⟨rfl, rfl, rfl⟩
        | some entry => exact ⟨rfl, rfl, rfl⟩
      obtain ⟨generation, active, status⟩ := fields
      dsimp only
      rw [generation, active, status]
      refine ⟨rfl, ?_⟩
      split
      · exact ⟨_, rfl⟩
      split
      · exact ⟨_, rfl⟩
      cases answer with
      | some error => exact ⟨_, rfl⟩
      | none =>
          dsimp only [bind, Except.bind]
          split
          · exact ⟨_, rfl⟩
          · exact ⟨_, rfl⟩

def decidedAlone (db : Database) (eventTime : Timestamp) (update : TerminalUpdate) :
    TerminalDecision → List TerminalOutcome × Database
  | .answer outcome => ([outcome], db)
  | .accept previous => ([.settled], groupWritten db eventTime [(update, previous)])

theorem apply_terminal_one {decision : TerminalDecision} (decided : terminalDecision db db.jobs update = .ok decision) :
    applyTerminalUpdates db eventTime [update] = .ok (decidedAlone db eventTime update decision) := by
  have first : terminalDecision db (⟨db.jobs, [], []⟩ : TerminalGroup).rows update = .ok decision := decided
  unfold applyTerminalUpdates
  rw [Lib.thread, terminalStep, first]
  cases decision with
  | answer outcome =>
      have unchanged : groupWritten db eventTime [] = db := by
        have events := List.append_nil db.jobEvents
        exact congrArg (fun events => ({ db with jobEvents := events } : Database)) events
      exact congrArg (fun written => Except.ok ([outcome], written)) unchanged
  | accept previous => rfl

theorem terminal_group_in_turn {rest : List TerminalUpdate} (tracks : group.Tracks db updates)
    (inside : ∀ update ∈ rest, update ∈ updates)
    (last : ∀ update ∈ updates, update.expectedOwner.isSome = true →
      ∀ row, db.jobs.find update.address = some row → ActiveIsLast db row) :
    ∃ final later, Lib.thread (terminalStep db) group rest = .ok final ∧ final.outcomes = group.outcomes ++ later ∧
      terminalsInTurn (groupWritten db eventTime group.accepted) eventTime rest =
        .ok (later, groupWritten db eventTime final.accepted) := by
  induction rest generalizing group with
  | nil => exact ⟨group, [], rfl, (List.append_nil _).symm, rfl⟩
  | cons update rest ih =>
      have member := inside update List.mem_cons_self
      have others : ∀ update ∈ rest, update ∈ updates := fun other later => inside other (List.mem_cons_of_mem _ later)
      obtain ⟨same, decision, decided⟩ := @terminal_decision_in_turn db eventTime updates group update tracks (last update member)
      have alone := @apply_terminal_one _ eventTime update decision (same.trans decided)
      cases decision with
      | answer outcome =>
          have step : terminalStep db group update = .ok (group.answer outcome) := by
            rw [terminalStep, decided]
            rfl
          obtain ⟨final, later, threaded, outcomes, turned⟩ := ih (tracks.step member step) others
          have turned : terminalsInTurn (groupWritten db eventTime group.accepted) eventTime rest =
              .ok (later, groupWritten db eventTime final.accepted) := turned
          refine ⟨final, outcome :: later, ?_, ?_, ?_⟩
          · rw [Lib.thread_cons, step]
            exact threaded
          · rw [outcomes]
            exact List.append_assoc group.outcomes [outcome] later
          · rw [terminalsInTurn, alone]
            dsimp only [bind, Except.bind, decidedAlone]
            rw [turned]
            rfl
      | accept previous =>
          have step : terminalStep db group update = .ok (group.accept update previous) := by
            rw [terminalStep, decided]
            rfl
          obtain ⟨final, later, threaded, outcomes, turned⟩ := ih (tracks.step member step) others
          have turned : terminalsInTurn (groupWritten db eventTime (group.accepted ++ [(update, previous)])) eventTime rest =
              .ok (later, groupWritten db eventTime final.accepted) := turned
          refine ⟨final, .settled :: later, ?_, ?_, ?_⟩
          · rw [Lib.thread_cons, step]
            exact threaded
          · rw [outcomes]
            exact List.append_assoc group.outcomes [.settled] later
          · rw [terminalsInTurn, alone]
            dsimp only [bind, Except.bind, decidedAlone]
            rw [group_written_snoc, turned]
            rfl

end Terminals

theorem grouped_terminals_in_turn (db : Database) (eventTime : Timestamp) (updates : List TerminalUpdate)
    (appends : List JobEventAppend)
    (last : ∀ update ∈ updates, update.expectedOwner.isSome = true →
      ∀ row, db.jobs.find update.address = some row → ActiveIsLast db row) :
    (∃ outcomes after, applyTerminalUpdates db eventTime updates = .ok (outcomes, after) ∧
      terminalsInTurn db eventTime updates = .ok (outcomes, after)) ∧
    applyJobEventAppends db appends = appendsInTurn db appends := by
  refine ⟨?_, (job_event_appends_in_turn appends).symm⟩
  have unchanged : groupWritten db eventTime [] = db :=
    congrArg (fun events => ({ db with jobEvents := events } : Database)) (List.append_nil db.jobEvents)
  obtain ⟨final, later, threaded, outcomes, turned⟩ := @terminal_group_in_turn db eventTime updates _ updates
    terminal_group_initial (fun _ member => member) last
  have turned : terminalsInTurn (groupWritten db eventTime []) eventTime updates =
      .ok (later, groupWritten db eventTime final.accepted) := turned
  rw [unchanged] at turned
  refine ⟨later, groupWritten db eventTime final.accepted, ?_, turned⟩
  unfold applyTerminalUpdates
  rw [threaded]
  exact congrArg (fun answers => Except.ok (answers, groupWritten db eventTime final.accepted)) outcomes

section OneNode

def oneNodeExecution (executionId : String) : ExecutionOwner :=
  ⟨executionId, "a", 1, "00000000000000000000000000000001", 0, "s", ["a"], 1, 0, none⟩

def oneNodeRunning (last : String) : Database := { oneNodeProject with
  jobs := ⟨[{ oneNodeJob 1 with status := .running, activeExecutionId := some "e1" }], by decide⟩
  jobInstances := ⟨[⟨"a", 1, "00000000000000000000000000000001", some last, none⟩], by simp [JobInstance.address]⟩
  jobExecutionOwners := ⟨[oneNodeExecution "e1", oneNodeExecution "e2"], by decide⟩ }

def oneNodeEnding (executionId : String) (expected : Option TerminalOwnerExpectation) : TerminalUpdate :=
  ⟨"a", 1, 0, executionId, .done, [("execution_id", .text executionId)], expected⟩

def oneNodeExpectation : TerminalOwnerExpectation := ⟨"s", ["a"], "00000000000000000000000000000001"⟩

theorem grouped_terminals_one_node :
    ∃ outcomes after,
      applyTerminalUpdates (oneNodeRunning "e1") 1 [oneNodeEnding "e1" none, oneNodeEnding "e1" oneNodeExpectation] =
        .ok (outcomes, after) ∧
      terminalsInTurn (oneNodeRunning "e1") 1 [oneNodeEnding "e1" none, oneNodeEnding "e1" oneNodeExpectation] =
        .ok (outcomes, after) := by
  refine (grouped_terminals_in_turn (oneNodeRunning "e1") 1 _ [] fun update member _ row found => ?_).1
  have place : update.address = ("a", 1) := by
    rcases List.mem_pair.mp member with rfl | rfl
    · rfl
    · rfl
  rw [place] at found
  cases found
  intro executionId active
  cases active
  refine ⟨fun identity here => ?_, fun owner here => ?_⟩
  · cases here
    rfl
  · cases here
    rfl

-- An owner check of a job whose active execution is not its last one: the group refuses what the turn
-- settles.
theorem unrecorded_active_execution_refused :
    (applyTerminalUpdates (oneNodeRunning "e2") 1 [oneNodeEnding "e1" none, oneNodeEnding "e2" oneNodeExpectation]).map Prod.fst =
        .ok [.settled, .refused (.runtime "Ambiguous current execution ownership for a/1")] ∧
      (terminalsInTurn (oneNodeRunning "e2") 1 [oneNodeEnding "e1" none, oneNodeEnding "e2" oneNodeExpectation]).map Prod.fst =
        .ok [.settled, .settled] := by
  decide

end OneNode

end MicroWorkflow
