import MicroWorkflow.PendingExecution

set_option autoImplicit false

namespace MicroWorkflow

open Lib (require refuse orRaise Table)

structure TerminalOwnerExpectation where
  sessionId : String
  component : Component
  jobInstanceId : String
deriving DecidableEq, Repr

inductive TerminalStatus where
  | done | failed | cancelled | skipped
deriving DecidableEq, Repr

def TerminalStatus.status : TerminalStatus → JobStatus
  | done => .done
  | failed => .failed
  | cancelled => .cancelled
  | skipped => .skipped

structure TerminalUpdate where
  nodeName : String
  jobId : Nat
  generation : Nat
  executionId : String
  status : TerminalStatus
  extra : Details
  expectedOwner : Option TerminalOwnerExpectation
deriving DecidableEq, Repr

def TerminalUpdate.address (update : TerminalUpdate) : JobAddress := (update.nodeName, update.jobId)

def terminalRestartError (update : TerminalUpdate) : Error :=
  .jobRestarted ("Job " ++ MicroWorkflow.address update.nodeName update.jobId ++ " generation " ++
    toString update.generation ++ " was restarted")

def validateTerminalOwner (db : Database) (update : TerminalUpdate) (expected : TerminalOwnerExpectation) :
    Result Unit := do
  let changed := Error.runtime ("Execution ownership changed during terminal cleanup for " ++
    MicroWorkflow.address update.nodeName update.jobId)
  let observed ← orRaise (← readJobOwnerObservation db update.nodeName update.jobId) (.type "missing job row")
  match observed.owner, observed.session with
  | some owner, some session =>
      require (owner.executionId == update.executionId && owner.generation == update.generation
          && owner.jobInstanceId == expected.jobInstanceId && owner.sessionId == expected.sessionId
          && owner.componentKey == expected.component && session.row.status == .running
          && reservationOwner db (encodeComponentKey expected.component) == some expected.sessionId) changed
  | _, _ => throw changed

inductive TerminalOutcome where
  | refused (error : Error)
  | settled
deriving DecidableEq, Repr

structure TerminalGroup where
  rows : Table Job.address
  outcomes : List TerminalOutcome
  accepted : List (TerminalUpdate × JobStatus)

def terminalStatusGuard (update : TerminalUpdate) (row : Job) : Bool :=
  row.address = update.address && row.generation = update.generation
    && row.activeExecutionId = some update.executionId

def TerminalGroup.accept (group : TerminalGroup) (update : TerminalUpdate) (previous : JobStatus) : TerminalGroup where
  rows := group.rows.modify (fun row => row.address = update.address) fun row =>
    { row with status := update.status.status, activeExecutionId := none }
  outcomes := group.outcomes ++ [.settled]
  accepted := group.accepted ++ [(update, previous)]

def TerminalGroup.answer (group : TerminalGroup) (outcome : TerminalOutcome) : TerminalGroup :=
  { group with outcomes := group.outcomes ++ [outcome] }

def ownerRefusal (db : Database) (update : TerminalUpdate) : Result (Option Error) :=
  match update.expectedOwner with
  | none => .ok none
  | some expected =>
      match validateTerminalOwner db update expected with
      | .ok _ => .ok none
      | .error error => if error.runtimeOrValue then .ok (some error) else .error error

inductive TerminalDecision where
  | answer (outcome : TerminalOutcome)
  | accept (previous : JobStatus)

def terminalDecision (db : Database) (rows : Table Job.address) (update : TerminalUpdate) :
    Result TerminalDecision := do
  match rows.find update.address with
  | none => return .answer (.refused (terminalRestartError update))
  | some row =>
      if row.generation != update.generation then return .answer (.refused (terminalRestartError update))
      let alreadyTerminal := row.activeExecutionId.isNone && row.status == update.status.status
      if row.activeExecutionId != some update.executionId && !alreadyTerminal then
        return .answer (.refused (terminalRestartError update))
      match ← ownerRefusal db update with
      | some error => return .answer (.refused error)
      | none => if alreadyTerminal then return .answer .settled else return .accept row.status

def terminalStep (db : Database) (group : TerminalGroup) (update : TerminalUpdate) : Result TerminalGroup := do
  match ← terminalDecision db group.rows update with
  | .answer outcome => return group.answer outcome
  | .accept previous => return group.accept update previous

def terminalEvent (eventTime : Timestamp) (entry : TerminalUpdate × JobStatus) : JobEvent where
  nodeName := entry.1.nodeName
  jobId := entry.1.jobId
  time := eventTime
  event := entry.1.status.status.text
  data := Details.merge [("previous_status", .text entry.2.text), ("status", .text entry.1.status.status.text)]
    entry.1.extra

def terminalUpdateRow (entry : TerminalUpdate × JobStatus) (row : Job) : Job :=
  { row with
    status := entry.1.status.status
    statusJson := entry.1.extra
    activeExecutionId := none
    activePid := none
    activeThreadId := none
    activeStartedAt := none }

theorem terminal_row_address (entry : TerminalUpdate × JobStatus) (row : Job) :
    (terminalUpdateRow entry row).address = row.address := rfl

def applyTerminalUpdates (db : Database) (eventTime : Timestamp) (updates : List TerminalUpdate) :
    Result (List TerminalOutcome × Database) := do
  let group ← Lib.thread (terminalStep db) ⟨db.jobs, [], []⟩ updates
  return (group.outcomes, { db with
    jobs := (db.jobs.updateEach (fun entry => terminalStatusGuard entry.1) terminalUpdateRow group.accepted
      terminal_row_address).1
    jobEvents := db.jobEvents ++ group.accepted.map (terminalEvent eventTime) })

def releaseGuard (node : String) (jobId generation : Nat) (executionId : String) (row : Job) : Bool :=
  row.address = (node, jobId) && row.generation = generation && row.activeExecutionId = some executionId

def releaseRow (row : Job) : Job :=
  { row with
    status := .queued
    statusJson := []
    activeExecutionId := none
    activePid := none
    activeThreadId := none
    activeStartedAt := none }

def releaseUnstartedJobExecution (db : Database) (eventTime : Timestamp) (node : String) (jobId generation : Nat)
    (executionId : String) : Bool × Database :=
  let changed := db.jobs.count (releaseGuard node jobId generation executionId)
  if changed = 0 then (false, db) else
  (true, { db with
    jobs := db.jobs.modify (releaseGuard node jobId generation executionId) releaseRow
    jobEvents := db.jobEvents ++ [⟨node, jobId, eventTime, "queued",
      [("previous_status", .text "running"), ("status", .text "queued"),
        ("reason", .text "preclaimed burst was not started")]⟩] })

def statusEventName : JobStatus → String
  | .running => "started"
  | status => status.text

def setStatusRow (status : JobStatus) (extra : Details) (row : Job) : Job :=
  if status.terminal then
    { row with
      status := status
      statusJson := extra
      activeExecutionId := none
      activePid := none
      activeThreadId := none
      activeStartedAt := none }
  else { row with status := status, statusJson := extra }

theorem set_status_row_address (status : JobStatus) (extra : Details) (row : Job) :
    (setStatusRow status extra row).address = row.address := by
  unfold setStatusRow
  split <;> rfl

def setJobStatus (db : Database) (eventTime : Timestamp) (node : String) (jobId : Nat) (status : JobStatus)
    (extra : Details) : Result Database := do
  let row ← orRaise (db.jobs.find (node, jobId)) (.fileNotFound ("Job does not exist: " ++ address node jobId))
  let event : JobEvent := ⟨node, jobId, eventTime, statusEventName status,
    Details.merge [("previous_status", .text row.status.text), ("status", .text status.text)] extra⟩
  return { db with
    jobs := db.jobs.modify (fun row => row.address = (node, jobId)) (setStatusRow status extra)
      (set_status_row_address status extra)
    jobEvents := if row.status != status || !extra.isEmpty then db.jobEvents ++ [event] else db.jobEvents }

theorem terminal_decision_accept {db : Database} {rows : Table Job.address} {update : TerminalUpdate}
    {previous : JobStatus} (decided : terminalDecision db rows update = .ok (.accept previous)) :
    ∃ row, rows.find update.address = some row ∧ terminalStatusGuard update row = true ∧ previous = row.status := by
  unfold terminalDecision at decided
  split at decided
  · exact absurd decided (by simp)
  rename_i row found
  split at decided
  · exact absurd decided (by simp)
  rename_i generation
  dsimp only at decided
  split at decided
  · exact absurd decided (by simp)
  rename_i active
  rw [Lib.bind_ok] at decided
  obtain ⟨refusal, _, decided⟩ := decided
  split at decided
  · exact absurd decided (by simp)
  split at decided
  · exact absurd decided (by simp)
  rename_i fresh
  simp only [Lib.pure_ok, TerminalDecision.accept.injEq] at decided
  have key := Lib.Table.find_key found
  simp only [bne_iff_ne, ne_eq, not_not] at generation
  rw [Bool.not_eq_true] at fresh
  rw [fresh] at active
  simp only [Bool.not_false, Bool.and_true, bne_iff_ne, ne_eq, not_not] at active
  exact ⟨row, found, by simp [terminalStatusGuard, key, generation, active], decided.symm⟩

def acceptedAddress (entry : TerminalUpdate × JobStatus) : JobAddress := entry.1.address

def cachedTerminalRow (entry : TerminalUpdate × JobStatus) (row : Job) : Job :=
  { row with status := entry.1.status.status, activeExecutionId := none }

def currentExecution (db : Database) (update : TerminalUpdate) : Bool :=
  (db.jobs.find update.address).any (terminalStatusGuard update)

structure TerminalGroup.Tracks (db : Database) (updates : List TerminalUpdate) (group : TerminalGroup) : Prop where
  rows : ∀ place, group.rows.find place =
    (db.jobs.find place).map (Table.rewritten acceptedAddress cachedTerminalRow group.accepted place)
  distinct : (group.accepted.map acceptedAddress).Nodup
  current : ∀ entry ∈ group.accepted, entry.1 ∈ updates ∧
    ∃ row, db.jobs.find entry.1.address = some row ∧ terminalStatusGuard entry.1 row = true ∧ entry.2 = row.status

variable {db : Database} {updates : List TerminalUpdate} {group next : TerminalGroup} {update : TerminalUpdate}

theorem terminal_group_initial : (⟨db.jobs, [], []⟩ : TerminalGroup).Tracks db updates :=
  ⟨fun place => by simp, List.nodup_nil, fun _ member => absurd member (by simp)⟩

theorem TerminalGroup.Tracks.stored {row : Job} (tracks : group.Tracks db updates)
    (found : group.rows.find update.address = some row) (guarded : terminalStatusGuard update row = true) :
    db.jobs.find update.address = some row ∧ ∀ entry ∈ group.accepted, acceptedAddress entry ≠ update.address := by
  rw [tracks.rows, Option.map_eq_some_iff] at found
  obtain ⟨stored, here, same⟩ := found
  rcases Table.rewritten_cases acceptedAddress cachedTerminalRow group.accepted update.address stored with
    ⟨untouched, absent⟩ | ⟨entry, _, _, rewritten⟩
  · exact ⟨by rw [here, ← same, untouched], absent⟩
  · rw [rewritten] at same
    rw [← same] at guarded
    simp [terminalStatusGuard, cachedTerminalRow] at guarded

theorem TerminalGroup.Tracks.accept {previous : JobStatus} (tracks : group.Tracks db updates)
    (member : update ∈ updates) (decided : terminalDecision db group.rows update = .ok (.accept previous)) :
    (group.accept update previous).Tracks db updates := by
  obtain ⟨row, found, guarded, rfl⟩ := terminal_decision_accept decided
  obtain ⟨stored, fresh⟩ := tracks.stored found guarded
  constructor
  · intro place
    simp only [TerminalGroup.accept]
    rw [Table.find_modify, tracks.rows, Option.map_map]
    cases here : db.jobs.find place with
    | none => rfl
    | some other =>
        simp only [Option.map_some, Function.comp, Option.some.injEq]
        rw [Table.rewritten_snoc fresh]
        have key : (Table.rewritten acceptedAddress cachedTerminalRow group.accepted place other).address = place := by
          rcases Table.rewritten_cases acceptedAddress cachedTerminalRow group.accepted place other with
            ⟨untouched, _⟩ | ⟨entry, _, _, rewritten⟩
          · rw [untouched, Table.find_key here]
          · rw [rewritten]
            change other.address = place
            exact Table.find_key here
        by_cases same : update.address = place
        · have absent : ∀ entry ∈ group.accepted, acceptedAddress entry ≠ place := same ▸ fresh
          rw [Table.rewritten_absent absent] at key ⊢
          simp [key, same, acceptedAddress, cachedTerminalRow]
        · simp [key, same, acceptedAddress, Ne.symm same]
  · simp only [TerminalGroup.accept, List.map_append, List.map_cons, List.map_nil]
    rw [List.nodup_append]
    refine ⟨tracks.distinct, by simp, ?_⟩
    intro left inside right single
    obtain ⟨entry, accepted, rfl⟩ := List.mem_map.mp inside
    rw [List.mem_singleton.mp single]
    exact fresh entry accepted
  · intro entry inside
    rcases List.mem_append.mp inside with old | new
    · exact tracks.current entry old
    · rw [List.mem_singleton.mp new]
      exact ⟨member, row, stored, guarded, rfl⟩

theorem TerminalGroup.Tracks.step (tracks : group.Tracks db updates) (member : update ∈ updates)
    (done : terminalStep db group update = .ok next) : next.Tracks db updates := by
  simp only [terminalStep, Lib.bind_ok] at done
  obtain ⟨decision, decided, done⟩ := done
  cases decision with
  | answer outcome =>
      simp only [Lib.pure_ok] at done
      exact done ▸ ⟨tracks.rows, tracks.distinct, tracks.current⟩
  | accept previous =>
      simp only [Lib.pure_ok] at done
      exact done ▸ tracks.accept member decided

theorem terminal_step_stale (tracks : group.Tracks db updates) (stale : currentExecution db update = false)
    (done : terminalStep db group update = .ok next) : next.rows = group.rows ∧ next.accepted = group.accepted := by
  simp only [terminalStep, Lib.bind_ok] at done
  obtain ⟨decision, decided, done⟩ := done
  cases decision with
  | answer outcome =>
      simp only [Lib.pure_ok] at done
      exact done ▸ ⟨rfl, rfl⟩
  | accept previous =>
      obtain ⟨row, found, guarded, _⟩ := terminal_decision_accept decided
      have stored := (tracks.stored found guarded).1
      simp [currentExecution, stored, guarded] at stale

theorem terminal_step_same {other : TerminalGroup} (rows : other.rows = group.rows)
    (accepted : other.accepted = group.accepted) (done : terminalStep db group update = .ok next) :
    ∃ result, terminalStep db other update = .ok result ∧ result.rows = next.rows ∧ result.accepted = next.accepted := by
  simp only [terminalStep, Lib.bind_ok] at done
  obtain ⟨decision, decided, done⟩ := done
  simp only [terminalStep, rows, decided, bind, Except.bind]
  cases decision with
  | answer outcome =>
      simp only [Lib.pure_ok] at done
      exact done ▸ ⟨_, rfl, rows, accepted⟩
  | accept previous =>
      simp only [Lib.pure_ok] at done
      subst done
      exact ⟨_, rfl, by simp only [TerminalGroup.accept, rows], by simp only [TerminalGroup.accept, accepted]⟩

theorem terminal_thread_filter {requested : List TerminalUpdate} {other : TerminalGroup}
    (tracks : group.Tracks db updates) (inside : ∀ update ∈ requested, update ∈ updates)
    (rows : other.rows = group.rows) (accepted : other.accepted = group.accepted)
    (done : Lib.thread (terminalStep db) group requested = .ok next) :
    ∃ result, Lib.thread (terminalStep db) other (requested.filter (currentExecution db)) = .ok result ∧
      result.accepted = next.accepted := by
  induction requested generalizing group other with
  | nil =>
      simp only [Lib.thread, Except.ok.injEq] at done
      exact ⟨other, rfl, done ▸ accepted⟩
  | cons update rest ih =>
      rw [Lib.thread_cons, Lib.bind_ok] at done
      obtain ⟨middle, first, later⟩ := done
      have kept := tracks.step (inside update List.mem_cons_self) first
      have others : ∀ update ∈ rest, update ∈ updates := fun item member => inside item (List.mem_cons_of_mem _ member)
      by_cases current : currentExecution db update = true
      · obtain ⟨result, same, sameRows, sameAccepted⟩ := terminal_step_same rows accepted first
        obtain ⟨final, finished, equal⟩ := ih kept others sameRows sameAccepted later
        refine ⟨final, ?_, equal⟩
        rw [List.filter_cons_of_pos current, Lib.thread_cons, same]
        exact finished
      · obtain ⟨sameRows, sameAccepted⟩ := terminal_step_stale tracks (by simpa using current) first
        obtain ⟨final, finished, equal⟩ := ih kept others (rows.trans sameRows.symm) (accepted.trans sameAccepted.symm) later
        exact ⟨final, by rw [List.filter_cons_of_neg current]; exact finished, equal⟩

structure TerminalsWritten (db next : Database) (eventTime : Timestamp) (updates : List TerminalUpdate)
    (accepted : List (TerminalUpdate × JobStatus)) : Prop where
  distinct : (accepted.map acceptedAddress).Nodup
  current : ∀ entry ∈ accepted, entry.1 ∈ updates ∧
    ∃ row, db.jobs.find entry.1.address = some row ∧ terminalStatusGuard entry.1 row = true ∧ entry.2 = row.status
  jobs : ∀ place, next.jobs.find place =
    (db.jobs.find place).map (Table.rewritten acceptedAddress terminalUpdateRow accepted place)
  events : next.jobEvents = db.jobEvents ++ accepted.map (terminalEvent eventTime)
  others : next = { db with jobs := next.jobs, jobEvents := next.jobEvents }

theorem terminal_guard_address {entry : TerminalUpdate × JobStatus} {row : Job}
    (guarded : terminalStatusGuard entry.1 row = true) : row.address = acceptedAddress entry := by
  simp only [terminalStatusGuard, Bool.and_eq_true, decide_eq_true_eq] at guarded
  exact guarded.1.1

theorem apply_terminal_group {after : Database} {eventTime : Timestamp} {outcomes : List TerminalOutcome}
    (applied : applyTerminalUpdates db eventTime updates = .ok (outcomes, after)) :
    ∃ final, Lib.thread (terminalStep db) ⟨db.jobs, [], []⟩ updates = .ok final ∧ outcomes = final.outcomes ∧
      TerminalsWritten db after eventTime updates final.accepted := by
  simp only [applyTerminalUpdates, Lib.bind_ok, Lib.pure_ok, Prod.mk.injEq] at applied
  obtain ⟨final, threaded, rfl, rfl⟩ := applied
  have tracks : final.Tracks db updates := Lib.thread_invariant terminal_group_initial
    (fun _ _ _ member kept done => kept.step member done) threaded
  have met : ∀ entry ∈ final.accepted, ∃ row, db.jobs.find (acceptedAddress entry) = some row ∧
      terminalStatusGuard entry.1 row = true := by
    intro entry member
    obtain ⟨_, row, found, guarded, _⟩ := tracks.current entry member
    exact ⟨row, found, guarded⟩
  exact ⟨final, threaded, rfl, tracks.distinct, tracks.current,
    Table.find_updateEach_met (fun _ _ => terminal_guard_address) tracks.distinct met, rfl, rfl⟩

theorem apply_terminal_updates_ok {after : Database} {eventTime : Timestamp} {outcomes : List TerminalOutcome}
    (applied : applyTerminalUpdates db eventTime updates = .ok (outcomes, after)) :
    ∃ accepted, TerminalsWritten db after eventTime updates accepted := by
  obtain ⟨final, _, _, written⟩ := apply_terminal_group applied
  exact ⟨final.accepted, written⟩

theorem terminal_step_grows (done : terminalStep db group update = .ok next) :
    (∀ outcome ∈ group.outcomes, outcome ∈ next.outcomes) ∧ ∀ entry ∈ group.accepted, entry ∈ next.accepted := by
  simp only [terminalStep, Lib.bind_ok] at done
  obtain ⟨decision, _, done⟩ := done
  cases decision with
  | answer outcome =>
      simp only [Lib.pure_ok] at done
      subst done
      exact ⟨fun old member => List.mem_append_left _ member, fun _ member => member⟩
  | accept previous =>
      simp only [Lib.pure_ok] at done
      subst done
      exact ⟨fun old member => List.mem_append_left _ member, fun _ member => List.mem_append_left _ member⟩

theorem TerminalGroup.Tracks.settles (tracks : group.Tracks db updates)
    (unique : ∀ other ∈ updates, other.address = update.address → other = update)
    (current : currentExecution db update = true) (done : terminalStep db group update = .ok next)
    (settled : ∀ outcome ∈ next.outcomes, outcome = .settled) : ∃ previous, (update, previous) ∈ next.accepted := by
  obtain ⟨row, found, guarded⟩ := (Option.any_eq_true _ _).mp current
  simp only [terminalStep, Lib.bind_ok] at done
  obtain ⟨decision, decided, done⟩ := done
  cases decision with
  | accept previous =>
      simp only [Lib.pure_ok] at done
      subst done
      exact ⟨previous, List.mem_append_right _ List.mem_cons_self⟩
  | answer outcome =>
      simp only [Lib.pure_ok] at done
      subst done
      have here : outcome = .settled := settled outcome (List.mem_append_right _ List.mem_cons_self)
      subst here
      -- the cached row no longer runs the execution, so an earlier update of the group ended it
      have cached := tracks.rows update.address
      rw [found, Option.map_some] at cached
      rcases Table.rewritten_cases acceptedAddress cachedTerminalRow group.accepted update.address row with
        ⟨untouched, _⟩ | ⟨entry, member, same, _⟩
      · rw [untouched] at cached
        simp only [terminalStatusGuard, Bool.and_eq_true, decide_eq_true_eq] at guarded
        obtain ⟨⟨_, generation⟩, active⟩ := guarded
        simp only [terminalDecision, cached, generation, active, bne_self_eq_false, Option.isNone_some,
          Bool.false_and] at decided
        cases refusal : ownerRefusal db update with
        | error error => simp [refusal, bind, Except.bind] at decided
        | ok answer => cases answer <;> simp [refusal, bind, Except.bind, pure, Except.pure] at decided
      · obtain ⟨inside, _⟩ := tracks.current entry member
        have equal : entry.1 = update := unique entry.1 inside same
        exact ⟨entry.2, by rw [← equal]; exact member⟩

theorem terminal_thread_settles {requested : List TerminalUpdate} (tracks : group.Tracks db updates)
    (inside : ∀ update ∈ requested, update ∈ updates)
    (unique : ∀ left ∈ updates, ∀ right ∈ updates, left.address = right.address → left = right)
    (done : Lib.thread (terminalStep db) group requested = .ok next)
    (settled : ∀ outcome ∈ next.outcomes, outcome = .settled) :
    (∀ outcome ∈ group.outcomes, outcome = .settled) ∧ (∀ entry ∈ group.accepted, entry ∈ next.accepted) ∧
      ∀ update ∈ requested, currentExecution db update = true → ∃ previous, (update, previous) ∈ next.accepted := by
  induction requested generalizing group with
  | nil =>
      simp only [Lib.thread, Except.ok.injEq] at done
      subst done
      exact ⟨settled, fun _ member => member, by simp⟩
  | cons first rest ih =>
      rw [Lib.thread_cons, Lib.bind_ok] at done
      obtain ⟨middle, stepped, later⟩ := done
      have kept := tracks.step (inside first List.mem_cons_self) stepped
      have others : ∀ update ∈ rest, update ∈ updates := fun item member => inside item (List.mem_cons_of_mem _ member)
      obtain ⟨quiet, grown, rested⟩ := ih kept others later
      obtain ⟨outcomes, entries⟩ := terminal_step_grows stepped
      refine ⟨fun outcome member => quiet outcome (outcomes outcome member),
        fun entry member => grown entry (entries entry member), fun update member current => ?_⟩
      rcases List.mem_cons.mp member with rfl | member
      · obtain ⟨previous, taken⟩ := tracks.settles (fun other there => unique other there update
          (inside update List.mem_cons_self)) current stepped quiet
        exact ⟨previous, grown _ taken⟩
      · exact rested update member current

theorem apply_terminal_updates_settled {after : Database} {eventTime : Timestamp} {outcomes : List TerminalOutcome}
    (applied : applyTerminalUpdates db eventTime updates = .ok (outcomes, after))
    (unique : ∀ left ∈ updates, ∀ right ∈ updates, left.address = right.address → left = right)
    (settled : ∀ outcome ∈ outcomes, outcome = .settled) :
    ∃ accepted, TerminalsWritten db after eventTime updates accepted ∧
      ∀ update ∈ updates, currentExecution db update = true → ∃ previous, (update, previous) ∈ accepted := by
  obtain ⟨final, threaded, rfl, written⟩ := apply_terminal_group applied
  obtain ⟨_, _, taken⟩ := terminal_thread_settles terminal_group_initial (fun _ member => member) unique threaded settled
  exact ⟨final.accepted, written, taken⟩

theorem apply_terminal_updates_stale {after : Database} {eventTime : Timestamp} {outcomes : List TerminalOutcome}
    (applied : applyTerminalUpdates db eventTime updates = .ok (outcomes, after)) :
    ∃ others, applyTerminalUpdates db eventTime (updates.filter (currentExecution db)) = .ok (others, after) := by
  simp only [applyTerminalUpdates, Lib.bind_ok, Lib.pure_ok, Prod.mk.injEq] at applied
  obtain ⟨final, threaded, _, rfl⟩ := applied
  obtain ⟨result, done, same⟩ := terminal_thread_filter terminal_group_initial (fun _ member => member) rfl rfl threaded
  refine ⟨result.outcomes, ?_⟩
  simp only [applyTerminalUpdates, done, same, bind, Except.bind]
  rfl

end MicroWorkflow
