import MicroWorkflow.GuardedAttempts
import MicroWorkflow.ResumeOutcome
import MicroWorkflow.Lib.Machine

set_option autoImplicit false

namespace MicroWorkflow

open Lib (require refuse orRaise each Table Run)

section Call

structure ResumeCall where
  sessionId : String
  expectedStates : List (Component × ComponentStateSnapshot)
  expectedParents : List (Component × ComponentStateSnapshot)
  successfulResults : Option (List (Component × Option SuccessfulResultObservation))
  expectedAdmittedShape : Shape
  clearTraceNodes : List String
  operationId : String
  receiptId : String
  ownerPid : Nat
  processIdentity : String
  hostname : String
  startedAt : Timestamp

namespace ResumeCall

def components (call : ResumeCall) : List Component := call.expectedStates.map Prod.fst

def nodes (call : ResumeCall) : List String := call.expectedStates.flatMap Prod.fst

def firstComponent (call : ResumeCall) : Component := encodeComponentKey (call.components.headD [])

def attempt (call : ResumeCall) : AttemptRequest where
  operationId := call.operationId
  sessionId := some call.sessionId
  ownerPid := call.ownerPid
  processIdentity := call.processIdentity
  hostname := call.hostname
  now := call.startedAt
  receivers := []
  affectedNodes := call.nodes
  expectedReceipts := [⟨"resume", call.firstComponent⟩]
  membershipRevision := none

def intent (call : ResumeCall) : PreparationIntent where
  operationId := call.receiptId
  guardId := call.operationId
  operation := "resume"
  componentKey := call.firstComponent
  sessionId := some call.sessionId
  manifest := ⟨componentKey call.nodes, [], none⟩

def observedResults (call : ResumeCall) (db : Database) : List (Component × Option SuccessfulResultObservation) :=
  call.successfulResults.getD (call.expectedStates.map fun entry =>
    (entry.1, Lib.valueOr (readResumeSuccessfulResult db entry.1 entry.2) none))

def observation (call : ResumeCall) (db : Database) : ResumePreparation where
  sessionId := call.sessionId
  expectedStates := call.expectedStates
  expectedParents := call.expectedParents
  successfulResults := call.observedResults db
  expectedAdmittedShape := call.expectedAdmittedShape
  clearTraceNodes := call.clearTraceNodes
  captured := call.nodes.eraseDups.map fun node => (node, readJobs db node)
  recovered := []
  requestedAt := 0
  requester := call.ownerPid

end ResumeCall

def validateInitialNode (db : Database) (request : ResumePreparation) (component : Component) (node : String) :
    Result Unit := do
  refuseReceiverMutation db node
  requireSettledInputPublications db node
  validateResumeNode db request component node

def validateResumeInitially (db : Database) (request : ResumePreparation) : Result Unit := do
  each (validateResumeComponent db request) request.expectedStates
  requireParents db request.expectedParents (.runtime "Component parent changed before resume preparation")
  each (fun (entry : Component × ComponentStateSnapshot) => each (validateInitialNode db request entry.1) entry.1)
    request.expectedStates
  refuse (request.expectedStates.any (unfinishedSuccess request))
    (.runtime "Successful component contains unfinished work")

def matchesSelection (call : ResumeCall) (results : List (Component × Option SuccessfulResultObservation)) : Bool :=
  (results.all fun result => result.1 ∈ call.components)
    && call.components.all fun component => component ∈ results.map Prod.fst

def observeResume (db : Database) (call : ResumeCall) : Result ResumePreparation := do
  refuse call.expectedStates.isEmpty (.value "Resume requires a nonempty component selection")
  require (call.clearTraceNodes.all fun node => node ∈ call.nodes)
    (.value "Resume trace selection must belong to the admitted components")
  require (call.successfulResults.all (matchesSelection call))
    (.value "Resume successful-result observations must match selected components")
  validateResumeInitially db (call.observation db)
  return call.observation db

def lockResume (db : Database) (request : ResumePreparation) (outputs : JobOutputs) (now : Timestamp) :
    Result ResumePreparation := do
  validateResumeInitially db request
  return { request with recovered := readFinishedOutputs outputs request.captured, requestedAt := now }

def acquireResume (db : Database) (call : ResumeCall) (request : ResumePreparation) : Result Database :=
  acquireAttempt (fun db => validateResumeInitially db request) (fun _ => .ok ()) db call.attempt

def prepareResumeReceipt (db : Database) (call : ResumeCall) (request : ResumePreparation) : Result Database := do
  validateResumeInitially db request
  let receipts ← insertFileReceipt db.preparationReceipts (preparedReceipt call.intent)
  return { db with preparationReceipts := receipts }

def commitResume (db : Database) (call : ResumeCall) (request : ResumePreparation) : Result (Nat × Database) := do
  requirePreparedFileReceipt db.preparationReceipts (preparedReceipt call.intent)
  let (changed, resumed) ← prepareResumeComponents db request
  let receipts ← finishFileReceipt resumed.preparationReceipts (preparedReceipt call.intent) .committed
  return (changed, { resumed with preparationReceipts := receipts })

def abortResume (db : Database) (call : ResumeCall) (restored : Bool) : Result Database := do
  requirePreparedFileReceipt db.preparationReceipts (preparedReceipt call.intent)
  require restored (.runtime "Preparation files were not restored")
  let receipts ← finishFileReceipt db.preparationReceipts (preparedReceipt call.intent) .aborted
  return { db with preparationReceipts := receipts }

end Call

section Steps

inductive ResumePhase where
  | asked
  | observed (request : ResumePreparation)
  | locked (request : ResumePreparation)
  | held (request : ResumePreparation)
  | prepared (request : ResumePreparation)
  | restoring
  | finishing (requestedCommitted : Bool)
  | interrupting
  | returned
  | raised
deriving DecidableEq, Repr

structure ResumeState where
  db : Database
  phase : ResumePhase
  outputs : JobOutputs
  committed : Bool

inductive ResumeEvent where
  | others (db : Database)
  | observe
  | lock (outputs : JobOutputs) (now : Timestamp)
  | acquire
  | prepare
  | commit
  | fail
  | lose
  | abort (restored : Bool)
  | finish (now : Timestamp)
  | interrupt

namespace ResumeState

def enter (state : ResumeState) (phase : ResumePhase) : ResumeState := { state with phase := phase }

def decide (state : ResumeState) (result : Result Database) (next unwinding : ResumePhase) : ResumeState :=
  match result with
  | .ok db => { state with db := db, phase := next }
  | .error _ => state.enter unwinding

def decideCommit (state : ResumeState) (result : Result (Nat × Database)) : ResumeState :=
  match result with
  | .ok (_, db) => { state with db := db, phase := .finishing true, committed := true }
  | .error _ => state.enter .restoring

def decideFinish (state : ResumeState) (requestedCommitted : Bool) (result : Result (AttemptState × Database)) :
    ResumeState :=
  match result with
  | .ok (outcome, db) =>
      { state with
        db := db
        phase := if requestedCommitted && outcome != .interrupted then .returned else .raised }
  | .error _ => state.enter .interrupting

def observe (state : ResumeState) (result : Result ResumePreparation) (next : ResumePreparation → ResumePhase) :
    ResumeState :=
  match result with
  | .ok request => state.enter (next request)
  | .error _ => state.enter .raised

end ResumeState

-- Other writers commit between any two of the call's transactions, and any wait of the call can raise:
-- a failure before the attempt's own lock is held loses the attempt, which is then interrupted.
def resumeNext (call : ResumeCall) (state : ResumeState) (event : ResumeEvent) : Option ResumeState :=
  match event, state.phase with
  | .others db, _ => some { state with db := db }
  | .observe, .asked => some (state.observe (observeResume state.db call) .observed)
  | .lock outputs now, .observed request =>
      some ({ state with outputs := outputs }.observe (lockResume state.db request outputs now) .locked)
  | .acquire, .locked request => some (state.decide (acquireResume state.db call request) (.held request) .raised)
  | .prepare, .held request =>
      some (state.decide (prepareResumeReceipt state.db call request) (.prepared request) (.finishing false))
  | .commit, .prepared request => some (state.decideCommit (commitResume state.db call request))
  | .abort restored, .restoring => some (state.decide (abortResume state.db call restored) (.finishing false) (.finishing false))
  | .finish now, .finishing requested =>
      some (state.decideFinish requested
        (finishAttempt state.db call.attempt.attempt call.attempt.guards requested now))
  | .interrupt, .interrupting =>
      some (state.decide (interruptAttempt state.db call.attempt.attempt call.attempt.guards) .raised .raised)
  | .lose, .held _ => some (state.enter .interrupting)
  | .fail, .observed _ => some (state.enter .raised)
  | .fail, .locked _ => some (state.enter .raised)
  | .fail, .held _ => some (state.enter (.finishing false))
  | .fail, .prepared _ => some (state.enter .restoring)
  | .fail, .restoring => some (state.enter (.finishing false))
  | .fail, .finishing _ => some (state.enter (.finishing false))
  | _, _ => none

def ResumeStep (call : ResumeCall) (before : ResumeState) (event : ResumeEvent) (after : ResumeState) : Prop :=
  resumeNext call before event = some after

end Steps

section Bookkeeping

structure BookkeepingOnly (call : ResumeCall) (db next : Database) : Prop where
  tables : next = { db with
    preparationAttempts := next.preparationAttempts
    preparationReceipts := next.preparationReceipts }
  attempts : ∀ other, other ≠ call.operationId → next.preparationAttempts.find other = db.preparationAttempts.find other
  receipts : ∀ other, other ≠ call.receiptId → next.preparationReceipts.find other = db.preparationReceipts.find other

variable {call : ResumeCall} {db next : Database} {request : ResumePreparation}

theorem bookkeeping_refl : BookkeepingOnly call db db := ⟨rfl, fun _ _ => rfl, fun _ _ => rfl⟩

theorem resume_guards : call.attempt.guards = [] := rfl

theorem acquire_resume_only (acquired : acquireResume db call request = .ok next) : BookkeepingOnly call db next := by
  obtain ⟨_, _, _, _, rows, step, only⟩ := acquire_attempt_ok acquired
  have guards : next.receiverMutationGuards = db.receiverMutationGuards := by
    apply Table.ext
    rw [rows, resume_guards, List.append_nil]
  refine ⟨?_, step.attempts, fun other _ => ?_⟩
  · rw [only, guards]
  · rw [only]

theorem prepare_resume_only (prepared : prepareResumeReceipt db call request = .ok next) :
    BookkeepingOnly call db next := by
  simp only [prepareResumeReceipt, Lib.bind_ok, Lib.pure_ok, insertFileReceipt, Lib.orRaise_ok] at prepared
  obtain ⟨_, _, receipts, ⟨_, _, inserted⟩, rfl⟩ := prepared
  refine ⟨rfl, fun _ _ => rfl, fun other apart => ?_⟩
  exact (Table.find_insert inserted other).trans (if_neg (Ne.symm apart))

theorem finished_receipt_apart {receipts finished : Table PreparationReceipt.operationId} {row : PreparationReceipt}
    {state : ReceiptState} (ended : finishFileReceipt receipts row state = .ok finished) {other : String}
    (apart : other ≠ row.operationId) : finished.find other = receipts.find other := by
  simp only [finishFileReceipt, Lib.bind_ok] at ended
  obtain ⟨_, _, _, _, changed⟩ := ended
  obtain ⟨_, _, _, _, others⟩ := Table.change_one_ok changed
  exact others other apart

theorem abort_resume_only {restored : Bool} (aborted : abortResume db call restored = .ok next) :
    BookkeepingOnly call db next := by
  simp only [abortResume, Lib.bind_ok, Lib.pure_ok] at aborted
  obtain ⟨_, _, _, _, receipts, finished, rfl⟩ := aborted
  exact ⟨rfl, fun _ _ => rfl, fun other apart => finished_receipt_apart finished apart⟩

theorem interrupt_resume_only (interrupted : interruptAttempt db call.attempt.attempt call.attempt.guards = .ok next) :
    BookkeepingOnly call db next := by
  obtain ⟨_, _, _, _, step, only⟩ := interrupt_attempt_ok interrupted
  refine ⟨?_, step.attempts, fun other _ => ?_⟩
  · rw [only]
  · rw [only]

theorem release_nothing {operationId : String} {error : Error} (released : releaseGuards db operationId [] error = .ok next) :
    next = db := by
  simp only [releaseGuards, Lib.bind_ok, Lib.require_ok, beq_iff_eq, List.length_nil, Lib.pure_ok] at released
  obtain ⟨_, none, rfl⟩ := released
  have same : db.receiverMutationGuards.delete (fun row => decide (row.operationId = operationId)) =
      db.receiverMutationGuards := by
    apply Table.delete_rows_none
    intro row member
    have missed := List.countP_eq_zero.mp none row member
    simpa using missed
  rw [same]

theorem finish_resume_only {requested : Bool} {now : Timestamp} {outcome : AttemptState}
    (finished : finishAttempt db call.attempt.attempt call.attempt.guards requested now = .ok (outcome, next)) :
    BookkeepingOnly call db next := by
  rw [resume_guards] at finished
  simp only [finishAttempt, Lib.bind_ok, Lib.pure_ok, Prod.mk.injEq] at finished
  obtain ⟨_, _, _, _, released, release, attempts, changed, _, _, _, rfl⟩ := finished
  have same : released = db := by
    unfold releaseSettled at release
    split at release
    · exact (Except.ok.inj release).symm
    · simp only [Lib.bind_ok] at release
      obtain ⟨_, _, release⟩ := release
      exact release_nothing release
  subst same
  obtain ⟨_, _, _, _, others⟩ := Table.change_one_ok changed
  exact ⟨rfl, others, fun _ _ => rfl⟩

end Bookkeeping

section Runs

variable {call : ResumeCall} {first before after final : ResumeState} {earlier later : List ResumeEvent}
  {event : ResumeEvent} {db next : Database}

structure FromCall (call : ResumeCall) (outputs : JobOutputs) (request : ResumePreparation) : Prop where
  expected : request.expectedStates = call.expectedStates
  captured : CapturedSelection request
  recovered : request.recovered = readFinishedOutputs outputs request.captured

def RequestHeld (call : ResumeCall) (state : ResumeState) : Prop :=
  match state.phase with
  | .observed request => ∃ db, request = call.observation db
  | .locked request | .held request | .prepared request => FromCall call state.outputs request
  | _ => True

def CommitHeld (state : ResumeState) : Prop :=
  match state.phase with
  | .finishing true | .returned => state.committed = true
  | .finishing false | .interrupting | .raised => True
  | _ => state.committed = false

structure ResumeHeld (call : ResumeCall) (state : ResumeState) : Prop where
  request : RequestHeld call state
  commit : CommitHeld state

theorem observation_jobs (db : Database) {node : String} (listed : node ∈ call.nodes) :
    capturedJobs (call.observation db) node = readJobs db node := by
  have chosen : (call.nodes.eraseDups.find? fun other => other = node) = some node := by
    cases found : call.nodes.eraseDups.find? fun other => other = node with
    | some other =>
        have same : other = node := by simpa using List.find?_some found
        rw [same]
    | none =>
        have missing := List.find?_eq_none.mp found node (List.mem_eraseDups.mpr listed)
        simp at missing
  simp only [capturedJobs, ResumeCall.observation, List.find?_map, Function.comp_def, chosen, Option.map_some,
    Option.getD_some]

theorem observation_captured (db : Database) : CapturedSelection (call.observation db) := by
  constructor
  · intro entry listed
    obtain ⟨node, member, rfl⟩ := List.mem_map.mp listed
    have inside := List.mem_eraseDups.mp member
    exact ⟨inside, observation_jobs db inside⟩
  · intro node listed
    rw [observation_jobs db listed]
    exact List.mem_map.mpr ⟨node, List.mem_eraseDups.mpr listed, rfl⟩

theorem lock_resume_from_call {request : ResumePreparation} {outputs : JobOutputs} {now : Timestamp}
    (locked : lockResume db (call.observation next) outputs now = .ok request) : FromCall call outputs request := by
  simp only [lockResume, Lib.bind_ok, Lib.pure_ok] at locked
  obtain ⟨_, _, rfl⟩ := locked
  have captured : CapturedSelection (call.observation next) := observation_captured next
  exact ⟨rfl, ⟨captured.entries, captured.nodes⟩, rfl⟩

theorem observe_resume_observation {request : ResumePreparation} (observed : observeResume db call = .ok request) :
    request = call.observation db := by
  simp only [observeResume, Lib.bind_ok, Lib.pure_ok] at observed
  obtain ⟨_, _, _, _, _, _, _, _, rfl⟩ := observed
  rfl

theorem commit_resume_accepted {request : ResumePreparation} {outputs : JobOutputs} {changed : Nat}
    (made : FromCall call outputs request) (committed : commitResume db call request = .ok (changed, next)) :
    ResumeAccepted db next call.components outputs := by
  simp only [commitResume, Lib.bind_ok, Lib.pure_ok, Prod.mk.injEq] at committed
  obtain ⟨_, _, ⟨count, resumed⟩, prepared, receipts, _, _, rfl⟩ := committed
  have accepted := prepare_resume_components_accepted made.captured made.recovered prepared
  rw [made.expected] at accepted
  refine ⟨accepted.unselected, accepted.settled, accepted.requeued, accepted.recovered, accepted.abandoned,
    accepted.created, accepted.failed, accepted.others, accepted.generations, ?_⟩
  have tables := accepted.tables
  dsimp only at prepared tables ⊢
  rw [tables]

def ResumeEvent.Own (event : ResumeEvent) : Prop := ∀ db, event ≠ .others db

structure ResumeStepKept (call : ResumeCall) (before : ResumeState) (event : ResumeEvent) (after : ResumeState) : Prop where
  held : ResumeHeld call after
  committed : before.committed = true → after.committed = true
  bookkeeping : event.Own → after.committed = before.committed → BookkeepingOnly call before.db after.db
  accepted : before.committed = false → after.committed = true →
    ResumeAccepted before.db after.db call.components before.outputs

theorem quiet_step (same : after.committed = before.committed) (held : ResumeHeld call after)
    (only : event.Own → BookkeepingOnly call before.db after.db) : ResumeStepKept call before event after := by
  refine ⟨held, fun committed => same.trans committed, fun own _ => only own, fun fresh committed => ?_⟩
  rw [same, fresh] at committed
  cases committed

theorem entered {phase : ResumePhase} (request : RequestHeld call (before.enter phase))
    (commit : CommitHeld (before.enter phase)) : ResumeStepKept call before event (before.enter phase) :=
  quiet_step rfl ⟨request, commit⟩ fun _ => bookkeeping_refl

theorem decided {result : Result Database} {next unwinding : ResumePhase}
    (only : ∀ db, result = .ok db → BookkeepingOnly call before.db db)
    (accepted : ResumeHeld call (before.enter next)) (refused : ResumeHeld call (before.enter unwinding)) :
    ResumeStepKept call before event (before.decide result next unwinding) := by
  cases answer : result with
  | ok db => exact quiet_step rfl ⟨accepted.request, accepted.commit⟩ fun _ => only db answer
  | error error => exact quiet_step rfl refused fun _ => bookkeeping_refl

theorem resume_step_kept (held : ResumeHeld call before) (step : ResumeStep call before event after) :
    ResumeStepKept call before event after := by
  obtain ⟨request, commit⟩ := held
  unfold ResumeStep resumeNext at step
  split at step
  · obtain rfl := Option.some.inj step
    exact quiet_step rfl ⟨request, commit⟩ fun own => absurd rfl (own _)
  · rename_i phase
    simp only [CommitHeld, phase] at commit
    obtain rfl := Option.some.inj step
    cases answer : observeResume before.db call with
    | ok made => exact entered ⟨before.db, observe_resume_observation answer⟩ commit
    | error error => exact entered trivial trivial
  · rename_i outputs now made phase
    simp only [RequestHeld, CommitHeld, phase] at request commit
    obtain ⟨observed, rfl⟩ := request
    obtain rfl := Option.some.inj step
    cases answer : lockResume before.db (call.observation observed) outputs now with
    | ok made => exact quiet_step rfl ⟨lock_resume_from_call answer, commit⟩ fun _ => bookkeeping_refl
    | error error => exact quiet_step rfl ⟨trivial, trivial⟩ fun _ => bookkeeping_refl
  · rename_i made phase
    simp only [RequestHeld, CommitHeld, phase] at request commit
    obtain rfl := Option.some.inj step
    exact decided (fun _ acquired => acquire_resume_only acquired) ⟨request, commit⟩ ⟨trivial, trivial⟩
  · rename_i made phase
    simp only [RequestHeld, CommitHeld, phase] at request commit
    obtain rfl := Option.some.inj step
    exact decided (fun _ prepared => prepare_resume_only prepared) ⟨request, commit⟩ ⟨trivial, trivial⟩
  · rename_i made phase
    simp only [RequestHeld, CommitHeld, phase] at request commit
    obtain rfl := Option.some.inj step
    cases answer : commitResume before.db call made with
    | ok decision =>
        refine ⟨⟨trivial, rfl⟩, fun _ => rfl, fun _ same => ?_, fun _ _ => commit_resume_accepted request answer⟩
        rw [commit] at same
        cases same
    | error error => exact entered trivial commit
  · rename_i restored phase
    obtain rfl := Option.some.inj step
    exact decided (fun _ aborted => abort_resume_only aborted) ⟨trivial, trivial⟩ ⟨trivial, trivial⟩
  · rename_i now requested phase
    simp only [CommitHeld, phase] at commit
    obtain rfl := Option.some.inj step
    cases answer : finishAttempt before.db call.attempt.attempt call.attempt.guards requested now with
    | ok outcome =>
        refine quiet_step rfl ?_ fun _ => finish_resume_only answer
        by_cases settled : (requested && outcome.1 != .interrupted) = true
        · have asked : requested = true := (Bool.and_eq_true _ _ ▸ settled).1
          rw [asked] at commit
          constructor
          · simp only [ResumeState.decideFinish, RequestHeld, if_pos settled]
          · simp only [ResumeState.decideFinish, CommitHeld, if_pos settled]
            exact commit
        · constructor
          · simp only [ResumeState.decideFinish, RequestHeld, if_neg settled]
          · simp only [ResumeState.decideFinish, CommitHeld, if_neg settled]
    | error error => exact entered trivial trivial
  · obtain rfl := Option.some.inj step
    exact decided (fun _ interrupted => interrupt_resume_only interrupted) ⟨trivial, trivial⟩ ⟨trivial, trivial⟩
  · obtain rfl := Option.some.inj step
    exact entered trivial trivial
  · obtain rfl := Option.some.inj step
    exact entered trivial trivial
  · obtain rfl := Option.some.inj step
    exact entered trivial trivial
  · obtain rfl := Option.some.inj step
    exact entered trivial trivial
  · rename_i phase
    simp only [CommitHeld, phase] at commit
    obtain rfl := Option.some.inj step
    exact entered trivial commit
  · obtain rfl := Option.some.inj step
    exact entered trivial trivial
  · obtain rfl := Option.some.inj step
    exact entered trivial trivial
  · cases step

theorem committed_stays {labels : List ResumeEvent} (run : Run (ResumeStep call) after labels final)
    (held : ResumeHeld call after) (committed : after.committed = true) : final.committed = true := by
  let Committed := fun state : ResumeState => ResumeHeld call state ∧ state.committed = true
  have last : Committed final := by
    apply run.invariant
    · exact ⟨held, committed⟩
    · intro before after event kept step
      have next := resume_step_kept kept.1 step
      exact ⟨next.held, next.committed kept.2⟩
  exact last.2

-- What one step of a call means for the tables, in a run that ends in `final`.
structure ResumeRespected (call : ResumeCall) (before : ResumeState) (event : ResumeEvent) (after final : ResumeState) :
    Prop where
  refused : event.Own → final.committed = false → BookkeepingOnly call before.db after.db
  bookkeeping : event.Own → after.committed = before.committed → BookkeepingOnly call before.db after.db
  accepted : before.committed = false → after.committed = true →
    ResumeAccepted before.db after.db call.components before.outputs
  returned : final.phase = .returned → final.committed = true

-- A resume changes jobs and components only by its accepted decision, whatever other writers commit
-- meanwhile.
theorem resume_preparation (asked : first.phase = .asked) (fresh : first.committed = false)
    (reached : Run (ResumeStep call) first earlier before) (step : ResumeStep call before event after)
    (rest : Run (ResumeStep call) after later final) : ResumeRespected call before event after final := by
  have start : ResumeHeld call first := by
    constructor
    · simp only [RequestHeld, asked]
    · simp only [CommitHeld, asked]
      exact fresh
  have held : ResumeHeld call before := reached.invariant start fun kept next => (resume_step_kept kept next).held
  have kept := resume_step_kept held step
  have last : ResumeHeld call final := rest.invariant kept.held fun kept next => (resume_step_kept kept next).held
  refine ⟨fun own refused => ?_, kept.bookkeeping, kept.accepted, fun returned => ?_⟩
  · have quiet : ∀ state : ResumeState, (state.committed = true → final.committed = true) → state.committed = false := by
      intro state stays
      by_contra committed
      rw [stays (by simpa using committed)] at refused
      cases refused
    have later := quiet after (committed_stays rest kept.held)
    have sooner := quiet before fun committed => committed_stays rest kept.held (kept.committed committed)
    exact kept.bookkeeping own (later.trans sooner.symm)
  · have commit := last.commit
    simp only [CommitHeld, returned] at commit
    exact commit

end Runs

section OneNode

-- The only job runs under an execution of a session that ended, and its output says that it is done.
def abandonedProject : Database := { oneNodeProject with
  jobs := ⟨[{ oneNodeJob 1 with
    status := .running
    activeExecutionId := some "e"
    activePid := some 7
    activeThreadId := some 1
    activeStartedAt := some 1 }], by decide⟩
  jobInstances := ⟨[⟨"a", 1, "00000000000000000000000000000001", some "e", none⟩], by decide⟩
  jobExecutionOwners := ⟨[⟨"e", "a", 1, "00000000000000000000000000000001", 0, "t", ["a"], 1, 0, none⟩], by decide⟩
  executionSessions := ⟨[{ oneNodeSession with sessionId := "t", status := .terminal },
    { oneNodeSession with command := "resume" }], by decide⟩
  sessionComponents := ⟨[⟨"t", 0, ["a"]⟩, ⟨"s", 0, ["a"]⟩], by decide⟩
  componentStates := ⟨[⟨["a"], 1, none, none, .failed, none, none, false, 0⟩], by decide⟩ }

def abandonedResume : ResumeCall where
  sessionId := "s"
  expectedStates := [(["a"], ⟨["a"], oneNodeShape, .failed, none, none, false, 0⟩)]
  expectedParents := []
  successfulResults := none
  expectedAdmittedShape := oneNodeShape
  clearTraceNodes := []
  operationId := "00000000000000000000000000000002"
  receiptId := "00000000000000000000000000000003"
  ownerPid := 7
  processIdentity := "p"
  hostname := "host"
  startedAt := 2

def doneOutput : JobOutputs := fun _ _ => some ⟨.done, 0, "e", 3⟩

def unresumed : ResumeState := ⟨abandonedProject, .asked, fun _ _ => none, false⟩

def resumedBy (state : ResumeState) (events : List ResumeEvent) : ResumeState :=
  (events.foldlM (resumeNext abandonedResume) state).getD state

def untilPrepared : List ResumeEvent := [.observe, .lock doneOutput 4, .acquire, .prepare]

def preparedResume : ResumeState := resumedBy unresumed untilPrepared
def committedResume : ResumeState := resumedBy preparedResume [.commit]
def returnedResume : ResumeState := resumedBy committedResume [.finish 5]
def refusedResume : ResumeState := resumedBy preparedResume [.fail, .abort true, .finish 5]

theorem resumed_by_run {state : ResumeState} {events : List ResumeEvent}
    (possible : (events.foldlM (resumeNext abandonedResume) state).isSome = true) :
    Run (ResumeStep abandonedResume) state events (resumedBy state events) := by
  apply Run.of_fold
  unfold resumedBy
  obtain ⟨final, computed⟩ := Option.isSome_iff_exists.mp possible
  rw [computed, Option.getD_some]

theorem resumed_by_step {state : ResumeState} {event : ResumeEvent}
    (possible : (resumeNext abandonedResume state event).isSome = true) :
    ResumeStep abandonedResume state event (resumedBy state [event]) := by
  obtain ⟨after, computed⟩ := Option.isSome_iff_exists.mp possible
  simp [ResumeStep, resumedBy, computed]

theorem resume_preparation_one_node : ResumeRespected abandonedResume preparedResume .commit committedResume returnedResume :=
  resume_preparation rfl rfl (resumed_by_run (by decide) : Run _ unresumed untilPrepared preparedResume)
    (resumed_by_step (by decide)) (resumed_by_run (by decide) : Run _ committedResume [.finish 5] returnedResume)

-- A job of the selection that was running is done after the resume, and a refused one leaves its attempt's
-- row.
theorem recovered_job_not_requeued :
    Run (ResumeStep abandonedResume) unresumed (untilPrepared ++ [.commit, .finish 5]) returnedResume ∧
      returnedResume.phase = .returned ∧
      (unresumed.db.jobs.find ("a", 1)).map Job.status = some .running ∧
      (returnedResume.db.jobs.find ("a", 1)).map (fun row => (row.status, row.generation)) = some (.done, 0) ∧
    Run (ResumeStep abandonedResume) unresumed (untilPrepared ++ [.fail, .abort true, .finish 5]) refusedResume ∧
      refusedResume.phase = .raised ∧ refusedResume.committed = false ∧
      unresumed.db.preparationAttempts.rows.length = 0 ∧ refusedResume.db.preparationAttempts.rows.length = 1 := by
  have prepared : Run (ResumeStep abandonedResume) unresumed untilPrepared preparedResume := resumed_by_run (by decide)
  have committed : Run (ResumeStep abandonedResume) preparedResume [.commit] committedResume :=
    resumed_by_run (by decide)
  have finished : Run (ResumeStep abandonedResume) committedResume [.finish 5] returnedResume :=
    resumed_by_run (by decide)
  have refused : Run (ResumeStep abandonedResume) preparedResume [.fail, .abort true, .finish 5] refusedResume :=
    resumed_by_run (by decide)
  refine ⟨prepared.append (committed.append finished), by decide, by decide, by decide, prepared.append refused,
    by decide, by decide,
    by decide, by decide⟩

end OneNode

end MicroWorkflow
