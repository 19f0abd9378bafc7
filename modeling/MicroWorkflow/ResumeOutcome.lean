import MicroWorkflow.ResumePreparation
import MicroWorkflow.PreparationAttempts

set_option autoImplicit false

namespace MicroWorkflow

open Lib (require refuse orRaise each thread Table)

section Outputs

structure FinishedOutput where
  status : TerminalStatus
  generation : Nat
  executionId : String
  finishedAt : Timestamp
deriving DecidableEq, Repr

abbrev JobOutputs := String → Nat → Option FinishedOutput

def endsExecution (job : PreparationJob) (output : FinishedOutput) : Bool :=
  job.status == .running && output.generation == job.generation && some output.executionId == job.activeExecutionId

def recoveredExtra (job : PreparationJob) (output : FinishedOutput) : Details :=
  [("started_at", (job.activeStartedAt.map Value.int).getD .null), ("finished_at", .int output.finishedAt),
    ("generation", .int job.generation), ("execution_id", .text output.executionId),
    ("recovered_from_output", .json "true")]

def finishedUpdate (outputs : JobOutputs) (node : String) (job : PreparationJob) : Option TerminalUpdate :=
  ((outputs node job.jobId).filter (endsExecution job)).map fun output =>
    ⟨node, job.jobId, job.generation, output.executionId, output.status, recoveredExtra job output, none⟩

def readFinishedOutputs (outputs : JobOutputs) (captured : List (String × List PreparationJob)) :
    List TerminalUpdate :=
  captured.flatMap fun entry => entry.2.filterMap (finishedUpdate outputs entry.1)

variable {outputs : JobOutputs} {node : String} {job : PreparationJob} {update : TerminalUpdate}

theorem finished_update_some (finished : finishedUpdate outputs node job = some update) :
    update.address = (node, job.jobId) ∧ update.generation = job.generation ∧
      some update.executionId = job.activeExecutionId ∧ job.status = .running := by
  obtain ⟨output, chosen, rfl⟩ := Option.map_eq_some_iff.mp finished
  have ends := (Option.filter_eq_some_iff.mp chosen).2
  simp only [endsExecution, Bool.and_eq_true, beq_iff_eq] at ends
  exact ⟨rfl, rfl, ends.2, ends.1.1⟩

end Outputs

section Selection

variable {db next : Database} {request : ResumePreparation}

def ResumePreparation.nodes (request : ResumePreparation) : List String := request.expectedStates.flatMap Prod.fst

theorem resume_node {node : String} : node ∈ request.nodes ↔ ∃ entry ∈ request.expectedStates, node ∈ entry.1 :=
  List.mem_flatMap

theorem captured_current (valid : validateResume db request = .ok ()) {node : String} (selected : node ∈ request.nodes) :
    capturedJobs request node = readJobs db node := by
  obtain ⟨entry, member, inside⟩ := resume_node.mp selected
  simp only [validateResume, Lib.bind_ok] at valid
  obtain ⟨_, _, _, _, _, nodes, _⟩ := valid
  have checked := Lib.each_ok.mp (Lib.each_ok.mp nodes entry member) node inside
  simp only [validateResumeNode, Lib.bind_ok, Lib.require_ok, beq_iff_eq] at checked
  obtain ⟨_, same, _⟩ := checked
  exact same.symm

theorem resumed_component (valid : validateResume db request = .ok ()) {entry : Component × ComponentStateSnapshot}
    (member : entry ∈ request.expectedStates) :
    readComponentStateSnapshot db entry.1 = .ok (some entry.2) ∧
      ∃ retained, readResumeSuccessfulResult db entry.1 entry.2 = .ok retained ∧
        (request.successfulResults.find? fun result => result.1 = entry.1).bind Prod.snd = retained := by
  simp only [validateResume, Lib.bind_ok] at valid
  obtain ⟨_, components, _⟩ := valid
  have checked := Lib.each_ok.mp components entry member
  simp only [validateResumeComponent, Lib.bind_ok, Lib.require_ok, Bool.and_eq_true, beq_iff_eq] at checked
  obtain ⟨_, _, _, _, _, _, current, read, _, ⟨⟨rfl, _⟩, _⟩, retained, observed, _, same, _⟩ := checked
  exact ⟨read, retained, observed, by rw [same]; rfl⟩

end Selection

section Requeueing

variable {db next : Database} {request : ResumePreparation} {items : List (String × PreparationJob)}

theorem resume_jobs_thread (done : thread (resumeJob request) db items = .ok next) :
    ∃ jobs, thread (fun (t : Table Job.address) (i : String × PreparationJob) => t.changeOne (i.1, i.2.jobId)
        (fun row => row.generation == i.2.generation) (resumedRow request)
        (Error.runtime ("Job changed before resume: " ++ address i.1 i.2.jobId))) db.jobs items = .ok jobs ∧
      next = { db with jobs := jobs, jobEvents := next.jobEvents } := by
  induction items generalizing db with
  | nil =>
      obtain rfl := Except.ok.inj done
      exact ⟨db.jobs, rfl, rfl⟩
  | cons item rest ih =>
      rw [Lib.thread_cons, Lib.bind_ok] at done
      obtain ⟨middle, first, later⟩ := done
      obtain ⟨jobs, threaded, same⟩ := ih later
      simp only [resumeJob, Lib.bind_ok, Lib.pure_ok] at first
      obtain ⟨changed, one, rfl⟩ := first
      refine ⟨jobs, ?_, same⟩
      rw [Lib.thread_cons, Lib.bind_ok]
      exact ⟨changed, one, threaded⟩

def restartAddress (item : String × PreparationJob) : JobAddress := (item.1, item.2.jobId)

theorem mem_restarted_jobs {item : String × PreparationJob} : item ∈ restartedJobs request ↔
    item.1 ∈ request.nodes ∧ item.2 ∈ capturedJobs request item.1 ∧ needsRestart request item.1 item.2 = true := by
  simp only [restartedJobs, ResumePreparation.nodes, List.mem_flatMap, List.mem_map, List.mem_filter]
  constructor
  · rintro ⟨node, ⟨entry, listed, inside⟩, job, ⟨captured, needs⟩, rfl⟩
    exact ⟨⟨entry, listed, inside⟩, captured, needs⟩
  · rintro ⟨⟨entry, listed, inside⟩, captured, needs⟩
    exact ⟨item.1, ⟨entry, listed, inside⟩, item.2, ⟨captured, needs⟩, rfl⟩

theorem restarted_rows (captured : ∀ node ∈ request.nodes, ∃ source, capturedJobs request node = readJobs source node)
    (done : thread (resumeJob request) db (restartedJobs request) = .ok next) :
    (∀ place, next.jobs.find place = (db.jobs.find place).map
        (Table.rewritten restartAddress (fun _ => resumedRow request) (restartedJobs request) place)) ∧
      next = { db with jobs := next.jobs, jobEvents := next.jobEvents } := by
  obtain ⟨jobs, threaded, same⟩ := resume_jobs_thread done
  have here : next.jobs = jobs := by rw [same]
  obtain ⟨_, _, finds⟩ := Table.thread_change_one restartAddress (by
    intro i inside j there places row met
    simp only [restartAddress, Prod.mk.injEq] at places
    obtain ⟨selected, one, _⟩ := mem_restarted_jobs.mp inside
    obtain ⟨_, other, _⟩ := mem_restarted_jobs.mp there
    obtain ⟨source, read⟩ := captured i.1 selected
    rw [← places.1, read] at other
    rw [read] at one
    have equal := read_jobs_unique one other places.2
    simp only [beq_iff_eq] at met
    simp [resumedRow, ← equal, met]) threaded
  exact ⟨fun place => by rw [here]; exact finds place, by rw [here]; exact same⟩

end Requeueing

section Recovered

variable {db next : Database} {request : ResumePreparation} {outputs : JobOutputs} {node : String}
  {job : PreparationJob} {update : TerminalUpdate}

structure CapturedSelection (request : ResumePreparation) : Prop where
  entries : ∀ entry ∈ request.captured, entry.1 ∈ request.nodes ∧ capturedJobs request entry.1 = entry.2
  nodes : ∀ node ∈ request.nodes, (node, capturedJobs request node) ∈ request.captured

theorem mem_recovered (captured : CapturedSelection request)
    (recovered : request.recovered = readFinishedOutputs outputs request.captured) :
    update ∈ request.recovered ↔ ∃ node ∈ request.nodes, ∃ job ∈ capturedJobs request node,
      finishedUpdate outputs node job = some update := by
  rw [recovered]
  simp only [readFinishedOutputs, List.mem_flatMap, List.mem_filterMap]
  constructor
  · intro found
    obtain ⟨entry, listed, job, inside, finished⟩ := found
    obtain ⟨selected, same⟩ := captured.entries entry listed
    exact ⟨entry.1, selected, job, by rw [same]; exact inside, finished⟩
  · intro found
    obtain ⟨node, selected, job, inside, finished⟩ := found
    exact ⟨_, captured.nodes node selected, job, inside, finished⟩

variable (valid : validateResume db request = .ok ()) (captured : CapturedSelection request)
  (recovered : request.recovered = readFinishedOutputs outputs request.captured)

include valid captured recovered

theorem recovered_address (selected : node ∈ request.nodes) (inside : job ∈ capturedJobs request node)
    (member : update ∈ request.recovered) (same : update.address = (node, job.jobId)) :
    finishedUpdate outputs node job = some update := by
  obtain ⟨other, chosen, held, there, finished⟩ := (mem_recovered captured recovered).mp member
  have address := (finished_update_some finished).1
  rw [same, Prod.mk.injEq] at address
  obtain ⟨rfl, ids⟩ := address
  rw [captured_current valid selected] at inside there
  rw [read_jobs_unique inside there ids]
  exact finished

theorem recovered_unique {left right : TerminalUpdate} (one : left ∈ request.recovered) (other : right ∈ request.recovered)
    (same : left.address = right.address) : left = right := by
  obtain ⟨node, selected, job, inside, finished⟩ := (mem_recovered captured recovered).mp one
  have address := (finished_update_some finished).1
  have again := recovered_address valid captured recovered selected inside other (same.symm.trans address)
  exact Option.some.inj (finished.symm.trans again)

theorem recovered_update (selected : node ∈ request.nodes) (inside : job ∈ capturedJobs request node) :
    recoveredUpdate request node job.jobId = finishedUpdate outputs node job := by
  cases found : recoveredUpdate request node job.jobId with
  | some update =>
      have member := List.mem_of_find?_eq_some found
      have address : update.address = (node, job.jobId) := by simpa using List.find?_some found
      exact (recovered_address valid captured recovered selected inside member address).symm
  | none =>
      cases finished : finishedUpdate outputs node job with
      | none => rfl
      | some update =>
          have member := (mem_recovered captured recovered).mpr ⟨node, selected, job, inside, finished⟩
          have missing := List.find?_eq_none.mp found update member
          exact absurd (finished_update_some finished).1 (by simpa using missing)

end Recovered

section Jobs

variable {db next : Database} {request : ResumePreparation} {outputs : JobOutputs} {row : Job}

def recordedEnd (outputs : JobOutputs) (row : Job) : Option TerminalStatus :=
  ((outputs row.nodeName row.jobId).filter fun output => row.status == .running
    && output.generation == row.generation && some output.executionId == row.activeExecutionId).map
    FinishedOutput.status

theorem finished_recorded (db : Database) (outputs : JobOutputs)
    (row : Job) : (finishedUpdate outputs row.nodeName (preparationJob db row)).map TerminalUpdate.status =
    recordedEnd outputs row := by
  simp only [finishedUpdate, recordedEnd, Option.map_map]
  rfl

theorem recorded_end_running {ended : TerminalStatus} (recorded : recordedEnd outputs row = some ended) :
    row.status = .running := by
  obtain ⟨output, chosen, _⟩ := Option.map_eq_some_iff.mp recorded
  have ends := (Option.filter_eq_some_iff.mp chosen).2
  simp only [Bool.and_eq_true, beq_iff_eq] at ends
  exact ends.1.1

def resumeRestarts (outputs : JobOutputs) (row : Job) : Bool :=
  match row.status with
  | .queued | .done | .skipped => false
  | .failed | .cancelled => true
  | .running => !(recordedEnd outputs row == some .done || recordedEnd outputs row == some .skipped)

theorem needs_restart_row (valid : validateResume db request = .ok ()) (captured : CapturedSelection request)
    (recovered : request.recovered = readFinishedOutputs outputs request.captured)
    (selected : row.nodeName ∈ request.nodes) (member : row ∈ db.jobs.rows) :
    needsRestart request row.nodeName (preparationJob db row) = resumeRestarts outputs row := by
  have inside : preparationJob db row ∈ capturedJobs request row.nodeName := by
    rw [captured_current valid selected]
    exact mem_read_jobs.mpr ⟨row, member, rfl, rfl⟩
  have update := recovered_update valid captured recovered selected inside
  have ended := finished_recorded db outputs row
  unfold needsRestart statusAfterRecovery resumeRestarts
  rw [update]
  cases finished : finishedUpdate outputs row.nodeName (preparationJob db row) with
  | none =>
      rw [finished] at ended
      have same : (preparationJob db row).status = row.status := rfl
      rw [← ended, same]
      cases row.status <;> rfl
  | some update =>
      rw [finished] at ended
      have running : row.status = .running := (finished_update_some finished).2.2.2
      rw [← ended, running]
      cases status : update.status <;> simp [TerminalStatus.status, status]

theorem resumed_over_terminal (entry : TerminalUpdate × JobStatus) (row : Job) :
    resumedRow request (terminalUpdateRow entry row) = resumedRow request row := rfl

structure JobsResumed (db next : Database) (request : ResumePreparation) (accepted : List (TerminalUpdate × JobStatus)) :
    Prop where
  inside : ∀ entry ∈ accepted, entry.1 ∈ request.recovered
  taken : ∀ update ∈ request.recovered, currentExecution db update = true → ∃ previous, (update, previous) ∈ accepted
  distinct : (accepted.map acceptedAddress).Nodup
  jobs : ∀ place, next.jobs.find place = (db.jobs.find place).map fun row =>
    Table.rewritten restartAddress (fun _ => resumedRow request) (restartedJobs request) place
      (Table.rewritten acceptedAddress terminalUpdateRow accepted place row)

variable {accepted : List (TerminalUpdate × JobStatus)} {place : JobAddress}

theorem rewritten_restart (row : Job) : Table.rewritten restartAddress (fun _ => resumedRow request)
    (restartedJobs request) place row =
      if ∃ item ∈ restartedJobs request, restartAddress item = place then resumedRow request row else row := by
  rcases Table.rewritten_cases restartAddress (fun _ => resumedRow request) (restartedJobs request) place row with
    ⟨same, absent⟩ | ⟨item, member, here, written⟩
  · rw [same, if_neg]
    intro found
    obtain ⟨item, member, here⟩ := found
    exact absent item member here
  · rw [written, if_pos ⟨item, member, here⟩]

theorem JobsResumed.unselected (resumed : JobsResumed db next request accepted)
    (captured : CapturedSelection request) (recovered : request.recovered = readFinishedOutputs outputs request.captured)
    (outside : place.1 ∉ request.nodes) : next.jobs.find place = db.jobs.find place := by
  rw [resumed.jobs]
  cases found : db.jobs.find place with
  | none => rfl
  | some row =>
      have absent : ∀ entry ∈ accepted, acceptedAddress entry ≠ place := by
        intro entry member here
        obtain ⟨node, selected, job, _, finished⟩ := (mem_recovered captured recovered).mp (resumed.inside entry member)
        have address := (finished_update_some finished).1
        rw [acceptedAddress] at here
        rw [address] at here
        rw [← here] at outside
        exact outside selected
      rw [Option.map_some, Table.rewritten_absent absent, rewritten_restart, if_neg]
      intro restarted
      obtain ⟨item, member, here⟩ := restarted
      rw [← here] at outside
      exact outside (mem_restarted_jobs.mp member).1

theorem JobsResumed.restarted (valid : validateResume db request = .ok ()) (captured : CapturedSelection request)
    (recovered : request.recovered = readFinishedOutputs outputs request.captured)
    (selected : row.nodeName ∈ request.nodes) (member : row ∈ db.jobs.rows) :
    (∃ item ∈ restartedJobs request, restartAddress item = row.address) ↔ resumeRestarts outputs row = true := by
  rw [← needs_restart_row valid captured recovered selected member]
  have inside : preparationJob db row ∈ readJobs db row.nodeName := mem_read_jobs.mpr ⟨row, member, rfl, rfl⟩
  constructor
  · intro restarted
    obtain ⟨⟨node, job⟩, listed, here⟩ := restarted
    obtain ⟨chosen, held, needs⟩ := mem_restarted_jobs.mp listed
    simp only [restartAddress, Job.address, Prod.mk.injEq] at here
    obtain ⟨rfl, ids⟩ := here
    rw [captured_current valid selected] at held
    rw [← read_jobs_unique held inside ids]
    exact needs
  · intro needs
    exact ⟨(row.nodeName, preparationJob db row),
      mem_restarted_jobs.mpr ⟨selected, by rw [captured_current valid selected]; exact inside, needs⟩, rfl⟩

theorem JobsResumed.requeued (resumed : JobsResumed db next request accepted)
    (valid : validateResume db request = .ok ()) (captured : CapturedSelection request)
    (recovered : request.recovered = readFinishedOutputs outputs request.captured)
    (selected : row.nodeName ∈ request.nodes) (member : row ∈ db.jobs.rows) (restarts : resumeRestarts outputs row = true) :
    next.jobs.find row.address = some (resumedRow request row) := by
  have restarted := (JobsResumed.restarted valid captured recovered selected member).mpr restarts
  rw [resumed.jobs, Table.find_of_mem member, Option.map_some, rewritten_restart, if_pos restarted]
  rcases Table.rewritten_cases acceptedAddress terminalUpdateRow accepted row.address row with
    ⟨same, _⟩ | ⟨entry, _, _, written⟩
  · rw [same]
  · rw [written, resumed_over_terminal]

theorem JobsResumed.kept (resumed : JobsResumed db next request accepted)
    (valid : validateResume db request = .ok ()) (captured : CapturedSelection request)
    (recovered : request.recovered = readFinishedOutputs outputs request.captured)
    (selected : row.nodeName ∈ request.nodes) (member : row ∈ db.jobs.rows)
    (restarts : resumeRestarts outputs row = false) :
    ∃ after, next.jobs.find row.address = some after ∧ match recordedEnd outputs row with
      | none => after = row
      | some ended => ∃ entry, after = terminalUpdateRow entry row ∧ entry.1.status = ended := by
  have waits : ¬ ∃ item ∈ restartedJobs request, restartAddress item = row.address := by
    rw [JobsResumed.restarted valid captured recovered selected member, restarts]
    exact Bool.false_ne_true
  have inside : preparationJob db row ∈ capturedJobs request row.nodeName := by
    rw [captured_current valid selected]
    exact mem_read_jobs.mpr ⟨row, member, rfl, rfl⟩
  have ended := finished_recorded db outputs row
  rw [resumed.jobs, Table.find_of_mem member, Option.map_some, rewritten_restart, if_neg waits]
  refine ⟨_, rfl, ?_⟩
  cases finished : finishedUpdate outputs row.nodeName (preparationJob db row) with
  | none =>
      rw [finished] at ended
      rw [← ended]
      apply Table.rewritten_absent
      intro entry listed here
      have given := recovered_address valid captured recovered selected inside (resumed.inside entry listed) here
      rw [finished] at given
      cases given
  | some update =>
      rw [finished] at ended
      rw [← ended]
      obtain ⟨address, generation, active, _⟩ := finished_update_some finished
      have listed := (mem_recovered captured recovered).mpr ⟨_, selected, _, inside, finished⟩
      have current : currentExecution db update = true := by
        have found : db.jobs.find update.address = some row := by
          rw [address]
          exact Table.find_of_mem member
        have guarded : terminalStatusGuard update row = true := by
          simp only [terminalStatusGuard, Bool.and_eq_true, decide_eq_true_eq]
          exact ⟨⟨address.symm, generation.symm⟩, active.symm⟩
        simp [currentExecution, found, guarded]
      obtain ⟨previous, taken⟩ := resumed.taken update listed current
      refine ⟨(update, previous), ?_, rfl⟩
      have here : row.address = acceptedAddress (update, previous) := address.symm
      rw [here, Table.rewritten_mem resumed.distinct taken]

end Jobs

section Components

variable {db next : Database} {request : ResumePreparation} {entry : Component × ComponentStateSnapshot}
  {retained : Option SuccessfulResultObservation} {row : ComponentState}

def RetainsSampled (db : Database) (row : ComponentState) : Prop :=
  ∃ result, row.retainedResultShapeId = some result.shapeId ∧
    row.retainedResultAlignmentGeneration = some result.alignmentGeneration ∧
    db.componentSuccessfulResults.find (row.componentKey, result.shapeId, result.alignmentGeneration) = some result ∧
    result.lifecycle = .sampled

def retainedFor (request : ResumePreparation) (component : Component) : Option SuccessfulResultObservation :=
  (request.successfulResults.find? fun result => result.1 = component).bind Prod.snd

def failedRetaining (retained : Option SuccessfulResultObservation) (row : ComponentState) : Bool :=
  row.lifecycle == .failed && row.retainedResultShapeId == retained.map (fun result => result.identity.shapeId)
    && row.retainedResultAlignmentGeneration == retained.map fun result => result.identity.alignmentGeneration

theorem failed_retaining {shapeId : Nat} {state : ComponentStateSnapshot}
    (met : failedAsRead shapeId state retained row = true) : failedRetaining retained row = true := by
  simp only [failedAsRead, Bool.and_eq_true] at met
  obtain ⟨⟨⟨⟨⟨⟨failed, _⟩, _⟩, _⟩, _⟩, shape⟩, generation⟩ := met
  simp only [failedRetaining, failed, shape, generation, Bool.and_self]

def resumedLifecycle (retained : Option SuccessfulResultObservation) : Lifecycle :=
  if (restoredResult retained).isSome then .sampled else .queued

theorem resumed_state_lifecycle (retained : Option SuccessfulResultObservation) (row : ComponentState) :
    (resumedState retained row).lifecycle = resumedLifecycle retained := by
  unfold resumedState resumedLifecycle
  cases restored : restoredResult retained with
  | none => rfl
  | some result =>
      have sampled := (Option.filter_eq_some_iff.mp restored).2
      exact beq_iff_eq.mp sampled

theorem resumed_state_aligned (retained : Option SuccessfulResultObservation) (row : ComponentState) :
    (resumedState retained row).alignmentGeneration = row.alignmentGeneration := by
  unfold resumedState
  cases restoredResult retained <;> rfl

def failedEntries (request : ResumePreparation) : List (Component × ComponentStateSnapshot) :=
  request.expectedStates.filter fun entry => entry.2.lifecycle == .failed

def resumedKey (entry : Component × ComponentStateSnapshot) : Component := encodeComponentKey entry.1

def retainedOf (request : ResumePreparation) (entry : Component × ComponentStateSnapshot) :
    Option SuccessfulResultObservation := retainedFor request entry.1

theorem resume_components_thread {entries : List (Component × ComponentStateSnapshot)}
    (done : thread (resumeComponent request) db entries = .ok next) :
    ∃ states, thread (fun (t : Table ComponentState.componentKey) (entry : Component × ComponentStateSnapshot) =>
        t.changeOne (resumedKey entry) (failedRetaining (retainedOf request entry))
        (resumedState (retainedOf request entry)) (Error.runtime "Component changed before resume")
        (resumed_state_key (retainedOf request entry))) db.componentStates
        (entries.filter fun entry => entry.2.lifecycle == .failed) = .ok states ∧
      next = { db with componentStates := states, nodes := next.nodes } := by
  induction entries generalizing db with
  | nil =>
      obtain rfl := Except.ok.inj done
      exact ⟨db.componentStates, rfl, rfl⟩
  | cons entry rest ih =>
      rw [Lib.thread_cons, Lib.bind_ok] at done
      obtain ⟨middle, first, later⟩ := done
      obtain ⟨states, threaded, same⟩ := ih later
      simp only [resumeComponent, Lib.bind_ok, Lib.pure_ok] at first
      obtain ⟨after, moved, rfl⟩ := first
      by_cases failed : entry.2.lifecycle = .failed
      · simp only [resumeFailedState, failed, if_true, Lib.bind_ok, Lib.pure_ok] at moved
        obtain ⟨_, _, current, _, _, _, changed, one, rfl⟩ := moved
        refine ⟨states, ?_, same⟩
        rw [List.filter_cons_of_pos (by simpa using failed), Lib.thread_cons, Lib.bind_ok]
        exact ⟨changed, Table.change_one_weaken (fun _ met => failed_retaining met) one, threaded⟩
      · simp only [resumeFailedState, if_neg failed] at moved
        obtain rfl := Except.ok.inj moved
        refine ⟨states, ?_, same⟩
        rw [List.filter_cons_of_neg (by simpa using failed)]
        exact threaded

structure StatesResumed (request : ResumePreparation) (before after : Table ComponentState.componentKey) : Prop where
  distinct : ((failedEntries request).map resumedKey).Nodup
  failed : ∀ entry ∈ failedEntries request, ∃ row, before.find (resumedKey entry) = some row ∧
    failedRetaining (retainedOf request entry) row = true
  states : ∀ key, after.find key = (before.find key).map
    (Table.rewritten resumedKey (fun entry => resumedState (retainedOf request entry)) (failedEntries request) key)

theorem resumed_states (done : thread (resumeComponent request) db request.expectedStates = .ok next) :
    StatesResumed request db.componentStates next.componentStates ∧
      next = { db with componentStates := next.componentStates, nodes := next.nodes } := by
  obtain ⟨states, threaded, same⟩ := resume_components_thread done
  have here : next.componentStates = states := by rw [same]
  obtain ⟨distinct, met, finds⟩ := Table.thread_change_one resumedKey (by
    intro i _ j _ _ row _
    have lifecycle := resumed_state_lifecycle (retainedOf request i) row
    unfold resumedLifecycle at lifecycle
    have moved : (resumedState (retainedOf request i) row).lifecycle ≠ .failed := by
      rw [lifecycle]
      split <;> simp
    simp [failedRetaining, moved]) threaded
  exact ⟨⟨distinct, met, fun key => by rw [here]; exact finds key⟩, by rw [here]; exact same⟩

theorem read_successful_result_some {component : Component} {identity : ComponentGenerationIdentity}
    {observation : SuccessfulResultObservation}
    (read : readSuccessfulResult db component identity = .ok (some observation)) :
    ∃ result, db.componentSuccessfulResults.find
        (encodeComponentKey component, identity.shapeId, identity.alignmentGeneration) = some result ∧
      observation = ⟨identity, result.lifecycle, result.stability, result.instabilityOrigin⟩ := by
  simp only [readSuccessfulResult, Lib.bind_ok] at read
  obtain ⟨members, normalized, read⟩ := read
  have key : encodeComponentKey members = encodeComponentKey component := by
    rw [normalized_members_ok normalized]
    exact component_key_idem component
  rw [key] at read
  split at read
  · cases read
  · rename_i result found
    simp only [Lib.bind_ok, Lib.pure_ok, Option.some.injEq] at read
    obtain ⟨_, _, _, _, _, _, _, _, _, _, rfl⟩ := read
    exact ⟨result, found, rfl⟩

theorem retained_sampled {state : ComponentStateSnapshot} {component : Component}
    (observed : readResumeSuccessfulResult db component state = .ok retained)
    (found : db.componentStates.find (encodeComponentKey component) = some row)
    (met : failedRetaining retained row = true) : (restoredResult retained).isSome = true ↔ RetainsSampled db row := by
  simp only [failedRetaining, Bool.and_eq_true, beq_iff_eq] at met
  obtain ⟨⟨_, shape⟩, generation⟩ := met
  have key := Table.find_key found
  cases retained with
  | none =>
      simp only [restoredResult, Option.filter_none, Option.isSome_none, Bool.false_eq_true, false_iff]
      intro sampled
      obtain ⟨result, pointed, _⟩ := sampled
      rw [shape] at pointed
      cases pointed
  | some observation =>
      simp only [readResumeSuccessfulResult, Lib.bind_ok, Lib.orRaise_ok] at observed
      obtain ⟨_, record, state, rfl, _, _, seen⟩ := observed
      simp only [observeCurrentSuccess, Lib.bind_ok] at seen
      obtain ⟨stored, read, seen⟩ := seen
      cases stored with
      | none =>
          simp only [Lib.bind_ok, Lib.pure_ok] at seen
          obtain ⟨_, _, impossible⟩ := seen
          cases impossible
      | some result =>
          simp only [Lib.pure_ok, Option.some.injEq] at seen
          subst seen
          obtain ⟨_, _, _, _, accepted⟩ := read_component_state_record_some.mp record
          have members : state.members = componentKey component := by rw [accepted.record]
          rw [readRetainedSuccessfulResult, members] at read
          cases named : state.retainedResultIdentity with
          | none =>
              rw [named] at read
              cases read
          | some identity =>
              rw [named] at read
              simp only [readRetained, Lib.bind_ok, Lib.orRaise_ok, Lib.pure_ok, Option.some.injEq] at read
              obtain ⟨_, held, _, rfl, rfl⟩ := read
              obtain ⟨result, stored, rfl⟩ := read_successful_result_some held
              have same : encodeComponentKey (componentKey component) = row.componentKey := by
                rw [key]
                exact component_key_idem component
              rw [same] at stored
              have named := Table.find_key stored
              simp only [ComponentSuccessfulResult.key, Prod.mk.injEq] at named
              obtain ⟨_, shapeId, aligned⟩ := named
              have restored : (restoredResult (some (⟨identity, result.lifecycle, result.stability,
                  result.instabilityOrigin⟩ : SuccessfulResultObservation))).isSome = true ↔
                  result.lifecycle = .sampled := by
                by_cases sampled : result.lifecycle = .sampled <;> simp [restoredResult, Option.filter, sampled]
              rw [restored]
              constructor
              · intro sampled
                refine ⟨result, ?_, ?_, ?_, sampled⟩
                · rw [shape, shapeId]
                  rfl
                · rw [generation, aligned]
                  rfl
                · rw [shapeId, aligned]
                  exact stored
              · intro sampled
                obtain ⟨other, pointed, at_, found, lifecycle⟩ := sampled
                rw [shape, Option.map_some, Option.some.injEq] at pointed
                rw [generation, Option.map_some, Option.some.injEq] at at_
                rw [← pointed, ← at_, stored, Option.some.injEq] at found
                rw [found]
                exact lifecycle

end Components

section Accepted

variable {db next : Database} {request : ResumePreparation} {outputs : JobOutputs}

theorem snapshot_row {component : Component} {state : ComponentStateSnapshot} {row : ComponentState}
    (read : readComponentStateSnapshot db component = .ok (some state))
    (found : db.componentStates.find (encodeComponentKey component) = some row) : state.lifecycle = row.lifecycle := by
  simp only [readComponentStateSnapshot, Lib.bind_ok, Lib.pure_ok] at read
  obtain ⟨members, observed, recorded, read, named⟩ := read
  obtain ⟨record, rfl, rfl⟩ := Option.map_eq_some_iff.mp named
  obtain rfl := observation_component_ok observed
  obtain ⟨_, stored, _, _, accepted⟩ := read_component_state_record_some.mp read
  have here := accepted.found
  rw [component_key_idem] at here
  have same : stored = row := Option.some.inj (here.symm.trans found)
  rw [accepted.record, ← same]
  rfl

def AbandonedJob (db : Database) (row : Job) : Prop :=
  ∃ observed owner session, readJobOwnerObservation db row.nodeName row.jobId = .ok (some observed) ∧
    observed.owner = some owner ∧ observed.session = some session ∧ session.row.status = .terminal ∧
    row.activeExecutionId = some owner.executionId

def recordsSuccess (outputs : JobOutputs) (row : Job) : Prop :=
  recordedEnd outputs row = some .done ∨ recordedEnd outputs row = some .skipped

structure ResumeAccepted (db next : Database) (components : List Component) (outputs : JobOutputs) : Prop where
  unselected : ∀ place : JobAddress, (∀ component ∈ components, place.1 ∉ component) →
    next.jobs.find place = db.jobs.find place
  settled : ∀ row ∈ db.jobs.rows, row.status = .done ∨ row.status = .skipped ∨ row.status = .queued →
    next.jobs.find row.address = some row
  requeued : ∀ component ∈ components, ∀ row ∈ db.jobs.rows, row.nodeName ∈ component →
    row.status = .failed ∨ row.status = .cancelled ∨ (row.status = .running ∧ ¬ recordsSuccess outputs row) →
    ∃ after, next.jobs.find row.address = some after ∧ after.status = .queued ∧
      after.generation = row.generation + 1 ∧ after.activeExecutionId = none
  recovered : ∀ component ∈ components, ∀ row ∈ db.jobs.rows, row.nodeName ∈ component → row.status = .running →
    ∀ ended, recordedEnd outputs row = some ended → ended = .done ∨ ended = .skipped →
    ∃ after, next.jobs.find row.address = some after ∧ after.status = ended.status ∧
      after.generation = row.generation ∧ after.activeExecutionId = none
  abandoned : ∀ component ∈ components, ∀ row ∈ db.jobs.rows, row.nodeName ∈ component → row.status = .running →
    AbandonedJob db row
  created : ∀ place, next.jobs.contains place = db.jobs.contains place
  failed : ∀ component ∈ components, ∀ row, db.componentStates.find (encodeComponentKey component) = some row →
    row.lifecycle = .failed → ∃ after, next.componentStates.find (encodeComponentKey component) = some after ∧
      (RetainsSampled db row → after.lifecycle = .sampled) ∧ (¬ RetainsSampled db row → after.lifecycle = .queued)
  others : ∀ row ∈ db.componentStates.rows,
    row.lifecycle ≠ .failed ∨ row.componentKey ∉ components.map encodeComponentKey →
    next.componentStates.find row.componentKey = some row
  generations : ∀ key, (next.componentStates.find key).map ComponentState.alignmentGeneration =
    (db.componentStates.find key).map ComponentState.alignmentGeneration
  tables : next = { db with
    jobs := next.jobs
    jobEvents := next.jobEvents
    componentStates := next.componentStates
    nodes := next.nodes
    jobRestartRevision := next.jobRestartRevision
    preparationReceipts := next.preparationReceipts }

theorem raise_refused {outcomes : List TerminalOutcome} (raised : raiseRefused outcomes = .ok ()) :
    ∀ outcome ∈ outcomes, outcome = .settled := by
  intro outcome member
  have passed := Lib.each_ok.mp raised outcome member
  cases outcome with
  | refused error => cases passed
  | settled => rfl

theorem resumed_abandoned (valid : validateResume db request = .ok ()) {row : Job} (member : row ∈ db.jobs.rows)
    (selected : row.nodeName ∈ request.nodes) (running : row.status = .running) : AbandonedJob db row := by
  obtain ⟨entry, listed, inside⟩ := resume_node.mp selected
  simp only [validateResume, Lib.bind_ok] at valid
  obtain ⟨_, _, _, _, _, nodes, _⟩ := valid
  have checked := Lib.each_ok.mp (Lib.each_ok.mp nodes entry listed) row.nodeName inside
  simp only [validateResumeNode, Lib.bind_ok] at checked
  obtain ⟨_, _, jobs⟩ := checked
  have job := Lib.each_ok.mp jobs (preparationJob db row) (mem_read_jobs.mpr ⟨row, member, rfl, rfl⟩)
  have status : (preparationJob db row).status = .running := running
  simp only [validateResumeJob, status, if_true, validateRunningResumeJob, Lib.bind_ok, Lib.orRaise_ok] at job
  obtain ⟨_, read, observed, rfl, _, _, _, _, _, _, owner, abandoned, _⟩ := job
  unfold abandonedOwner at abandoned
  split at abandoned
  · rename_i owner' session owned held
    split at abandoned
    · rename_i ended
      exact ⟨observed, owner', session, read, owned, held, ended.1, ended.2⟩
    · cases abandoned
  · cases abandoned

theorem bump_restarts_only (db : Database) (changed : Nat) :
    bumpRestarts db changed = { db with jobRestartRevision := (bumpRestarts db changed).jobRestartRevision } := by
  unfold bumpRestarts
  split <;> rfl

variable {component : Component} {after : Table ComponentState.componentKey} {accepted : List (TerminalUpdate × JobStatus)}

theorem StatesResumed.restored (resumed : StatesResumed request db.componentStates after)
    (valid : validateResume db request = .ok ()) (chosen : component ∈ request.expectedStates.map Prod.fst) {row : ComponentState}
    (found : db.componentStates.find (encodeComponentKey component) = some row) (lifecycle : row.lifecycle = .failed) :
    ∃ later, after.find (encodeComponentKey component) = some later ∧
      (RetainsSampled db row → later.lifecycle = .sampled) ∧ (¬RetainsSampled db row → later.lifecycle = .queued) := by
  obtain ⟨entry, listed, rfl⟩ := List.mem_map.mp chosen
  obtain ⟨read, retained, observed, taken⟩ := resumed_component valid listed
  have inside : entry ∈ failedEntries request := by
    rw [failedEntries, List.mem_filter, snapshot_row read found, lifecycle]
    exact ⟨listed, rfl⟩
  obtain ⟨there, stored, met⟩ := resumed.failed entry inside
  rw [resumedKey, found, Option.some.injEq] at stored
  subst stored
  have sampled := retained_sampled observed found (taken ▸ met)
  have written : after.find (encodeComponentKey entry.1) = some (resumedState (retainedOf request entry) row) := by
    have here := resumed.states (resumedKey entry)
    rw [show db.componentStates.find (resumedKey entry) = some row from found, Option.map_some,
      Table.rewritten_mem resumed.distinct inside] at here
    exact here
  refine ⟨_, written, fun holds => ?_, fun fails => ?_⟩
  · rw [resumed_state_lifecycle, resumedLifecycle, retainedOf, retainedFor, taken, if_pos (sampled.mpr holds)]
  · rw [resumed_state_lifecycle, resumedLifecycle, retainedOf, retainedFor, taken, if_neg fun some => fails (sampled.mp some)]

theorem StatesResumed.kept (resumed : StatesResumed request db.componentStates after) {row : ComponentState}
    (member : row ∈ db.componentStates.rows)
    (apart : row.lifecycle ≠ .failed ∨ row.componentKey ∉ (request.expectedStates.map Prod.fst).map encodeComponentKey) :
    after.find row.componentKey = some row := by
  rw [resumed.states, Table.find_of_mem member, Option.map_some]
  congr 1
  apply Table.rewritten_absent
  intro entry inside here
  obtain ⟨there, stored, met⟩ := resumed.failed entry inside
  rw [here, Table.find_of_mem member, Option.some.injEq] at stored
  subst stored
  have listed := (List.mem_filter.mp inside).1
  simp only [failedRetaining, Bool.and_eq_true, beq_iff_eq] at met
  rcases apart with alive | outside
  · exact alive met.1.1
  · exact outside (List.mem_map.mpr ⟨entry.1, List.mem_map_of_mem listed, here⟩)

theorem StatesResumed.aligned (resumed : StatesResumed request db.componentStates after) (key : Component) :
    (after.find key).map ComponentState.alignmentGeneration =
      (db.componentStates.find key).map ComponentState.alignmentGeneration := by
  rw [resumed.states, Option.map_map]
  cases db.componentStates.find key with
  | none => rfl
  | some row =>
      simp only [Option.map_some, Function.comp, Option.some.injEq]
      rcases Table.rewritten_cases resumedKey (fun entry => resumedState (retainedOf request entry))
        (failedEntries request) key row with ⟨same, _⟩ | ⟨entry, _, _, written⟩
      · rw [same]
      · rw [written, resumed_state_aligned]

theorem JobsResumed.settled (work : JobsResumed db next request accepted) (valid : validateResume db request = .ok ())
    (captured : CapturedSelection request) (recovered : request.recovered = readFinishedOutputs outputs request.captured)
    {row : Job} (member : row ∈ db.jobs.rows) (status : row.status = .done ∨ row.status = .skipped ∨ row.status = .queued) :
    next.jobs.find row.address = some row := by
  have rests : resumeRestarts outputs row = false := by
    rcases status with done | skipped | queued
    · simp [resumeRestarts, done]
    · simp [resumeRestarts, skipped]
    · simp [resumeRestarts, queued]
  by_cases chosen : row.nodeName ∈ request.nodes
  · obtain ⟨after, found, kept⟩ := work.kept valid captured recovered chosen member rests
    cases ended : recordedEnd outputs row with
    | none =>
        rw [ended] at kept
        rw [found, kept]
    | some status' =>
        rw [recorded_end_running ended] at status
        simp at status
  · rw [work.unselected captured recovered chosen]
    exact Table.find_of_mem member

theorem prepare_resume_components_accepted {changed : Nat} (captured : CapturedSelection request)
    (recovered : request.recovered = readFinishedOutputs outputs request.captured)
    (prepared : prepareResumeComponents db request = .ok (changed, next)) :
    ResumeAccepted db next (request.expectedStates.map Prod.fst) outputs := by
  simp only [prepareResumeComponents, Lib.bind_ok, Lib.pure_ok, Prod.mk.injEq] at prepared
  obtain ⟨_, _, _, _, _, valid, ⟨outcomes, settled⟩, applied, _, raised, requeued, jobs, resumed, components, rfl, rfl⟩ :=
    prepared
  obtain ⟨accepted, written, taken⟩ := apply_terminal_updates_settled applied
    (fun left one right other => recovered_unique valid captured recovered one other) (raise_refused raised)
  obtain ⟨restarted, afterJobs⟩ := restarted_rows (fun node selected => ⟨db, captured_current valid selected⟩) jobs
  obtain ⟨states, afterStates⟩ := resumed_states components
  have work : JobsResumed db (bumpRestarts resumed (restartedJobs request).length) request accepted := by
    refine ⟨fun entry member => (written.current entry member).1, taken, written.distinct, fun place => ?_⟩
    rw [bump_restarts_only, afterStates, restarted, written.jobs, Option.map_map]
    rfl
  have sameStates : requeued.componentStates = db.componentStates := by
    rw [afterJobs, written.others]
    rfl
  rw [sameStates] at states
  have selected : ∀ {component node}, component ∈ request.expectedStates.map Prod.fst → node ∈ component →
      node ∈ request.nodes := by
    intro component node member inside
    obtain ⟨entry, listed, rfl⟩ := List.mem_map.mp member
    exact resume_node.mpr ⟨entry, listed, inside⟩
  have final : (bumpRestarts resumed (restartedJobs request).length).componentStates = resumed.componentStates := by
    rw [bump_restarts_only]
  refine ⟨?_, fun row => work.settled valid captured recovered, ?_, ?_, ?_, ?_, ?_, ?_, ?_, ?_⟩
  · intro place outside
    refine work.unselected captured recovered fun inside => ?_
    obtain ⟨entry, listed, here⟩ := resume_node.mp inside
    exact outside entry.1 (List.mem_map_of_mem listed) here
  · intro component chosen row member inside status
    have restarts : resumeRestarts outputs row = true := by
      rcases status with failed | cancelled | running
      · simp [resumeRestarts, failed]
      · simp [resumeRestarts, cancelled]
      · have unsuccessful := not_or.mp running.2
        simp [resumeRestarts, running.1, unsuccessful.1, unsuccessful.2]
    exact ⟨_, work.requeued valid captured recovered (selected chosen inside) member restarts, rfl, rfl, rfl⟩
  · intro component chosen row member inside running ended recorded success
    have rests : resumeRestarts outputs row = false := by
      rcases success with rfl | rfl
      · simp [resumeRestarts, running, recorded]
      · simp [resumeRestarts, running, recorded]
    obtain ⟨after, found, kept⟩ := work.kept valid captured recovered (selected chosen inside) member rests
    rw [recorded] at kept
    obtain ⟨entry, rfl, same⟩ := kept
    exact ⟨_, found, by rw [← same]; rfl, rfl, rfl⟩
  · intro component chosen row member inside running
    exact resumed_abandoned valid member (selected chosen inside) running
  · intro place
    unfold Table.contains
    rw [work.jobs, Option.isSome_map]
  · intro component chosen row found lifecycle
    rw [final]
    exact states.restored valid chosen found lifecycle
  · intro row member apart
    rw [final]
    exact states.kept member apart
  · intro key
    rw [final]
    exact states.aligned key
  · rw [bump_restarts_only, afterStates, afterJobs, written.others]
    rfl

end Accepted

end MicroWorkflow
