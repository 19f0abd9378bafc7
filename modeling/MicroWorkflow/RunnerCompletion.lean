import MicroWorkflow.RunnerAccounting

set_option autoImplicit false

namespace MicroWorkflow

open Lib (Threads Run)
open Lib.Threads (held)

variable {ι ρ ε : Type} {config : RunnerConfig} {items : List ι} {state next : RunnerState ι ρ ε} {id limit : Nat}
  {phase : WorkerPhase ι ρ ε}

-- The worker retires as surplus while every other worker of the table is leaving, after the last item of a
-- counted list was taken and before its end was seen.
def RetiresLast (config : RunnerConfig) (state : RunnerState ι ρ ε) (id : Nat) : Prop :=
  (state.stop = false ∧ state.desired < state.workers.length) ∧ state.sourceExhausted = false ∧
    (∃ count, config.knownCount = some count ∧ count ≤ state.nextItemIndex) ∧
      ∀ other phase, (other, phase) ∈ state.workers → other ≠ id → phase = .leaving

def LimitAccepted (limit : Nat) : Prop := 1 ≤ limit ∧ limit ≤ maxRuntimeThreads

def AcceptedLimit (state : RunnerState ι ρ ε) : RunnerLabel ρ ε → Prop
  | .manage limit => state.firstError = none → LimitAccepted limit
  | .worker _ _ => True

def AcceptedStep (config : RunnerConfig) (state : RunnerState ι ρ ε) (label : RunnerLabel ρ ε) (next : RunnerState ι ρ ε) :
    Prop := AcceptedLimit state label ∧ RunnerStep config state label next

def Provided (config : RunnerConfig) (state : RunnerState ι ρ ε) : RunnerLabel ρ ε → Prop
  | .manage limit => state.firstError = none → LimitAccepted limit
  | .worker id .check => ¬RetiresLast config state id
  | .worker _ _ => True

def ProvidedStep (config : RunnerConfig) (state : RunnerState ι ρ ε) (label : RunnerLabel ρ ε) (next : RunnerState ι ρ ε) :
    Prop := Provided config state label ∧ RunnerStep config state label next

instance : Decidable (LimitAccepted limit) := inferInstanceAs (Decidable (_ ∧ _))

instance (state : RunnerState ι ρ ε) : (label : RunnerLabel ρ ε) → Decidable (AcceptedLimit state label)
  | .manage _ => inferInstanceAs (Decidable (_ → _))
  | .worker _ _ => inferInstanceAs (Decidable True)

instance [DecidableEq ι] [DecidableEq ρ] [DecidableEq ε] : Decidable (RetiresLast config state id) :=
  decidable_of_iff ((state.stop = false ∧ state.desired < state.workers.length) ∧ state.sourceExhausted = false ∧
    (∃ count ∈ config.knownCount, count ≤ state.nextItemIndex) ∧
      ∀ entry ∈ state.workers, entry.1 ≠ id → entry.2 = .leaving) (by simp only [RetiresLast, Prod.forall, Option.mem_def])

instance [DecidableEq ι] [DecidableEq ρ] [DecidableEq ε] (config : RunnerConfig) (state : RunnerState ι ρ ε) :
    (label : RunnerLabel ρ ε) → Decidable (Provided config state label)
  | .manage _ => inferInstanceAs (Decidable (_ → _))
  | .worker _ action =>
      match action with
      | .check => inferInstanceAs (Decidable (¬_))
      | .take | .load _ | .loadRaises _ | .deliver | .runReturns _ | .runRaises _ | .record | .leave =>
          inferInstanceAs (Decidable True)

structure Stuck (config : RunnerConfig) (state : RunnerState ι ρ ε) : Prop where
  waiting : state.manager = .waiting
  noWorker : state.workers = []
  noError : state.firstError = none
  outstanding : state.sourceExhausted = false ∨ state.sourceBuffer ≠ [] ∨ state.source ≠ []
  noSpawn : ∀ limit, spawnCount config { state with desired := limit } = 0

-- While the source is not used up, some worker goes on or an item waits that the manager spawns a worker
-- for.
def Attended (config : RunnerConfig) (state : RunnerState ι ρ ε) : Prop :=
  state.manager = .waiting → state.firstError = none → state.sourceExhausted = false →
    (∃ id phase, (id, phase) ∈ state.workers ∧ phase ≠ .leaving) ∨
      ∀ count, config.knownCount = some count → state.nextItemIndex < count

structure RunnerEnded (state : RunnerState ι ρ ε) : Prop where
  returned : ∀ values, state.manager = .returned values → state.workers = [] ∧ state.firstError = none ∧
    (state.sourceBuffer = [] ∧ state.source = []) ∧ values = sortedResults state.results
  raised : ∀ error, state.manager = .raised error → state.workers = [] ∧ state.firstError = some error

section Spawning

theorem effective_limit_accepted (accepted : LimitAccepted limit) : effectiveLimit limit = .ok limit := by
  rw [effectiveLimit, if_neg (Nat.not_lt.mpr accepted.1), if_neg (Nat.not_lt.mpr accepted.2)]

theorem spawn_workers_accounted (count : Nat) (kept : ItemsAccounted items state) :
    ItemsAccounted items (spawnWorkers count state) := by
  induction count generalizing state with
  | zero => exact kept
  | succ count ih => exact ih (spawn_worker_accounted kept)

theorem spawn_workers_only (count : Nat) (state : RunnerState ι ρ ε) :
    ∃ fresh, spawnWorkers count state =
      { state with nextWorkerId := state.nextWorkerId + count, workers := state.workers ++ fresh } ∧
      fresh.length = count ∧ ∀ id phase, (id, phase) ∈ fresh → phase = .looping := by
  induction count generalizing state with
  | zero => exact ⟨[], by rw [List.append_nil]; rfl, rfl, nofun⟩
  | succ count ih =>
      obtain ⟨fresh, spawned, long, looping⟩ := ih (spawnWorker state)
      refine ⟨(state.nextWorkerId, .looping) :: fresh, ?_, by rw [List.length_cons, long], ?_⟩
      · rw [spawnWorkers, spawned, spawnWorker, List.append_assoc, Nat.add_right_comm]
        rfl
      · intro id phase inside
        rcases List.mem_cons.mp inside with here | later
        · exact congrArg Prod.snd here
        · exact looping id phase later

theorem settle_loop_only (state : RunnerState ι ρ ε) : ∃ manager, settleLoop state = { state with manager } := by
  unfold settleLoop
  split
  · exact ⟨state.manager, rfl⟩
  · split
    · exact ⟨_, rfl⟩
    · exact ⟨_, rfl⟩

theorem waiting_ended (waiting : state.manager = .waiting) : RunnerEnded state where
  returned values ended := by
    rw [waiting] at ended
    cases ended
  raised error ended := by
    rw [waiting] at ended
    cases ended

theorem settled_manager (waiting : state.manager = .waiting) (kept : ItemsAccounted items state) :
    RunnerEnded (settleLoop state) := by
  unfold settleLoop
  by_cases goes : state.workers ≠ [] ∨ state.sourceExhausted = false ∧ state.firstError.isNone
  · rw [if_pos goes]
    exact waiting_ended waiting
  rw [if_neg goes]
  rw [not_or, not_not] at goes
  obtain ⟨noWorker, concluded⟩ := goes
  cases failed : state.firstError with
  | some error =>
      refine ⟨nofun, fun other ended => ⟨noWorker, ?_⟩⟩
      cases ended
      rfl
  | none =>
      have exhausted : state.sourceExhausted = true := by
        by_contra going
        exact concluded ⟨Bool.not_eq_true _ ▸ going, by rw [failed]; rfl⟩
      obtain ⟨buffer, source, _⟩ := kept.exhausted exhausted failed
      refine ⟨fun values ended => ?_, nofun⟩
      cases ended
      exact ⟨noWorker, rfl, ⟨buffer, source⟩, rfl⟩

theorem settle_loop_accounted (kept : ItemsAccounted items state) : ItemsAccounted items (settleLoop state) := by
  obtain ⟨manager, settled⟩ := settle_loop_only state
  rw [settled]
  exact { kept with }

theorem settle_loop_attended (waiting : state.manager = .waiting) (attended : Attended config state) :
    Attended config (settleLoop state) := by
  obtain ⟨manager, settled⟩ := settle_loop_only state
  rw [settled]
  exact fun _ => attended waiting

theorem settle_loop_accepted (waiting : state.manager = .waiting) (text : String) :
    (settleLoop state).manager ≠ .refused text := by
  unfold settleLoop
  split
  · rw [waiting]
    nofun
  · split <;> nofun

theorem manage_cases (config : RunnerConfig) (state : RunnerState ι ρ ε) (limit : Nat) :
    ((∃ error, state.firstError = some error) ∧ manage config state limit = settleLoop { state with stop := true }) ∨
    (state.firstError = none ∧ ∃ text, effectiveLimit limit = .error text ∧
      manage config state limit = { state with manager := .refused text }) ∨
    state.firstError = none ∧ effectiveLimit limit = .ok limit ∧ manage config state limit =
      settleLoop (spawnWorkers (spawnCount config { state with desired := limit }) { state with desired := limit }) := by
  have whole : ∀ desired, effectiveLimit limit = .ok desired → desired = limit := by
    intro desired read
    unfold effectiveLimit at read
    split at read
    · cases read
    · split at read
      · cases read
      · exact (Except.ok.inj read).symm
  unfold manage
  split
  · rename_i error failed
    exact .inl ⟨⟨error, failed⟩, rfl⟩
  · rename_i going
    split
    · rename_i text refused
      exact .inr (.inl ⟨going, text, refused, rfl⟩)
    · rename_i desired read
      obtain rfl := whole desired read
      exact .inr (.inr ⟨going, read, rfl⟩)

theorem stopped_same {error : ε} (kept : ItemsAccounted items state) (failed : state.firstError = some error) :
    { state with stop := true } = state := by
  have flag : state.stop = true := by rw [kept.stopped, failed]; rfl
  rw [← flag]

theorem manage_accounted (kept : ItemsAccounted items state)
    (limit : Nat) : ItemsAccounted items (manage config state limit) := by
  rcases manage_cases config state limit with ⟨⟨error, failed⟩, turn⟩ | ⟨_, text, _, turn⟩ | ⟨_, _, turn⟩
  · rw [turn, stopped_same kept failed]
    exact settle_loop_accounted kept
  · rw [turn]
    exact { kept with }
  · rw [turn]
    exact settle_loop_accounted (spawn_workers_accounted _ { kept with })

theorem spawned_waiting (count limit : Nat) (waiting : state.manager = .waiting) :
    (spawnWorkers count { state with desired := limit }).manager = .waiting := by
  obtain ⟨fresh, spawned, _, _⟩ := spawn_workers_only count { state with desired := limit }
  rw [spawned]
  exact waiting

theorem manage_attended (waiting : state.manager = .waiting) (attended : Attended config state) (limit : Nat) :
    Attended config (manage config state limit) := by
  rcases manage_cases config state limit with ⟨⟨error, failed⟩, turn⟩ | ⟨_, text, _, turn⟩ | ⟨_, _, turn⟩
  · rw [turn]
    exact settle_loop_attended waiting attended
  · rw [turn]
    nofun
  · rw [turn]
    refine settle_loop_attended (spawned_waiting _ limit waiting) ?_
    obtain ⟨fresh, spawned, _, _⟩ := spawn_workers_only (spawnCount config { state with desired := limit })
      { state with desired := limit }
    rw [spawned]
    intro _ going unread
    rcases attended waiting going unread with ⟨id, phase, inside, active⟩ | items
    · exact .inl ⟨id, phase, List.mem_append_left _ inside, active⟩
    · exact .inr items

theorem manage_ended (waiting : state.manager = .waiting) (kept : ItemsAccounted items state) (limit : Nat) :
    RunnerEnded (manage config state limit) := by
  rcases manage_cases config state limit with ⟨⟨error, failed⟩, turn⟩ | ⟨_, text, _, turn⟩ | ⟨_, _, turn⟩
  · rw [turn, stopped_same kept failed]
    exact settled_manager waiting kept
  · rw [turn]
    exact ⟨nofun, nofun⟩
  · rw [turn]
    exact settled_manager (spawned_waiting _ limit waiting) (spawn_workers_accounted _ { kept with })

theorem manage_accepted (waiting : state.manager = .waiting) (accepted : state.firstError = none → LimitAccepted limit)
    (text : String) : (manage config state limit).manager ≠ .refused text := by
  rcases manage_cases config state limit with ⟨⟨error, failed⟩, turn⟩ | ⟨going, text, refused, _⟩ | ⟨_, _, turn⟩
  · have still : ({ state with stop := true } : RunnerState ι ρ ε).manager = .waiting := waiting
    rw [turn]
    exact settle_loop_accepted still text
  · cases (effective_limit_accepted (accepted going)).symm.trans refused
  · rw [turn]
    exact settle_loop_accepted (spawned_waiting _ limit waiting) text

end Spawning

section Workers

variable {action : WorkerAction ρ ε}

theorem take_item_manager : (takeItem state id).manager = state.manager := by
  unfold takeItem
  by_cases stopped : state.stop = true
  · rw [if_pos stopped]
    rfl
  rw [if_neg stopped]
  cases buffer : state.sourceBuffer with
  | cons item rest => rfl
  | nil =>
      dsimp only
      split
      · rfl
      · split <;> rfl

theorem worker_step_manager (step : workerStep config state id phase action = some next) :
    next.manager = state.manager := by
  unfold workerStep at step
  split at step
  · split at step
    · exact Option.some.inj step ▸ rfl
    · split at step <;> exact Option.some.inj step ▸ rfl
  · exact Option.some.inj step ▸ take_item_manager
  · split at step
    · exact Option.some.inj step ▸ rfl
    · cases step
  all_goals first | exact Option.some.inj step ▸ rfl | cases step

theorem attended_active (moved : WorkerPhase ι ρ ε) (found : state.workers.phaseOf id = some phase) (active : moved ≠ .leaving)
    (workers : next.workers = state.workers.setPhase id moved) : Attended config next := by
  refine fun _ _ _ => .inl ⟨id, moved, ?_, active⟩
  rw [workers]
  exact Threads.mem_set_phase found

theorem attended_stopped (kept : ItemsAccounted items state) (stopped : state.stop = true)
    (same : next.firstError = state.firstError) : Attended config next := by
  intro _ going
  rw [same] at going
  have flag := kept.stopped
  rw [stopped, going] at flag
  cases flag

theorem check_attended (kept : ItemsAccounted items state) (provided : ¬RetiresLast config state id)
    (found : state.workers.phaseOf id = some .looping)
    (step : workerStep config state id .looping .check = some next) : Attended config next := by
  rw [workerStep] at step
  by_cases stopped : state.stop = true
  · rw [if_pos stopped] at step
    exact Option.some.inj step ▸ attended_stopped kept stopped rfl
  rw [if_neg stopped] at step
  by_cases surplus : state.desired < state.workers.length
  · rw [if_pos surplus] at step
    obtain rfl := Option.some.inj step
    intro _ going unread
    by_cases another : ∃ other phase, (other, phase) ∈ state.workers ∧ other ≠ id ∧ phase ≠ .leaving
    · obtain ⟨other, phase, inside, apart, active⟩ := another
      exact .inl ⟨other, phase, Threads.mem_set_other inside apart, active⟩
    · refine .inr fun count known => ?_
      by_contra taken
      refine provided ⟨⟨Bool.not_eq_true _ ▸ stopped, surplus⟩, unread, ⟨count, known, Nat.not_lt.mp taken⟩, ?_⟩
      intro other phase inside apart
      by_contra active
      exact another ⟨other, phase, inside, apart, active⟩
  · rw [if_neg surplus] at step
    exact attended_active .taking found (by simp) (congrArg RunnerState.workers (Option.some.inj step).symm)

theorem take_item_attended (kept : ItemsAccounted items state) (attended : Attended config state)
    (found : state.workers.phaseOf id = some .taking) : Attended config (takeItem state id) := by
  unfold takeItem
  by_cases stopped : state.stop = true
  · rw [if_pos stopped]
    exact attended_stopped kept stopped rfl
  rw [if_neg stopped]
  cases buffer : state.sourceBuffer with
  | cons item rest => exact attended_active (.running state.nextItemIndex item) found nofun rfl
  | nil =>
      dsimp only
      by_cases concluded : state.sourceExhausted = true
      · rw [if_pos concluded]
        intro _ _ unread
        cases concluded.symm.trans unread
      rw [if_neg concluded]
      by_cases busy : state.sourceLoading = true
      · rw [if_pos busy]
        exact attended
      · rw [if_neg busy]
        exact attended_active .loading found nofun rfl

theorem deliver_attended {batch : List ι} (found : state.workers.phaseOf id = some (.loaded batch)) :
    Attended config (deliver state id batch) := by
  unfold deliver
  dsimp only
  by_cases leaves : ((state.sourceBuffer ++ batch).isEmpty && (state.sourceExhausted || batch.isEmpty)) = true
  · intro _ _ unread
    have concluded : (state.sourceExhausted || batch.isEmpty) = true := (Bool.and_eq_true_iff.mp leaves).2
    cases concluded.symm.trans unread
  · rw [if_neg leaves]
    exact attended_active .taking found nofun rfl

theorem leave_attended (kept : ItemsAccounted items state) (attended : Attended config state)
    (found : state.workers.phaseOf id = some .leaving) : Attended config { state with workers := state.workers.leave id } := by
  intro waiting going unread
  rcases attended waiting going unread with ⟨other, phase, inside, active⟩ | items
  · refine .inl ⟨other, phase, Threads.mem_leave_other inside ?_, active⟩
    rintro rfl
    have here := (Threads.phase_of_mem kept.distinct inside).symm.trans found
    exact active (Option.some.inj here)
  · exact .inr items

theorem worker_step_attended (kept : ItemsAccounted items state) (attended : Attended config state)
    (provided : Provided config state (.worker id action)) (found : state.workers.phaseOf id = some phase)
    (step : workerStep config state id phase action = some next) : Attended config next := by
  have goes : ∀ moved : WorkerPhase ι ρ ε, moved ≠ .leaving → next.workers = state.workers.setPhase id moved →
      Attended config next := fun moved active workers => attended_active moved found active workers
  cases phase with
  | looping =>
      cases action with
      | check => exact check_attended kept provided found step
      | _ => cases step
  | taking =>
      cases action with
      | take => exact Option.some.inj step ▸ take_item_attended kept attended found
      | _ => cases step
  | loading =>
      cases action with
      | load count =>
          rw [workerStep] at step
          by_cases given : loadable config state count = true
          · rw [if_pos given] at step
            exact goes (.loaded (state.source.take count)) (by simp) (congrArg RunnerState.workers (Option.some.inj step).symm)
          · rw [if_neg given] at step
            cases step
      | loadRaises error => exact goes (.loadFailed error) (by simp) (congrArg RunnerState.workers (Option.some.inj step).symm)
      | _ => cases step
  | loaded batch =>
      cases action with
      | deliver => exact Option.some.inj step ▸ deliver_attended found
      | _ => cases step
  | loadFailed error =>
      cases action with
      | deliver => exact goes (.failing error) (by simp) (congrArg RunnerState.workers (Option.some.inj step).symm)
      | _ => cases step
  | running index item =>
      cases action with
      | runReturns value =>
          exact goes (.finished index value) (by simp) (congrArg RunnerState.workers (Option.some.inj step).symm)
      | runRaises error => exact goes (.failing error) (by simp) (congrArg RunnerState.workers (Option.some.inj step).symm)
      | _ => cases step
  | finished index value =>
      cases action with
      | record => exact goes .looping (by simp) (congrArg RunnerState.workers (Option.some.inj step).symm)
      | _ => cases step
  | failing error =>
      cases action with
      | record =>
          obtain rfl := Option.some.inj step
          intro _ going
          have recorded : state.firstError.or (some error) = none := going
          cases earlier : state.firstError with
          | none => rw [earlier] at recorded; cases recorded
          | some first => rw [earlier] at recorded; cases recorded
      | _ => cases step
  | leaving =>
      cases action with
      | leave => exact Option.some.inj step ▸ leave_attended kept attended found
      | _ => cases step

end Workers

section Starts

theorem empty_runner_accounted (items : List ι) : ItemsAccounted items (emptyRunner items : RunnerState ι ρ ε) where
  distinct := List.nodup_nil
  fresh := nofun
  whole := rfl
  numbered := rfl
  called := .nil
  stored := .nil
  oneLoader := rfl
  loading := nofun
  drained := fun holds => absurd rfl holds
  stopped := rfl
  exhausted := nofun
  failing := fun raised => absurd rfl raised
  raised := nofun
  first := nofun

inductive Starts : RunnerConfig → List ι → Nat → RunnerState ι ρ ε → Prop where
  | jobs (jobs : List ι) (limit : Nat) : Starts (jobsConfig jobs) jobs limit (runJobs jobs limit)
  | source (pulls : Bool) (source : List ι) (limit : Nat) :
      Starts (sourceConfig pulls) source limit (runJobSource pulls source limit)

theorem run_adaptive_cases (config : RunnerConfig) (items : List ι) (limit : Nat) :
    (∃ text, ¬LimitAccepted limit ∧
      (runAdaptive config items limit : RunnerState ι ρ ε) = { emptyRunner items with manager := .refused text }) ∨
    ∃ desired, (runAdaptive config items limit : RunnerState ι ρ ε) =
      settleLoop (spawnWorkers (initialWorkers config desired) { emptyRunner items with desired }) := by
  unfold runAdaptive
  split
  · rename_i text refused
    refine .inl ⟨text, fun accepted => ?_, rfl⟩
    cases (effective_limit_accepted accepted).symm.trans refused
  · exact .inr ⟨_, rfl⟩

theorem run_adaptive_accounted (limit : Nat) : ItemsAccounted items (runAdaptive config items limit : RunnerState ι ρ ε) := by
  have kept : ItemsAccounted items (emptyRunner items : RunnerState ι ρ ε) := empty_runner_accounted items
  rcases run_adaptive_cases config items limit with ⟨text, _, begun⟩ | ⟨desired, begun⟩
  · rw [begun]
    exact { kept with }
  · rw [begun]
    exact settle_loop_accounted (spawn_workers_accounted _ { kept with })

theorem run_adaptive_ended (limit : Nat) : RunnerEnded (runAdaptive config items limit : RunnerState ι ρ ε) := by
  have kept : ItemsAccounted items (emptyRunner items : RunnerState ι ρ ε) := empty_runner_accounted items
  rcases run_adaptive_cases config items limit with ⟨text, _, begun⟩ | ⟨desired, begun⟩
  · rw [begun]
    exact ⟨nofun, nofun⟩
  · rw [begun]
    exact settled_manager (spawned_waiting _ desired rfl) (spawn_workers_accounted _ { kept with })

theorem run_adaptive_attended (known : ∀ count, config.knownCount = some count → 0 < count) (limit : Nat) :
    Attended config (runAdaptive config items limit : RunnerState ι ρ ε) := by
  rcases run_adaptive_cases config items limit with ⟨text, _, begun⟩ | ⟨desired, begun⟩
  · rw [begun]
    nofun
  · rw [begun]
    refine settle_loop_attended (spawned_waiting _ desired rfl) fun _ _ _ => .inr fun count counted => ?_
    obtain ⟨fresh, spawned, _, _⟩ := spawn_workers_only (initialWorkers config desired)
      ({ emptyRunner items with desired } : RunnerState ι ρ ε)
    rw [spawned]
    exact known count counted

theorem run_adaptive_accepted (accepted : LimitAccepted limit) (text : String) :
    (runAdaptive config items limit : RunnerState ι ρ ε).manager ≠ .refused text := by
  rcases run_adaptive_cases config items limit with ⟨_, refused, _⟩ | ⟨desired, begun⟩
  · exact absurd accepted refused
  · rw [begun]
    exact settle_loop_accepted (spawned_waiting _ desired rfl) text

theorem run_jobs_cases (jobs : List ι) (limit : Nat) :
    jobs = [] ∧ (runJobs jobs limit : RunnerState ι ρ ε) = { emptyRunner jobs with manager := .returned [] } ∨
    jobs ≠ [] ∧ (runJobs jobs limit : RunnerState ι ρ ε) = runAdaptive (jobsConfig jobs) jobs limit := by
  cases jobs with
  | nil => exact .inl ⟨rfl, rfl⟩
  | cons first rest => exact .inr ⟨nofun, rfl⟩

theorem starts_accounted (begins : Starts config items limit state) : ItemsAccounted items state := by
  cases begins with
  | source pulls => exact run_adaptive_accounted limit
  | jobs =>
      have kept : ItemsAccounted items (emptyRunner items : RunnerState ι ρ ε) := empty_runner_accounted items
      rcases run_jobs_cases items limit with ⟨_, begun⟩ | ⟨_, begun⟩
      · rw [begun]
        exact { kept with }
      · rw [begun]
        exact run_adaptive_accounted limit

theorem starts_ended (begins : Starts config items limit state) : RunnerEnded state := by
  cases begins with
  | source pulls => exact run_adaptive_ended limit
  | jobs =>
      rcases run_jobs_cases items limit with ⟨empty, begun⟩ | ⟨_, begun⟩
      · rw [begun]
        refine ⟨fun values ended => ?_, nofun⟩
        cases ended
        exact ⟨rfl, rfl, ⟨rfl, empty⟩, rfl⟩
      · rw [begun]
        exact run_adaptive_ended limit

theorem starts_attended (begins : Starts config items limit state) : Attended config state := by
  cases begins with
  | source pulls =>
      refine run_adaptive_attended (fun count counted => ?_) limit
      cases counted
  | jobs =>
      rcases run_jobs_cases items limit with ⟨_, begun⟩ | ⟨some, begun⟩
      · rw [begun]
        nofun
      · rw [begun]
        refine run_adaptive_attended (fun count counted => ?_) limit
        cases counted
        exact List.length_pos_of_ne_nil some

theorem starts_accepted (begins : Starts config items limit state) (accepted : LimitAccepted limit) (text : String) :
    state.manager ≠ .refused text := by
  cases begins with
  | source pulls => exact run_adaptive_accepted accepted text
  | jobs =>
      rcases run_jobs_cases items limit with ⟨_, begun⟩ | ⟨_, begun⟩
      · rw [begun]
        nofun
      · rw [begun]
        exact run_adaptive_accepted accepted text

end Starts

section Runs

variable {label : RunnerLabel ρ ε} {start : RunnerState ι ρ ε} {labels : List (RunnerLabel ρ ε)}

theorem runner_step_cases (step : RunnerStep config state label next) :
    (∃ limit, label = .manage limit ∧ state.manager = .waiting ∧ next = manage config state limit) ∨
    ∃ id action phase, label = .worker id action ∧ state.workers.phaseOf id = some phase ∧
      workerStep config state id phase action = some next := by
  cases label with
  | manage limit =>
      rw [RunnerStep, runnerStep] at step
      split at step
      · rename_i waiting
        exact .inl ⟨limit, rfl, waiting, (Option.some.inj step).symm⟩
      · cases step
  | worker id action =>
      rw [RunnerStep, runnerStep] at step
      split at step
      · rename_i phase found
        exact .inr ⟨id, action, phase, rfl, found, step⟩
      · cases step

theorem runner_step_accounted (kept : ItemsAccounted items state) (step : RunnerStep config state label next) :
    ItemsAccounted items next := by
  rcases runner_step_cases step with ⟨limit, _, _, rfl⟩ | ⟨id, action, phase, _, found, moved⟩
  · exact manage_accounted kept limit
  · exact worker_step_accounted kept found moved

theorem runner_step_ended (kept : ItemsAccounted items state) (ended : RunnerEnded state)
    (step : RunnerStep config state label next) :
    RunnerEnded next := by
  rcases runner_step_cases step with ⟨limit, _, waiting, rfl⟩ | ⟨id, action, phase, _, found, moved⟩
  · exact manage_ended waiting kept limit
  · have present : state.workers ≠ [] := by
      intro nobody
      rw [nobody] at found
      cases found
    have same := worker_step_manager moved
    refine ⟨fun values concluded => ?_, fun error concluded => ?_⟩
    · exact absurd (ended.returned values (same ▸ concluded)).1 present
    · exact absurd (ended.raised error (same ▸ concluded)).1 present

theorem provided_step_attended (kept : ItemsAccounted items state) (attended : Attended config state)
    (step : ProvidedStep config state label next) : Attended config next := by
  obtain ⟨provided, step⟩ := step
  rcases runner_step_cases step with ⟨limit, _, waiting, rfl⟩ | ⟨id, action, phase, rfl, found, moved⟩
  · exact manage_attended waiting attended limit
  · exact worker_step_attended kept attended provided found moved

theorem provided_step_accepted (before : ∀ text, state.manager ≠ .refused text) (step : ProvidedStep config state label next)
    (text : String) : next.manager ≠ .refused text := by
  obtain ⟨provided, step⟩ := step
  rcases runner_step_cases step with ⟨limit, rfl, waiting, rfl⟩ | ⟨id, action, phase, _, _, moved⟩
  · exact manage_accepted waiting provided text
  · rw [worker_step_manager moved]
    exact before text

structure Answering (items : List ι) (state : RunnerState ι ρ ε) : Prop where
  accounted : ItemsAccounted items state
  ended : RunnerEnded state

structure Completing (config : RunnerConfig) (items : List ι) (state : RunnerState ι ρ ε) : Prop where
  accounted : ItemsAccounted items state
  attended : Attended config state
  accepted : ∀ text, state.manager ≠ .refused text

theorem run_answering (begins : Starts config items limit start) (run : Run (RunnerStep config) start labels state) :
    Answering items state := by
  have initial : Answering items start := ⟨starts_accounted begins, starts_ended begins⟩
  exact run.invariant initial fun kept step =>
    ⟨runner_step_accounted kept.accounted step, runner_step_ended kept.accounted kept.ended step⟩

theorem run_completing (begins : Starts config items limit start) (accepted : LimitAccepted limit)
    (run : Run (ProvidedStep config) start labels state) : Completing config items state := by
  have initial : Completing config items start :=
    ⟨starts_accounted begins, starts_attended begins, starts_accepted begins accepted⟩
  exact run.invariant initial fun kept step =>
    ⟨runner_step_accounted kept.accounted step.2, provided_step_attended kept.accounted kept.attended step,
      provided_step_accepted kept.accepted step⟩

theorem attended_not_stuck (kept : ItemsAccounted items state) (attended : Attended config state) : ¬Stuck config state := by
  intro stuck
  by_cases concluded : state.sourceExhausted = true
  · obtain ⟨buffer, source, _⟩ := kept.exhausted concluded stuck.noError
    rcases stuck.outstanding with unread | waits | left
    · cases concluded.symm.trans unread
    · exact waits buffer
    · exact left source
  have unread : state.sourceExhausted = false := Bool.not_eq_true _ ▸ concluded
  rcases attended stuck.waiting stuck.noError unread with ⟨id, phase, inside, _⟩ | items
  · rw [stuck.noWorker] at inside
    cases inside
  have none := stuck.noSpawn 1
  unfold spawnCount at none
  rw [if_pos ⟨unread, by rw [stuck.noWorker]; exact Nat.one_pos⟩, stuck.noWorker] at none
  cases known : config.knownCount with
  | none =>
      rw [known] at none
      cases none
  | some count =>
      have one : min (min 1 (count - state.nextItemIndex)) 1 = 0 := by
        rw [known] at none
        exact none
      have waits := items count known
      omega

end Runs

section Results

theorem sorted_results_get {results : List (Nat × ρ)} {count : Nat}
    (indexed : (results.map Prod.fst).Perm (List.range count)) :
    (sortedResults results).length = count ∧
      ∀ index value, (sortedResults results)[index]? = some value ↔ (index, value) ∈ results := by
  have sorted := List.perm_insertionSort (fun left right : Nat × ρ => left.1 ≤ right.1) results
  have keys : (results.insertionSort fun left right => left.1 ≤ right.1).map Prod.fst = List.range count := by
    refine ((sorted.map Prod.fst).trans indexed).eq_of_pairwise' ?_ List.pairwise_le_range
    exact List.pairwise_map.mpr (List.pairwise_insertionSort _ _)
  rw [sortedResults]
  generalize results.insertionSort (fun left right : Nat × ρ => left.1 ≤ right.1) = list at sorted keys
  have entry : ∀ (index : Nat) (pair : Nat × ρ), list[index]? = some pair → pair.1 = index := by
    intro index pair here
    have key : (list.map Prod.fst)[index]? = some pair.1 := by rw [List.getElem?_map, here]; rfl
    rw [keys] at key
    obtain ⟨_, same⟩ := List.getElem?_eq_some_iff.mp key
    rw [List.getElem_range] at same
    exact same.symm
  refine ⟨by rw [List.length_map, ← List.length_map Prod.fst, keys, List.length_range], fun index value => ?_⟩
  rw [List.getElem?_map, Option.map_eq_some_iff, ← sorted.mem_iff]
  refine ⟨?_, fun inside => ?_⟩
  · rintro ⟨⟨other, answer⟩, here, rfl⟩
    obtain rfl : other = index := entry index _ here
    exact List.mem_of_getElem? here
  · obtain ⟨place, here⟩ := List.mem_iff_getElem?.mp inside
    obtain rfl : index = place := entry place _ here
    exact ⟨_, here, rfl⟩

theorem passed_in_order (kept : ItemsAccounted items state) :
    state.passed.map Prod.snd <+: items ∧ state.passed.map Prod.fst = List.range state.passed.length := by
  refine ⟨⟨_, kept.whole⟩, ?_⟩
  have long : state.passed.length = state.nextItemIndex := by
    rw [← List.length_map Prod.fst, kept.numbered, List.length_range]
  rw [kept.numbered, long]

theorem returned_answers (kept : Answering items state) {values : List ρ} (concluded : state.manager = .returned values) :
    state.errors = [] ∧ state.passed.map Prod.snd = items ∧ values.length = items.length ∧
      ∀ index value, values[index]? = some value ↔ (index, value) ∈ state.answers := by
  obtain ⟨nobody, going, ⟨buffer, source⟩, rfl⟩ := kept.ended.returned values concluded
  have calm : state.errors = [] := by
    by_contra raised
    have holds := kept.accounted.failing raised going
    rw [nobody] at holds
    exact holds rfl
  have passed : state.passed.map Prod.snd = items := by
    have whole := kept.accounted.whole
    rw [buffer, source, nobody] at whole
    rw [← whole]
    exact (List.append_nil _).symm
  have stored := kept.accounted.stored
  have called := kept.accounted.called
  rw [nobody] at stored called
  rw [calm, kept.accounted.numbered] at called
  have indexed : (state.results.map Prod.fst).Perm (List.range state.nextItemIndex) := by
    refine ((stored.map Prod.fst).symm.trans ?_).trans called.symm
    exact .of_eq (List.append_nil _).symm
  obtain ⟨long, get⟩ := sorted_results_get indexed
  refine ⟨calm, passed, ?_, fun index value => (get index value).trans stored.symm.mem_iff⟩
  rw [long, ← passed, List.length_map, ← List.length_map Prod.fst, kept.accounted.numbered, List.length_range]

end Results

section Doomed

structure Doomed (config : RunnerConfig) (state : RunnerState ι ρ ε) : Prop where
  waiting : state.manager = .waiting
  leaving : ∀ id phase, (id, phase) ∈ state.workers → phase = .leaving
  going : state.firstError = none
  unread : state.sourceExhausted = false
  taken : ∃ count, config.knownCount = some count ∧ count ≤ state.nextItemIndex

theorem working_waits (ended : RunnerEnded state) (accepted : ∀ text, state.manager ≠ .refused text)
    (found : state.workers.phaseOf id = some phase) : state.manager = .waiting := by
  have present : state.workers ≠ [] := by
    intro nobody
    rw [nobody] at found
    cases found
  cases manager : state.manager with
  | waiting => rfl
  | returned values => exact absurd (ended.returned values manager).1 present
  | raised error => exact absurd (ended.raised error manager).1 present
  | refused text => exact absurd manager (accepted text)

theorem retires_last_doomed (kept : ItemsAccounted items state) (waiting : state.manager = .waiting)
    (retires : RetiresLast config state id) (step : workerStep config state id .looping .check = some next) :
    Doomed config next := by
  obtain ⟨⟨running, surplus⟩, unread, taken, others⟩ := retires
  have goes : ¬state.stop = true := Bool.not_eq_true _ ▸ running
  rw [workerStep, if_neg goes, if_pos surplus] at step
  obtain rfl := Option.some.inj step
  refine ⟨waiting, fun other phase inside => ?_, kept.running goes, unread, taken⟩
  rcases Threads.of_mem_set_phase inside with ⟨_, left⟩ | ⟨apart, before⟩
  · exact left
  · exact others other phase before apart

theorem doomed_spawns_none (doomed : Doomed config state) (limit : Nat) :
    spawnCount config { state with desired := limit } = 0 := by
  obtain ⟨count, known, taken⟩ := doomed.taken
  have nothing : count - state.nextItemIndex = 0 := Nat.sub_eq_zero_of_le taken
  unfold spawnCount
  split
  · dsimp only
    rw [known]
    dsimp only
    rw [nothing, Nat.min_zero, Nat.zero_min]
  · rfl

theorem doomed_stuck (doomed : Doomed config state) (nobody : state.workers = []) : Stuck config state :=
  ⟨doomed.waiting, nobody, doomed.going, .inl doomed.unread, doomed_spawns_none doomed⟩

theorem doomed_step {label : RunnerLabel ρ ε} (doomed : Doomed config state) (step : AcceptedStep config state label next) :
    Doomed config next := by
  obtain ⟨accepted, step⟩ := step
  rcases runner_step_cases step with ⟨limit, rfl, _, rfl⟩ | ⟨id, action, phase, _, found, moved⟩
  · rcases manage_cases config state limit with ⟨⟨error, failed⟩, _⟩ | ⟨going, text, refused, _⟩ | ⟨_, _, turn⟩
    · cases doomed.going.symm.trans failed
    · cases (effective_limit_accepted (accepted going)).symm.trans refused
    · rw [turn, doomed_spawns_none doomed, spawnWorkers, settleLoop,
        if_pos (.inr ⟨doomed.unread, by rw [doomed.going]; rfl⟩)]
      exact { doomed with }
  · obtain rfl := doomed.leaving id phase (Threads.mem_of_phase found)
    cases action with
    | leave =>
        obtain rfl := Option.some.inj moved
        refine { doomed with leaving := fun other phase inside => ?_ }
        exact doomed.leaving other phase (Threads.of_mem_leave inside)
    | _ => cases moved

theorem doomed_run {labels : List (RunnerLabel ρ ε)} {later : RunnerState ι ρ ε} (doomed : Doomed config state)
    (run : Run (AcceptedStep config) state labels later) : Doomed config later :=
  run.invariant doomed doomed_step

theorem accepted_step_accepted {label : RunnerLabel ρ ε} (before : ∀ text, state.manager ≠ .refused text)
    (step : AcceptedStep config state label next) (text : String) : next.manager ≠ .refused text := by
  obtain ⟨accepted, step⟩ := step
  rcases runner_step_cases step with ⟨limit, rfl, waiting, rfl⟩ | ⟨id, action, phase, _, _, moved⟩
  · exact manage_accepted waiting accepted text
  · rw [worker_step_manager moved]
    exact before text

end Doomed

theorem threaded_runner_completes {start : RunnerState ι ρ ε} {labels : List (RunnerLabel ρ ε)}
    (begins : Starts config items limit start) (run : Run (RunnerStep config) start labels state) :
    (state.passed.map Prod.snd <+: items ∧ state.passed.map Prod.fst = List.range state.passed.length) ∧
    (∀ values, state.manager = .returned values → state.workers = [] ∧ state.errors = [] ∧
      state.passed.map Prod.snd = items ∧ values.length = items.length ∧
        ∀ index value, values[index]? = some value ↔ (index, value) ∈ state.answers) ∧
    (∀ error, state.manager = .raised error → state.workers = [] ∧ error ∈ state.errors.map Prod.snd) ∧
    (LimitAccepted limit → Run (ProvidedStep config) start labels state →
      ¬Stuck config state ∧ ∀ text, state.manager ≠ .refused text) := by
  have kept := run_answering begins run
  refine ⟨passed_in_order kept.accounted, fun values concluded => ?_, fun error concluded => ?_, fun accepted provided => ?_⟩
  · exact ⟨(kept.ended.returned values concluded).1, returned_answers kept concluded⟩
  · obtain ⟨nobody, failed⟩ := kept.ended.raised error concluded
    exact ⟨nobody, kept.accounted.first error failed⟩
  · have completing := run_completing begins accepted provided
    exact ⟨attended_not_stuck completing.accounted completing.attended, completing.accepted⟩

def wholeRun : List (RunnerLabel Nat String) :=
  [.worker 0 .check, .worker 0 .take, .worker 0 (.load 1), .worker 0 .deliver, .worker 0 .take, .worker 1 .check,
    .worker 1 .take, .worker 1 (.load 1), .worker 1 .deliver, .worker 1 .take, .worker 0 (.runReturns 11), .worker 0 .record,
    .manage 1, .worker 0 .check, .worker 0 .leave, .worker 1 (.runReturns 21), .worker 1 .record, .worker 1 .check,
    .worker 1 .take, .worker 1 (.load 0), .worker 1 .deliver, .worker 1 .leave, .manage 1]

def returnedOnce : RunnerState Nat Nat String :=
  { emptyRunner [] with
    desired := 1
    sourceExhausted := true
    nextItemIndex := 2
    nextWorkerId := 2
    results := [(0, 11), (1, 21)]
    manager := .returned [11, 21]
    passed := [(0, 10), (1, 20)]
    answers := [(0, 11), (1, 21)] }

theorem threaded_runner_returns_once :
    Run (ProvidedStep (jobsConfig [10, 20])) (runJobs [10, 20] 2) wholeRun returnedOnce ∧
      returnedOnce.passed.map Prod.snd = [10, 20] ∧ returnedOnce.errors = [] ∧
        ¬Stuck (jobsConfig [10, 20]) returnedOnce := by
  have provided : Run (ProvidedStep (jobsConfig [10, 20])) (runJobs [10, 20] 2) wholeRun returnedOnce :=
    Run.of_guarded_fold (by decide +kernel)
  have run := provided.imp fun step => step.2
  obtain ⟨_, calm, passed, _⟩ := (threaded_runner_completes (.jobs [10, 20] 2) run).2.1 [11, 21] rfl
  have going := ((threaded_runner_completes (.jobs [10, 20] 2) run).2.2.2 (by decide) provided).1
  exact ⟨provided, passed, calm, going⟩

def retiringRun : List (RunnerLabel Nat String) :=
  [.worker 0 .check, .worker 0 .take, .worker 0 (.load 1), .worker 0 .deliver, .worker 0 .take, .worker 0 (.runReturns 11),
    .worker 0 .record, .worker 1 .check, .worker 1 .take, .worker 1 (.load 1), .worker 1 .deliver, .worker 1 .take,
    .worker 1 (.runReturns 21), .worker 1 .record, .manage 1, .worker 0 .check, .worker 1 .check, .worker 0 .leave,
    .worker 1 .leave]

def bothRetired : RunnerState Nat Nat String :=
  { emptyRunner [] with
    desired := 1
    nextItemIndex := 2
    nextWorkerId := 2
    results := [(0, 11), (1, 21)]
    passed := [(0, 10), (1, 20)]
    answers := [(0, 11), (1, 21)] }

theorem threaded_runner_waits_forever :
    Run (RunnerStep (jobsConfig [10, 20])) (runJobs [10, 20] 2) retiringRun bothRetired ∧
      bothRetired.errors = [] ∧ Stuck (jobsConfig [10, 20]) bothRetired := by
  have doomed : Doomed (jobsConfig [10, 20]) bothRetired := ⟨rfl, nofun, rfl, rfl, 2, rfl, Nat.le_refl 2⟩
  exact ⟨Run.of_fold (by decide +kernel), rfl, doomed_stuck doomed rfl⟩

-- As long as the runner accepts every limit it reads, the manager waits for ever after the last worker of a
-- counted list retired as surplus.
theorem retired_last_never_ends {start later : RunnerState ι ρ ε} {labels more : List (RunnerLabel ρ ε)}
    (begins : Starts config items limit start) (accepted : LimitAccepted limit)
    (run : Run (AcceptedStep config) start labels state) (retires : RetiresLast config state id)
    (step : RunnerStep config state (.worker id .check) next) (rest : Run (AcceptedStep config) next more later) :
    later.manager = .waiting ∧ (∀ other phase, (other, phase) ∈ later.workers → phase = .leaving) ∧
      (later.workers = [] → Stuck config later) := by
  have kept := run_answering begins (run.imp fun step => step.2)
  have held := run.invariant (starts_accepted begins accepted) accepted_step_accepted
  rcases runner_step_cases step with ⟨_, other, _⟩ | ⟨_, _, phase, same, found, moved⟩
  · cases other
  · cases same
    have waiting := working_waits kept.ended held found
    cases phase with
    | looping =>
        have doomed := doomed_run (retires_last_doomed kept.accounted waiting retires moved) rest
        exact ⟨doomed.waiting, doomed.leaving, doomed_stuck doomed⟩
    | _ => cases moved

def lastRetiring : RunnerState Nat Nat String := { bothRetired with workers := [(0, .leaving), (1, .looping)] }

def lastRetired : RunnerState Nat Nat String := { bothRetired with workers := [(0, .leaving), (1, .leaving)] }

theorem both_retired_never_returns : Stuck (jobsConfig [10, 20]) bothRetired := by
  have run : Run (AcceptedStep (jobsConfig [10, 20])) (runJobs [10, 20] 2) (retiringRun.take 16) lastRetiring :=
    Run.of_guarded_fold (by decide +kernel)
  have leaves : Run (AcceptedStep (jobsConfig [10, 20])) lastRetired [.worker 0 .leave, .manage 4, .worker 1 .leave, .manage 1]
      bothRetired := Run.of_guarded_fold (by decide +kernel)
  have retires : RetiresLast (jobsConfig [10, 20]) lastRetiring 1 := by decide
  exact (retired_last_never_ends (.jobs [10, 20] 2) (by decide) run retires
    (show RunnerStep _ lastRetiring (.worker 1 .check) lastRetired from rfl) leaves).2.2 rfl

end MicroWorkflow
