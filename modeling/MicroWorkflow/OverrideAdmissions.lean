import MicroWorkflow.OverrideMoves

set_option autoImplicit false

namespace MicroWorkflow

open Lib (require refuse orRaise each collect thread Table)

variable {db middle next : Database} {probe : Probe} {sessionId child : String}

section Scope

structure TookScope (db next : Database) (child : String) : Prop where
  sessions : next.executionSessions = db.executionSessions
  limit : next.apiThreadLimit = db.apiThreadLimit
  pending : ∀ node value, pendingValue next node = some value → pendingValue db node = some value
  bound : ∀ node value, pendingValue db node = some value → pendingValue next node = some value ∨
    (pendingValue next node = none ∧ reservedFor next node child ∧ ownedValue next node child = some value)
  owned : ∀ node value, ownedValue next node child = some value → ownedValue db node child = some value ∨
    (reservedFor next node child ∧ (pendingValue db node = some value ∨
      ∃ source, reservedFor db node source ∧ ownedValue db node source = some value))
  kept : ∀ node value, ownedValue db node child = some value → ownedValue next node child = some value
  others : ∀ node owner, owner ≠ child → ownedValue next node owner = ownedValue db node owner
  held : ∀ node, reservedFor db node child → reservedFor next node child
  came : ∀ node owner, owner ≠ child → reservedFor next node owner → reservedFor db node owner
  reserved : ∀ node, reservedFor next node child → (∃ earlier, reservedFor db node earlier) ∨ pendingValue next node = none

theorem TookScope.refl (db : Database) (child : String) : TookScope db db child where
  sessions := rfl
  limit := rfl
  pending := fun _ _ waiting => waiting
  bound := fun _ _ waiting => .inl waiting
  owned := fun _ _ has => .inl has
  kept := fun _ _ has => has
  others := fun _ _ _ => rfl
  held := fun _ held => held
  came := fun _ _ _ held => held
  reserved := fun _ held => .inl ⟨child, held⟩

theorem TookScope.trans (first : TookScope db middle child) (second : TookScope middle next child) :
    TookScope db next child := by
  constructor
  · exact second.sessions.trans first.sessions
  · exact second.limit.trans first.limit
  · intro node value waiting
    exact first.pending node value (second.pending node value waiting)
  · intro node value waiting
    cases first.bound node value waiting with
    | inl still => exact second.bound node value still
    | inr bound =>
        obtain ⟨free, held, has⟩ := bound
        refine .inr ⟨?_, second.held node held, second.kept node value has⟩
        cases later : pendingValue next node with
        | none => rfl
        | some other =>
            have earlier := second.pending node other later
            simp [free] at earlier
  · intro node value has
    cases second.owned node value has with
    | inl before =>
        cases first.owned node value before with
        | inl old => exact .inl old
        | inr came => exact .inr ⟨second.held node came.1, came.2⟩
    | inr came =>
        obtain ⟨held, from_⟩ := came
        cases from_ with
        | inl waiting => exact .inr ⟨held, .inl (first.pending node value waiting)⟩
        | inr taken =>
            obtain ⟨source, was, had⟩ := taken
            by_cases own : source = child
            · subst own
              cases first.owned node value had with
              | inl old => exact .inl old
              | inr came => exact .inr ⟨held, came.2⟩
            · rw [first.others node source own] at had
              exact .inr ⟨held, .inr ⟨source, first.came node source own was, had⟩⟩
  · intro node value has
    exact second.kept node value (first.kept node value has)
  · intro node owner other
    rw [second.others node owner other, first.others node owner other]
  · intro node held
    exact second.held node (first.held node held)
  · intro node owner other held
    exact first.came node owner other (second.came node owner other held)
  · intro node held
    cases second.reserved node held with
    | inr free => exact .inr free
    | inl was =>
        obtain ⟨earlier, before⟩ := was
        by_cases own : earlier = child
        · subst own
          cases first.reserved node before with
          | inl old => exact .inl old
          | inr free =>
              right
              cases later : pendingValue next node with
              | none => rfl
              | some other =>
                  have waited := second.pending node other later
                  simp [free] at waited
        · exact .inl ⟨earlier, first.came node earlier own before⟩

theorem TookScope.thread {α : Type} {action : Database → α → Result Database} {items : List α}
    (step : ∀ current after, ∀ item ∈ items, action current item = .ok after → TookScope current after child)
    (done : Lib.thread action db items = .ok next) : TookScope db next child :=
  Lib.thread_invariant (motive := fun current => TookScope db current child) (TookScope.refl db child)
    (fun current after item member before moved => before.trans (step current after item member moved)) done

theorem TookScope.move (took : TookScope db next child) (running : sessionRunning db child = true) :
    OverrideMove db next := by
  have still := running_of_same took.sessions
  constructor
  · exact took.pending
  · intro node value waiting
    cases took.bound node value waiting with
    | inl left => exact .inl left
    | inr bound => exact .inr ⟨bound.1, child, bound.2⟩
  · intro node owner value has
    by_cases own : owner = child
    · subst own
      cases took.owned node value has with
      | inl old => exact .inl old
      | inr came => exact .inr ⟨by rw [still]; exact running, came⟩
    · rw [took.others node owner own] at has
      exact .inl has
  · intro node owner value has
    left
    by_cases own : owner = child
    · subst own
      exact took.kept node value has
    · rw [took.others node owner own]
      exact has
  · intro owner before
    left
    rw [still]
    exact before
  · intro node owner held
    by_cases own : owner = child
    · subst own
      exact took.reserved node held
    · exact .inl ⟨owner, took.came node owner own held⟩
  · intro before after
    obtain ⟨owner, was⟩ := any_running_iff.mp before
    have now := any_running_iff.mpr ⟨owner, by rw [still]; exact was⟩
    exact absurd now (by simp [after])

theorem bound_scope {reservations : Table ComponentReservation.componentKey} {nodes : List String}
    (old : ∀ row ∈ db.componentReservations.rows, row ∈ reservations.rows)
    (rows : ∀ row ∈ reservations.rows, row ∈ db.componentReservations.rows ∨
      (row.sessionId = child ∧ ∀ node ∈ row.componentKey, node ∈ nodes))
    (covers : ∀ node ∈ nodes, reservedFor { db with componentReservations := reservations } node child)
    (bound : BoundTo { db with componentReservations := reservations } next child nodes) : TookScope db next child := by
  have same : ∀ node owner, reservedFor next node owner ↔
      reservedFor { db with componentReservations := reservations } node owner := by
    intro node owner
    simp only [reservedFor, bound.only.reservations]
  have pendings : ∀ node, pendingValue next node = if node ∈ nodes then none else pendingValue db node := bound.pending
  have owneds : ∀ node owner, ownedValue next node owner =
      if node ∈ nodes ∧ owner = child then (pendingValue db node).or (ownedValue db node child)
      else ownedValue db node owner := bound.owned
  constructor
  · exact bound.only.sessions
  · exact bound.only.limit
  · intro node value waiting
    rw [pendings] at waiting
    by_cases inside : node ∈ nodes
    · simp [inside] at waiting
    · rwa [if_neg inside] at waiting
  · intro node value waiting
    by_cases inside : node ∈ nodes
    · right
      refine ⟨by rw [pendings, if_pos inside], (same node child).mpr (covers node inside), ?_⟩
      rw [owneds, if_pos ⟨inside, rfl⟩, waiting]
      rfl
    · left
      rw [pendings, if_neg inside]
      exact waiting
  · intro node value has
    rw [owneds] at has
    by_cases inside : node ∈ nodes
    · rw [if_pos ⟨inside, rfl⟩] at has
      cases waiting : pendingValue db node with
      | none =>
          rw [waiting, Option.none_or] at has
          exact .inl has
      | some value =>
          rw [waiting, Option.some_or] at has
          exact .inr ⟨(same node child).mpr (covers node inside), .inl has⟩
    · rw [if_neg fun both => inside both.1] at has
      exact .inl has
  · intro node value has
    exact bound.kept node child value has
  · intro node owner other
    rw [owneds, if_neg fun both => other both.2]
  · intro node held
    rw [same]
    obtain ⟨row, present, inside⟩ := held
    exact ⟨row, old row present, inside⟩
  · intro node owner other held
    rw [same] at held
    obtain ⟨row, present, inside, named⟩ := held
    cases rows row present with
    | inl was => exact ⟨row, was, inside, named⟩
    | inr new => exact absurd (named.symm.trans new.1) other
  · intro node held
    rw [same] at held
    obtain ⟨row, present, inside, named⟩ := held
    cases rows row present with
    | inl was => exact .inl ⟨row.sessionId, row, was, inside, rfl⟩
    | inr new =>
        right
        rw [pendings, if_pos (new.2 node inside)]

end Scope

section Reserve

theorem reserved_key_held {key : Component} (owned : key ∈ reservedKeys db sessionId) {node : String}
    (inside : node ∈ key) : reservedFor db node sessionId := by
  simp only [reservedKeys, List.mem_map, Table.mem_select, decide_eq_true_eq] at owned
  obtain ⟨row, ⟨present, mine⟩, rfl⟩ := owned
  exact ⟨row, present, inside, mine⟩

theorem admitted_reservations_move {selected : List Component} (running : sessionRunning db sessionId = true)
    (admitted : admitReservations db probe sessionId selected = .ok next) : OverrideMove db next := by
  simp only [admitReservations, Lib.bind_ok, Lib.orRaise_ok, Lib.require_ok, Lib.pure_ok] at admitted
  obtain ⟨reservations, inserted, bound, binding, sessions, changed, whole, _, _, _, rfl⟩ := admitted
  have rows := Table.insertAll_rows inserted
  have took : TookScope db bound sessionId := by
    apply bound_scope ?_ ?_ ?_ (bind_pending_overrides_ok binding)
    · intro row present
      rw [rows]
      exact List.mem_append_left _ present
    · intro row present
      rw [rows, List.mem_append] at present
      cases present with
      | inl was => exact .inl was
      | inr new =>
          obtain ⟨key, member, rfl⟩ := List.mem_map.mp new
          exact .inr ⟨rfl, fun node inside => List.mem_flatten.mpr ⟨key, member, inside⟩⟩
    · intro node inside
      obtain ⟨key, member, here⟩ := List.mem_flatten.mp inside
      refine ⟨⟨key, sessionId⟩, ?_, here, rfl⟩
      rw [rows]
      exact List.mem_append_right _ (List.mem_map.mpr ⟨key, member, rfl⟩)
  have last : ∀ owner, sessionRunning { bound with executionSessions := sessions } owner = sessionRunning bound owner :=
    running_of_changed changed (fun _ => rfl) rfl
  apply (took.move running).framed (OverrideFrame.refl db)
  · exact ⟨rfl, rfl, rfl, rfl, fun owner before => by rw [last]; exact before⟩
  · intro owner concluded
    rw [last]
    exact concluded

theorem validated_reservation_running {shape : Shape} {session : ExecutionSession}
    (valid : validateReservation db sessionId shape = .ok session) : sessionRunning db sessionId = true := by
  simp only [validateReservation, Lib.bind_ok, Lib.orRaise_ok, Lib.require_ok] at valid
  obtain ⟨row, found, _, running, _⟩ := valid
  simpa only [sessionRunning, found] using running

theorem reserve_execution_components_move {shape : Shape} {fresh : Bool}
    (reserved : reserveExecutionComponents db probe sessionId shape = .ok (fresh, next)) : OverrideMove db next := by
  simp only [reserveExecutionComponents, Lib.bind_ok] at reserved
  obtain ⟨_, _, session, valid, reserved⟩ := reserved
  have running := validated_reservation_running valid
  split at reserved
  · -- the session holds its scope and binds what was set in between
    rename_i whole
    simp only [Lib.bind_ok, Lib.pure_ok, Prod.mk.injEq] at reserved
    obtain ⟨_, _, bound, binding, _, _, _, rfl⟩ := reserved
    have took : TookScope db bound sessionId := by
      apply @bound_scope db bound sessionId db.componentReservations _ (fun row present => present)
        (fun row present => .inl present) ?_ (bind_pending_overrides_ok binding)
      intro node inside
      obtain ⟨key, member, here⟩ := List.mem_flatten.mp inside
      simp only [sameElements, Bool.and_eq_true, List.all_eq_true, decide_eq_true_eq] at whole
      exact reserved_key_held (whole.2 key member) here
    exact took.move running
  · simp only [Lib.bind_ok, Lib.pure_ok, Prod.mk.injEq] at reserved
    obtain ⟨_, _, _, _, after, admitted, _, rfl⟩ := reserved
    exact admitted_reservations_move running admitted

end Reserve

section Interrupt

theorem copied_scope {key : Component} {source : String} {reservations : Table ComponentReservation.componentKey}
    {error : Error}
    (changed : db.componentReservations.changeOne key (fun row => row.sessionId == source)
      (fun row => { row with sessionId := child }) error = .ok reservations)
    (copied : CopiedTo { db with componentReservations := reservations } next source child key) :
    TookScope db next child := by
  obtain ⟨taken, found, mine, here, _⟩ := Table.change_one_ok changed
  have keyed := Table.find_key found
  have sourced : taken.sessionId = source := by simpa using mine
  have rows : ∀ row, row ∈ next.componentReservations.rows ↔
      (row ∈ db.componentReservations.rows ∧ row.componentKey ≠ key) ∨
        ∃ old ∈ db.componentReservations.rows, old.componentKey = key ∧ row = { old with sessionId := child } := by
    intro row
    rw [copied.only.reservations]
    exact Table.mem_change_one changed
  have now : ∀ node ∈ key, reservedFor next node child := by
    intro node inside
    refine ⟨{ taken with sessionId := child }, ?_, by rw [keyed]; exact inside, rfl⟩
    exact (rows _).mpr (.inr ⟨taken, Table.find_mem found, keyed, rfl⟩)
  constructor
  · exact copied.only.sessions
  · exact copied.only.limit
  · intro node value waiting
    rw [copied.pending] at waiting
    exact waiting
  · intro node value waiting
    left
    rw [copied.pending]
    exact waiting
  · intro node value has
    by_cases inside : node ∈ key
    · rw [copied.copied node inside] at has
      exact .inr ⟨now node inside, .inr ⟨source, ⟨taken, Table.find_mem found, by rw [keyed]; exact inside, sourced⟩, has⟩⟩
    · rw [copied.others node child (.inr inside)] at has
      exact .inl has
  · exact copied.kept
  · intro node owner other
    exact copied.others node owner (.inl other)
  · intro node held
    obtain ⟨row, present, inside, named⟩ := held
    by_cases same : row.componentKey = key
    · exact now node (same ▸ inside)
    · exact ⟨row, (rows row).mpr (.inl ⟨present, same⟩), inside, named⟩
  · intro node owner other held
    obtain ⟨row, present, inside, named⟩ := held
    cases (rows row).mp present with
    | inl was => exact ⟨row, was.1, inside, named⟩
    | inr new =>
        obtain ⟨old, _, _, rfl⟩ := new
        exact absurd named.symm other
  · intro node held
    left
    obtain ⟨row, present, inside, _⟩ := held
    cases (rows row).mp present with
    | inl was => exact ⟨row.sessionId, row, was.1, inside, rfl⟩
    | inr new =>
        obtain ⟨old, was, _, rfl⟩ := new
        exact ⟨old.sessionId, old, was, inside, rfl⟩

theorem take_component_took {entry : Component × Option String} (taken : takeComponent probe child db entry = .ok next) :
    TookScope db next child := by
  unfold takeComponent at taken
  dsimp only at taken
  cases from_ : entry.2 with
  | none =>
      simp only [from_, Lib.bind_ok, Lib.orRaise_ok] at taken
      obtain ⟨reservations, inserted, binding⟩ := taken
      apply bound_scope ?_ ?_ ?_ (bind_pending_overrides_ok binding)
      · intro row present
        exact (Table.mem_insert inserted).mpr (.inl present)
      · intro row present
        cases (Table.mem_insert inserted).mp present with
        | inl was => exact .inl was
        | inr new =>
            subst new
            exact .inr ⟨rfl, fun node inside => inside⟩
      · intro node inside
        exact ⟨⟨entry.1, child⟩, (Table.mem_insert inserted).mpr (.inr rfl), inside, rfl⟩
  | some source =>
      simp only [from_, Lib.bind_ok] at taken
      obtain ⟨reservations, changed, transferred⟩ := taken
      exact copied_scope changed (transfer_overrides_ok transferred).1

theorem take_component_outside {entry : Component × Option String} {node : String} (outside : node ∉ entry.1)
    (taken : takeComponent probe child db entry = .ok next) :
    ownedValue next node child = ownedValue db node child := by
  unfold takeComponent at taken
  dsimp only at taken
  cases from_ : entry.2 with
  | none =>
      simp only [from_, Lib.bind_ok, Lib.orRaise_ok] at taken
      obtain ⟨reservations, _, binding⟩ := taken
      rw [(bind_pending_overrides_ok binding).owned, if_neg fun both => outside both.1]
      rfl
  | some source =>
      simp only [from_, Lib.bind_ok] at taken
      obtain ⟨reservations, _, transferred⟩ := taken
      exact (transfer_overrides_ok transferred).1.others node child (.inr outside)

theorem take_component_copied {key : Component} {source node : String} (inside : node ∈ key)
    (taken : takeComponent probe child db (key, some source) = .ok next) :
    ownedValue next node child = ownedValue db node source := by
  simp only [takeComponent, Lib.bind_ok] at taken
  obtain ⟨reservations, _, transferred⟩ := taken
  exact (transfer_overrides_ok transferred).1.copied node inside

theorem take_scope_copied {entries : List (Component × Option String)} {key : Component} {source node : String}
    (apart : disjointMembers (entries.map Prod.fst) = true) (other : source ≠ child)
    (taken : thread (takeComponent probe child) db entries = .ok next) (listed : (key, some source) ∈ entries)
    (inside : node ∈ key) : ownedValue next node child = ownedValue db node source := by
  induction entries generalizing db with
  | nil => exact absurd listed List.not_mem_nil
  | cons entry rest ih =>
      rw [Lib.thread_cons, Lib.bind_ok] at taken
      obtain ⟨after, first, later⟩ := taken
      simp only [List.map_cons, disjointMembers, Bool.and_eq_true, List.all_eq_true, List.mem_map, decide_eq_true_eq,
        forall_exists_index, and_imp, forall_apply_eq_imp_iff₂] at apart
      cases List.mem_cons.mp listed with
      | inr there =>
          rw [ih apart.2 later there]
          exact (take_component_took first).others node source other
      | inl here =>
          subst here
          have copied := take_component_copied inside first
          have untouched : ownedValue next node child = ownedValue after node child := by
            refine Lib.thread_invariant (motive := fun current => ownedValue current node child =
              ownedValue after node child) rfl ?_ later
            intro current following item member before step
            rw [take_component_outside (apart.1 item member node inside) step]
            exact before
          rw [untouched, copied]

end Interrupt

section Admit

structure OverridesStill (db next : Database) : Prop where
  pending : next.pendingNodeThreadOverrides = db.pendingNodeThreadOverrides
  owned : next.nodeThreadOverrides = db.nodeThreadOverrides
  limit : next.apiThreadLimit = db.apiThreadLimit
  reserved : next.componentReservations = db.componentReservations
  running : ∀ owner, sessionRunning next owner = sessionRunning db owner

theorem OverridesStill.trans (first : OverridesStill db middle) (second : OverridesStill middle next) :
    OverridesStill db next :=
  ⟨second.pending.trans first.pending, second.owned.trans first.owned, second.limit.trans first.limit,
    second.reserved.trans first.reserved, fun owner => (second.running owner).trans (first.running owner)⟩

theorem OverridesStill.frame (still : OverridesStill db next) : OverrideFrame db next :=
  ⟨still.pending, still.owned, still.limit, still.reserved, fun owner running => by rw [still.running]; exact running⟩

theorem insert_session_frame {row : ExecutionSession} {components : List Component} (runs : row.status = .running)
    (inserted : insertSession db row components = .ok next) :
    OverrideFrame db next ∧ db.executionSessions.find row.sessionId = none ∧ sessionRunning next row.sessionId = true := by
  simp only [insertSession, Lib.bind_ok, Lib.orRaise_ok, Lib.pure_ok] at inserted
  obtain ⟨sessions, added, selection, _, rfl⟩ := inserted
  have found : ∀ owner, sessions.find owner = if row.sessionId = owner then some row else db.executionSessions.find owner :=
    Table.find_insert added
  refine ⟨⟨rfl, rfl, rfl, rfl, fun owner running => ?_⟩, (Table.insert_eq_some.mp added).1, ?_⟩
  · by_cases own : row.sessionId = owner
    · simp [sessionRunning, found, own, runs]
    · simp only [sessionRunning, found, if_neg own]
      exact running
  · simp [sessionRunning, found, runs]

theorem record_parents_still {parents : List String} {error : Error}
    (recorded : recordParents db sessionId parents error = .ok next) : OverridesStill db next := by
  simp only [recordParents, Lib.bind_ok, Lib.pure_ok] at recorded
  obtain ⟨_, _, rfl⟩ := recorded
  exact ⟨rfl, rfl, rfl, rfl, fun _ => rfl⟩

theorem record_roots_still {roots : List JobRoot} {error : Error}
    (recorded : recordRoots db sessionId roots error = .ok next) : OverridesStill db next := by
  simp only [recordRoots, Lib.bind_ok, Lib.pure_ok] at recorded
  obtain ⟨_, _, rfl⟩ := recorded
  exact ⟨rfl, rfl, rfl, rfl, fun _ => rfl⟩

theorem fences_authorized_still {components : List Component} {createdAt : Timestamp}
    (authorized : authorizeInterruptFences db sessionId components createdAt = .ok next) : OverridesStill db next := by
  simp only [authorizeInterruptFences, Lib.bind_ok, Lib.pure_ok] at authorized
  obtain ⟨_, _, _, _, rfl⟩ := authorized
  exact ⟨rfl, rfl, rfl, rfl, fun _ => rfl⟩

theorem sample_retained_still {sample : Database → Result SampleSelection} {check : JobRoot → Result Unit}
    {duplicated lost : Error} {roots : List JobRoot}
    (retained : retainSample db sessionId sample check duplicated lost = .ok (roots, next)) : OverridesStill db next := by
  simp only [retainSample, Lib.bind_ok, Lib.pure_ok, Prod.mk.injEq] at retained
  obtain ⟨_, _, _, _, _, _, _, _, sessions, changed, _, rfl⟩ := retained
  exact ⟨rfl, rfl, rfl, rfl, running_of_changed changed (fun _ => rfl) rfl⟩

theorem interrupt_sample_still {request : InterruptRequest} {start : Component} {roots : List JobRoot}
    (retained : retainInterruptSample db request start = .ok (roots, next)) : OverridesStill db next := by
  unfold retainInterruptSample at retained
  cases sampled : request.reservedSample with
  | none =>
      simp only [sampled, Except.ok.injEq, Prod.mk.injEq] at retained
      obtain ⟨_, rfl⟩ := retained
      exact ⟨rfl, rfl, rfl, rfl, fun _ => rfl⟩
  | some sample =>
      simp only [sampled] at retained
      exact sample_retained_still retained

theorem record_pauses_still {executions : List (Component × ExecutionOwner)} {createdAt : Timestamp}
    (recorded : recordPauses db child executions createdAt = .ok next) : OverridesStill db next := by
  simp only [recordPauses, Lib.bind_ok, Lib.pure_ok] at recorded
  obtain ⟨_, _, _, _, rfl⟩ := recorded
  exact ⟨rfl, rfl, rfl, rfl, fun _ => rfl⟩

theorem record_transfers_still {transfers : List (String × Component × TransferKind)} {createdAt : Timestamp}
    (recorded : recordTransfers db child transfers createdAt = .ok next) : OverridesStill db next := by
  simp only [recordTransfers, Lib.bind_ok, Lib.pure_ok] at recorded
  obtain ⟨_, _, rfl⟩ := recorded
  exact ⟨rfl, rfl, rfl, rfl, fun _ => rfl⟩

theorem insert_admission_still {request : InterruptRequest} {start : Component}
    (inserted : insertAdmission db request start = .ok next) : OverridesStill db next := by
  simp only [insertAdmission, Lib.bind_ok, Lib.pure_ok] at inserted
  obtain ⟨_, _, rfl⟩ := inserted
  exact ⟨rfl, rfl, rfl, rfl, fun _ => rfl⟩

structure InterruptTaken (db next : Database) (probe : Probe) (request : InterruptRequest)
    (entries : List (Component × Option String)) (admitted taken : Database) : Prop where
  before : OverrideFrame db admitted
  fresh : db.executionSessions.find request.sessionId = none
  running : sessionRunning admitted request.sessionId = true
  scope : thread (takeComponent probe request.sessionId) admitted entries = .ok taken
  after : OverridesStill taken next
  apart : disjointMembers (entries.map Prod.fst) = true
  sources : ∀ entry ∈ entries, entry.2 = (db.componentReservations.find entry.1).map ComponentReservation.sessionId

theorem observed_reservation {parents : List String} {component : Component} {entry : Component × Option String}
    (observed : observeReservation db parents component = .ok entry) :
    entry = (encodeComponentKey component,
      (db.componentReservations.find (encodeComponentKey component)).map ComponentReservation.sessionId) := by
  unfold observeReservation at observed
  dsimp only at observed
  cases found : db.componentReservations.find (encodeComponentKey component) with
  | none =>
      simp only [found, Except.ok.injEq] at observed
      exact observed.symm
  | some row =>
      simp only [found, Lib.bind_ok, Lib.pure_ok] at observed
      obtain ⟨_, _, _, _, _, _, rfl⟩ := observed
      rfl

theorem interrupt_taken {request : InterruptRequest} {session : SessionSnapshot}
    (done : admitInterruptExecution db probe request = .ok (session, next)) :
    ∃ entries admitted taken, InterruptTaken db next probe request entries admitted taken := by
  simp only [admitInterruptExecution, Lib.bind_ok, Lib.pure_ok, Prod.mk.injEq] at done
  obtain ⟨_, _, ⟨start, components, predecessors⟩, valid, observed, conflicts, chosen, _, created, inserting, admitted,
    admitting, taken, taking, moved, moving, related, relating, paused, pausing, ⟨sampled, retained⟩, retaining, rooted,
    rooting, fenced, fencing, _, _, _, _, _, _, _, _, _, rfl⟩ := done
  have inserted := insert_session_frame rfl inserting
  have still := insert_admission_still admitting
  refine ⟨observed.reservations, admitted, taken, inserted.1.trans still.frame, inserted.2.1, ?_, taking, ?_, ?_, ?_⟩
  · rw [still.running]
    exact inserted.2.2
  · exact (record_transfers_still moving).trans ((record_parents_still relating).trans ((record_pauses_still pausing).trans
      ((interrupt_sample_still retaining).trans ((record_roots_still rooting).trans (fences_authorized_still fencing)))))
  all_goals
    simp only [readInterruptAdmissionConflicts, Lib.bind_ok, Lib.pure_ok] at conflicts
    obtain ⟨_, _, ⟨_, _⟩, _, _, _, _, _, _, _, _, _, _, _, executions, _, reservations, collected, rfl⟩ := conflicts
    have mapped := Lib.collect_eq_map _ (fun component entry seen => observed_reservation seen) collected
  · simp only [validateInterruptScope, Lib.bind_ok, Lib.pure_ok, Lib.require_ok, Prod.mk.injEq] at valid
    obtain ⟨_, _, _, normal, _, _, _, disjoint, _, _, _, _, _, _, _, _, _, _, rfl, rfl, _⟩ := valid
    have canonical := Lib.collect_eq_map _ (fun supplied component named => observation_component_ok named) normal
    dsimp only
    rw [mapped, List.map_map]
    have plain : (Prod.fst ∘ fun component => (encodeComponentKey component,
        (db.componentReservations.find (encodeComponentKey component)).map ComponentReservation.sessionId)) =
          encodeComponentKey := rfl
    rw [plain, canonical, List.map_map]
    have idem : encodeComponentKey ∘ componentKey = componentKey := funext component_key_idem
    rw [idem, ← canonical]
    exact disjoint
  · intro entry listed
    dsimp only at listed
    rw [mapped] at listed
    obtain ⟨component, _, rfl⟩ := List.mem_map.mp listed
    rfl

theorem take_component_rows {entry : Component × Option String} {row : ComponentReservation}
    (taken : takeComponent probe child db entry = .ok next) (present : row ∈ next.componentReservations.rows) :
    row ∈ db.componentReservations.rows ∨ row.componentKey = entry.1 := by
  unfold takeComponent at taken
  dsimp only at taken
  cases from_ : entry.2 with
  | none =>
      simp only [from_, Lib.bind_ok, Lib.orRaise_ok] at taken
      obtain ⟨reservations, inserted, binding⟩ := taken
      rw [(bind_pending_overrides_ok binding).only.reservations] at present
      cases (Table.mem_insert inserted).mp present with
      | inl was => exact .inl was
      | inr new =>
          subst new
          exact .inr rfl
  | some source =>
      simp only [from_, Lib.bind_ok] at taken
      obtain ⟨reservations, changed, transferred⟩ := taken
      rw [(transfer_overrides_ok transferred).1.only.reservations] at present
      cases (Table.mem_change_one changed).mp present with
      | inl was => exact .inl was.1
      | inr new =>
          obtain ⟨old, _, keyed, rfl⟩ := new
          exact .inr keyed

theorem admit_interrupt_move {request : InterruptRequest} {session : SessionSnapshot}
    (done : admitInterruptExecution db probe request = .ok (session, next)) : OverrideMove db next := by
  obtain ⟨entries, admitted, taken, interrupt⟩ := interrupt_taken done
  have took := TookScope.thread (fun current after entry _ step => take_component_took step) interrupt.scope
  apply (took.move interrupt.running).framed interrupt.before interrupt.after.frame
  intro owner concluded
  rw [interrupt.after.running]
  exact concluded

theorem interrupt_copies_limits {request : InterruptRequest} {session : SessionSnapshot} {held : ComponentReservation}
    {node : String} (done : admitInterruptExecution db probe request = .ok (session, next))
    (present : held ∈ db.componentReservations.rows) (running : sessionRunning db held.sessionId = true)
    (now : ⟨held.componentKey, request.sessionId⟩ ∈ next.componentReservations.rows) (inside : node ∈ held.componentKey) :
    ownedValue next node request.sessionId = ownedValue db node held.sessionId := by
  obtain ⟨entries, admitted, taken, interrupt⟩ := interrupt_taken done
  have other : held.sessionId ≠ request.sessionId := by
    intro same
    rw [same] at running
    simp [sessionRunning, interrupt.fresh] at running
  have rows : ∀ row ∈ taken.componentReservations.rows, row ∈ admitted.componentReservations.rows ∨
      ∃ entry ∈ entries, row.componentKey = entry.1 := by
    refine Lib.thread_invariant (motive := fun current => ∀ row ∈ current.componentReservations.rows,
      row ∈ admitted.componentReservations.rows ∨ ∃ entry ∈ entries, row.componentKey = entry.1)
      (fun row was => .inl was) ?_ interrupt.scope
    intro current after entry listed before step row here
    cases take_component_rows step here with
    | inl was => exact before row was
    | inr keyed => exact .inr ⟨entry, listed, keyed⟩
  rw [interrupt.after.reserved] at now
  rw [interrupt.after.frame.owned_value, ← interrupt.before.owned_value]
  cases rows _ now with
  | inl was =>
      rw [interrupt.before.reserved] at was
      have same := Table.rows_inj was present rfl
      exact absurd (congrArg ComponentReservation.sessionId same).symm other
  | inr taken_ =>
      obtain ⟨entry, listed, keyed⟩ := taken_
      have source := interrupt.sources entry listed
      dsimp only at keyed
      rw [← keyed, Table.find_of_mem present, Option.map_some] at source
      apply take_scope_copied interrupt.apart other interrupt.scope _ inside
      rw [keyed, ← source]
      exact listed

theorem create_execution_session_move {request : SessionRequest} {session : SessionSnapshot}
    (created : createExecutionSession db probe request = .ok (session, next)) : OverrideMove db next := by
  simp only [createExecutionSession, Lib.bind_ok, Lib.pure_ok, Prod.mk.injEq] at created
  obtain ⟨_, _, _, _, ⟨start, components⟩, _, ⟨shapeId, revision⟩, _, _, _, chosen, _, recorded, inserting, related,
    relating, ⟨sampled, retained⟩, retaining, rooted, rooting, fenced, fencing, _, _, _, rfl⟩ := created
  have before := (insert_session_frame rfl inserting).1.trans (record_parents_still relating).frame
  have after := (record_roots_still rooting).trans (fences_authorized_still fencing)
  unfold retainReservedSample at retaining
  cases sampling : request.reservedSample with
  | none =>
      simp only [sampling, Except.ok.injEq, Prod.mk.injEq] at retaining
      obtain ⟨_, rfl⟩ := retaining
      exact (before.trans after.frame).move
  | some sample =>
      simp only [sampling, Lib.bind_ok] at retaining
      obtain ⟨⟨_, reserved⟩, reserving, retaining⟩ := retaining
      have last := (sample_retained_still retaining).trans after
      apply (reserve_execution_components_move reserving).framed before last.frame
      intro owner concluded
      rw [last.running]
      exact concluded

end Admit

end MicroWorkflow
