import Mathlib.Logic.Function.Basic
import MicroWorkflow.Lib.JsonWriter
import MicroWorkflow.Lib.Machine

set_option autoImplicit false

namespace MicroWorkflow

open Lib (Json)

section Owners

def newAdvisoryOwner (hostname : String) (pid threadId : Int) (nonce : String) : String :=
  String.ofList (Json.dumps Json.escapeAscii (.object [("hostname", .string hostname), ("nonce", .string nonce),
    ("pid", Json.integer pid),
    ("thread_id", Json.integer threadId), ("version", Json.integer 2)]))

structure ParsedOwner where
  pid : Int
  hostname : String
deriving DecidableEq, Repr

def parseAdvisoryOwner (owner : String) : Option ParsedOwner :=
  if owner = "" then none
  else
    match Json.loads owner.toList with
    | some (.object data) =>
        match (Json.member data "pid").bind Json.asInteger, Json.member data "hostname" with
        | some pid, some (.string hostname) => if pid > 0 then some ⟨pid, hostname⟩ else none
        | _, _ => none
    | _ => none

theorem parse_new_owner {hostname nonce : String} {pid threadId : Int} (positive : 0 < pid) :
    parseAdvisoryOwner (newAdvisoryOwner hostname pid threadId nonce) = some ⟨pid, hostname⟩ := by
  have named : newAdvisoryOwner hostname pid threadId nonce ≠ "" := by
    intro same
    have text := congrArg String.toList same
    rw [newAdvisoryOwner, String.toList_ofList] at text
    cases text
  have loaded : Json.loads (newAdvisoryOwner hostname pid threadId nonce).toList = some (.object [("hostname", .string hostname),
      ("nonce", .string nonce), ("pid", Json.integer pid), ("thread_id", Json.integer threadId),
        ("version", Json.integer 2)]) := by
    rw [newAdvisoryOwner, String.toList_ofList]
    exact Json.loads_dumps Json.scan_string_ascii ⟨trivial, trivial, ⟨pid, rfl⟩, ⟨threadId, rfl⟩, ⟨2, rfl⟩, trivial⟩
  simp [parseAdvisoryOwner, named, loaded, Json.member, positive]

end Owners

-- One call of `interprocess_lock` that is not nested in another of its fiber: the process, the fiber and
-- the name of the lock, as the map of held locks is keyed.
structure AdvisoryKey where
  pid : Int
  fiber : Nat
  name : String
deriving DecidableEq, Repr

inductive AdvisoryPhase where
  | trying
  | acquired
  | holding (count : Nat)
  | releasing (acquired : Bool)
  | deleted
deriving DecidableEq, Repr

def AdvisoryPhase.holds : AdvisoryPhase → Bool
  | .acquired | .holding _ => true
  | _ => false

structure AdvisoryCall where
  owner : String
  phase : AdvisoryPhase
deriving DecidableEq, Repr

structure AdvisoryRow where
  owner : String
  acquiredAt : Int
  expiresAt : Int
deriving DecidableEq, Repr

-- `registry` gives each living process its registered owners; `issued` are the tokens made so far. The
-- thread lock of a name only orders the calls of one process further and is left out.
structure AdvisoryState where
  rows : String → Option AdvisoryRow
  registry : Int → Option (List String)
  calls : AdvisoryKey → Option AdvisoryCall
  issued : List String

section Liveness

variable (hostname : String) (state : AdvisoryState)

def processIsAlive (pid : Int) : Bool := (state.registry pid).isSome

def advisoryOwnerIsRegistered (pid : Int) (owner : String) : Bool :=
  match state.registry pid with
  | some registered => registered.contains owner
  | none => false

def advisoryOwnerLiveness (here : Int) (owner : String) : Option Bool :=
  match parseAdvisoryOwner owner with
  | none => none
  | some parsed =>
      if parsed.hostname ≠ "" ∧ parsed.hostname ≠ hostname then none
      else if parsed.pid = here then some (advisoryOwnerIsRegistered state here owner)
      else some (processIsAlive state parsed.pid)

def advisoryLockIsReclaimable (here : Int) (owner : String) (expiresAt now : Int) : Bool :=
  match advisoryOwnerLiveness hostname state here owner with
  | some false => true
  | some true => false
  | none => expiresAt ≤ now

def reclaimable (here : Int) (name : String) (now : Int) : Bool :=
  match state.rows name with
  | none => true
  | some row => advisoryLockIsReclaimable hostname state here row.owner row.expiresAt now

end Liveness

inductive AdvisoryLabel where
  | spawn (pid : Int)
  | die (pid : Int)
  | register (key : AdvisoryKey) (threadId : Int) (nonce : String)
  | attempt (key : AdvisoryKey) (now leaseSeconds : Int)
  | fail (key : AdvisoryKey) (acquired : Bool)
  | enter (key : AdvisoryKey)
  | reenter (key : AdvisoryKey)
  | leave (key : AdvisoryKey)
  | exit (key : AdvisoryKey)
  | delete (key : AdvisoryKey) (committed : Bool)
  | unregister (key : AdvisoryKey)
deriving DecidableEq, Repr

namespace AdvisoryState

variable (hostname : String)

def setPhase (state : AdvisoryState) (key : AdvisoryKey) (call : AdvisoryCall) (phase : AdvisoryPhase) : AdvisoryState :=
  { state with calls := Function.update state.calls key (some { call with phase := phase }) }

def register (state : AdvisoryState) (key : AdvisoryKey) (owner : String) (registered : List String) : AdvisoryState :=
  { state with
    registry := Function.update state.registry key.pid (some (owner :: registered))
    calls := Function.update state.calls key (some ⟨owner, .trying⟩)
    issued := owner :: state.issued }

def take (state : AdvisoryState) (key : AdvisoryKey) (call : AdvisoryCall) (now leaseSeconds : Int) : AdvisoryState :=
  { state.setPhase key call .acquired with
    rows := Function.update state.rows key.name (some ⟨call.owner, now, now + leaseSeconds⟩) }

def deleteRow (state : AdvisoryState) (name owner : String) : AdvisoryState :=
  { state with rows := fun other => if other = name then (state.rows other).filter (fun row => row.owner ≠ owner)
    else state.rows other }

def discard (state : AdvisoryState) (key : AdvisoryKey) (owner : String) : AdvisoryState :=
  { state with
    registry := Function.update state.registry key.pid ((state.registry key.pid).map (·.filter (· ≠ owner)))
    calls := Function.update state.calls key none }

def die (state : AdvisoryState) (pid : Int) : AdvisoryState :=
  { state with
    registry := Function.update state.registry pid none
    calls := fun key => if key.pid = pid then none else state.calls key }

def step (state : AdvisoryState) : AdvisoryLabel → Option AdvisoryState
  | .spawn pid =>
      if 0 < pid ∧ state.registry pid = none then
        some { state with registry := Function.update state.registry pid (some []) }
      else none
  | .die pid => if (state.registry pid).isSome then some (state.die pid) else none
  | .register key threadId nonce =>
      let owner := newAdvisoryOwner hostname key.pid threadId nonce
      match state.registry key.pid, state.calls key with
      | some registered, none =>
          if owner ∈ state.issued then none else some (state.register key owner registered)
      | _, _ => none
  | .attempt key now leaseSeconds =>
      match state.calls key with
      | some ⟨owner, .trying⟩ =>
          if reclaimable hostname state key.pid key.name now then some (state.take key ⟨owner, .trying⟩ now leaseSeconds)
          else some state
      | _ => none
  -- A timeout, or an error around the transaction, which leaves no row behind
  -- unless it was committed before.
  | .fail key acquired =>
      match state.calls key with
      | some ⟨owner, .trying⟩ => some (state.setPhase key ⟨owner, .trying⟩ (.releasing acquired))
      | some ⟨owner, .acquired⟩ => if acquired then some (state.setPhase key ⟨owner, .acquired⟩ (.releasing true)) else none
      | _ => none
  | .enter key =>
      match state.calls key with
      | some ⟨owner, .acquired⟩ => some (state.setPhase key ⟨owner, .acquired⟩ (.holding 1))
      | _ => none
  | .reenter key =>
      match state.calls key with
      | some ⟨owner, .holding count⟩ => some (state.setPhase key ⟨owner, .holding count⟩ (.holding (count + 1)))
      | _ => none
  | .leave key =>
      match state.calls key with
      | some ⟨owner, .holding (count + 2)⟩ => some (state.setPhase key ⟨owner, .holding (count + 2)⟩ (.holding (count + 1)))
      | _ => none
  | .exit key =>
      match state.calls key with
      | some ⟨owner, .holding 1⟩ => some (state.setPhase key ⟨owner, .holding 1⟩ (.releasing true))
      | _ => none
  | .delete key committed =>
      match state.calls key with
      | some ⟨owner, .releasing true⟩ =>
          let after := state.setPhase key ⟨owner, .releasing true⟩ .deleted
          some (if committed then after.deleteRow key.name owner else after)
      | some ⟨owner, .releasing false⟩ => some (state.setPhase key ⟨owner, .releasing false⟩ .deleted)
      | _ => none
  | .unregister key =>
      match state.calls key with
      | some ⟨owner, .deleted⟩ => some (state.discard key owner)
      | _ => none

end AdvisoryState

structure CallSound (hostname : String) (state : AdvisoryState) (key : AdvisoryKey) (call : AdvisoryCall) : Prop where
  registered : advisoryOwnerIsRegistered state key.pid call.owner = true
  parsed : parseAdvisoryOwner call.owner = some ⟨key.pid, hostname⟩
  issued : call.owner ∈ state.issued
  rowed : call.phase.holds = true → ∃ row, state.rows key.name = some row ∧ row.owner = call.owner
  unrowed : call.phase = .trying → ∀ name row, state.rows name = some row → row.owner ≠ call.owner
  homed : ∀ name row, state.rows name = some row → row.owner = call.owner → name = key.name

structure AdvisoryInvariant (hostname : String) (state : AdvisoryState) : Prop where
  positive : ∀ pid registered, state.registry pid = some registered → 0 < pid
  calls : ∀ key call, state.calls key = some call → CallSound hostname state key call
  apart : ∀ key other call more, state.calls key = some call → state.calls other = some more →
    call.owner = more.owner → key = other
  issuedRow : ∀ name row, state.rows name = some row → row.owner ∈ state.issued

section Invariant

variable {hostname : String} {state next : AdvisoryState} {key other : AdvisoryKey} {call more : AdvisoryCall}
  {phase : AdvisoryPhase} {owner name : String} {row : AdvisoryRow} {label : AdvisoryLabel}

theorem call_of_set_phase (found : (state.setPhase key call phase).calls other = some more) :
    (other = key ∧ more = { call with phase := phase }) ∨ (other ≠ key ∧ state.calls other = some more) := by
  by_cases same : other = key
  · subst same
    simp only [AdvisoryState.setPhase, Function.update_self, Option.some.injEq] at found
    exact .inl ⟨rfl, found.symm⟩
  · simp only [AdvisoryState.setPhase, Function.update_of_ne same] at found
    exact .inr ⟨same, found⟩

theorem live_known (invariant : AdvisoryInvariant hostname state) (found : state.calls key = some call) (here : Int) :
    advisoryOwnerLiveness hostname state here call.owner = some true := by
  have registered := (invariant.calls key call found).registered
  have alive : processIsAlive state key.pid = true := by
    rw [processIsAlive]
    rw [advisoryOwnerIsRegistered] at registered
    cases process : state.registry key.pid with
    | none => rw [process] at registered; cases registered
    | some known => rfl
  rw [advisoryOwnerLiveness, (invariant.calls key call found).parsed]
  by_cases own : key.pid = here
  · subst own
    simp [registered]
  · simp [own, alive]

theorem live_not_reclaimable (invariant : AdvisoryInvariant hostname state) (found : state.calls key = some call)
    (stored : state.rows name = some row) (owned : row.owner = call.owner) (here now : Int) :
    reclaimable hostname state here name now = false := by
  simp only [reclaimable, stored, advisoryLockIsReclaimable, owned, live_known invariant found]

theorem set_phase_invariant (invariant : AdvisoryInvariant hostname state) (found : state.calls key = some call)
    (held : phase.holds = true → call.phase.holds = true) (tried : phase = .trying → call.phase = .trying) :
    AdvisoryInvariant hostname (state.setPhase key call phase) where
  positive := invariant.positive
  calls other more listed := by
    rcases call_of_set_phase listed with ⟨rfl, rfl⟩ | ⟨_, before⟩
    · have sound := invariant.calls other call found
      exact { sound with rowed := fun holds => sound.rowed (held holds), unrowed := fun trying => sound.unrowed (tried trying) }
    · exact { invariant.calls other more before with }
  apart first second one two listed also same := by
    rcases call_of_set_phase listed with ⟨rfl, rfl⟩ | ⟨_, before⟩ <;>
      rcases call_of_set_phase also with ⟨rfl, rfl⟩ | ⟨_, earlier⟩
    · rfl
    · exact invariant.apart _ _ call two found earlier same
    · exact invariant.apart _ _ one call before found same
    · exact invariant.apart _ _ one two before earlier same
  issuedRow := invariant.issuedRow

theorem delete_row_some {asked : String} : (state.deleteRow name owner).rows asked = some row ↔
    state.rows asked = some row ∧ (asked = name → row.owner ≠ owner) := by
  by_cases same : asked = name
  · simp [AdvisoryState.deleteRow, same, Option.filter_eq_some_iff]
  · simp [AdvisoryState.deleteRow, same]

theorem delete_row_invariant (invariant : AdvisoryInvariant hostname state) (found : state.calls key = some call)
    (idle : call.phase.holds = false) : AdvisoryInvariant hostname (state.deleteRow key.name call.owner) where
  positive := invariant.positive
  apart := invariant.apart
  calls other more listed := by
    have sound := invariant.calls other more listed
    refine ⟨sound.registered, sound.parsed, sound.issued, fun holds => ?_,
      fun trying name row stored => sound.unrowed trying name row (delete_row_some.mp stored).1,
      fun name row stored => sound.homed name row (delete_row_some.mp stored).1⟩
    obtain ⟨row, stored, owned⟩ := sound.rowed holds
    refine ⟨row, delete_row_some.mpr ⟨stored, fun _ same => ?_⟩, owned⟩
    have here := invariant.apart key other call more found listed (same.symm.trans owned)
    subst here
    have alike : call = more := Option.some.inj (found.symm.trans listed)
    rw [← alike, idle] at holds
    cases holds
  issuedRow asked row stored := invariant.issuedRow asked row (delete_row_some.mp stored).1

theorem take_rows {now leaseSeconds : Int} {asked : String}
    (stored : (state.take key call now leaseSeconds).rows asked = some row) :
    (asked = key.name ∧ row.owner = call.owner) ∨ (asked ≠ key.name ∧ state.rows asked = some row) := by
  by_cases same : asked = key.name
  · subst same
    simp only [AdvisoryState.take, Function.update_self, Option.some.injEq] at stored
    exact .inl ⟨rfl, by rw [← stored]⟩
  · simp only [AdvisoryState.take, Function.update_of_ne same] at stored
    exact .inr ⟨same, stored⟩

theorem take_own_row {now leaseSeconds : Int} :
    (state.take key call now leaseSeconds).rows key.name = some ⟨call.owner, now, now + leaseSeconds⟩ := by
  simp only [AdvisoryState.take, Function.update_self]

theorem take_invariant {now leaseSeconds : Int} (invariant : AdvisoryInvariant hostname state)
    (found : state.calls key = some ⟨owner, .trying⟩) (free : reclaimable hostname state key.pid key.name now = true) :
    AdvisoryInvariant hostname (state.take key ⟨owner, .trying⟩ now leaseSeconds) where
  positive := invariant.positive
  calls other more listed := by
    have own := invariant.calls key ⟨owner, .trying⟩ found
    rcases call_of_set_phase listed with ⟨rfl, rfl⟩ | ⟨different, before⟩
    · refine ⟨own.registered, own.parsed, own.issued, fun _ => ⟨_, take_own_row, rfl⟩, nofun, fun asked row stored owned => ?_⟩
      rcases take_rows stored with ⟨here, _⟩ | ⟨_, earlier⟩
      · exact here
      · exact absurd owned (own.unrowed rfl asked row earlier)
    · have sound := invariant.calls other more before
      have alien : more.owner ≠ owner := fun same => different (invariant.apart other key more _ before found same)
      refine ⟨sound.registered, sound.parsed, sound.issued, fun holds => ?_, fun trying asked row stored => ?_,
        fun asked row stored owned => ?_⟩
      · obtain ⟨row, stored, owned⟩ := sound.rowed holds
        by_cases shared : other.name = key.name
        · rw [shared] at stored
          rw [live_not_reclaimable invariant before stored owned] at free
          cases free
        · refine ⟨row, ?_, owned⟩
          simpa only [AdvisoryState.take, Function.update_of_ne shared] using stored
      · rcases take_rows stored with ⟨_, taken⟩ | ⟨_, earlier⟩
        · exact fun owned => alien (owned.symm.trans taken)
        · exact sound.unrowed trying asked row earlier
      · rcases take_rows stored with ⟨_, taken⟩ | ⟨_, earlier⟩
        · exact absurd (owned.symm.trans taken) alien
        · exact sound.homed asked row earlier owned
  apart first second one two listed also same := by
    rcases call_of_set_phase listed with ⟨rfl, rfl⟩ | ⟨_, before⟩ <;>
      rcases call_of_set_phase also with ⟨rfl, rfl⟩ | ⟨_, earlier⟩
    · rfl
    · exact invariant.apart _ _ ⟨owner, .trying⟩ two found earlier same
    · exact invariant.apart _ _ one ⟨owner, .trying⟩ before found same
    · exact invariant.apart _ _ one two before earlier same
  issuedRow asked row stored := by
    rcases take_rows stored with ⟨_, owned⟩ | ⟨_, earlier⟩
    · rw [owned]
      exact (invariant.calls key _ found).issued
    · exact invariant.issuedRow asked row earlier

theorem registered_iff {pid : Int} : advisoryOwnerIsRegistered state pid owner = true ↔
    ∃ known, state.registry pid = some known ∧ owner ∈ known := by
  rw [advisoryOwnerIsRegistered]
  cases process : state.registry pid with
  | none => simp
  | some known => simp

theorem call_of_register {known : List String} (found : (state.register key owner known).calls other = some more) :
    (other = key ∧ more = ⟨owner, .trying⟩) ∨ (other ≠ key ∧ state.calls other = some more) := by
  by_cases same : other = key
  · subst same
    simp only [AdvisoryState.register, Function.update_self, Option.some.injEq] at found
    exact .inl ⟨rfl, found.symm⟩
  · simp only [AdvisoryState.register, Function.update_of_ne same] at found
    exact .inr ⟨same, found⟩

theorem register_invariant {known : List String} (invariant : AdvisoryInvariant hostname state)
    (living : state.registry key.pid = some known) (token : parseAdvisoryOwner owner = some ⟨key.pid, hostname⟩)
    (fresh : owner ∉ state.issued) : AdvisoryInvariant hostname (state.register key owner known) where
  positive pid registered found := by
    by_cases same : pid = key.pid
    · rw [same]
      exact invariant.positive key.pid known living
    · simp only [AdvisoryState.register, Function.update_of_ne same] at found
      exact invariant.positive pid registered found
  calls other more listed := by
    rcases call_of_register listed with ⟨rfl, rfl⟩ | ⟨_, before⟩
    · have absent : ∀ name row, state.rows name = some row → row.owner ≠ owner :=
        fun name row stored same => fresh (same ▸ invariant.issuedRow name row stored)
      refine ⟨registered_iff.mpr ⟨owner :: known, Function.update_self .., List.mem_cons_self⟩, token, List.mem_cons_self, nofun,
        fun _ => absent, fun name row stored owned => absurd owned (absent name row stored)⟩
    · have sound := invariant.calls other more before
      obtain ⟨old, process, member⟩ := registered_iff.mp sound.registered
      refine { sound with registered := registered_iff.mpr ?_, issued := List.mem_cons_of_mem _ sound.issued }
      by_cases same : other.pid = key.pid
      · rw [same] at process ⊢
        cases living.symm.trans process
        exact ⟨owner :: known, Function.update_self .., List.mem_cons_of_mem _ member⟩
      · exact ⟨old, by simpa only [AdvisoryState.register, Function.update_of_ne same] using process, member⟩
  apart first second one two listed also same := by
    rcases call_of_register listed with ⟨rfl, rfl⟩ | ⟨_, before⟩ <;>
      rcases call_of_register also with ⟨rfl, rfl⟩ | ⟨_, earlier⟩
    · rfl
    · have alike : two.owner = owner := same.symm
      exact absurd (alike ▸ (invariant.calls second two earlier).issued) fresh
    · have alike : one.owner = owner := same
      exact absurd (alike ▸ (invariant.calls first one before).issued) fresh
    · exact invariant.apart _ _ one two before earlier same
  issuedRow asked row stored := List.mem_cons_of_mem _ (invariant.issuedRow asked row stored)

theorem fewer_calls_invariant (invariant : AdvisoryInvariant hostname state)
    (kept : ∀ other more, next.calls other = some more → state.calls other = some more)
    (known : ∀ other more, next.calls other = some more → advisoryOwnerIsRegistered next other.pid more.owner = true)
    (positive : ∀ pid registered, next.registry pid = some registered → 0 < pid)
    (rows : next.rows = state.rows) (issued : next.issued = state.issued) : AdvisoryInvariant hostname next where
  positive := positive
  calls other more listed := by
    have sound := invariant.calls other more (kept other more listed)
    refine ⟨known other more listed, sound.parsed, issued ▸ sound.issued, ?_, ?_, ?_⟩
    · rw [rows]
      exact sound.rowed
    · rw [rows]
      exact sound.unrowed
    · rw [rows]
      exact sound.homed
  apart first second one two listed also := invariant.apart first second one two (kept _ _ listed) (kept _ _ also)
  issuedRow := by
    rw [rows, issued]
    exact invariant.issuedRow

theorem discard_invariant (invariant : AdvisoryInvariant hostname state) (found : state.calls key = some call) :
    AdvisoryInvariant hostname (state.discard key call.owner) := by
  have kept : ∀ other more, (state.discard key call.owner).calls other = some more → other ≠ key ∧
    state.calls other = some more := by
    intro other more listed
    by_cases same : other = key
    · simp [AdvisoryState.discard, same] at listed
    · exact ⟨same, by simpa [AdvisoryState.discard, Function.update_of_ne same] using listed⟩
  refine fewer_calls_invariant invariant (fun other more listed => (kept other more listed).2) ?_ ?_ rfl rfl
  · intro other more listed
    obtain ⟨different, before⟩ := kept other more listed
    obtain ⟨known, process, member⟩ := registered_iff.mp ((invariant.calls other more before).registered)
    by_cases same : other.pid = key.pid
    · have token : more.owner ≠ call.owner := fun alike => different (invariant.apart other key more call before found alike)
      rw [same] at process ⊢
      refine registered_iff.mpr ⟨known.filter (· ≠ call.owner), ?_, by simp [member, token]⟩
      simp [AdvisoryState.discard, process]
    · refine registered_iff.mpr ⟨known, ?_, member⟩
      simpa only [AdvisoryState.discard, Function.update_of_ne same] using process
  · intro pid registered process
    by_cases same : pid = key.pid
    · obtain ⟨known, before, _⟩ := registered_iff.mp ((invariant.calls key call found).registered)
      rw [same]
      exact invariant.positive key.pid known before
    · simp only [AdvisoryState.discard, Function.update_of_ne same] at process
      exact invariant.positive pid registered process

theorem die_invariant {pid : Int} (invariant : AdvisoryInvariant hostname state) :
    AdvisoryInvariant hostname (state.die pid) := by
  have kept : ∀ other more, (state.die pid).calls other = some more → other.pid ≠ pid ∧ state.calls other = some more := by
    intro other more listed
    by_cases same : other.pid = pid
    · simp [AdvisoryState.die, same] at listed
    · exact ⟨same, by simpa [AdvisoryState.die, same] using listed⟩
  refine fewer_calls_invariant invariant (fun other more listed => (kept other more listed).2) ?_ ?_ rfl rfl
  · intro other more listed
    obtain ⟨different, before⟩ := kept other more listed
    obtain ⟨known, process, member⟩ := registered_iff.mp ((invariant.calls other more before).registered)
    refine registered_iff.mpr ⟨known, ?_, member⟩
    simpa only [AdvisoryState.die, Function.update_of_ne different] using process
  · intro asked registered process
    by_cases same : asked = pid
    · simp [AdvisoryState.die, same] at process
    · simp only [AdvisoryState.die, Function.update_of_ne same] at process
      exact invariant.positive asked registered process

theorem spawn_invariant {pid : Int} (invariant : AdvisoryInvariant hostname state) (positive : 0 < pid)
    (absent : state.registry pid = none) :
    AdvisoryInvariant hostname { state with registry := Function.update state.registry pid (some []) } := by
  refine fewer_calls_invariant invariant (fun _ _ listed => listed) ?_ ?_ rfl rfl
  · intro other more listed
    obtain ⟨known, process, member⟩ := registered_iff.mp ((invariant.calls other more listed).registered)
    have different : other.pid ≠ pid := by
      intro same
      rw [same, absent] at process
      cases process
    refine registered_iff.mpr ⟨known, ?_, member⟩
    simpa only [Function.update_of_ne different] using process
  · intro asked registered process
    by_cases same : asked = pid
    · rw [same]
      exact positive
    · simp only [Function.update_of_ne same] at process
      exact invariant.positive asked registered process

theorem attempt_cases {now leaseSeconds : Int} (stepped : state.step hostname (.attempt key now leaseSeconds) = some next) :
    ∃ owner, state.calls key = some ⟨owner, .trying⟩ ∧
      ((reclaimable hostname state key.pid key.name now = true ∧ next = state.take key ⟨owner, .trying⟩ now leaseSeconds) ∨
        (reclaimable hostname state key.pid key.name now = false ∧ next = state)) := by
  simp only [AdvisoryState.step] at stepped
  split at stepped
  · next owner found =>
      refine ⟨owner, found, ?_⟩
      by_cases free : reclaimable hostname state key.pid key.name now = true
      · rw [if_pos free] at stepped
        exact .inl ⟨free, (Option.some.inj stepped).symm⟩
      · rw [if_neg free] at stepped
        exact .inr ⟨Bool.eq_false_iff.mpr free, (Option.some.inj stepped).symm⟩
  · cases stepped

theorem delete_cases {committed : Bool} (stepped : state.step hostname (.delete key committed) = some next) :
    ∃ call, state.calls key = some call ∧ call.phase.holds = false ∧ call.phase ≠ .trying ∧
      (next = (state.setPhase key call .deleted).deleteRow key.name call.owner ∨ next = state.setPhase key call .deleted) := by
  simp only [AdvisoryState.step] at stepped
  split at stepped
  · next owner found =>
      refine ⟨_, found, rfl, by simp, ?_⟩
      cases committed with
      | true => exact .inl (Option.some.inj stepped).symm
      | false => exact .inr (Option.some.inj stepped).symm
  · next owner found => exact ⟨_, found, rfl, by simp, .inr (Option.some.inj stepped).symm⟩
  · cases stepped

inductive AdvisoryEffect (hostname : String) (state : AdvisoryState) (label : AdvisoryLabel) : AdvisoryState → Prop where
  | spawn (pid : Int) (positive : 0 < pid) (absent : state.registry pid = none) (same : label = .spawn pid) :
      AdvisoryEffect hostname state label { state with registry := Function.update state.registry pid (some []) }
  | die (pid : Int) : AdvisoryEffect hostname state label (state.die pid)
  | register (key : AdvisoryKey) (owner : String) (known : List String) (living : state.registry key.pid = some known)
      (token : 0 < key.pid → parseAdvisoryOwner owner = some ⟨key.pid, hostname⟩) (fresh : owner ∉ state.issued)
      (idle : state.calls key = none) : AdvisoryEffect hostname state label (state.register key owner known)
  | take (key : AdvisoryKey) (owner : String) (now leaseSeconds : Int) (found : state.calls key = some ⟨owner, .trying⟩)
      (free : reclaimable hostname state key.pid key.name now = true) :
      AdvisoryEffect hostname state label (state.take key ⟨owner, .trying⟩ now leaseSeconds)
  | wait : AdvisoryEffect hostname state label state
  | move (key : AdvisoryKey) (call : AdvisoryCall) (phase : AdvisoryPhase) (found : state.calls key = some call)
      (held : phase.holds = true → call.phase.holds = true) (started : phase ≠ .trying) :
      AdvisoryEffect hostname state label (state.setPhase key call phase)
  | delete (key : AdvisoryKey) (call : AdvisoryCall) (found : state.calls key = some call) (idle : call.phase.holds = false) :
      AdvisoryEffect hostname state label ((state.setPhase key call .deleted).deleteRow key.name call.owner)
  | unregister (key : AdvisoryKey) (call : AdvisoryCall) (found : state.calls key = some call) (deleted : call.phase = .deleted) :
      AdvisoryEffect hostname state label (state.discard key call.owner)

theorem move_effect (found : state.calls key = some call) (held : phase.holds = true → call.phase.holds = true)
    (started : phase ≠ .trying) (moved : some (state.setPhase key call phase) = some next) :
    AdvisoryEffect hostname state label next := by
  rw [← Option.some.inj moved]
  exact .move key call phase found held started

theorem step_effect (stepped : state.step hostname label = some next) : AdvisoryEffect hostname state label next := by
  cases label with
  | spawn pid =>
      simp only [AdvisoryState.step] at stepped
      by_cases free : 0 < pid ∧ state.registry pid = none
      · rw [if_pos free] at stepped
        rw [← Option.some.inj stepped]
        exact .spawn pid free.1 free.2 rfl
      · rw [if_neg free] at stepped
        cases stepped
  | die pid =>
      simp only [AdvisoryState.step] at stepped
      by_cases alive : (state.registry pid).isSome = true
      · rw [if_pos alive] at stepped
        rw [← Option.some.inj stepped]
        exact .die pid
      · rw [if_neg alive] at stepped
        cases stepped
  | register key threadId nonce =>
      simp only [AdvisoryState.step] at stepped
      cases process : state.registry key.pid with
      | none => rw [process] at stepped; cases stepped
      | some known =>
          cases busy : state.calls key with
          | some call => rw [process, busy] at stepped; cases stepped
          | none =>
              rw [process, busy] at stepped
              by_cases used : newAdvisoryOwner hostname key.pid threadId nonce ∈ state.issued
              · simp only [if_pos used] at stepped
                cases stepped
              · simp only [if_neg used] at stepped
                rw [← Option.some.inj stepped]
                exact .register key _ known process (fun positive => parse_new_owner positive) used busy
  | attempt key now leaseSeconds =>
      obtain ⟨owner, found, ⟨free, rfl⟩ | ⟨_, rfl⟩⟩ := attempt_cases stepped
      · exact .take key owner now leaseSeconds found free
      · exact .wait
  | fail key acquired =>
      simp only [AdvisoryState.step] at stepped
      split at stepped
      · next owner found => exact move_effect found (by simp [AdvisoryPhase.holds]) (by simp) stepped
      · next owner found =>
          cases acquired with
          | true => exact move_effect found (by simp [AdvisoryPhase.holds]) (by simp) stepped
          | false => cases stepped
      · cases stepped
  | enter key =>
      simp only [AdvisoryState.step] at stepped
      split at stepped
      · next owner found => exact move_effect found (by simp [AdvisoryPhase.holds]) (by simp) stepped
      · cases stepped
  | reenter key =>
      simp only [AdvisoryState.step] at stepped
      split at stepped
      · next owner count found => exact move_effect found (by simp [AdvisoryPhase.holds]) (by simp) stepped
      · cases stepped
  | leave key =>
      simp only [AdvisoryState.step] at stepped
      split at stepped
      · next owner count found => exact move_effect found (by simp [AdvisoryPhase.holds]) (by simp) stepped
      · cases stepped
  | exit key =>
      simp only [AdvisoryState.step] at stepped
      split at stepped
      · next owner found => exact move_effect found (by simp [AdvisoryPhase.holds]) (by simp) stepped
      · cases stepped
  | delete key committed =>
      obtain ⟨call, found, idle, _, rfl | rfl⟩ := delete_cases stepped
      · exact .delete key call found idle
      · exact .move key call .deleted found (by simp [AdvisoryPhase.holds]) (by simp)
  | unregister key =>
      simp only [AdvisoryState.step] at stepped
      split at stepped
      · next owner found =>
          rw [← Option.some.inj stepped]
          exact .unregister key ⟨owner, .deleted⟩ found rfl
      · cases stepped

theorem effect_invariant (invariant : AdvisoryInvariant hostname state) (effect : AdvisoryEffect hostname state label next) :
    AdvisoryInvariant hostname next := by
  cases effect with
  | spawn pid positive absent => exact spawn_invariant invariant positive absent
  | die pid => exact die_invariant invariant
  | register key owner known living token fresh idle =>
      exact register_invariant invariant living (token (invariant.positive key.pid known living)) fresh
  | take key owner now leaseSeconds found free => exact take_invariant invariant found free
  | wait => exact invariant
  | move key call phase found held started =>
      exact set_phase_invariant invariant found held fun trying => absurd trying started
  | delete key call found idle =>
      have moved : AdvisoryInvariant hostname (state.setPhase key call .deleted) :=
        set_phase_invariant invariant found (by simp [AdvisoryPhase.holds]) (by simp)
      have stored : (state.setPhase key call .deleted).calls key = some ⟨call.owner, .deleted⟩ := by
        simp [AdvisoryState.setPhase]
      have removed : AdvisoryInvariant hostname ((state.setPhase key call .deleted).deleteRow key.name
          (AdvisoryCall.mk call.owner .deleted).owner) := delete_row_invariant moved stored rfl
      exact removed
  | unregister key call found deleted => exact discard_invariant invariant found

end Invariant

structure AdvisoryStart (state : AdvisoryState) : Prop where
  positive : ∀ pid registered, state.registry pid = some registered → 0 < pid
  idle : ∀ key, state.calls key = none
  issued : ∀ name row, state.rows name = some row → row.owner ∈ state.issued

abbrev AdvisoryRun (hostname : String) : AdvisoryState → List AdvisoryLabel → AdvisoryState → Prop :=
  Lib.Run fun before label after => before.step hostname label = some after

def OwnerUntried (state : AdvisoryState) (owner : String) : Prop :=
  owner ∈ state.issued ∧ ∀ key call, state.calls key = some call → call.phase = .trying → call.owner ≠ owner

def OwnerSpent (state : AdvisoryState) (name owner : String) : Prop :=
  OwnerUntried state owner ∧ ∀ row, state.rows name = some row → row.owner ≠ owner

def OwnerDied (state : AdvisoryState) (pid : Int) (name owner : String) : Prop :=
  OwnerUntried state owner ∧ ∀ row, state.rows name = some row → row.owner = owner → state.registry pid = none

-- No process starts under the pid of an owner of this host whose row is still there.
def AdvisoryMet (hostname : String) (state : AdvisoryState) : AdvisoryLabel → Prop
  | .spawn pid => ∀ name row parsed, state.rows name = some row → parseAdvisoryOwner row.owner = some parsed →
      parsed.hostname = hostname → parsed.pid ≠ pid
  | _ => True

abbrev AdvisoryMetRun (hostname : String) : AdvisoryState → List AdvisoryLabel → AdvisoryState → Prop :=
  Lib.Run fun before label after => AdvisoryMet hostname before label ∧ before.step hostname label = some after

def TakenOver (hostname : String) (state : AdvisoryState) (key : AdvisoryKey) (owner before : String) : Prop :=
  ∀ now leaseSeconds, ∃ next, state.step hostname (.attempt key now leaseSeconds) = some next ∧
    next.rows key.name = some ⟨owner, now, now + leaseSeconds⟩ ∧ next.calls key = some ⟨owner, .acquired⟩ ∧
    ∀ later more, AdvisoryRun hostname next more later → ∀ left, later.rows key.name = some left → left.owner ≠ before

section Runs

variable {hostname : String} {start state next : AdvisoryState} {labels : List AdvisoryLabel} {key other : AdvisoryKey}
  {call more : AdvisoryCall} {owner name : String} {row : AdvisoryRow} {label : AdvisoryLabel}

theorem start_invariant (started : AdvisoryStart start) : AdvisoryInvariant hostname start where
  positive := started.positive
  calls key call listed := by
    rw [started.idle] at listed
    cases listed
  apart key other call more listed := by
    rw [started.idle] at listed
    cases listed
  issuedRow := started.issued

theorem run_invariant (started : AdvisoryStart start) (run : AdvisoryRun hostname start labels state) :
    AdvisoryInvariant hostname state :=
  run.invariant (start_invariant started) fun invariant stepped => effect_invariant invariant (step_effect stepped)

theorem holders_exclude (invariant : AdvisoryInvariant hostname state) (first : state.calls key = some call)
    (second : state.calls other = some more) (holds : call.phase.holds = true) (also : more.phase.holds = true)
    (shared : key.name = other.name) : key = other := by
  obtain ⟨row, stored, owned⟩ := (invariant.calls key call first).rowed holds
  obtain ⟨same, found, claimed⟩ := (invariant.calls other more second).rowed also
  rw [shared, found] at stored
  cases stored
  exact invariant.apart key other call more first second (owned.symm.trans claimed)

theorem release_own_row {committed : Bool} (stepped : state.step hostname (.delete key committed) = some next) :
    ∃ call, state.calls key = some call ∧ ∀ name row, state.rows name = some row → next.rows name ≠ some row →
      name = key.name ∧ row.owner = call.owner := by
  obtain ⟨call, found, _, _, rfl | rfl⟩ := delete_cases stepped
  · refine ⟨call, found, fun name row stored removed => ?_⟩
    by_contra other
    refine removed (delete_row_some.mpr ⟨stored, fun same owned => other ⟨same, owned⟩⟩)
  · exact ⟨call, found, fun name row stored removed => absurd stored removed⟩

theorem release_removes_row (invariant : AdvisoryInvariant hostname state) (found : state.calls key = some call)
    (releasing : call.phase = .releasing true) (stepped : state.step hostname (.delete key true) = some next) (name : String)
    (row : AdvisoryRow) (stored : next.rows name = some row) : row.owner ≠ call.owner := by
  obtain ⟨owner, phase⟩ := call
  cases releasing
  simp only [AdvisoryState.step, found, if_true, Option.some.injEq] at stepped
  subst stepped
  obtain ⟨before, other⟩ := delete_row_some.mp stored
  exact fun owned => other ((invariant.calls key _ found).homed name row before owned) owned

theorem holder_row_stays (invariant : AdvisoryInvariant hostname state) (found : state.calls key = some call)
    (holds : call.phase.holds = true) (effect : AdvisoryEffect hostname state label next) :
    next.rows key.name = state.rows key.name := by
  obtain ⟨row, stored, owned⟩ := (invariant.calls key call found).rowed holds
  cases effect with
  | take contender owner now leaseSeconds trying free =>
      by_cases shared : key.name = contender.name
      · rw [shared] at stored
        rw [live_not_reclaimable invariant found stored owned] at free
        cases free
      · simp only [AdvisoryState.take, Function.update_of_ne shared]
  | delete releaser ended listed idle =>
      rw [stored]
      refine delete_row_some.mpr ⟨stored, fun _ same => ?_⟩
      have here := invariant.apart key releaser call ended found listed (owned.symm.trans same)
      subst here
      rw [found] at listed
      cases listed
      rw [idle] at holds
      cases holds
  | _ => rfl

theorem live_row_kept {now leaseSeconds : Int} (stored : state.rows key.name = some row)
    (alive : advisoryOwnerLiveness hostname state key.pid row.owner = some true)
    (stepped : state.step hostname (.attempt key now leaseSeconds) = some next) : next = state := by
  obtain ⟨owner, _, ⟨free, _⟩ | ⟨_, same⟩⟩ := attempt_cases stepped
  · simp [reclaimable, stored, advisoryLockIsReclaimable, alive] at free
  · exact same

theorem dead_process_known {parsed : ParsedOwner} (token : parseAdvisoryOwner owner = some parsed)
    (here : parsed.hostname = hostname) (dead : state.registry parsed.pid = none) (contender : Int) :
    advisoryOwnerLiveness hostname state contender owner = some false := by
  rw [advisoryOwnerLiveness, token]
  by_cases same : parsed.pid = contender
  · subst same
    simp [here, advisoryOwnerIsRegistered, dead]
  · simp [here, same, processIsAlive, dead]

theorem owner_untried_stays (untried : OwnerUntried state owner) (effect : AdvisoryEffect hostname state label next) :
    OwnerUntried next owner := by
  obtain ⟨issued, idle⟩ := untried
  cases effect with
  | spawn pid positive absent => exact ⟨issued, idle⟩
  | die pid =>
      refine ⟨issued, fun key call listed => ?_⟩
      by_cases same : key.pid = pid
      · simp [AdvisoryState.die, same] at listed
      · exact idle key call (by simpa [AdvisoryState.die, same] using listed)
  | register fresh token known living parsed new free =>
      refine ⟨List.mem_cons_of_mem _ issued, fun key call listed trying => ?_⟩
      rcases call_of_register listed with ⟨_, rfl⟩ | ⟨_, before⟩
      · intro same
        have alike : token = owner := same
        exact new (alike ▸ issued)
      · exact idle key call before trying
  | take taker token now leaseSeconds found free =>
      refine ⟨issued, fun key call listed trying => ?_⟩
      rcases call_of_set_phase listed with ⟨_, rfl⟩ | ⟨_, before⟩
      · cases trying
      · exact idle key call before trying
  | wait => exact ⟨issued, idle⟩
  | move mover moved phase found held started =>
      refine ⟨issued, fun key call listed trying => ?_⟩
      rcases call_of_set_phase listed with ⟨_, rfl⟩ | ⟨_, before⟩
      · exact absurd trying started
      · exact idle key call before trying
  | delete releaser released found ended =>
      refine ⟨issued, fun key call listed trying => ?_⟩
      rcases call_of_set_phase listed with ⟨_, rfl⟩ | ⟨_, before⟩
      · cases trying
      · exact idle key call before trying
  | unregister leaver left found ended =>
      refine ⟨issued, fun key call listed => ?_⟩
      by_cases same : key = leaver
      · simp [AdvisoryState.discard, same] at listed
      · exact idle key call (by simpa [AdvisoryState.discard, Function.update_of_ne same] using listed)

theorem untried_row_old (untried : OwnerUntried state owner) (effect : AdvisoryEffect hostname state label next)
    (stored : next.rows name = some row) (owned : row.owner = owner) : state.rows name = some row := by
  cases effect with
  | take taker token now leaseSeconds found free =>
      rcases take_rows stored with ⟨_, taken⟩ | ⟨_, before⟩
      · exact absurd (taken.symm.trans owned) (untried.2 taker _ found rfl)
      · exact before
  | delete releaser released found ended => exact (delete_row_some.mp stored).1
  | _ => exact stored

theorem owner_spent_stays (spent : OwnerSpent state name owner)
    (effect : AdvisoryEffect hostname state label next) : OwnerSpent next name owner :=
  ⟨owner_untried_stays spent.1 effect, fun row stored owned => spent.2 row (untried_row_old spent.1 effect stored owned) owned⟩

theorem absent_unless_spawned {pid : Int} (absent : state.registry pid = none)
    (effect : AdvisoryEffect hostname state label next) :
    next.registry pid = none ∨ label = .spawn pid := by
  cases effect with
  | spawn asked _ _ same =>
      by_cases here : asked = pid
      · exact .inr (here ▸ same)
      · exact .inl ((Function.update_of_ne (Ne.symm here) ..).trans absent)
  | die asked =>
      by_cases here : pid = asked
      · simp [AdvisoryState.die, here]
      · simp [AdvisoryState.die, here, absent]
  | register key token known living =>
      have here : pid ≠ key.pid := by
        rintro rfl
        cases absent.symm.trans living
      simp [AdvisoryState.register, here, absent]
  | unregister key call =>
      by_cases here : pid = key.pid
      · simp [AdvisoryState.discard, ← here, absent]
      · simp [AdvisoryState.discard, here, absent]
  | _ => exact .inl absent

theorem owner_died_stays {pid : Int} (token : parseAdvisoryOwner owner = some ⟨pid, hostname⟩)
    (died : OwnerDied state pid name owner)
    (met : AdvisoryMet hostname state label) (stepped : state.step hostname label = some next) :
    OwnerDied next pid name owner := by
  have effect := step_effect stepped
  refine ⟨owner_untried_stays died.1 effect, fun row stored owned => ?_⟩
  have before := untried_row_old died.1 effect stored owned
  rcases absent_unless_spawned (died.2 row before owned) effect with absent | rfl
  · exact absent
  · exact absurd rfl (met name row _ before (owned ▸ token) rfl)

theorem die_owner_died {died : AdvisoryState} (invariant : AdvisoryInvariant hostname state) (found : state.calls key = some call)
    (stepped : state.step hostname (.die key.pid) = some died) : OwnerDied died key.pid key.name call.owner := by
  obtain ⟨_, same⟩ := Option.ite_none_right_eq_some.mp stepped
  obtain rfl := Option.some.inj same
  refine ⟨⟨(invariant.calls key call found).issued, fun other more listed _ same => ?_⟩, fun _ _ _ => Function.update_self ..⟩
  by_cases here : other.pid = key.pid
  · simp [AdvisoryState.die, here] at listed
  · have before : state.calls other = some more := by simpa [AdvisoryState.die, here] using listed
    exact here (congrArg AdvisoryKey.pid (invariant.apart other key more call before found same))

theorem dead_row_taken (invariant : AdvisoryInvariant hostname state) (trying : state.calls key = some ⟨owner, .trying⟩)
    (stored : state.rows key.name = some row) (dead : advisoryOwnerLiveness hostname state key.pid row.owner = some false) :
    TakenOver hostname state key owner row.owner := by
  intro now leaseSeconds
  have free : reclaimable hostname state key.pid key.name now = true := by
    simp [reclaimable, stored, advisoryLockIsReclaimable, dead]
  have stepped : state.step hostname (.attempt key now leaseSeconds) = some (state.take key ⟨owner,
    .trying⟩ now leaseSeconds) := by
    simp only [AdvisoryState.step, trying, if_pos free]
  have untried : OwnerUntried state row.owner :=
    ⟨invariant.issuedRow key.name row stored, fun other call found waiting =>
      ((invariant.calls other call found).unrowed waiting key.name row stored).symm⟩
  have spent : OwnerSpent (state.take key ⟨owner, .trying⟩ now leaseSeconds) key.name row.owner := by
    refine ⟨owner_untried_stays untried (step_effect stepped), fun after found => ?_⟩
    rcases take_rows found with ⟨_, owned⟩ | ⟨other, _⟩
    · rw [owned]
      exact ((invariant.calls key _ trying).unrowed rfl key.name row stored).symm
    · exact absurd rfl other
  refine ⟨_, stepped, take_own_row, by simp [AdvisoryState.take, AdvisoryState.setPhase], fun later more continued => ?_⟩
  have stays : OwnerSpent later key.name row.owner :=
    continued.invariant spent fun spent moved => owner_spent_stays spent (step_effect moved)
  exact stays.2

theorem died_owner_taken {died later : AdvisoryState} {more : List AdvisoryLabel} {contender : AdvisoryKey}
    (invariant : AdvisoryInvariant hostname state) (found : state.calls key = some call)
    (stepped : state.step hostname (.die key.pid) = some died) (continued : AdvisoryMetRun hostname died more later)
    (trying : later.calls contender = some ⟨owner, .trying⟩) (shared : contender.name = key.name)
    (stored : later.rows key.name = some row) (owned : row.owner = call.owner) :
    TakenOver hostname later contender owner call.owner := by
  have reached : AdvisoryInvariant hostname later :=
    continued.invariant (effect_invariant invariant (step_effect stepped)) fun kept step =>
      effect_invariant kept (step_effect step.2)
  have token := (invariant.calls key call found).parsed
  have ended : OwnerDied later key.pid key.name call.owner :=
    continued.invariant (die_owner_died invariant found stepped) fun kept step => owner_died_stays token kept step.1 step.2
  have dead := dead_process_known token rfl (ended.2 row stored owned) contender.pid
  rw [← owned] at dead ⊢
  exact dead_row_taken reached trying (shared ▸ stored) dead

theorem reused_pid_keeps_row {pid : Int} {parsed : ParsedOwner} {now leaseSeconds : Int} {after : AdvisoryState}
    (spawned : state.step hostname (.spawn pid) = some next) (stored : state.rows key.name = some row)
    (token : parseAdvisoryOwner row.owner = some parsed) (resident : parsed.hostname = hostname) (same : parsed.pid = pid)
    (apart : key.pid ≠ pid) (stepped : next.step hostname (.attempt key now leaseSeconds) = some after) : after = next := by
  obtain ⟨_, result⟩ := Option.ite_none_right_eq_some.mp spawned
  obtain rfl := Option.some.inj result
  refine live_row_kept stored ?_ stepped
  have away : pid ≠ key.pid := Ne.symm apart
  simp [advisoryOwnerLiveness, token, resident, processIsAlive, same, away]

-- At most one living owner holds a lock, a release removes its own row and no other, and a row changes
-- hands only after its owner is dead or its lease without a known owner has expired. The lock of a process
-- that ended goes to one contender, unless a process starts under its pid before that.
theorem advisory_lock_exclusion {hostname : String} {start state : AdvisoryState} {labels : List AdvisoryLabel}
    (started : AdvisoryStart start) (run : AdvisoryRun hostname start labels state) :
    (∀ key other call more, state.calls key = some call → state.calls other = some more → call.phase.holds = true →
      more.phase.holds = true → key.name = other.name → key = other) ∧
    (∀ key committed next, state.step hostname (.delete key committed) = some next →
      ∃ call, state.calls key = some call ∧ (∀ name row, state.rows name = some row → next.rows name ≠ some row →
        name = key.name ∧ row.owner = call.owner) ∧
        (committed = true → call.phase = .releasing true → ∀ name row, next.rows name = some row → row.owner ≠ call.owner)) ∧
    (∀ key call, state.calls key = some call → call.phase.holds = true →
      (∃ row, state.rows key.name = some row ∧ row.owner = call.owner) ∧
        ∀ label next, state.step hostname label = some next → next.rows key.name = state.rows key.name) ∧
    (∀ key call, state.calls key = some call → ∀ here, advisoryOwnerLiveness hostname state here call.owner = some true) ∧
    (∀ key row, state.rows key.name = some row → advisoryOwnerLiveness hostname state key.pid row.owner = some true →
      ∀ now leaseSeconds next, state.step hostname (.attempt key now leaseSeconds) = some next → next = state) ∧
    (∀ owner parsed, parseAdvisoryOwner owner = some parsed → parsed.hostname = hostname → state.registry parsed.pid = none →
      ∀ here, advisoryOwnerLiveness hostname state here owner = some false) ∧
    (∀ key owner row, state.calls key = some ⟨owner, .trying⟩ → state.rows key.name = some row →
      advisoryOwnerLiveness hostname state key.pid row.owner = some false → TakenOver hostname state key owner row.owner) ∧
    (∀ key call died more later, state.calls key = some call → state.step hostname (.die key.pid) = some died →
      AdvisoryMetRun hostname died more later → ∀ contender owner row, later.calls contender = some ⟨owner, .trying⟩ →
        contender.name = key.name → later.rows key.name = some row → row.owner = call.owner →
          TakenOver hostname later contender owner call.owner) ∧
    (∀ pid next, state.step hostname (.spawn pid) = some next → ¬AdvisoryMet hostname state (.spawn pid) →
      ∃ name row, next.rows name = some row ∧ ∀ key now leaseSeconds after, key.name = name → key.pid ≠ pid →
        next.step hostname (.attempt key now leaseSeconds) = some after → after = next) := by
  have invariant := run_invariant started run
  refine ⟨fun key other call more first second holds also shared => holders_exclude invariant first second holds also shared,
    fun key committed next stepped => ?_,
    fun key call found holds => ⟨(invariant.calls key call found).rowed holds,
      fun label next stepped => holder_row_stays invariant found holds (step_effect stepped)⟩,
    fun key call found here => live_known invariant found here,
    fun key row stored alive now leaseSeconds next stepped => live_row_kept stored alive stepped,
    fun owner parsed token resident dead here => dead_process_known token resident dead here,
    fun key owner row trying stored dead => dead_row_taken invariant trying stored dead,
    fun key call died more later found stepped continued contender owner row trying shared stored owned =>
      died_owner_taken invariant found stepped continued trying shared stored owned, fun pid next spawned unmet => ?_⟩
  · obtain ⟨call, found, only⟩ := release_own_row stepped
    refine ⟨call, found, only, fun commits releasing => ?_⟩
    subst commits
    exact release_removes_row invariant found releasing stepped
  · simp only [AdvisoryMet, not_forall, not_not] at unmet
    obtain ⟨name, row, parsed, stored, token, resident, same⟩ := unmet
    have kept : next.rows name = some row := by
      obtain ⟨_, result⟩ := Option.ite_none_right_eq_some.mp spawned
      obtain rfl := Option.some.inj result
      exact stored
    refine ⟨name, row, kept, fun key now leaseSeconds after named apart stepped => ?_⟩
    exact reused_pid_keeps_row spawned (named ▸ stored) token resident same apart stepped

def quietHost : AdvisoryState where
  rows _ := none
  registry _ := none
  calls _ := none
  issued := []

theorem quiet_host_start : AdvisoryStart quietHost := by
  refine ⟨fun pid registered found => ?_, fun key => rfl, fun name row found => ?_⟩
  · cases found
  · cases found

def queueLock (pid : Int) : AdvisoryKey := ⟨pid, 1, "queue"⟩

def queueToken (pid : Int) : String := newAdvisoryOwner "host" pid 1 "a"

theorem queue_token_apart {first second : Int} (one : 0 < first) (two : 0 < second) (apart : first ≠ second) :
    queueToken first ≠ queueToken second := by
  intro same
  have parsed := (parse_new_owner one).symm.trans ((congrArg parseAdvisoryOwner same :).trans (parse_new_owner two))
  simp at parsed
  exact apart parsed

def threeAlive : AdvisoryState where
  rows _ := none
  registry := Function.update (Function.update (Function.update (fun _ => none) 7 (some [])) 8 (some [])) 9 (some [])
  calls _ := none
  issued := []

def rivalCalls : AdvisoryState :=
  ((threeAlive.register (queueLock 7) (queueToken 7) []).register (queueLock 8) (queueToken 8) []).register
    (queueLock 9) (queueToken 9) []

def rivalLabels : List AdvisoryLabel :=
  [.spawn 7, .spawn 8, .spawn 9, .register (queueLock 7) 1 "a", .register (queueLock 8) 1 "a", .register (queueLock 9) 1 "a",
    .attempt (queueLock 7) 0 300]

def lockTaken : AdvisoryState := rivalCalls.take (queueLock 7) ⟨queueToken 7, .trying⟩ 0 300

theorem register_step {threadId : Int} {nonce : String} {known : List String} (living : state.registry key.pid = some known)
    (idle : state.calls key = none) (fresh : newAdvisoryOwner hostname key.pid threadId nonce ∉ state.issued) :
    state.step hostname (.register key threadId nonce) =
      some (state.register key (newAdvisoryOwner hostname key.pid threadId nonce) known) := by
  simp only [AdvisoryState.step, living, idle, if_neg fresh]

theorem tokens_fresh : (queueToken 8 ∉ [queueToken 7]) ∧ queueToken 9 ∉ [queueToken 8, queueToken 7] := by
  have one := queue_token_apart (by decide : (0 : Int) < 8) (by decide : (0 : Int) < 7) (by decide)
  have two := queue_token_apart (by decide : (0 : Int) < 9) (by decide : (0 : Int) < 8) (by decide)
  have three := queue_token_apart (by decide : (0 : Int) < 9) (by decide : (0 : Int) < 7) (by decide)
  simp [one, two, three]

theorem lock_taken_run : AdvisoryRun "host" quietHost rivalLabels lockTaken := by
  have begun : AdvisoryRun "host" quietHost [.spawn 7, .spawn 8, .spawn 9] threeAlive :=
    .snoc (.snoc (.snoc (.nil _) rfl) rfl) rfl
  have first : threeAlive.step "host" (.register (queueLock 7) 1 "a") =
    some (threeAlive.register (queueLock 7) (queueToken 7) []) :=
    register_step rfl rfl nofun
  have second : AdvisoryState.step "host" _ (.register (queueLock 8) 1 "a") =
      some ((threeAlive.register (queueLock 7) (queueToken 7) []).register (queueLock 8) (queueToken 8) []) :=
    register_step rfl rfl tokens_fresh.1
  have third : AdvisoryState.step "host" _ (.register (queueLock 9) 1 "a") = some rivalCalls :=
    register_step rfl rfl tokens_fresh.2
  have taken : rivalCalls.step "host" (.attempt (queueLock 7) 0 300) = some lockTaken := rfl
  exact (((begun.snoc first).snoc second).snoc third).snoc taken

-- The owner dies with the lock held. The first contender takes it over, and from then on keeps it.
theorem advisory_lock_taken_over : ∃ next, (lockTaken.die 7).step "host" (.attempt (queueLock 8) 10 300) = some next ∧
    next.rows "queue" = some ⟨queueToken 8, 10, 310⟩ ∧
    ∀ after, next.step "host" (.attempt (queueLock 9) 1000 300) = some after → after = next := by
  have died : lockTaken.step "host" (.die 7) = some (lockTaken.die 7) := rfl
  obtain ⟨_, _, _, _, _, _, _, takeover, _⟩ := advisory_lock_exclusion quiet_host_start lock_taken_run
  have owed : TakenOver "host" (lockTaken.die 7) (queueLock 8) (queueToken 8) (queueToken 7) :=
    takeover (queueLock 7) ⟨queueToken 7, .acquired⟩ (lockTaken.die 7) [] (lockTaken.die 7) rfl died
      (.nil _) (queueLock 8) (queueToken 8)
      ⟨queueToken 7, 0, 300⟩ rfl rfl rfl rfl
  obtain ⟨next, stepped, stored, acquired, _⟩ := owed 10 300
  refine ⟨next, stepped, stored, fun after attempted => ?_⟩
  have run := (lock_taken_run.snoc died).snoc stepped
  obtain ⟨_, _, _, known, kept, _⟩ := advisory_lock_exclusion quiet_host_start run
  exact kept (queueLock 9) _ stored (known (queueLock 8) _ acquired 9) 1000 300 after attempted

def pidReused : AdvisoryState :=
  { lockTaken.die 7 with registry := Function.update (lockTaken.die 7).registry 7 (some []) }

-- Process 7 dies with the lock held and another process is started under its pid: no attempt takes the row.
theorem reused_pid_strands_lock : AdvisoryRun "host" quietHost (rivalLabels ++ [.die 7] ++ [.spawn 7]) pidReused ∧
    pidReused.calls (queueLock 8) = some ⟨queueToken 8, .trying⟩ ∧ pidReused.rows "queue" = some ⟨queueToken 7, 0, 300⟩ ∧
    pidReused.calls (queueLock 7) = none ∧
    ∀ now leaseSeconds after, pidReused.step "host" (.attempt (queueLock 8) now leaseSeconds) = some after →
      after = pidReused := by
  have spawned : (lockTaken.die 7).step "host" (.spawn 7) = some pidReused := rfl
  have stored : (lockTaken.die 7).rows (queueLock 8).name = some ⟨queueToken 7, 0, 300⟩ := rfl
  have token : parseAdvisoryOwner (AdvisoryRow.mk (queueToken 7) 0 300).owner = some ⟨7, "host"⟩ := parse_new_owner (by decide)
  have apart : (queueLock 8).pid ≠ 7 := by decide
  refine ⟨(lock_taken_run.snoc rfl).snoc spawned, rfl, rfl, rfl, fun now leaseSeconds after stepped => ?_⟩
  exact reused_pid_keeps_row spawned stored token rfl rfl apart stepped

end Runs

end MicroWorkflow
