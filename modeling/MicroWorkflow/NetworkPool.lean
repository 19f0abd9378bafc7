import Mathlib.Data.List.Count
import Mathlib.Logic.Function.Basic
import MicroWorkflow.Lib.Machine
import MicroWorkflow.Lib.Threads

set_option autoImplicit false

namespace MicroWorkflow

structure NetworkConfig where
  http2 : Bool
  streamsPerConnection : Nat
  http1ConnectionsPerShard : Nat
  cohortRetryLimit : Nat
  transportErrorRetryLimit : Nat
  positive : 1 ≤ streamsPerConnection ∧ 1 ≤ http1ConnectionsPerShard

def NetworkConfig.shardCapacity (config : NetworkConfig) : Nat :=
  if config.http2 then config.streamsPerConnection else min config.streamsPerConnection config.http1ConnectionsPerShard

theorem shard_capacity_positive (config : NetworkConfig) : 1 ≤ config.shardCapacity := by
  have positive := config.positive
  rw [NetworkConfig.shardCapacity]
  split <;> omega

structure ClientShard where
  inFlight : Nat := 0
  peakInFlight : Nat := 0
  requestsStarted : Nat := 0
  requestsCompleted : Nat := 0
  requestsFailed : Nat := 0
  cohortStalls : Nat := 0
  retiring : Bool := false
  clientClosed : Bool := false
deriving DecidableEq, Repr

structure NetworkPool where
  shardOf : Nat → ClientShard
  clients : List Nat
  nextShardId : Nat
  nextClientIndex : Nat
  retiredShards : Nat

namespace NetworkPool

def Created (pool : NetworkPool) (id : Nat) : Prop := 1 ≤ id ∧ id < pool.nextShardId

def update (pool : NetworkPool) (id : Nat) (change : ClientShard → ClientShard) : NetworkPool :=
  { pool with shardOf := Function.update pool.shardOf id (change (pool.shardOf id)) }

def newClientShard (pool : NetworkPool) : NetworkPool :=
  { pool with
    shardOf := Function.update pool.shardOf pool.nextShardId {}
    clients := pool.clients ++ [pool.nextShardId]
    nextShardId := pool.nextShardId + 1 }

def claimShard (pool : NetworkPool) (id : Nat) : NetworkPool :=
  pool.update id fun shard =>
    { shard with
      inFlight := shard.inFlight + 1
      peakInFlight := max shard.peakInFlight (shard.inFlight + 1)
      requestsStarted := shard.requestsStarted + 1 }

def selectCandidate (pool : NetworkPool) (capacity : Nat) (selected : Option (Nat × Nat)) (offset : Nat) : Option (Nat × Nat) :=
  let index := (pool.nextClientIndex + offset) % pool.clients.length
  match pool.clients[index]? with
  | none => selected
  | some id =>
      if (pool.shardOf id).retiring = false ∧ (pool.shardOf id).inFlight < capacity ∧
          selected.all (fun best => (pool.shardOf best.2).inFlight < (pool.shardOf id).inFlight) then
        some (index, id)
      else selected

def selectShard (pool : NetworkPool) (capacity : Nat) : Option (Nat × Nat) :=
  (List.range pool.clients.length).foldl (pool.selectCandidate capacity) none

def acquireClient (pool : NetworkPool) (capacity : Nat) (clientRaises : Bool) : Option (Nat × NetworkPool) :=
  match pool.selectShard capacity with
  | some (index, id) => some (id, { pool with nextClientIndex := (index + 1) % pool.clients.length }.claimShard id)
  | none =>
      if clientRaises then none
      else some (pool.nextShardId, { pool.newClientShard with nextClientIndex := 0 }.claimShard pool.nextShardId)

def releaseClient (pool : NetworkPool) (id : Nat) : NetworkPool × Bool :=
  let pool := pool.update id fun shard => { shard with inFlight := shard.inFlight - 1 }
  (pool, (pool.shardOf id).retiring && (pool.shardOf id).inFlight == 0)

def dropClient (pool : NetworkPool) (id : Nat) : NetworkPool :=
  { pool.update id (fun shard => { shard with clientClosed := true }) with
    clients := pool.clients.erase id
    retiredShards := pool.retiredShards + 1 }

end NetworkPool

inductive FutureState where
  | pending
  | running
  | cancelled
  | finished
deriving DecidableEq, Repr

def FutureState.done : FutureState → Bool
  | .cancelled | .finished => true
  | _ => false

inductive ReplayReason where
  | cohortStreamStall
  | transportError
deriving DecidableEq, Repr

-- Where the task of a request awaits: its attempt, or `aclose` in one of the two handlers that replay it or
-- in the final clause.
inductive RequestPhase where
  | queued
  | sending (shard : Nat)
  | retryClosing (shard : Nat) (reason : ReplayReason)
  | finalClosing (shard : Nat)
  | ended
deriving DecidableEq, Repr

structure NetworkRequest where
  future : FutureState := .pending
  resolutions : Nat := 0
  cohortRetries : Nat := 0
  transportErrorRetries : Nat := 0
  physicalAttempt : Nat := 0
  phase : RequestPhase := .queued
deriving DecidableEq, Repr

structure AttemptFaults where
  callbackRaises : Bool := false
  clientRaises : Bool := false
deriving DecidableEq, Repr

namespace NetworkRequest

def holding (request : NetworkRequest) : List Nat :=
  match request.phase with
  | .sending id => [id]
  | _ => []

def closing (request : NetworkRequest) : List Nat :=
  match request.phase with
  | .retryClosing id _ | .finalClosing id => [id]
  | _ => []

def cancel (request : NetworkRequest) : NetworkRequest :=
  if request.future = .pending then { request with future := .cancelled, resolutions := request.resolutions + 1 } else request

def resolve (request : NetworkRequest) : NetworkRequest :=
  if request.future.done then request else { request with future := .finished, resolutions := request.resolutions + 1 }

def finish (pool : NetworkPool) (request : NetworkRequest) : Option Nat → NetworkPool × NetworkRequest
  | none => (pool, { request with phase := .ended })
  | some id =>
      let (pool, closes) := pool.releaseClient id
      (pool, { request with phase := if closes then .finalClosing id else .ended })

def fail (pool : NetworkPool) (request : NetworkRequest) : Option Nat → NetworkPool × NetworkRequest
  | none => finish pool request.resolve none
  | some id => finish (pool.update id fun shard =>
      { shard with requestsFailed := shard.requestsFailed + 1 }) request.resolve (some id)

def respond (pool : NetworkPool) (request : NetworkRequest) (id : Nat) : NetworkPool × NetworkRequest :=
  finish (pool.update id fun shard => { shard with requestsCompleted := shard.requestsCompleted + 1 }) request.resolve (some id)

section Attempts

variable (config : NetworkConfig)

def attempt (pool : NetworkPool) (request : NetworkRequest) (faults : AttemptFaults) : NetworkPool × NetworkRequest :=
  let request := { request with physicalAttempt := request.physicalAttempt + 1 }
  if faults.callbackRaises then fail pool request none
  else
    match pool.acquireClient config.shardCapacity faults.clientRaises with
    | none => fail pool request none
    | some (id, pool) => (pool, { request with phase := .sending id })

def retry (pool : NetworkPool) (request : NetworkRequest) (faults : AttemptFaults) : ReplayReason → NetworkPool × NetworkRequest
  | .cohortStreamStall =>
      if request.cohortRetries ≥ config.cohortRetryLimit then fail pool request none
      else attempt config pool { request with cohortRetries := request.cohortRetries + 1 } faults
  | .transportError =>
      if request.transportErrorRetries ≥ config.transportErrorRetryLimit then fail pool request none
      else attempt config pool { request with transportErrorRetries := request.transportErrorRetries + 1 } faults

def poison : ReplayReason → ClientShard → ClientShard
  | .cohortStreamStall, shard => { shard with cohortStalls := shard.cohortStalls + 1, retiring := true }
  | .transportError, shard => { shard with retiring := true, requestsFailed := shard.requestsFailed + 1 }

def replay (pool : NetworkPool) (request : NetworkRequest) (id : Nat) (reason : ReplayReason) (faults : AttemptFaults) :
    NetworkPool × NetworkRequest :=
  match (pool.update id (poison reason)).releaseClient id with
  | (pool, true) => (pool, { request with phase := .retryClosing id reason })
  | (pool, false) => retry config pool request faults reason

end Attempts

end NetworkRequest

-- How an await of a request ends; a cancellation raises at the await it reaches.
inductive RequestEvent where
  | cancel
  | start (faults : AttemptFaults)
  | unterminated
  | respond
  | replay (reason : ReplayReason) (faults : AttemptFaults)
  | raise
  | closed (faults : AttemptFaults)
  | retryCloseRaises
  | finalCloseRaises
deriving DecidableEq, Repr

inductive NetworkLabel where
  | submit (key : Nat)
  | event (key : Nat) (event : RequestEvent)
deriving DecidableEq, Repr

open NetworkRequest in
def NetworkRequest.move (config : NetworkConfig) (pool : NetworkPool) (request : NetworkRequest) :
    RequestEvent → Option (NetworkPool × NetworkRequest)
  | .cancel => some (pool, request.cancel)
  | .start faults =>
      match request.phase with
      | .queued =>
          if request.future = .pending then some (attempt config pool { request with future := .running } faults)
          else some (pool, { request with phase := .ended })
      | _ => none
  | .unterminated =>
      match request.phase with
      | .sending id => some (pool.update id fun shard => { shard with retiring := true }, request)
      | _ => none
  | .respond =>
      match request.phase with
      | .sending id => some (respond pool request id)
      | _ => none
  | .replay reason faults =>
      match request.phase with
      | .sending id => some (replay config pool request id reason faults)
      | _ => none
  | .raise =>
      match request.phase with
      | .sending id => some (fail pool request (some id))
      | _ => none
  | .closed faults =>
      match request.phase with
      | .retryClosing id reason => some (retry config (pool.dropClient id) request faults reason)
      | .finalClosing id => some (pool.dropClient id, { request with phase := .ended })
      | _ => none
  | .retryCloseRaises =>
      match request.phase with
      | .retryClosing id _ => some (fail pool request (some id))
      | _ => none
  | .finalCloseRaises =>
      match request.phase with
      | .finalClosing _ => some (pool, { request with phase := .ended })
      | _ => none

structure NetworkManager where
  pool : NetworkPool
  requests : Lib.Threads NetworkRequest

namespace NetworkManager

def start : NetworkManager := ⟨⟨fun _ => {}, [], 1, 0, 0⟩, []⟩

def step (config : NetworkConfig) (manager : NetworkManager) : NetworkLabel → Option NetworkManager
  | .submit key =>
      if key ∈ manager.requests.ids then none else some { manager with requests := manager.requests ++ [(key, {})] }
  | .event key event =>
      match manager.requests.phaseOf key with
      | none => none
      | some request =>
          (request.move config manager.pool event).map fun moved => ⟨moved.1, manager.requests.setPhase key moved.2⟩

def holders (manager : NetworkManager) (id : Nat) : Nat := (manager.requests.held NetworkRequest.holding).count id

def closers (manager : NetworkManager) (id : Nat) : Nat := (manager.requests.held NetworkRequest.closing).count id

end NetworkManager

def plus (counts : Nat → Nat) (ids : List Nat) (id : Nat) : Nat := counts id + ids.count id

section Plus

variable {counts : Nat → Nat} {id other : Nat}

@[simp] theorem plus_nil : plus counts [] = counts := funext fun id => by simp [plus]

@[simp] theorem plus_self : plus counts [id] id = counts id + 1 := by simp [plus]

theorem self_held : 0 < plus counts [id] id := by simp

theorem plus_other (apart : other ≠ id) : plus counts [id] other = counts other := by
  simp [plus, apart.symm]

end Plus

structure ShardInvariant (capacity : Nat) (shard : ClientShard) (listed : Prop) (holds closes : Nat) (leaked : Prop) : Prop where
  counted : shard.inFlight = holds
  bounded : holds ≤ capacity
  held : 0 < holds → listed
  closing : 0 < closes → listed ∧ shard.retiring = true ∧ holds = 0 ∧ closes = 1
  dropped : ¬listed → shard.retiring = true
  closed : shard.clientClosed = true ↔ ¬listed
  leaked : leaked ↔ listed ∧ shard.retiring = true ∧ holds = 0 ∧ closes = 0

section Shards

variable {capacity holds closes : Nat} {shard after : ClientShard} {listed leaked : Prop}

theorem ShardInvariant.serving (invariant : ShardInvariant capacity shard listed holds closes leaked)
    (serves : shard.retiring = false) :
    listed ∧ closes = 0 ∧ ¬leaked := by
  refine ⟨?_, ?_, ?_⟩
  · by_contra gone
    have retiring := invariant.dropped gone
    rw [serves] at retiring
    cases retiring
  · by_contra some
    obtain ⟨_, retiring, _, _⟩ := invariant.closing (by omega)
    rw [serves] at retiring
    cases retiring
  · intro left
    obtain ⟨_, retiring, _⟩ := invariant.leaked.mp left
    rw [serves] at retiring
    cases retiring

theorem ShardInvariant.busy (invariant : ShardInvariant capacity shard listed (holds + 1) closes leaked) :
    listed ∧ closes = 0 ∧ ¬leaked := by
  refine ⟨invariant.held (by omega), ?_, ?_⟩
  · by_contra some
    obtain ⟨_, _, none, _⟩ := invariant.closing (by omega)
    omega
  · intro left
    obtain ⟨_, _, none, _⟩ := invariant.leaked.mp left
    omega

theorem ShardInvariant.claim (invariant : ShardInvariant capacity shard listed holds closes leaked)
    (serves : shard.retiring = false) (room : shard.inFlight < capacity) (counted : after.inFlight = shard.inFlight + 1)
    (closed : after.clientClosed = shard.clientClosed) :
    ShardInvariant capacity after listed (holds + 1) closes leaked := by
  obtain ⟨here, unclosed, kept⟩ := invariant.serving serves
  have known := invariant.counted
  refine ⟨?_, ?_, ?_, ?_, ?_, ?_, ?_⟩
  · omega
  · omega
  · exact fun _ => here
  · intro some
    omega
  · intro gone
    exact absurd here gone
  · rw [closed]
    exact invariant.closed
  · constructor
    · intro left
      exact absurd left kept
    · intro left
      obtain ⟨_, _, none, _⟩ := left
      omega

theorem ShardInvariant.release (invariant : ShardInvariant capacity shard listed (holds + 1) closes leaked) (after : ClientShard)
    (counted : after.inFlight = shard.inFlight - 1) (closed : after.clientClosed = shard.clientClosed) :
    ShardInvariant capacity after listed holds (closes + if after.retiring = true ∧ after.inFlight = 0 then 1 else 0) leaked := by
  obtain ⟨here, unclosed, kept⟩ := invariant.busy
  have known := invariant.counted
  have bounded := invariant.bounded
  refine ⟨by omega, by omega, fun _ => here, ?_, fun gone => absurd here gone, ?_, ?_⟩
  · intro some
    by_cases last : after.retiring = true ∧ after.inFlight = 0
    · rw [if_pos last]
      exact ⟨here, last.1, by omega, by omega⟩
    · rw [if_neg last] at some
      omega
  · rw [closed]
    exact invariant.closed
  · refine ⟨fun left => absurd left kept, fun left => ?_⟩
    obtain ⟨_, retires, none, unclosing⟩ := left
    rw [if_pos ⟨retires, by omega⟩] at unclosing
    omega

theorem ShardInvariant.touch (invariant : ShardInvariant capacity shard listed holds closes leaked)
    (counted : after.inFlight = shard.inFlight) (closed : after.clientClosed = shard.clientClosed)
    (retiring : after.retiring = shard.retiring ∨ (after.retiring = true ∧ 0 < holds)) :
    ShardInvariant capacity after listed holds closes leaked := by
  have known := invariant.counted
  refine ⟨by omega, invariant.bounded, invariant.held, ?_, ?_, ?_, ?_⟩
  · intro some
    obtain ⟨here, retires, none, once⟩ := invariant.closing some
    cases retiring with
    | inl same => exact ⟨here, same.trans retires, none, once⟩
    | inr set => exact ⟨here, set.1, none, once⟩
  · intro gone
    cases retiring with
    | inl same => exact same.trans (invariant.dropped gone)
    | inr set => exact set.1
  · rw [closed]
    exact invariant.closed
  · rw [invariant.leaked]
    cases retiring with
    | inl same => rw [same]
    | inr set =>
        constructor
        · intro left
          obtain ⟨_, _, none, _⟩ := left
          omega
        · intro left
          obtain ⟨_, _, none, _⟩ := left
          omega

theorem ShardInvariant.drop (invariant : ShardInvariant capacity shard listed holds (closes + 1) leaked) (after : ClientShard)
    (counted : after.inFlight = shard.inFlight) (retiring : after.retiring = shard.retiring)
    (closed : after.clientClosed = true) :
    ShardInvariant capacity after False holds closes leaked := by
  obtain ⟨here, retires, none, once⟩ := invariant.closing (by omega)
  have known := invariant.counted
  refine ⟨by omega, invariant.bounded, by omega, by omega, fun _ => retiring.trans retires, by simp [closed], ?_⟩
  constructor
  · intro left
    obtain ⟨_, _, _, unclosing⟩ := invariant.leaked.mp left
    omega
  · intro left
    exact left.1.elim

theorem ShardInvariant.abandon (invariant : ShardInvariant capacity shard listed holds (closes + 1) leaked) :
    ShardInvariant capacity shard listed holds closes True := by
  obtain ⟨here, retires, none, once⟩ := invariant.closing (by omega)
  refine ⟨invariant.counted, invariant.bounded, invariant.held, by omega, invariant.dropped, invariant.closed, ?_⟩
  exact iff_of_true trivial ⟨here, retires, none, by omega⟩

theorem fresh_shard : ShardInvariant capacity {} True 0 0 False := by
  constructor <;> simp

end Shards

-- `holds` and `closes` count, shard by shard, the requests that hold and close it; `leaked` are the shards
-- left behind.
structure PoolInvariant (capacity : Nat) (pool : NetworkPool) (holds closes : Nat → Nat) (leaked : List Nat) : Prop where
  distinct : pool.clients.Nodup
  first : 1 ≤ pool.nextShardId
  created : ∀ id ∈ pool.clients, pool.Created id
  shards : ∀ id, pool.Created id →
    ShardInvariant capacity (pool.shardOf id) (id ∈ pool.clients) (holds id) (closes id) (id ∈ leaked)
  absent : ∀ id, ¬pool.Created id → holds id = 0 ∧ closes id = 0 ∧ id ∉ leaked

section Pool

variable {capacity id : Nat} {pool after : NetworkPool} {holds closes holdsAfter closesAfter : Nat → Nat}
  {leaked leakedAfter : List Nat}

theorem PoolInvariant.change (invariant : PoolInvariant capacity pool holds closes leaked) (created : pool.Created id)
    (next : after.nextShardId = pool.nextShardId) (distinct : after.clients.Nodup)
    (others : ∀ other, other ≠ id → after.shardOf other = pool.shardOf other ∧ (other ∈ after.clients ↔ other ∈ pool.clients) ∧
      holdsAfter other = holds other ∧ closesAfter other = closes other ∧ (other ∈ leakedAfter ↔ other ∈ leaked))
    (here : ShardInvariant capacity (after.shardOf id) (id ∈ after.clients) (holdsAfter id) (closesAfter id) (id ∈ leakedAfter)) :
    PoolInvariant capacity after holdsAfter closesAfter leakedAfter := by
  have same : ∀ other, after.Created other ↔ pool.Created other := by
    intro other
    rw [NetworkPool.Created, NetworkPool.Created, next]
  refine ⟨distinct, next ▸ invariant.first, ?_, ?_, ?_⟩
  · intro other member
    by_cases it : other = id
    · rw [it, same]
      exact created
    · exact (same other).mpr (invariant.created other ((others other it).2.1.mp member))
  · intro other listed
    by_cases it : other = id
    · rw [it]
      exact here
    · obtain ⟨shard, member, held, closing, left⟩ := others other it
      rw [shard, held, closing, propext member, propext left]
      exact invariant.shards other ((same other).mp listed)
  · intro other unlisted
    have it : other ≠ id := by
      intro it
      rw [it, same] at unlisted
      exact unlisted created
    obtain ⟨_, _, held, closing, left⟩ := others other it
    rw [held, closing, left]
    exact invariant.absent other (unlisted ∘ (same other).mpr)

theorem PoolInvariant.update {change : ClientShard → ClientShard} (invariant : PoolInvariant capacity pool holds closes leaked)
    (created : pool.Created id) (held : ∀ other, other ≠ id → holdsAfter other = holds other)
    (closing : ∀ other, other ≠ id → closesAfter other = closes other)
    (here : ShardInvariant capacity (change (pool.shardOf id)) (id ∈ pool.clients) (holdsAfter id)
    (closesAfter id) (id ∈ leaked)) :
    PoolInvariant capacity (pool.update id change) holdsAfter closesAfter leaked := by
  refine invariant.change created rfl invariant.distinct ?_ ?_
  · intro other apart
    exact ⟨Function.update_of_ne apart .., .rfl, held other apart, closing other apart, .rfl⟩
  · rw [NetworkPool.update]
    simpa only [Function.update_self] using here

theorem PoolInvariant.held_created (invariant : PoolInvariant capacity pool holds closes leaked) (held : 0 < holds id) :
    pool.Created id := by
  by_contra absent
  have none := (invariant.absent id absent).1
  omega

theorem PoolInvariant.closing_created (invariant : PoolInvariant capacity pool holds closes leaked) (closing : 0 < closes id) :
    pool.Created id := by
  by_contra absent
  have none := (invariant.absent id absent).2.1
  omega

theorem PoolInvariant.touch {change : ClientShard → ClientShard}
    (invariant : PoolInvariant capacity pool (plus holds [id]) closes leaked)
    (counted : (change (pool.shardOf id)).inFlight = (pool.shardOf id).inFlight)
    (closed : (change (pool.shardOf id)).clientClosed = (pool.shardOf id).clientClosed)
    (retiring : (change (pool.shardOf id)).retiring = (pool.shardOf id).retiring ∨ (change (pool.shardOf id)).retiring = true) :
    PoolInvariant capacity (pool.update id change) (plus holds [id]) closes leaked := by
  have held : 0 < plus holds [id] id := by
    rw [plus_self]
    omega
  have created := invariant.held_created held
  refine invariant.update created (fun _ _ => rfl) (fun _ _ => rfl) ?_
  exact (invariant.shards id created).touch counted closed (retiring.imp_right fun set => ⟨set, held⟩)

theorem release_client_fst (pool : NetworkPool) (id : Nat) :
    (pool.releaseClient id).1 = pool.update id fun shard => { shard with inFlight := shard.inFlight - 1 } := rfl

theorem release_client_snd (pool : NetworkPool) (id : Nat) :
    (pool.releaseClient id).2 = ((pool.shardOf id).retiring && (pool.shardOf id).inFlight - 1 == 0) := by
  simp [NetworkPool.releaseClient, NetworkPool.update]

theorem PoolInvariant.release (invariant : PoolInvariant capacity pool (plus holds [id]) closes leaked) :
    PoolInvariant capacity (pool.releaseClient id).1 holds
      (plus closes (if (pool.releaseClient id).2 = true then [id] else [])) leaked := by
  have created := invariant.held_created self_held
  have here := invariant.shards id created
  rw [plus_self] at here
  have released := here.release { pool.shardOf id with inFlight := (pool.shardOf id).inFlight - 1 } rfl rfl
  rw [release_client_fst]
  refine invariant.update created (fun other apart => (plus_other apart).symm) ?_ ?_
  · intro other apart
    split
    · exact plus_other apart
    · rw [plus_nil]
  · have closing : plus closes (if (pool.releaseClient id).2 = true then [id] else []) id =
        closes id + if (pool.shardOf id).retiring = true ∧ (pool.shardOf id).inFlight - 1 = 0 then 1 else 0 := by
      rw [release_client_snd]
      by_cases last : (pool.shardOf id).retiring = true ∧ (pool.shardOf id).inFlight - 1 = 0
      · simp [last]
      · rw [if_neg last, if_neg (by simpa using last), plus_nil, Nat.add_zero]
    rw [closing]
    exact released

theorem PoolInvariant.release_again (invariant : PoolInvariant capacity pool holds (plus closes [id]) leaked) :
    PoolInvariant capacity (pool.releaseClient id).1 holds (plus closes [id]) leaked ∧ (pool.releaseClient id).2 = true := by
  have created := invariant.closing_created self_held
  have here := invariant.shards id created
  rw [plus_self] at here
  obtain ⟨_, retires, none, _⟩ := here.closing (by omega)
  have zero : (pool.shardOf id).inFlight = 0 := here.counted.trans none
  constructor
  · rw [release_client_fst]
    refine invariant.update created (fun _ _ => rfl) (fun _ _ => rfl) ?_
    rw [plus_self]
    exact here.touch (by simp [zero]) rfl (.inl rfl)
  · rw [release_client_snd, retires, zero]
    rfl

theorem PoolInvariant.drop (invariant : PoolInvariant capacity pool holds (plus closes [id]) leaked) :
    PoolInvariant capacity (pool.dropClient id) holds closes leaked := by
  have created := invariant.closing_created self_held
  have here := invariant.shards id created
  rw [plus_self] at here
  have gone : id ∉ (pool.dropClient id).clients := List.Nodup.not_mem_erase invariant.distinct
  refine invariant.change created rfl (invariant.distinct.erase id) ?_ ?_
  · intro other apart
    exact ⟨Function.update_of_ne apart .., List.mem_erase_of_ne apart, rfl, (plus_other apart).symm, .rfl⟩
  · have dropped := here.drop { pool.shardOf id with clientClosed := true } rfl rfl rfl
    rw [eq_false gone]
    simpa only [NetworkPool.dropClient, NetworkPool.update, Function.update_self] using dropped

theorem PoolInvariant.abandon (invariant : PoolInvariant capacity pool holds (plus closes [id]) leaked) :
    PoolInvariant capacity pool holds closes (id :: leaked) := by
  have created := invariant.closing_created self_held
  have here := invariant.shards id created
  rw [plus_self] at here
  refine invariant.change created rfl invariant.distinct ?_ ?_
  · intro other apart
    exact ⟨rfl, .rfl, rfl, (plus_other apart).symm, by simp [apart]⟩
  · rw [eq_true List.mem_cons_self]
    exact here.abandon

theorem select_shard_some {index : Nat} (selected : pool.selectShard capacity = some (index, id)) :
    id ∈ pool.clients ∧ (pool.shardOf id).retiring = false ∧ (pool.shardOf id).inFlight < capacity := by
  have every : ∀ (offsets : List Nat) (start : Option (Nat × Nat)),
      (∀ best ∈ start, best.2 ∈ pool.clients ∧ (pool.shardOf best.2).retiring = false ∧
        (pool.shardOf best.2).inFlight < capacity) →
      ∀ best ∈ offsets.foldl (pool.selectCandidate capacity) start,
        best.2 ∈ pool.clients ∧ (pool.shardOf best.2).retiring = false ∧ (pool.shardOf best.2).inFlight < capacity := by
    intro offsets
    induction offsets with
    | nil => exact fun _ known => known
    | cons offset rest ih =>
        intro start known
        refine ih _ ?_
        intro best chosen
        rw [NetworkPool.selectCandidate] at chosen
        split at chosen
        · exact known best chosen
        · rename_i candidate listed
          split at chosen
          · rename_i fits
            cases chosen
            exact ⟨List.mem_of_getElem? listed, fits.1, fits.2.1⟩
          · exact known best chosen
  exact every _ none (by simp) _ selected

theorem PoolInvariant.claim (invariant : PoolInvariant capacity pool holds closes leaked) (created : pool.Created id)
    (serves : (pool.shardOf id).retiring = false) (room : (pool.shardOf id).inFlight < capacity) :
    PoolInvariant capacity (pool.claimShard id) (plus holds [id]) closes leaked := by
  refine invariant.update created (fun other apart => plus_other apart) (fun _ _ => rfl) ?_
  rw [plus_self]
  exact (invariant.shards id created).claim serves room rfl rfl

theorem PoolInvariant.create (invariant : PoolInvariant capacity pool holds closes leaked) :
    PoolInvariant capacity pool.newClientShard holds closes leaked := by
  have fresh : ¬pool.Created pool.nextShardId := by simp [NetworkPool.Created]
  have unlisted : pool.nextShardId ∉ pool.clients := fun member => fresh (invariant.created _ member)
  have first := invariant.first
  have listed_iff : ∀ other, other ∈ pool.newClientShard.clients ↔ other ∈ pool.clients ∨ other = pool.nextShardId := by
    simp [NetworkPool.newClientShard]
  have created_iff : ∀ other, pool.newClientShard.Created other ↔ pool.Created other ∨ other = pool.nextShardId := by
    intro other
    simp only [NetworkPool.Created, NetworkPool.newClientShard]
    omega
  refine ⟨?_, Nat.le_succ_of_le first, ?_, ?_, ?_⟩
  · exact List.nodup_append.mpr ⟨invariant.distinct, List.nodup_singleton _, by
      intro one member other sole same
      cases List.mem_singleton.mp sole
      exact unlisted (same ▸ member)⟩
  · intro other member
    exact (created_iff other).mpr (((listed_iff other).mp member).imp_left (invariant.created other))
  · intro other created
    by_cases it : other = pool.nextShardId
    · obtain ⟨unheld, unclosed, kept⟩ := invariant.absent _ fresh
      subst it
      rw [unheld, unclosed, eq_false kept, eq_true ((listed_iff _).mpr (.inr rfl))]
      simpa only [NetworkPool.newClientShard, Function.update_self] using fresh_shard
    · have before := invariant.shards other (((created_iff other).mp created).resolve_right it)
      rw [propext (listed_iff other), or_iff_left it]
      simpa only [NetworkPool.newClientShard, Function.update_of_ne it] using before
  · intro other unlisted
    exact invariant.absent other fun created => unlisted ((created_iff other).mpr (.inl created))

theorem PoolInvariant.set_index (invariant : PoolInvariant capacity pool holds closes leaked) (index : Nat) :
    PoolInvariant capacity { pool with nextClientIndex := index } holds closes leaked :=
  ⟨invariant.distinct, invariant.first, invariant.created, invariant.shards, invariant.absent⟩

theorem PoolInvariant.acquire {clientRaises : Bool} (invariant : PoolInvariant capacity pool holds closes leaked)
    (room : 1 ≤ capacity)
    (acquired : pool.acquireClient capacity clientRaises = some (id, after)) :
    PoolInvariant capacity after (plus holds [id]) closes leaked ∧ (after.shardOf id).retiring = false := by
  rw [NetworkPool.acquireClient] at acquired
  split at acquired
  · rename_i index chosen selected
    cases acquired
    obtain ⟨listed, serves, fits⟩ := select_shard_some selected
    refine ⟨(invariant.set_index _).claim (invariant.created _ listed) serves fits, ?_⟩
    simpa only [NetworkPool.claimShard, NetworkPool.update, Function.update_self] using serves
  · split at acquired
    · cases acquired
    · cases acquired
      have blank : pool.newClientShard.shardOf pool.nextShardId = {} := Function.update_self ..
      have made : pool.newClientShard.Created pool.nextShardId := ⟨invariant.first, Nat.lt_succ_self _⟩
      refine ⟨(invariant.create.set_index 0).claim made (congrArg ClientShard.retiring blank) ?_, ?_⟩
      · exact lt_of_eq_of_lt (congrArg ClientShard.inFlight blank) room
      · simp only [NetworkPool.claimShard, NetworkPool.update, Function.update_self]
        exact congrArg ClientShard.retiring blank

end Pool

structure AttemptLimits (config : NetworkConfig) (request : NetworkRequest) : Prop where
  cohort : request.cohortRetries ≤ config.cohortRetryLimit
  transport : request.transportErrorRetries ≤ config.transportErrorRetryLimit
  attempts : request.physicalAttempt ≤ 1 + request.cohortRetries + request.transportErrorRetries

def FutureSettled (request : NetworkRequest) : Prop :=
  match request.phase with
  | .queued => request.physicalAttempt = 0 ∧
      (request.future = .pending ∧ request.resolutions = 0 ∨ request.future = .cancelled ∧ request.resolutions = 1)
  | .sending _ | .retryClosing _ _ => request.future = .running ∧ request.resolutions = 0
  | .finalClosing _ | .ended => request.future.done = true ∧ request.resolutions = 1

structure Moved (config : NetworkConfig) (holds closes : Nat → Nat) (leaked : List Nat) (moved : NetworkPool × NetworkRequest) :
    Prop where
  pool : PoolInvariant config.shardCapacity moved.1 (plus holds moved.2.holding) (plus closes moved.2.closing) leaked
  limits : AttemptLimits config moved.2
  settled : FutureSettled moved.2

section Requests

variable {config : NetworkConfig} {pool : NetworkPool} {request : NetworkRequest} {holds closes : Nat → Nat}
  {leaked : List Nat} {id : Nat}
  {faults : AttemptFaults} {reason : ReplayReason}

open NetworkRequest

def Running (request : NetworkRequest) : Prop := request.future = .running ∧ request.resolutions = 0

theorem resolve_running (running : Running request) :
    request.resolve = { request with future := .finished, resolutions := 1 } := by
  rw [resolve, running.1, running.2]
  rfl

theorem finish_none (invariant : PoolInvariant config.shardCapacity pool holds closes leaked)
    (limits : AttemptLimits config request)
    (done : request.future.done = true ∧ request.resolutions = 1) :
    Moved config holds closes leaked (finish pool request none) := by
  refine ⟨?_, ⟨limits.cohort, limits.transport, limits.attempts⟩, done⟩
  simpa only [finish, holding, closing, plus_nil] using invariant

theorem finish_some (invariant : PoolInvariant config.shardCapacity pool (plus holds [id]) closes leaked)
    (limits : AttemptLimits config request) (done : request.future.done = true ∧ request.resolutions = 1) :
    Moved config holds closes leaked (finish pool request (some id)) := by
  have released := invariant.release
  cases last : (pool.releaseClient id).2 with
  | true =>
      rw [last] at released
      refine ⟨?_, ⟨limits.cohort, limits.transport, limits.attempts⟩, ?_⟩
      · simpa only [finish, holding, closing, last, if_true, plus_nil] using released
      · simpa only [finish, last, FutureSettled, if_true] using done
  | false =>
      rw [last] at released
      refine ⟨?_, ⟨limits.cohort, limits.transport, limits.attempts⟩, ?_⟩
      · simpa only [finish, holding, closing, last, if_neg Bool.false_ne_true, plus_nil] using released
      · simpa only [finish, last, FutureSettled, if_neg Bool.false_ne_true] using done

theorem fail_none (invariant : PoolInvariant config.shardCapacity pool holds closes leaked)
    (limits : AttemptLimits config request)
    (running : Running request) : Moved config holds closes leaked (fail pool request none) := by
  rw [fail, resolve_running running]
  exact finish_none invariant ⟨limits.cohort, limits.transport, limits.attempts⟩ ⟨rfl, rfl⟩

theorem fail_some (invariant : PoolInvariant config.shardCapacity pool (plus holds [id]) closes leaked)
    (limits : AttemptLimits config request) (running : Running request) :
    Moved config holds closes leaked (fail pool request (some id)) := by
  rw [fail, resolve_running running]
  exact finish_some (invariant.touch rfl rfl (.inl rfl)) ⟨limits.cohort, limits.transport, limits.attempts⟩ ⟨rfl, rfl⟩

theorem respond_moved (invariant : PoolInvariant config.shardCapacity pool (plus holds [id]) closes leaked)
    (limits : AttemptLimits config request) (running : Running request) :
    Moved config holds closes leaked (respond pool request id) := by
  rw [respond, resolve_running running]
  exact finish_some (invariant.touch rfl rfl (.inl rfl)) ⟨limits.cohort, limits.transport, limits.attempts⟩ ⟨rfl, rfl⟩

structure Ready (config : NetworkConfig) (request : NetworkRequest) : Prop where
  cohort : request.cohortRetries ≤ config.cohortRetryLimit
  transport : request.transportErrorRetries ≤ config.transportErrorRetryLimit
  attempts : request.physicalAttempt ≤ request.cohortRetries + request.transportErrorRetries
  running : Running request

theorem attempt_moved (invariant : PoolInvariant config.shardCapacity pool holds closes leaked) (ready : Ready config request) :
    Moved config holds closes leaked (attempt config pool request faults) := by
  have attempts := ready.attempts
  have limits : AttemptLimits config { request with physicalAttempt := request.physicalAttempt + 1 } :=
    ⟨ready.cohort, ready.transport,
      show request.physicalAttempt + 1 ≤ 1 + request.cohortRetries + request.transportErrorRetries by omega⟩
  rw [attempt]
  split
  · exact fail_none invariant limits ready.running
  · split
    · exact fail_none invariant limits ready.running
    · rename_i id after acquired
      obtain ⟨acquired, _⟩ := invariant.acquire (shard_capacity_positive config) acquired
      refine ⟨?_, ⟨limits.cohort, limits.transport, limits.attempts⟩, ready.running⟩
      simpa only [holding, closing, plus_nil] using acquired

theorem retry_moved (invariant : PoolInvariant config.shardCapacity pool holds closes leaked)
    (limits : AttemptLimits config request)
    (running : Running request) : Moved config holds closes leaked (retry config pool request faults reason) := by
  have cohort := limits.cohort
  have transport := limits.transport
  have attempts := limits.attempts
  cases reason with
  | cohortStreamStall =>
      rw [retry]
      split
      · exact fail_none invariant limits running
      · refine attempt_moved invariant ⟨?_, transport, ?_, running⟩
        · show request.cohortRetries + 1 ≤ _
          omega
        · show request.physicalAttempt ≤ request.cohortRetries + 1 + request.transportErrorRetries
          omega
  | transportError =>
      rw [retry]
      split
      · exact fail_none invariant limits running
      · refine attempt_moved invariant ⟨cohort, ?_, ?_, running⟩
        · show request.transportErrorRetries + 1 ≤ _
          omega
        · show request.physicalAttempt ≤ request.cohortRetries + (request.transportErrorRetries + 1)
          omega

theorem poison_keeps (reason : ReplayReason) (shard : ClientShard) : (poison reason shard).inFlight = shard.inFlight ∧
    (poison reason shard).clientClosed = shard.clientClosed ∧ (poison reason shard).retiring = true := by
  cases reason <;> exact ⟨rfl, rfl, rfl⟩

theorem replay_moved (invariant : PoolInvariant config.shardCapacity pool (plus holds [id]) closes leaked)
    (limits : AttemptLimits config request) (running : Running request) :
    Moved config holds closes leaked (replay config pool request id reason faults) := by
  obtain ⟨counted, closed, retires⟩ := poison_keeps reason (pool.shardOf id)
  have released := (invariant.touch counted closed (.inr retires)).release
  rw [replay]
  split
  · rename_i after result
    rw [result] at released
    refine ⟨?_, ⟨limits.cohort, limits.transport, limits.attempts⟩, running⟩
    simpa only [holding, closing, plus_nil, if_true] using released
  · rename_i after result
    rw [result] at released
    refine retry_moved ?_ limits running
    simpa only [if_neg Bool.false_ne_true, plus_nil] using released

theorem Moved.sending (moved : Moved config holds closes leaked (pool, request)) (phase : request.phase = .sending id) :
    PoolInvariant config.shardCapacity pool (plus holds [id]) closes leaked ∧ Running request := by
  have invariant := moved.pool
  have settled := moved.settled
  simp only [holding, closing, phase, plus_nil] at invariant
  simp only [FutureSettled, phase] at settled
  exact ⟨invariant, settled⟩

theorem Moved.retry_closing (moved : Moved config holds closes leaked (pool, request))
    (phase : request.phase = .retryClosing id reason) :
    PoolInvariant config.shardCapacity pool holds (plus closes [id]) leaked ∧ Running request := by
  have invariant := moved.pool
  have settled := moved.settled
  simp only [holding, closing, phase, plus_nil] at invariant
  simp only [FutureSettled, phase] at settled
  exact ⟨invariant, settled⟩

theorem Moved.final_closing (moved : Moved config holds closes leaked (pool, request))
    (phase : request.phase = .finalClosing id) :
    PoolInvariant config.shardCapacity pool holds (plus closes [id]) leaked ∧
      request.future.done = true ∧ request.resolutions = 1 := by
  have invariant := moved.pool
  have settled := moved.settled
  simp only [holding, closing, phase, plus_nil] at invariant
  simp only [FutureSettled, phase] at settled
  exact ⟨invariant, settled⟩

theorem fail_again (invariant : PoolInvariant config.shardCapacity pool holds (plus closes [id]) leaked)
    (limits : AttemptLimits config request) (running : Running request) :
    Moved config holds closes leaked (fail pool request (some id)) := by
  have created := invariant.closing_created self_held
  have counted : PoolInvariant config.shardCapacity
      (pool.update id fun shard => { shard with requestsFailed := shard.requestsFailed + 1 }) holds (plus closes [id]) leaked :=
    invariant.update created (fun _ _ => rfl) (fun _ _ => rfl) ((invariant.shards id created).touch rfl rfl (.inl rfl))
  obtain ⟨released, last⟩ := counted.release_again
  rw [fail, resolve_running running]
  refine ⟨?_, ⟨limits.cohort, limits.transport, limits.attempts⟩, ?_⟩
  · simpa only [finish, holding, closing, last, if_true, plus_nil] using released
  · simp [finish, last, FutureSettled, FutureState.done]

theorem cancel_moved (moved : Moved config holds closes leaked (pool, request)) :
    Moved config holds closes leaked (pool, request.cancel) := by
  rw [cancel]
  split
  · rename_i pending
    have settled := moved.settled
    refine ⟨moved.pool, ⟨moved.limits.cohort, moved.limits.transport, moved.limits.attempts⟩, ?_⟩
    cases phase : request.phase <;> simp_all [FutureSettled, FutureState.done]
  · exact moved

theorem move_moved {event : RequestEvent} {moved : NetworkPool × NetworkRequest}
    (before : Moved config holds closes leaked (pool, request)) (stepped : request.move config pool event = some moved) :
    ∃ later, Moved config holds closes later moved ∧ (later = [] ↔ leaked = [] ∧ event ≠ .finalCloseRaises) := by
  have limits := before.limits
  cases event with
  | cancel =>
      cases stepped
      exact ⟨leaked, cancel_moved before, by simp⟩
  | start faults =>
      cases phase : request.phase <;> simp only [move, phase, reduceCtorEq] at stepped
      have invariant := before.pool
      have settled := before.settled
      simp only [holding, closing, phase, plus_nil] at invariant
      simp only [FutureSettled, phase] at settled
      obtain ⟨none, known⟩ := settled
      refine ⟨leaked, ?_, by simp⟩
      split at stepped
      · rename_i pending
        cases stepped
        rw [pending] at known
        refine attempt_moved invariant ⟨limits.cohort, limits.transport, ?_, rfl, by simpa using known⟩
        show request.physicalAttempt ≤ _
        omega
      · rename_i started
        cases stepped
        refine ⟨?_, ⟨limits.cohort, limits.transport, limits.attempts⟩, ?_⟩
        · simpa only [holding, closing, plus_nil] using invariant
        · obtain ⟨cancelled, once⟩ := known.resolve_left fun pending => started pending.1
          exact ⟨by rw [cancelled]; rfl, once⟩
  | unterminated =>
      cases phase : request.phase <;> simp only [move, phase, reduceCtorEq] at stepped
      cases stepped
      obtain ⟨invariant, running⟩ := before.sending phase
      refine ⟨leaked, ⟨?_, limits, before.settled⟩, by simp⟩
      simpa only [holding, closing, phase, plus_nil] using invariant.touch rfl rfl (.inr rfl)
  | respond =>
      cases phase : request.phase <;> simp only [move, phase, reduceCtorEq] at stepped
      cases stepped
      obtain ⟨invariant, running⟩ := before.sending phase
      exact ⟨leaked, respond_moved invariant limits running, by simp⟩
  | replay reason faults =>
      cases phase : request.phase <;> simp only [move, phase, reduceCtorEq] at stepped
      cases stepped
      obtain ⟨invariant, running⟩ := before.sending phase
      exact ⟨leaked, replay_moved invariant limits running, by simp⟩
  | raise =>
      cases phase : request.phase <;> simp only [move, phase, reduceCtorEq] at stepped
      cases stepped
      obtain ⟨invariant, running⟩ := before.sending phase
      exact ⟨leaked, fail_some invariant limits running, by simp⟩
  | closed faults =>
      cases phase : request.phase <;> simp only [move, phase, reduceCtorEq] at stepped
      · cases stepped
        obtain ⟨invariant, running⟩ := before.retry_closing phase
        exact ⟨leaked, retry_moved invariant.drop limits running, by simp⟩
      · cases stepped
        obtain ⟨invariant, done⟩ := before.final_closing phase
        refine ⟨leaked, ⟨?_, ⟨limits.cohort, limits.transport, limits.attempts⟩, done⟩, by simp⟩
        simpa only [holding, closing, plus_nil] using invariant.drop
  | retryCloseRaises =>
      cases phase : request.phase <;> simp only [move, phase, reduceCtorEq] at stepped
      cases stepped
      obtain ⟨invariant, running⟩ := before.retry_closing phase
      exact ⟨leaked, fail_again invariant limits running, by simp⟩
  | finalCloseRaises =>
      cases phase : request.phase <;> simp only [move, phase, reduceCtorEq] at stepped
      cases stepped
      obtain ⟨invariant, done⟩ := before.final_closing phase
      rename_i id
      refine ⟨id :: leaked, ⟨?_, ⟨limits.cohort, limits.transport, limits.attempts⟩, done⟩, by simp⟩
      simpa only [holding, closing, plus_nil] using invariant.abandon

def Unpoisoned (moved : NetworkPool × NetworkRequest) : Prop :=
  ∀ id, moved.2.phase = .sending id → (moved.1.shardOf id).retiring = false

theorem finish_unpoisoned (shard : Option Nat) : Unpoisoned (finish pool request shard) := by
  intro id sent
  cases shard with
  | none => cases sent
  | some held =>
      simp only [finish] at sent
      split at sent <;> cases sent

theorem fail_unpoisoned (shard : Option Nat) : Unpoisoned (fail pool request shard) := by
  cases shard with
  | none => exact finish_unpoisoned _
  | some held => exact finish_unpoisoned _

theorem attempt_unpoisoned (invariant : PoolInvariant config.shardCapacity pool holds closes leaked) :
    Unpoisoned (attempt config pool request faults) := by
  rw [attempt]
  split
  · exact fail_unpoisoned _
  · split
    · exact fail_unpoisoned _
    · rename_i id after acquired
      obtain ⟨_, serves⟩ := invariant.acquire (shard_capacity_positive config) acquired
      intro other sent
      cases sent
      exact serves

theorem retry_unpoisoned (invariant : PoolInvariant config.shardCapacity pool holds closes leaked) :
    Unpoisoned (retry config pool request faults reason) := by
  cases reason with
  | cohortStreamStall =>
      rw [retry]
      split
      · exact fail_unpoisoned _
      · exact attempt_unpoisoned invariant
  | transportError =>
      rw [retry]
      split
      · exact fail_unpoisoned _
      · exact attempt_unpoisoned invariant

theorem replay_unpoisoned (invariant : PoolInvariant config.shardCapacity pool (plus holds [id]) closes leaked) :
    Unpoisoned (replay config pool request id reason faults) := by
  obtain ⟨counted, closed, retires⟩ := poison_keeps reason (pool.shardOf id)
  have released := (invariant.touch counted closed (.inr retires)).release
  rw [replay]
  split
  · intro other sent
    cases sent
  · rename_i after result
    rw [result] at released
    exact retry_unpoisoned released

theorem move_unpoisoned {event : RequestEvent} {moved : NetworkPool × NetworkRequest}
    (before : Moved config holds closes leaked (pool, request)) (stepped : request.move config pool event = some moved)
    (again : request.physicalAttempt < moved.2.physicalAttempt) : Unpoisoned moved := by
  cases event with
  | cancel =>
      cases stepped
      simp only [cancel] at again
      split at again <;> exact absurd again (Nat.lt_irrefl _)
  | start faults =>
      cases phase : request.phase <;> simp only [move, phase, reduceCtorEq] at stepped
      have invariant := before.pool
      split at stepped
      · cases stepped
        exact attempt_unpoisoned invariant
      · cases stepped
        exact absurd again (Nat.lt_irrefl _)
  | unterminated =>
      cases phase : request.phase <;> simp only [move, phase, reduceCtorEq] at stepped
      cases stepped
      exact absurd again (Nat.lt_irrefl _)
  | respond =>
      cases phase : request.phase <;> simp only [move, phase, reduceCtorEq] at stepped
      cases stepped
      exact finish_unpoisoned _
  | replay reason faults =>
      cases phase : request.phase <;> simp only [move, phase, reduceCtorEq] at stepped
      cases stepped
      exact replay_unpoisoned (before.sending phase).1
  | raise =>
      cases phase : request.phase <;> simp only [move, phase, reduceCtorEq] at stepped
      cases stepped
      exact fail_unpoisoned _
  | closed faults =>
      cases phase : request.phase <;> simp only [move, phase, reduceCtorEq] at stepped
      · cases stepped
        exact retry_unpoisoned (before.retry_closing phase).1.drop
      · cases stepped
        exact absurd again (Nat.lt_irrefl _)
  | retryCloseRaises =>
      cases phase : request.phase <;> simp only [move, phase, reduceCtorEq] at stepped
      cases stepped
      exact fail_unpoisoned _
  | finalCloseRaises =>
      cases phase : request.phase <;> simp only [move, phase, reduceCtorEq] at stepped
      cases stepped
      exact absurd again (Nat.lt_irrefl _)

end Requests

structure ManagerInvariant (config : NetworkConfig) (leaked : List Nat) (manager : NetworkManager) : Prop where
  distinct : manager.requests.ids.Nodup
  pool : PoolInvariant config.shardCapacity manager.pool manager.holders manager.closers leaked
  requests : ∀ key request, (key, request) ∈ manager.requests → AttemptLimits config request ∧ FutureSettled request

def Assigned (manager later : NetworkManager) (key id : Nat) : Prop :=
  ∃ request next, manager.requests.phaseOf key = some request ∧ later.requests.phaseOf key = some next ∧
    request.physicalAttempt < next.physicalAttempt ∧ next.phase = .sending id

def ClosedWhenReleased (manager : NetworkManager) : Prop :=
  ∀ id, manager.pool.Created id →
    (id ∉ manager.pool.clients ↔ (manager.pool.shardOf id).retiring = true ∧ manager.holders id = 0 ∧ manager.closers id = 0) ∧
    ((manager.pool.shardOf id).clientClosed = true ↔ id ∉ manager.pool.clients)

section Runs

variable {config : NetworkConfig} {leaked : List Nat} {manager later : NetworkManager} {key id : Nat} {request : NetworkRequest}
  {labels : List NetworkLabel} {label : NetworkLabel}

theorem manager_start_invariant : ManagerInvariant config [] .start := by
  refine ⟨List.nodup_nil, ⟨List.nodup_nil, Nat.le_refl 1, by simp [NetworkManager.start], ?_, ?_⟩, by simp [NetworkManager.start]⟩
  · intro id created
    have none : ¬NetworkManager.start.pool.Created id := by
      simp only [NetworkPool.Created, NetworkManager.start]
      omega
    exact absurd created none
  · intro id _
    simp [NetworkManager.holders, NetworkManager.closers, NetworkManager.start]

theorem counts_split {requests : Lib.Threads NetworkRequest} (holds : NetworkRequest → List Nat) (distinct : requests.ids.Nodup)
    (found : requests.phaseOf key = some request) :
    ∃ rest : Nat → Nat, (fun id => (requests.held holds).count id) = plus rest (holds request) ∧
      ∀ next, (fun id => ((requests.setPhase key next).held holds).count id) = plus rest (holds next) := by
  obtain ⟨left, right, now, after⟩ := Lib.Threads.held_set distinct found holds
  refine ⟨fun id => left.count id + right.count id, ?_, ?_⟩
  · funext id
    rw [now, List.count_append, List.count_append, plus]
    omega
  · intro next
    funext id
    rw [after, List.count_append, List.count_append, plus]
    omega

theorem ManagerInvariant.split (invariant : ManagerInvariant config leaked manager)
    (found : manager.requests.phaseOf key = some request) :
    ∃ holds closes, Moved config holds closes leaked (manager.pool, request) ∧
      ∀ moved remaining, Moved config holds closes remaining moved →
        ManagerInvariant config remaining ⟨moved.1, manager.requests.setPhase key moved.2⟩ := by
  obtain ⟨holds, held, holdsLater⟩ := counts_split NetworkRequest.holding invariant.distinct found
  obtain ⟨closes, closing, closesLater⟩ := counts_split NetworkRequest.closing invariant.distinct found
  obtain ⟨limits, settled⟩ := invariant.requests key request (Lib.Threads.mem_of_phase found)
  have pool := invariant.pool
  have heldNow : manager.holders = plus holds request.holding := held
  have closingNow : manager.closers = plus closes request.closing := closing
  rw [heldNow, closingNow] at pool
  refine ⟨holds, closes, ⟨pool, limits, settled⟩, ?_⟩
  intro moved remaining after
  refine ⟨?_, ?_, ?_⟩
  · show (manager.requests.setPhase key moved.2).ids.Nodup
    rw [Lib.Threads.ids_set_phase]
    exact invariant.distinct
  · have heldLater : NetworkManager.holders ⟨moved.1, manager.requests.setPhase key moved.2⟩ =
      plus holds moved.2.holding := holdsLater moved.2
    have closingLater : NetworkManager.closers ⟨moved.1, manager.requests.setPhase key moved.2⟩ =
      plus closes moved.2.closing := closesLater moved.2
    rw [heldLater, closingLater]
    exact after.pool
  · intro other asked member
    rcases Lib.Threads.of_mem_set_phase member with ⟨_, rfl⟩ | ⟨_, before⟩
    · exact ⟨after.limits, after.settled⟩
    · exact invariant.requests other asked before

theorem submit_invariant (invariant : ManagerInvariant config leaked manager) (fresh : key ∉ manager.requests.ids) :
    ManagerInvariant config leaked { manager with requests := manager.requests ++ [(key, {})] } := by
  refine ⟨?_, ?_, ?_⟩
  · rw [Lib.Threads.ids_append]
    exact List.nodup_append.mpr ⟨invariant.distinct, List.nodup_singleton _, by
      intro one member other sole same
      cases List.mem_singleton.mp sole
      have here : one = key := same
      exact fresh (here ▸ member)⟩
  · have held : NetworkManager.holders { manager with requests := manager.requests ++ [(key, {})] } = manager.holders := by
      funext id
      simp [NetworkManager.holders, NetworkRequest.holding]
    have closing : NetworkManager.closers { manager with requests := manager.requests ++ [(key, {})] } = manager.closers := by
      funext id
      simp [NetworkManager.closers, NetworkRequest.closing]
    rw [held, closing]
    exact invariant.pool
  · intro other asked member
    rcases List.mem_append.mp member with before | sole
    · exact invariant.requests other asked before
    · cases List.mem_singleton.mp sole
      exact ⟨⟨Nat.zero_le _, Nat.zero_le _, Nat.zero_le _⟩, rfl, .inl ⟨rfl, rfl⟩⟩

theorem step_invariant (invariant : ManagerInvariant config leaked manager) (stepped : manager.step config label = some later) :
    ∃ remaining, ManagerInvariant config remaining later ∧
      (remaining = [] ↔ leaked = [] ∧ ∀ key, label ≠ .event key .finalCloseRaises) := by
  cases label with
  | submit key =>
      simp only [NetworkManager.step] at stepped
      split at stepped
      · cases stepped
      · rename_i fresh
        cases stepped
        exact ⟨leaked, submit_invariant invariant fresh, by simp⟩
  | event key event =>
      simp only [NetworkManager.step] at stepped
      split at stepped
      · cases stepped
      · rename_i request found
        obtain ⟨moved, moves, same⟩ := Option.map_eq_some_iff.mp stepped
        obtain ⟨holds, closes, before, put⟩ := invariant.split found
        obtain ⟨remaining, after, left⟩ := move_moved before moves
        refine ⟨remaining, same ▸ put moved remaining after, left.trans ?_⟩
        simp

theorem manager_run_invariant (run : Lib.Run (fun before label after =>
    NetworkManager.step config before label = some after) .start labels manager) :
    ∃ leaked, ManagerInvariant config leaked manager ∧ (leaked = [] ↔ ∀ key, .event key .finalCloseRaises ∉ labels) := by
  generalize origin : NetworkManager.start = first at run
  induction run with
  | nil => exact ⟨[], origin ▸ manager_start_invariant, by simp⟩
  | snoc earlier last ih =>
      obtain ⟨leaked, invariant, known⟩ := ih
      obtain ⟨remaining, after, left⟩ := step_invariant invariant last
      refine ⟨remaining, after, left.trans ?_⟩
      rw [known]
      constructor
      · intro both key member
        rcases List.mem_append.mp member with inside | sole
        · exact both.1 key inside
        · exact both.2 key (List.mem_singleton.mp sole).symm
      · intro none
        refine ⟨fun key inside => none key (List.mem_append_left _ inside), fun key same => none key ?_⟩
        rw [same]
        exact List.mem_append_right _ (List.mem_singleton_self _)

theorem closed_when_released_iff (invariant : ManagerInvariant config leaked manager) : ClosedWhenReleased manager ↔
    leaked = [] := by
  constructor
  · intro closed
    refine List.eq_nil_iff_forall_not_mem.mpr fun id left => ?_
    have created : manager.pool.Created id := by
      by_contra absent
      exact (invariant.pool.absent id absent).2.2 left
    obtain ⟨listed, retires, none, unclosing⟩ := (invariant.pool.shards id created).leaked.mp left
    exact (closed id created).1.mpr ⟨retires, none, unclosing⟩ listed
  · intro none id created
    have shard := invariant.pool.shards id created
    refine ⟨⟨fun gone => ⟨shard.dropped gone, ?_, ?_⟩, fun released listed => ?_⟩, shard.closed⟩
    · by_contra held
      exact gone (shard.held (Nat.pos_of_ne_zero held))
    · by_contra closing
      exact gone (shard.closing (Nat.pos_of_ne_zero closing)).1
    · have left := shard.leaked.mpr ⟨listed, released⟩
      rw [none] at left
      cases left

theorem assigned_unpoisoned (invariant : ManagerInvariant config leaked manager)
    (stepped : manager.step config label = some later)
    (assigned : Assigned manager later key id) : id ∈ later.pool.clients ∧ (later.pool.shardOf id).retiring = false := by
  obtain ⟨remaining, after, _⟩ := step_invariant invariant stepped
  obtain ⟨request, next, found, moved, again, sent⟩ := assigned
  have listed : id ∈ later.pool.clients := by
    obtain ⟨holds, closes, beside, _⟩ := after.split moved
    have invariant := (beside.sending sent).1
    exact (invariant.shards id (invariant.held_created self_held)).held (by simp)
  refine ⟨listed, ?_⟩
  cases label with
  | submit other =>
      simp only [NetworkManager.step] at stepped
      split at stepped
      · cases stepped
      · cases stepped
        rcases List.mem_append.mp (Lib.Threads.mem_of_phase moved) with before | sole
        · have same := Lib.Threads.phase_of_mem invariant.distinct before
          rw [same] at found
          cases found
          exact absurd again (Nat.lt_irrefl _)
        · cases List.mem_singleton.mp sole
          cases sent
  | event other event =>
      simp only [NetworkManager.step] at stepped
      split at stepped
      · cases stepped
      · rename_i asked known
        obtain ⟨result, moves, same⟩ := Option.map_eq_some_iff.mp stepped
        subst same
        rcases Lib.Threads.of_mem_set_phase (Lib.Threads.mem_of_phase moved) with ⟨here, it⟩ | ⟨apart, before⟩
        · subst here it
          rw [known] at found
          cases found
          obtain ⟨holds, closes, beside, _⟩ := invariant.split known
          exact move_unpoisoned beside moves again id sent
        · have same := Lib.Threads.phase_of_mem invariant.distinct before
          rw [same] at found
          cases found
          exact absurd again (Nat.lt_irrefl _)

theorem settled_once (settled : FutureSettled request) :
    request.resolutions = (if request.future.done then 1 else 0) ∧ (request.phase = .ended → request.future.done = true) := by
  cases phase : request.phase <;> simp only [FutureSettled, phase] at settled
  case queued =>
    rcases settled.2 with ⟨pending, none⟩ | ⟨cancelled, once⟩
    · simp [pending, none, FutureState.done]
    · simp [cancelled, once, FutureState.done]
  case sending shard => simp [settled, FutureState.done]
  case retryClosing shard reason => simp [settled, FutureState.done]
  case finalClosing shard => simp [settled]
  case ended => simp [settled]

-- What every run of the pool keeps, and the runs in which no retired shard stays behind.
theorem network_pool_runs (config : NetworkConfig) (labels : List NetworkLabel) (manager : NetworkManager)
    (run : Lib.Run (fun before label after => NetworkManager.step config before label = some after) .start labels manager) :
    (∀ id, manager.pool.Created id →
      (manager.pool.shardOf id).inFlight = manager.holders id ∧ (manager.pool.shardOf id).inFlight ≤ config.shardCapacity) ∧
    (∀ label later key id, manager.step config label = some later → Assigned manager later key id →
      id ∈ later.pool.clients ∧ (later.pool.shardOf id).retiring = false) ∧
    (∀ key request, (key, request) ∈ manager.requests →
      request.physicalAttempt ≤ 1 + config.cohortRetryLimit + config.transportErrorRetryLimit ∧
      request.resolutions = (if request.future.done then 1 else 0) ∧ (request.phase = .ended → request.future.done = true)) ∧
    (ClosedWhenReleased manager ↔ ∀ key, .event key .finalCloseRaises ∉ labels) := by
  obtain ⟨leaked, invariant, known⟩ := manager_run_invariant run
  refine ⟨?_, fun label later key id stepped assigned => assigned_unpoisoned invariant stepped assigned, ?_, ?_⟩
  · intro id created
    have shard := invariant.pool.shards id created
    exact ⟨shard.counted, le_of_eq_of_le shard.counted shard.bounded⟩
  · intro key request member
    obtain ⟨limits, settled⟩ := invariant.requests key request member
    have cohort := limits.cohort
    have transport := limits.transport
    have attempts := limits.attempts
    exact ⟨by omega, settled_once settled⟩
  · exact (closed_when_released_iff invariant).trans known

end Runs

theorem pool_config_positive : 1 ≤ 32 ∧ 1 ≤ 16 := by decide

def poolConfig : NetworkConfig := ⟨true, 32, 16, 2, 2, pool_config_positive⟩

def sharedShard (ending : RequestEvent) : List NetworkLabel :=
  [.submit 1, .submit 2, .event 1 (.start {}), .event 2 (.start {}), .event 1 (.replay .transportError {}), .event 2 .raise,
    .event 2 ending]

def sharedShardEnd (ending : RequestEvent) : NetworkManager :=
  ((sharedShard ending).foldlM (NetworkManager.step poolConfig) .start).getD .start

-- Where the close returns, the poisoned shard has left the pool.
theorem shared_shard_closed : ClosedWhenReleased (sharedShardEnd (.closed {})) ∧
    (sharedShardEnd (.closed {})).pool.clients = [2] := by
  obtain ⟨_, _, _, closed⟩ := network_pool_runs poolConfig (sharedShard (.closed {}))
    (sharedShardEnd (.closed {})) (Lib.Run.of_fold rfl)
  exact ⟨closed.mpr (by simp [sharedShard]), rfl⟩

-- Where the task is cancelled during that close, the shard stays for good.
theorem cancelled_close_leaks :
    ¬∀ (config : NetworkConfig) (labels : List NetworkLabel) (manager : NetworkManager),
      Lib.Run (fun before label after => NetworkManager.step config before label = some after) .start labels manager →
        ClosedWhenReleased manager := by
  intro every
  have closed := every poolConfig (sharedShard .finalCloseRaises) (sharedShardEnd .finalCloseRaises) (Lib.Run.of_fold rfl)
  have gone := (closed 1 ⟨by decide, by decide⟩).1.mpr ⟨rfl, rfl, rfl⟩
  exact gone (by decide)

end MicroWorkflow
