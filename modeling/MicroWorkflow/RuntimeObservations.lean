import MicroWorkflow.Database
import MicroWorkflow.Lib.Machine
import MicroWorkflow.Lib.Observations

set_option autoImplicit false

namespace MicroWorkflow

open Lib (Table Run)

structure RuntimeObservationSequence where
  positions : List (String × Nat)

structure RuntimeObservationOrder where
  sequence : Nat
  position : Nat
deriving DecidableEq, Repr

abbrev RuntimeSequences := Nat → RuntimeObservationSequence

def RuntimeObservationSequence.register (sequence : RuntimeObservationSequence) (watchId : String) :
    RuntimeObservationSequence := ⟨sequence.positions ++ [(watchId, sequence.positions.length)]⟩

def precedes (sequences : RuntimeSequences) (order : RuntimeObservationOrder) (watchId : Option String) : Bool :=
  match watchId with
  | none => false
  | some watchId =>
      match (sequences order.sequence).positions.lookup watchId with
      | none => false
      | some position => order.position < position

-- `submission` counts the writes; no code reads it.
structure RuntimeUpdate where
  nodeName : String
  jobId : Nat
  generation : Nat
  executionId : Option String
  state : String
  watchId : Option String
  serialized : Details
  order : Option RuntimeObservationOrder
  submission : Nat
deriving DecidableEq, Repr

abbrev AttemptKey := String × Nat × Nat × Option String

def RuntimeUpdate.address (update : RuntimeUpdate) : JobAddress := (update.nodeName, update.jobId)

def RuntimeUpdate.attempt (update : RuntimeUpdate) : AttemptKey :=
  (update.nodeName, update.jobId, update.generation, update.executionId)

def latestRuntimeUpdate (previous incoming : RuntimeUpdate) : RuntimeUpdate :=
  match previous.order, incoming.order with
  | some earlier, some later =>
      if earlier.sequence = later.sequence ∧ later.position < earlier.position then previous else incoming
  | _, _ => incoming

structure RuntimeUpdateSlot where
  request : Nat
  priority : Int
  latest : RuntimeUpdate
  merged : List RuntimeUpdate
deriving DecidableEq, Repr

-- `latest_by_attempt`, whose entries stay where their key was first set.
def mergeAttempt (update : RuntimeUpdate) : List RuntimeUpdate → List RuntimeUpdate
  | [] => [update]
  | previous :: rest =>
      if previous.attempt = update.attempt then latestRuntimeUpdate previous update :: rest
      else previous :: mergeAttempt update rest

def latestByAttempt (updates : List RuntimeUpdate) : List RuntimeUpdate :=
  updates.foldl (fun latest update => mergeAttempt update latest) []

def textOf : Value → Option String
  | .text content => some content
  | _ => none

def watchOf (runtime : Option Details) : Option String := runtime.bind fun data => textOf (data.get "watch_id")

def stateOf (runtime : Option Details) : Option String := runtime.bind fun data => textOf (data.get "state")

def runtimeSuperseded (sequences : RuntimeSequences) (row : Option Job) (update : RuntimeUpdate) : Bool :=
  match update.order with
  | none => false
  | some order => precedes sequences order (watchOf (row.bind Job.runtimeJson))

def endingStates : List String := ["timed_out", "completed", "failed", "recovered"]

def settledStates : List String := ["timed_out", "completed", "failed", "restarted", "recovered"]

def runtimeFence (update : RuntimeUpdate) (row : Job) : Bool :=
  match update.executionId with
  | none => row.activeExecutionId.isNone
  | some executionId => row.activeExecutionId == some executionId
      || (endingStates.contains update.state && row.status.terminal
        && row.statusJson.get "execution_id" == .text executionId)

-- A comparison with NULL is neither true nor false: it refuses nothing by
-- itself, and it keeps the NOT around it from holding.
def otherWatch (watchId : Option String) (data : Details) : Bool :=
  match watchId, data.get "watch_id" with
  | none, _ => false
  | _, .null => false
  | some watchId, stored => stored != .text watchId

def unsettledState (data : Details) : Bool :=
  match data.get "state" with
  | .null => false
  | .text state => !settledStates.contains state
  | _ => true

def runningAfterSettled (update : RuntimeUpdate) (row : Job) : Bool :=
  update.state == "running" && row.runtimeJson.any fun data => !otherWatch update.watchId data && !unsettledState data

def runtimeGuard (update : RuntimeUpdate) (row : Job) : Bool :=
  row.address == update.address && row.generation == update.generation && runtimeFence update row
    && !runningAfterSettled update row

def setRuntime (update : RuntimeUpdate) (row : Job) : Job := { row with runtimeJson := some update.serialized }

def writeRuntime (jobs : Table Job.address) (update : RuntimeUpdate) : Table Job.address :=
  jobs.modify (runtimeGuard update) (setRuntime update)

def applyRuntimeUpdates (sequences : RuntimeSequences) (jobs : Table Job.address) (slots : List RuntimeUpdateSlot) :
    Table Job.address :=
  let accepted := (latestByAttempt (slots.map RuntimeUpdateSlot.latest)).filter fun update =>
    !runtimeSuperseded sequences (jobs.find update.address) update
  accepted.foldl writeRuntime jobs

def runtimeUpdate (nodeName : String) (jobId : Nat) (data : Details) (order : Option RuntimeObservationOrder)
    (submission : Nat) : RuntimeUpdate where
  nodeName := nodeName
  jobId := jobId
  generation := match data.get "generation" with
    | .int generation => generation
    | _ => 0
  executionId := textOf (data.get "execution_id")
  state := (textOf (data.get "state")).getD ""
  watchId := textOf (data.get "watch_id")
  serialized := data
  order := order
  submission := submission

def storeRuntime (sequences : RuntimeSequences) (row : Job) (update : RuntimeUpdate) : Job :=
  if runtimeSuperseded sequences (some row) update then row
  else if runtimeGuard update row then setRuntime update row
  else row

def keptUpdate : List RuntimeUpdate → Option RuntimeUpdate
  | [] => none
  | first :: rest => some (rest.foldl latestRuntimeUpdate first)

abbrev RuntimeSlotKey := AttemptKey × Int

def RuntimeUpdateSlot.key (slot : RuntimeUpdateSlot) : RuntimeSlotKey := (slot.latest.attempt, slot.priority)

structure RuntimeWriter where
  jobs : Table Job.address
  sequences : RuntimeSequences
  submitted : Nat
  runtimeSlots : List (RuntimeSlotKey × Nat)
  queue : List RuntimeUpdateSlot

def coalesce (request : Nat) (update : RuntimeUpdate) : List RuntimeUpdateSlot → List RuntimeUpdateSlot
  | [] => []
  | slot :: rest =>
      if slot.request = request then
        { slot with latest := latestRuntimeUpdate slot.latest update, merged := slot.merged ++ [update] } :: rest
      else slot :: coalesce request update rest

def submitSlot (state : RuntimeWriter) (update : RuntimeUpdate) (priority : Int) : RuntimeWriter :=
  { state with
    submitted := state.submitted + 1
    queue := state.queue ++ [⟨state.submitted, priority, update, [update]⟩] }

def acceptingSlot (state : RuntimeWriter) (key : RuntimeSlotKey) : Option Nat :=
  (state.runtimeSlots.lookup key).filter fun request => state.queue.any fun slot => slot.request = request

def writeJobRuntime (state : RuntimeWriter) (update : RuntimeUpdate) (wait : Bool) (priority : Int) : RuntimeWriter :=
  if wait then submitSlot state update priority
  else
    match acceptingSlot state (update.attempt, priority) with
    | some request =>
        { state with submitted := state.submitted + 1, queue := coalesce request update state.queue }
    | none =>
        let key := (update.attempt, priority)
        { submitSlot state update priority with
          runtimeSlots := (key, state.submitted) :: state.runtimeSlots.filter fun entry => entry.1 ≠ key }

section Groups

variable {sequences : RuntimeSequences} {jobs : Table Job.address} {update : RuntimeUpdate} {row : Job}
  {place : JobAddress} {attempt : AttemptKey}

theorem set_runtime_address (update : RuntimeUpdate) (row : Job) : (setRuntime update row).address = row.address := rfl

theorem attempt_address {other : RuntimeUpdate} (same : update.attempt = other.attempt) :
    update.address = other.address := by
  simp only [RuntimeUpdate.attempt, Prod.mk.injEq] at same
  simp only [RuntimeUpdate.address, same]

theorem latest_of_two (previous incoming : RuntimeUpdate) :
    latestRuntimeUpdate previous incoming = previous ∨ latestRuntimeUpdate previous incoming = incoming := by
  unfold latestRuntimeUpdate
  cases previous.order with
  | none => exact .inr rfl
  | some earlier =>
      cases incoming.order with
      | none => exact .inr rfl
      | some later =>
          by_cases kept : earlier.sequence = later.sequence ∧ later.position < earlier.position
          · exact .inl (if_pos kept)
          · exact .inr (if_neg kept)

theorem latest_attempt {previous incoming : RuntimeUpdate} (same : previous.attempt = incoming.attempt) :
    (latestRuntimeUpdate previous incoming).attempt = incoming.attempt := by
  cases latest_of_two previous incoming with
  | inl kept => rw [kept, same]
  | inr taken => rw [taken]

theorem merge_attempt_filter (update : RuntimeUpdate) (latest : List RuntimeUpdate) :
    (mergeAttempt update latest).filter (fun entry => entry.address = place) =
      if update.address = place then mergeAttempt update (latest.filter fun entry => entry.address = place)
      else latest.filter fun entry => entry.address = place := by
  induction latest with
  | nil => by_cases here : update.address = place <;> simp [mergeAttempt, here]
  | cons previous rest ih =>
      by_cases same : previous.attempt = update.attempt
      · have moved := attempt_address (latest_attempt same)
        have address := attempt_address same
        by_cases here : update.address = place
        · simp [mergeAttempt, same, moved, address, here]
        · simp [mergeAttempt, same, moved, address, here]
      · by_cases here : update.address = place
        · rw [if_pos here] at ih
          by_cases there : previous.address = place <;> simp [mergeAttempt, same, here, there, ih]
        · rw [if_neg here] at ih
          by_cases there : previous.address = place <;> simp [mergeAttempt, same, here, there, ih]

theorem latest_by_attempt_filter (updates : List RuntimeUpdate) :
    (latestByAttempt updates).filter (fun entry => entry.address = place) =
      latestByAttempt (updates.filter fun update => update.address = place) := by
  induction updates using List.reverseRecOn with
  | nil => rfl
  | append_singleton updates update ih =>
      simp only [latestByAttempt, List.foldl_append, List.foldl_cons, List.foldl_nil, List.filter_append] at ih ⊢
      rw [merge_attempt_filter, ih]
      by_cases here : update.address = place <;> simp [here]

theorem latest_by_attempt_one {updates : List RuntimeUpdate} (same : ∀ update ∈ updates, update.attempt = attempt) :
    latestByAttempt updates = (keptUpdate updates).toList := by
  cases updates with
  | nil => rfl
  | cons first rest =>
      have merged : ∀ rest : List RuntimeUpdate, (∀ update ∈ rest, update.attempt = attempt) →
          ∀ first : RuntimeUpdate, first.attempt = attempt →
            rest.foldl (fun latest update => mergeAttempt update latest) [first] =
              [rest.foldl latestRuntimeUpdate first] := by
        intro rest
        induction rest with
        | nil => intro _ first _; rfl
        | cons update rest ih =>
            intro each first own
            have here := each update List.mem_cons_self
            have step : mergeAttempt update [first] = [latestRuntimeUpdate first update] := by
              simp [mergeAttempt, own, here]
            rw [List.foldl_cons, List.foldl_cons, step]
            apply ih fun other listed => each other (List.mem_cons_of_mem _ listed)
            rw [latest_attempt (own.trans here.symm), here]
      exact merged rest (fun update listed => same update (List.mem_cons_of_mem _ listed)) first
        (same first List.mem_cons_self)

def writeRow (row : Job) (update : RuntimeUpdate) : Job :=
  if runtimeGuard update row then setRuntime update row else row

theorem write_row_address (row : Job) (update : RuntimeUpdate) : (writeRow row update).address = row.address := by
  by_cases written : runtimeGuard update row = true
  · rw [writeRow, if_pos written, set_runtime_address]
  · rw [writeRow, if_neg written]

theorem find_foldl_write (updates : List RuntimeUpdate) (jobs : Table Job.address) :
    (updates.foldl writeRuntime jobs).find place = (jobs.find place).map fun row => updates.foldl writeRow row := by
  induction updates generalizing jobs with
  | nil => simp
  | cons update rest ih =>
      rw [List.foldl_cons, ih, writeRuntime, Table.find_modify, Option.map_map]
      rfl

theorem foldl_write_row (updates : List RuntimeUpdate) (here : row.address = place) :
    updates.foldl writeRow row = (updates.filter fun update => update.address = place).foldl writeRow row := by
  induction updates generalizing row with
  | nil => rfl
  | cons update rest ih =>
      by_cases own : update.address = place
      · rw [List.filter_cons_of_pos (by simpa using own), List.foldl_cons, List.foldl_cons]
        exact ih ((write_row_address row update).trans here)
      · have missed : runtimeGuard update row = false := by
          have apart : ¬ row.address = update.address := fun same => own (same.symm.trans here)
          simp [runtimeGuard, apart]
        have same : writeRow row update = row := by simp [writeRow, missed]
        rw [List.filter_cons_of_neg (by simpa using own), List.foldl_cons, same]
        exact ih here

theorem find_apply_runtime {slots : List RuntimeUpdateSlot}
    (same : ∀ slot ∈ slots, slot.latest.address = place → slot.latest.attempt = attempt) :
    (applyRuntimeUpdates sequences jobs slots).find place =
      (jobs.find place).map fun row =>
        (keptUpdate ((slots.map RuntimeUpdateSlot.latest).filter fun update => update.address = place)).elim row
          (storeRuntime sequences row) := by
  rw [applyRuntimeUpdates, find_foldl_write]
  cases found : jobs.find place with
  | none => rfl
  | some row =>
      have here := Table.find_key found
      have attempts : ∀ update ∈ (slots.map RuntimeUpdateSlot.latest).filter (fun update => update.address = place),
          update.attempt = attempt := by
        intro update listed
        rw [List.mem_filter, List.mem_map] at listed
        obtain ⟨⟨slot, member, rfl⟩, own⟩ := listed
        exact same slot member (by simpa using own)
      have entries := (latest_by_attempt_filter (slots.map RuntimeUpdateSlot.latest)).trans
        (latest_by_attempt_one attempts)
      rw [Option.map_some, Option.map_some, foldl_write_row _ here, List.filter_comm, entries]
      cases kept : keptUpdate ((slots.map RuntimeUpdateSlot.latest).filter fun update => update.address = place) with
      | none => rfl
      | some update =>
          have own : update.address = place := by
            have listed : update ∈ (latestByAttempt (slots.map RuntimeUpdateSlot.latest)).filter
                (fun entry => entry.address = place) := by
              rw [entries, kept]
              exact List.mem_singleton_self update
            simpa using (List.mem_filter.mp listed).2
          by_cases superseded : runtimeSuperseded sequences (some row) update = true
          · simp [storeRuntime, own, found, superseded]
          · simp [storeRuntime, own, found, superseded, writeRow]

end Groups

end MicroWorkflow
