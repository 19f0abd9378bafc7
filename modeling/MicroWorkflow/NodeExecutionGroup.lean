import MicroWorkflow.Ownership

set_option autoImplicit false

namespace MicroWorkflow

open Lib (Table require)

variable {π ω : Type}

inductive SourceItem (π : Type) where
  | job (jobId : Nat) (payload : π)
  | jobId (jobId : Nat)
deriving DecidableEq, Repr

def SourceItem.id : SourceItem π → Nat
  | .job number _ => number
  | .jobId number => number

structure ExecutionAttempt where
  nodeName : String
  jobId : Nat
  generation : Nat
  executionId : String
deriving DecidableEq, Repr

inductive OutcomeKind where
  | jobFailed | restartClaimChanged | componentIncomplete | other
deriving DecidableEq, Repr

structure OutcomeError where
  kind : OutcomeKind
  attempt : Option ExecutionAttempt
deriving DecidableEq, Repr

structure GroupSlot (π ω : Type) where
  item : SourceItem π
  complete : Bool
  value : Option ω
  error : Option OutcomeError
  expectedRestart : Option OwnedRestart
  failedAttempt : Option ExecutionAttempt
deriving DecidableEq, Repr

def GroupSlot.fresh (item : SourceItem π) : GroupSlot π ω := ⟨item, false, none, none, none, none⟩

structure GroupScope where
  nodeName : String
  sessionId : String
  component : Component
  componentCompletion : Bool

structure NodeGroup (π ω : Type) where
  slots : Table (Prod.fst : Nat × GroupSlot π ω → Nat)
  pending : List (SourceItem π)
  sourcePaused : Bool
  stopAdmission : Bool
  replacementEpoch : Bool

def NodeGroup.empty : NodeGroup π ω := ⟨.empty, [], false, false, false⟩

structure JobControl where
  generation : Nat
  activeExecutionId : Option String
  restartRequestedAt : Option Timestamp
deriving DecidableEq, Repr

structure GroupStorage (π : Type) where
  readJobOwnerObservation : String → Nat → Result (Option JobOwnerObservation)
  readJobControl : String → Nat → Result JobControl
  loadJob : String → Nat → Result π

inductive SourceRead (π : Type) where
  | items (items : List (SourceItem π))
  | fails (error : OutcomeError) (read : List (SourceItem π))

def SourceRead.read : SourceRead π → List (SourceItem π)
  | .items handed => handed
  | .fails _ handed => handed

def admitItems (slots : Table (Prod.fst : Nat × GroupSlot π ω → Nat)) :
    List (SourceItem π) → Table (Prod.fst : Nat × GroupSlot π ω → Nat) × Bool
  | [] => (slots, true)
  | item :: rest =>
      match slots.insert (item.id, .fresh item) with
      | some next => admitItems next rest
      | none => (slots, false)

def admittedTwice : OutcomeError := ⟨.other, none⟩

def NodeGroup.pull (group : NodeGroup π ω) (maxItems : Nat) (read : SourceRead π) :
    NodeGroup π ω × Except OutcomeError (List (SourceItem π)) :=
  if group.pending.isEmpty = false then
    ({ group with pending := group.pending.drop maxItems }, .ok (group.pending.take maxItems))
  else if group.sourcePaused then (group, .ok [])
  else
    match read with
    | .fails error _ => (group, .error error)
    | .items items =>
        let admitted := admitItems group.slots items
        ({ group with slots := admitted.1 }, if admitted.2 then .ok items else .error admittedTwice)

structure Replacement (π : Type) where
  key : Nat
  item : SourceItem π
  expected : OwnedRestart

def successorOf (scope : GroupScope) (attempt : ExecutionAttempt) (observed : JobOwnerObservation) : Option ExecutionOwner :=
  match observed.owner with
  | none => none
  | some owner =>
      if attempt.nodeName ≠ scope.nodeName ∨ owner.sessionId ≠ scope.sessionId ∨ owner.componentKey ≠ scope.component
          ∨ owner.executionId ≠ attempt.executionId ∨ observed.status ≠ .queued ∨ observed.activeExecutionId.isSome
          ∨ observed.generation ≤ attempt.generation then none
      else some owner

def reloadItem (scope : GroupScope) (storage : GroupStorage π) (item : SourceItem π) (jobId : Nat) : Result (SourceItem π) :=
  match item with
  | .jobId _ => .ok (.jobId jobId)
  | .job _ _ => do
      let payload ← storage.loadJob scope.nodeName jobId
      return .job jobId payload

def acceptedAt (scope : GroupScope) (storage : GroupStorage π) (key : Nat) (item : SourceItem π) (attempt : ExecutionAttempt)
    (observed : JobOwnerObservation) (owner : ExecutionOwner) : Result (Option (Replacement π)) := do
  let control ← storage.readJobControl attempt.nodeName attempt.jobId
  if control.generation ≠ observed.generation ∨ control.activeExecutionId.isSome ∨ control.restartRequestedAt.isNone then
    return none
  else
    let item ← reloadItem scope storage item attempt.jobId
    return some ⟨key, item, ⟨observed.jobInstanceId, observed.generation, owner, control.restartRequestedAt⟩⟩

def replacementFor (scope : GroupScope) (storage : GroupStorage π) (key : Nat) (item : SourceItem π)
    (attempt : ExecutionAttempt) : Result (Option (Replacement π)) := do
  match ← storage.readJobOwnerObservation attempt.nodeName attempt.jobId with
  | none => return none
  | some observed =>
      match successorOf scope attempt observed with
      | none => return none
      | some owner => acceptedAt scope storage key item attempt observed owner

def OutcomeError.replaceable (error : OutcomeError) : Option ExecutionAttempt :=
  if error.kind = .jobFailed then error.attempt else none

def gatherReplacements (scope : GroupScope) (storage : GroupStorage π) :
    List (Nat × GroupSlot π ω) → Result (Option (List (Replacement π)))
  | [] => .ok (some [])
  | (key, slot) :: rest =>
      match slot.error.bind OutcomeError.replaceable with
      | none => .ok none
      | some attempt => do
          let here ← replacementFor scope storage key slot.item attempt
          let later ← gatherReplacements scope storage rest
          return later.map fun gathered => here.toList ++ gathered

def GroupSlot.accept (slot : GroupSlot π ω) (replacement : Replacement π) : GroupSlot π ω :=
  { slot with item := replacement.item, error := none, expectedRestart := some replacement.expected }

def replaceSlot (replacements : List (Replacement π)) (row : Nat × GroupSlot π ω) : Nat × GroupSlot π ω :=
  match replacements.find? fun replacement => replacement.key = row.1 with
  | some replacement => (row.1, row.2.accept replacement)
  | none => row

theorem replace_slot_key (replacements : List (Replacement π)) (row : Nat × GroupSlot π ω) :
    (replaceSlot replacements row).1 = row.1 := by
  rw [replaceSlot]
  cases replacements.find? fun replacement => replacement.key = row.1 with
  | none => rfl
  | some replacement => rfl

def acceptReplacements (slots : Table (Prod.fst : Nat × GroupSlot π ω → Nat)) (replacements : List (Replacement π)) :
    Table (Prod.fst : Nat × GroupSlot π ω → Nat) :=
  slots.modify (fun _ => true) (replaceSlot replacements) (replace_slot_key replacements)

def NodeGroup.failed (group : NodeGroup π ω) : List (Nat × GroupSlot π ω) :=
  group.slots.select fun row => row.2.error.isSome

def NodeGroup.replaced (group : NodeGroup π ω) (replacements : List (Replacement π)) : NodeGroup π ω :=
  { group with
    slots := acceptReplacements group.slots replacements
    pending := replacements.map Replacement.item
    sourcePaused := true
    replacementEpoch := true }

def NodeGroup.prepareReplacements (scope : GroupScope) (storage : GroupStorage π) (group : NodeGroup π ω) :
    Result (Option (NodeGroup π ω)) := do
  match ← gatherReplacements scope storage group.failed with
  | none => return none
  | some [] => return none
  | some (first :: rest) => return some (group.replaced (first :: rest))

def GroupSlot.record (slot : GroupSlot π ω) : Except OutcomeError ω → GroupSlot π ω
  | .error error => { slot with error := some error, failedAttempt := error.attempt.or slot.failedAttempt }
  | .ok value => { slot with value := some value, complete := true }

def ignored (scope : GroupScope) : Except OutcomeError ω → Bool
  | .error error => scope.componentCompletion && error.kind == .componentIncomplete && error.attempt.isNone
  | .ok _ => false

def NodeGroup.recordOutcome (scope : GroupScope) (group : NodeGroup π ω) (item : SourceItem π) (outcome : Except OutcomeError ω) :
    NodeGroup π ω :=
  if ignored scope outcome then group
  else { group with slots := group.slots.modify (fun row => row.1 = item.id) fun row => (row.1, row.2.record outcome) }

def outsideOperation : Error := .runtime "Session continuation lies outside this node operation"

def resumeItem (scope : GroupScope) (storage : GroupStorage π) (group : NodeGroup π ω) (entry : JobAddress × OwnedRestart) :
    Result (Replacement π) :=
  match group.slots.find entry.1.2 with
  | none => .error outsideOperation
  | some row => do
      require (entry.1.1 == scope.nodeName) outsideOperation
      let item ← reloadItem scope storage row.2.item entry.1.2
      return ⟨entry.1.2, item, entry.2⟩

def resumeItems (scope : GroupScope) (storage : GroupStorage π) (group : NodeGroup π ω) :
    List (JobAddress × OwnedRestart) → Result (List (Replacement π))
  | [] => .ok []
  | entry :: rest => do
      let here ← resumeItem scope storage group entry
      let later ← resumeItems scope storage group rest
      return here :: later

def unfinishedItems (slots : Table (Prod.fst : Nat × GroupSlot π ω → Nat)) : List (SourceItem π) :=
  (slots.select fun row => !row.2.complete).map fun row => row.2.item

def NodeGroup.resumed (group : NodeGroup π ω) (resumed : List (Replacement π)) (stopAdmission : Bool) : NodeGroup π ω :=
  let slots := acceptReplacements group.slots resumed
  let paused := stopAdmission || !resumed.isEmpty || slots.rows.any fun row => row.2.error.isSome
  { slots := slots
    pending := if !resumed.isEmpty then resumed.map Replacement.item else if !paused then unfinishedItems slots else []
    sourcePaused := paused
    stopAdmission := stopAdmission
    replacementEpoch := !resumed.isEmpty }

def NodeGroup.resume (scope : GroupScope) (storage : GroupStorage π) (group : NodeGroup π ω)
    (replacements : Table (Prod.fst : JobAddress × OwnedRestart → JobAddress))
    (stopAdmission : Bool) : Result (NodeGroup π ω) := do
  let items ← resumeItems scope storage group replacements.rows
  return group.resumed items stopAdmission

inductive GroupFailure where
  | outcome (error : OutcomeError)
  | storage (error : Error)
deriving DecidableEq

inductive GroupEnd (ω : Type) where
  | returned (paused : Bool) (values : List (Option ω))
  | raised (failure : GroupFailure)
deriving DecidableEq

inductive RunnerEnd where
  | returned
  | raised (error : OutcomeError)
deriving DecidableEq

def NodeGroup.replaceOr (scope : GroupScope) (storage : GroupStorage π) (group : NodeGroup π ω) (error : OutcomeError) :
    NodeGroup π ω × Option (GroupEnd ω) :=
  match group.prepareReplacements scope storage with
  | .ok (some next) => (next, none)
  | .ok none => (group, some (.raised (.outcome error)))
  | .error failure => (group, some (.raised (.storage failure)))

def NodeGroup.values (group : NodeGroup π ω) : List (Option ω) :=
  (group.slots.select fun row => row.2.complete).map fun row => row.2.value

def NodeGroup.settle (scope : GroupScope) (storage : GroupStorage π) (group : NodeGroup π ω) (paused : Bool) :
    NodeGroup π ω × Option (GroupEnd ω) :=
  match group.slots.rows.filterMap fun row => row.2.error with
  | error :: _ => group.replaceOr scope storage error
  | [] =>
      if group.replacementEpoch && !paused && !group.stopAdmission then (group.resumed [] false, none)
      else (group, some (.returned paused group.values))

def NodeGroup.afterEpoch (scope : GroupScope) (storage : GroupStorage π) (group : NodeGroup π ω) :
    RunnerEnd → NodeGroup π ω × Option (GroupEnd ω)
  | .returned => group.settle scope storage false
  | .raised error =>
      match error.kind with
      | .jobFailed => group.replaceOr scope storage error
      | .componentIncomplete =>
          if !scope.componentCompletion || error.attempt.isSome then (group, some (.raised (.outcome error)))
          else group.settle scope storage true
      | _ => (group, some (.raised (.outcome error)))

section Slots

variable {slots : Table (Prod.fst : Nat × GroupSlot π ω → Nat)} {group next : NodeGroup π ω} {scope : GroupScope}
  {storage : GroupStorage π} {key : Nat} {slot : GroupSlot π ω}

def slotOf (slots : Table (Prod.fst : Nat × GroupSlot π ω → Nat)) (key : Nat) : Option (GroupSlot π ω) :=
  (slots.find key).map Prod.snd

def slotKeys (slots : Table (Prod.fst : Nat × GroupSlot π ω → Nat)) : List Nat := slots.rows.map Prod.fst

theorem slot_of_row : slotOf slots key = some slot ↔ (key, slot) ∈ slots.rows := by
  rw [slotOf, Option.map_eq_some_iff]
  constructor
  · rintro ⟨row, found, rfl⟩
    obtain ⟨member, rfl⟩ := Table.find_eq_some.mp found
    exact member
  · intro member
    exact ⟨(key, slot), Table.find_of_mem member, rfl⟩

theorem mem_slot_keys : key ∈ slotKeys slots ↔ ∃ slot, slotOf slots key = some slot := by
  rw [slotKeys, List.mem_map]
  constructor
  · rintro ⟨⟨_, slot⟩, member, rfl⟩
    exact ⟨slot, slot_of_row.mpr member⟩
  · rintro ⟨slot, found⟩
    exact ⟨(key, slot), slot_of_row.mp found, rfl⟩

theorem slot_free : slots.find key = none ↔ key ∉ slotKeys slots := by
  rw [mem_slot_keys, slotOf]
  cases slots.find key with
  | none => simp
  | some row => simp

def admittedIds (slots : Table (Prod.fst : Nat × GroupSlot π ω → Nat)) : List (SourceItem π) → List Nat
  | [] => []
  | item :: rest =>
      match slots.insert (item.id, .fresh item) with
      | some next => item.id :: admittedIds next rest
      | none => []

theorem slot_insert {grown : Table (Prod.fst : Nat × GroupSlot π ω → Nat)} {item : SourceItem π}
    (inserted : slots.insert (item.id, .fresh item) = some grown) :
    item.id ∉ slotKeys slots ∧ slotKeys grown = slotKeys slots ++ [item.id] ∧
      ∀ key, slotOf grown key = if item.id = key then some (.fresh item) else slotOf slots key := by
  obtain ⟨free, rows⟩ := Table.insert_eq_some.mp inserted
  refine ⟨slot_free.mp free, ?_, fun key => ?_⟩
  · rw [slotKeys, rows, List.map_append]
    rfl
  · rw [slotOf, Table.find_insert inserted]
    by_cases same : item.id = key
    · rw [if_pos same, if_pos same]
      rfl
    · rw [if_neg same, if_neg same]
      rfl

theorem admit_items_spec (slots : Table (Prod.fst : Nat × GroupSlot π ω → Nat)) (items : List (SourceItem π)) :
    slotKeys (admitItems slots items).1 = slotKeys slots ++ admittedIds slots items ∧
      (∀ key slot, slotOf slots key = some slot → slotOf (admitItems slots items).1 key = some slot) ∧
      (∀ key slot, slotOf (admitItems slots items).1 key = some slot →
        slotOf slots key = some slot ∨ ∃ item ∈ items, item.id = key ∧ slot = .fresh item) ∧
      ((admitItems slots items).2 = true → admittedIds slots items = items.map SourceItem.id) := by
  induction items generalizing slots with
  | nil => exact ⟨by simp [admitItems, admittedIds], fun _ _ found => found, fun _ _ found => .inl found, fun _ => rfl⟩
  | cons item rest ih =>
      rw [admitItems, admittedIds]
      cases inserted : slots.insert (item.id, .fresh item) with
      | none => exact ⟨by simp, fun _ _ found => found, fun _ _ found => .inl found, nofun⟩
      | some grown =>
          dsimp only
          obtain ⟨free, keys, lookup⟩ := slot_insert inserted
          obtain ⟨grownKeys, kept, origin, whole⟩ := ih grown
          refine ⟨by rw [grownKeys, keys]; simp, fun key slot found => kept key slot ?_, fun key slot found => ?_, fun all => ?_⟩
          · have apart : item.id ≠ key := fun same => free (mem_slot_keys.mpr ⟨slot, by rw [same]; exact found⟩)
            rw [lookup, if_neg apart]
            exact found
          · rcases origin key slot found with before | ⟨other, member, named, rfl⟩
            · rw [lookup] at before
              by_cases same : item.id = key
              · rw [if_pos same] at before
                cases before
                exact .inr ⟨item, List.mem_cons_self, same, rfl⟩
              · rw [if_neg same] at before
                exact .inl before
            · exact .inr ⟨other, List.mem_cons_of_mem item member, named, rfl⟩
          · rw [whole all, List.map_cons]

theorem replace_slot_snd (replacements : List (Replacement π)) (key : Nat) (slot : GroupSlot π ω) :
    (replaceSlot replacements (key, slot)).2 =
      match replacements.find? fun replacement => replacement.key = key with
      | some replacement => slot.accept replacement
      | none => slot := by
  rw [replaceSlot]
  cases replacements.find? fun replacement => replacement.key = key with
  | none => rfl
  | some replacement => rfl

theorem slot_accept (replacements : List (Replacement π)) (key : Nat) :
    slotOf (acceptReplacements slots replacements) key =
      (slotOf slots key).map fun slot => (replaceSlot replacements (key, slot)).2 := by
  rw [slotOf, acceptReplacements, Table.find_modify, slotOf]
  cases found : slots.find key with
  | none => rfl
  | some row =>
      obtain ⟨_, slot⟩ := row
      cases Table.find_key found
      rfl

theorem accept_keys (replacements : List (Replacement π)) :
    slotKeys (acceptReplacements slots replacements) = slotKeys slots := by
  rw [slotKeys, acceptReplacements, Table.modify, List.map_map]
  exact List.map_congr_left fun row _ => replace_slot_key replacements row

theorem slot_record (item : SourceItem π) {outcome : Except OutcomeError ω} (heard : ignored scope outcome = false) (key : Nat) :
    slotOf (group.recordOutcome scope item outcome).slots key =
      (slotOf group.slots key).map fun slot => if key = item.id then slot.record outcome else slot := by
  rw [NodeGroup.recordOutcome, heard, if_neg nofun, slotOf, Table.find_modify, slotOf]
  cases found : group.slots.find key with
  | none => rfl
  | some row =>
      obtain ⟨owner, slot⟩ := row
      cases Table.find_key found
      show some (if decide (owner = item.id) then (owner, slot.record outcome) else (owner, slot)).2 = _
      by_cases same : owner = item.id
      · simp [same]
      · simp [same]

theorem record_keys (item : SourceItem π) (outcome : Except OutcomeError ω) :
    slotKeys (group.recordOutcome scope item outcome).slots = slotKeys group.slots := by
  rw [NodeGroup.recordOutcome]
  by_cases heard : ignored scope outcome = true
  · rw [if_pos heard]
  · rw [if_neg heard]
    show List.map Prod.fst (List.map _ group.slots.rows) = _
    rw [List.map_map]
    refine List.map_congr_left fun row _ => ?_
    by_cases same : row.1 = item.id
    · simp [same]
    · simp [same]

theorem mem_failed {row : Nat × GroupSlot π ω} : row ∈ group.failed ↔ row ∈ group.slots.rows ∧ row.2.error.isSome := by
  rw [NodeGroup.failed, Table.mem_select]

end Slots

section Replacements

variable {group next : NodeGroup π ω} {scope : GroupScope} {storage : GroupStorage π}

theorem reload_item_id {item loaded : SourceItem π} {jobId : Nat} (read : reloadItem scope storage item jobId = .ok loaded) :
    loaded.id = jobId := by
  cases item with
  | jobId number =>
      cases read
      rfl
  | job number payload =>
      rw [reloadItem, Lib.bind_ok] at read
      obtain ⟨fresh, _, made⟩ := read
      cases made
      rfl

theorem replacement_for_some {key : Nat} {item : SourceItem π} {attempt : ExecutionAttempt} {replacement : Replacement π}
    (read : replacementFor scope storage key item attempt = .ok (some replacement)) :
    replacement.key = key ∧ replacement.item.id = attempt.jobId := by
  rw [replacementFor, Lib.bind_ok] at read
  obtain ⟨seen, _, read⟩ := read
  cases seen with
  | none => cases read
  | some observed =>
      dsimp only at read
      cases owned : successorOf scope attempt observed with
      | none =>
          rw [owned] at read
          cases read
      | some owner =>
          rw [owned] at read
          dsimp only at read
          rw [acceptedAt, Lib.bind_ok] at read
          obtain ⟨control, _, read⟩ := read
          split at read
          · cases read
          · rw [Lib.bind_ok] at read
            obtain ⟨loaded, reloaded, made⟩ := read
            cases made
            exact ⟨rfl, reload_item_id reloaded⟩

theorem gather_replacements_some {rows : List (Nat × GroupSlot π ω)} {replacements : List (Replacement π)}
    (read : gatherReplacements scope storage rows = .ok (some replacements)) :
    (replacements.map Replacement.key).Sublist (rows.map Prod.fst) ∧
      ∀ replacement ∈ replacements, ∃ slot attempt, (replacement.key, slot) ∈ rows ∧
        slot.error.bind OutcomeError.replaceable = some attempt ∧ replacement.item.id = attempt.jobId := by
  induction rows generalizing replacements with
  | nil =>
      cases read
      exact ⟨List.nil_sublist _, fun _ member => (by cases member)⟩
  | cons row rest ih =>
      obtain ⟨key, slot⟩ := row
      rw [gatherReplacements] at read
      cases named : slot.error.bind OutcomeError.replaceable with
      | none =>
          rw [named] at read
          cases read
      | some attempt =>
          rw [named] at read
          simp only [Lib.bind_ok, Lib.pure_ok, Option.map_eq_some_iff] at read
          obtain ⟨here, found, _, later, gathered, rfl, rfl⟩ := read
          obtain ⟨sublist, origin⟩ := ih later
          have listed : ∀ replacement ∈ gathered, ∃ slot' attempt', (replacement.key, slot') ∈ (key, slot) :: rest ∧
              slot'.error.bind OutcomeError.replaceable = some attempt' ∧ replacement.item.id = attempt'.jobId := by
            intro replacement member
            obtain ⟨other, named', inside, facts⟩ := origin replacement member
            exact ⟨other, named', List.mem_cons_of_mem _ inside, facts⟩
          cases here with
          | none => exact ⟨sublist.cons key, listed⟩
          | some replacement =>
              obtain ⟨rfl, numbered⟩ := replacement_for_some found
              refine ⟨sublist.cons_cons _, fun other member => ?_⟩
              rcases List.mem_cons.mp member with rfl | later
              · exact ⟨slot, attempt, List.mem_cons_self, named, numbered⟩
              · exact listed other later

theorem prepare_replacements_some (prepared : group.prepareReplacements scope storage = .ok (some next)) :
    ∃ replacements, replacements ≠ [] ∧ next = group.replaced replacements ∧
      gatherReplacements scope storage group.failed = .ok (some replacements) ∧ (replacements.map Replacement.key).Nodup ∧
      ∀ replacement ∈ replacements, ∃ slot attempt, slotOf group.slots replacement.key = some slot ∧
        slot.error.bind OutcomeError.replaceable = some attempt ∧ replacement.item.id = attempt.jobId := by
  rw [NodeGroup.prepareReplacements, Lib.bind_ok] at prepared
  obtain ⟨gathered, read, made⟩ := prepared
  cases gathered with
  | none => cases made
  | some replacements =>
      cases replacements with
      | nil => cases made
      | cons first rest =>
          cases made
          obtain ⟨sublist, origin⟩ := gather_replacements_some read
          refine ⟨first :: rest, nofun, rfl, read, ?_, fun replacement member => ?_⟩
          · refine sublist.nodup ?_
            exact group.slots.nodup.sublist (List.filter_sublist.map Prod.fst)
          · obtain ⟨slot, attempt, listed, facts⟩ := origin replacement member
            exact ⟨slot, attempt, slot_of_row.mpr (mem_failed.mp listed).1, facts⟩

theorem resume_items_ok {entries : List (JobAddress × OwnedRestart)} {items : List (Replacement π)}
    (read : resumeItems scope storage group entries = .ok items) :
    items.map (fun item => ((scope.nodeName, item.key), item.expected)) = entries ∧
      ∀ item ∈ items, (∃ slot, slotOf group.slots item.key = some slot) ∧ item.item.id = item.key := by
  induction entries generalizing items with
  | nil =>
      cases read
      exact ⟨rfl, fun _ member => (by cases member)⟩
  | cons entry rest ih =>
      obtain ⟨⟨node, number⟩, expected⟩ := entry
      simp only [resumeItems, Lib.bind_ok, Lib.pure_ok] at read
      obtain ⟨here, reloaded, later, below, rfl⟩ := read
      obtain ⟨entries, known⟩ := ih below
      rw [resumeItem] at reloaded
      cases found : group.slots.find number with
      | none =>
          rw [found] at reloaded
          cases reloaded
      | some row =>
          rw [found] at reloaded
          simp only [Lib.bind_ok, Lib.require_ok, Lib.pure_ok, beq_iff_eq] at reloaded
          obtain ⟨_, rfl, loaded, fresh, rfl⟩ := reloaded
          refine ⟨by rw [List.map_cons, entries], fun item member => ?_⟩
          rcases List.mem_cons.mp member with rfl | later
          · exact ⟨⟨row.2, by show slotOf group.slots number = _; rw [slotOf, found]; rfl⟩, reload_item_id fresh⟩
          · exact known item later

end Replacements

end MicroWorkflow
