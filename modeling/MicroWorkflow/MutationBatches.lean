import MicroWorkflow.Lib.InOrder
import MicroWorkflow.MutationWriter
import Mathlib.Data.List.Flatten
import Mathlib.Data.List.Induction

set_option autoImplicit false

namespace MicroWorkflow

structure Exceptions (ν : Type) where
  isException : ν → Bool
  runtimeError : String → ν
  str : ν → String

abbrev MutationOutcome (ν : Type) := Bool × ν

abbrev GroupedMutation (σ ι ν : Type) := σ → List ι → Except ν (List (MutationOutcome ν)) × σ

inductive MutationWork (σ κ ι ν : Type) where
  | single (operation : σ → Except ν ν × σ)
  | grouped (key : κ) (item : ι) (operation : GroupedMutation σ ι ν)

variable {σ κ ι ν : Type}

abbrev BatchRequest (σ κ ι ν : Type) := MutationRequest (MutationWork σ κ ι ν)

structure GroupMember (σ κ ι ν : Type) where
  request : BatchRequest σ κ ι ν
  item : ι
  operation : GroupedMutation σ ι ν

inductive BatchUnit (σ κ ι ν : Type) where
  | single (request : BatchRequest σ κ ι ν) (operation : σ → Except ν ν × σ)
  | group (key : κ)

structure Gathered (σ κ ι ν : Type) where
  units : List (BatchUnit σ κ ι ν)
  grouped : κ → List (GroupMember σ κ ι ν)

def gatherRequest [DecidableEq κ] (gathered : Gathered σ κ ι ν) (request : BatchRequest σ κ ι ν) : Gathered σ κ ι ν :=
  match request.work with
  | .single operation => { gathered with units := gathered.units ++ [.single request operation] }
  | .grouped key item operation =>
      { units := if gathered.grouped key = [] then gathered.units ++ [.group key] else gathered.units
        grouped := fun other =>
          if other = key then gathered.grouped key ++ [⟨request, item, operation⟩] else gathered.grouped other }

def gather [DecidableEq κ] (requests : List (BatchRequest σ κ ι ν)) : Gathered σ κ ι ν :=
  requests.foldl gatherRequest ⟨[], fun _ => []⟩

def wrongNumber : String := "grouped SQLite mutation returned the wrong number of outcomes"

variable (exceptions : Exceptions ν)

def memberOutcome (outcome : MutationOutcome ν) : MutationOutcome ν :=
  if outcome.1 = false ∧ exceptions.isException outcome.2 = false then
    (false, exceptions.runtimeError (exceptions.str outcome.2))
  else outcome

def executeSingle (operation : σ → Except ν ν × σ) (state : σ) : MutationOutcome ν × σ :=
  match operation state with
  | (.ok result, next) => ((true, result), next)
  | (.error error, _) => ((false, error), state)

def executeGroup (operation : GroupedMutation σ ι ν) (state : σ) (items : List ι) : List (MutationOutcome ν) × σ :=
  match operation state items with
  | (.ok outcomes, next) =>
      if outcomes.length = items.length then (outcomes.map (memberOutcome exceptions), next)
      else (items.map fun _ => (false, exceptions.runtimeError wrongNumber), state)
  | (.error error, _) => (items.map fun _ => (false, error), state)

def executeUnit (grouped : κ → List (GroupMember σ κ ι ν)) (state : σ) :
    BatchUnit σ κ ι ν → List (Nat × MutationOutcome ν) × σ
  | .single request operation =>
      let done := executeSingle operation state
      ([(request.serial, done.1)], done.2)
  | .group key =>
      match grouped key with
      | [] => ([], state)
      | first :: others =>
          let done := executeGroup exceptions first.operation state ((first :: others).map GroupMember.item)
          (((first :: others).map fun member => member.request.serial).zip done.1, done.2)

def executeUnits (grouped : κ → List (GroupMember σ κ ι ν)) :
    σ → List (BatchUnit σ κ ι ν) → List (Nat × MutationOutcome ν) × σ
  | state, [] => ([], state)
  | state, unit :: rest =>
      let first := executeUnit exceptions grouped state unit
      let later := executeUnits grouped first.2 rest
      (first.1 ++ later.1, later.2)

def executeBatch [DecidableEq κ] (state : σ) (requests : List (BatchRequest σ κ ι ν)) :
    List (Nat × MutationOutcome ν) × σ :=
  executeUnits exceptions (gather requests).grouped state (gather requests).units

section OneAtATime

def executeItem (operation : GroupedMutation σ ι ν) (state : σ) (item : ι) : MutationOutcome ν × σ :=
  match operation state [item] with
  | (.ok [outcome], next) => (memberOutcome exceptions outcome, next)
  | (.ok _, _) => ((false, exceptions.runtimeError wrongNumber), state)
  | (.error error, _) => ((false, error), state)

def executeAlone (state : σ) (request : BatchRequest σ κ ι ν) : (Nat × MutationOutcome ν) × σ :=
  match request.work with
  | .single operation =>
      let done := executeSingle operation state
      ((request.serial, done.1), done.2)
  | .grouped _ item operation =>
      let done := executeItem exceptions operation state item
      ((request.serial, done.1), done.2)

def oneAtATime (state : σ) (requests : List (BatchRequest σ κ ι ν)) : List (Nat × MutationOutcome ν) × σ :=
  Lib.inOrder (executeAlone exceptions) state requests

def raised (state : σ) (request : BatchRequest σ κ ι ν) : Option ν :=
  match request.work with
  | .single operation =>
      match (operation state).1 with
      | .ok _ => none
      | .error error => some error
  | .grouped _ item operation =>
      match (operation state [item]).1 with
      | .ok [_] => none
      | .ok _ => some (exceptions.runtimeError wrongNumber)
      | .error error => some error

def unitRequests (grouped : κ → List (GroupMember σ κ ι ν)) : BatchUnit σ κ ι ν → List (BatchRequest σ κ ι ν)
  | .single request _ => [request]
  | .group key => (grouped key).map GroupMember.request

-- The order in which a batch runs: a group where its first member stands.
def unitOrder [DecidableEq κ] (requests : List (BatchRequest σ κ ι ν)) : List (BatchRequest σ κ ι ν) :=
  (gather requests).units.flatMap (unitRequests (gather requests).grouped)

def bySerial (left right : BatchRequest σ κ ι ν) : Prop := left.serial ≤ right.serial

instance : DecidableRel (bySerial : BatchRequest σ κ ι ν → BatchRequest σ κ ι ν → Prop) :=
  fun left right => Nat.decLe left.serial right.serial

def serialOrder (requests : List (BatchRequest σ κ ι ν)) : List (BatchRequest σ κ ι ν) := requests.insertionSort bySerial

def Agrees (operation : GroupedMutation σ ι ν) : Prop :=
  ∀ state items, executeGroup exceptions operation state items = Lib.inOrder (executeItem exceptions operation) state items

structure Agreeing (requests : List (BatchRequest σ κ ι ν)) : Prop where
  shared : ∀ left ∈ requests, ∀ right ∈ requests, ∀ key item other first second,
    left.work = .grouped key item first → right.work = .grouped key other second → first = second
  agrees : ∀ request ∈ requests, ∀ key item operation, request.work = .grouped key item operation →
    Agrees exceptions operation

end OneAtATime

section Gathering

def groupKey : BatchUnit σ κ ι ν → Option κ
  | .single _ _ => none
  | .group key => some key

structure GatheredFrom (gathered : Gathered σ κ ι ν) (requests : List (BatchRequest σ κ ι ν)) : Prop where
  single : ∀ request operation, .single request operation ∈ gathered.units →
    request ∈ requests ∧ request.work = .single operation
  members : ∀ key, ∀ member ∈ gathered.grouped key,
    member.request ∈ requests ∧ member.request.work = .grouped key member.item member.operation
  listed : ∀ key, .group key ∈ gathered.units ↔ gathered.grouped key ≠ []
  once : (gathered.units.filterMap groupKey).Nodup
  all : (gathered.units.flatMap (unitRequests gathered.grouped)).Perm requests

theorem extended_perm {units : List (BatchUnit σ κ ι ν)} {before after : κ → List (GroupMember σ κ ι ν)} {key : κ}
    {member : GroupMember σ κ ι ν} (once : (units.filterMap groupKey).Nodup) (inside : .group key ∈ units)
    (extended : after key = before key ++ [member]) (others : ∀ other, other ≠ key → after other = before other) :
    (units.flatMap (unitRequests after)).Perm (units.flatMap (unitRequests before) ++ [member.request]) := by
  have apart : ∀ more : List (BatchUnit σ κ ι ν), key ∉ more.filterMap groupKey →
      more.flatMap (unitRequests after) = more.flatMap (unitRequests before) := by
    intro more absent
    refine List.flatMap_congr fun unit member => ?_
    cases unit with
    | single request operation => rfl
    | group other =>
        have different : other ≠ key := by
          rintro rfl
          exact absent (List.mem_filterMap.mpr ⟨_, member, rfl⟩)
        simp only [unitRequests, others other different]
  obtain ⟨earlier, later, rfl⟩ := List.append_of_mem inside
  rw [List.filterMap_append, List.nodup_append] at once
  obtain ⟨_, laterOnce, disjoint⟩ := once
  change (key :: later.filterMap groupKey).Nodup at laterOnce
  have absentEarlier : key ∉ earlier.filterMap groupKey := fun found =>
    disjoint key found key (List.mem_cons_self (l := later.filterMap groupKey)) rfl
  have absentLater : key ∉ later.filterMap groupKey := (List.nodup_cons.mp laterOnce).1
  rw [List.flatMap_append, List.flatMap_append, List.flatMap_cons, List.flatMap_cons, apart earlier absentEarlier,
    apart later absentLater]
  simp only [unitRequests, extended, List.map_append, List.map_cons, List.map_nil, List.append_assoc]
  exact ((List.perm_append_comm).append_left _).append_left _

variable [DecidableEq κ]

theorem gather_request_from {gathered : Gathered σ κ ι ν} {requests : List (BatchRequest σ κ ι ν)}
    {request : BatchRequest σ κ ι ν} (kept : GatheredFrom gathered requests) :
    GatheredFrom (gatherRequest gathered request) (requests ++ [request]) := by
  unfold gatherRequest
  cases work : request.work with
  | single operation =>
      refine ⟨?_, ?_, ?_, ?_, ?_⟩
      · intro other operation' inside
        rcases List.mem_append.mp inside with old | last
        · obtain ⟨member, same⟩ := kept.single other operation' old
          exact ⟨List.mem_append_left _ member, same⟩
        · cases List.mem_singleton.mp last
          exact ⟨List.mem_append_right _ List.mem_cons_self, work⟩
      · intro key member inside
        obtain ⟨old, same⟩ := kept.members key member inside
        exact ⟨List.mem_append_left _ old, same⟩
      · intro key
        rw [← kept.listed key, List.mem_append, List.mem_singleton]
        exact ⟨fun found => found.resolve_right nofun, .inl⟩
      · rw [List.filterMap_append]
        show (gathered.units.filterMap groupKey ++ []).Nodup
        rw [List.append_nil]
        exact kept.once
      · rw [List.flatMap_append]
        exact kept.all.append_right _
  | grouped key item operation =>
      have listed := kept.listed key
      have members : ∀ other, ∀ member ∈ (if other = key then gathered.grouped key ++ [⟨request, item, operation⟩]
          else gathered.grouped other), member.request ∈ requests ++ [request] ∧
            member.request.work = .grouped other member.item member.operation := by
        intro other member inside
        split at inside
        · rename_i same
          subst same
          rcases List.mem_append.mp inside with old | last
          · obtain ⟨before, same⟩ := kept.members _ member old
            exact ⟨List.mem_append_left _ before, same⟩
          · cases List.mem_singleton.mp last
            exact ⟨List.mem_append_right _ List.mem_cons_self, work⟩
        · obtain ⟨before, same⟩ := kept.members other member inside
          exact ⟨List.mem_append_left _ before, same⟩
      by_cases fresh : gathered.grouped key = []
      · have absent : BatchUnit.group key ∉ gathered.units := fun found => listed.mp found fresh
        simp only [if_pos fresh]
        refine ⟨?_, members, ?_, ?_, ?_⟩
        · intro other operation' inside
          obtain ⟨member, same⟩ := kept.single other operation' ((List.mem_append.mp inside).resolve_right (by simp))
          exact ⟨List.mem_append_left _ member, same⟩
        · intro other
          by_cases same : other = key
          · subst same
            simp
          · simp only [List.mem_append, List.mem_singleton, BatchUnit.group.injEq, same, or_false, if_false]
            exact kept.listed other
        · rw [List.filterMap_append, List.nodup_append]
          refine ⟨kept.once, List.nodup_singleton key, ?_⟩
          rintro other found _ last rfl
          obtain ⟨unit, inside, named⟩ := List.mem_filterMap.mp found
          have same : other = key := List.mem_singleton.mp last
          cases unit with
          | single _ _ => cases named
          | group named' =>
              cases named
              subst same
              exact absent inside
        · have before : gathered.units.flatMap (unitRequests fun other =>
              if other = key then gathered.grouped key ++ [⟨request, item, operation⟩] else gathered.grouped other) =
                gathered.units.flatMap (unitRequests gathered.grouped) := by
            refine List.flatMap_congr fun unit inside => ?_
            cases unit with
            | single _ _ => rfl
            | group other =>
                have different : other ≠ key := by
                  rintro rfl
                  exact absent inside
                simp only [unitRequests, different, if_false]
          rw [List.flatMap_append, before]
          refine kept.all.append ?_
          simp [unitRequests, fresh]
      · have present : BatchUnit.group key ∈ gathered.units := listed.mpr fresh
        simp only [if_neg fresh]
        refine ⟨?_, members, ?_, kept.once, ?_⟩
        · intro other operation' inside
          obtain ⟨member, same⟩ := kept.single other operation' inside
          exact ⟨List.mem_append_left _ member, same⟩
        · intro other
          by_cases same : other = key
          · subst same
            simp [present]
          · simp only [same, if_false]
            exact kept.listed other
        · refine (extended_perm kept.once present (if_pos rfl) fun other different => if_neg different).trans ?_
          exact kept.all.append_right _

theorem gathered_from (requests : List (BatchRequest σ κ ι ν)) : GatheredFrom (gather requests) requests := by
  induction requests using List.reverseRecOn with
  | nil =>
      refine ⟨?_, ?_, ?_, .nil, .refl _⟩
      · intro request operation inside
        cases inside
      · intro key member inside
        cases inside
      · intro key
        exact ⟨nofun, fun waits => absurd rfl waits⟩
  | append_singleton earlier last ih =>
      rw [gather, List.foldl_append]
      exact gather_request_from ih

end Gathering

section InUnitOrder

variable {exceptions} {state : σ} {request : BatchRequest σ κ ι ν}

theorem group_members_in_order (state : σ) {operation : GroupedMutation σ ι ν} {members : List (GroupMember σ κ ι ν)}
    (work : ∀ member ∈ members, ∃ key, member.request.work = .grouped key member.item operation) :
    (members.map fun member => member.request.serial).zip
        (Lib.inOrder (executeItem exceptions operation) state (members.map GroupMember.item)).1 =
      (oneAtATime exceptions state (members.map GroupMember.request)).1 ∧
    (Lib.inOrder (executeItem exceptions operation) state (members.map GroupMember.item)).2 =
      (oneAtATime exceptions state (members.map GroupMember.request)).2 := by
  induction members generalizing state with
  | nil => exact ⟨rfl, rfl⟩
  | cons member rest ih =>
      obtain ⟨key, same⟩ := work member List.mem_cons_self
      have alone : executeAlone exceptions state member.request =
          ((member.request.serial, (executeItem exceptions operation state member.item).1),
            (executeItem exceptions operation state member.item).2) := by
        rw [executeAlone, same]
      obtain ⟨answers, final⟩ := ih (executeItem exceptions operation state member.item).2 fun other inside =>
        work other (List.mem_cons_of_mem _ inside)
      simp only [oneAtATime, List.map_cons, Lib.inOrder, List.zip_cons_cons, alone] at answers final ⊢
      exact ⟨by rw [answers], final⟩

theorem execute_unit_in_order [DecidableEq κ] {requests : List (BatchRequest σ κ ι ν)} {gathered : Gathered σ κ ι ν}
    (from_requests : GatheredFrom gathered requests) (agreeing : Agreeing exceptions requests) {unit : BatchUnit σ κ ι ν}
    (inside : unit ∈ gathered.units) :
    executeUnit exceptions gathered.grouped state unit = oneAtATime exceptions state (unitRequests gathered.grouped unit) := by
  cases unit with
  | single request operation =>
      obtain ⟨_, work⟩ := from_requests.single request operation inside
      simp only [executeUnit, unitRequests, oneAtATime, Lib.inOrder, executeAlone, work]
  | group key =>
      have members := from_requests.members key
      simp only [executeUnit, unitRequests]
      cases shape : gathered.grouped key with
      | nil => rfl
      | cons first others =>
          rw [shape] at members
          obtain ⟨firstIn, firstWork⟩ := members first List.mem_cons_self
          have agrees := agreeing.agrees first.request firstIn key first.item first.operation firstWork
          have shared : ∀ member ∈ first :: others, ∃ key, member.request.work = .grouped key member.item first.operation := by
            intro member inside
            obtain ⟨memberIn, memberWork⟩ := members member inside
            refine ⟨key, ?_⟩
            rw [memberWork, agreeing.shared _ memberIn _ firstIn key _ _ _ _ memberWork firstWork]
          obtain ⟨answers, final⟩ := group_members_in_order state shared
          show (_, _) = _
          rw [agrees, answers, final]

theorem execute_units_in_order [DecidableEq κ] {requests : List (BatchRequest σ κ ι ν)} {gathered : Gathered σ κ ι ν}
    (from_requests : GatheredFrom gathered requests) (agreeing : Agreeing exceptions requests) {units : List (BatchUnit σ κ ι ν)}
    (inside : ∀ unit ∈ units, unit ∈ gathered.units) :
    executeUnits exceptions gathered.grouped state units =
      oneAtATime exceptions state (units.flatMap (unitRequests gathered.grouped)) := by
  induction units generalizing state with
  | nil => rfl
  | cons unit rest ih =>
      rw [List.flatMap_cons, oneAtATime, Lib.in_order_append, ← oneAtATime,
        ← execute_unit_in_order from_requests agreeing (inside unit List.mem_cons_self)]
      simp only [executeUnits]
      rw [ih fun other member => inside other (List.mem_cons_of_mem _ member)]
      rfl

theorem raised_alone {error : ν} (raises : raised exceptions state request = some error) :
    executeAlone exceptions state request = ((request.serial, (false, error)), state) := by
  unfold raised at raises
  unfold executeAlone
  cases work : request.work with
  | single operation =>
      rw [work] at raises
      cases ran : operation state with
      | mk answer next =>
          cases answer with
          | ok result => simp [ran] at raises
          | error failure =>
              simp only [ran, Option.some.injEq] at raises
              simp only [executeSingle, ran, raises]
  | grouped key item operation =>
      rw [work] at raises
      cases ran : operation state [item] with
      | mk answer next =>
          cases answer with
          | error failure =>
              simp only [ran, Option.some.injEq] at raises
              simp only [executeItem, ran, raises]
          | ok outcomes =>
              match outcomes with
              | [] =>
                  simp only [ran, Option.some.injEq] at raises
                  simp only [executeItem, ran, raises]
              | [_] => simp [ran] at raises
              | _ :: _ :: _ =>
                  simp only [ran, Option.some.injEq] at raises
                  simp only [executeItem, ran, raises]

theorem execute_batch_alone [DecidableEq κ] (exceptions : Exceptions ν) (state : σ) (request : BatchRequest σ κ ι ν) :
    executeBatch exceptions state [request] =
      ([(executeAlone exceptions state request).1], (executeAlone exceptions state request).2) := by
  cases work : request.work with
  | single operation =>
      have shape : gather [request] = ⟨[.single request operation], fun _ => []⟩ := by
        simp only [gather, List.foldl_cons, List.foldl_nil, gatherRequest, work, List.nil_append]
      simp only [executeBatch, shape, executeUnits, executeUnit, executeAlone, work, List.append_nil]
  | grouped key item operation =>
      have shape : gather [request] =
          ⟨[.group key], fun other => if other = key then [⟨request, item, operation⟩] else []⟩ := by
        simp only [gather, List.foldl_cons, List.foldl_nil, gatherRequest, work, List.nil_append, if_true]
      have alone : executeGroup exceptions operation state [item] =
          ([(executeItem exceptions operation state item).1], (executeItem exceptions operation state item).2) := by
        unfold executeGroup executeItem
        cases operation state [item] with
        | mk answer next =>
            match answer with
            | .error _ => rfl
            | .ok [] => rfl
            | .ok [_] => rfl
            | .ok (_ :: _ :: _) => rfl
      simp only [executeBatch, shape, executeUnits, executeUnit, executeAlone, work, if_true, List.map_cons, List.map_nil,
        alone, List.zip_cons_cons, List.zip_nil_right, List.append_nil]

instance : Std.Total (bySerial : BatchRequest σ κ ι ν → BatchRequest σ κ ι ν → Prop) :=
  ⟨fun left right => Nat.le_total left.serial right.serial⟩

instance : IsTrans (BatchRequest σ κ ι ν) bySerial := ⟨fun _ _ _ => Nat.le_trans⟩

theorem serial_order_unique {left right : List (BatchRequest σ κ ι ν)} (same : left.Perm right)
    (distinct : (right.map MutationRequest.serial).Nodup) : serialOrder left = serialOrder right := by
  refine List.Perm.eq_of_pairwise ?_ (List.pairwise_insertionSort bySerial left) (List.pairwise_insertionSort bySerial right)
    (((List.perm_insertionSort bySerial left).trans same).trans (List.perm_insertionSort bySerial right).symm)
  intro first second firstIn secondIn low high
  refine List.inj_on_of_nodup_map distinct ?_ ((List.mem_insertionSort bySerial).mp secondIn) (Nat.le_antisymm low high)
  exact same.mem_iff.mp ((List.mem_insertionSort bySerial).mp firstIn)

section Interleaved

def plainExceptions : Exceptions Unit := ⟨fun _ => false, fun _ => (), fun _ => ""⟩

def appendRows : GroupedMutation (List Nat) Nat Unit := fun rows items => (.ok (items.map fun _ => (true, ())), rows ++ items)

def appendRow (row : Nat) : List Nat → Except Unit Unit × List Nat := fun rows => (.ok (), rows ++ [row])

def interleavedBatch : List (BatchRequest (List Nat) Unit Nat Unit) :=
  [⟨1, 0, 1, .grouped () 1 appendRows⟩, ⟨2, 0, 1, .single (appendRow 2)⟩, ⟨3, 0, 1, .grouped () 3 appendRows⟩]

theorem append_rows_agrees : Agrees plainExceptions appendRows := by
  intro rows items
  induction items generalizing rows with
  | nil => simp [executeGroup, appendRows, Lib.inOrder]
  | cons item rest ih =>
      have later := ih (rows ++ [item])
      simp only [executeGroup, appendRows, List.length_map, if_true, List.append_assoc, List.singleton_append] at later
      have first : executeItem plainExceptions appendRows rows item = ((true, ()), rows ++ [item]) := rfl
      rw [Lib.inOrder, first, ← later]
      simp [executeGroup, appendRows, memberOutcome]

theorem interleaved_agreeing : Agreeing plainExceptions interleavedBatch := by
  have operations : ∀ request ∈ interleavedBatch, ∀ key item operation, request.work = .grouped key item operation →
      operation = appendRows := by
    intro request inside key item operation work
    simp only [interleavedBatch, List.mem_cons, List.not_mem_nil, or_false] at inside
    rcases inside with rfl | rfl | rfl
    · cases work
      rfl
    · cases work
    · cases work
      rfl
  refine ⟨fun left leftIn right rightIn key item other first second leftWork rightWork => ?_,
    fun request inside key item operation work => ?_⟩
  · rw [operations left leftIn key item first leftWork, operations right rightIn key other second rightWork]
  · rw [operations request inside key item operation work]
    exact append_rows_agrees

end Interleaved

-- A batch is its requests one at a time, in the order that gathers each group at its first member; where no
-- pair that changes places interferes, that is the serial order, and a request that raises is as if it had
-- not been there.
theorem execute_batch_one_at_a_time [DecidableEq κ] (exceptions : Exceptions ν) (state : σ)
    (requests : List (BatchRequest σ κ ι ν)) (distinct : (requests.map MutationRequest.serial).Nodup)
    (agreeing : Agreeing exceptions requests) :
    executeBatch exceptions state requests = oneAtATime exceptions state (unitOrder requests) ∧
    (unitOrder requests).Perm requests ∧
    (∀ request ∈ requests, ∀ current, executeBatch exceptions current [request] =
      ([(executeAlone exceptions current request).1], (executeAlone exceptions current request).2)) ∧
    (((unitOrder requests).Pairwise fun left right =>
        right.serial < left.serial → Lib.Commutes (executeAlone exceptions) left right) →
      (executeBatch exceptions state requests).1.Perm (oneAtATime exceptions state (serialOrder requests)).1 ∧
        (executeBatch exceptions state requests).2 = (oneAtATime exceptions state (serialOrder requests)).2) ∧
    ∀ earlier request later error, unitOrder requests = earlier ++ request :: later →
      raised exceptions (oneAtATime exceptions state earlier).2 request = some error →
      ∃ before after, (oneAtATime exceptions state (earlier ++ later)).1 = before ++ after ∧
        executeBatch exceptions state requests =
          (before ++ (request.serial, (false, error)) :: after, (oneAtATime exceptions state (earlier ++ later)).2) := by
  have gathered := gathered_from requests
  have in_order : executeBatch exceptions state requests = oneAtATime exceptions state (unitOrder requests) :=
    execute_units_in_order gathered agreeing fun _ inside => inside
  refine ⟨in_order, gathered.all, fun request _ current => execute_batch_alone exceptions current request, fun free => ?_,
    fun earlier request later error place raises => ?_⟩
  · rw [in_order]
    rw [← serial_order_unique gathered.all distinct]
    exact Lib.in_order_sorted bySerial state (free.imp fun commute out => commute (Nat.lt_of_not_le out))
  · have alone := raised_alone raises
    unfold oneAtATime at alone
    have idle : (executeAlone exceptions (Lib.inOrder (executeAlone exceptions) state earlier).2 request).2 =
        (Lib.inOrder (executeAlone exceptions) state earlier).2 := by rw [alone]
    obtain ⟨final, answers, others⟩ := Lib.in_order_idle later idle
    refine ⟨_, _, others, ?_⟩
    rw [in_order, place]
    rw [alone] at answers
    exact Prod.ext answers final

-- The group of the first and the third request runs before the second one.
theorem interleaved_batch_not_serial :
    Agreeing plainExceptions interleavedBatch ∧ (∀ request ∈ interleavedBatch, request.priority = 0) ∧
      (executeBatch plainExceptions [] interleavedBatch).2 = [1, 3, 2] ∧
      (oneAtATime plainExceptions [] (serialOrder interleavedBatch)).2 = [1, 2, 3] := by
  refine ⟨interleaved_agreeing, ?_, rfl, rfl⟩
  intro request inside
  simp only [interleavedBatch, List.mem_cons, List.not_mem_nil, or_false] at inside
  rcases inside with rfl | rfl | rfl <;> rfl

theorem execute_batch_one_at_a_time_interleaved :
    executeBatch plainExceptions [] interleavedBatch = oneAtATime plainExceptions [] (unitOrder interleavedBatch) :=
  (execute_batch_one_at_a_time plainExceptions [] interleavedBatch (by decide) interleaved_agreeing).1

end InUnitOrder

end MicroWorkflow
