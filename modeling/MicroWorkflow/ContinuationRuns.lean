import MicroWorkflow.ContinuationSteps

set_option autoImplicit false

namespace MicroWorkflow

open Lib (Table)

variable {π ω : Type}

section Replacing

variable {run : GroupRun π ω} {group : NodeGroup π ω} {scope : GroupScope} {storage : GroupStorage π}
  {replacements : List (Replacement π)}

structure Fits (group : NodeGroup π ω) (replacements : List (Replacement π)) : Prop where
  distinct : (replacements.map Replacement.key).Nodup
  named : ∀ replacement ∈ replacements, replacement.item.id = replacement.key
  failed : ∀ replacement ∈ replacements, ∃ slot, slotOf group.slots replacement.key = some slot ∧ slot.error.isSome

def acceptedEntries (replacements : List (Replacement π)) : List (Nat × OwnedRestart) :=
  replacements.map fun replacement => (replacement.key, replacement.expected)

theorem accept_cases (slots : Table (Prod.fst : Nat × GroupSlot π ω → Nat)) (accepted : Nat → Option OwnedRestart)
    (replacements : List (Replacement π)) (key : Nat) :
    (∃ replacement ∈ replacements, replacement.key = key ∧
        slotOf (acceptReplacements slots replacements) key = (slotOf slots key).map (fun slot => slot.accept replacement) ∧
        latestAccepted accepted (acceptedEntries replacements) key = some replacement.expected) ∨
      (∀ replacement ∈ replacements, replacement.key ≠ key) ∧
        slotOf (acceptReplacements slots replacements) key = slotOf slots key ∧
        latestAccepted accepted (acceptedEntries replacements) key = accepted key := by
  have entries : (acceptedEntries replacements).find? (fun entry => entry.1 = key) =
      (replacements.find? fun replacement => replacement.key = key).map fun replacement =>
        (replacement.key, replacement.expected) := by
    rw [acceptedEntries, List.find?_map]
    rfl
  rw [slot_accept, latestAccepted, entries]
  simp only [replace_slot_snd]
  cases chosen : replacements.find? fun replacement => replacement.key = key with
  | none =>
      refine .inr ⟨fun replacement member => ?_, ?_, rfl⟩
      · simpa using List.find?_eq_none.mp chosen replacement member
      · cases slotOf slots key with
        | none => rfl
        | some slot => rfl
  | some replacement =>
      refine .inl ⟨replacement, List.mem_of_find?_eq_some chosen, by simpa using List.find?_some chosen, rfl, rfl⟩

theorem accept_sound (sound : RunSound run) (fits : Fits run.group replacements) :
    let slots := acceptReplacements run.group.slots replacements
    let accepted := latestAccepted run.accepted (acceptedEntries replacements)
    (∀ key slot, slotOf slots key = some slot → SlotSound accepted run.finished key slot) ∧
      (∀ jobId value, (jobId, value) ∈ run.finished →
        ∃ slot, slotOf slots jobId = some slot ∧ slot.complete = true ∧ slot.value = some value) ∧
      (∀ key, key ∉ slotKeys slots → accepted key = none) ∧
      ∀ replacement ∈ replacements, (accepted replacement.item.id).isSome ∧
        ∃ slot, slotOf slots replacement.item.id = some slot ∧ slot.complete = false ∧ slot.error = none := by
  intro slots accepted
  refine ⟨fun key slot found => ?_, fun jobId value member => ?_, fun key absent => ?_, fun replacement member => ?_⟩
  · rcases accept_cases run.group.slots run.accepted replacements key with ⟨replacement, member, rfl,
      looked, told⟩ | ⟨_, looked, told⟩
    · rw [looked] at found
      obtain ⟨before, known, rfl⟩ := Option.map_eq_some_iff.mp found
      obtain ⟨_, _, _, _, valued⟩ := sound.slots _ before known
      exact ⟨fits.named replacement member, told.symm, nofun, nofun, valued⟩
    · rw [looked] at found
      obtain ⟨item, latest, failed, attempt, valued⟩ := sound.slots key slot found
      exact ⟨item, latest.trans told.symm, failed, attempt, valued⟩
  · obtain ⟨slot, known, complete, result⟩ := sound.values jobId value member
    rcases accept_cases run.group.slots run.accepted replacements jobId with ⟨replacement, _, _, looked, _⟩ | ⟨_, looked, _⟩
    · exact ⟨slot.accept replacement, looked.trans (by rw [known]; rfl), complete, result⟩
    · exact ⟨slot, looked.trans known, complete, result⟩
  · rw [accept_keys] at absent
    rcases accept_cases run.group.slots run.accepted replacements key with ⟨replacement, member, rfl, _, _⟩ | ⟨_, _, told⟩
    · obtain ⟨slot, found, _⟩ := fits.failed replacement member
      exact absurd (mem_slot_keys.mpr ⟨slot, found⟩) absent
    · exact told.trans (sound.unknown key absent)
  · rw [fits.named replacement member]
    obtain ⟨slot, found, failed⟩ := fits.failed replacement member
    rcases accept_cases run.group.slots run.accepted replacements replacement.key with ⟨chosen, _, _,
      looked, told⟩ | ⟨untouched, _, _⟩
    · refine ⟨by show (latestAccepted _ _ _).isSome = true; rw [told]; rfl, slot.accept chosen, ?_, ?_, rfl⟩
      · exact looked.trans (by rw [found]; rfl)
      · exact (sound.slots _ slot found).failed failed
    · exact absurd rfl (untouched replacement member)

theorem fits_nodup (fits : Fits group replacements) : ((replacements.map Replacement.item).map SourceItem.id).Nodup := by
  have same : (replacements.map Replacement.item).map SourceItem.id = replacements.map Replacement.key := by
    rw [List.map_map]
    exact List.map_congr_left fits.named
  rw [same]
  exact fits.distinct

theorem prepared_fits (sound : RunSound run) {next : NodeGroup π ω}
    (prepared : run.group.prepareReplacements scope storage = .ok (some next)) :
    ∃ replacements, replacements ≠ [] ∧ next = run.group.replaced replacements ∧ Fits run.group replacements ∧
      gatheredEntries scope storage run.group = acceptedEntries replacements := by
  obtain ⟨replacements, some_replaced, rfl, gathered, distinct, origin⟩ := prepare_replacements_some prepared
  refine ⟨replacements, some_replaced, rfl, ⟨distinct, fun replacement member => ?_, fun replacement member => ?_⟩, ?_⟩
  · obtain ⟨slot, attempt, found, named, numbered⟩ := origin replacement member
    rw [numbered]
    exact (sound.slots _ slot found).attempt attempt named
  · obtain ⟨slot, attempt, found, named, _⟩ := origin replacement member
    refine ⟨slot, found, ?_⟩
    cases failed : slot.error with
    | none =>
        rw [failed] at named
        cases named
    | some error => rfl
  · rw [gatheredEntries, gathered]
    rfl

inductive EpochSettled (scope : GroupScope) (storage : GroupStorage π) (group : NodeGroup π ω) (ending : RunnerEnd) :
    NodeGroup π ω × Option (GroupEnd ω) → Prop where
  | replaced {next : NodeGroup π ω} (prepared : group.prepareReplacements scope storage = .ok (some next)) :
      EpochSettled scope storage group ending (next, none)
  | reopened (unfailed : group.failed = []) (epoch : group.replacementEpoch = true) :
      EpochSettled scope storage group ending (group.resumed [] false, none)
  | raised (failure : GroupFailure) : EpochSettled scope storage group ending (group, some (.raised failure))
  | returned (paused : Bool) (unfailed : group.failed = []) (normal : paused = false → ending = .returned)
      (ordinary : paused = false → group.stopAdmission = false → group.replacementEpoch = false) :
      EpochSettled scope storage group ending (group, some (.returned paused group.values))

theorem replace_or_settled (error : OutcomeError) (ending : RunnerEnd) :
    EpochSettled scope storage group ending (group.replaceOr scope storage error) := by
  rw [NodeGroup.replaceOr]
  cases prepared : group.prepareReplacements scope storage with
  | error failure => exact .raised _
  | ok next =>
      cases next with
      | none => exact .raised _
      | some next => exact .replaced prepared

theorem failed_nil : group.failed = [] ↔ ∀ key slot, slotOf group.slots key = some slot → slot.error = none := by
  rw [List.eq_nil_iff_forall_not_mem]
  constructor
  · intro none key slot found
    have unfailed := none (key, slot)
    rw [mem_failed] at unfailed
    cases failed : slot.error with
    | none => rfl
    | some error => exact absurd ⟨slot_of_row.mp found, by rw [failed]; rfl⟩ unfailed
  · rintro none ⟨key, slot⟩ member
    obtain ⟨listed, failed⟩ := mem_failed.mp member
    rw [none key slot (slot_of_row.mpr listed)] at failed
    cases failed

theorem settle_settled (paused : Bool) (ending : RunnerEnd) (normal : paused = false → ending = .returned) :
    EpochSettled scope storage group ending (group.settle scope storage paused) := by
  rw [NodeGroup.settle]
  cases errors : group.slots.rows.filterMap fun row => row.2.error with
  | cons error rest => exact replace_or_settled error ending
  | nil =>
      have unfailed : group.failed = [] := by
        rw [failed_nil]
        intro key slot found
        exact List.filterMap_eq_nil_iff.mp errors (key, slot) (slot_of_row.mp found)
      dsimp only
      split
      · rename_i again
        simp only [Bool.and_eq_true] at again
        exact .reopened unfailed again.1.1
      · rename_i concluded
        refine .returned paused unfailed normal fun unpaused unstopped => ?_
        simpa [unpaused, unstopped] using concluded

theorem after_epoch_settled (ending : RunnerEnd) :
    EpochSettled scope storage group ending (group.afterEpoch scope storage ending) := by
  cases ending with
  | returned => exact settle_settled false .returned fun _ => rfl
  | raised error =>
      rw [NodeGroup.afterEpoch]
      cases error.kind with
      | jobFailed => exact replace_or_settled error _
      | restartClaimChanged => exact .raised _
      | other => exact .raised _
      | componentIncomplete =>
          dsimp only
          split
          · exact .raised _
          · exact settle_settled true _ nofun

theorem replaced_epoch (sound : RunSound run) (fits : Fits run.group replacements) (settling : Bool) :
    EpochSound { run with
      group := run.group.replaced replacements
      phase := .epoch, handed := [], running := [], raised := [], settling := settling
      accepted := latestAccepted run.accepted (acceptedEntries replacements) } := by
  obtain ⟨_, _, _, opened⟩ := accept_sound sound fits
  have live : (run.group.replaced replacements).pending ++ [] ++ [] = replacements.map Replacement.item := by
    simp [NodeGroup.replaced]
  refine ⟨?_, ?_, nofun, nofun, fun _ => .inr (.inl rfl), fun _ => ⟨rfl, ?_⟩⟩
  · rw [GroupRun.live, live]
    exact fits_nodup fits
  · rw [GroupRun.live, live]
    intro item member
    obtain ⟨replacement, listed, rfl⟩ := List.mem_map.mp member
    exact (opened replacement listed).2
  · rw [GroupRun.live, live]
    intro item member
    obtain ⟨replacement, listed, rfl⟩ := List.mem_map.mp member
    exact (opened replacement listed).1

theorem mem_unfinished {slots : Table (Prod.fst : Nat × GroupSlot π ω → Nat)} {item : SourceItem π} :
    item ∈ unfinishedItems slots ↔ ∃ key slot, slotOf slots key = some slot ∧ slot.complete = false ∧ slot.item = item := by
  rw [unfinishedItems, List.mem_map]
  constructor
  · rintro ⟨⟨key, slot⟩, member, rfl⟩
    obtain ⟨listed, incomplete⟩ := Table.mem_select.mp member
    exact ⟨key, slot, slot_of_row.mpr listed, by simpa using incomplete, rfl⟩
  · rintro ⟨key, slot, found, incomplete, rfl⟩
    exact ⟨(key, slot), Table.mem_select.mpr ⟨slot_of_row.mp found, by simpa using incomplete⟩, rfl⟩

theorem unfinished_nodup {slots : Table (Prod.fst : Nat × GroupSlot π ω → Nat)}
    (named : ∀ key slot, slotOf slots key = some slot → slot.item.id = key) :
    ((unfinishedItems slots).map SourceItem.id).Nodup := by
  have same : (unfinishedItems slots).map SourceItem.id = (slots.select fun row => !row.2.complete).map Prod.fst := by
    rw [unfinishedItems, List.map_map]
    refine List.map_congr_left ?_
    rintro ⟨key, slot⟩ member
    exact named key slot (slot_of_row.mpr (Table.mem_select.mp member).1)
  rw [same]
  exact slots.nodup.sublist (List.filter_sublist.map Prod.fst)

theorem any_error {slots : Table (Prod.fst : Nat × GroupSlot π ω → Nat)} :
    (slots.rows.any fun row => row.2.error.isSome) = true ↔ ∃ key slot, slotOf slots key = some slot ∧ slot.error.isSome := by
  rw [List.any_eq_true]
  constructor
  · rintro ⟨⟨key, slot⟩, member, failed⟩
    exact ⟨key, slot, slot_of_row.mpr member, failed⟩
  · rintro ⟨key, slot, found, failed⟩
    exact ⟨(key, slot), slot_of_row.mp found, failed⟩

theorem accept_nothing (slots : Table (Prod.fst : Nat × GroupSlot π ω → Nat)) : acceptReplacements slots [] = slots := by
  apply Table.ext
  show (slots.rows.map fun row => if true then replaceSlot [] row else row) = slots.rows
  exact List.map_id _

theorem resumed_epoch (sound : RunSound run) (fits : Fits run.group replacements) (stopAdmission settling : Bool)
    (settles : settling = true → replacements ≠ [] ∨ stopAdmission = true ∨ run.group.failed ≠ []) :
    EpochSound { run with
      group := run.group.resumed replacements stopAdmission
      phase := .epoch, handed := [], running := [], raised := [], settling := settling
      accepted := latestAccepted run.accepted (acceptedEntries replacements) } := by
  obtain ⟨slots, _, _, opened⟩ := accept_sound sound fits
  cases replacements with
  | cons first rest =>
      have live : (run.group.resumed (first :: rest) stopAdmission).pending ++ [] ++ [] =
        (first :: rest).map Replacement.item := by
        simp [NodeGroup.resumed]
      have paused : (run.group.resumed (first :: rest) stopAdmission).sourcePaused = true := by simp [NodeGroup.resumed]
      refine ⟨?_, ?_, ?_, ?_, fun _ => .inr (.inl rfl), fun _ => ⟨paused, ?_⟩⟩
      · rw [GroupRun.live, live]
        exact fits_nodup fits
      · rw [GroupRun.live, live]
        intro item member
        obtain ⟨replacement, listed, rfl⟩ := List.mem_map.mp member
        exact (opened replacement listed).2
      · intro unpaused
        exact absurd (paused.symm.trans unpaused) (by simp)
      · intro unpaused
        exact absurd (paused.symm.trans unpaused) (by simp)
      · rw [GroupRun.live, live]
        intro item member
        obtain ⟨replacement, listed, rfl⟩ := List.mem_map.mp member
        exact (opened replacement listed).1
  | nil =>
      have paused : (run.group.resumed [] stopAdmission).sourcePaused =
          (stopAdmission || run.group.slots.rows.any fun row => row.2.error.isSome) := by
        simp [NodeGroup.resumed, accept_nothing]
      have pending : (run.group.resumed [] stopAdmission).pending =
          if (run.group.resumed [] stopAdmission).sourcePaused then [] else unfinishedItems run.group.slots := by
        rw [paused]
        simp only [NodeGroup.resumed, accept_nothing, List.isEmpty_nil, Bool.not_true, Bool.false_eq_true,
          if_false, Bool.or_false]
        cases stopAdmission || run.group.slots.rows.any fun row => row.2.error.isSome with
        | true => rfl
        | false => rfl
      have held : (run.group.resumed [] stopAdmission).slots = run.group.slots := accept_nothing _
      have unfailed : (run.group.resumed [] stopAdmission).sourcePaused = false → stopAdmission = false ∧
          ∀ key slot, slotOf run.group.slots key = some slot → slot.error = none := by
        intro unpaused
        rw [paused, Bool.or_eq_false_iff] at unpaused
        refine ⟨unpaused.1, fun key slot found => ?_⟩
        cases failed : slot.error with
        | none => rfl
        | some error =>
            have any := any_error.mpr ⟨key, slot, found, by rw [failed]; rfl⟩
            rw [unpaused.2] at any
            cases any
      cases shut : (run.group.resumed [] stopAdmission).sourcePaused with
      | true =>
          rw [shut, if_pos rfl] at pending
          refine ⟨by simp [GroupRun.live, pending], ?_, ?_, ?_, fun _ => ?_, fun _ => ⟨shut, ?_⟩⟩
          · intro item member
            simp [GroupRun.live, pending] at member
          · intro unpaused
            exact absurd (shut.symm.trans unpaused) (by simp)
          · intro unpaused
            exact absurd (shut.symm.trans unpaused) (by simp)
          · rw [paused, Bool.or_eq_true] at shut
            rcases shut with stopped | failed
            · exact .inl stopped
            · exact .inr (.inr (by rw [held]; exact any_error.mp failed))
          · intro item member
            simp [GroupRun.live, pending] at member
      | false =>
          obtain ⟨unstopped, calm⟩ := unfailed shut
          rw [shut, if_neg (by simp)] at pending
          have live : (run.group.resumed [] stopAdmission).pending ++ [] ++ [] = unfinishedItems run.group.slots := by
            rw [pending, List.append_nil, List.append_nil]
          refine ⟨?_, ?_, ?_, fun _ => ⟨rfl, unstopped⟩, ?_, ?_⟩
          · rw [GroupRun.live, live]
            exact unfinished_nodup fun key slot found => (sound.slots key slot found).item
          · rw [GroupRun.live, live]
            intro item member
            obtain ⟨key, slot, found, incomplete, rfl⟩ := mem_unfinished.mp member
            rw [(sound.slots key slot found).item]
            exact ⟨slot, (congrArg (fun slots => slotOf slots key) held).trans found, incomplete, calm key slot found⟩
          · rw [GroupRun.live, live, held]
            intro _ _ key slot found
            refine ⟨calm key slot found, fun incomplete => ?_⟩
            have member := mem_unfinished.mpr ⟨key, slot, found, incomplete, rfl⟩
            have named := List.mem_map_of_mem (f := SourceItem.id) member
            rw [(sound.slots key slot found).item] at named
            exact named
          · intro unpaused
            exact absurd (shut.symm.trans unpaused) (by simp)
          · intro settles'
            rcases settles settles' with some_replaced | stopped | failed
            · exact absurd rfl some_replaced
            · rw [unstopped] at stopped
              cases stopped
            · exact absurd (failed_nil.mpr calm) failed

end Replacing

section Epochs

variable {run next : GroupRun π ω} {scope : GroupScope} {storage : GroupStorage π}

theorem ends_joined {ending : RunnerEnd} (ended : endsWith run ending = true) : run.running = [] := by
  cases ending with
  | returned =>
      rw [endsWith, Bool.and_eq_true] at ended
      exact List.isEmpty_iff.mp ended.1
  | raised error =>
      rw [endsWith, Bool.and_eq_true] at ended
      exact List.isEmpty_iff.mp ended.1

theorem gathered_nothing (unfailed : run.group.failed = []) :
    gatheredEntries scope storage run.group = acceptedEntries ([] : List (Replacement π)) := by
  rw [gatheredEntries, unfailed]
  rfl

theorem fits_nothing (group : NodeGroup π ω) : Fits group [] where
  distinct := List.nodup_nil
  named := by
    intro replacement member
    cases member
  failed := by
    intro replacement member
    cases member

theorem returned_complete (live : EpochSound run) (calm : run.raised = []) (joined : run.running = [])
    (unpaused : run.group.sourcePaused = false) (drained : run.group.pending = [] ∧ run.handed = []) :
    ∀ key slot, slotOf run.group.slots key = some slot → slot.complete = true := by
  intro key slot found
  cases complete : slot.complete with
  | true => rfl
  | false =>
      have waiting := (live.covered unpaused calm key slot found).2 complete
      rw [GroupRun.live, drained.1, drained.2, joined] at waiting
      cases waiting

theorem returned_ordinary (live : EpochSound run) (unfailed : run.group.failed = []) (unstopped : run.group.stopAdmission = false)
    (ordinary : run.group.replacementEpoch = false) : run.group.sourcePaused = false := by
  cases paused : run.group.sourcePaused with
  | false => rfl
  | true =>
      rcases live.paused paused with stopped | replacing | ⟨key, slot, found, failed⟩
      · rw [unstopped] at stopped
        cases stopped
      · rw [ordinary] at replacing
        cases replacing
      · rw [failed_nil.mp unfailed key slot found] at failed
        cases failed

theorem close_sound (sound : RunSound run) (epoch : run.phase = .epoch) {ending : RunnerEnd} (ended : endsWith run ending = true)
    (clean : CleanStep run (.ends storage ending : GroupLabel π ω)) : RunSound (closeStep scope storage run ending) := by
  have joined := ends_joined ended
  have live := sound.epoch epoch
  have settled := @after_epoch_settled _ _ run.group scope storage ending
  rw [closeStep]
  generalize run.group.afterEpoch scope storage ending = result at settled ⊢
  cases settled with
  | replaced prepared =>
      obtain ⟨replacements, _, rfl, fits, gathered⟩ := prepared_fits sound prepared
      obtain ⟨slots, values, unknown, _⟩ := accept_sound sound fits
      dsimp only
      rw [gathered, joined]
      refine ⟨(accept_keys replacements).trans sound.order, sound.kept, slots, values, unknown, sound.begun, fun _ => ?_,
        fun _ concluded => absurd concluded (not_over epoch), fun inactive => absurd ((working epoch).symm.trans inactive) nofun⟩
      rw [epoch]
      exact replaced_epoch sound fits _
  | reopened unfailed =>
      obtain ⟨slots, values, unknown, _⟩ := accept_sound sound (fits_nothing run.group)
      dsimp only
      rw [gathered_nothing unfailed, joined]
      refine ⟨(accept_keys []).trans sound.order, sound.kept, slots, values, unknown, sound.begun, fun _ => ?_,
        fun _ concluded => absurd concluded (not_over epoch), fun inactive => absurd ((working epoch).symm.trans inactive) nofun⟩
      rw [epoch]
      exact resumed_epoch sound (fits_nothing run.group) false _ fun settles => absurd settles (by simp [unfailed])
  | raised failure =>
      refine ⟨sound.order, sound.kept, sound.slots, sound.values, sound.unknown, sound.begun, nofun, nofun,
        fun _ => ⟨⟨rfl, joined, rfl⟩, fun failed => ?_⟩⟩
      simp [failed]
  | returned paused unfailed normal ordinary =>
      refine ⟨sound.order, sound.kept, sound.slots, sound.values, sound.unknown, sound.begun, nofun, ?_,
        fun _ => ⟨⟨rfl, joined, rfl⟩, fun failed => absurd unfailed failed⟩⟩
      intro values concluded unstopped
      cases concluded
      cases normal rfl
      rw [endsWith, Bool.and_eq_true] at ended
      have unpaused := returned_ordinary live unfailed unstopped (ordinary rfl unstopped)
      have calm : run.raised = [] := List.isEmpty_iff.mp ended.2
      have complete := returned_complete live calm joined unpaused (clean unpaused)
      exact ⟨rfl, complete⟩

theorem resume_sound (sound : RunSound run) (inactive : run.active = false) {stopAdmission : Bool}
    {entries : Table (Prod.fst : JobAddress × OwnedRestart → JobAddress)} {resumed : NodeGroup π ω}
    (resumes : run.group.resume scope storage entries stopAdmission = .ok resumed)
    (chosen : choosesFailed run.group entries.rows = true) : RunSound (resumeStep run resumed entries.rows) := by
  rw [NodeGroup.resume, Lib.bind_ok] at resumes
  obtain ⟨items, read, made⟩ := resumes
  cases made
  obtain ⟨same, known⟩ := resume_items_ok read
  obtain ⟨⟨unhanded, joined, calm⟩, settles⟩ := sound.concluded inactive
  have entriesOf : (entries.rows.map fun entry => (entry.1.2, entry.2)) = acceptedEntries items := by
    rw [← same, List.map_map]
    rfl
  have fits : Fits run.group items := by
    refine ⟨?_, fun item member => (known item member).2, fun item member => ?_⟩
    · have distinct := entries.nodup
      rw [← same, List.map_map] at distinct
      have keyed : (items.map fun item => (scope.nodeName, item.key)).Nodup := distinct
      rw [show (items.map fun item => (scope.nodeName, item.key)) = (items.map Replacement.key).map (Prod.mk scope.nodeName) by
        rw [List.map_map]; rfl] at keyed
      exact List.Nodup.of_map _ keyed
    · have listed : ((scope.nodeName, item.key), item.expected) ∈ entries.rows := by
        rw [← same]
        exact List.mem_map_of_mem (f := fun item : Replacement π => ((scope.nodeName, item.key), item.expected)) member
      have failed := List.all_eq_true.mp chosen _ listed
      obtain ⟨slot, found, error⟩ := (Option.any_eq_true _ _).mp failed
      exact ⟨slot, found, error⟩
  obtain ⟨slots, values, unknown, _⟩ := accept_sound sound fits
  have empty : entries.rows.isEmpty = items.isEmpty := by
    rw [← same]
    cases items with
    | nil => rfl
    | cons first rest => rfl
  rw [resumeStep, entriesOf, empty]
  refine ⟨(accept_keys items).trans sound.order, sound.kept, slots, values, unknown, sound.begun, fun _ => ?_, nofun, nofun⟩
  have opened := resumed_epoch sound fits stopAdmission
    (run.settling && (!items.isEmpty || (run.group.resumed items stopAdmission).stopAdmission || !run.group.failed.isEmpty)) (by
      intro settling
      simp only [Bool.and_eq_true, Bool.or_eq_true, Bool.not_eq_true', List.isEmpty_eq_false_iff] at settling
      rcases settling.2 with (some_chosen | stopped) | failed
      · exact .inl some_chosen
      · exact .inr (.inl stopped)
      · exact .inr (.inr failed))
  rw [unhanded, joined, calm]
  exact opened

theorem active_epoch (active : run.active = true) : run.phase = .epoch := by
  rw [GroupRun.active] at active
  cases phase : run.phase with
  | epoch => rfl
  | ended ending =>
      rw [phase] at active
      cases active

theorem step_sound {label : GroupLabel π ω} (sound : RunSound run) (clean : CleanStep run label)
    (stepped : groupStep scope run label = some next) : RunSound next := by
  cases label with
  | pull maxItems read =>
      rw [groupStep] at stepped
      by_cases allowed : (run.active && decide (1 ≤ maxItems)) = true
      · rw [if_pos allowed] at stepped
        cases stepped
        have epoch := active_epoch ((Bool.and_eq_true _ _ ▸ allowed).1)
        cases reads : run.group.readsSource with
        | false => exact pull_unread_sound sound epoch reads maxItems read
        | true =>
            have known := left_behind_nil.mp (clean reads)
            cases read with
            | items items => exact pull_items_sound sound epoch reads maxItems known
            | fails error read =>
                refine pull_fails_sound sound epoch reads maxItems error fun key member => ?_
                have slotted := known key member
                rwa [SourceRead.admitted, List.append_nil] at slotted
      · rw [if_neg allowed] at stepped
        cases stepped
  | begins place =>
      rw [groupStep] at stepped
      by_cases active : run.active = true
      · rw [if_pos active] at stepped
        obtain ⟨item, here, begun⟩ := Option.bind_eq_some_iff.mp stepped
        obtain ⟨slot, found, rfl⟩ := Option.map_eq_some_iff.mp begun
        exact begin_sound sound (active_epoch active) here found
      · rw [if_neg active] at stepped
        cases stepped
  | finishes place outcome =>
      rw [groupStep] at stepped
      by_cases active : run.active = true
      · rw [if_pos active] at stepped
        obtain ⟨item, here, finished⟩ := Option.bind_eq_some_iff.mp stepped
        by_cases own : namesOwnAttempt item outcome = true
        · rw [if_pos own] at finished
          cases finished
          cases outcome with
          | ok value => exact finish_value_sound sound (active_epoch active) here value
          | error error =>
              refine finish_error_sound sound (active_epoch active) here fun attempt named => ?_
              rw [namesOwnAttempt, named] at own
              simpa using own
        · rw [if_neg own] at finished
          cases finished
      · rw [if_neg active] at stepped
        cases stepped
  | cancels place =>
      rw [groupStep] at stepped
      by_cases allowed : (run.active && !run.raised.isEmpty) = true
      · rw [if_pos allowed] at stepped
        obtain ⟨item, here, rfl⟩ := Option.map_eq_some_iff.mp stepped
        rw [Bool.and_eq_true] at allowed
        exact cancel_sound sound (active_epoch allowed.1) here (by simpa using allowed.2)
      · rw [if_neg allowed] at stepped
        cases stepped
  | ends storage ending =>
      rw [groupStep] at stepped
      by_cases allowed : (run.active && endsWith run ending) = true
      · rw [if_pos allowed] at stepped
        cases stepped
        rw [Bool.and_eq_true] at allowed
        exact close_sound sound (active_epoch allowed.1) allowed.2 clean
      · rw [if_neg allowed] at stepped
        cases stepped
  | resumes storage entries stopAdmission =>
      rw [groupStep] at stepped
      by_cases active : run.active = true
      · rw [if_pos active] at stepped
        cases stepped
      · rw [if_neg active] at stepped
        cases resumes : run.group.resume scope storage entries stopAdmission with
        | error failure =>
            rw [resumes] at stepped
            cases stepped
        | ok resumed =>
            rw [resumes] at stepped
            dsimp only at stepped
            by_cases chosen : choosesFailed run.group entries.rows = true
            · rw [if_pos chosen] at stepped
              cases stepped
              exact resume_sound sound (by simpa using active) resumes chosen
            · rw [if_neg chosen] at stepped
              cases stepped

theorem cleanly_sound (reached : CleanlyReached scope run) : RunSound run := by
  induction reached with
  | start => exact start_sound
  | step _ clean stepped ih => exact step_sound ih clean stepped

theorem complete_values {rows : List (Nat × GroupSlot π ω)} {finished : List (Nat × ω)}
    (complete : ∀ row ∈ rows, row.2.complete = true ∧ ∃ value, row.2.value = some value ∧ (row.1, value) ∈ finished) :
    ∃ results : List (Nat × ω), results.map Prod.fst = rows.map Prod.fst ∧ (∀ result ∈ results, result ∈ finished) ∧
      ((rows.filter fun row => row.2.complete).map fun row => row.2.value) = results.map fun result => some result.2 := by
  induction rows with
  | nil => exact ⟨[], rfl, fun _ member => (by cases member), rfl⟩
  | cons row rest ih =>
      obtain ⟨results, keys, finishedAll, values⟩ := ih fun other member => complete other (List.mem_cons_of_mem row member)
      obtain ⟨done, value, known, listed⟩ := complete row List.mem_cons_self
      refine ⟨(row.1, value) :: results, by rw [List.map_cons, List.map_cons, keys], fun result member => ?_, ?_⟩
      · rcases List.mem_cons.mp member with rfl | later
        · exact listed
        · exact finishedAll result later
      · simp only [List.filter_cons, done, if_true, List.map_cons, known, values]

theorem sound_keeps (sound : RunSound run) : KeepsItems run where
  once := by
    rw [← sound.order]
    exact run.group.slots.nodup
  kept := sound.kept
  values := sound.values
  settled := fun begun member => (sound.begun begun member).1
  latest := fun begun member => (sound.begun begun member).2
  returned := by
    intro values concluded unstopped
    obtain ⟨rfl, complete⟩ := sound.returned values concluded unstopped
    rw [← sound.order]
    refine complete_values fun row member => ?_
    have found := slot_of_row.mpr (show (row.1, row.2) ∈ run.group.slots.rows from member)
    exact ⟨complete row.1 row.2 found, (sound.slots row.1 row.2 found).valued (complete row.1 row.2 found)⟩

theorem take_history (run : GroupRun π ω) (pulled : Except OutcomeError (List (SourceItem π))) :
    (run.take pulled).taken = run.taken ∧ (run.take pulled).admissions = run.admissions := by
  cases pulled with
  | ok items => exact ⟨rfl, rfl⟩
  | error error => exact ⟨rfl, rfl⟩

theorem unclean_pull_loses (sound : RunSound run) {maxItems : Nat} {read : SourceRead π} (reads : run.group.readsSource = true)
    (behind : leftBehind (slotKeys run.group.slots) read ≠ []) : ¬ KeepsItems (pullStep run maxItems read) := by
  intro keeps
  refine behind (left_behind_nil.mpr fun key member => ?_)
  have taken : key ∈ (pullStep run maxItems read).taken := by
    rw [pullStep, (take_history _ _).1, readIds, if_pos reads]
    exact List.mem_append_right _ member
  have admitted := keeps.kept key taken
  rw [pullStep, (take_history _ _).2, newAdmissions, if_pos reads, ← sound.order] at admitted
  exact admitted

theorem unclean_return_misses (sound : RunSound run) (epoch : run.phase = .epoch) (ended : endsWith run .returned = true)
    (unpaused : run.group.sourcePaused = false) (undone : ¬ (run.group.pending = [] ∧ run.handed = [])) :
    ¬ KeepsItems (closeStep scope storage run .returned) := by
  have live := sound.epoch epoch
  have calm : run.raised = [] := by
    rw [endsWith, Bool.and_eq_true] at ended
    exact List.isEmpty_iff.mp ended.2
  have unfailed : (run.group.slots.rows.filterMap fun row => row.2.error) = [] := by
    rw [List.filterMap_eq_nil_iff]
    intro row member
    exact (live.covered unpaused calm row.1 row.2 (slot_of_row.mpr member)).1
  obtain ⟨ordinary, unstopped⟩ := live.ordinary unpaused
  have concluded : run.group.afterEpoch scope storage .returned = (run.group, some (.returned false run.group.values)) := by
    rw [NodeGroup.afterEpoch, NodeGroup.settle, unfailed]
    simp [ordinary]
  obtain ⟨item, waiting⟩ : ∃ item, item ∈ run.live := by
    by_contra none
    refine undone ⟨List.eq_nil_iff_forall_not_mem.mpr fun item member => none ⟨item, ?_⟩,
      List.eq_nil_iff_forall_not_mem.mpr fun item member => none ⟨item, ?_⟩⟩
    · exact List.mem_append_left _ (List.mem_append_left _ member)
    · exact List.mem_append_left _ (List.mem_append_right _ member)
  obtain ⟨slot, found, incomplete, _⟩ := live.opened item waiting
  rw [closeStep, concluded]
  intro keeps
  obtain ⟨results, keys, _, values⟩ := keeps.returned _ rfl unstopped
  have counted : (run.group.slots.rows.filter fun row => row.2.complete).length = run.group.slots.rows.length := by
    have lengths := congrArg List.length values
    have slots := congrArg List.length keys
    rw [← sound.order, slotKeys, List.length_map, List.length_map] at slots
    rw [NodeGroup.values, List.length_map, List.length_map] at lengths
    exact lengths.trans slots
  have complete := List.length_filter_eq_length_iff.mp counted (item.id, slot) (slot_of_row.mp found)
  rw [incomplete] at complete
  cases complete

instance (run : GroupRun π ω) (label : GroupLabel π ω) : Decidable (CleanStep run label) :=
  match label with
  | .pull _ read => inferInstanceAs (Decidable (run.group.readsSource = true → leftBehind (slotKeys run.group.slots) read = []))
  | .ends _ .returned =>
      if unpaused : run.group.sourcePaused = false then
        if pending : run.group.pending.isEmpty = true then
          if handed : run.handed.isEmpty = true then .isTrue fun _ => ⟨List.isEmpty_iff.mp pending, List.isEmpty_iff.mp handed⟩
          else .isFalse fun clean => handed (List.isEmpty_iff.mpr (clean unpaused).2)
        else .isFalse fun clean => pending (List.isEmpty_iff.mpr (clean unpaused).1)
      else .isTrue fun paused => absurd paused unpaused
  | .ends _ (.raised _) => .isTrue trivial
  | .begins _ => .isTrue trivial
  | .finishes _ _ => .isTrue trivial
  | .cancels _ => .isTrue trivial
  | .resumes _ _ _ => .isTrue trivial

def cleanStep (scope : GroupScope) (run : GroupRun π ω) (label : GroupLabel π ω) : Option (GroupRun π ω) :=
  if CleanStep run label then groupStep scope run label else none

theorem cleanly_of_labels {labels : List (GroupLabel π ω)} (reached : CleanlyReached scope run)
    (computed : labels.foldlM (cleanStep scope) run = some next) : CleanlyReached scope next := by
  induction labels generalizing run with
  | nil =>
      cases computed
      exact reached
  | cons label rest ih =>
      rw [List.foldlM_cons] at computed
      obtain ⟨after, first, later⟩ := Option.bind_eq_some_iff.mp computed
      rw [cleanStep] at first
      by_cases clean : CleanStep run label
      · rw [if_pos clean] at first
        exact ih (reached.step clean first) later
      · rw [if_neg clean] at first
        cases first

-- Every item is kept in every run whose pulls leave nothing behind and whose runners return from ordinary
-- work only when they have run all they were handed; any other step loses one.
theorem node_group_keeps_items (reached : CleanlyReached scope run) :
    KeepsItems run ∧ ∀ (next : GroupRun π ω) (label : GroupLabel π ω), groupStep scope run label = some next →
      (KeepsItems next ↔ CleanStep run label) := by
  have sound := cleanly_sound reached
  refine ⟨sound_keeps sound, fun next label stepped => ⟨fun keeps => ?_,
    fun clean => sound_keeps (step_sound sound clean stepped)⟩⟩
  cases label with
  | pull maxItems read =>
      intro reads
      by_contra behind
      rw [groupStep] at stepped
      by_cases allowed : (run.active && decide (1 ≤ maxItems)) = true
      · rw [if_pos allowed] at stepped
        cases stepped
        exact unclean_pull_loses sound reads behind keeps
      · rw [if_neg allowed] at stepped
        cases stepped
  | ends storage ending =>
      cases ending with
      | raised error => trivial
      | returned =>
          intro unpaused
          by_contra undone
          rw [groupStep] at stepped
          by_cases allowed : (run.active && endsWith run .returned) = true
          · rw [if_pos allowed] at stepped
            cases stepped
            rw [Bool.and_eq_true] at allowed
            exact unclean_return_misses sound (active_epoch allowed.1) allowed.2 unpaused undone keeps
          · rw [if_neg allowed] at stepped
            cases stepped
  | begins place => trivial
  | finishes place outcome => trivial
  | cancels place => trivial
  | resumes storage entries stopAdmission => trivial

def fetchScope : GroupScope := ⟨"fetch", "session", ["fetch"], false⟩

def fetchOwner : ExecutionOwner := ⟨"first", "fetch", 1, "instance", 1, "session", ["fetch"], 1, 1, none⟩

def fetchStorage : GroupStorage Unit where
  readJobOwnerObservation := fun _ _ => .ok (some ⟨"instance", 2, .queued, none, none, none, .last, some fetchOwner, none⟩)
  readJobControl := fun _ _ => .ok ⟨2, none, some 5⟩
  loadJob := fun _ _ => .ok ()

def fetchFailure : OutcomeError := ⟨.jobFailed, some ⟨"fetch", 1, 1, "first"⟩⟩

def replacedRun : List (GroupLabel Unit Nat) :=
  [.pull 64 (.items [.jobId 1, .jobId 2]), .begins 0, .finishes 0 (.error fetchFailure),
    .ends fetchStorage (.raised fetchFailure),
    .pull 64 (.items []), .begins 0, .finishes 0 (.ok 7), .ends fetchStorage .returned,
    .pull 64 (.items []), .begins 0, .finishes 0 (.ok 8), .ends fetchStorage .returned]

theorem node_group_keeps_items_replaced : ∃ run : GroupRun Unit Nat, replacedRun.foldlM (cleanStep fetchScope) .start = some run ∧
    run.phase = .ended (.returned false [some 7, some 8]) ∧ KeepsItems run :=
  ⟨_, rfl, rfl, (node_group_keeps_items (@cleanly_of_labels _ _ _ _ fetchScope replacedRun .start rfl)).1⟩

def earlyRun : List (GroupLabel Unit Nat) :=
  [.pull 64 (.items [.jobId 1, .jobId 2]), .begins 0, .finishes 0 (.ok 7), .ends fetchStorage .returned]

theorem early_return_misses_job : ∃ run : GroupRun Unit Nat, earlyRun.foldlM (groupStep fetchScope) .start = some run ∧
    run.phase = .ended (.returned false [some 7]) ∧ ¬ KeepsItems run := by
  refine ⟨_, rfl, rfl, fun keeps => ?_⟩
  obtain ⟨results, keys, _, values⟩ := keeps.returned [some 7] rfl rfl
  have two := congrArg List.length keys
  have one := congrArg List.length values
  rw [List.length_map] at two one
  exact absurd (one.trans two) (by decide)

end Epochs

end MicroWorkflow
