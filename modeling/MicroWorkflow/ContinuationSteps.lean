import Mathlib.Data.List.Perm.Basic
import MicroWorkflow.NodeContinuation

set_option autoImplicit false

namespace MicroWorkflow

open Lib (Table)

variable {π ω : Type}

section Pull

variable {run : GroupRun π ω}

theorem mem_behind_repeat {slots : Table (Prod.fst : Nat × GroupSlot π ω → Nat)} {items : List (SourceItem π)} {key : Nat} :
    key ∈ behindRepeat (slotKeys slots) (items.map SourceItem.id) ↔
      key ∈ items.map SourceItem.id ∧ key ∉ slotKeys slots ++ admittedIds slots items := by
  induction items generalizing slots with
  | nil => simp [behindRepeat, admittedIds]
  | cons item rest ih =>
      rw [List.map_cons, behindRepeat, admittedIds]
      cases inserted : slots.insert (item.id, .fresh item) with
      | none =>
          have known : item.id ∈ slotKeys slots := by
            by_contra fresh
            obtain ⟨grown, added⟩ := Table.insert_free (t := slots) (r := (item.id, GroupSlot.fresh item)) (slot_free.mpr fresh)
            rw [inserted] at added
            cases added
          rw [if_pos known]
          dsimp only
          rw [List.append_nil, List.mem_filter, List.mem_cons]
          constructor
          · rintro ⟨member, fresh⟩
            exact ⟨.inr member, by simpa using fresh⟩
          · rintro ⟨rfl | member, fresh⟩
            · exact absurd known fresh
            · exact ⟨member, by simpa using fresh⟩
      | some grown =>
          obtain ⟨fresh, keys, _⟩ := slot_insert inserted
          rw [if_neg fresh, ← keys, ih, keys]
          dsimp only
          rw [List.append_assoc, List.singleton_append, List.mem_cons]
          constructor
          · rintro ⟨member, apart⟩
            exact ⟨.inr member, apart⟩
          · rintro ⟨rfl | member, apart⟩
            · exact absurd (List.mem_append_right _ List.mem_cons_self) apart
            · exact ⟨member, apart⟩

theorem left_behind_nil {read : SourceRead π} :
    leftBehind (slotKeys run.group.slots) read = [] ↔
      ∀ key ∈ read.read.map SourceItem.id, key ∈ slotKeys run.group.slots ++ read.admitted run.group.slots := by
  rw [List.eq_nil_iff_forall_not_mem]
  refine forall_congr' fun key => ?_
  have behind : key ∈ leftBehind (slotKeys run.group.slots) read ↔
      key ∈ read.read.map SourceItem.id ∧ key ∉ slotKeys run.group.slots ++ read.admitted run.group.slots := by
    cases read with
    | items items => exact mem_behind_repeat
    | fails error read =>
        rw [leftBehind, SourceRead.admitted, List.append_nil, List.mem_filter, decide_eq_true_iff]
        rfl
  rw [behind]
  exact ⟨fun apart member => by_contra fun fresh => apart ⟨member, fresh⟩, fun known both => both.2 (known both.1)⟩

theorem reads_source {group : NodeGroup π ω} : group.readsSource = true ↔ group.pending = [] ∧ group.sourcePaused = false := by
  simp [NodeGroup.readsSource]

theorem pull_source {group : NodeGroup π ω} (reads : group.readsSource = true) (maxItems : Nat) (read : SourceRead π) :
    group.pull maxItems read =
      match read with
      | .fails error _ => (group, .error error)
      | .items items =>
          ({ group with slots := (admitItems group.slots items).1 },
            if (admitItems group.slots items).2 then .ok items else .error admittedTwice) := by
  obtain ⟨drained, unpaused⟩ := reads_source.mp reads
  have held : ¬ group.pending.isEmpty = false := by simp [drained]
  have free : ¬ group.sourcePaused = true := by simp [unpaused]
  exact (if_neg held).trans (if_neg free)

theorem pull_held {group : NodeGroup π ω} (unread : group.readsSource = false) (maxItems : Nat) (read : SourceRead π) :
    group.pull maxItems read =
      ({ group with pending := group.pending.drop maxItems }, .ok (group.pending.take maxItems)) := by
  by_cases drained : group.pending = []
  · have held : ¬ group.pending.isEmpty = false := by simp [drained]
    have paused : group.sourcePaused = true := by simpa [NodeGroup.readsSource, drained] using unread
    refine ((if_neg held).trans (if_pos paused)).trans ?_
    rw [drained, List.drop_nil, List.take_nil, ← drained]
  · exact if_pos (by simpa using drained)

end Pull

section Steps

variable {run next : GroupRun π ω} {scope : GroupScope}

theorem epoch_moved (sound : EpochSound run) (moved : next.live.Perm run.live)
    (framed : ∃ pending, next.group = { run.group with pending := pending }) (raised : next.raised = run.raised)
    (settling : next.settling = run.settling) (accepted : next.accepted = run.accepted) : EpochSound next := by
  obtain ⟨pending, framed⟩ := framed
  have named := moved.map SourceItem.id
  refine ⟨named.nodup_iff.mpr sound.nodup, ?_, ?_, ?_, ?_, ?_⟩
  · intro item member
    rw [framed]
    exact sound.opened item (moved.mem_iff.mp member)
  · rw [framed, raised]
    intro unpaused calm key slot found
    obtain ⟨unfailed, waiting⟩ := sound.covered unpaused calm key slot found
    exact ⟨unfailed, fun incomplete => named.mem_iff.mpr (waiting incomplete)⟩
  · rw [framed]
    exact sound.ordinary
  · rw [framed]
    exact sound.paused
  · rw [framed, settling, accepted]
    intro unsettled
    obtain ⟨paused, known⟩ := sound.settled unsettled
    exact ⟨paused, fun item member => known item (moved.mem_iff.mp member)⟩

theorem epoch_dropped (sound : EpochSound run) (dropped : List (SourceItem π)) (kept : (next.live ++ dropped).Perm run.live)
    (framed : next.group = run.group) (raised : next.raised ≠ []) (settling : next.settling = run.settling)
    (accepted : next.accepted = run.accepted) : EpochSound next := by
  have inside : ∀ item ∈ next.live, item ∈ run.live := fun item member => kept.mem_iff.mp (List.mem_append_left _ member)
  refine ⟨?_, ?_, ?_, ?_, ?_, ?_⟩
  · have whole := (kept.map SourceItem.id).nodup_iff.mpr sound.nodup
    rw [List.map_append] at whole
    exact (List.nodup_append.mp whole).1
  · intro item member
    rw [framed]
    exact sound.opened item (inside item member)
  · intro _ calm
    exact absurd calm raised
  · rw [framed]
    exact sound.ordinary
  · rw [framed]
    exact sound.paused
  · rw [framed, settling, accepted]
    intro unsettled
    obtain ⟨paused, known⟩ := sound.settled unsettled
    exact ⟨paused, fun item member => known item (inside item member)⟩

theorem working (epoch : run.phase = .epoch) : run.active = true := by
  rw [GroupRun.active, epoch]

theorem not_over (epoch : run.phase = .epoch) {ending : GroupEnd ω} : run.phase ≠ .ended ending := by
  rw [epoch]
  nofun

theorem pull_unread_sound (sound : RunSound run) (epoch : run.phase = .epoch) (unread : run.group.readsSource = false)
    (maxItems : Nat) (read : SourceRead π) :
    RunSound (pullStep run maxItems read) := by
  have ids : readIds run.group read = [] := by rw [readIds, unread]; rfl
  have admitted : newAdmissions run.group read = [] := by rw [newAdmissions, unread]; rfl
  rw [pullStep, pull_held unread, ids, admitted]
  dsimp only [GroupRun.take]
  rw [List.append_nil, List.append_nil]
  refine ⟨sound.order, sound.kept, sound.slots, sound.values, sound.unknown, sound.begun, fun _ => ?_, sound.returned,
    fun inactive => absurd ((working epoch).symm.trans inactive) nofun⟩
  refine epoch_moved (sound.epoch epoch) ?_ ⟨_, rfl⟩ rfl rfl rfl
  show (run.group.pending.drop maxItems ++ (run.handed ++ run.group.pending.take maxItems) ++ run.running).Perm
    (run.group.pending ++ run.handed ++ run.running)
  refine List.Perm.append_right run.running ?_
  rw [← List.append_assoc]
  refine List.perm_append_comm.trans ?_
  rw [← List.append_assoc, List.take_append_drop]

theorem pull_fails_sound (sound : RunSound run) (epoch : run.phase = .epoch) (reads : run.group.readsSource = true)
    (maxItems : Nat) (error : OutcomeError)
    {read : List (SourceItem π)} (known : ∀ key ∈ read.map SourceItem.id, key ∈ slotKeys run.group.slots) :
    RunSound (pullStep run maxItems (.fails error read)) := by
  have ids : readIds run.group (.fails error read) = read.map SourceItem.id := by rw [readIds, reads]; rfl
  have admitted : newAdmissions run.group (.fails error read) = [] := by rw [newAdmissions, reads]; rfl
  rw [pullStep, pull_source reads, ids, admitted]
  dsimp only [GroupRun.take]
  rw [List.append_nil]
  refine ⟨sound.order, fun jobId member => ?_, sound.slots, sound.values, sound.unknown, sound.begun, fun _ => ?_, sound.returned,
    fun inactive => absurd ((working epoch).symm.trans inactive) nofun⟩
  · rcases List.mem_append.mp member with before | now
    · exact sound.kept jobId before
    · rw [← sound.order]
      exact known jobId now
  · refine epoch_dropped (sound.epoch epoch) [] ?_ rfl ?_ rfl rfl
    · rw [List.append_nil]
      exact .refl _
    · exact List.append_ne_nil_of_right_ne_nil _ nofun

theorem admitted_whole {slots : Table (Prod.fst : Nat × GroupSlot π ω → Nat)} {items : List (SourceItem π)}
    (all : (admitItems slots items).2 = true) :
    (items.map SourceItem.id).Nodup ∧ ∀ key ∈ slotKeys slots, key ∉ items.map SourceItem.id := by
  obtain ⟨keys, _, _, whole⟩ := admit_items_spec slots items
  have distinct : (slotKeys (admitItems slots items).1).Nodup := (admitItems slots items).1.nodup
  rw [keys, whole all] at distinct
  obtain ⟨_, fresh, apart⟩ := List.nodup_append.mp distinct
  exact ⟨fresh, fun key old new => apart key old key new rfl⟩

theorem admitted_slot {slots : Table (Prod.fst : Nat × GroupSlot π ω → Nat)} {items : List (SourceItem π)} {key : Nat}
    {slot : GroupSlot π ω} (found : slotOf (admitItems slots items).1 key = some slot) :
    slotOf slots key = some slot ∨ key ∉ slotKeys slots ∧ ∃ item ∈ items, item.id = key ∧ slot = .fresh item := by
  obtain ⟨_, kept, origin, _⟩ := admit_items_spec slots items
  rcases origin key slot found with before | new
  · exact .inl before
  · by_cases old : key ∈ slotKeys slots
    · obtain ⟨other, here⟩ := mem_slot_keys.mp old
      have same := kept key other here
      rw [found] at same
      cases same
      exact .inl here
    · exact .inr ⟨old, new⟩

theorem pull_items_sound (sound : RunSound run) (epoch : run.phase = .epoch) (reads : run.group.readsSource = true)
    (maxItems : Nat) {items : List (SourceItem π)}
    (known : ∀ key ∈ items.map SourceItem.id, key ∈ slotKeys run.group.slots ++ admittedIds run.group.slots items) :
    RunSound (pullStep run maxItems (.items items)) := by
  have ids : readIds run.group (.items items) = items.map SourceItem.id := by rw [readIds, reads]; rfl
  have admitted : newAdmissions run.group (.items items) = admittedIds run.group.slots items := by
    rw [newAdmissions, reads]; rfl
  have live := sound.epoch epoch
  obtain ⟨drained, unpaused⟩ := reads_source.mp reads
  obtain ⟨keys, kept, _, _⟩ := admit_items_spec run.group.slots items
  have order : slotKeys (admitItems run.group.slots items).1 = run.admissions ++ admittedIds run.group.slots items := by
    rw [keys, sound.order]
  have taken : ∀ jobId ∈ run.taken ++ items.map SourceItem.id, jobId ∈ run.admissions ++ admittedIds run.group.slots items := by
    intro jobId member
    rcases List.mem_append.mp member with before | now
    · exact List.mem_append_left _ (sound.kept jobId before)
    · rw [← sound.order]
      exact known jobId now
  have slots : ∀ key slot, slotOf (admitItems run.group.slots items).1 key = some slot →
      SlotSound run.accepted run.finished key slot := by
    intro key slot found
    rcases admitted_slot found with before | ⟨unslotted, item, _, rfl, rfl⟩
    · exact sound.slots key slot before
    · exact ⟨rfl, (sound.unknown _ unslotted).symm, nofun, nofun, nofun⟩
  have values : ∀ jobId value, (jobId, value) ∈ run.finished → ∃ slot,
      slotOf (admitItems run.group.slots items).1 jobId = some slot ∧ slot.complete = true ∧ slot.value = some value := by
    intro jobId value member
    obtain ⟨slot, found, facts⟩ := sound.values jobId value member
    exact ⟨slot, kept jobId slot found, facts⟩
  have unknown : ∀ key, key ∉ slotKeys (admitItems run.group.slots items).1 → run.accepted key = none := by
    intro key absent
    refine sound.unknown key fun old => absent ?_
    rw [keys]
    exact List.mem_append_left _ old
  have opened : ∀ item ∈ run.live, ∃ slot, slotOf (admitItems run.group.slots items).1 item.id = some slot ∧
      slot.complete = false ∧ slot.error = none := by
    intro item member
    obtain ⟨slot, found, facts⟩ := live.opened item member
    exact ⟨slot, kept _ slot found, facts⟩
  have unsettled : run.settling = true → False := by
    intro settling
    rw [(live.settled settling).1] at unpaused
    cases unpaused
  rw [pullStep, pull_source reads, ids, admitted]
  dsimp only
  cases all : (admitItems run.group.slots items).2 with
  | true =>
      dsimp only [GroupRun.take, if_true]
      refine ⟨order, taken, slots, values, unknown, sound.begun, fun _ => ?_,
        fun _ concluded => absurd concluded (not_over epoch),
        fun inactive => absurd ((working epoch).symm.trans inactive) nofun⟩
      · have moved : (run.group.pending ++ (run.handed ++ items) ++ run.running).Perm (run.live ++ items) := by
          rw [GroupRun.live, List.append_assoc, List.append_assoc, List.append_assoc, List.append_assoc]
          exact .append_left _ (.append_left _ List.perm_append_comm)
        have named := moved.map SourceItem.id
        refine ⟨?_, ?_, ?_, fun _ => live.ordinary unpaused, fun paused => ?_, fun settling => (unsettled settling).elim⟩
        · refine named.nodup_iff.mpr ?_
          rw [List.map_append]
          obtain ⟨newNodup, apart⟩ := admitted_whole all
          refine List.nodup_append.mpr ⟨live.nodup, newNodup, fun key old other new => ?_⟩
          obtain ⟨item, member, rfl⟩ := List.mem_map.mp old
          obtain ⟨slot, found, _⟩ := live.opened item member
          rintro rfl
          exact apart _ (mem_slot_keys.mpr ⟨slot, found⟩) new
        · intro item member
          rcases List.mem_append.mp (moved.mem_iff.mp member) with old | new
          · exact opened item old
          · have inside : item.id ∈ slotKeys (admitItems run.group.slots items).1 := by
              rw [keys]
              exact known item.id (List.mem_map_of_mem new)
            obtain ⟨slot, found⟩ := mem_slot_keys.mp inside
            have unslotted : item.id ∉ slotKeys run.group.slots := fun old =>
              (admitted_whole all).2 _ old (List.mem_map_of_mem new)
            rcases admitted_slot found with before | ⟨_, other, _, _, rfl⟩
            · exact absurd (mem_slot_keys.mpr ⟨slot, before⟩) unslotted
            · exact ⟨_, found, rfl, rfl⟩
        · intro _ calm key slot found
          rcases admitted_slot found with before | ⟨_, item, member, rfl, rfl⟩
          · obtain ⟨unfailed, waiting⟩ := live.covered unpaused calm key slot before
            refine ⟨unfailed, fun incomplete => named.mem_iff.mpr ?_⟩
            rw [List.map_append]
            exact List.mem_append_left _ (waiting incomplete)
          · refine ⟨rfl, fun _ => named.mem_iff.mpr ?_⟩
            rw [List.map_append]
            exact List.mem_append_right _ (List.mem_map_of_mem member)
        · rw [unpaused] at paused
          cases paused
  | false =>
      dsimp only [GroupRun.take, if_false]
      refine ⟨order, taken, slots, values, unknown, sound.begun, fun _ => ?_,
        fun _ concluded => absurd concluded (not_over epoch),
        fun inactive => absurd ((working epoch).symm.trans inactive) nofun⟩
      · refine ⟨live.nodup, opened, fun _ calm => ?_, fun _ => live.ordinary unpaused, fun paused => ?_,
          fun settling => (unsettled settling).elim⟩
        · exact absurd calm (List.append_ne_nil_of_right_ne_nil _ nofun)
        · rw [unpaused] at paused
          cases paused

theorem erase_place {items : List (SourceItem π)} {place : Nat} {item : SourceItem π} (here : items[place]? = some item) :
    (item :: items.eraseIdx place).Perm items := by
  obtain ⟨inside, rfl⟩ := List.getElem?_eq_some_iff.mp here
  exact List.getElem_cons_eraseIdx_perm inside

theorem begin_sound (sound : RunSound run) (epoch : run.phase = .epoch) {place : Nat} {item : SourceItem π}
    {slot : GroupSlot π ω} (here : run.handed[place]? = some item) (found : slotOf run.group.slots item.id = some slot) :
    RunSound (beginStep run place item slot) := by
  have live := sound.epoch epoch
  have member : item ∈ run.live :=
    List.mem_append_left _ (List.mem_append_right _ (List.mem_of_getElem? here))
  refine ⟨sound.order, sound.kept, sound.slots, sound.values, sound.unknown, fun begun listed => ?_, fun _ => ?_,
    sound.returned, fun inactive => absurd ((working epoch).symm.trans inactive) nofun⟩
  · rcases List.mem_append.mp listed with before | now
    · exact sound.begun begun before
    · rw [List.mem_singleton.mp now]
      exact ⟨fun settling => (live.settled settling).2 item member, (sound.slots item.id slot found).latest⟩
  · refine epoch_moved live ?_ ⟨_, rfl⟩ rfl rfl rfl
    show (run.group.pending ++ run.handed.eraseIdx place ++ (run.running ++ [item])).Perm (run.group.pending ++
      run.handed ++ run.running)
    rw [List.append_assoc, List.append_assoc]
    refine List.Perm.append_left run.group.pending ?_
    refine List.Perm.trans ?_ ((erase_place here).append_right run.running)
    rw [← List.append_assoc]
    exact List.perm_append_comm

theorem cancel_sound (sound : RunSound run) (epoch : run.phase = .epoch) {place : Nat} {item : SourceItem π}
    (here : run.running[place]? = some item)
    (raised : run.raised ≠ []) : RunSound { run with running := run.running.eraseIdx place } := by
  refine ⟨sound.order, sound.kept, sound.slots, sound.values, sound.unknown, sound.begun, fun _ => ?_, sound.returned,
    fun inactive => absurd ((working epoch).symm.trans inactive) nofun⟩
  refine epoch_dropped (sound.epoch epoch) [item] ?_ rfl raised rfl rfl
  show (run.group.pending ++ run.handed ++ run.running.eraseIdx place ++ [item]).Perm (run.group.pending ++
    run.handed ++ run.running)
  rw [List.append_assoc]
  exact .append_left _ (List.perm_append_comm.trans (erase_place here))

theorem finishing {place : Nat} {item : SourceItem π} (live : EpochSound run) (here : run.running[place]? = some item) :
    OpenSlot run.group item.id ∧
      let left := run.group.pending ++ run.handed ++ run.running.eraseIdx place
      (item :: left).Perm run.live ∧ (left.map SourceItem.id).Nodup ∧ ∀ other ∈ left, other.id ≠ item.id := by
  have kept : (item :: (run.group.pending ++ run.handed ++ run.running.eraseIdx place)).Perm run.live :=
    List.perm_middle.symm.trans (.append_left _ (erase_place here))
  have distinct := (kept.map SourceItem.id).nodup_iff.mpr live.nodup
  rw [List.map_cons, List.nodup_cons] at distinct
  refine ⟨live.opened item (kept.mem_iff.mp List.mem_cons_self), kept, distinct.2, fun other member same => ?_⟩
  exact distinct.1 (same ▸ List.mem_map_of_mem member)

theorem recorded {group : NodeGroup π ω} {item : SourceItem π} {outcome : Except OutcomeError ω} {slot : GroupSlot π ω}
    (heard : ignored scope outcome = false) (found : slotOf group.slots item.id = some slot) :
    slotOf (group.recordOutcome scope item outcome).slots item.id = some (slot.record outcome) ∧
      ∀ key, key ≠ item.id → slotOf (group.recordOutcome scope item outcome).slots key = slotOf group.slots key := by
  constructor
  · rw [slot_record item heard, found, Option.map_some, if_pos rfl]
  · intro key different
    rw [slot_record item heard]
    cases slotOf group.slots key with
    | none => rfl
    | some slot => rw [Option.map_some, if_neg different]

theorem record_flags {group : NodeGroup π ω} (item : SourceItem π) (outcome : Except OutcomeError ω) :
    group.recordOutcome scope item outcome = { group with slots := (group.recordOutcome scope item outcome).slots } := by
  rw [NodeGroup.recordOutcome]
  split
  · rfl
  · rfl

theorem finished_elsewhere (sound : RunSound run) {key jobId : Nat} {slot : GroupSlot π ω} {value : ω}
    (found : slotOf run.group.slots key = some slot) (incomplete : slot.complete = false)
    (member : (jobId, value) ∈ run.finished) : jobId ≠ key := by
  rintro rfl
  obtain ⟨known, here, complete, _⟩ := sound.values jobId value member
  rw [found] at here
  cases here
  rw [incomplete] at complete
  cases complete

theorem finish_value_sound (sound : RunSound run) (epoch : run.phase = .epoch) {place : Nat} {item : SourceItem π}
    (here : run.running[place]? = some item) (value : ω) : RunSound (finishStep scope run place item (.ok value)) := by
  have live := sound.epoch epoch
  obtain ⟨⟨own, ownFound, ownOpen, ownUnfailed⟩, kept, leftNodup, apart⟩ := finishing live here
  have heard : ignored scope (.ok value) = false := rfl
  obtain ⟨mine, other⟩ := recorded heard ownFound
  have ownSound := sound.slots item.id own ownFound
  have keys : slotKeys (run.group.recordOutcome scope item (.ok value)).slots = slotKeys run.group.slots :=
    record_keys item (.ok value)
  rw [finishStep]
  dsimp only
  refine ⟨keys.trans sound.order, sound.kept, ?_, ?_, ?_, sound.begun, fun _ => ?_,
    fun _ concluded => absurd concluded (not_over epoch), fun inactive => absurd ((working epoch).symm.trans inactive) nofun⟩
  · intro key slot found
    by_cases named : key = item.id
    · subst named
      rw [mine] at found
      cases found
      exact ⟨ownSound.item, ownSound.latest, fun failed => absurd failed (by simp [GroupSlot.record, ownUnfailed]),
        ownSound.attempt,
        fun _ => ⟨value, rfl, List.mem_append_right _ List.mem_cons_self⟩⟩
    · rw [other key named] at found
      obtain ⟨itemId, latest, failed, attempt, valued⟩ := sound.slots key slot found
      refine ⟨itemId, latest, failed, attempt, fun complete => ?_⟩
      obtain ⟨earlier, known, member⟩ := valued complete
      exact ⟨earlier, known, List.mem_append_left _ member⟩
  · intro jobId result member
    rcases List.mem_append.mp member with before | now
    · obtain ⟨slot, found, complete, known⟩ := sound.values jobId result before
      have different := finished_elsewhere sound ownFound ownOpen before
      exact ⟨slot, (other jobId different).trans found, complete, known⟩
    · cases List.mem_singleton.mp now
      exact ⟨_, mine, rfl, rfl⟩
  · intro key absent
    rw [keys] at absent
    exact sound.unknown key absent
  · refine ⟨leftNodup, ?_, ?_, live.ordinary, ?_, ?_⟩
    · intro waiting member
      obtain ⟨slot, found, facts⟩ := live.opened waiting (kept.mem_iff.mp (List.mem_cons_of_mem item member))
      exact ⟨slot, (other _ (apart waiting member)).trans found, facts⟩
    · intro unpaused calm key slot found
      by_cases named : key = item.id
      · subst named
        rw [mine] at found
        cases found
        exact ⟨ownUnfailed, fun incomplete => by cases incomplete⟩
      · rw [other key named] at found
        obtain ⟨unfailed, waiting⟩ := live.covered unpaused calm key slot found
        refine ⟨unfailed, fun incomplete => ?_⟩
        have member := (kept.map SourceItem.id).mem_iff.mpr (waiting incomplete)
        rcases List.mem_cons.mp member with itself | left
        · exact absurd itself named
        · exact left
    · intro paused
      rcases live.paused paused with stopped | replacing | ⟨key, slot, found, failed⟩
      · exact .inl stopped
      · exact .inr (.inl replacing)
      · have different : key ≠ item.id := by
          rintro rfl
          rw [ownFound] at found
          cases found
          rw [ownUnfailed] at failed
          cases failed
        exact .inr (.inr ⟨key, slot, (other key different).trans found, failed⟩)
    · intro settling
      obtain ⟨paused, known⟩ := live.settled settling
      exact ⟨paused, fun waiting member => known waiting (kept.mem_iff.mp (List.mem_cons_of_mem item member))⟩

theorem finish_error_sound (sound : RunSound run) (epoch : run.phase = .epoch) {place : Nat} {item : SourceItem π}
    (here : run.running[place]? = some item) {error : OutcomeError}
    (own : ∀ attempt, error.replaceable = some attempt → attempt.jobId = item.id) :
    RunSound (finishStep scope run place item (.error error)) := by
  have live := sound.epoch epoch
  obtain ⟨⟨slot, slotFound, slotOpen, slotUnfailed⟩, kept, leftNodup, apart⟩ := finishing live here
  have raised : run.raised ++ [error] ≠ [] := List.append_ne_nil_of_right_ne_nil _ nofun
  rw [finishStep]
  dsimp only
  cases heard : ignored scope (.error error : Except OutcomeError ω) with
  | true =>
      have unchanged : run.group.recordOutcome scope item (.error error) = run.group := if_pos heard
      rw [unchanged]
      refine ⟨sound.order, sound.kept, sound.slots, sound.values, sound.unknown, sound.begun, fun _ => ?_, sound.returned,
        fun inactive => absurd ((working epoch).symm.trans inactive) nofun⟩
      exact epoch_dropped live [item] (List.perm_append_comm.trans kept) rfl raised rfl rfl
  | false =>
      obtain ⟨mine, other⟩ := recorded heard slotFound
      have slotSound := sound.slots item.id slot slotFound
      have keys := @record_keys _ _ run.group scope item (.error error)
      have flags := @record_flags _ _ scope run.group item (.error error)
      refine ⟨keys.trans sound.order, sound.kept, ?_, ?_, ?_, sound.begun, fun _ => ?_,
        fun _ concluded => absurd concluded (not_over epoch), fun inactive => absurd ((working epoch).symm.trans inactive) nofun⟩
      · intro key found' found
        by_cases named : key = item.id
        · subst named
          rw [mine] at found
          cases found
          exact ⟨slotSound.item, slotSound.latest, fun _ => slotOpen, own, slotSound.valued⟩
        · rw [other key named] at found
          exact sound.slots key found' found
      · intro jobId result member
        obtain ⟨known, found, complete, value⟩ := sound.values jobId result member
        have different := finished_elsewhere sound slotFound slotOpen member
        exact ⟨known, (other jobId different).trans found, complete, value⟩
      · intro key absent
        rw [keys] at absent
        exact sound.unknown key absent
      · refine ⟨?_, ?_, fun _ calm => absurd calm raised, ?_, ?_, ?_⟩
        · rw [GroupRun.live, flags]
          exact leftNodup
        · rw [GroupRun.live, flags]
          intro waiting member
          obtain ⟨known, found, facts⟩ := live.opened waiting (kept.mem_iff.mp (List.mem_cons_of_mem item member))
          exact ⟨known, (other _ (apart waiting member)).trans found, facts⟩
        · rw [flags]
          exact live.ordinary
        · rw [flags]
          intro _
          exact .inr (.inr ⟨item.id, _, mine, rfl⟩)
        · rw [GroupRun.live, flags]
          intro settling
          obtain ⟨paused, known⟩ := live.settled settling
          exact ⟨paused, fun waiting member => known waiting (kept.mem_iff.mp (List.mem_cons_of_mem item member))⟩

end Steps

end MicroWorkflow
