import MicroWorkflow.StagingLayout

set_option autoImplicit false

namespace MicroWorkflow.PreparationStaging

open Lib (Script)

variable {sha256 : List UInt8 → String} {files : PreparationStaging} {base disk later : Disk}

def Arranged (files : PreparationStaging) (base disk : Disk) : Prop := ∃ state, Layout files base state disk

theorem place_keeps {replacement : StagedReplacement} (inside : replacement ∈ files.manifest.replacements) :
    Script.Keeps (Arranged files base)
      (Script.change (Lib.FileTree.move (files.savedPath replacement.saved) replacement.path)) := by
  refine Script.keeps_change fun disk later arranged moved => ?_
  obtain ⟨state, layout⟩ := arranged
  obtain ⟨item, member, same⟩ := files.sound.covered replacement inside
  exact ⟨_, place_layout layout member inside same moved⟩

theorem detach_keeps (recorded : Recorded sha256 files base) {replacement : StagedReplacement}
    (inside : replacement ∈ files.manifest.replacements) :
    Script.Keeps (Arranged files base)
      (Script.change (Lib.FileTree.move replacement.path (files.savedPath replacement.saved))) := by
  refine Script.keeps_change fun disk later arranged moved => ?_
  obtain ⟨state, layout⟩ := arranged
  obtain ⟨item, member, same⟩ := files.sound.covered replacement inside
  exact ⟨_, detach_layout recorded layout member inside same moved⟩

theorem stage_keeps (recorded : Recorded sha256 files base) :
    Script.Keeps (Arranged files base) (files.stage sha256) := by
  have take : ∀ item ∈ files.manifest.paths, Script.Keeps (Arranged files base) (files.stageOriginal sha256 item) := by
    intro item member
    unfold stageOriginal
    split
    · rename_i existed
      refine Script.keeps_bind Script.keeps_observe fun _ => Script.keeps_change fun disk later arranged moved => ?_
      obtain ⟨state, layout⟩ := arranged
      exact ⟨_, take_layout recorded layout member existed moved⟩
    · exact Script.keeps_pure ()
  have place : ∀ replacement ∈ files.manifest.replacements,
      Script.Keeps (Arranged files base) (files.placeReplacement sha256 replacement) :=
    fun replacement inside => Script.keeps_bind Script.keeps_observe fun _ => place_keeps inside
  exact Script.keeps_bind Script.keeps_observe fun _ => Script.keeps_bind Script.keeps_observe fun _ =>
    Script.keeps_bind (Script.keeps_forEach take) fun _ => Script.keeps_forEach place

theorem detach_replacement_keeps (recorded : Recorded sha256 files base) {replacement : StagedReplacement}
    (inside : replacement ∈ files.manifest.replacements) :
    Script.Keeps (Arranged files base) (files.detachReplacement sha256 replacement) :=
  Script.keeps_bind (detach_keeps recorded inside) fun _ =>
    Script.keeps_onRaise Script.keeps_observe (place_keeps inside)

theorem return_detached_keeps {detached : List StagedReplacement}
    (inside : ∀ replacement ∈ detached, replacement ∈ files.manifest.replacements) :
    Script.Keeps (Arranged files base) (files.returnDetached sha256 detached) :=
  Script.keeps_forEach fun replacement member =>
    Script.keeps_attempt (Script.keeps_bind Script.keeps_observe fun _ => place_keeps (inside replacement member))

theorem detach_all_keeps (recorded : Recorded sha256 files base) {steps : List (StagedPath × Bool)}
    {detached : List StagedReplacement} (inside : ∀ replacement ∈ detached, replacement ∈ files.manifest.replacements) :
    Script.Keeps (Arranged files base) (files.detachReplacements sha256 detached steps) := by
  induction steps generalizing detached with
  | nil => exact Script.keeps_pure ()
  | cons step rest ih =>
      obtain ⟨item, removes⟩ := step
      cases removes with
      | false => exact ih inside
      | true =>
          rw [detachReplacements]
          cases chosen : files.replacementOf item.path with
          | none => exact Script.keeps_onRaise Script.keeps_observe (return_detached_keeps inside)
          | some replacement =>
              have listed := (replacement_of chosen).1
              refine Script.keeps_bind (Script.keeps_onRaise ?_ (return_detached_keeps inside)) fun _ => ih ?_
              · exact Script.keeps_bind Script.keeps_observe fun _ => detach_replacement_keeps recorded listed
              · intro other member
                rcases List.mem_cons.mp member with rfl | old
                · exact listed
                · exact inside other old

theorem restore_original_keeps (recorded : Recorded sha256 files base) {item : StagedPath}
    (member : item ∈ files.manifest.paths) : Script.Keeps (Arranged files base) (files.restoreOriginal sha256 item) := by
  unfold restoreOriginal
  split
  · refine Script.keeps_bind Script.keeps_observe fun _ => Script.keeps_change fun disk later arranged moved => ?_
    obtain ⟨state, layout⟩ := arranged
    exact ⟨_, return_layout recorded layout member moved⟩
  · exact Script.keeps_pure ()

theorem replaced_ok {item : StagedPath} {found : TreeRecord} {result : Unit} :
    files.requireReplaced sha256 disk item found = .ok result ↔
      ∃ replacement, files.replacementOf item.path = some replacement ∧ found = replacement.tree ∧
        captureRecoveryTree sha256 disk (files.savedPath replacement.saved) = .ok none := by
  unfold requireReplaced
  cases chosen : files.replacementOf item.path with
  | none => simp
  | some replacement =>
      simp only [Lib.bind_ok, Lib.require_ok, decide_eq_true_eq]
      constructor
      · rintro ⟨_, same, detached, captured, rfl⟩
        exact ⟨replacement, rfl, same, captured⟩
      · rintro ⟨other, here, same, captured⟩
        obtain rfl := Option.some.inj here
        exact ⟨(), same, none, captured, rfl⟩

theorem restoration_step_ok {item : StagedPath} {step : Option (StagedPath × Bool)} :
    files.restorationStep sha256 disk item = .ok step ↔
      ∃ visible saved, captureRecoveryTree sha256 disk item.path = .ok visible ∧
        captureRecoveryTree sha256 disk (files.savedPath item.saved) = .ok saved ∧
        ((visible = item.original ∧ saved = none) ∧ step = none ∨
          ¬ (visible = item.original ∧ saved = none) ∧ saved = item.original ∧ step = some (item, visible.isSome) ∧
            ∀ found, visible = some found → files.requireReplaced sha256 disk item found = .ok ()) := by
  simp only [restorationStep, Lib.bind_ok]
  refine exists_congr fun visible => ?_
  constructor
  · rintro ⟨seen, saved, aside, decided⟩
    refine ⟨saved, seen, aside, ?_⟩
    split at decided
    · rename_i unmoved
      exact .inl ⟨unmoved, (Lib.pure_ok.mp decided).symm⟩
    · rename_i changed
      cases visible with
      | none =>
          simp only [Lib.bind_ok, Lib.require_ok, Lib.pure_ok, decide_eq_true_eq] at decided
          obtain ⟨_, original, rfl⟩ := decided
          exact .inr ⟨changed, original, rfl, fun _ same => by cases same⟩
      | some found =>
          simp only [Lib.bind_ok, Lib.require_ok, Lib.pure_ok, decide_eq_true_eq] at decided
          obtain ⟨_, replaced, _, original, rfl⟩ := decided
          refine .inr ⟨changed, original, rfl, fun other same => ?_⟩
          obtain rfl := Option.some.inj same
          exact replaced
  · rintro ⟨saved, seen, aside, ⟨unmoved, rfl⟩ | ⟨changed, original, rfl, replaced⟩⟩
    · exact ⟨seen, saved, aside, by rw [if_pos unmoved]; rfl⟩
    · refine ⟨seen, saved, aside, ?_⟩
      rw [if_neg changed]
      cases visible with
      | none =>
          simp only [Lib.bind_ok, Lib.require_ok, Lib.pure_ok, decide_eq_true_eq]
          exact ⟨(), original, trivial⟩
      | some found =>
          simp only [Lib.bind_ok, Lib.require_ok, Lib.pure_ok, decide_eq_true_eq]
          exact ⟨(), replaced found rfl, (), original, trivial⟩

theorem step_item {item : StagedPath} {step : Option (StagedPath × Bool)}
    (read : files.restorationStep sha256 disk item = .ok step) : ∀ found, step = some found → found.1 = item := by
  obtain ⟨visible, saved, _, _, ⟨_, rfl⟩ | ⟨_, _, rfl, _⟩⟩ := restoration_step_ok.mp read
  · intro found same
    cases same
  · intro found same
    obtain rfl := Option.some.inj same
    rfl

theorem steps_listed {steps : List (StagedPath × Bool)} (read : files.restorationSteps sha256 disk = .ok steps) :
    ∀ step ∈ steps, step.1 ∈ files.manifest.paths := by
  simp only [restorationSteps, Lib.bind_ok, Lib.pure_ok] at read
  obtain ⟨_, _, collected, gathered, rfl⟩ := read
  intro step member
  obtain ⟨found, inside, same⟩ := List.mem_filterMap.mp member
  obtain ⟨item, listed, decided⟩ := (Lib.mem_of_collect gathered).1 found inside
  rw [step_item decided step same]
  exact listed

theorem restore_keeps (recorded : Recorded sha256 files base) :
    Script.Keeps (Arranged files base) (files.restore sha256) := by
  refine Script.keeps_read fun steps disk _ read => ?_
  refine Script.keeps_bind (detach_all_keeps recorded (by simp)) fun _ => ?_
  refine Script.keeps_bind (Script.keeps_forEach fun step member => ?_) fun _ => Script.keeps_observe
  exact restore_original_keeps recorded (steps_listed read step (List.mem_reverse.mp member))

theorem restore_steady : Script.Steady (files.restore sha256) := by
  have detach : ∀ steps detached, Script.Steady (files.detachReplacements sha256 detached steps) := by
    intro steps
    induction steps with
    | nil => exact fun _ => Script.steady_pure ()
    | cons step rest ih =>
        obtain ⟨item, removes⟩ := step
        intro detached
        cases removes with
        | false => exact ih detached
        | true =>
            rw [detachReplacements]
            cases files.replacementOf item.path with
            | none => exact Script.steady_onRaise Script.steady_observe
            | some replacement =>
                refine Script.steady_bind (Script.steady_onRaise ?_) fun _ => ih _
                exact Script.steady_bind Script.steady_observe fun _ =>
                  Script.steady_bind Script.steady_change fun _ => Script.steady_onRaise Script.steady_observe
  have original : ∀ item, Script.Steady (files.restoreOriginal sha256 item) := by
    intro item
    unfold restoreOriginal
    split
    · exact Script.steady_bind Script.steady_observe fun _ => Script.steady_change
    · exact Script.steady_pure ()
  exact Script.steady_bind Script.steady_observe fun steps => Script.steady_bind (detach _ _) fun _ =>
    Script.steady_bind (Script.steady_forEach fun step => original step.1) fun _ => Script.steady_observe

section Completion

variable {state : ProjectPath → StagedState}

theorem not_below_relative {place : Place} (listed : place.Listed files) :
    ¬ place.path files <+: files.manifest.relative := by
  intro inside
  cases place with
  | visible item =>
      exact (visible_saved_apart listed "0").1 (inside.trans (List.prefix_append _ _))
  | saved item =>
      have longer := inside.length_le
      simp only [Place.path, savedPath, List.length_append, List.length_cons, List.length_nil] at longer
      omega
  | created replacement =>
      have longer := inside.length_le
      simp only [Place.path, savedPath, List.length_append, List.length_cons, List.length_nil] at longer
      omega

theorem staging_directory (recorded : Recorded sha256 files base) (layout : Layout files base state disk) :
    ∃ children, disk.find files.manifest.relative = .ok (some (.directory files.manifest.marker children)) ∧
      ∀ child ∈ children, child.1 ∈ files.knownPrivate.map Prod.fst := by
  have same := layout.outside files.manifest.relative fun place listed => not_below_relative listed
  rw [recorded.staging] at same
  obtain ⟨children, present⟩ := Lib.FileTree.find_of_look same
  refine ⟨children, present, fun child member => ?_⟩
  by_contra unknown
  have no_place : ∀ place : Place, place.Listed files → ¬ place.path files <+: files.savedPath child.1 := by
    intro place listed inside
    cases place with
    | visible item => exact (visible_saved_apart listed _).1 inside
    | saved item =>
        have equal : item.saved = child.1 := by simpa using (List.prefix_append_right_inj _).mp inside
        exact unknown (List.mem_map.mpr ⟨(item.saved, item.original),
          by simpa [knownPrivate] using .inl ⟨item, listed, rfl, rfl⟩, equal⟩)
    | created replacement =>
        have equal : replacement.saved = child.1 := by simpa using (List.prefix_append_right_inj _).mp inside
        exact unknown (List.mem_map.mpr ⟨(replacement.saved, some replacement.tree),
          by simpa [knownPrivate] using .inr ⟨replacement, listed, rfl, rfl⟩, equal⟩)
  have unseen := layout.outside _ no_place
  rcases recorded.alone child.1 with absent | ⟨replacement, inside, named⟩
  · rw [Lib.FileTree.look_of_find absent] at unseen
    have here := Lib.FileTree.find_member present child.1
    cases listed : Lib.FileTree.entry child.1 children with
    | none => exact absurd (List.mem_map_of_mem member) (Lib.FileTree.entry_none_iff.mp listed)
    | some found =>
        rw [listed] at here
        rw [savedPath, Lib.FileTree.look_of_find here] at unseen
        simp at unseen
  · exact no_place (.created replacement) inside (by rw [Place.path, named])

theorem saved_capture (recorded : Recorded sha256 files base) (layout : Layout files base state disk) {item : StagedPath}
    (member : item ∈ files.manifest.paths) :
    captureRecoveryTree sha256 disk (files.savedPath item.saved) =
      .ok (if state item.path = .kept then none else item.original) := by
  have there := layout.places (.saved item) member
  cases now : state item.path with
  | kept => exact capture_none (by simpa [content, now] using there)
  | moved => exact capture_held (recorded.originals item member) (by simpa [content, now] using there)
  | replaced => exact capture_held (recorded.originals item member) (by simpa [content, now] using there)

theorem created_capture (recorded : Recorded sha256 files base) (layout : Layout files base state disk)
    {replacement : StagedReplacement} (member : replacement ∈ files.manifest.replacements) :
    captureRecoveryTree sha256 disk (files.savedPath replacement.saved) =
      .ok (if state replacement.path = .replaced then none else some replacement.tree) := by
  have there := layout.places (.created replacement) member
  cases now : state replacement.path with
  | kept => exact capture_held (recorded.created replacement member) (by simpa [content, now] using there)
  | moved => exact capture_held (recorded.created replacement member) (by simpa [content, now] using there)
  | replaced => exact capture_none (by simpa [content, now] using there)

theorem private_required (recorded : Recorded sha256 files base) (layout : Layout files base state disk) :
    files.requirePrivate sha256 false disk = .ok () := by
  obtain ⟨children, present, known⟩ := staging_directory recorded layout
  simp only [requirePrivate, Lib.bind_ok]
  refine ⟨_, present, ?_⟩
  simp only [Lib.bind_ok, Lib.require_ok, decide_eq_true_eq, Lib.each_ok]
  refine ⟨(), trivial, (), List.all_eq_true.mpr fun child member => by simpa using known child member, fun entry member => ?_⟩
  rcases List.mem_append.mp member with item_side | replacement_side
  · obtain ⟨item, listed, rfl⟩ := List.mem_map.mp item_side
    refine ⟨_, saved_capture recorded layout listed, ?_⟩
    cases state item.path <;> simp [privateMatches]
  · obtain ⟨replacement, listed, rfl⟩ := List.mem_map.mp replacement_side
    refine ⟨_, created_capture recorded layout listed, ?_⟩
    cases state replacement.path <;> simp [privateMatches]

def stepFor (state : ProjectPath → StagedState) (item : StagedPath) : Option (StagedPath × Bool) :=
  match state item.path with
  | .kept => none
  | .moved => if item.original.isSome then some (item, false) else none
  | .replaced => some (item, true)

theorem restoration_step (recorded : Recorded sha256 files base) (layout : Layout files base state disk) {item : StagedPath}
    (member : item ∈ files.manifest.paths) : files.restorationStep sha256 disk item = .ok (stepFor state item) := by
  have saved := saved_capture recorded layout member
  have there := layout.places (.visible item) member
  refine restoration_step_ok.mpr ?_
  cases now : state item.path with
  | kept =>
      have visible := capture_held (recorded.originals item member) (by simpa [content, now] using there)
      rw [now, if_pos rfl] at saved
      exact ⟨_, _, visible, saved, .inl ⟨⟨rfl, rfl⟩, by simp [stepFor, now]⟩⟩
  | moved =>
      have visible : captureRecoveryTree sha256 disk item.path = .ok none := capture_none (by simpa [content, now] using there)
      rw [now, if_neg (by simp)] at saved
      refine ⟨_, _, visible, saved, ?_⟩
      cases original : item.original with
      | none => exact .inl ⟨⟨rfl, rfl⟩, by simp [stepFor, now, original]⟩
      | some record => exact .inr ⟨by simp, rfl, by simp [stepFor, now, original], fun _ same => by cases same⟩
  | replaced =>
      obtain ⟨replacement, chosen⟩ := Option.isSome_iff_exists.mp (layout.replaceable _ now)
      obtain ⟨inside, same⟩ := replacement_of chosen
      have visible := capture_held (recorded.created replacement inside) (by simpa [content, now, chosen] using there)
      have detached := created_capture recorded layout inside
      rw [same, now, if_pos rfl] at detached
      rw [now, if_neg (by simp)] at saved
      refine ⟨_, _, visible, saved, .inr ⟨?_, rfl, by simp [stepFor, now], ?_⟩⟩
      · rintro ⟨original, absent⟩
        rw [absent] at original
        cases original
      · intro found held
        obtain rfl := Option.some.inj held
        exact replaced_ok.mpr ⟨replacement, chosen, rfl, detached⟩

theorem restoration_steps (recorded : Recorded sha256 files base) (layout : Layout files base state disk) :
    files.restorationSteps sha256 disk = .ok (files.manifest.paths.filterMap (stepFor state)) := by
  have collected : Lib.collect (files.restorationStep sha256 disk) files.manifest.paths =
      .ok (files.manifest.paths.map (stepFor state)) := by
    rw [Lib.collect_ok, List.forall₂_map_right_iff, List.forall₂_same]
    exact fun item member => restoration_step recorded layout member
  simp only [restorationSteps, Lib.bind_ok, Lib.pure_ok]
  refine ⟨(), private_required recorded layout, _, collected, ?_⟩
  simp [List.filterMap_map]

theorem path_split {item : StagedPath} (member : item ∈ files.manifest.paths) :
    ∃ above name, item.path = above ++ [name] := by
  have rooted := files.sound.rooted item member
  have full : item.path ≠ [] := by
    intro empty
    simp [empty] at rooted
  exact ⟨item.path.dropLast, item.path.getLast full, (List.dropLast_append_getLast full).symm⟩

theorem detach_moves (recorded : Recorded sha256 files base) (layout : Layout files base state disk) {item : StagedPath}
    {replacement : StagedReplacement} (member : item ∈ files.manifest.paths)
    (chosen : files.replacementOf item.path = some replacement) (now : state item.path = .replaced) :
    ∃ later, disk.move replacement.path (files.savedPath replacement.saved) = .ok later := by
  obtain ⟨inside, same⟩ := replacement_of chosen
  obtain ⟨above, name, split⟩ := path_split member
  have there := layout.places (.visible item) member
  have absent := layout.places (.created replacement) inside
  obtain ⟨children, holder, _⟩ := staging_directory recorded layout
  have full : held base (files.savedPath replacement.saved) ≠ none := held_created recorded inside
  obtain ⟨tree, held_tree⟩ := Option.ne_none_iff_exists'.mp full
  have present : disk.find (above ++ [name]) = .ok (some tree) := by
    rw [← split]
    simpa [content, now, chosen, held_tree] using there
  obtain ⟨marker, siblings, parent⟩ := Lib.FileTree.find_parent present
  have apart := places_apart (.visible item) (.created replacement) member inside (by simp)
  simp only [Place.path, split, savedPath] at apart
  rw [same, split]
  refine Lib.FileTree.move_done apart parent present ?_ holder
  simpa [content, same, now, savedPath] using absent

theorem return_moves (recorded : Recorded sha256 files base) (layout : Layout files base state disk) {item : StagedPath}
    (member : item ∈ files.manifest.paths) (existed : item.original.isSome) (now : state item.path = .moved) :
    ∃ later, disk.move (files.savedPath item.saved) item.path = .ok later := by
  obtain ⟨above, name, split⟩ := path_split member
  have aside := layout.places (.saved item) member
  have absent := layout.places (.visible item) member
  obtain ⟨children, holder, _⟩ := staging_directory recorded layout
  have original := find_held (recorded.originals item member)
  obtain ⟨tree, held_tree⟩ := Option.isSome_iff_exists.mp ((records_isSome original.2).trans existed)
  have before : base.find (above ++ [name]) = .ok (some tree) := by rw [← split, original.1, held_tree]
  obtain ⟨marker, siblings, parent⟩ := Lib.FileTree.find_parent before
  have clear : ∀ place : Place, place.Listed files → ¬ place.path files <+: above := by
    intro place listed inside
    have onto : place.path files <+: item.path := by
      rw [split]
      exact inside.trans (List.prefix_append _ _)
    by_cases same : place = .visible item
    · have longer := inside.length_le
      rw [same, Place.path, split, List.length_append, List.length_cons] at longer
      omega
    · exact (places_apart place (.visible item) listed member same).1 onto
  have seen := layout.outside above clear
  rw [Lib.FileTree.look_of_find parent] at seen
  obtain ⟨later, still⟩ := Lib.FileTree.find_of_look seen
  have apart := places_apart (.saved item) (.visible item) member member (by simp)
  simp only [Place.path, split, savedPath] at apart
  have present : disk.find (files.manifest.relative ++ [item.saved]) = .ok (some tree) := by
    simpa [content, now, held_tree, savedPath] using aside
  rw [split]
  refine Lib.FileTree.move_done apart holder present ?_ still
  simpa [content, now, ← split] using absent

theorem detach_completes (recorded : Recorded sha256 files base) {steps : List (StagedPath × Bool)}
    {detached : List StagedReplacement} (layout : Layout files base state disk)
    (listed : ∀ step ∈ steps, step.1 ∈ files.manifest.paths ∧ (step.2 = true → state step.1.path = .replaced))
    (distinct : (steps.map fun step => step.1.path).Nodup) :
    ∃ final next, Script.Completes (files.detachReplacements sha256 detached steps) disk () final ∧
      Layout files base next final ∧
      ∀ path, next path = if path ∈ (steps.filter fun step => step.2).map (fun step => step.1.path) then .moved
        else state path := by
  induction steps generalizing detached state disk with
  | nil => exact ⟨disk, state, Script.completes_pure () disk, layout, fun _ => rfl⟩
  | cons step rest ih =>
      obtain ⟨item, removes⟩ := step
      obtain ⟨apart, later_distinct⟩ := List.nodup_cons.mp distinct
      have rest_listed := fun step inside => listed step (List.mem_cons_of_mem _ inside)
      cases removes with
      | false =>
          obtain ⟨final, next, done, arranged, states⟩ := ih layout rest_listed later_distinct
          exact ⟨final, next, done, arranged, states⟩
      | true =>
          obtain ⟨member, placed⟩ := listed _ List.mem_cons_self
          have now := placed rfl
          obtain ⟨replacement, chosen⟩ := Option.isSome_iff_exists.mp (layout.replaceable _ now)
          obtain ⟨inside, same⟩ := replacement_of chosen
          obtain ⟨middle, moved⟩ := detach_moves recorded layout member chosen now
          have arranged := detach_layout recorded layout member inside same.symm moved
          have required : requirePlaced sha256 replacement disk = .ok () := by
            have there := layout.places (.visible item) member
            have visible := capture_held (recorded.created replacement inside) (by simpa [content, now, chosen] using there)
            rw [← same] at visible
            simp only [requirePlaced, Lib.bind_ok, Lib.require_ok]
            exact ⟨_, visible, by simp⟩
          have private_now : files.requireDetached sha256 replacement
              ("Preparation replacement changed before removal: " ++ projectPath replacement.path) middle = .ok () := by
            have held_now := created_capture recorded arranged inside
            rw [same, Function.update_self, if_neg (by simp)] at held_now
            simp only [requireDetached, Lib.bind_ok, Lib.require_ok]
            exact ⟨_, held_now, by simp⟩
          have later_listed : ∀ step ∈ rest, step.1 ∈ files.manifest.paths ∧
              (step.2 = true → Function.update state item.path .moved step.1.path = .replaced) := by
            intro step inside
            obtain ⟨on, was⟩ := rest_listed step inside
            refine ⟨on, fun flagged => ?_⟩
            have elsewhere : step.1.path ≠ item.path := fun eq => apart (List.mem_map.mpr ⟨step, inside, eq⟩)
            rw [Function.update_of_ne elsewhere, was flagged]
          obtain ⟨final, next, done, after, states⟩ := ih arranged later_listed later_distinct
          refine ⟨final, next, ?_, after, fun path => ?_⟩
          · rw [detachReplacements, chosen]
            refine Script.completes_then (Script.completes_onRaise ?_) done
            refine Script.completes_then (Script.completes_observe required) ?_
            exact Script.completes_then (Script.completes_change moved)
              (Script.completes_onRaise (Script.completes_observe private_now))
          · rw [states, List.filter_cons_of_pos rfl, List.map_cons]
            by_cases here : path = item.path
            · simp [here]
            · simp only [List.mem_cons, here, false_or, Function.update_of_ne (show path ≠ _ from here)]

theorem originals_complete (recorded : Recorded sha256 files base) {steps : List (StagedPath × Bool)}
    (layout : Layout files base state disk)
    (listed : ∀ step ∈ steps, step.1 ∈ files.manifest.paths ∧ (step.1.original.isSome → state step.1.path = .moved))
    (distinct : (steps.map fun step => step.1.path).Nodup) :
    ∃ final next, Script.Completes (Script.forEach (fun step => files.restoreOriginal sha256 step.1) steps) disk () final ∧
      Layout files base next final ∧
      ∀ path, next path =
        if path ∈ (steps.filter fun step => step.1.original.isSome).map (fun step => step.1.path) then .kept else state path := by
  induction steps generalizing state disk with
  | nil => exact ⟨disk, state, Script.completes_pure () disk, layout, fun _ => rfl⟩
  | cons step rest ih =>
      obtain ⟨apart, later_distinct⟩ := List.nodup_cons.mp distinct
      have rest_listed := fun step inside => listed step (List.mem_cons_of_mem _ inside)
      obtain ⟨member, aside⟩ := listed _ List.mem_cons_self
      by_cases existed : step.1.original.isSome
      · have now := aside existed
        obtain ⟨middle, moved⟩ := return_moves recorded layout member existed now
        have arranged := return_layout recorded layout member moved
        have later_listed : ∀ other ∈ rest, other.1 ∈ files.manifest.paths ∧
            (other.1.original.isSome → Function.update state step.1.path .kept other.1.path = .moved) := by
          intro other inside
          obtain ⟨on, was⟩ := rest_listed other inside
          refine ⟨on, fun present => ?_⟩
          have elsewhere : other.1.path ≠ step.1.path := fun eq => apart (List.mem_map.mpr ⟨other, inside, eq⟩)
          rw [Function.update_of_ne elsewhere, was present]
        obtain ⟨final, next, done, after, states⟩ := ih arranged later_listed later_distinct
        refine ⟨final, next, Script.completes_then ?_ done, after, fun path => ?_⟩
        · have saved := saved_capture recorded layout member
          rw [now, if_neg (by simp)] at saved
          show Script.Completes (files.restoreOriginal sha256 step.1) disk () middle
          rw [restoreOriginal, if_pos existed]
          refine Script.completes_then (Script.completes_observe ?_) (Script.completes_change moved)
          simp only [Lib.bind_ok, Lib.require_ok]
          exact ⟨_, saved, by simp⟩
        · rw [states, List.filter_cons_of_pos (by simpa using existed), List.map_cons]
          by_cases here : path = step.1.path
          · simp [here]
          · simp only [List.mem_cons, here, false_or, Function.update_of_ne (show path ≠ _ from here)]
      · obtain ⟨final, next, done, after, states⟩ := ih layout rest_listed later_distinct
        refine ⟨final, next, Script.completes_then ?_ done, after, fun path => ?_⟩
        · show Script.Completes (files.restoreOriginal sha256 step.1) disk () disk
          rw [restoreOriginal, if_neg existed]
          exact Script.completes_pure () disk
        · rw [states, List.filter_cons_of_neg (by simpa using existed)]

theorem settled_layout (recorded : Recorded sha256 files base) (layout : Layout files base state disk)
    (settled : ∀ item ∈ files.manifest.paths, state item.path = .kept ∨ state item.path = .moved ∧ item.original = none) :
    Layout files base (fun _ => .kept) disk := by
  refine ⟨fun place listed => ?_, layout.outside, fun _ now => by cases now⟩
  have there := layout.places place listed
  have absent : ∀ item ∈ files.manifest.paths, item.original = none → held base item.path = none := by
    intro item member original
    have empty := records_isSome (find_held (recorded.originals item member)).2
    rw [original] at empty
    simpa using empty
  cases place with
  | visible item =>
      rcases settled item listed with now | ⟨now, original⟩
      · simpa [content, now] using there
      · simpa [content, now, absent item listed original] using there
  | saved item =>
      rcases settled item listed with now | ⟨now, original⟩
      · simpa [content, now] using there
      · simpa [content, now, absent item listed original] using there
  | created replacement =>
      obtain ⟨item, member, same⟩ := files.sound.covered replacement listed
      rcases settled item member with now | ⟨now, _⟩
      · simpa [content, ← same, now] using there
      · simpa [content, ← same, now] using there

theorem kept_restored (recorded : Recorded sha256 files base) (layout : Layout files base (fun _ => .kept) disk) :
    files.requireRestored sha256 disk = .ok () := by
  refine Lib.each_ok.mpr fun item member => ?_
  have there := layout.places (.visible item) member
  have visible := capture_held (recorded.originals item member) there
  simp only [Lib.bind_ok, Lib.require_ok]
  exact ⟨_, visible, by simp⟩

theorem step_for_some {item : StagedPath} {step : StagedPath × Bool} (chosen : stepFor state item = some step) :
    step.1 = item ∧ (step.2 = true → state item.path = .replaced) ∧
      (state item.path = .replaced ∧ step.2 = true ∨ state item.path = .moved ∧ item.original.isSome) := by
  unfold stepFor at chosen
  cases now : state item.path with
  | kept => simp [now] at chosen
  | moved =>
      cases original : item.original with
      | none => simp [now, original] at chosen
      | some record =>
          obtain rfl : (item, false) = step := by simpa [now, original] using chosen
          exact ⟨rfl, by simp, .inr ⟨rfl, rfl⟩⟩
  | replaced =>
      obtain rfl : (item, true) = step := by simpa [now] using chosen
      exact ⟨rfl, fun _ => rfl, .inl ⟨rfl, rfl⟩⟩

theorem step_for_none {item : StagedPath} (skipped : stepFor state item = none) :
    state item.path = .kept ∨ state item.path = .moved ∧ item.original = none := by
  unfold stepFor at skipped
  cases now : state item.path with
  | kept => exact .inl rfl
  | moved =>
      cases original : item.original with
      | none => exact .inr ⟨rfl, rfl⟩
      | some record => simp [now, original] at skipped
  | replaced => simp [now] at skipped

theorem steps_sublist (items : List StagedPath) :
    ((items.filterMap (stepFor state)).map fun step => step.1.path).Sublist (items.map StagedPath.path) := by
  induction items with
  | nil => exact .slnil
  | cons item rest ih =>
      cases chosen : stepFor state item with
      | none => simpa [chosen] using ih.cons item.path
      | some step =>
          have same := (step_for_some chosen).1
          simpa [chosen, same] using ih

theorem restore_completes (recorded : Recorded sha256 files base) (arranged : Arranged files base disk) :
    ∃ final, Script.Completes (files.restore sha256) disk () final ∧ Layout files base (fun _ => .kept) final := by
  obtain ⟨state, layout⟩ := arranged
  have read := restoration_steps recorded layout
  generalize known : (files.manifest.paths.filterMap (stepFor state)) = steps at read
  have chosen_item : ∀ step ∈ steps.reverse, step.1 ∈ files.manifest.paths ∧ stepFor state step.1 = some step := by
    intro step member
    rw [← known] at member
    obtain ⟨item, inside, chosen⟩ := List.mem_filterMap.mp (List.mem_reverse.mp member)
    rw [(step_for_some chosen).1]
    exact ⟨inside, chosen⟩
  have distinct : (steps.reverse.map fun step => step.1.path).Nodup := by
    rw [List.map_reverse, List.nodup_reverse, ← known]
    exact files.sound.distinct.sublist (steps_sublist _)
  obtain ⟨middle, next, detached, arranged, states⟩ := detach_completes recorded layout
    (fun step member => ⟨(chosen_item step member).1, (step_for_some (chosen_item step member).2).2.1⟩) distinct
  have aside : ∀ step ∈ steps.reverse, next step.1.path = .moved := by
    intro step member
    rw [states]
    split
    · rfl
    · rename_i unflagged
      rcases (step_for_some (chosen_item step member).2).2.2 with ⟨_, flagged⟩ | ⟨now, _⟩
      · exact absurd (List.mem_map.mpr ⟨step, List.mem_filter.mpr ⟨member, flagged⟩, rfl⟩) unflagged
      · exact now
  obtain ⟨final, last, returned, settled, after⟩ := originals_complete recorded arranged
    (fun step member => ⟨(chosen_item step member).1, fun _ => aside step member⟩) distinct
  have kept : Layout files base (fun _ => .kept) final := by
    refine settled_layout recorded settled fun item member => ?_
    cases chosen : stepFor state item with
    | some step =>
        have same := (step_for_some chosen).1
        have inside : step ∈ steps.reverse := by
          rw [List.mem_reverse, ← known]
          exact List.mem_filterMap.mpr ⟨item, member, chosen⟩
        rw [after]
        split
        · exact .inl rfl
        · rename_i absent
          refine .inr ⟨by rw [← same]; exact aside step inside, ?_⟩
          by_contra some_original
          refine absent (List.mem_map.mpr ⟨step, List.mem_filter.mpr ⟨inside, ?_⟩, by rw [same]⟩)
          rw [same]
          exact Option.isSome_iff_ne_none.mpr some_original
    | none =>
        have untouched : ∀ step ∈ steps.reverse, step.1.path ≠ item.path := by
          intro step inside equal
          obtain ⟨listed, found⟩ := chosen_item step inside
          rw [same_path listed member equal, chosen] at found
          cases found
        have same : last item.path = state item.path := by
          rw [after, if_neg, states, if_neg]
          · intro inside
            obtain ⟨step, listed, equal⟩ := List.mem_map.mp inside
            exact untouched step (List.mem_filter.mp listed).1 equal
          · intro inside
            obtain ⟨step, listed, equal⟩ := List.mem_map.mp inside
            exact untouched step (List.mem_filter.mp listed).1 equal
        rw [same]
        exact step_for_none chosen
  refine ⟨final, ?_, kept⟩
  exact Script.completes_bind (Script.completes_observe read) (Script.completes_then detached
    (Script.completes_then returned (Script.completes_observe (kept_restored recorded kept))))

end Completion

end MicroWorkflow.PreparationStaging
