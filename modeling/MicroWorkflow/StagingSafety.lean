import MicroWorkflow.StagingDiscard

set_option autoImplicit false

namespace MicroWorkflow.PreparationStaging

open Lib (FileTree Script)

variable {sha256 : List UInt8 → String} {files : PreparationStaging} {base disk before later : Disk}

structure Emptying (files : PreparationStaging) (base : Disk) (gone : List String) (disk : Disk) : Prop where
  directory : ∃ children, disk.find files.manifest.relative = .ok (some (.directory files.manifest.marker children)) ∧
    ∀ child ∈ children, child.1 ∈ files.knownPrivate.map Prod.fst
  saved : ∀ item ∈ files.manifest.paths, disk.find (files.savedPath item.saved) = .ok none
  created : ∀ replacement ∈ files.manifest.replacements, disk.find (files.savedPath replacement.saved) =
    .ok (if replacement.saved ∈ gone then none else held base (files.savedPath replacement.saved))
  outside : ∀ path, ¬ files.manifest.relative <+: path → disk.look path = base.look path

theorem kept_look (recorded : Recorded sha256 files base) (layout : Layout files base (fun _ => .kept) disk)
    (path : ProjectPath) : disk.look path = base.look path := by
  by_cases inside : ∃ place : Place, place.Listed files ∧ place.path files <+: path
  · obtain ⟨place, listed, below, rfl⟩ := inside
    have now := layout.places place listed
    have was := (recorded_layout recorded).places place listed
    rw [FileTree.look_below now, FileTree.look_below was]
  · exact layout.outside path fun place listed onto => inside ⟨place, listed, onto⟩

theorem kept_emptying (recorded : Recorded sha256 files base) (layout : Layout files base (fun _ => .kept) disk) :
    Emptying files base [] disk := by
  refine ⟨staging_directory recorded layout, fun item member => ?_, fun replacement member => ?_,
    fun path _ => kept_look recorded layout path⟩
  · simpa [content] using layout.places (.saved item) member
  · simpa [content] using layout.places (.created replacement) member

theorem emptying_required (recorded : Recorded sha256 files base) {gone : List String}
    (emptying : Emptying files base gone disk) :
    files.requirePrivate sha256 true disk = .ok () := by
  obtain ⟨children, present, known⟩ := emptying.directory
  simp only [requirePrivate, Lib.bind_ok]
  refine ⟨_, present, ?_⟩
  simp only [Lib.bind_ok, Lib.require_ok, decide_eq_true_eq, Lib.each_ok]
  refine ⟨(), trivial, (), List.all_eq_true.mpr fun child member => by simpa using known child member, fun entry member => ?_⟩
  rcases List.mem_append.mp member with item_side | replacement_side
  · obtain ⟨item, listed, rfl⟩ := List.mem_map.mp item_side
    exact ⟨_, capture_none (emptying.saved item listed), by simp [privateMatches]⟩
  · obtain ⟨replacement, listed, rfl⟩ := List.mem_map.mp replacement_side
    have there := emptying.created replacement listed
    by_cases removed : replacement.saved ∈ gone
    · rw [if_pos removed] at there
      exact ⟨_, capture_none there, by simp [privateMatches]⟩
    · rw [if_neg removed] at there
      obtain ⟨marker, shape⟩ := files.sound.empty replacement listed
      refine ⟨_, capture_held (recorded.created replacement listed) there, ?_⟩
      simp [privateMatches, knownRemainingTree, shape, knownTree, knownChildren]

theorem empty_tree {tree : Disk} {marker : DirectoryMarker}
    (recorded : recordOf sha256 tree = .ok (.directory marker [])) : tree = .directory marker [] := by
  cases tree with
  | leaf body => cases body <;> simp [recordOf] at recorded
  | directory found children =>
      cases children with
      | nil =>
          have same : found = marker := by simpa [recordOf, recordChildren] using recorded
          rw [same]
      | cons child rest =>
          obtain ⟨name, inner⟩ := child
          cases first : recordOf sha256 inner with
          | error below => simp [recordOf, recordChildren, first] at recorded
          | ok record =>
              cases others : recordChildren sha256 rest with
              | error below => simp [recordOf, recordChildren, first, others] at recorded
              | ok records => simp [recordOf, recordChildren, first, others] at recorded

theorem remove_created (recorded : Recorded sha256 files base) {gone : List String} (emptying : Emptying files base gone disk)
    {replacement : StagedReplacement} (member : replacement ∈ files.manifest.replacements)
    (fresh : replacement.saved ∉ gone) :
    ∃ later, Script.Completes (files.removeKnown sha256 (replacement.saved, some replacement.tree)) disk () later ∧
      Emptying files base (replacement.saved :: gone) later := by
  obtain ⟨marker, shape⟩ := files.sound.empty replacement member
  have there := emptying.created replacement member
  rw [if_neg fresh] at there
  have captured := capture_held (recorded.created replacement member) there
  obtain ⟨children, directory, known⟩ := emptying.directory
  have present : disk.find (files.savedPath replacement.saved) = .ok (some (.directory marker [])) := by
    obtain ⟨found, here, records⟩ := capture_ok.mp captured
    cases found with
    | none => exact absurd records (by simp [Records])
    | some tree =>
        rw [Records, shape] at records
        rw [here, empty_tree records]
  obtain ⟨later, removed⟩ := FileTree.put_ok directory replacement.saved none
  have bare : rmdir (files.savedPath replacement.saved) disk = .ok later := by
    rw [rmdir, present]
    exact removed
  refine ⟨later, ?_, ?_⟩
  · have read : ∀ error, captureKnown sha256 (files.savedPath replacement.saved) (.directory marker []) error disk =
        .ok (some (.directory marker [])) := by
      intro error
      rw [shape] at captured
      simp only [captureKnown, Lib.bind_ok, Lib.require_ok, Lib.pure_ok]
      exact ⟨_, captured, (), by simp [knownRemainingTree, knownTree, knownChildren], rfl⟩
    rw [removeKnown, shape]
    show Script.Completes (removeRecordedTree sha256 _ _) _ _ _
    rw [removeRecordedTree]
    refine Script.completes_bind (Script.completes_observe (read _)) ?_
    refine Script.completes_then (by rw [removeRecordedMembers]; exact Script.completes_pure () disk) ?_
    refine Script.completes_bind (Script.completes_observe (read _)) ?_
    exact Script.completes_then (Script.completes_observe rfl) (Script.completes_change bare)
  · have apart : ∀ saved, saved ≠ replacement.saved →
        later.find (files.savedPath saved) = disk.find (files.savedPath saved) :=
      fun saved distinct => FileTree.find_put_apart removed (saved_apart distinct.symm)
    refine ⟨?_, fun item listed => ?_, fun other listed => ?_, fun path out => ?_⟩
    · have at_name : disk.put none (files.manifest.relative ++ replacement.saved :: []) = .ok later := removed
      obtain ⟨above, old, remaining, was, now⟩ := FileTree.find_put_above at_name
      rw [directory] at was
      cases was
      refine ⟨remaining, now, fun child inside => ?_⟩
      by_contra unknown
      have unlisted : child.1 ≠ replacement.saved := by
        intro same
        refine unknown (List.mem_map.mpr ⟨(replacement.saved, some replacement.tree), ?_, same.symm⟩)
        simpa [knownPrivate] using .inr ⟨replacement, member, rfl, rfl⟩
      have here := FileTree.find_member now child.1
      have there := FileTree.find_member directory child.1
      rw [← savedPath, apart child.1 unlisted, savedPath, there, Except.ok.injEq] at here
      have absent : child.1 ∉ children.map Prod.fst := by
        intro inside
        obtain ⟨other, listed, same⟩ := List.mem_map.mp inside
        exact unknown (same ▸ known other listed)
      rw [FileTree.entry_none_iff.mpr absent] at here
      exact FileTree.entry_none_iff.mp here.symm (List.mem_map_of_mem inside)
    · rw [apart item.saved (files.sound.separate item listed replacement member)]
      exact emptying.saved item listed
    · by_cases same : other.saved = replacement.saved
      · rw [same, if_pos List.mem_cons_self]
        exact FileTree.find_put removed
      · rw [apart other.saved same, emptying.created other listed]
        by_cases removed_before : other.saved ∈ gone
        · rw [if_pos removed_before, if_pos (List.mem_cons_of_mem _ removed_before)]
        · rw [if_neg removed_before, if_neg (by simp [same, removed_before])]
    · rw [FileTree.look_put removed fun inside => out ((List.prefix_append _ _).trans inside)]
      exact emptying.outside path out

theorem remove_all_created (recorded : Recorded sha256 files base) {replacements : List StagedReplacement} {gone : List String}
    (emptying : Emptying files base gone disk) (listed : ∀ replacement ∈ replacements, replacement ∈ files.manifest.replacements)
    (fresh : ∀ replacement ∈ replacements, replacement.saved ∉ gone)
    (distinct : (replacements.map StagedReplacement.saved).Nodup) :
    ∃ later removed, Script.Completes
        (Script.forEach (files.removeKnown sha256) (replacements.map fun item => (item.saved, some item.tree))) disk () later ∧
      Emptying files base removed later ∧ (∀ name ∈ gone, name ∈ removed) ∧
      ∀ replacement ∈ replacements, replacement.saved ∈ removed := by
  induction replacements generalizing disk gone with
  | nil => exact ⟨disk, gone, Script.completes_pure () disk, emptying, fun _ inside => inside, fun _ inside => by cases inside⟩
  | cons first rest ih =>
      obtain ⟨apart, later_distinct⟩ := List.nodup_cons.mp distinct
      obtain ⟨middle, done, next⟩ := remove_created recorded emptying (listed first List.mem_cons_self)
        (fresh first List.mem_cons_self)
      have later_fresh : ∀ replacement ∈ rest, replacement.saved ∉ first.saved :: gone := by
        intro replacement inside old
        rcases List.mem_cons.mp old with same | before
        · exact apart (List.mem_map.mpr ⟨replacement, inside, same⟩)
        · exact fresh replacement (List.mem_cons_of_mem _ inside) before
      obtain ⟨later, removed, others, emptied, kept, all⟩ := ih next
        (fun replacement inside => listed replacement (List.mem_cons_of_mem _ inside)) later_fresh later_distinct
      refine ⟨later, removed, Script.completes_then done others, emptied,
        fun name inside => kept name (List.mem_cons_of_mem _ inside), fun replacement inside => ?_⟩
      rcases List.mem_cons.mp inside with rfl | later_one
      · exact kept _ List.mem_cons_self
      · exact all replacement later_one

theorem skip_saved {gone : List String} (emptying : Emptying files base gone disk) {items : List StagedPath}
    {more : List (String × Option TreeRecord)} (listed : ∀ item ∈ items, item ∈ files.manifest.paths)
    (done : Script.Completes (Script.forEach (files.removeKnown sha256) more) disk () later) :
    Script.Completes (Script.forEach (files.removeKnown sha256)
      (items.map (fun item => (item.saved, item.original)) ++ more)) disk () later := by
  induction items with
  | nil => exact done
  | cons item rest ih =>
      have absent : captureRecoveryTree sha256 disk (files.savedPath item.saved) = .ok none :=
        capture_none (emptying.saved item (listed item List.mem_cons_self))
      refine Script.completes_then ?_ (ih fun other inside => listed other (List.mem_cons_of_mem _ inside))
      show Script.Completes (files.removeKnown sha256 (item.saved, item.original)) disk () disk
      cases original : item.original with
      | none =>
          refine Script.completes_observe ?_
          simp only [Lib.bind_ok, Lib.require_ok]
          exact ⟨none, absent, rfl⟩
      | some record =>
          have read : ∀ error, captureKnown sha256 (files.savedPath item.saved) record error disk = .ok none := by
            intro error
            simp only [captureKnown, Lib.bind_ok, Lib.require_ok, Lib.pure_ok]
            exact ⟨none, absent, (), rfl, rfl⟩
          cases record with
          | leaf body =>
              show Script.Completes (removeRecordedTree sha256 _ _) _ _ _
              rw [removeRecordedTree]
              exact Script.completes_bind (Script.completes_observe (read _)) (Script.completes_pure () disk)
          | directory marker members =>
              show Script.Completes (removeRecordedTree sha256 _ _) _ _ _
              rw [removeRecordedTree]
              exact Script.completes_bind (Script.completes_observe (read _)) (Script.completes_pure () disk)

theorem discard_completes (recorded : Recorded sha256 files base) (layout : Layout files base (fun _ => .kept) disk) :
    ∃ cleared, Script.Completes (files.discard sha256) disk () cleared ∧
      ∀ path, cleared.look path = if files.manifest.relative <+: path then none else base.look path := by
  have start := kept_emptying recorded layout
  obtain ⟨later, removed, done, emptied, _, all⟩ := remove_all_created recorded start (fun _ inside => inside)
    (fun _ _ => by simp) files.sound.created
  have looped := skip_saved start (fun _ inside => inside) done
  obtain ⟨children, present, known⟩ := emptied.directory
  have absent : ∀ name ∈ files.knownPrivate.map Prod.fst, later.find (files.savedPath name) = .ok none := by
    intro name member
    obtain ⟨known, listed, rfl⟩ := List.mem_map.mp member
    rcases List.mem_append.mp listed with item_side | replacement_side
    · obtain ⟨item, inside, rfl⟩ := List.mem_map.mp item_side
      exact emptied.saved item inside
    · obtain ⟨replacement, inside, rfl⟩ := List.mem_map.mp replacement_side
      have there := emptied.created replacement inside
      rwa [if_pos (all replacement inside)] at there
  have empty : children = [] := by
    cases children with
    | nil => rfl
    | cons child rest =>
        have here := FileTree.find_member present child.1
        rw [← savedPath, absent _ (known child List.mem_cons_self)] at here
        simp [Lib.FileTree.entry] at here
  obtain ⟨operation, shape⟩ := files.sound.staging
  have holder : ∃ marker siblings, later.find [".mwf", "preparation-trash"] = .ok (some (.directory marker siblings)) := by
    have at_name : later.find ([".mwf", "preparation-trash"] ++ [operation]) =
        .ok (some (.directory files.manifest.marker children)) := by
      rw [← present, shape]
      rfl
    exact FileTree.find_parent at_name
  obtain ⟨marker, siblings, parent⟩ := holder
  obtain ⟨cleared, put⟩ := FileTree.put_ok parent operation none
  have removed_last : rmdir files.manifest.relative later = .ok cleared := by
    rw [rmdir, present, empty, shape]
    exact put
  refine ⟨cleared, ?_, fun path => ?_⟩
  · exact Script.completes_then (Script.completes_observe (emptying_required recorded start))
      (Script.completes_then looped (Script.completes_then (Script.completes_observe (emptying_required recorded emptied))
        (Script.completes_change removed_last)))
  · split
    · rename_i inside
      obtain ⟨below, rfl⟩ := inside
      obtain ⟨_, _, written, _, _⟩ := rmdir_ok removed_last
      rw [FileTree.look_below (FileTree.find_put written)]
      rfl
    · rename_i out
      obtain ⟨_, _, written, _, _⟩ := rmdir_ok removed_last
      rw [FileTree.look_put written out, emptied.outside path out]

-- A project some staging left, and any number of restores after it, each of them possibly cut short.
inductive Interrupted (sha256 : List UInt8 → String) (files : PreparationStaging) (base : Disk) : Disk → Prop where
  | staged (fates : List Lib.Fate) : Interrupted sha256 files base (files.stage sha256 fates base).state
  | restored {disk : Disk} (fates : List Lib.Fate) (reached : Interrupted sha256 files base disk) :
      Interrupted sha256 files base (files.restore sha256 fates disk).state

theorem interrupted_arranged (recorded : Recorded sha256 files base) (reached : Interrupted sha256 files base disk) :
    Arranged files base disk := by
  induction reached with
  | staged fates => exact stage_keeps recorded fates base ⟨_, recorded_layout recorded⟩
  | restored fates _ ih => exact restore_keeps recorded fates _ ih

-- Every original is back at its path, nothing of it is left aside, and the project is as recorded
-- everywhere.
structure Restored (sha256 : List UInt8 → String) (files : PreparationStaging) (base final : Disk) : Prop where
  originals : ∀ item ∈ files.manifest.paths, final.find item.path = base.find item.path ∧
    captureRecoveryTree sha256 final item.path = .ok item.original
  unstaged : ∀ item ∈ files.manifest.paths, final.find (files.savedPath item.saved) = .ok none
  everywhere : ∀ path, final.look path = base.look path

theorem kept_is_restored (recorded : Recorded sha256 files base) (layout : Layout files base (fun _ => .kept) disk) :
    Restored sha256 files base disk := by
  refine ⟨fun item member => ?_, fun item member => by simpa [content] using layout.places (.saved item) member,
    kept_look recorded layout⟩
  have there := layout.places (.visible item) member
  exact ⟨there.trans (find_held (recorded.originals item member)).1.symm, capture_held (recorded.originals item member) there⟩

def StagedCounterpart (sha256 : List UInt8 → String) (files : PreparationStaging) (disk : Disk) (item : StagedPath) : Prop :=
  captureRecoveryTree sha256 disk (files.savedPath item.saved) = .ok item.original ∧
    (captureRecoveryTree sha256 disk item.path = .ok none ∨
      ∃ replacement, files.replacementOf item.path = some replacement ∧
        captureRecoveryTree sha256 disk item.path = .ok (some replacement.tree))

theorem steps_recognised {steps : List (StagedPath × Bool)} (read : files.restorationSteps sha256 disk = .ok steps)
    {item : StagedPath} (member : item ∈ files.manifest.paths) :
    captureRecoveryTree sha256 disk item.path = .ok item.original ∨ StagedCounterpart sha256 files disk item := by
  simp only [restorationSteps, Lib.bind_ok] at read
  obtain ⟨_, _, collected, gathered, _⟩ := read
  obtain ⟨step, _, decided⟩ := (Lib.mem_of_collect gathered).2 item member
  obtain ⟨visible, saved, seen, aside, ⟨⟨original, _⟩, _⟩ | ⟨_, original, _, replaced⟩⟩ := restoration_step_ok.mp decided
  · exact .inl (original ▸ seen)
  · refine .inr ⟨original ▸ aside, ?_⟩
    cases visible with
    | none => exact .inl seen
    | some found =>
        obtain ⟨replacement, chosen, same, _⟩ := replaced_ok.mp (replaced found rfl)
        exact .inr ⟨replacement, chosen, same ▸ seen⟩

theorem restore_refuses {item : StagedPath} (member : item ∈ files.manifest.paths)
    (changed : captureRecoveryTree sha256 disk item.path ≠ .ok item.original)
    (unstaged : ¬ StagedCounterpart sha256 files disk item) (fates : List Lib.Fate) :
    (files.restore sha256 fates disk).state = disk ∧ ∀ value, (files.restore sha256 fates disk).outcome ≠ .done value := by
  refine Script.refused_at_once (fun steps read => ?_) fates
  rcases steps_recognised read member with original | staged
  · exact changed original
  · exact unstaged staged

-- Staging and restore may be cut short anywhere and any number of times. The next restore that is let
-- finish finishes, the originals are back, and discard then leaves no private material. A restore that
-- meets a path with neither its original nor its staged counterpart refuses before it moves anything, and
-- discard takes away recorded material only, in any project.
theorem preparation_staging_crash_safe (sha256 : List UInt8 → String) (files : PreparationStaging) :
    (∀ base disk, Recorded sha256 files base → Interrupted sha256 files base disk →
      (∃ final, Script.Completes (files.restore sha256) disk () final) ∧
      ∀ fates, (files.restore sha256 fates disk).outcome = .done () →
        Restored sha256 files base (files.restore sha256 fates disk).state ∧
        ∃ cleared, Script.Completes (files.discard sha256) (files.restore sha256 fates disk).state () cleared ∧
          ∀ path, cleared.look path = if files.manifest.relative <+: path then none else base.look path) ∧
    (∀ disk, ∀ item ∈ files.manifest.paths, captureRecoveryTree sha256 disk item.path ≠ .ok item.original →
      ¬ StagedCounterpart sha256 files disk item → ∀ fates,
        (files.restore sha256 fates disk).state = disk ∧ (files.restore sha256 fates disk).outcome ≠ .done ()) ∧
    ∀ disk fates, OnlyRecorded sha256 files disk (files.discard sha256 fates disk).state := by
  refine ⟨fun base disk recorded reached => ?_, fun disk item member changed unstaged fates => ?_, fun disk fates => ?_⟩
  · obtain ⟨final, completes, layout⟩ := restore_completes recorded (interrupted_arranged recorded reached)
    refine ⟨⟨final, completes⟩, fun fates done => ?_⟩
    have unfaulted := restore_steady fates disk () done
    have same : (files.restore sha256 fates disk).state = final :=
      congrArg Lib.Ended.state (unfaulted.symm.trans completes)
    rw [same]
    exact ⟨kept_is_restored recorded layout, discard_completes recorded layout⟩
  · obtain ⟨unchanged, refused⟩ := restore_refuses member changed unstaged fates
    exact ⟨unchanged, refused ()⟩
  · exact discard_keeps fates disk only_recorded_refl

def zeroDigest : List UInt8 → String := fun _ => "0000000000000000000000000000000000000000000000000000000000000000"

def directoryAt (inode : Nat) : DirectoryMarker := { device := 1, inode := inode, mode := 0o040755#16 }

def savedReport : RegularFile := { device := 1, inode := 20, mode := 0o100644#16, modified := 5, content := [104, 105] }

def recordedProject : Disk :=
  .directory (directoryAt 1)
    [(".mwf", .directory (directoryAt 2) [("preparation-trash", .directory (directoryAt 3)
        [("00000000000000000000000000000000", .directory (directoryAt 4) [("created_0", .directory (directoryAt 5) [])])])]),
      ("node", .directory (directoryAt 6) [("a", .directory (directoryAt 7)
        [("output", .directory (directoryAt 8) [("report", .leaf (.file savedReport))])])])]

def recordedOutput : StagedPath where
  path := ["node", "a", "output"]
  saved := "0"
  existed := true
  original := some (.directory (directoryAt 8) [("report", .leaf (savedReport.record zeroDigest))])

def outputManifest : StagingManifest where
  relative := [".mwf", "preparation-trash", "00000000000000000000000000000000"]
  marker := directoryAt 4
  paths := [recordedOutput]
  directories := [["node", "a", "output"]]
  replacements := [{ path := ["node", "a", "output"], saved := "created_0", tree := .directory (directoryAt 5) [] }]

def outputStaging : PreparationStaging := ⟨outputManifest, by decide⟩

theorem output_recorded : Recorded zeroDigest outputStaging recordedProject where
  staging := rfl
  originals := by
    intro item member
    obtain rfl : item = recordedOutput := by simpa [outputStaging, outputManifest] using member
    rfl
  created := by
    intro replacement member
    obtain rfl : replacement =
        { path := ["node", "a", "output"], saved := "created_0", tree := .directory (directoryAt 5) [] } := by
      simpa [outputStaging, outputManifest] using member
    rfl
  alone := by
    intro name
    by_cases same : "created_0" = name
    · exact .inr ⟨_, List.mem_cons_self, same⟩
    · left
      simp [savedPath, outputStaging, outputManifest, recordedProject, FileTree.find, FileTree.entry, same]

def strayProject : Disk :=
  .directory (directoryAt 1)
    [(".mwf", .directory (directoryAt 2) [("preparation-trash", .directory (directoryAt 3)
        [("00000000000000000000000000000000", .directory (directoryAt 4) [])])]),
      ("node", .directory (directoryAt 6) [("a", .directory (directoryAt 7) [("output", .directory (directoryAt 9) [])])])]

theorem preparation_staging_crash_safe_output :
    (∃ final, Script.Completes (outputStaging.restore zeroDigest)
      (outputStaging.stage zeroDigest [.proceed, .proceed, .proceed, .proceed, .stop] recordedProject).state () final ∧
        Restored zeroDigest outputStaging recordedProject final) ∧
      (outputStaging.restore zeroDigest [] strayProject).state = strayProject := by
  have safe := preparation_staging_crash_safe zeroDigest outputStaging
  have cut := safe.1 recordedProject _ output_recorded
    (.staged [.proceed, .proceed, .proceed, .proceed, .stop])
  obtain ⟨⟨final, completes⟩, restored⟩ := cut
  have finished : (outputStaging.restore zeroDigest [] _).outcome = .done () := congrArg Lib.Ended.outcome completes
  have same : (outputStaging.restore zeroDigest [] _).state = final := congrArg Lib.Ended.state completes
  refine ⟨⟨final, completes, same ▸ (restored [] finished).1⟩, ?_⟩
  refine (safe.2.1 strayProject recordedOutput List.mem_cons_self (by decide) ?_ []).1
  rintro ⟨aside, _⟩
  exact absurd aside (by decide)

end MicroWorkflow.PreparationStaging
