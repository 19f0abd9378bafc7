import MicroWorkflow.PreparationStaging
import Mathlib.Data.List.Nodup

set_option autoImplicit false

namespace MicroWorkflow

open Lib (FileTree)
open Lib.FileTree (Apart)

theorem validate_staged_paths {seen : List ProjectPath} {paths : List StagedPath}
    (valid : validateStagedPaths seen paths = .ok ()) :
    (∀ item ∈ paths, item.path.head? = some "node" ∧ item.path ∉ seen ∧ isDecimalName item.saved = true ∧
        item.existed = item.original.isSome) ∧ (paths.map StagedPath.path).Nodup := by
  induction paths generalizing seen with
  | nil => exact ⟨fun _ member => absurd member (by simp), by simp⟩
  | cons item rest ih =>
      have split : validateStagedPaths (item.path :: seen) rest = .ok () ∧ item.path.head? = some "node" ∧
          item.path ∉ seen ∧ isDecimalName item.saved = true ∧ item.existed = item.original.isSome := by
        cases recorded : item.original with
        | none =>
            simp only [validateStagedPaths, recorded, Lib.bind_ok, Lib.require_ok, Bool.and_eq_true, decide_eq_true_eq] at valid
            obtain ⟨_, _, _, ⟨⟨⟨rooted, _⟩, fresh⟩, named⟩, _, existed, later⟩ := valid
            exact ⟨later, rooted, fresh, named, by simpa using existed⟩
        | some record =>
            simp only [validateStagedPaths, recorded, Lib.bind_ok, Lib.require_ok, Bool.and_eq_true, decide_eq_true_eq] at valid
            obtain ⟨_, _, _, ⟨⟨⟨rooted, _⟩, fresh⟩, named⟩, _, existed, _, _, later⟩ := valid
            exact ⟨later, rooted, fresh, named, by simpa using existed⟩
      obtain ⟨later, rooted, fresh, named, existed⟩ := split
      obtain ⟨each, distinct⟩ := ih later
      constructor
      · intro other member
        rcases List.mem_cons.mp member with rfl | inside
        · exact ⟨rooted, fresh, named, existed⟩
        · obtain ⟨root, unseen, name, exist⟩ := each other inside
          exact ⟨root, fun old => unseen (List.mem_cons_of_mem _ old), name, exist⟩
      · rw [List.map_cons, List.nodup_cons]
        refine ⟨fun member => ?_, distinct⟩
        obtain ⟨other, inside, same⟩ := List.mem_map.mp member
        exact (each other inside).2.1 (by simp [same])

theorem validate_replacements {paths : List ProjectPath} {names : List String} {replacements : List StagedReplacement}
    (valid : validateReplacements paths names replacements = .ok ()) :
    (∀ item ∈ replacements, item.path ∈ paths ∧ isCreatedName item.saved = true ∧ isEmptyDirectory item.tree = true ∧
        item.saved ∉ names) ∧ (replacements.map StagedReplacement.saved).Nodup := by
  induction replacements generalizing names with
  | nil => exact ⟨fun _ member => absurd member (by simp), by simp⟩
  | cons item rest ih =>
      simp only [validateReplacements, Lib.bind_ok, Lib.require_ok, Lib.refuse_ok, Bool.and_eq_true, decide_eq_true_eq,
        decide_eq_false_iff_not] at valid
      obtain ⟨_, ⟨covered, created⟩, _, _, _, empty, _, fresh, later⟩ := valid
      obtain ⟨each, distinct⟩ := ih later
      constructor
      · intro other member
        rcases List.mem_cons.mp member with rfl | inside
        · exact ⟨covered, created, empty, fresh⟩
        · obtain ⟨on, name, bare, unseen⟩ := each other inside
          exact ⟨on, name, bare, fun old => unseen (List.mem_cons_of_mem _ old)⟩
      · rw [List.map_cons, List.nodup_cons]
        refine ⟨fun member => ?_, distinct⟩
        obtain ⟨other, inside, same⟩ := List.mem_map.mp member
        exact (each other inside).2.2.2 (by simp [same])

theorem validate_staging_path {relative : ProjectPath} (valid : validateStagingPath relative = .ok ()) :
    ∃ operation, relative = [".mwf", "preparation-trash", operation] := by
  unfold validateStagingPath at valid
  split at valid
  · rename_i directory trash operation
    simp only [Lib.bind_ok, Lib.require_ok, Bool.and_eq_true, decide_eq_true_eq] at valid
    obtain ⟨_, ⟨rfl, rfl⟩, _⟩ := valid
    exact ⟨operation, rfl⟩
  · cases valid

namespace PreparationStaging

variable (files : PreparationStaging)

structure Sound : Prop where
  staging : ∃ operation, files.manifest.relative = [".mwf", "preparation-trash", operation]
  rooted : ∀ item ∈ files.manifest.paths, item.path.head? = some "node"
  existed : ∀ item ∈ files.manifest.paths, item.existed = item.original.isSome
  distinct : (files.manifest.paths.map StagedPath.path).Nodup
  disjoint : ∀ first ∈ files.manifest.paths, ∀ other ∈ files.manifest.paths,
    first.path = other.path ∨ ¬ other.path <+: first.path
  saved : (files.manifest.paths.map StagedPath.saved).Nodup
  created : (files.manifest.replacements.map StagedReplacement.saved).Nodup
  separate : ∀ item ∈ files.manifest.paths, ∀ replacement ∈ files.manifest.replacements, item.saved ≠ replacement.saved
  covered : ∀ replacement ∈ files.manifest.replacements, ∃ item ∈ files.manifest.paths, item.path = replacement.path
  replaced : (files.manifest.replacements.map StagedReplacement.path).Nodup
  empty : ∀ replacement ∈ files.manifest.replacements, ∃ marker, replacement.tree = .directory marker []

theorem sound : files.Sound := by
  have valid := files.validated
  simp only [StagingManifest.validate, Lib.bind_ok, Lib.require_ok, Bool.and_eq_true, decide_eq_true_eq] at valid
  obtain ⟨_, staging, _, _, _, ⟨replaced, _⟩, _, checked, _, replacements, _, saved, disjoint⟩ := valid
  obtain ⟨each, distinct⟩ := validate_staged_paths checked
  obtain ⟨every, created⟩ := validate_replacements replacements
  refine ⟨validate_staging_path staging, fun item member => (each item member).1, fun item member => (each item member).2.2.2,
    distinct, ?_, saved, created, ?_, ?_, replaced, ?_⟩
  · intro first member other inside
    have pair := List.all_eq_true.mp (List.all_eq_true.mp disjoint first member) other inside
    simpa [Bool.or_eq_true] using pair
  · intro item member replacement inside same
    exact (every replacement inside).2.2.2 (List.mem_map.mpr ⟨item, member, same⟩)
  · intro replacement inside
    obtain ⟨item, member, same⟩ := List.mem_map.mp (every replacement inside).1
    exact ⟨item, member, same⟩
  · intro replacement inside
    have bare := (every replacement inside).2.2.1
    unfold isEmptyDirectory at bare
    split at bare
    · rename_i marker shape
      exact ⟨marker, shape⟩
    · cases bare
    · cases bare

inductive Place where
  | visible (item : StagedPath)
  | saved (item : StagedPath)
  | created (replacement : StagedReplacement)

@[simp] def Place.path : Place → ProjectPath
  | .visible item => item.path
  | .saved item => files.savedPath item.saved
  | .created replacement => files.savedPath replacement.saved

def Place.owner : Place → ProjectPath
  | .visible item => item.path
  | .saved item => item.path
  | .created replacement => replacement.path

def Place.Listed : Place → Prop
  | .visible item => item ∈ files.manifest.paths
  | .saved item => item ∈ files.manifest.paths
  | .created replacement => replacement ∈ files.manifest.replacements

variable {files}

theorem same_path {item other : StagedPath} (member : item ∈ files.manifest.paths) (inside : other ∈ files.manifest.paths)
    (same : item.path = other.path) : item = other :=
  List.inj_on_of_nodup_map files.sound.distinct member inside same

theorem same_replacement {item other : StagedReplacement} (member : item ∈ files.manifest.replacements)
    (inside : other ∈ files.manifest.replacements) (same : item.path = other.path) : item = other :=
  List.inj_on_of_nodup_map files.sound.replaced member inside same

theorem replacement_of {path : ProjectPath} {replacement : StagedReplacement}
    (found : files.replacementOf path = some replacement) :
    replacement ∈ files.manifest.replacements ∧ replacement.path = path := by
  have chosen := List.find?_some found
  exact ⟨List.mem_of_find?_eq_some found, by simpa using chosen⟩

theorem replacement_of_member {replacement : StagedReplacement} (member : replacement ∈ files.manifest.replacements) :
    files.replacementOf replacement.path = some replacement := by
  have exists_one : (files.replacementOf replacement.path).isSome := by
    rw [replacementOf, List.find?_isSome]
    exact ⟨replacement, member, by simp⟩
  obtain ⟨found, present⟩ := Option.isSome_iff_exists.mp exists_one
  obtain ⟨inside, same⟩ := replacement_of present
  rw [present, same_replacement inside member same]

theorem saved_apart {first second : String} (distinct : first ≠ second) :
    Apart (files.savedPath first) (files.savedPath second) := by
  constructor
  · intro inside
    have equal := (List.prefix_append_right_inj _).mp inside
    exact distinct (by simpa using equal)
  · intro inside
    have equal := (List.prefix_append_right_inj _).mp inside
    exact distinct (by simpa using Eq.symm (by simpa using equal))

theorem visible_saved_apart {item : StagedPath} (member : item ∈ files.manifest.paths) (saved : String) :
    Apart item.path (files.savedPath saved) := by
  obtain ⟨operation, shape⟩ := files.sound.staging
  have rooted := files.sound.rooted item member
  cases parts : item.path with
  | nil => simp [parts] at rooted
  | cons first rest =>
      rw [parts] at rooted
      obtain rfl : first = "node" := by simpa using rooted
      rw [savedPath, shape]
      constructor
      · intro inside
        simp [List.cons_prefix_cons] at inside
      · intro inside
        simp [List.cons_prefix_cons] at inside

theorem places_apart (first second : Place) (listed : first.Listed files) (other : second.Listed files)
    (distinct : first ≠ second) : Apart (first.path files) (second.path files) := by
  cases first with
  | visible item =>
      cases second with
      | visible there =>
          have apart : item.path ≠ there.path := fun same => distinct (by rw [same_path listed other same])
          exact ⟨(files.sound.disjoint there other item listed).resolve_left apart.symm,
            (files.sound.disjoint item listed there other).resolve_left apart⟩
      | saved there => exact visible_saved_apart listed _
      | created there => exact visible_saved_apart listed _
  | saved item =>
      cases second with
      | visible there => exact (visible_saved_apart other _).symm
      | saved there =>
          exact saved_apart fun same => distinct (by rw [List.inj_on_of_nodup_map files.sound.saved listed other same])
      | created there => exact saved_apart (files.sound.separate item listed there other)
  | created item =>
      cases second with
      | visible there => exact (visible_saved_apart other _).symm
      | saved there => exact saved_apart (files.sound.separate there other item listed).symm
      | created there =>
          exact saved_apart fun same => distinct (by rw [List.inj_on_of_nodup_map files.sound.created listed other same])

structure Recorded (sha256 : List UInt8 → String) (files : PreparationStaging) (base : Disk) : Prop where
  staging : base.look files.manifest.relative = some (.inr files.manifest.marker)
  originals : ∀ item ∈ files.manifest.paths, captureRecoveryTree sha256 base item.path = .ok item.original
  created : ∀ replacement ∈ files.manifest.replacements,
    captureRecoveryTree sha256 base (files.savedPath replacement.saved) = .ok (some replacement.tree)
  alone : ∀ name, base.find (files.savedPath name) = .ok none ∨
    ∃ replacement ∈ files.manifest.replacements, replacement.saved = name

def held (base : Disk) (path : ProjectPath) : Option Disk :=
  match base.find path with
  | .ok found => found
  | .error _ => none

inductive StagedState where
  | kept
  | moved
  | replaced
deriving DecidableEq

def content (files : PreparationStaging) (base : Disk) (state : ProjectPath → StagedState) : Place → Option Disk
  | .visible item =>
      match state item.path with
      | .kept => held base item.path
      | .moved => none
      | .replaced => (files.replacementOf item.path).bind fun replacement => held base (files.savedPath replacement.saved)
  | .saved item =>
      match state item.path with
      | .kept => none
      | .moved => held base item.path
      | .replaced => held base item.path
  | .created replacement =>
      match state replacement.path with
      | .kept => held base (files.savedPath replacement.saved)
      | .moved => held base (files.savedPath replacement.saved)
      | .replaced => none

structure Layout (files : PreparationStaging) (base : Disk) (state : ProjectPath → StagedState) (disk : Disk) : Prop where
  places : ∀ place : Place, place.Listed files → disk.find (place.path files) = .ok (content files base state place)
  outside : ∀ path, (∀ place : Place, place.Listed files → ¬ place.path files <+: path) → disk.look path = base.look path
  replaceable : ∀ path, state path = .replaced → (files.replacementOf path).isSome

section Transitions

variable {sha256 : List UInt8 → String} {base disk later : Disk} {state : ProjectPath → StagedState}

theorem find_held {path : ProjectPath} {record : Option TreeRecord}
    (captured : captureRecoveryTree sha256 base path = .ok record) :
    base.find path = .ok (held base path) ∧ Records sha256 (held base path) record := by
  obtain ⟨found, present, recorded⟩ := capture_ok.mp captured
  have same : held base path = found := by rw [held, present]
  rw [same]
  exact ⟨present, recorded⟩

theorem capture_held {path other : ProjectPath} {record : Option TreeRecord}
    (captured : captureRecoveryTree sha256 base path = .ok record) (there : disk.find other = .ok (held base path)) :
    captureRecoveryTree sha256 disk other = .ok record :=
  capture_ok.mpr ⟨_, there, (find_held captured).2⟩

theorem capture_none {other : ProjectPath} (there : disk.find other = .ok none) :
    captureRecoveryTree sha256 disk other = .ok none :=
  capture_ok.mpr ⟨none, there, trivial⟩

theorem recorded_layout (recorded : Recorded sha256 files base) : Layout files base (fun _ => .kept) base := by
  refine ⟨fun place listed => ?_, fun _ _ => rfl, fun _ moved => by cases moved⟩
  cases place with
  | visible item => exact (find_held (recorded.originals item listed)).1
  | saved item =>
      rcases recorded.alone item.saved with absent | ⟨replacement, member, same⟩
      · exact absent
      · exact absurd same.symm (files.sound.separate item listed replacement member)
  | created replacement => exact (find_held (recorded.created replacement listed)).1

theorem content_elsewhere {path : ProjectPath} {value : StagedState} {place : Place} (elsewhere : place.owner ≠ path) :
    content files base (Function.update state path value) place = content files base state place := by
  cases place <;> simp_all [content, Place.owner]

theorem layout_move {next : ProjectPath → StagedState} (layout : Layout files base state disk) (source target : Place)
    (from_listed : source.Listed files) (to_listed : target.Listed files) (distinct : source ≠ target)
    (moved : disk.move (source.path files) (target.path files) = .ok later)
    (emptied : content files base next source = none)
    (filled : content files base next target = content files base state source)
    (others : ∀ place : Place, place.Listed files → place ≠ source → place ≠ target →
      content files base next place = content files base state place)
    (replaceable : ∀ path, next path = .replaced → (files.replacementOf path).isSome) :
    Layout files base next later := by
  have apart := places_apart _ _ from_listed to_listed distinct
  obtain ⟨carried, present, _, gone, arrived⟩ := Lib.FileTree.move_places moved apart
  have carries : content files base state source = some carried := by
    have known := layout.places source from_listed
    rw [present] at known
    exact (Except.ok.inj known).symm
  refine ⟨fun place listed => ?_, fun path clear => ?_, replaceable⟩
  · by_cases first : place = source
    · rw [first, gone, emptied]
    · by_cases second : place = target
      · rw [second, arrived, filled, carries]
      · rw [Lib.FileTree.find_move_apart moved (places_apart _ _ from_listed listed (Ne.symm first))
          (places_apart _ _ to_listed listed (Ne.symm second)), layout.places place listed, others place listed first second]
  · rw [Lib.FileTree.look_move moved (clear source from_listed) (clear target to_listed), layout.outside path clear]

theorem move_met (layout : Layout files base state disk) (source target : Place) (from_listed : source.Listed files)
    (to_listed : target.Listed files) (distinct : source ≠ target)
    (moved : disk.move (source.path files) (target.path files) = .ok later) :
    content files base state source ≠ none ∧ content files base state target = none := by
  obtain ⟨carried, present, absent, _, _⟩ := Lib.FileTree.move_places moved (places_apart _ _ from_listed to_listed distinct)
  rw [layout.places source from_listed] at present
  rw [layout.places target to_listed] at absent
  exact ⟨by simp [Except.ok.inj present], Except.ok.inj absent⟩

theorem replaceable_update {path : ProjectPath} {value : StagedState} (layout : Layout files base state disk)
    (allowed : value = .replaced → (files.replacementOf path).isSome) :
    ∀ other, Function.update state path value other = .replaced → (files.replacementOf other).isSome := by
  intro other now
  by_cases same : other = path
  · subst same
    exact allowed (by simpa using now)
  · exact layout.replaceable other (by simpa [same] using now)

theorem take_layout {item : StagedPath} (recorded : Recorded sha256 files base) (layout : Layout files base state disk)
    (member : item ∈ files.manifest.paths) (existed : item.existed = true)
    (moved : disk.move item.path (files.savedPath item.saved) = .ok later) :
    Layout files base (Function.update state item.path .moved) later := by
  have distinct : Place.visible item ≠ Place.saved item := by simp
  obtain ⟨full, free⟩ := move_met layout (.visible item) (.saved item) member member distinct moved
  have original : held base item.path ≠ none := by
    have some_record : item.original.isSome := by rw [← files.sound.existed item member, existed]
    rw [← records_isSome (find_held (recorded.originals item member)).2] at some_record
    exact Option.isSome_iff_ne_none.mp some_record
  have kept : state item.path = .kept := by
    cases now : state item.path with
    | kept => rfl
    | moved => simp [content, now] at full
    | replaced => exact absurd (by simpa [content, now] using free) original
  refine layout_move layout (.visible item) (.saved item) member member distinct moved
    (by simp [content]) (by simp [content, kept]) (fun place listed first second => ?_)
    (replaceable_update layout (by simp))
  by_cases owner : place.owner = item.path
  · cases place with
    | visible other => exact absurd (by rw [same_path listed member owner]) first
    | saved other => exact absurd (by rw [same_path listed member owner]) second
    | created replacement =>
        have here : replacement.path = item.path := owner
        simp [content, here, kept]
  · exact content_elsewhere owner

theorem place_layout {item : StagedPath} {replacement : StagedReplacement} (layout : Layout files base state disk)
    (member : item ∈ files.manifest.paths) (inside : replacement ∈ files.manifest.replacements)
    (same : item.path = replacement.path)
    (moved : disk.move (files.savedPath replacement.saved) replacement.path = .ok later) :
    Layout files base (Function.update state item.path .replaced) later := by
  have distinct : Place.created replacement ≠ Place.visible item := by simp
  have onto : disk.move ((Place.created replacement).path files) ((Place.visible item).path files) = .ok later := by
    rw [← same] at moved
    exact moved
  obtain ⟨full, free⟩ := move_met layout (.created replacement) (.visible item) inside member distinct onto
  have chosen : files.replacementOf item.path = some replacement := by rw [same, replacement_of_member inside]
  have current : state replacement.path ≠ .replaced := by
    intro now
    simp [content, now] at full
  refine layout_move layout (.created replacement) (.visible item) inside member distinct onto
    (by simp [content, ← same]) ?_ (fun place listed first second => ?_) (replaceable_update layout fun _ => by simp [chosen])
  · cases now : state replacement.path with
    | kept => simp [content, chosen, now]
    | moved => simp [content, chosen, now]
    | replaced => exact absurd now current
  · by_cases owner : place.owner = item.path
    · cases place with
      | visible other => exact absurd (by rw [same_path listed member owner]) second
      | saved other =>
          obtain rfl := same_path listed member owner
          have here : state other.path ≠ .replaced := by rw [same]; exact current
          cases now : state other.path with
          | kept =>
              have empty : held base other.path = none := by simpa [content, now] using free
              simp [content, now, empty]
          | moved => simp [content, now]
          | replaced => exact absurd now here
      | created other =>
          have there : other.path = replacement.path := owner.trans same
          exact absurd (by rw [same_replacement listed inside there]) first
    · exact content_elsewhere owner

theorem held_created (recorded : Recorded sha256 files base) {replacement : StagedReplacement}
    (inside : replacement ∈ files.manifest.replacements) : held base (files.savedPath replacement.saved) ≠ none := by
  have full := records_isSome (find_held (recorded.created replacement inside)).2
  exact Option.isSome_iff_ne_none.mp (by rw [full]; rfl)

theorem detach_layout {item : StagedPath} {replacement : StagedReplacement} (recorded : Recorded sha256 files base)
    (layout : Layout files base state disk) (member : item ∈ files.manifest.paths)
    (inside : replacement ∈ files.manifest.replacements) (same : item.path = replacement.path)
    (moved : disk.move replacement.path (files.savedPath replacement.saved) = .ok later) :
    Layout files base (Function.update state item.path .moved) later := by
  have distinct : Place.visible item ≠ Place.created replacement := by simp
  have off : disk.move ((Place.visible item).path files) ((Place.created replacement).path files) = .ok later := by
    rw [← same] at moved
    exact moved
  obtain ⟨_, free⟩ := move_met layout (.visible item) (.created replacement) member inside distinct off
  have chosen : files.replacementOf item.path = some replacement := by rw [same, replacement_of_member inside]
  have placed : state item.path = .replaced := by
    rw [same]
    cases now : state replacement.path with
    | kept => exact absurd (by simpa [content, now] using free) (held_created recorded inside)
    | moved => exact absurd (by simpa [content, now] using free) (held_created recorded inside)
    | replaced => rfl
  refine layout_move layout (.visible item) (.created replacement) member inside distinct off
    (by simp [content]) (by simp [content, ← same, placed, chosen]) (fun place listed first second => ?_)
    (replaceable_update layout (by simp))
  by_cases owner : place.owner = item.path
  · cases place with
    | visible other => exact absurd (by rw [same_path listed member owner]) first
    | saved other =>
        have here : other.path = item.path := owner
        simp [content, here, placed]
    | created other => exact absurd (by rw [same_replacement listed inside (owner.trans same)]) second
  · exact content_elsewhere owner

theorem return_layout {item : StagedPath} (recorded : Recorded sha256 files base) (layout : Layout files base state disk)
    (member : item ∈ files.manifest.paths) (moved : disk.move (files.savedPath item.saved) item.path = .ok later) :
    Layout files base (Function.update state item.path .kept) later := by
  have distinct : Place.saved item ≠ Place.visible item := by simp
  obtain ⟨full, free⟩ := move_met layout (.saved item) (.visible item) member member distinct moved
  have aside : state item.path = .moved := by
    cases now : state item.path with
    | kept => simp [content, now] at full
    | moved => rfl
    | replaced =>
        obtain ⟨replacement, chosen⟩ := Option.isSome_iff_exists.mp (layout.replaceable _ now)
        have missing : held base (files.savedPath replacement.saved) = none := by
          simpa [content, now, chosen] using free
        exact absurd missing (held_created recorded (replacement_of chosen).1)
  refine layout_move layout (.saved item) (.visible item) member member distinct moved
    (by simp [content]) (by simp [content, aside]) (fun place listed first second => ?_)
    (replaceable_update layout (by simp))
  by_cases owner : place.owner = item.path
  · cases place with
    | visible other => exact absurd (by rw [same_path listed member owner]) second
    | saved other => exact absurd (by rw [same_path listed member owner]) first
    | created replacement =>
        have here : replacement.path = item.path := owner
        simp [content, here, aside]
  · exact content_elsewhere owner

end Transitions

end PreparationStaging

end MicroWorkflow
