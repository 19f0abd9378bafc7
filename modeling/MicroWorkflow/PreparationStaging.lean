import MicroWorkflow.RecoveryTree
import MicroWorkflow.Lib.Script

set_option autoImplicit false

-- Files that one component preparation moves aside, from the manifest its receipt keeps. Every check reads
-- the project; only moves, mode changes and removals are steps at which the process can end.
namespace MicroWorkflow

structure StagedPath where
  path : ProjectPath
  saved : String
  existed : Bool
  original : Option TreeRecord
deriving DecidableEq

structure StagedReplacement where
  path : ProjectPath
  saved : String
  tree : TreeRecord
deriving DecidableEq

structure StagingManifest where
  relative : ProjectPath
  marker : DirectoryMarker
  paths : List StagedPath
  directories : List ProjectPath
  replacements : List StagedReplacement

def isDecimalName (name : String) : Bool := decide (name ≠ "") && name.toList.all Char.isDigit

def isCreatedName (name : String) : Bool :=
  decide (name.toList.take 8 = "created_".toList) && decide (name.toList.drop 8 ≠ []) && (name.toList.drop 8).all Char.isDigit

def validateStagedPaths : List ProjectPath → List StagedPath → Except String Unit
  | _, [] => .ok ()
  | seen, item :: rest => do
      recoveryPath item.path
      Lib.require (decide (item.path.head? = some "node") && decide (2 ≤ item.path.length) &&
        decide (item.path ∉ seen) && isDecimalName item.saved) "Invalid preparation original path"
      Lib.require (item.existed == item.original.isSome) "Invalid preparation original existence"
      match item.original with
      | none => validateStagedPaths (item.path :: seen) rest
      | some record => do
          validateTreeRecord record
          validateStagedPaths (item.path :: seen) rest

def isEmptyDirectory : TreeRecord → Bool
  | .directory _ [] => true
  | .directory _ (_ :: _) => false
  | .leaf _ => false

def validateReplacements (paths : List ProjectPath) : List String → List StagedReplacement → Except String Unit
  | _, [] => .ok ()
  | names, item :: rest => do
      Lib.require (decide (item.path ∈ paths) && isCreatedName item.saved) "Invalid preparation replacement path"
      validateTreeRecord item.tree
      Lib.require (isEmptyDirectory item.tree) "Preparation replacement must be an empty recorded directory"
      Lib.refuse (decide (item.saved ∈ names)) "Duplicate preparation staging name"
      validateReplacements paths (item.saved :: names) rest

def validateStagingPath : ProjectPath → Except String Unit
  | [directory, trash, operation] => do
      Lib.require (decide (directory = ".mwf") && decide (trash = "preparation-trash")) "Invalid preparation staging path"
      Lib.require (isDigest 32 operation) "Invalid preparation operation identity"
  | _ => .error "Invalid preparation staging path"

def StagingManifest.validate (manifest : StagingManifest) : Except String Unit := do
  validateStagingPath manifest.relative
  Lib.require (isDirectoryMode manifest.marker.mode) "Invalid preparation staging directory identity"
  Lib.require (decide (manifest.replacements.map StagedReplacement.path).Nodup &&
    decide (manifest.directories = manifest.replacements.map StagedReplacement.path))
    "Invalid preparation replacement directories"
  validateStagedPaths [] manifest.paths
  validateReplacements (manifest.paths.map StagedPath.path) (manifest.paths.map StagedPath.saved) manifest.replacements
  Lib.require (decide (manifest.paths.map StagedPath.saved).Nodup) "Duplicate preparation original name"
  Lib.require (manifest.paths.all fun first => manifest.paths.all fun other =>
    decide (first.path = other.path) || decide (¬ other.path <+: first.path)) "Overlapping preparation original paths"

structure PreparationStaging where
  manifest : StagingManifest
  validated : manifest.validate = .ok ()

namespace PreparationStaging

variable (sha256 : List UInt8 → String) (files : PreparationStaging)

def savedPath (saved : String) : ProjectPath := files.manifest.relative ++ [saved]

def knownPrivate : List (String × Option TreeRecord) :=
  files.manifest.paths.map (fun item => (item.saved, item.original)) ++
    files.manifest.replacements.map fun item => (item.saved, some item.tree)

def replacementOf (path : ProjectPath) : Option StagedReplacement :=
  files.manifest.replacements.find? fun item => decide (item.path = path)

def privateMatches (cleanup : Bool) (actual expected : Option TreeRecord) : Bool :=
  actual.isNone || if cleanup then knownRemainingTree actual expected else decide (actual = expected)

def requirePrivate (cleanup : Bool) (disk : Disk) : Except String Unit := do
  match ← disk.find files.manifest.relative with
  | none => .error "No such file or directory"
  | some (.leaf _) => .error "Preparation staging directory identity changed"
  | some (.directory marker children) => do
      Lib.require (decide (marker = files.manifest.marker)) "Preparation staging directory identity changed"
      Lib.require (children.all fun child => decide (child.1 ∈ files.knownPrivate.map Prod.fst))
        "Preparation staging contains unexpected private entries"
      Lib.each (fun known => do
        let actual ← captureRecoveryTree sha256 disk (files.savedPath known.1)
        Lib.require (privateMatches cleanup actual known.2) ("Preparation saved material changed: " ++ known.1))
        files.knownPrivate

def requireUnstaged (disk : Disk) : Except String Unit :=
  Lib.each (fun item => do
    let visible ← captureRecoveryTree sha256 disk item.path
    Lib.require (decide (visible = item.original)) ("Preparation original changed before staging: " ++ projectPath item.path)
    let saved ← captureRecoveryTree sha256 disk (files.savedPath item.saved)
    Lib.require (decide (saved = none)) ("Preparation original changed before staging: " ++ projectPath item.path))
    files.manifest.paths

def stageOriginal (item : StagedPath) : Lib.Script Disk Unit :=
  if item.existed then do
    Lib.Script.observe fun disk => do
      let visible ← captureRecoveryTree sha256 disk item.path
      Lib.require (decide (visible = item.original)) "Preparation original changed before move"
    Lib.Script.change (Lib.FileTree.move item.path (files.savedPath item.saved))
  else pure ()

def placeReplacement (item : StagedReplacement) : Lib.Script Disk Unit := do
  Lib.Script.observe fun disk => do
    let visible ← captureRecoveryTree sha256 disk item.path
    Lib.require (decide (visible = none)) "Preparation output replacement appeared before publication"
  Lib.Script.change (Lib.FileTree.move (files.savedPath item.saved) item.path)

def stage : Lib.Script Disk Unit := do
  Lib.Script.observe (files.requirePrivate sha256 false)
  Lib.Script.observe (files.requireUnstaged sha256)
  Lib.Script.forEach (files.stageOriginal sha256) files.manifest.paths
  Lib.Script.forEach (files.placeReplacement sha256) files.manifest.replacements

def requireReplaced (disk : Disk) (item : StagedPath) (found : TreeRecord) : Except String Unit := do
  let error := "Preparation restoration target changed: " ++ projectPath item.path
  match files.replacementOf item.path with
  | none => .error error
  | some replacement => do
      Lib.require (decide (found = replacement.tree)) error
      let detached ← captureRecoveryTree sha256 disk (files.savedPath replacement.saved)
      Lib.require (decide (detached = none)) error

def restorationStep (disk : Disk) (item : StagedPath) : Except String (Option (StagedPath × Bool)) := do
  let visible ← captureRecoveryTree sha256 disk item.path
  let saved ← captureRecoveryTree sha256 disk (files.savedPath item.saved)
  if visible = item.original ∧ saved = none then pure none
  else do
    match visible with
    | none => pure ()
    | some found => files.requireReplaced sha256 disk item found
    Lib.require (decide (saved = item.original)) ("Preparation original is missing or changed: " ++ projectPath item.path)
    pure (some (item, visible.isSome))

def restorationSteps (disk : Disk) : Except String (List (StagedPath × Bool)) := do
  files.requirePrivate sha256 false disk
  let steps ← Lib.collect (files.restorationStep sha256 disk) files.manifest.paths
  pure (steps.filterMap id)

def requireDetached (replacement : StagedReplacement) (error : String) (disk : Disk) : Except String Unit := do
  let saved ← captureRecoveryTree sha256 disk (files.savedPath replacement.saved)
  Lib.require (decide (saved = some replacement.tree)) error

def detachReplacement (replacement : StagedReplacement) : Lib.Script Disk Unit := do
  Lib.Script.change (Lib.FileTree.move replacement.path (files.savedPath replacement.saved))
  Lib.Script.onRaise
    (Lib.Script.observe (files.requireDetached sha256 replacement
      ("Preparation replacement changed before removal: " ++ projectPath replacement.path)))
    (Lib.Script.change (Lib.FileTree.move (files.savedPath replacement.saved) replacement.path))

def returnDetached (detached : List StagedReplacement) : Lib.Script Disk Unit :=
  Lib.Script.forEach (fun replacement => Lib.Script.attempt do
    Lib.Script.observe (files.requireDetached sha256 replacement "Detached preparation replacement changed")
    Lib.Script.change (Lib.FileTree.move (files.savedPath replacement.saved) replacement.path)) detached

def requirePlaced (replacement : StagedReplacement) (disk : Disk) : Except String Unit := do
  let visible ← captureRecoveryTree sha256 disk replacement.path
  Lib.require (decide (visible = some replacement.tree)) "Preparation replacement changed before removal"

-- The steps come last first; detached lists, last first too, what a failure has to put back.
def detachReplacements : List StagedReplacement → List (StagedPath × Bool) → Lib.Script Disk Unit
  | _, [] => pure ()
  | detached, (_, false) :: rest => detachReplacements detached rest
  | detached, (item, true) :: rest =>
      match files.replacementOf item.path with
      | none => Lib.Script.onRaise (Lib.Script.observe fun _ => .error "StopIteration") (files.returnDetached sha256 detached)
      | some replacement => do
          Lib.Script.onRaise (do
            Lib.Script.observe (requirePlaced sha256 replacement)
            files.detachReplacement sha256 replacement) (files.returnDetached sha256 detached)
          detachReplacements (replacement :: detached) rest

def restoreOriginal (item : StagedPath) : Lib.Script Disk Unit :=
  if item.original.isSome then do
    Lib.Script.observe fun disk => do
      let saved ← captureRecoveryTree sha256 disk (files.savedPath item.saved)
      Lib.require (decide (saved = item.original)) "Preparation original changed before restoration"
    Lib.Script.change (Lib.FileTree.move (files.savedPath item.saved) item.path)
  else pure ()

def requireRestored (disk : Disk) : Except String Unit :=
  Lib.each (fun item => do
    let visible ← captureRecoveryTree sha256 disk item.path
    Lib.require (decide (visible = item.original))
      ("Preparation restoration did not preserve the original: " ++ projectPath item.path)) files.manifest.paths

def restore : Lib.Script Disk Unit := do
  let steps ← Lib.Script.observe (files.restorationSteps sha256)
  files.detachReplacements sha256 [] steps.reverse
  Lib.Script.forEach (fun step => files.restoreOriginal sha256 step.1) steps.reverse
  Lib.Script.observe (files.requireRestored sha256)

def captureKnown (relative : ProjectPath) (expected : TreeRecord) (error : String) (disk : Disk) :
    Except String (Option TreeRecord) := do
  let actual ← captureRecoveryTree sha256 disk relative
  Lib.require (knownRemainingTree actual (some expected)) error
  pure actual

def recordMode : TreeRecord → FileMode
  | .leaf record => record.marker.mode
  | .directory marker _ => marker.mode

def recordNames : TreeRecord → List String
  | .leaf _ => []
  | .directory _ children => children.map Prod.fst

mutual
def removeRecordedTree (relative : ProjectPath) : TreeRecord → Lib.Script Disk Unit
  | .leaf expected => do
      match ← Lib.Script.observe (captureKnown sha256 relative (.leaf expected)
        ("Preparation saved material changed before cleanup: " ++ projectPath relative)) with
      | none => pure ()
      | some actual => do
          Lib.Script.change (chmod relative (permissionBits (recordMode actual) ||| ownerWrite))
          let _ ← Lib.Script.observe (captureKnown sha256 relative (.leaf expected)
            ("Preparation saved file changed before cleanup: " ++ projectPath relative))
          Lib.Script.change (unlink relative)
  | .directory marker children => do
      match ← Lib.Script.observe (captureKnown sha256 relative (.directory marker children)
        ("Preparation saved material changed before cleanup: " ++ projectPath relative)) with
      | none => pure ()
      | some actual => do
          removeRecordedMembers relative (recordNames actual) children
          match ← Lib.Script.observe (captureKnown sha256 relative (.directory marker children)
            ("Preparation saved directory changed before cleanup: " ++ projectPath relative)) with
          | none => pure ()
          | some left => do
              Lib.Script.observe fun _ => Lib.require (recordNames left).isEmpty
                ("Preparation saved directory changed before cleanup: " ++ projectPath relative)
              Lib.Script.change (rmdir relative)
def removeRecordedMembers (relative : ProjectPath) (present : List String) :
    List (String × TreeRecord) → Lib.Script Disk Unit
  | [] => pure ()
  | (name, expected) :: rest => do
      if name ∈ present then removeRecordedTree (relative ++ [name]) expected else pure ()
      removeRecordedMembers relative present rest
end

def removeKnown (known : String × Option TreeRecord) : Lib.Script Disk Unit :=
  match known.2 with
  | none => Lib.Script.observe fun disk => do
      let actual ← captureRecoveryTree sha256 disk (files.savedPath known.1)
      Lib.require actual.isNone ("Preparation saved material changed before cleanup: " ++ projectPath (files.savedPath known.1))
  | some expected => removeRecordedTree sha256 (files.savedPath known.1) expected

def discard : Lib.Script Disk Unit := do
  Lib.Script.observe (files.requirePrivate sha256 true)
  Lib.Script.forEach (files.removeKnown sha256) files.knownPrivate
  Lib.Script.observe (files.requirePrivate sha256 true)
  Lib.Script.change (rmdir files.manifest.relative)

end PreparationStaging

end MicroWorkflow
