import MicroWorkflow.Lib.FileTree
import MicroWorkflow.Lib.Guarded
import Mathlib.Data.String.Defs

set_option autoImplicit false

namespace MicroWorkflow

abbrev FileMode := BitVec 16

def permissionBits (mode : FileMode) : FileMode := mode &&& 0o7777#16

def formatBits (mode : FileMode) : FileMode := mode &&& 0o170000#16

def ownerWrite : FileMode := 0o200#16

def writableFileMode (mode : FileMode) : FileMode := mode ||| ownerWrite

def changedMode (mode bits : FileMode) : FileMode := formatBits mode ||| permissionBits bits

structure DirectoryMarker where
  device : Nat
  inode : Nat
  mode : FileMode
deriving DecidableEq, Repr

structure FileMarker where
  device : Nat
  inode : Nat
  mode : FileMode
  size : Nat
  modified : Nat
deriving DecidableEq, Repr

structure FileRecord where
  marker : FileMarker
  sha256 : String
deriving DecidableEq, Repr

structure RegularFile where
  device : Nat
  inode : Nat
  mode : FileMode
  modified : Nat
  content : List UInt8
deriving DecidableEq, Repr

inductive DiskLeaf where
  | file (body : RegularFile)
  | special
deriving DecidableEq, Repr

abbrev Disk := Lib.FileTree String DiskLeaf DirectoryMarker

abbrev TreeRecord := Lib.FileTree String FileRecord DirectoryMarker

abbrev ProjectPath := List String

def projectPath (path : ProjectPath) : String := String.intercalate "/" path

def RegularFile.marker (file : RegularFile) : FileMarker :=
  { device := file.device, inode := file.inode, mode := file.mode, size := file.content.length, modified := file.modified }

def RegularFile.record (sha256 : List UInt8 → String) (file : RegularFile) : FileRecord :=
  { marker := file.marker, sha256 := sha256 file.content }

mutual
def recordOf (sha256 : List UInt8 → String) : Disk → Except ProjectPath TreeRecord
  | .leaf (.file body) => .ok (.leaf (body.record sha256))
  | .leaf .special => .error []
  | .directory marker children =>
      match recordChildren sha256 children with
      | .error below => .error below
      | .ok records => .ok (.directory marker records)
def recordChildren (sha256 : List UInt8 → String) : List (String × Disk) → Except ProjectPath (List (String × TreeRecord))
  | [] => .ok []
  | (name, child) :: rest =>
      match recordOf sha256 child with
      | .error below => .error (name :: below)
      | .ok record =>
          match recordChildren sha256 rest with
          | .error below => .error below
          | .ok records => .ok ((name, record) :: records)
end

def captureRecoveryTree (sha256 : List UInt8 → String) (disk : Disk) (relative : ProjectPath) :
    Except String (Option TreeRecord) :=
  match disk.find relative with
  | .error reason => .error reason
  | .ok none => .ok none
  | .ok (some tree) =>
      match recordOf sha256 tree with
      | .error below => .error ("Recovery tree contains a special file: " ++ projectPath (relative ++ below))
      | .ok record => .ok (some record)

def Records (sha256 : List UInt8 → String) : Option Disk → Option TreeRecord → Prop
  | none, none => True
  | some tree, some record => recordOf sha256 tree = .ok record
  | none, some _ => False
  | some _, none => False

theorem capture_ok {sha256 : List UInt8 → String} {disk : Disk} {relative : ProjectPath} {record : Option TreeRecord} :
    captureRecoveryTree sha256 disk relative = .ok record ↔
      ∃ found, disk.find relative = .ok found ∧ Records sha256 found record := by
  unfold captureRecoveryTree
  cases present : disk.find relative with
  | error reason => simp
  | ok found =>
      cases found with
      | none => cases record <;> simp [Records]
      | some tree =>
          cases recorded : recordOf sha256 tree with
          | error below => cases record <;> simp [Records, recorded]
          | ok result => cases record <;> simp [Records, recorded]

theorem records_isSome {sha256 : List UInt8 → String} {found : Option Disk} {record : Option TreeRecord}
    (recorded : Records sha256 found record) : found.isSome = record.isSome := by
  cases found <;> cases record <;> simp_all [Records]

def knownFile (actual expected : FileRecord) : Bool :=
  decide (actual.marker.device = expected.marker.device) && decide (actual.marker.inode = expected.marker.inode) &&
    decide (actual.marker.size = expected.marker.size) && decide (actual.marker.modified = expected.marker.modified) &&
    (decide (actual.marker.mode = expected.marker.mode) ||
      decide (actual.marker.mode = writableFileMode expected.marker.mode)) &&
    decide (actual.sha256 = expected.sha256)

mutual
def knownTree : TreeRecord → TreeRecord → Bool
  | .leaf actual, .leaf expected => knownFile actual expected
  | .directory marker children, .directory expected records => decide (marker = expected) && knownChildren children records
  | .leaf _, .directory _ _ => false
  | .directory _ _, .leaf _ => false
def knownChildren : List (String × TreeRecord) → List (String × TreeRecord) → Bool
  | [], _ => true
  | (name, child) :: rest, records =>
      (match Lib.FileTree.entry name records with
        | none => false
        | some expected => knownTree child expected) && knownChildren rest records
end

def knownRemainingTree (actual expected : Option TreeRecord) : Bool :=
  match actual, expected with
  | none, _ => true
  | some _, none => false
  | some remaining, some recorded => knownTree remaining recorded

def ordinaryPart (part : String) : Bool :=
  decide (part ≠ "") && decide (part ≠ ".") && decide (part ≠ "..") &&
    part.toList.all fun character => decide (character ≠ '/' ∧ character ≠ '\\' ∧ character ≠ ':')

-- recovery_path, without its walk for links: a link is a special file here.
def recoveryPath (path : ProjectPath) : Except String Unit :=
  Lib.require (decide (path ≠ []) && path.all ordinaryPart) "Recovery requires an ordinary relative path"

theorem made_writable (mode : FileMode) : changedMode mode (permissionBits mode ||| ownerWrite) = writableFileMode mode := by
  have parts : (0o170000#16 ||| 0o7777#16) = BitVec.allOnes 16 := by decide
  have inside : 0o200#16 &&& 0o7777#16 = 0o200#16 := by decide
  show (mode &&& 0o170000#16) ||| ((mode &&& 0o7777#16 ||| 0o200#16) &&& 0o7777#16) = mode ||| 0o200#16
  calc (mode &&& 0o170000#16) ||| ((mode &&& 0o7777#16 ||| 0o200#16) &&& 0o7777#16)
      = (mode &&& 0o170000#16) ||| ((mode &&& 0o7777#16) ||| 0o200#16) := by
        rw [BitVec.and_or_distrib_right, inside, BitVec.and_assoc, BitVec.and_self]
    _ = (mode &&& (0o170000#16 ||| 0o7777#16)) ||| 0o200#16 := by rw [BitVec.and_or_distrib_left, BitVec.or_assoc]
    _ = mode ||| 0o200#16 := by rw [parts, BitVec.and_allOnes]

theorem writable_writable (mode : FileMode) : writableFileMode (writableFileMode mode) = writableFileMode mode := by
  simp [writableFileMode, BitVec.or_assoc]

def isDirectoryMode (mode : FileMode) : Bool := decide (formatBits mode = 0o040000#16)

def isRegularMode (mode : FileMode) : Bool := decide (formatBits mode = 0o100000#16)

def isHexDigit (character : Char) : Bool := character.isDigit || (decide ('a' ≤ character) && decide (character ≤ 'f'))

def isDigest (length : Nat) (text : String) : Bool := decide (text.length = length) && text.toList.all isHexDigit

mutual
def validateTreeRecord : TreeRecord → Except String Unit
  | .leaf record => Lib.require (isRegularMode record.marker.mode && isDigest 64 record.sha256) "Invalid recovery file record"
  | .directory marker children =>
      if isDirectoryMode marker.mode then validateTreeMembers children
      else .error "Invalid recovery directory record"
def validateTreeMembers : List (String × TreeRecord) → Except String Unit
  | [] => .ok ()
  | (name, child) :: rest =>
      if ordinaryPart name then
        match validateTreeRecord child with
        | .error reason => .error reason
        | .ok () => validateTreeMembers rest
      else .error "Invalid recovery directory member"
end

section System

open Lib (FileTree)

def chmod (path : ProjectPath) (bits : FileMode) (disk : Disk) : Except String Disk :=
  match disk.find path with
  | .error reason => .error reason
  | .ok none => .error "No such file or directory"
  | .ok (some (.leaf (.file body))) =>
      disk.put (some (.leaf (.file { body with mode := changedMode body.mode bits }))) path
  | .ok (some (.leaf .special)) => .error "Operation not supported"
  | .ok (some (.directory marker children)) =>
      disk.put (some (.directory { marker with mode := changedMode marker.mode bits } children)) path

def unlink (path : ProjectPath) (disk : Disk) : Except String Disk :=
  match disk.find path with
  | .error reason => .error reason
  | .ok none => .error "No such file or directory"
  | .ok (some (.leaf _)) => disk.put none path
  | .ok (some (.directory _ _)) => .error "Is a directory"

def rmdir (path : ProjectPath) (disk : Disk) : Except String Disk :=
  match disk.find path with
  | .error reason => .error reason
  | .ok none => .error "No such file or directory"
  | .ok (some (.leaf _)) => .error "Not a directory"
  | .ok (some (.directory _ [])) => disk.put none path
  | .ok (some (.directory _ (_ :: _))) => .error "Directory not empty"

variable {disk later : Disk} {path other : ProjectPath}

theorem look_leaf_below {body : DiskLeaf} {below : ProjectPath} (deeper : below ≠ []) :
    (Lib.FileTree.leaf body : Disk).look below = none := by
  cases below with
  | nil => exact absurd rfl deeper
  | cons name rest => rfl

theorem look_empty_below {marker : DirectoryMarker} {below : ProjectPath} (deeper : below ≠ []) :
    (Lib.FileTree.directory marker [] : Disk).look below = none := by
  cases below with
  | nil => exact absurd rfl deeper
  | cons name rest => rfl

theorem look_put_bare {tree : Disk} {value : Option Disk} (present : disk.find path = .ok (some tree))
    (done : disk.put value path = .ok later) (bare : ∀ below, below ≠ [] → tree.look below = none)
    (clean : ∀ below inner, below ≠ [] → value = some inner → inner.look below = none) (elsewhere : other ≠ path) :
    later.look other = disk.look other := by
  by_cases inside : path <+: other
  · obtain ⟨below, rfl⟩ := inside
    have deeper : below ≠ [] := by
      rintro rfl
      exact elsewhere (by simp)
    rw [FileTree.look_below present, FileTree.look_below (FileTree.find_put done), Option.bind_some, bare below deeper]
    cases value with
    | none => rfl
    | some inner => exact clean below inner deeper rfl
  · exact FileTree.look_put done inside

theorem chmod_file_ok {bits : FileMode} {body : RegularFile} (changed : chmod path bits disk = .ok later)
    (present : disk.look path = some (.inl (.file body))) :
    later.look path = some (.inl (.file { body with mode := changedMode body.mode bits })) ∧
      ∀ other, other ≠ path → later.look other = disk.look other := by
  unfold chmod at changed
  split at changed
  · cases changed
  · cases changed
  · rename_i found here
    rw [FileTree.look_of_find here] at present
    obtain rfl : found = body := by simpa [FileTree.heading] using present
    refine ⟨by rw [FileTree.look_of_find (FileTree.find_put changed)]; rfl, fun other elsewhere => ?_⟩
    refine look_put_bare here changed (fun _ deeper => look_leaf_below deeper) ?_ elsewhere
    intro below inner deeper same
    obtain rfl := Option.some.inj same
    exact look_leaf_below deeper
  · cases changed
  · rename_i marker children here
    rw [FileTree.look_of_find here] at present
    simp [FileTree.heading] at present

theorem unlink_ok (removed : unlink path disk = .ok later) :
    (∃ body, disk.look path = some (.inl body)) ∧ later.look path = none ∧
      ∀ other, other ≠ path → later.look other = disk.look other := by
  unfold unlink at removed
  split at removed
  · cases removed
  · cases removed
  · rename_i body here
    refine ⟨⟨body, by rw [FileTree.look_of_find here]; rfl⟩, by rw [FileTree.look_of_find (FileTree.find_put removed)]; rfl,
      fun other elsewhere => ?_⟩
    exact look_put_bare here removed (fun _ deeper => look_leaf_below deeper) (fun _ _ _ same => by cases same) elsewhere
  · cases removed

theorem rmdir_ok (removed : rmdir path disk = .ok later) :
    ∃ marker, disk.find path = .ok (some (.directory marker [])) ∧ disk.put none path = .ok later ∧
      later.look path = none ∧ ∀ other, other ≠ path → later.look other = disk.look other := by
  unfold rmdir at removed
  split at removed
  · cases removed
  · cases removed
  · cases removed
  · rename_i marker here
    refine ⟨marker, here, removed, by rw [FileTree.look_of_find (FileTree.find_put removed)]; rfl, fun other elsewhere => ?_⟩
    exact look_put_bare here removed (fun _ deeper => look_empty_below deeper) (fun _ _ _ same => by cases same) elsewhere
  · cases removed

theorem captured_heading {sha256 : List UInt8 → String} {relative : ProjectPath} {record : TreeRecord}
    (captured : captureRecoveryTree sha256 disk relative = .ok (some record)) :
    (∃ body, disk.look relative = some (.inl (.file body)) ∧ record = .leaf (body.record sha256)) ∨
      ∃ marker records, disk.look relative = some (.inr marker) ∧ record = .directory marker records := by
  obtain ⟨found, present, recorded⟩ := capture_ok.mp captured
  cases found with
  | none => exact absurd recorded (by simp [Records])
  | some tree =>
      rw [FileTree.look_of_find present]
      cases tree with
      | leaf body =>
          cases body with
          | file body =>
              obtain rfl : FileTree.leaf (body.record sha256) = record := by simpa [Records, recordOf] using recorded
              exact .inl ⟨body, rfl, rfl⟩
          | special => simp [Records, recordOf] at recorded
      | directory marker children =>
          cases inner : recordChildren sha256 children with
          | error below => simp [Records, recordOf, inner] at recorded
          | ok records =>
              obtain rfl : FileTree.directory marker records = record := by simpa [Records, recordOf, inner] using recorded
              exact .inr ⟨marker, records, rfl, rfl⟩

end System

end MicroWorkflow
