import Mathlib.Data.List.Lex
import Mathlib.Data.List.Sort
import MicroWorkflow.DeployIgnore
import MicroWorkflow.Lib.Dict

set_option autoImplicit false

namespace MicroWorkflow

-- The year is that of the modification time in local time, the part of it a zip entry can refuse.
inductive ProjectEntry where
  | file (content : List UInt8) (year : Int)
  | directory
  | link (toDirectory : Bool)
  | other
deriving DecidableEq, Repr

namespace ProjectEntry

def isSymlink : ProjectEntry → Bool
  | .link _ => true
  | _ => false

def isDir : ProjectEntry → Bool
  | .directory => true
  | .link toDirectory => toDirectory
  | _ => false

end ProjectEntry

theorem mwf_name_valid : ".mwf".toList ≠ [] ∧ '/' ∉ ".mwf".toList ∧ ".mwf".toList ≠ ['.'] ∧ ".mwf".toList ≠ ['.', '.'] := by
  decide

theorem node_name_valid : "node".toList ≠ [] ∧ '/' ∉ "node".toList ∧ "node".toList ≠ ['.'] ∧ "node".toList ≠ ['.', '.'] := by
  decide

def mwfName : EntryName := ⟨".mwf".toList, mwf_name_valid⟩

def nodeName : EntryName := ⟨"node".toList, node_name_valid⟩

theorem archive_name_valid (name : EntryName) : name.val ++ ".zip".toList ≠ [] ∧ '/' ∉ name.val ++ ".zip".toList ∧
    name.val ++ ".zip".toList ≠ ['.'] ∧ name.val ++ ".zip".toList ≠ ['.', '.'] := by
  have ⟨nonempty, slashless, _⟩ := name.property
  have long : 0 < name.val.length := List.length_pos_iff.mpr nonempty
  refine ⟨by simp [nonempty], by simp [slashless], fun same => ?_, fun same => ?_⟩
  · simpa using congrArg List.length same
  · simpa using congrArg List.length same

def archiveName (name : EntryName) : EntryName := ⟨name.val ++ ".zip".toList, archive_name_valid name⟩

-- What lies below the project root, in the order a walk meets it. Entries behind a link are listed for
-- `node` alone, the only link that is looked into.
structure ProjectTree where
  entries : List (RelativePath × ProjectEntry)
  distinct : (entries.map Prod.fst).Nodup
  rootless : ∀ item ∈ entries, item.1 ≠ []
  closed : ∀ parent name entry, (parent ++ [name], entry) ∈ entries → parent ≠ [] →
    (parent, .directory) ∈ entries ∨ (parent = [nodeName] ∧ (parent, .link true) ∈ entries)

namespace ProjectTree

def lookup (tree : ProjectTree) (path : RelativePath) : Option ProjectEntry := Lib.Dict.get tree.entries path

def iterdir (tree : ProjectTree) (directory : RelativePath) : List (EntryName × ProjectEntry) :=
  tree.entries.filterMap fun item => item.1.getLast?.bind fun name =>
    if item.1 = directory ++ [name] then some (name, item.2) else none

def rglob (tree : ProjectTree) (directory : RelativePath) : List (RelativePath × ProjectEntry) :=
  tree.entries.filter fun item => directory.isPrefixOf item.1 && item.1 != directory

end ProjectTree

inductive ZipMember where
  | text (arcname : List Char)
  | source (path : RelativePath) (arcname : List Char) (content : List UInt8)
deriving DecidableEq, Repr

def ZipMember.arcname : ZipMember → List Char
  | .text arcname => arcname
  | .source _ arcname _ => arcname

inductive StagedFile where
  | copied (source : RelativePath) (content : List UInt8) (year : Int)
  | archive (members : List ZipMember)
deriving DecidableEq, Repr

structure DeploymentStats where
  copiedFiles : Nat
  copiedBytes : Nat
  nodeArchives : Nat
  ignoredPaths : Nat
  skippedLinks : Nat
deriving DecidableEq, Repr

structure Staging where
  directories : List RelativePath
  writes : List (RelativePath × StagedFile)
  stats : DeploymentStats
deriving DecidableEq, Repr

namespace Staging

def empty : Staging := { directories := [], writes := [], stats := ⟨0, 0, 0, 0, 0⟩ }

def mkdir (staging : Staging) (path : RelativePath) : Staging :=
  { staging with directories := staging.directories ++ path.inits.drop 1 }

def countIgnored (staging : Staging) (number : Nat) : Staging :=
  { staging with stats := { staging.stats with ignoredPaths := staging.stats.ignoredPaths + number } }

def countLinks (staging : Staging) (number : Nat) : Staging :=
  { staging with stats := { staging.stats with skippedLinks := staging.stats.skippedLinks + number } }

def countCopied (staging : Staging) (files bytes : Nat) : Staging :=
  { staging with stats := { staging.stats with copiedFiles := staging.stats.copiedFiles + files,
                                               copiedBytes := staging.stats.copiedBytes + bytes } }

def write (staging : Staging) (destination : RelativePath) (file : StagedFile) : Staging :=
  { staging.mkdir destination.dropLast with writes := staging.writes ++ [(destination, file)] }

def accountFile (staging : Staging) (source : RelativePath) (content : List UInt8) (year : Int)
    (destination : RelativePath) : Staging :=
  (staging.write destination (.copied source content year)).countCopied 1 content.length

def countArchive (staging : Staging) : Staging :=
  { staging with stats := { staging.stats with nodeArchives := staging.stats.nodeArchives + 1 } }

def files (staging : Staging) : List (RelativePath × StagedFile) := Lib.Dict.update [] staging.writes

end Staging

section Dates

inductive ZipError where
  | value (message : String)
  | struct
deriving DecidableEq, Repr

def Dated (year : Int) : Prop := 1980 ≤ year ∧ year ≤ 2107

instance (year : Int) : Decidable (Dated year) := inferInstanceAs (Decidable (_ ∧ _))

-- The name check of `ZipInfo` and then the sixteen bits of the date in the header.
def zipWrite {α : Type} (year : Int) (written : α) : Except ZipError α :=
  if year < 1980 then .error (.value "ZIP does not support timestamps before 1980")
  else if 2107 < year then .error .struct
  else .ok written

theorem zip_write_ok {α : Type} {year : Int} {written result : α} :
    zipWrite year written = .ok result ↔ Dated year ∧ result = written := by
  unfold zipWrite Dated
  by_cases early : year < 1980
  · simp [early, Int.not_le.mpr early]
  · by_cases late : 2107 < year
    · simp [early, late, Int.not_le.mpr late]
    · simp [early, late, Int.not_lt.mp early, Int.not_lt.mp late, eq_comm]

theorem map_m_ok {α β ε : Type} {f : α → Except ε β} {plain : α → β} {Fine : α → Prop}
    (each : ∀ item made, f item = .ok made ↔ Fine item ∧ made = plain item) :
    ∀ {items : List α} {out : List β}, items.mapM f = .ok out ↔ (∀ item ∈ items, Fine item) ∧ out = items.map plain := by
  intro items
  induction items with
  | nil =>
      intro out
      rw [List.mapM_nil]
      simp [pure, Except.pure, eq_comm]
  | cons item rest ih =>
      intro out
      rw [List.mapM_cons, List.forall_mem_cons, List.map_cons]
      constructor
      · intro computed
        cases first : f item with
        | error raised => simp [first, bind, Except.bind] at computed
        | ok made =>
            cases others : rest.mapM f with
            | error raised => simp [first, others, bind, Except.bind] at computed
            | ok more =>
                simp only [first, others, bind, Except.bind, pure, Except.pure, Except.ok.injEq] at computed
                obtain ⟨fine, rfl⟩ := (each item made).mp first
                obtain ⟨dated, rfl⟩ := ih.mp others
                exact ⟨⟨fine, dated⟩, computed.symm⟩
      · intro ⟨⟨fine, dated⟩, named⟩
        rw [(each item (plain item)).mpr ⟨fine, rfl⟩, ih.mpr ⟨dated, rfl⟩, named]
        rfl

end Dates

section Building

variable (rules : MWFIgnore) (tree : ProjectTree)

def copyEntry (staging : Staging) (item : RelativePath × ProjectEntry) : Staging :=
  if item.1.head? = some mwfName then staging.countIgnored 1
  else if item.1.head? = some nodeName then staging
  else if item.2.isSymlink then staging.countLinks 1
  else if rules.isIgnored item.1 item.2.isDir then staging.countIgnored 1
  else
    match item.2 with
    | .directory => staging.mkdir item.1
    | .file content year => staging.accountFile item.1 content year item.1
    | _ => staging

def includedNodeEntries (nodeDir : RelativePath) : List (RelativePath × ProjectEntry) × Nat × Nat :=
  let plain := (tree.rglob nodeDir).filter fun item => !item.2.isSymlink
  (plain.filter fun item => !rules.isIgnored item.1 item.2.isDir,
    plain.countP fun item => rules.isIgnored item.1 item.2.isDir, (tree.rglob nodeDir).countP fun item => item.2.isSymlink)

def zipEntry (base : RelativePath) (item : RelativePath × ProjectEntry) : Except ZipError (Option ZipMember) :=
  let arcname := asPosix (item.1.drop base.length)
  match item.2 with
  | .directory => .ok (some (.text (arcname.rdropWhile (· == '/') ++ ['/'])))
  | .file content year => zipWrite year (some (.source item.1 arcname content))
  | _ => .ok none

def zipSelectedTree (base : RelativePath) (entries : List (RelativePath × ProjectEntry)) : Except ZipError (List ZipMember) :=
  if entries.isEmpty then .ok [.text ".mwf-empty".toList]
  else (entries.mapM (zipEntry base)).map List.reduceOption

def fileSizes (entries : List (RelativePath × ProjectEntry)) : List Nat :=
  entries.filterMap fun item =>
    match item.2 with
    | .file content _ => some content.length
    | _ => none

def archiveChild (staging : Staging) (child : EntryName × ProjectEntry) : Except ZipError Staging :=
  let path := [nodeName, child.1]
  if child.2.isSymlink then .ok (staging.countLinks 1)
  else if rules.isIgnored path child.2.isDir then .ok (staging.countIgnored 1)
  else
    match child.2 with
    | .file content year => .ok (staging.accountFile path content year [nodeName, child.1])
    | .directory =>
        let (included, ignoredCount, linkCount) := includedNodeEntries rules tree path
        (zipSelectedTree path included).map fun members =>
          let archived := ((staging.countIgnored ignoredCount).countLinks linkCount).write [nodeName, archiveName child.1]
            (.archive members)
          archived.countArchive.countCopied (fileSizes included).length (fileSizes included).sum
    | _ => .ok staging

def sortedChildren (lower : List Char → List Char) : List (EntryName × ProjectEntry) :=
  (tree.iterdir [nodeName]).insertionSort fun first second => lower first.1.val ≤ lower second.1.val

def nodeRootIsDir : Bool :=
  match tree.lookup [nodeName] with
  | some entry => entry.isDir
  | none => false

def buildStaging (lower : List Char → List Char) : Except ZipError Staging :=
  let copied := tree.entries.foldl (copyEntry rules) .empty
  if nodeRootIsDir tree && !rules.isIgnored [nodeName] true then
    (sortedChildren tree lower).foldlM (archiveChild rules tree) (copied.mkdir [nodeName])
  else .ok copied

end Building

section Archive

inductive DeployedMember where
  | directory (arcname : List Char)
  | file (arcname : List Char) (content : StagedFile)
deriving DecidableEq, Repr

def zipItem (item : RelativePath × Option StagedFile) : Except ZipError DeployedMember :=
  match item.2 with
  | none => .ok (.directory ((asPosix item.1).rdropWhile (· == '/') ++ ['/']))
  | some (.copied source content year) => zipWrite year (.file (asPosix item.1) (.copied source content year))
  | some (.archive members) => .ok (.file (asPosix item.1) (.archive members))

def Staging.listed (staging : Staging) : List (RelativePath × Option StagedFile) :=
  let listed := staging.directories.dedup.map (fun path => (path, none)) ++
    staging.files.map fun file => (file.1, some file.2)
  listed.insertionSort fun first second => first.1.map Subtype.val ≤ second.1.map Subtype.val

def zipTree (staging : Staging) : Except ZipError (List DeployedMember) := staging.listed.mapM zipItem

-- An error leaves the previous deployment in place.
def deployLocal (rules : MWFIgnore) (tree : ProjectTree) (lower : List Char → List Char) :
    Except ZipError (Staging × List DeployedMember) := do
  let staging ← buildStaging rules tree lower
  let deployment ← zipTree staging
  return (staging, deployment)

structure Occurrence where
  source : RelativePath
  member : List Char
  inner : Option (List Char)
  content : List UInt8
deriving DecidableEq, Repr

def ZipMember.occurrences (archive : List Char) : ZipMember → List Occurrence
  | .text _ => []
  | .source path arcname content => [⟨path, archive, some arcname, content⟩]

def StagedFile.occurrences (arcname : List Char) : StagedFile → List Occurrence
  | .copied source content _ => [⟨source, arcname, none, content⟩]
  | .archive members => members.flatMap (ZipMember.occurrences arcname)

def DeployedMember.occurrences : DeployedMember → List Occurrence
  | .directory _ => []
  | .file arcname content => content.occurrences arcname

def occurrences (deployment : List DeployedMember) : List Occurrence := deployment.flatMap DeployedMember.occurrences

end Archive

section Writes

variable {rules : MWFIgnore} {tree : ProjectTree} {staging next : Staging} {lower : List Char → List Char}
  {child : EntryName × ProjectEntry}

@[simp] theorem mkdir_writes (path : RelativePath) : (staging.mkdir path).writes = staging.writes := rfl

def copyWrite (rules : MWFIgnore) (item : RelativePath × ProjectEntry) : Option (RelativePath × StagedFile) :=
  if item.1.head? = some mwfName ∨ item.1.head? = some nodeName ∨ rules.isIgnored item.1 item.2.isDir = true then none
  else
    match item.2 with
    | .file content year => some (item.1, .copied item.1 content year)
    | _ => none

def ProjectEntry.Dated : ProjectEntry → Prop
  | .file _ year => MicroWorkflow.Dated year
  | _ => True

def zipMember (base : RelativePath) (item : RelativePath × ProjectEntry) : Option ZipMember :=
  let arcname := asPosix (item.1.drop base.length)
  match item.2 with
  | .directory => some (.text (arcname.rdropWhile (· == '/') ++ ['/']))
  | .file content _ => some (.source item.1 arcname content)
  | _ => none

def zipMembers (base : RelativePath) (entries : List (RelativePath × ProjectEntry)) : List ZipMember :=
  if entries.isEmpty then [.text ".mwf-empty".toList] else entries.filterMap (zipMember base)

theorem zip_entry_ok {base : RelativePath} (item : RelativePath × ProjectEntry) (made : Option ZipMember) :
    zipEntry base item = .ok made ↔ item.2.Dated ∧ made = zipMember base item := by
  obtain ⟨path, entry⟩ := item
  cases entry with
  | file content year => exact zip_write_ok
  | directory => simp [zipEntry, zipMember, ProjectEntry.Dated, eq_comm]
  | link toDirectory => simp [zipEntry, zipMember, ProjectEntry.Dated, eq_comm]
  | other => simp [zipEntry, zipMember, ProjectEntry.Dated, eq_comm]

theorem zip_selected_tree_ok {base : RelativePath} {entries : List (RelativePath × ProjectEntry)} {members : List ZipMember} :
    zipSelectedTree base entries = .ok members ↔ (∀ item ∈ entries, item.2.Dated) ∧ members = zipMembers base entries := by
  unfold zipSelectedTree zipMembers
  by_cases none : entries.isEmpty = true
  · rw [if_pos none, if_pos none]
    simp [List.isEmpty_iff.mp none, eq_comm]
  rw [if_neg none, if_neg none]
  have reduced : (entries.map (zipMember base)).reduceOption = entries.filterMap (zipMember base) := by
    change List.filterMap id _ = _
    rw [List.filterMap_map]
    rfl
  constructor
  · intro computed
    cases made : entries.mapM (zipEntry base) with
    | error raised => simp [made, Except.map] at computed
    | ok found =>
        obtain ⟨dated, rfl⟩ := (map_m_ok zip_entry_ok).mp made
        rw [made] at computed
        cases computed
        exact ⟨dated, reduced⟩
  · rintro ⟨dated, rfl⟩
    rw [(map_m_ok zip_entry_ok).mpr ⟨dated, rfl⟩, ← reduced]
    rfl

def childWrite (rules : MWFIgnore) (tree : ProjectTree) (child : EntryName × ProjectEntry) : Option (RelativePath × StagedFile) :=
  let path := [nodeName, child.1]
  if rules.isIgnored path child.2.isDir = true then none
  else
    match child.2 with
    | .file content year => some (path, .copied path content year)
    | .directory =>
        some ([nodeName, archiveName child.1], .archive (zipMembers path (includedNodeEntries rules tree path).1))
    | _ => none

def ChildDated (rules : MWFIgnore) (tree : ProjectTree) (child : EntryName × ProjectEntry) : Prop :=
  child.2 = .directory → rules.isIgnored [nodeName, child.1] true = false →
    ∀ item ∈ (includedNodeEntries rules tree [nodeName, child.1]).1, item.2.Dated

def nodeDeployed (rules : MWFIgnore) (tree : ProjectTree) : Bool := nodeRootIsDir tree && !rules.isIgnored [nodeName] true

def stagedWrites (rules : MWFIgnore) (tree : ProjectTree) (lower : List Char → List Char) : List (RelativePath × StagedFile) :=
  tree.entries.filterMap (copyWrite rules) ++
    if nodeDeployed rules tree then (sortedChildren tree lower).filterMap (childWrite rules tree) else []

theorem copy_entry_writes (item : RelativePath × ProjectEntry) :
    (copyEntry rules staging item).writes = staging.writes ++ (copyWrite rules item).toList := by
  unfold copyEntry copyWrite
  by_cases inside : item.1.head? = some mwfName
  · rw [if_pos inside, if_pos (.inl inside)]
    exact (List.append_nil _).symm
  by_cases below : item.1.head? = some nodeName
  · rw [if_neg inside, if_pos below, if_pos (.inr (.inl below))]
    exact (List.append_nil _).symm
  simp only [inside, below, if_false, false_or]
  by_cases ignored : rules.isIgnored item.1 item.2.isDir = true
  · simp only [if_pos ignored]
    cases item.2.isSymlink <;> exact (List.append_nil _).symm
  · simp only [if_neg ignored]
    cases item.2 with
    | file content year => rfl
    | directory => exact (List.append_nil _).symm
    | link toDirectory => exact (List.append_nil _).symm
    | other => exact (List.append_nil _).symm

theorem copied_writes : ∀ (items : List (RelativePath × ProjectEntry)) (staging : Staging),
    (items.foldl (copyEntry rules) staging).writes = staging.writes ++ items.filterMap (copyWrite rules) := by
  intro items
  induction items with
  | nil => simp
  | cons item rest ih =>
      intro staging
      rw [List.foldl_cons, ih, copy_entry_writes, List.append_assoc]
      cases found : copyWrite rules item <;> simp [found]

theorem archive_child_runs (dated : ChildDated rules tree child) :
    ∃ next, archiveChild rules tree staging child = .ok next ∧
      next.writes = staging.writes ++ (childWrite rules tree child).toList := by
  unfold archiveChild childWrite
  by_cases ignored : rules.isIgnored [nodeName, child.1] child.2.isDir = true
  · simp only [if_pos ignored]
    cases child.2.isSymlink with
    | true => exact ⟨_, rfl, (List.append_nil _).symm⟩
    | false => exact ⟨_, rfl, (List.append_nil _).symm⟩
  · simp only [if_neg ignored]
    obtain ⟨name, entry⟩ := child
    cases entry with
    | file content year => exact ⟨_, rfl, rfl⟩
    | directory =>
        have made : zipSelectedTree [nodeName, name] (includedNodeEntries rules tree [nodeName, name]).1 =
            .ok (zipMembers [nodeName, name] (includedNodeEntries rules tree [nodeName, name]).1) :=
          zip_selected_tree_ok.mpr ⟨dated rfl (Bool.eq_false_iff.mpr ignored), rfl⟩
        simp only [made, Except.map]
        exact ⟨_, rfl, rfl⟩
    | link toDirectory => exact ⟨_, rfl, (List.append_nil _).symm⟩
    | other => exact ⟨_, rfl, (List.append_nil _).symm⟩

theorem archive_child_dated (done : archiveChild rules tree staging child = .ok next) : ChildDated rules tree child := by
  obtain ⟨name, entry⟩ := child
  intro directory kept
  have folder : entry = .directory := directory
  subst folder
  have plain : rules.isIgnored [nodeName, name] ProjectEntry.directory.isDir = false := kept
  cases made : zipSelectedTree [nodeName, name] (includedNodeEntries rules tree [nodeName, name]).1 with
  | error raised => simp [archiveChild, plain, ProjectEntry.isSymlink, made, Except.map] at done
  | ok members => exact (zip_selected_tree_ok.mp made).1

theorem children_run : ∀ (children : List (EntryName × ProjectEntry)) (staging : Staging),
    (∀ child ∈ children, ChildDated rules tree child) → ∃ next, children.foldlM (archiveChild rules tree) staging = .ok next ∧
      next.writes = staging.writes ++ children.filterMap (childWrite rules tree) := by
  intro children
  induction children with
  | nil => exact fun staging _ => ⟨staging, rfl, (List.append_nil _).symm⟩
  | cons child rest ih =>
      intro staging dated
      have ⟨first, others⟩ := List.forall_mem_cons.mp dated
      obtain ⟨middle, made, written⟩ := archive_child_runs first
      obtain ⟨next, done, more⟩ := ih middle others
      refine ⟨next, ?_, ?_⟩
      · rw [List.foldlM_cons, made]
        exact done
      · rw [more, written, List.append_assoc]
        cases found : childWrite rules tree child <;> simp [found]

theorem children_dated : ∀ (children : List (EntryName × ProjectEntry)) (staging : Staging),
    children.foldlM (archiveChild rules tree) staging = .ok next → ∀ child ∈ children, ChildDated rules tree child := by
  intro children
  induction children with
  | nil => exact fun _ _ _ none => nomatch none
  | cons child rest ih =>
      intro staging done
      rw [List.foldlM_cons] at done
      cases made : archiveChild rules tree staging child with
      | error raised => simp [made, bind, Except.bind] at done
      | ok middle =>
          rw [made] at done
          exact List.forall_mem_cons.mpr ⟨archive_child_dated made, ih middle done⟩

theorem build_runs (dated : nodeDeployed rules tree = true → ∀ child ∈ sortedChildren tree lower, ChildDated rules tree child) :
    ∃ staging, buildStaging rules tree lower = .ok staging ∧ staging.writes = stagedWrites rules tree lower := by
  have copied : (tree.entries.foldl (copyEntry rules) .empty).writes = tree.entries.filterMap (copyWrite rules) :=
    copied_writes _ _
  unfold buildStaging stagedWrites
  by_cases deployed : nodeDeployed rules tree = true
  · obtain ⟨staging, done, written⟩ := children_run (sortedChildren tree lower)
      ((tree.entries.foldl (copyEntry rules) .empty).mkdir [nodeName]) (dated deployed)
    rw [mkdir_writes, copied] at written
    rw [if_pos deployed]
    exact ⟨staging, (if_pos deployed).trans done, written⟩
  · rw [if_neg deployed, List.append_nil]
    exact ⟨_, if_neg deployed, copied⟩

theorem build_dated (built : buildStaging rules tree lower = .ok staging) (deployed : nodeDeployed rules tree = true) :
    ∀ child ∈ sortedChildren tree lower, ChildDated rules tree child :=
  children_dated _ _ ((if_pos deployed).symm.trans built)

theorem build_writes (built : buildStaging rules tree lower = .ok staging) : staging.writes = stagedWrites rules tree lower := by
  obtain ⟨other, also, written⟩ := build_runs fun deployed => build_dated built deployed
  cases built.symm.trans also
  exact written

theorem sorted_children_perm : (sortedChildren tree lower).Perm (tree.iterdir [nodeName]) := List.perm_insertionSort ..

theorem mem_iterdir {directory : RelativePath} {child : EntryName × ProjectEntry} :
    child ∈ tree.iterdir directory ↔ (directory ++ [child.1], child.2) ∈ tree.entries := by
  simp only [ProjectTree.iterdir, List.mem_filterMap]
  constructor
  · intro ⟨item, member, found⟩
    obtain ⟨name, _, here⟩ := Option.bind_eq_some_iff.mp found
    by_cases same : item.1 = directory ++ [name]
    · rw [if_pos same] at here
      cases here
      rwa [← same]
    · rw [if_neg same] at here
      cases here
  · intro member
    exact ⟨_, member, by simp⟩

theorem mem_sorted_children {child : EntryName × ProjectEntry} :
    child ∈ sortedChildren tree lower ↔ ([nodeName, child.1], child.2) ∈ tree.entries := by
  rw [sorted_children_perm.mem_iff, mem_iterdir]
  rfl

theorem lookup_listed {path : RelativePath} {entry : ProjectEntry} :
    tree.lookup path = some entry ↔ (path, entry) ∈ tree.entries :=
  ⟨Lib.Dict.get_mem, Lib.Dict.get_of_mem tree.distinct⟩

theorem iterdir_names (directory : RelativePath) : ((tree.iterdir directory).map Prod.fst).Nodup := by
  have apart : tree.entries.Pairwise fun first second => first.1 ≠ second.1 := List.pairwise_map.mp tree.distinct
  refine List.pairwise_map.mpr (List.Pairwise.filterMap _ ?_ apart)
  intro first second different child found other also same
  have path : ∀ (item : RelativePath × ProjectEntry) (child : EntryName × ProjectEntry),
      (item.1.getLast?.bind fun name => if item.1 = directory ++ [name] then some (name, item.2) else none) = some child →
        item.1 = directory ++ [child.1] := by
    intro item child found
    obtain ⟨name, _, here⟩ := Option.bind_eq_some_iff.mp found
    by_cases spelled : item.1 = directory ++ [name]
    · rw [if_pos spelled] at here
      cases here
      exact spelled
    · rw [if_neg spelled] at here
      cases here
  exact different ((path first child found).trans (by rw [same, path second other also]))

end Writes

end MicroWorkflow
