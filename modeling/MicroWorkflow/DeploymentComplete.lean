import MicroWorkflow.Deployment

set_option autoImplicit false

namespace MicroWorkflow

def Staging.write.occurrences (write : RelativePath × StagedFile) : List Occurrence := write.2.occurrences (asPosix write.1)

def placed (path : RelativePath) (content : List UInt8) : Occurrence :=
  match path with
  | first :: folder :: inner :: rest =>
      if first = nodeName then ⟨path, asPosix [nodeName, archiveName folder], some (asPosix (inner :: rest)), content⟩
      else ⟨path, asPosix path, none, content⟩
  | _ => ⟨path, asPosix path, none, content⟩

def leftOut (rules : MWFIgnore) (path : RelativePath) (isDir : Bool) : Bool :=
  path.head? == some mwfName || rules.isIgnored path isDir

def Kept (rules : MWFIgnore) (path : RelativePath) : Prop :=
  leftOut rules path false = false ∧ ∀ parent below, path = parent ++ below → parent ≠ [] → below ≠ [] →
    leftOut rules parent true = false

structure Complete (rules : MWFIgnore) (tree : ProjectTree) (staging : Staging) (deployment : List DeployedMember) : Prop where
  present : ∀ path content year, (path, .file content year) ∈ tree.entries → Kept rules path →
    (occurrences deployment).filter (fun found => found.source = path) = [placed path content]
  clean : ∀ found ∈ occurrences deployment, leftOut rules found.source false = false
  destinations : (staging.writes.map Prod.fst).Nodup
  members : ∀ destination members, (destination, .archive members) ∈ staging.writes → (members.map ZipMember.arcname).Nodup

def ArchiveClash (rules : MWFIgnore) (tree : ProjectTree) : Prop :=
  nodeDeployed rules tree = true ∧ ∃ folder content year,
    ([nodeName, folder], .directory) ∈ tree.entries ∧ rules.isIgnored [nodeName, folder] true = false ∧
    ([nodeName, archiveName folder], .file content year) ∈ tree.entries ∧
      rules.isIgnored [nodeName, archiveName folder] false = false

def PlainNode (rules : MWFIgnore) (tree : ProjectTree) : Prop :=
  ∃ content year, ([nodeName], .file content year) ∈ tree.entries ∧ rules.isIgnored [nodeName] false = false

-- What is written into a zip: the walk of a node folder asks the rules about the path itself, `node` and
-- the folder, and about no directory between.
def Zipped (rules : MWFIgnore) (path : RelativePath) : Prop :=
  leftOut rules path false = false ∧ ∀ below, path = nodeName :: below →
    below ≠ [] ∧ rules.isIgnored [nodeName] true = false ∧
      ∀ folder inner rest, below = folder :: inner :: rest → rules.isIgnored [nodeName, folder] true = false

def UndatedFile (rules : MWFIgnore) (tree : ProjectTree) : Prop :=
  ∃ path content year, (path, .file content year) ∈ tree.entries ∧ Zipped rules path ∧ ¬Dated year

section Members

variable {rules : MWFIgnore} {tree : ProjectTree} {base path : RelativePath} {content : List UInt8}

theorem mem_included {item : RelativePath × ProjectEntry} : item ∈ (includedNodeEntries rules tree base).1 ↔
    item ∈ tree.entries ∧ (∃ rest, rest ≠ [] ∧ item.1 = base ++ rest) ∧ item.2.isSymlink = false ∧
      rules.isIgnored item.1 item.2.isDir = false := by
  simp only [includedNodeEntries, ProjectTree.rglob, List.mem_filter, Bool.and_eq_true, Bool.not_eq_true', bne_iff_ne, ne_eq,
    List.isPrefixOf_iff_prefix]
  constructor
  · intro ⟨⟨⟨listed, ⟨rest, joined⟩, proper⟩, plain⟩, kept⟩
    refine ⟨listed, ⟨rest, fun none => ?_, joined.symm⟩, plain, kept⟩
    rw [none, List.append_nil] at joined
    exact proper joined.symm
  · intro ⟨listed, ⟨rest, deeper, joined⟩, plain, kept⟩
    refine ⟨⟨⟨listed, ⟨rest, joined.symm⟩, fun same => ?_⟩, plain⟩, kept⟩
    rw [same] at joined
    exact deeper (List.self_eq_append_right.mp joined)

theorem included_apart : (includedNodeEntries rules tree base).1.Pairwise fun first second => first.1 ≠ second.1 := by
  have apart : tree.entries.Pairwise fun first second => first.1 ≠ second.1 := List.pairwise_map.mp tree.distinct
  exact ((apart.filter _).filter _).filter _

theorem zip_members_listed {entries : List (RelativePath × ProjectEntry)} (listed : entries ≠ []) :
    zipMembers base entries = entries.filterMap (zipMember base) := by
  rw [zipMembers, if_neg (by simpa using listed)]

theorem mem_zip_source {entries : List (RelativePath × ProjectEntry)} {arcname : List Char} :
    .source path arcname content ∈ zipMembers base entries ↔
      (∃ year, (path, .file content year) ∈ entries) ∧ arcname = asPosix (path.drop base.length) := by
  by_cases listed : entries = []
  · simp [listed, zipMembers]
  rw [zip_members_listed listed, List.mem_filterMap]
  constructor
  · intro ⟨item, member, made⟩
    obtain ⟨at_, entry⟩ := item
    cases entry with
    | file stored year => cases made; exact ⟨⟨year, member⟩, rfl⟩
    | directory => cases made
    | link toDirectory => cases made
    | other => cases made
  · intro ⟨⟨year, member⟩, named⟩
    exact ⟨_, member, by rw [named]; rfl⟩

theorem posix_visible (listed : path ≠ []) : (asPosix path).rdropWhile (· == '/') = asPosix path := by
  obtain ⟨front, last, ended, solid⟩ := join_slash_end path listed
  rw [as_posix_join listed, ended, List.rdropWhile_concat_neg _ _ _ (by simpa using solid)]

theorem posix_no_slash (listed : path ≠ []) (text : List Char) : asPosix path ≠ text ++ ['/'] := by
  obtain ⟨front, last, ended, solid⟩ := join_slash_end path listed
  rw [as_posix_join listed, ended]
  intro same
  exact solid (List.singleton_inj.mp (List.append_inj_right' same rfl))

theorem zip_member_name {item : RelativePath × ProjectEntry} {rest : RelativePath} {member : ZipMember} (deeper : rest ≠ [])
    (joined : item.1 = base ++ rest) (made : zipMember base item = some member) :
    member.arcname = asPosix rest ∨ member.arcname = asPosix rest ++ ['/'] := by
  have relative : item.1.drop base.length = rest := by rw [joined, List.drop_left]
  unfold zipMember at made
  rw [relative] at made
  cases entry : item.2 with
  | file stored year => rw [entry] at made; cases made; exact .inl rfl
  | directory => rw [entry] at made; cases made; exact .inr (congrArg (· ++ ['/']) (posix_visible deeper))
  | link toDirectory => rw [entry] at made; cases made
  | other => rw [entry] at made; cases made

theorem archive_names_nodup :
    ((zipMembers base (includedNodeEntries rules tree base).1).map ZipMember.arcname).Nodup := by
  by_cases listed : (includedNodeEntries rules tree base).1 = []
  · rw [listed]
    exact List.nodup_singleton _
  rw [zip_members_listed listed]
  have apart : (includedNodeEntries rules tree base).1.Pairwise fun first second => first.1 ≠ second.1 := included_apart
  refine List.pairwise_map.mpr (List.Pairwise.filterMap _ ?_ (List.Pairwise.and_mem.mp apart))
  intro first second ⟨inside, listed, different⟩ member made other also same
  obtain ⟨_, ⟨rest, deeper, joined⟩, _⟩ := mem_included.mp inside
  obtain ⟨_, ⟨more, below, spelled⟩, _⟩ := mem_included.mp listed
  have names : rest ≠ more := fun alike => different (by rw [joined, spelled, alike])
  rcases zip_member_name deeper joined made with left | left <;> rcases zip_member_name below spelled also with right | right <;>
    rw [left, right] at same
  · exact names (posix_injective deeper below same)
  · exact posix_no_slash deeper _ same
  · exact posix_no_slash below _ same.symm
  · exact names (posix_injective deeper below (List.append_cancel_right same))

end Members

section Occurrences

variable {rules : MWFIgnore} {tree : ProjectTree} {staging : Staging} {deployment : List DeployedMember}
  {lower : List Char → List Char} {path : RelativePath} {content : List UInt8} {year : Int} {found : Occurrence}
  {write : RelativePath × StagedFile}

theorem copy_write_file : copyWrite rules (path, .file content year) =
    if path.head? = some mwfName ∨ path.head? = some nodeName ∨ rules.isIgnored path false = true then none
    else some (path, .copied path content year) := rfl

theorem copy_write_some {item : RelativePath × ProjectEntry} : copyWrite rules item = some write ↔
    ∃ content year, item.2 = .file content year ∧ item.1.head? ≠ some nodeName ∧ leftOut rules item.1 false = false ∧
      write = (item.1, .copied item.1 content year) := by
  obtain ⟨path, entry⟩ := item
  cases entry with
  | file content year =>
      rw [copy_write_file]
      simp only [leftOut, ProjectEntry.file.injEq, and_assoc, exists_and_left, exists_eq_left',
        Bool.or_eq_false_iff, beq_eq_false_iff_ne, ne_eq]
      by_cases out : path.head? = some mwfName ∨ path.head? = some nodeName ∨ rules.isIgnored path false = true
      · rw [if_pos out]
        simp only [false_iff, reduceCtorEq]
        rintro ⟨below, inside, kept, _⟩
        simp [below, inside, kept] at out
      · rw [if_neg out]
        simp only [not_or, Bool.not_eq_true] at out
        simp [out, eq_comm]
  | directory => simp [copyWrite]
  | link toDirectory => simp [copyWrite]
  | other => simp [copyWrite]

theorem child_write_file {name : EntryName} : childWrite rules tree (name, .file content year) =
    if rules.isIgnored [nodeName, name] false = true then none
    else some ([nodeName, name], .copied [nodeName, name] content year) := rfl

theorem child_write_directory {name : EntryName} : childWrite rules tree (name, .directory) =
    if rules.isIgnored [nodeName, name] true = true then none
    else some ([nodeName, archiveName name],
      .archive (zipMembers [nodeName, name] (includedNodeEntries rules tree [nodeName, name]).1)) := rfl

theorem child_write_some {child : EntryName × ProjectEntry} : childWrite rules tree child = some write ↔
    (∃ content year, child.2 = .file content year ∧ rules.isIgnored [nodeName, child.1] false = false ∧
      write = ([nodeName, child.1], .copied [nodeName, child.1] content year)) ∨
    (child.2 = .directory ∧ rules.isIgnored [nodeName, child.1] true = false ∧
      write = ([nodeName, archiveName child.1], .archive (zipMembers [nodeName, child.1]
        (includedNodeEntries rules tree [nodeName, child.1]).1))) := by
  obtain ⟨name, entry⟩ := child
  cases entry with
  | file content year =>
      rw [child_write_file]
      by_cases ignored : rules.isIgnored [nodeName, name] false = true
      · simp [ignored]
      · rw [if_neg ignored, Option.some.injEq]
        simp only [ProjectEntry.file.injEq, and_assoc, exists_and_left, exists_eq_left', reduceCtorEq, false_and, or_false,
          Bool.eq_false_iff.mpr ignored, true_and]
        exact eq_comm
  | directory =>
      rw [child_write_directory]
      by_cases ignored : rules.isIgnored [nodeName, name] true = true
      · simp [ignored]
      · rw [if_neg ignored, Option.some.injEq]
        simp only [reduceCtorEq, false_and, exists_false, false_or, Bool.eq_false_iff.mpr ignored, true_and]
        exact eq_comm
  | link toDirectory => simp [childWrite]
  | other => simp [childWrite]

def StagedFile.Dated : StagedFile → Prop
  | .copied _ _ year => MicroWorkflow.Dated year
  | .archive _ => True

def deployedMember (item : RelativePath × Option StagedFile) : DeployedMember :=
  match item.2 with
  | none => .directory ((asPosix item.1).rdropWhile (· == '/') ++ ['/'])
  | some content => .file (asPosix item.1) content

theorem zip_item_ok (item : RelativePath × Option StagedFile) (made : DeployedMember) :
    zipItem item = .ok made ↔ (∀ file, item.2 = some file → file.Dated) ∧ made = deployedMember item := by
  obtain ⟨path, stored⟩ := item
  cases stored with
  | none => simp [zipItem, deployedMember, eq_comm]
  | some file =>
      cases file with
      | copied source content year =>
          have written : zipItem (path, some (.copied source content year)) = .ok made ↔ MicroWorkflow.Dated year ∧
              made = .file (asPosix path) (.copied source content year) := zip_write_ok
          rw [written]
          simp [deployedMember, StagedFile.Dated]
      | archive members => simp [zipItem, deployedMember, StagedFile.Dated, eq_comm]

theorem mem_listed {file : StagedFile} : (path, some file) ∈ staging.listed ↔ (path, file) ∈ staging.files := by
  rw [Staging.listed, (List.perm_insertionSort ..).mem_iff]
  simp

theorem zip_tree_ok : zipTree staging = .ok deployment ↔
    (∀ file ∈ staging.files, file.2.Dated) ∧ deployment = staging.listed.map deployedMember := by
  rw [zipTree, map_m_ok zip_item_ok]
  refine and_congr_left fun _ => ⟨fun dated file stored => dated _ (mem_listed.mpr stored) _ rfl,
    fun dated item listed file here => ?_⟩
  obtain ⟨path, stored⟩ := item
  have same : stored = some file := here
  subst same
  exact dated _ (mem_listed.mp listed)

theorem occurrences_perm (shipped : zipTree staging = .ok deployment) :
    (occurrences deployment).Perm (staging.files.flatMap Staging.write.occurrences) := by
  have directories : ∀ paths : List RelativePath,
    (paths.map fun path => ((path, none) : RelativePath × Option StagedFile)).flatMap
      (fun item => (deployedMember item).occurrences) = [] := by
    intro paths
    simp [deployedMember, DeployedMember.occurrences]
  have files : (staging.files.map fun file => (file.1, some file.2)).flatMap (fun item => (deployedMember item).occurrences) =
      staging.files.flatMap Staging.write.occurrences := List.flatMap_map ..
  rw [(zip_tree_ok.mp shipped).2, occurrences, List.flatMap_map]
  refine ((List.perm_insertionSort ..).flatMap_right _).trans ?_
  rw [List.flatMap_append, directories, files, List.nil_append]

theorem mem_update {writes dict : List (RelativePath × StagedFile)} (member : write ∈ Lib.Dict.update dict writes) :
    write ∈ dict ∨ write ∈ writes := by
  induction writes generalizing dict with
  | nil => exact .inl member
  | cons first rest ih =>
      rcases ih member with before | later
      · rcases Lib.Dict.mem_set before with old | new
        · exact .inl old
        · exact .inr (List.mem_cons.mpr (.inl new))
      · exact .inr (List.mem_cons_of_mem _ later)

theorem mem_occurrences (shipped : zipTree staging = .ok deployment) (member : found ∈ occurrences deployment) :
    ∃ write ∈ staging.writes, found ∈ Staging.write.occurrences write := by
  obtain ⟨write, stored, inside⟩ := List.mem_flatMap.mp ((occurrences_perm shipped).mem_iff.mp member)
  rcases mem_update stored with old | written
  · cases old
  · exact ⟨write, written, inside⟩

theorem mem_staged_writes : write ∈ stagedWrites rules tree lower ↔
    (∃ item ∈ tree.entries, copyWrite rules item = some write) ∨
    (nodeDeployed rules tree = true ∧ ∃ child, ([nodeName, child.1], child.2) ∈ tree.entries ∧
      childWrite rules tree child = some write) := by
  rw [stagedWrites, List.mem_append, List.mem_filterMap]
  refine or_congr_right ?_
  cases nodeDeployed rules tree with
  | false => exact iff_of_false List.not_mem_nil fun deployed => Bool.false_ne_true deployed.1
  | true =>
      rw [if_pos rfl, List.mem_filterMap, and_iff_right rfl]
      exact exists_congr fun child => and_congr_left' mem_sorted_children

theorem placed_outside (outside : path.head? ≠ some nodeName) : placed path content = ⟨path, asPosix path, none, content⟩ := by
  unfold placed
  split
  · next first folder inner rest =>
      rw [if_neg fun same => outside (by rw [same]; rfl)]
  · rfl

theorem placed_source (path : RelativePath) (content : List UInt8) : (placed path content).source = path := by
  unfold placed
  split
  · split <;> rfl
  · rfl

theorem placed_archived {folder first : EntryName} {rest : RelativePath} :
    placed ([nodeName, folder] ++ first :: rest) content =
      ⟨[nodeName, folder] ++ first :: rest, asPosix [nodeName, archiveName folder], some (asPosix (first :: rest)), content⟩ := by
  simp [placed]

theorem child_occurrence {child : EntryName × ProjectEntry} (listed : ([nodeName, child.1], child.2) ∈ tree.entries)
    (made : childWrite rules tree child = some write) (member : found ∈ Staging.write.occurrences write) :
    ∃ rest content, found = placed ([nodeName, child.1] ++ rest) content ∧
      (∃ year, ([nodeName, child.1] ++ rest, .file content year) ∈ tree.entries) ∧
        rules.isIgnored ([nodeName, child.1] ++ rest) false = false := by
  rcases child_write_some.mp made with ⟨content, year, file, kept, rfl⟩ | ⟨directory, kept, rfl⟩
  · rw [file] at listed
    exact ⟨[], content, List.mem_singleton.mp member, ⟨year, listed⟩, kept⟩
  · obtain ⟨inner, written, inside⟩ := List.mem_flatMap.mp member
    cases inner with
    | text arcname => cases inside
    | source path arcname content =>
        obtain ⟨⟨year, included⟩, named⟩ := mem_zip_source.mp written
        obtain ⟨listed, ⟨rest, deeper, joined⟩, _, kept⟩ := mem_included.mp included
        obtain ⟨first, later, rfl⟩ := List.exists_cons_of_ne_nil deeper
        have same : path = [nodeName, child.1] ++ first :: later := joined
        subst same
        refine ⟨first :: later, content, ?_, ⟨year, listed⟩, kept⟩
        rw [List.mem_singleton.mp inside, named, placed_archived]
        rfl

theorem found_in_build (built : buildStaging rules tree lower = .ok staging) (shipped : zipTree staging = .ok deployment)
    (member : found ∈ occurrences deployment) :
    ∃ content, found = placed found.source content ∧ (∃ year, (found.source, .file content year) ∈ tree.entries) ∧
      leftOut rules found.source false = false ∧ found.source ≠ [nodeName] := by
  obtain ⟨write, written, inside⟩ := mem_occurrences shipped member
  rw [build_writes built] at written
  rcases mem_staged_writes.mp written with ⟨item, listed, made⟩ | ⟨_, child, listed, made⟩
  · obtain ⟨content, year, file, outside, kept, rfl⟩ := copy_write_some.mp made
    have only : found = ⟨item.1, asPosix item.1, none, content⟩ := List.mem_singleton.mp inside
    subst only
    refine ⟨content, (placed_outside outside).symm, ⟨year, ?_⟩, kept, fun same => outside (congrArg List.head? same)⟩
    rw [← file]
    exact listed
  · obtain ⟨rest, content, rfl, stored, kept⟩ := child_occurrence listed made inside
    rw [placed_source]
    refine ⟨content, rfl, stored, ?_, by simp⟩
    rw [leftOut, kept]
    rfl

end Occurrences

section Sources

variable {rules : MWFIgnore} {tree : ProjectTree} {lower : List Char → List Char} {path : RelativePath}
  {content : List UInt8} {found : Occurrence}

def SourcesApart (found : List Occurrence) : Prop := found.Pairwise fun first second => first.source ≠ second.source

theorem apart_filter : ∀ {listed : List Occurrence}, SourcesApart listed → found ∈ listed →
    listed.filter (fun other => other.source = found.source) = [found] := by
  intro listed apart member
  induction listed with
  | nil => cases member
  | cons first rest ih =>
      obtain ⟨different, others⟩ := List.pairwise_cons.mp apart
      rcases List.mem_cons.mp member with here | later
      · subst here
        rw [List.filter_cons_of_pos (by simp)]
        have none : rest.filter (fun other => other.source = found.source) = [] :=
          List.filter_eq_nil_iff.mpr fun other inside => by simpa using (different other inside).symm
        rw [none]
      · rw [List.filter_cons_of_neg (by simpa using different found later)]
        exact ih others later

theorem copies_apart : SourcesApart ((tree.entries.filterMap (copyWrite rules)).flatMap Staging.write.occurrences) := by
  have apart : tree.entries.Pairwise fun first second => first.1 ≠ second.1 := List.pairwise_map.mp tree.distinct
  refine List.pairwise_flatMap.mpr ⟨?_, List.Pairwise.filterMap _ ?_ apart⟩
  · intro write written
    obtain ⟨item, _, made⟩ := List.mem_filterMap.mp written
    obtain ⟨_, _, _, _, _, rfl⟩ := copy_write_some.mp made
    exact List.pairwise_singleton _ _
  · intro first second different write made other also found inside next there same
    obtain ⟨_, _, _, _, _, rfl⟩ := copy_write_some.mp made
    obtain ⟨_, _, _, _, _, rfl⟩ := copy_write_some.mp also
    rw [List.mem_singleton.mp inside, List.mem_singleton.mp there] at same
    exact different same

theorem archive_apart (base : RelativePath) (archive : List Char) :
    SourcesApart ((zipMembers base (includedNodeEntries rules tree base).1).flatMap (ZipMember.occurrences archive)) := by
  by_cases listed : (includedNodeEntries rules tree base).1 = []
  · rw [listed]
    exact List.Pairwise.nil
  rw [zip_members_listed listed]
  have source : ∀ (item : RelativePath × ProjectEntry) member found, zipMember base item = some member →
      found ∈ member.occurrences archive → found.source = item.1 := by
    intro item member found made inside
    unfold zipMember at made
    cases entry : item.2 with
    | file stored year =>
        rw [entry] at made
        cases made
        rw [List.mem_singleton.mp inside]
    | directory => rw [entry] at made; cases made; cases inside
    | link toDirectory => rw [entry] at made; cases made
    | other => rw [entry] at made; cases made
  refine List.pairwise_flatMap.mpr ⟨?_, List.Pairwise.filterMap _ ?_ included_apart⟩
  · intro member _
    cases member with
    | text arcname => exact List.Pairwise.nil
    | source path arcname content => exact List.pairwise_singleton _ _
  · intro first second different member made other also found inside next there same
    rw [source first member found made inside, source second other next also there] at same
    exact different same

theorem sorted_children_apart : (sortedChildren tree lower).Pairwise fun first second => first.1 ≠ second.1 := by
  have names : ((sortedChildren tree lower).map Prod.fst).Perm ((tree.iterdir [nodeName]).map Prod.fst) :=
    sorted_children_perm.map Prod.fst
  exact List.pairwise_map.mp (names.nodup_iff.mpr (iterdir_names _))

theorem children_apart :
    SourcesApart (((sortedChildren tree lower).filterMap (childWrite rules tree)).flatMap Staging.write.occurrences) := by
  have listed : ∀ child ∈ sortedChildren tree lower, ([nodeName, child.1], child.2) ∈ tree.entries :=
    fun child member => mem_sorted_children.mp member
  have start : ∀ (child : EntryName × ProjectEntry) write found, child ∈ sortedChildren tree lower →
      childWrite rules tree child = some write → found ∈ Staging.write.occurrences write →
        found.source.take 2 = [nodeName, child.1] := by
    intro child write found member made inside
    obtain ⟨rest, content, rfl, _⟩ := child_occurrence (listed child member) made inside
    cases rest <;> rfl
  refine List.pairwise_flatMap.mpr ⟨?_, List.Pairwise.filterMap _ ?_ (List.Pairwise.and_mem.mp sorted_children_apart)⟩
  · intro write written
    obtain ⟨child, _, made⟩ := List.mem_filterMap.mp written
    rcases child_write_some.mp made with ⟨_, _, _, _, rfl⟩ | ⟨_, _, rfl⟩
    · exact List.pairwise_singleton _ _
    · exact archive_apart _ _
  · intro first second ⟨member, also, different⟩ write made other done found inside next there same
    have left := start first write found member made inside
    rw [same, start second other next also done there] at left
    exact different (by simpa using left.symm)

theorem build_apart : SourcesApart ((stagedWrites rules tree lower).flatMap Staging.write.occurrences) := by
  rw [stagedWrites, List.flatMap_append]
  cases deployed : nodeDeployed rules tree with
  | false => simpa using copies_apart
  | true =>
      refine List.pairwise_append.mpr ⟨copies_apart, children_apart, ?_⟩
      intro first inside second there same
      obtain ⟨write, written, inside⟩ := List.mem_flatMap.mp inside
      obtain ⟨item, _, made⟩ := List.mem_filterMap.mp written
      obtain ⟨_, _, _, outside, _, rfl⟩ := copy_write_some.mp made
      obtain ⟨other, also, there⟩ := List.mem_flatMap.mp there
      obtain ⟨child, listed, done⟩ := List.mem_filterMap.mp also
      obtain ⟨rest, _, rfl, _⟩ := child_occurrence (mem_sorted_children.mp listed) done there
      rw [List.mem_singleton.mp inside] at same
      refine outside ?_
      cases rest <;> exact congrArg List.head? same

end Sources

section Destinations

variable {rules : MWFIgnore} {tree : ProjectTree} {lower : List Char → List Char} {path : RelativePath}
  {content : List UInt8} {year : Int} {staging : Staging} {deployment : List DeployedMember}
  {write : RelativePath × StagedFile}

theorem archive_name_injective {first second : EntryName} (same : archiveName first = archiveName second) : first = second :=
  Subtype.ext (List.append_cancel_right (congrArg Subtype.val same))

theorem copies_nodup : ((tree.entries.filterMap (copyWrite rules)).map Prod.fst).Nodup := by
  have apart : tree.entries.Pairwise fun first second => first.1 ≠ second.1 := List.pairwise_map.mp tree.distinct
  refine List.pairwise_map.mpr (List.Pairwise.filterMap _ ?_ apart)
  intro first second different write made other also same
  obtain ⟨_, _, _, _, _, rfl⟩ := copy_write_some.mp made
  obtain ⟨_, _, _, _, _, rfl⟩ := copy_write_some.mp also
  exact different same

theorem pair_inj {first second : EntryName} (same : ([nodeName, first] : RelativePath) = [nodeName, second]) :
    first = second := by
  simpa using same

theorem no_shared_destination (separate : ¬ArchiveClash rules tree) (deployed : nodeDeployed rules tree = true) :
    (((sortedChildren tree lower).filterMap (childWrite rules tree)).map Prod.fst).Nodup := by
  refine List.pairwise_map.mpr (List.Pairwise.filterMap _ ?_ (List.Pairwise.and_mem.mp sorted_children_apart))
  intro first second ⟨member, also, different⟩ write made other done same
  have listed := mem_sorted_children.mp member
  have stored := mem_sorted_children.mp also
  rcases child_write_some.mp made with ⟨content, year, file, kept, rfl⟩ | ⟨folder, kept, rfl⟩ <;>
    rcases child_write_some.mp done with ⟨more, later, plain, left, rfl⟩ | ⟨directory, left, rfl⟩
  · exact different (pair_inj same)
  · rw [pair_inj same, file] at listed
    rw [pair_inj same] at kept
    rw [directory] at stored
    exact separate ⟨deployed, second.1, content, year, stored, left, listed, kept⟩
  · rw [← pair_inj same, plain] at stored
    rw [← pair_inj same] at left
    rw [folder] at listed
    exact separate ⟨deployed, first.1, more, later, listed, kept, stored, left⟩
  · exact different (archive_name_injective (pair_inj same))

theorem destinations_nodup (separate : ¬ArchiveClash rules tree) :
    ((stagedWrites rules tree lower).map Prod.fst).Nodup := by
  rw [stagedWrites, List.map_append]
  cases deployed : nodeDeployed rules tree with
  | false => simpa using copies_nodup
  | true =>
      refine List.pairwise_append.mpr ⟨copies_nodup, no_shared_destination separate deployed, ?_⟩
      intro first inside second there same
      obtain ⟨write, written, rfl⟩ := List.mem_map.mp inside
      obtain ⟨item, _, made⟩ := List.mem_filterMap.mp written
      obtain ⟨_, _, _, outside, _, rfl⟩ := copy_write_some.mp made
      obtain ⟨other, also, rfl⟩ := List.mem_map.mp there
      obtain ⟨child, _, done⟩ := List.mem_filterMap.mp also
      rcases child_write_some.mp done with ⟨_, _, _, _, rfl⟩ | ⟨_, _, rfl⟩ <;> exact outside (congrArg List.head? same)

theorem members_nodup {members : List ZipMember} {destination : RelativePath}
    (written : (destination, .archive members) ∈ stagedWrites rules tree lower) :
    (members.map ZipMember.arcname).Nodup := by
  rcases mem_staged_writes.mp written with ⟨item, _, made⟩ | ⟨_, child, _, made⟩
  · obtain ⟨_, _, _, _, _, same⟩ := copy_write_some.mp made
    cases same
  · rcases child_write_some.mp made with ⟨_, _, _, _, same⟩ | ⟨_, _, same⟩
    · cases same
    · cases same
      exact archive_names_nodup

theorem closed_above : ∀ (below above : RelativePath) (entry : ProjectEntry), (above ++ below, entry) ∈ tree.entries →
    above ≠ [] → below ≠ [] → (above, .directory) ∈ tree.entries ∨ (above = [nodeName] ∧ (above, .link true) ∈ tree.entries) := by
  intro below
  induction below using List.reverseRecOn with
  | nil => exact fun _ _ _ _ none => absurd rfl none
  | append_singleton front last ih =>
      intro above entry listed named _
      rw [← List.append_assoc] at listed
      have parent := tree.closed _ _ _ listed (List.append_ne_nil_of_left_ne_nil named front)
      by_cases direct : front = []
      · rw [direct, List.append_nil] at parent
        exact parent
      · rcases parent with directory | ⟨_, link⟩
        · exact ih above _ directory named direct
        · exact ih above _ link named direct

theorem node_deployed {below : RelativePath} {entry : ProjectEntry} (listed : (nodeName :: below, entry) ∈ tree.entries)
    (deeper : below ≠ []) (kept : rules.isIgnored [nodeName] true = false) : nodeDeployed rules tree = true := by
  have directory : nodeRootIsDir tree = true := by
    unfold nodeRootIsDir
    rcases closed_above below [nodeName] entry listed (List.cons_ne_nil _ _) deeper with plain | ⟨_, link⟩
    · rw [lookup_listed.mpr plain]
      rfl
    · rw [lookup_listed.mpr link]
      rfl
  rw [nodeDeployed, directory, kept]
  rfl

theorem root_kept (deployed : nodeDeployed rules tree = true) : rules.isIgnored [nodeName] true = false := by
  simpa using (Bool.and_eq_true_iff.mp deployed).2

theorem kept_ignored {isDir : Bool} (kept : leftOut rules path isDir = false) : rules.isIgnored path isDir = false := by
  simp only [leftOut, Bool.or_eq_false_iff] at kept
  exact kept.2

theorem folder_listed {folder inner : EntryName} {more : RelativePath} {entry : ProjectEntry}
    (listed : (nodeName :: folder :: inner :: more, entry) ∈ tree.entries) : ([nodeName, folder], .directory) ∈ tree.entries := by
  rcases closed_above (inner :: more) [nodeName, folder] _ listed (List.cons_ne_nil _ _) (List.cons_ne_nil _ _) with
    real | ⟨same, _⟩
  · exact real
  · cases same

theorem written_in_place (plain : ¬PlainNode rules tree) (listed : (path, .file content year) ∈ tree.entries)
    (kept : Kept rules path) : ∃ write ∈ stagedWrites rules tree lower,
    placed path content ∈ Staging.write.occurrences write := by
  have nonempty := tree.rootless _ listed
  by_cases outside : path.head? = some nodeName
  · obtain ⟨first, rest, rfl⟩ := List.exists_cons_of_ne_nil nonempty
    have start : first = nodeName := by simpa using outside
    subst start
    cases rest with
    | nil => exact absurd ⟨content, year, listed, kept_ignored kept.1⟩ plain
    | cons folder below =>
        have rootKept := kept_ignored (kept.2 [nodeName] (folder :: below) rfl (List.cons_ne_nil _ _) (List.cons_ne_nil _ _))
        have deployed := node_deployed listed (List.cons_ne_nil _ _) rootKept
        cases below with
        | nil =>
            refine ⟨_, mem_staged_writes.mpr (.inr ⟨deployed, (folder, .file content year), listed,
              child_write_some.mpr (.inl ⟨content, year, rfl, kept_ignored kept.1, rfl⟩)⟩), ?_⟩
            exact List.mem_singleton_self _
        | cons inner more =>
            have folderKept := kept_ignored (kept.2 [nodeName, folder]
              (inner :: more) rfl (List.cons_ne_nil _ _) (List.cons_ne_nil _ _))
            refine ⟨_, mem_staged_writes.mpr (.inr ⟨deployed, (folder, .directory), folder_listed listed,
              child_write_some.mpr (.inr ⟨rfl, folderKept, rfl⟩)⟩), ?_⟩
            have included : (nodeName :: folder :: inner :: more, ProjectEntry.file content year) ∈
                (includedNodeEntries rules tree [nodeName, folder]).1 :=
              mem_included.mpr ⟨listed, ⟨inner :: more, List.cons_ne_nil _ _, rfl⟩, rfl, kept_ignored kept.1⟩
            refine List.mem_flatMap.mpr ⟨_, mem_zip_source.mpr ⟨⟨year, included⟩, rfl⟩, ?_⟩
            exact List.mem_singleton.mpr placed_archived
  · refine ⟨_, mem_staged_writes.mpr (.inl ⟨_, listed, copy_write_some.mpr ⟨content, year, rfl, outside, kept.1, rfl⟩⟩), ?_⟩
    rw [placed_outside outside]
    exact List.mem_singleton_self _

theorem included_zipped {name : EntryName} {item : RelativePath × ProjectEntry} (deployed : nodeDeployed rules tree = true)
    (kept : rules.isIgnored [nodeName, name] true = false) (included : item ∈ (includedNodeEntries rules tree [nodeName, name]).1)
    (file : item.2 = .file content year) : Zipped rules item.1 := by
  obtain ⟨_, ⟨rest, deeper, joined⟩, _, plain⟩ := mem_included.mp included
  rw [file] at plain
  have clean : rules.isIgnored item.1 false = false := plain
  refine ⟨?_, fun below start => ?_⟩
  · rw [leftOut, clean, joined]
    rfl
  · have same : below = name :: rest := (List.cons_injective (joined.symm.trans start)).symm
    subst same
    refine ⟨List.cons_ne_nil _ _, root_kept deployed, fun folder inner more named => ?_⟩
    rw [← (List.cons_eq_cons.mp named).1]
    exact kept

theorem zipped_written (listed : (path, .file content year) ∈ tree.entries) (zipped : Zipped rules path) :
    (path, .copied path content year) ∈ stagedWrites rules tree lower ∨
      (nodeDeployed rules tree = true ∧ ∃ folder, ([nodeName, folder], .directory) ∈ tree.entries ∧
        rules.isIgnored [nodeName, folder] true = false ∧
        (path, .file content year) ∈ (includedNodeEntries rules tree [nodeName, folder]).1) := by
  by_cases outside : path.head? = some nodeName
  · obtain ⟨first, below, rfl⟩ := List.exists_cons_of_ne_nil (tree.rootless _ listed)
    have start : first = nodeName := by simpa using outside
    subst start
    have ⟨deeper, rootKept, folderKept⟩ := zipped.2 below rfl
    have deployed := node_deployed listed deeper rootKept
    obtain ⟨folder, inside, rfl⟩ := List.exists_cons_of_ne_nil deeper
    cases inside with
    | nil =>
        left
        exact mem_staged_writes.mpr (.inr ⟨deployed, (folder, .file content year), listed,
          child_write_some.mpr (.inl ⟨content, year, rfl, kept_ignored zipped.1, rfl⟩)⟩)
    | cons inner more =>
        right
        exact ⟨deployed, folder, folder_listed listed, folderKept folder inner more rfl,
          mem_included.mpr ⟨listed, ⟨inner :: more, List.cons_ne_nil _ _, rfl⟩, rfl, kept_ignored zipped.1⟩⟩
  · left
    exact mem_staged_writes.mpr (.inl ⟨_, listed, copy_write_some.mpr ⟨content, year, rfl, outside, zipped.1, rfl⟩⟩)

theorem written_dated (dated : ¬UndatedFile rules tree) (written : write ∈ stagedWrites rules tree lower) : write.2.Dated := by
  rcases mem_staged_writes.mp written with ⟨item, listed, made⟩ | ⟨deployed, child, listed, made⟩
  · obtain ⟨content, year, file, outside, kept, rfl⟩ := copy_write_some.mp made
    by_contra undated
    rw [← Prod.mk.eta (p := item), file] at listed
    exact dated ⟨item.1, content, year, listed, ⟨kept, fun below start => absurd (by rw [start]; rfl) outside⟩, undated⟩
  · rcases child_write_some.mp made with ⟨content, year, file, kept, rfl⟩ | ⟨_, _, rfl⟩
    · by_contra undated
      rw [file] at listed
      refine dated ⟨_, content, year, listed, ⟨by rw [leftOut, kept]; rfl, fun below start => ?_⟩, undated⟩
      have same : below = [child.1] := (List.cons_injective start).symm
      subst same
      exact ⟨List.cons_ne_nil _ _, root_kept deployed, fun folder inner more named =>
        absurd (congrArg List.length named) (by simp)⟩
    · trivial

theorem children_dated_when (dated : ¬UndatedFile rules tree) (deployed : nodeDeployed rules tree = true) :
    ∀ child ∈ sortedChildren tree lower, ChildDated rules tree child := by
  intro child _ _ kept item included
  cases entry : item.2 with
  | file content year =>
      by_contra undated
      have listed := (mem_included.mp included).1
      rw [← Prod.mk.eta (p := item), entry] at listed
      exact dated ⟨item.1, content, year, listed, included_zipped deployed kept included entry, undated⟩
  | directory => trivial
  | link toDirectory => trivial
  | other => trivial

end Destinations

section Results

variable {rules : MWFIgnore} {tree : ProjectTree} {lower : List Char → List Char} {staging : Staging}
  {deployment : List DeployedMember}

def Deployed (rules : MWFIgnore) (tree : ProjectTree) (lower : List Char → List Char) : Prop :=
  ∃ staging deployment, deployLocal rules tree lower = .ok (staging, deployment) ∧ Complete rules tree staging deployment

theorem deploy_local_ok : deployLocal rules tree lower = .ok (staging, deployment) ↔
    buildStaging rules tree lower = .ok staging ∧ zipTree staging = .ok deployment := by
  unfold deployLocal
  cases buildStaging rules tree lower with
  | error raised => simp [bind, Except.bind]
  | ok built =>
      cases shipped : zipTree built with
      | error raised =>
          simp only [bind, Except.bind, shipped, reduceCtorEq, Except.ok.injEq, false_iff, not_and]
          intro same
          rw [← same, shipped]
          exact nofun
      | ok members =>
          simp only [bind, Except.bind, shipped, pure, Except.pure, Except.ok.injEq, Prod.mk.injEq]
          refine and_congr_right fun same => ?_
          rw [← same, shipped, Except.ok.injEq]

theorem complete_when_separate (separate : ¬ArchiveClash rules tree) (plain : ¬PlainNode rules tree)
    (dated : ¬UndatedFile rules tree) : Deployed rules tree lower := by
  obtain ⟨staging, built, written⟩ := build_runs (@children_dated_when rules tree lower dated)
  have distinct : (staging.writes.map Prod.fst).Nodup := by
    rw [written]
    exact destinations_nodup separate
  have files : staging.files = stagedWrites rules tree lower := (Lib.Dict.update_fresh distinct).trans written
  have shipped : zipTree staging = .ok (staging.listed.map deployedMember) := by
    refine zip_tree_ok.mpr ⟨fun file stored => ?_, rfl⟩
    rw [files] at stored
    exact written_dated dated stored
  have same : (occurrences (staging.listed.map deployedMember)).Perm
      ((stagedWrites rules tree lower).flatMap Staging.write.occurrences) := by
    rw [← files]
    exact occurrences_perm shipped
  refine ⟨staging, _, deploy_local_ok.mpr ⟨built, shipped⟩, fun path content year listed kept => ?_,
    fun found member => ?_, distinct,
    fun destination members stored => members_nodup (written ▸ stored)⟩
  · have apart : SourcesApart (occurrences (staging.listed.map deployedMember)) :=
      same.symm.pairwise build_apart fun different => different.symm
    have member : placed path content ∈ occurrences (staging.listed.map deployedMember) := by
      obtain ⟨write, written, inside⟩ := written_in_place plain listed kept
      exact same.mem_iff.mpr (List.mem_flatMap.mpr ⟨write, written, inside⟩)
    have only := apart_filter apart member
    rwa [placed_source] at only
  · obtain ⟨_, _, _, kept, _⟩ := found_in_build built shipped member
    exact kept

theorem clash_incomplete (clash : ArchiveClash rules tree) : ¬Deployed rules tree lower := by
  intro ⟨staging, deployment, done, complete⟩
  obtain ⟨deployed, folder, content, year, directory, kept, file, left⟩ := clash
  have distinct := complete.destinations
  rw [build_writes (deploy_local_ok.mp done).1] at distinct
  have archived : ([nodeName, archiveName folder], StagedFile.archive (zipMembers [nodeName, folder]
      (includedNodeEntries rules tree [nodeName, folder]).1)) ∈ stagedWrites rules tree lower :=
    mem_staged_writes.mpr (.inr ⟨deployed, (folder, .directory), directory, child_write_some.mpr (.inr ⟨rfl, kept, rfl⟩)⟩)
  have copied : ([nodeName, archiveName folder], StagedFile.copied [nodeName, archiveName folder] content year) ∈
      stagedWrites rules tree lower :=
    mem_staged_writes.mpr (.inr ⟨deployed, (archiveName folder, .file content year), file,
      child_write_some.mpr (.inl ⟨content, year, rfl, left, rfl⟩)⟩)
  have same := List.inj_on_of_nodup_map distinct archived copied rfl
  cases same

theorem plain_node_incomplete (plain : PlainNode rules tree) : ¬Deployed rules tree lower := by
  intro ⟨staging, deployment, done, complete⟩
  obtain ⟨built, shipped⟩ := deploy_local_ok.mp done
  obtain ⟨content, year, listed, kept⟩ := plain
  have whole : Kept rules [nodeName] := by
    refine ⟨by rw [leftOut, kept]; decide, fun parent below joined named deeper => ?_⟩
    have length := congrArg List.length joined
    have one := List.length_pos_iff.mpr named
    have more := List.length_pos_iff.mpr deeper
    simp only [List.length_append, List.length_singleton] at length
    omega
  have only := complete.present [nodeName] content year listed whole
  have member : placed [nodeName] content ∈ occurrences deployment := (List.mem_filter.mp (only ▸ List.mem_singleton_self _)).1
  obtain ⟨_, _, _, _, different⟩ := found_in_build built shipped member
  exact different rfl

theorem undated_incomplete (undated : UndatedFile rules tree) : ¬Deployed rules tree lower := by
  intro ⟨staging, deployment, done, complete⟩
  obtain ⟨built, shipped⟩ := deploy_local_ok.mp done
  obtain ⟨path, content, year, listed, zipped, late⟩ := undated
  rcases @zipped_written rules tree lower path content year listed zipped with copied | ⟨deployed,
    folder, directory, kept, included⟩
  · have files : staging.files = staging.writes := Lib.Dict.update_fresh complete.destinations
    rw [← build_writes built, ← files] at copied
    exact late ((zip_tree_ok.mp shipped).1 _ copied)
  · exact late (build_dated built deployed (folder, .directory) (mem_sorted_children.mpr directory) rfl kept _ included)

-- The deployment is made and complete but for a node archive that a file of its name replaces, a plain file
-- in the place of `node`, and a file of a year that no zip entry can hold.
theorem deployment_complete_iff (rules : MWFIgnore) (tree : ProjectTree) (lower : List Char → List Char) :
    Deployed rules tree lower ↔ ¬ArchiveClash rules tree ∧ ¬PlainNode rules tree ∧ ¬UndatedFile rules tree :=
  ⟨fun deployed => ⟨fun clash => clash_incomplete clash deployed, fun plain => plain_node_incomplete plain deployed,
      fun undated => undated_incomplete undated deployed⟩,
    fun ⟨separate, plain, dated⟩ => complete_when_separate separate plain dated⟩

theorem folder_name_valid : "foo".toList ≠ [] ∧ '/' ∉ "foo".toList ∧ "foo".toList ≠ ['.'] ∧ "foo".toList ≠ ['.', '.'] := by
  decide

def folderName : EntryName := ⟨"foo".toList, folder_name_valid⟩

def clashEntries : List (RelativePath × ProjectEntry) :=
  [([nodeName], .directory), ([nodeName, folderName], .directory), ([nodeName, folderName, folderName], .file [1] 2024),
    ([nodeName, archiveName folderName], .file [2] 2024)]

theorem clash_entries_distinct : (clashEntries.map Prod.fst).Nodup := by decide

theorem clash_entries_rootless : ∀ item ∈ clashEntries, item.1 ≠ [] := by decide

theorem clash_entries_closed : ∀ parent name entry, (parent ++ [name], entry) ∈ clashEntries → parent ≠ [] →
    (parent, .directory) ∈ clashEntries ∨ (parent = [nodeName] ∧ (parent, .link true) ∈ clashEntries) := by
  have above : ∀ item ∈ clashEntries, item.1.dropLast ≠ [] → (item.1.dropLast, .directory) ∈ clashEntries := by decide
  intro parent name entry listed named
  have parentOf : (parent ++ [name]).dropLast = parent := List.dropLast_concat
  have found := above _ listed (by rwa [parentOf])
  rw [parentOf] at found
  exact .inl found

def clashTree : ProjectTree where
  entries := clashEntries
  distinct := clash_entries_distinct
  rootless := clash_entries_rootless
  closed := clash_entries_closed

theorem clash_tree_incomplete :
    ¬∀ (rules : MWFIgnore) (tree : ProjectTree) (lower : List Char → List Char),
      (∀ path target, (path, .link target) ∈ tree.entries → leftOut rules path target = true) →
        Deployed rules tree lower := by
  intro every
  have unlinked : ∀ item ∈ clashEntries, item.2.isSymlink = false := by decide
  have complete := every [] clashTree (fun name => name) (by
    intro path target listed
    cases unlinked _ listed)
  exact clash_incomplete ⟨by decide, folderName, [2], 2024, by decide, rfl, by decide, rfl⟩ complete

-- What lies below an ignored directory, and which rules keep it out.
theorem ignored_directories_stay_out (rules : MWFIgnore) :
    (∀ directory : RelativePath, directory ≠ [] → rules.isIgnored directory true = true →
      ∃ before rule after, rules = before ++ rule :: after ∧ rule.matchesPath (asPosix directory) true = true ∧
        rule.negated = false ∧ (∀ later ∈ after, later.matchesPath (asPosix directory) true = false) ∧
        ∀ (below : RelativePath) (isDir : Bool), below ≠ [] →
          (∀ later ∈ after, later.negated = true → later.matchesPath (asPosix (directory ++ below)) isDir = false) →
            (rules.isIgnored (directory ++ below) isDir = true ↔
              rule.covering = true ∨ fnmatchcase (asPosix (directory ++ below)) (stripSlash rule.pattern) = true ∨
                MWFIgnore.Excluded (before ++ after) (directory ++ below) isDir)) ∧
    (∀ (tree : ProjectTree) (lower : List Char → List Char) (staging : Staging) (deployment : List DeployedMember),
      deployLocal rules tree lower = .ok (staging, deployment) → ∀ found ∈ occurrences deployment,
        rules.isIgnored found.source false = false) ∧
    (∀ (rule : IgnoreRule) (text : List Char), rule.directoryOnly = true → stripSlash rule.pattern ≠ [] →
      stripSlash text = stripSlash rule.pattern →
        (rule.matchesPath text false = false ↔ rule.negated = true ∨ rule.slashed = false ∨
          directoryPrefixMatch (stripSlash rule.pattern) (stripSlash rule.pattern) = false)) ∧
    (∀ (before : MWFIgnore) (rule : IgnoreRule) (after : MWFIgnore) (path : RelativePath) (isDir : Bool),
      rules = before ++ rule :: after → path ≠ [] → rule.matchesPath (asPosix path) isDir = true →
        (∀ later ∈ after, later.matchesPath (asPosix path) isDir = false) → rules.isIgnored path isDir = !rule.negated) := by
  refine ⟨fun directory listed ignored => ?_, fun tree lower staging deployment done found member => ?_,
    fun rule text trailing filled spelled => ?_,
    fun before rule after path isDir shape listed matched quiet => ?_⟩
  · obtain ⟨before, rule, after, rfl, matched, positive, quiet⟩ := ignored_by listed ignored
    exact ⟨before, rule, after, rfl, matched, positive, quiet,
      fun below isDir deeper kept => ignored_below_iff listed deeper matched positive kept⟩
  · have ⟨built, shipped⟩ := deploy_local_ok.mp done
    obtain ⟨_, _, _, kept, _⟩ := found_in_build built shipped member
    exact kept_ignored kept
  · rw [trailing_slash_file trailing filled spelled]
    simp only [Bool.and_eq_false_iff, Bool.not_eq_false', or_assoc]
  · rw [shape]
    exact later_rule_decides listed matched quiet

-- The rule `/foo` leaves the files of the directory in, and `/foo/` takes a plain file of that name.
theorem anchored_rules_leak :
    (¬∀ (rules : MWFIgnore) (directory below : RelativePath) (isDir : Bool), directory ≠ [] → below ≠ [] →
      rules.isIgnored directory true = true → (∀ rule ∈ rules, rule.negated = false) →
        rules.isIgnored (directory ++ below) isDir = true) ∧
    (¬∀ (source : List Char), ∀ rule ∈ MWFIgnore.fromText source, ∀ text : List Char, rule.directoryOnly = true →
      stripSlash text = stripSlash rule.pattern → rule.matchesPath text false = false) := by
  constructor
  · intro every
    have positive : ∀ rule ∈ MWFIgnore.fromText "/foo".toList, rule.negated = false := by decide
    have ignored := every (MWFIgnore.fromText "/foo".toList) [folderName] [folderName] false (List.cons_ne_nil _ _)
      (List.cons_ne_nil _ _) (by decide) positive
    exact absurd ignored (by decide)
  · intro every
    have missed := every "/foo/".toList ⟨"foo".toList, false, true, true⟩ (by decide) "foo".toList rfl rfl
    exact absurd missed (by decide)

end Results

end MicroWorkflow
