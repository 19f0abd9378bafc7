import MicroWorkflow.StagingRecovery

set_option autoImplicit false

namespace MicroWorkflow.PreparationStaging

open Lib (FileTree Script)

variable {sha256 : List UInt8 → String} {files : PreparationStaging} {base disk before later : Disk}

abbrev RecordHeading := FileRecord ⊕ DirectoryMarker

inductive RecordHolds : TreeRecord → ProjectPath → RecordHeading → Prop where
  | here (record : TreeRecord) : RecordHolds record [] record.heading
  | under {marker : DirectoryMarker} {members : List (String × TreeRecord)} {name : String} {record : TreeRecord}
      {rest : ProjectPath} {heading : RecordHeading} (member : (name, record) ∈ members)
      (held : RecordHolds record rest heading) : RecordHolds (.directory marker members) (name :: rest) heading

inductive Material (files : PreparationStaging) : ProjectPath → RecordHeading → Prop where
  | staging : Material files files.manifest.relative (.inr files.manifest.marker)
  | saved {name : String} {record : TreeRecord} {below : ProjectPath} {heading : RecordHeading}
      (known : (name, some record) ∈ files.knownPrivate) (held : RecordHolds record below heading) :
      Material files (files.savedPath name ++ below) heading

def Matches (sha256 : List UInt8 → String) : DiskLeaf ⊕ DirectoryMarker → RecordHeading → Prop
  | .inl (.file body), .inl expected => knownFile (body.record sha256) expected = true
  | .inr marker, .inr expected => marker = expected
  | .inl .special, _ => False
  | .inl (.file _), .inr _ => False
  | .inr _, .inl _ => False

def writable (body : RegularFile) : RegularFile := { body with mode := writableFileMode body.mode }

def OnlyRecorded (sha256 : List UInt8 → String) (files : PreparationStaging) (before after : Disk) : Prop :=
  ∀ path, after.look path = before.look path ∨
    ∃ found heading, before.look path = some found ∧ Material files path heading ∧ Matches sha256 found heading ∧
      (after.look path = none ∨ ∃ body, found = .inl (.file body) ∧ after.look path = some (.inl (.file (writable body))))

theorem only_recorded_refl : OnlyRecorded sha256 files before before := fun _ => .inl rfl

theorem only_recorded_step {path : ProjectPath} {found : DiskLeaf ⊕ DirectoryMarker} {heading : RecordHeading}
    (so_far : OnlyRecorded sha256 files before disk) (present : disk.look path = some found)
    (material : Material files path heading) (matched : Matches sha256 found heading)
    (elsewhere : ∀ other, other ≠ path → later.look other = disk.look other)
    (gone : later.look path = none ∨ ∃ body, found = .inl (.file body) ∧ later.look path = some (.inl (.file (writable body)))) :
    OnlyRecorded sha256 files before later := by
  intro other
  by_cases same : other = path
  · subst same
    rcases so_far other with unchanged | ⟨original, recorded, there, known, met, state⟩
    · rw [present] at unchanged
      exact .inr ⟨found, heading, unchanged.symm, material, matched, gone⟩
    · refine .inr ⟨original, recorded, there, known, met, ?_⟩
      rcases gone with removed | ⟨body, is_file, changed⟩
      · exact .inl removed
      · rcases state with absent | ⟨first, was, now⟩
        · rw [present] at absent
          cases absent
        · rw [present, is_file] at now
          obtain rfl : body = writable first := by simpa using now
          refine .inr ⟨first, was, ?_⟩
          rw [changed]
          simp [writable, writable_writable]
  · rw [elsewhere other same]
    exact so_far other

theorem captured_known {relative : ProjectPath} {expected : TreeRecord} {error : String} {actual : Option TreeRecord}
    (captured : captureKnown sha256 relative expected error disk = .ok actual) :
    captureRecoveryTree sha256 disk relative = .ok actual ∧ knownRemainingTree actual (some expected) = true := by
  simp only [captureKnown, Lib.bind_ok, Lib.require_ok, Lib.pure_ok] at captured
  obtain ⟨found, read, _, known, rfl⟩ := captured
  exact ⟨read, known⟩

theorem known_file_matches {relative : ProjectPath} {expected : FileRecord} {record : TreeRecord}
    (captured : captureRecoveryTree sha256 disk relative = .ok (some record))
    (known : knownTree record (.leaf expected) = true) :
    ∃ body, disk.look relative = some (.inl (.file body)) ∧ record = .leaf (body.record sha256) ∧
      Matches sha256 (.inl (.file body)) (.inl expected) := by
  rcases captured_heading captured with ⟨body, present, rfl⟩ | ⟨marker, records, present, rfl⟩
  · exact ⟨body, present, rfl, by simpa [Matches, knownTree] using known⟩
  · simp [knownTree] at known

theorem known_directory_matches {relative : ProjectPath} {expected : DirectoryMarker} {members : List (String × TreeRecord)}
    {record : TreeRecord} (captured : captureRecoveryTree sha256 disk relative = .ok (some record))
    (known : knownTree record (.directory expected members) = true) :
    disk.look relative = some (.inr expected) := by
  rcases captured_heading captured with ⟨body, present, rfl⟩ | ⟨marker, records, present, rfl⟩
  · simp [knownTree] at known
  · have same : marker = expected := by
      simp only [knownTree, Bool.and_eq_true, decide_eq_true_eq] at known
      exact known.1
    rw [present, same]

theorem remove_file_keeps {relative : ProjectPath} {expected : FileRecord}
    (material : Material files relative (.inl expected)) :
    Script.Keeps (OnlyRecorded sha256 files before) (removeRecordedTree sha256 relative (.leaf expected)) := by
  rw [removeRecordedTree]
  refine Script.keeps_checked fun actual => ?_
  cases actual with
  | none => exact fun _ _ start => start.1
  | some record =>
      refine Script.meets_then_keeps (Script.meets_step (fun _ start => start.1) ?_) fun _ => ?_
      · rintro disk later ⟨so_far, read⟩ changed
        obtain ⟨captured, known⟩ := captured_known read
        obtain ⟨body, present, rfl, matched⟩ := known_file_matches captured known
        obtain ⟨now, elsewhere⟩ := chmod_file_ok changed present
        refine only_recorded_step so_far present material matched elsewhere (.inr ⟨body, rfl, ?_⟩)
        rw [now, writable, recordMode]
        exact congrArg (fun mode => some (Sum.inl (DiskLeaf.file { body with mode := mode }))) (made_writable body.mode)
      · refine Script.keeps_checked fun again => ?_
        refine Script.meets_step (fun _ start => start.1) ?_
        rintro disk later ⟨so_far, read⟩ removed
        obtain ⟨⟨leaf, present⟩, gone, elsewhere⟩ := unlink_ok removed
        obtain ⟨captured, known⟩ := captured_known read
        cases again with
        | none =>
            obtain ⟨found, there, recorded⟩ := capture_ok.mp captured
            cases found with
            | none =>
                rw [FileTree.look_of_find there] at present
                cases present
            | some tree => exact absurd recorded (by simp [Records])
        | some left =>
            obtain ⟨body, here, _, matched⟩ := known_file_matches captured known
            exact only_recorded_step so_far here material matched elsewhere (.inl gone)

mutual
theorem remove_tree_keeps : ∀ (expected : TreeRecord) (relative : ProjectPath),
    (∀ below heading, RecordHolds expected below heading → Material files (relative ++ below) heading) →
      Script.Keeps (OnlyRecorded sha256 files before) (removeRecordedTree sha256 relative expected)
  | .leaf expected, relative, material => by
      have here := material [] _ (.here _)
      rw [List.append_nil] at here
      exact remove_file_keeps here
  | .directory marker members, relative, material => by
      have here := material [] _ (.here _)
      rw [List.append_nil] at here
      rw [removeRecordedTree]
      refine Script.keeps_checked fun actual => ?_
      cases actual with
      | none => exact fun _ _ start => start.1
      | some record =>
          have inner := remove_members_keeps members relative (recordNames record)
            fun name child member below heading held => by
              have there := material (name :: below) heading (.under member held)
              exact there
          refine Script.meets_then_keeps (Script.meets_weaken inner (fun _ start => start.1) fun _ _ held => held) fun _ => ?_
          refine Script.keeps_checked fun left => ?_
          cases left with
          | none => exact fun _ _ start => start.1
          | some remaining =>
              refine Script.meets_check (fun _ start => start.1) fun _ => Script.meets_step (fun _ start => start.1) ?_
              rintro disk later ⟨so_far, read⟩ removed
              obtain ⟨captured, known⟩ := captured_known read
              have present := known_directory_matches captured known
              obtain ⟨_, _, _, gone, elsewhere⟩ := rmdir_ok removed
              exact only_recorded_step so_far present here rfl elsewhere (.inl gone)
theorem remove_members_keeps : ∀ (members : List (String × TreeRecord)) (relative : ProjectPath) (present : List String),
    (∀ name child, (name, child) ∈ members → ∀ below heading, RecordHolds child below heading →
      Material files (relative ++ name :: below) heading) →
      Script.Keeps (OnlyRecorded sha256 files before) (removeRecordedMembers sha256 relative present members)
  | [], _, _, _ => by
      rw [removeRecordedMembers]
      exact Script.keeps_pure ()
  | (name, expected) :: rest, relative, present, material => by
      rw [removeRecordedMembers]
      have first := remove_tree_keeps expected (relative ++ [name]) fun below heading held => by
        have there := material name expected List.mem_cons_self below heading held
        simpa using there
      have others := remove_members_keeps rest relative present fun other child member =>
        material other child (List.mem_cons_of_mem _ member)
      split
      · exact Script.keeps_bind first fun _ => others
      · exact Script.keeps_bind (Script.keeps_pure ()) fun _ => others
end

theorem private_marker {cleanup : Bool} (required : files.requirePrivate sha256 cleanup disk = .ok ()) :
    disk.look files.manifest.relative = some (.inr files.manifest.marker) := by
  simp only [requirePrivate, Lib.bind_ok] at required
  obtain ⟨found, present, checked⟩ := required
  split at checked
  · cases checked
  · cases checked
  · simp only [Lib.bind_ok, Lib.require_ok, decide_eq_true_eq] at checked
    obtain ⟨_, same, _⟩ := checked
    rw [FileTree.look_of_find present, ← same]
    rfl

theorem discard_keeps : Script.Keeps (OnlyRecorded sha256 files before) (files.discard sha256) := by
  have known_keeps : ∀ known ∈ files.knownPrivate,
      Script.Keeps (OnlyRecorded sha256 files before) (files.removeKnown sha256 known) := by
    rintro ⟨name, expected⟩ member
    cases expected with
    | none => exact Script.keeps_observe
    | some record =>
        exact remove_tree_keeps record (files.savedPath name) fun below heading held => .saved member held
  refine Script.keeps_bind Script.keeps_observe fun _ => ?_
  refine Script.keeps_bind (Script.keeps_forEach known_keeps) fun _ => ?_
  refine Script.keeps_checked fun _ => Script.meets_step (fun _ start => start.1) ?_
  rintro disk later ⟨so_far, required⟩ removed
  obtain ⟨_, _, _, gone, elsewhere⟩ := rmdir_ok removed
  exact only_recorded_step so_far (private_marker required) .staging rfl elsewhere (.inl gone)

end MicroWorkflow.PreparationStaging
