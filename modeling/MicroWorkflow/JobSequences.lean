import MicroWorkflow.Database

set_option autoImplicit false

namespace MicroWorkflow

open Lib (Table)

def tailJobId (jobs : Table Job.address) (node : String) : Nat :=
  (((jobs.select fun row => row.nodeName = node).map Job.jobId).foldr max 0) + 1

def nextJobId (db : Database) (node : String) : Nat :=
  match db.jobSequences.find node with
  | some row => row.nextJobId
  | none => tailJobId db.jobs node

def setSequence (sequences : Table JobSequence.nodeName) (node : String) (next : Nat) : Table JobSequence.nodeName :=
  sequences.upsert ⟨node, next⟩ fun row => { row with nextJobId := next }

def raiseSequence (sequences : Table JobSequence.nodeName) (node : String) (next : Nat) : Table JobSequence.nodeName :=
  sequences.upsert ⟨node, next⟩ fun row => { row with nextJobId := max row.nextJobId next }

variable {jobs : Table Job.address} {sequences : Table JobSequence.nodeName} {db : Database} {node other : String}
  {next : Nat} {row : Job}

theorem foldr_max_le {ids : List Nat} {bound : Nat} (below : ∀ jobId ∈ ids, jobId ≤ bound) :
    ids.foldr max 0 ≤ bound := by
  induction ids with
  | nil => exact Nat.zero_le bound
  | cons first rest ih =>
      have later := ih fun jobId member => below jobId (List.mem_cons_of_mem _ member)
      have here := below first List.mem_cons_self
      simp only [List.foldr_cons]
      omega

theorem le_foldr_max {ids : List Nat} {jobId : Nat} (member : jobId ∈ ids) : jobId ≤ ids.foldr max 0 := by
  induction ids with
  | nil => exact absurd member (by simp)
  | cons first rest ih =>
      simp only [List.foldr_cons]
      rcases List.mem_cons.mp member with rfl | later
      · omega
      · have below := ih later
        omega

theorem below_tail (member : row ∈ jobs.rows) : row.jobId < tailJobId jobs row.nodeName := by
  have listed : row.jobId ∈ (jobs.select fun other => other.nodeName = row.nodeName).map Job.jobId :=
    List.mem_map_of_mem (Table.mem_select.mpr ⟨member, by simp⟩)
  exact Nat.lt_succ_of_le (le_foldr_max listed)

theorem tail_le {bound : Nat} (below : ∀ row ∈ jobs.rows, row.nodeName = node → row.jobId < bound) (positive : 0 < bound) :
    tailJobId jobs node ≤ bound := by
  unfold tailJobId
  have largest : ((jobs.select fun row => row.nodeName = node).map Job.jobId).foldr max 0 ≤ bound - 1 := by
    apply foldr_max_le
    intro jobId listed
    obtain ⟨row, inside, rfl⟩ := List.mem_map.mp listed
    obtain ⟨member, here⟩ := Table.mem_select.mp inside
    have under := below row member (by simpa using here)
    omega
  omega

theorem find_set_sequence :
    (setSequence sequences node next).find other =
      if node = other then some ⟨node, next⟩ else sequences.find other := by
  unfold setSequence
  rw [Table.find_upsert]
  by_cases same : node = other
  · rw [if_pos same, if_pos same]
    cases found : sequences.find other with
    | none => rfl
    | some row =>
        have keyed := Table.find_key found
        simp only [Option.elim_some, Option.some.injEq, JobSequence.mk.injEq, and_true]
        exact keyed.trans same.symm
  · rw [if_neg same, if_neg same]

theorem find_raise_sequence :
    (raiseSequence sequences node next).find other =
      if node = other then some ⟨node, ((sequences.find other).elim next fun row => max row.nextJobId next)⟩
      else sequences.find other := by
  unfold raiseSequence
  rw [Table.find_upsert]
  by_cases same : node = other
  · rw [if_pos same, if_pos same]
    cases found : sequences.find other with
    | none => rfl
    | some row =>
        have keyed := Table.find_key found
        simp only [Option.elim_some, Option.some.injEq, JobSequence.mk.injEq, and_true]
        exact keyed.trans same.symm
  · rw [if_neg same, if_neg same]

end MicroWorkflow
