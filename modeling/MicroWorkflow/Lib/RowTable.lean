import Mathlib.Data.List.Pairwise
import Mathlib.Data.List.Nodup

set_option autoImplicit false

-- Tables whose rows are numbered by the table itself: a new row gets the number after the largest one in
-- use, so the number of a deleted last row is given again.
namespace MicroWorkflow.Lib

structure Numbered (ρ : Type) where
  rowid : Nat
  value : ρ
deriving DecidableEq

structure RowTable (ρ : Type) where
  rows : List (Numbered ρ)
  ordered : (rows.map Numbered.rowid).Pairwise (· < ·)
  positive : ∀ row ∈ rows, 0 < row.rowid

namespace RowTable

variable {ρ : Type}

def empty : RowTable ρ := ⟨[], List.Pairwise.nil, nofun⟩

def largest (table : RowTable ρ) : Nat := (table.rows.map Numbered.rowid).foldl max 0

theorem foldl_max_le {numbers : List Nat} {start bound : Nat} :
    numbers.foldl max start ≤ bound ↔ start ≤ bound ∧ ∀ number ∈ numbers, number ≤ bound := by
  induction numbers generalizing start with
  | nil => simp
  | cons first rest ih =>
      rw [List.foldl_cons, ih, Nat.max_le, List.forall_mem_cons, and_assoc]

theorem le_largest {table : RowTable ρ} {row : Numbered ρ} (member : row ∈ table.rows) : row.rowid ≤ table.largest :=
  (foldl_max_le.mp (Nat.le_refl _)).2 row.rowid (List.mem_map_of_mem member)

def insert (table : RowTable ρ) (value : ρ) : RowTable ρ where
  rows := table.rows ++ [⟨table.largest + 1, value⟩]
  ordered := by
    rw [List.map_append, List.pairwise_append]
    refine ⟨table.ordered, List.pairwise_singleton _ _, fun number listed last new => ?_⟩
    obtain ⟨row, member, rfl⟩ := List.mem_map.mp listed
    rw [List.map_singleton, List.mem_singleton] at new
    subst new
    exact Nat.lt_succ_of_le (le_largest member)
  positive := by
    intro row member
    rcases List.mem_append.mp member with earlier | last
    · exact table.positive row earlier
    · rw [List.mem_singleton.mp last]
      exact Nat.succ_pos _

def delete (table : RowTable ρ) (gone : ρ → Bool) : RowTable ρ where
  rows := table.rows.filter fun row => !gone row.value
  ordered := table.ordered.sublist (List.filter_sublist.map _)
  positive := fun row member => table.positive row (List.mem_filter.mp member).1

def modify (table : RowTable ρ) (change : ρ → ρ) : RowTable ρ where
  rows := table.rows.map fun row => ⟨row.rowid, change row.value⟩
  ordered := by
    rw [List.map_map]
    exact table.ordered
  positive := by
    intro row member
    obtain ⟨before, inside, rfl⟩ := List.mem_map.mp member
    exact table.positive before inside

def scan (table : RowTable ρ) (after : Nat) (wanted : ρ → Bool) (limit : Nat) : List (Numbered ρ) :=
  (table.rows.filter fun row => after < row.rowid && wanted row.value).take limit

section Scan

variable {table : RowTable ρ} {after limit : Nat} {wanted : ρ → Bool} {row : Numbered ρ}

theorem scan_sublist : (table.scan after wanted limit).Sublist table.rows :=
  (List.take_sublist _ _).trans List.filter_sublist

theorem mem_scan (member : row ∈ table.scan after wanted limit) :
    row ∈ table.rows ∧ after < row.rowid ∧ wanted row.value = true := by
  obtain ⟨inside, chosen⟩ := List.mem_filter.mp (List.mem_of_mem_take member)
  rw [Bool.and_eq_true, decide_eq_true_eq] at chosen
  exact ⟨inside, chosen⟩

theorem mem_take_of_behind {rows : List (Numbered ρ)} (ordered : (rows.map Numbered.rowid).Pairwise (· < ·))
    (member : row ∈ rows)
    (reached : (rows.take limit).length < limit ∨ ∃ other ∈ rows.take limit, row.rowid ≤ other.rowid) :
    row ∈ rows.take limit := by
  rw [← List.take_append_drop limit rows] at member ordered
  rcases List.mem_append.mp member with taken | left
  · exact taken
  · rcases reached with short | ⟨other, taken, behind⟩
    · have nothing : rows.drop limit = [] := by
        rw [List.length_take] at short
        exact List.drop_eq_nil_of_le (by omega)
      rw [nothing] at left
      cases left
    · rw [List.map_append, List.pairwise_append] at ordered
      have before := ordered.2.2 other.rowid (List.mem_map_of_mem taken) row.rowid (List.mem_map_of_mem left)
      omega

theorem scan_reaches (member : row ∈ table.rows) (later : after < row.rowid) (chosen : wanted row.value = true)
    (reached : (table.scan after wanted limit).length < limit ∨
      ∃ other ∈ table.scan after wanted limit, row.rowid ≤ other.rowid) :
    row ∈ table.scan after wanted limit := by
  refine mem_take_of_behind (table.ordered.sublist (List.filter_sublist.map _)) ?_ reached
  refine List.mem_filter.mpr ⟨member, ?_⟩
  rw [Bool.and_eq_true, decide_eq_true_eq]
  exact ⟨later, chosen⟩

theorem scan_nothing (positive : 0 < limit) (nothing : table.scan after wanted limit = []) (more : Nat) :
    table.scan after wanted more = [] := by
  rcases List.take_eq_nil_iff.mp nothing with none | empty
  · omega
  · rw [scan, empty, List.take_nil]

end Scan

end RowTable

end MicroWorkflow.Lib
