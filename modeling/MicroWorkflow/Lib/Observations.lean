import Mathlib.Data.List.Induction
import Mathlib.Order.Basic

set_option autoImplicit false

namespace MicroWorkflow.Lib

section Highest

variable {ω ι : Type} {rank : ω → Nat} {latest : ω} {writes : List ω}

def keepHighest (rank : ω → Nat) (previous incoming : ω) : ω :=
  if rank incoming < rank previous then previous else incoming

def LastOfHighest (rank : ω → Nat) (latest : ω) (writes : List ω) : Prop :=
  ∃ before after, writes = before ++ latest :: after ∧
    (∀ write ∈ before, rank write ≤ rank latest) ∧ ∀ write ∈ after, rank write < rank latest

theorem LastOfHighest.mem (last : LastOfHighest rank latest writes) : latest ∈ writes := by
  obtain ⟨before, after, rfl, _, _⟩ := last
  exact List.mem_append_right _ List.mem_cons_self

theorem LastOfHighest.bound (last : LastOfHighest rank latest writes) {write : ω} (member : write ∈ writes) :
    rank write ≤ rank latest := by
  obtain ⟨before, after, rfl, low, lower⟩ := last
  rw [List.mem_append, List.mem_cons] at member
  cases member with
  | inl early => exact low write early
  | inr rest =>
      cases rest with
      | inl same => exact Nat.le_of_eq (congrArg rank same)
      | inr late => exact Nat.le_of_lt (lower write late)

theorem last_of_one (write : ω) : LastOfHighest rank write [write] :=
  ⟨[], [], rfl, fun _ listed => absurd listed List.not_mem_nil, fun _ listed => absurd listed List.not_mem_nil⟩

theorem LastOfHighest.snoc (last : LastOfHighest rank latest writes) (write : ω) :
    LastOfHighest rank (keepHighest rank latest write) (writes ++ [write]) := by
  by_cases lower : rank write < rank latest
  · obtain ⟨before, after, rfl, low, later⟩ := last
    rw [keepHighest, if_pos lower]
    refine ⟨before, after ++ [write], by simp, low, ?_⟩
    intro other member
    rw [List.mem_append, List.mem_singleton] at member
    cases member with
    | inl listed => exact later other listed
    | inr same => rw [same]; exact lower
  · rw [keepHighest, if_neg lower]
    refine ⟨writes, [], rfl, ?_, fun _ listed => absurd listed List.not_mem_nil⟩
    intro other member
    exact Nat.le_trans (last.bound member) (Nat.le_of_not_lt lower)

theorem foldl_keepHighest (first : ω) (rest : List ω) :
    LastOfHighest rank (rest.foldl (keepHighest rank) first) (first :: rest) := by
  induction rest using List.reverseRecOn with
  | nil => exact last_of_one first
  | append_singleton rest write ih =>
      rw [List.foldl_append]
      exact ih.snoc write

theorem LastOfHighest.flatMap {buffers : List ι} {kept : ι → ω} {merged : ι → List ω}
    (each : ∀ buffer ∈ buffers, LastOfHighest rank (kept buffer) (merged buffer))
    (last : LastOfHighest rank latest (buffers.map kept)) : LastOfHighest rank latest (buffers.flatMap merged) := by
  obtain ⟨before, after, split, low, lower⟩ := last
  obtain ⟨early, rest, rfl, beforeEq, restEq⟩ := List.map_eq_append_iff.mp split
  obtain ⟨buffer, late, rfl, keptEq, afterEq⟩ := List.map_eq_cons_iff.mp restEq
  obtain ⟨head, tail, mergedEq, headLow, tailLow⟩ := each buffer (List.mem_append_right _ List.mem_cons_self)
  rw [keptEq] at mergedEq headLow tailLow
  refine ⟨early.flatMap merged ++ head, tail ++ late.flatMap merged, ?_, ?_, ?_⟩
  · simp [mergedEq]
  · intro write member
    rw [List.mem_append, List.mem_flatMap] at member
    cases member with
    | inl found =>
        obtain ⟨other, listed, inside⟩ := found
        have bound := (each other (List.mem_append_left _ listed)).bound inside
        exact Nat.le_trans bound (low _ (beforeEq ▸ List.mem_map_of_mem listed))
    | inr own => exact headLow write own
  · intro write member
    rw [List.mem_append, List.mem_flatMap] at member
    cases member with
    | inl own => exact tailLow write own
    | inr found =>
        obtain ⟨other, listed, inside⟩ := found
        have bound := (each other (List.mem_append_right _ (List.mem_cons_of_mem _ listed))).bound inside
        exact Nat.lt_of_le_of_lt bound (lower _ (afterEq ▸ List.mem_map_of_mem listed))

end Highest

section Settled

variable {σ ω : Type} {store : σ → ω → σ}

theorem foldl_settled {Ready : σ → Prop} {state done : σ} {before after : List ω} {settling : ω} (ready : Ready state)
    (kept : ∀ write ∈ before, ∀ reached, Ready reached → Ready (store reached write))
    (settles : ∀ reached, Ready reached → store reached settling = done)
    (stays : ∀ write ∈ after, store done write = done) :
    (before ++ settling :: after).foldl store state = done := by
  induction before generalizing state with
  | nil =>
      rw [List.nil_append, List.foldl_cons, settles state ready]
      clear settles
      induction after with
      | nil => rfl
      | cons write rest ih =>
          rw [List.foldl_cons, stays write List.mem_cons_self]
          exact ih fun other listed => stays other (List.mem_cons_of_mem _ listed)
  | cons write rest ih =>
      rw [List.cons_append, List.foldl_cons]
      apply ih (kept write List.mem_cons_self state ready)
      exact fun other listed => kept other (List.mem_cons_of_mem _ listed)

theorem foldl_refused {state : σ} {writes : List ω} (refused : ∀ write ∈ writes, store state write = state) :
    writes.foldl store state = state := by
  induction writes with
  | nil => rfl
  | cons write rest ih =>
      rw [List.foldl_cons, refused write List.mem_cons_self]
      exact ih fun other listed => refused other (List.mem_cons_of_mem _ listed)

end Settled

end MicroWorkflow.Lib
