import Mathlib.Algebra.BigOperators.Intervals
import Mathlib.Data.Finset.Sort

set_option autoImplicit false

namespace MicroWorkflow

def laneShare (total : Nat) (active : Finset Nat) (lane : Nat) : Nat :=
  let position := (active.sort (· ≤ ·)).idxOf lane
  total / active.card + if position < total % active.card then 1 else 0

def limitFor (total : Nat) (active : Finset Nat) (lane : Nat) : Option Nat :=
  if total < 1 then none
  else if lane ∉ active then some 0
  else some (laneShare total active lane)

variable {total lane : Nat} {active : Finset Nat}

theorem ascending_index {lanes : List Nat} (ascending : lanes.Pairwise (· < ·)) (member : lane ∈ lanes) :
    lanes.idxOf lane = (lanes.filter (· < lane)).length := by
  induction lanes with
  | nil => cases member
  | cons first rest ih =>
      rw [List.pairwise_cons] at ascending
      obtain ⟨least, ascending⟩ := ascending
      by_cases same : first = lane
      · subst same
        have none : (rest.filter (· < first)) = [] := by
          rw [List.filter_eq_nil_iff]
          intro other later
          have above := least other later
          simp only [decide_eq_true_eq]
          omega
        rw [List.idxOf_cons_self, List.filter_cons_of_neg (by simp), none]
        rfl
      · have later : lane ∈ rest := (List.mem_cons.mp member).resolve_left fun equal => same equal.symm
        rw [List.idxOf_cons_ne _ same, List.filter_cons_of_pos (by simpa using least lane later), ih ascending later]
        rfl

theorem lane_position (member : lane ∈ active) :
    (active.sort (· ≤ ·)).idxOf lane = (active.filter (· < lane)).card := by
  have ascending : (active.sort (· ≤ ·)).Pairwise (· < ·) := (active.sortedLT_sort).pairwise
  have counted : (active.filter (· < lane)).card = ((active.sort (· ≤ ·)).filter (· < lane)).length := by
    rw [Finset.card_def, Finset.filter_val, ← Multiset.coe_card, ← Multiset.filter_coe, Finset.sort_eq]
  rw [counted]
  exact ascending_index ascending ((Finset.mem_sort _).mpr member)

theorem lane_position_lt (member : lane ∈ active) : (active.sort (· ≤ ·)).idxOf lane < active.card := by
  have inside := List.idxOf_lt_length_iff.mpr ((Finset.mem_sort (· ≤ ·)).mpr member)
  rwa [Finset.length_sort] at inside

theorem sum_over_positions (share : Nat → Nat) :
    ∑ lane ∈ active, share ((active.sort (· ≤ ·)).idxOf lane) = ∑ position ∈ Finset.range active.card, share position := by
  refine Finset.sum_bij (fun lane _ => (active.sort (· ≤ ·)).idxOf lane) ?_ ?_ ?_ ?_
  · intro lane member
    exact Finset.mem_range.mpr (lane_position_lt member)
  · intro lane member other listed same
    exact List.idxOf_inj ((Finset.mem_sort _).mpr member) |>.mp same
  · intro position inside
    have less : position < (active.sort (· ≤ ·)).length := by
      rw [Finset.length_sort]
      exact Finset.mem_range.mp inside
    refine ⟨(active.sort (· ≤ ·))[position], (Finset.mem_sort _).mp (List.getElem_mem less), ?_⟩
    exact (Finset.sort_nodup _ _).idxOf_getElem position less
  · intro lane _
    rfl

theorem lane_shares_sum (some_lane : active.Nonempty) : ∑ lane ∈ active, laneShare total active lane = total := by
  have positive : 0 < active.card := Finset.card_pos.mpr some_lane
  have extra : (Finset.range active.card).filter (· < total % active.card) = Finset.range (total % active.card) := by
    ext position
    have less := Nat.mod_lt total positive
    simp only [Finset.mem_filter, Finset.mem_range]
    omega
  calc ∑ lane ∈ active, laneShare total active lane
      = ∑ position ∈ Finset.range active.card, (total / active.card + if position < total % active.card then 1 else 0) :=
        sum_over_positions fun position => total / active.card + if position < total % active.card then 1 else 0
    _ = active.card * (total / active.card) + total % active.card := by
        rw [Finset.sum_add_distrib, Finset.sum_const_nat fun _ _ => rfl, Finset.card_range, ← Finset.card_filter, extra,
          Finset.card_range]
    _ = total := Nat.div_add_mod total active.card

theorem lane_share_grows {other : Nat} (stays : lane ∈ active.erase other) :
    laneShare total active lane ≤ laneShare total (active.erase other) lane := by
  obtain ⟨different, member⟩ := Finset.mem_erase.mp stays
  by_cases leaves : other ∈ active
  · have fewer : active.card = (active.erase other).card + 1 := (Finset.card_erase_add_one leaves).symm
    have earlier : ((active.erase other).sort (· ≤ ·)).idxOf lane ≤ (active.sort (· ≤ ·)).idxOf lane := by
      rw [lane_position stays, lane_position member]
      exact Finset.card_le_card (Finset.filter_subset_filter _ (Finset.erase_subset other active))
    have positive : 0 < (active.erase other).card := Finset.card_pos.mpr ⟨lane, stays⟩
    rw [laneShare, laneShare, fewer]
    generalize ((active.erase other).sort (· ≤ ·)).idxOf lane = position at earlier ⊢
    generalize (active.sort (· ≤ ·)).idxOf lane = before at earlier ⊢
    generalize (active.erase other).card = lanes at positive ⊢
    have base : total / (lanes + 1) ≤ total / lanes := Nat.div_le_div_left (Nat.le_succ lanes) positive
    by_cases same : total / (lanes + 1) = total / lanes
    · -- With one base the remainder grows by what the lane that left had of it.
      have remainder : total % lanes = total % (lanes + 1) + total / lanes := by
        have whole := Nat.div_add_mod total (lanes + 1)
        have part := Nat.div_add_mod total lanes
        rw [same, Nat.succ_mul] at whole
        generalize lanes * (total / lanes) = product at whole part
        generalize total / lanes = quotient at whole ⊢
        generalize total % (lanes + 1) = less at whole ⊢
        generalize total % lanes = more at part ⊢
        omega
      by_cases extra : before < total % (lanes + 1)
      · have kept : position < total % lanes := by
          rw [remainder]
          exact (earlier.trans_lt extra).trans_le (Nat.le_add_right _ _)
        rw [if_pos extra, if_pos kept, same]
      · rw [if_neg extra, same]
        exact Nat.le_add_right _ _
    · have more : total / (lanes + 1) + 1 ≤ total / lanes := by omega
      by_cases extra : before < total % (lanes + 1)
      · rw [if_pos extra]
        exact more.trans (Nat.le_add_right _ _)
      · rw [if_neg extra]
        omega
  · rw [Finset.erase_eq_of_notMem leaves]

end MicroWorkflow
