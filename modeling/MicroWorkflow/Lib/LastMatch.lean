import Mathlib.Data.List.Induction

set_option autoImplicit false

namespace MicroWorkflow.Lib

section LastMatch

variable {ρ : Type} (applies verdict : ρ → Bool)

def lastMatch (rules : List ρ) : Bool :=
  rules.foldl (fun decided rule => if applies rule then verdict rule else decided) false

def Upheld (rules : List ρ) : Prop :=
  ∃ before rule after, rules = before ++ rule :: after ∧ applies rule = true ∧ verdict rule = true ∧
    ∀ later ∈ after, applies later = true → verdict later = true

variable {applies verdict} {rules before after : List ρ} {rule : ρ}

theorem last_match_concat :
    lastMatch applies verdict (rules ++ [rule]) =
      if applies rule then verdict rule else lastMatch applies verdict rules := by
  rw [lastMatch, List.foldl_append]
  rfl

theorem last_match_quiet (quiet : ∀ later ∈ after, applies later = false) :
    lastMatch applies verdict (before ++ after) = lastMatch applies verdict before := by
  induction after using List.reverseRecOn with
  | nil => rw [List.append_nil]
  | append_singleton earlier last ih =>
      have silent := quiet last (List.mem_append_right _ (List.mem_singleton_self last))
      rw [← List.append_assoc, last_match_concat, silent, ih fun later member => quiet later (List.mem_append_left _ member)]
      rfl

theorem last_match_decides (matched : applies rule = true) (quiet : ∀ later ∈ after, applies later = false) :
    lastMatch applies verdict (before ++ rule :: after) = verdict rule := by
  rw [← List.singleton_append, ← List.append_assoc, last_match_quiet quiet, last_match_concat, if_pos matched]

theorem last_match_exists (decided : lastMatch applies verdict rules = true) :
    ∃ before rule after, rules = before ++ rule :: after ∧ applies rule = true ∧ verdict rule = true ∧
      ∀ later ∈ after, applies later = false := by
  induction rules using List.reverseRecOn with
  | nil => cases decided
  | append_singleton earlier last ih =>
      rw [last_match_concat] at decided
      by_cases matched : applies last = true
      · rw [if_pos matched] at decided
        exact ⟨earlier, last, [], rfl, matched, decided, by simp⟩
      · rw [if_neg matched] at decided
        obtain ⟨before, rule, after, rfl, applied, agreed, quiet⟩ := ih decided
        refine ⟨before, rule, after ++ [last], by simp, applied, agreed, fun later member => ?_⟩
        rcases List.mem_append.mp member with inside | final
        · exact quiet later inside
        · rw [List.mem_singleton.mp final]
          exact Bool.eq_false_iff.mpr matched

theorem last_match_upheld : lastMatch applies verdict rules = true ↔ Upheld applies verdict rules := by
  constructor
  · intro decided
    obtain ⟨before, rule, after, shape, matched, agreed, quiet⟩ := last_match_exists decided
    exact ⟨before, rule, after, shape, matched, agreed, fun later member applied => by simp [quiet later member] at applied⟩
  · rintro ⟨before, rule, after, rfl, matched, agreed, kept⟩
    induction after using List.reverseRecOn with
    | nil => rw [last_match_concat, if_pos matched, agreed]
    | append_singleton earlier last ih =>
        have rest := ih fun later member => kept later (List.mem_append_left _ member)
        rw [← List.cons_append, ← List.append_assoc, last_match_concat, rest]
        by_cases applied : applies last = true
        · rw [if_pos applied, kept last (List.mem_append_right _ (List.mem_singleton_self last)) applied]
        · rw [if_neg applied]

theorem last_match_skips (unmatched : applies rule = false) :
    lastMatch applies verdict (before ++ rule :: after) = lastMatch applies verdict (before ++ after) := by
  simp [lastMatch, unmatched]

end LastMatch

end MicroWorkflow.Lib
