import Mathlib.Data.Prod.Lex
import Mathlib.Data.Rat.Floor
import MicroWorkflow.Lib.Ranking
import MicroWorkflow.Values

set_option autoImplicit false

namespace MicroWorkflow

inductive SampleKind where
  | count | percentage
deriving DecidableEq, Repr

abbrev SampleSelector := SampleKind × Int

def sampleCount (selector : SampleSelector) (populationSize : Int) : Except Error Int :=
  let value := selector.2
  if populationSize < 0 then .error (.value "Sample population must be a nonnegative integer")
  else if value < 0 ∨ (selector.1 = .percentage ∧ value > 100) then
    .error (.value "Sample counts must be nonnegative integers and percentages must be between 0 and 100")
  else
    match selector.1 with
    | .count =>
        if value > populationSize then
          .error (.value ("Sample count " ++ toString value ++ " exceeds filtered population " ++ toString populationSize))
        else .ok value
    | .percentage => .ok ((value * populationSize + 99) / 100)

def sampleAlgorithm : String := "mwf.sample.v1"

def encodeText (text : String) : List UInt8 := text.toUTF8.data.toList

structure SampleCandidates where
  entries : List (Int × List UInt8)
  distinct : (entries.map Prod.fst).Nodup

namespace SampleCandidates

def jobIds (candidates : SampleCandidates) : List Int := candidates.entries.map Prod.fst

def payloads (candidates : SampleCandidates) : List (List UInt8) := candidates.entries.map Prod.snd

end SampleCandidates

section Selection

variable (sha256 : List UInt8 → List UInt8)

def samplePrefix (seed node : String) : List UInt8 :=
  encodeText sampleAlgorithm ++ [0] ++ encodeText seed ++ [0] ++ encodeText node ++ [0]

def sampleRank (seed node : String) (candidate : Int × List UInt8) : List Nat ×ₗ Int :=
  toLex ((sha256 (samplePrefix seed node ++ candidate.2)).map UInt8.toNat, candidate.1)

def labelled (text : String) : Bool := text != "" && !text.toList.contains '\x00'

def selectSampleIds (node : String) (candidates : SampleCandidates) (count : Int) (seed : String) :
    Except Error (List Int) := do
  let _ ← sampleCount (.count, count) candidates.entries.length
  Lib.require (labelled seed) (.value "Sample seed must be nonempty and contain no NUL characters")
  Lib.require (labelled node) (.value "Sample node must be nonempty and contain no NUL characters")
  Lib.require (decide candidates.payloads.Nodup) (.value "Each sample candidate must have distinct identity bytes")
  let selected := (Lib.smallest (sampleRank sha256 seed node) count.toNat candidates.entries).map Prod.fst
  pure (selected.insertionSort (· ≤ ·))

variable {sha256} {seed node : String} {candidates others : SampleCandidates} {count more : Int} {chosen wider : List Int}

theorem sample_count_counts {population : Int} (sized : 0 ≤ population) (low : 0 ≤ count) (high : count ≤ population) :
    sampleCount (.count, count) population = .ok count := by
  simp only [sampleCount]
  rw [if_neg (by omega), if_neg (by simp; omega), if_neg (by omega)]

theorem sample_count_refuses (outside : count < 0 ∨ (candidates.entries.length : Int) < count) :
    ∃ text, sampleCount (.count, count) candidates.entries.length = .error (.value text) := by
  simp only [sampleCount]
  rw [if_neg (by omega)]
  by_cases low : count < 0
  · rw [if_pos (.inl low)]
    exact ⟨_, rfl⟩
  · rw [if_neg (by simp [low]), if_pos (by omega)]
    exact ⟨_, rfl⟩

theorem percentage_ceiling (percentage population : Int) :
    ⌈(percentage * population : ℚ) / 100⌉ = (percentage * population + 99) / 100 := by
  have ceiling : ⌈((percentage * population : ℤ) : ℚ) / ((100 : ℕ) : ℚ)⌉ = -(-(percentage * population) / (100 : ℕ)) :=
    Rat.ceil_intCast_div_natCast _ _
  rw [Int.cast_mul, Nat.cast_ofNat] at ceiling
  rw [ceiling]
  omega

theorem sample_count_percentage {percentage population : Int} (low : 0 ≤ percentage) (high : percentage ≤ 100)
    (sized : 0 ≤ population) :
    sampleCount (.percentage, percentage) population = .ok ((percentage * population + 99) / 100) := by
  simp only [sampleCount]
  rw [if_neg (by omega), if_neg (by simp; omega)]

theorem sample_rank_apart : Lib.Apart (sampleRank sha256 seed node) candidates.entries := by
  intro first inside second listed same
  have sameId : first.1 = second.1 := congrArg (fun rank => (ofLex rank).2) same
  exact List.inj_on_of_nodup_map candidates.distinct inside listed sameId

theorem select_sample_ids_ok (seeded : labelled seed = true) (named : labelled node = true)
    (apart : candidates.payloads.Nodup) (low : 0 ≤ count) (high : count ≤ candidates.entries.length) :
    selectSampleIds sha256 node candidates count seed =
      .ok (((Lib.smallest (sampleRank sha256 seed node) count.toNat candidates.entries).map Prod.fst).insertionSort (· ≤ ·)) := by
  rw [selectSampleIds, sample_count_counts (by omega) low high, seeded, named, decide_eq_true apart]
  rfl

theorem smallest_ids_subperm {number : Nat} :
    ((Lib.smallest (sampleRank sha256 seed node) number candidates.entries).map Prod.fst).Subperm candidates.jobIds :=
  Lib.smallest_map_subperm Prod.fst

theorem smallest_ids_nodup {number : Nat} :
    ((Lib.smallest (sampleRank sha256 seed node) number candidates.entries).map Prod.fst).Nodup := by
  obtain ⟨ids, same, within⟩ := smallest_ids_subperm
  exact same.nodup_iff.mp (candidates.distinct.sublist within)

theorem smallest_ids_length (high : count ≤ candidates.entries.length) :
    ((Lib.smallest (sampleRank sha256 seed node) count.toNat candidates.entries).map Prod.fst).length = count.toNat := by
  rw [List.length_map]
  exact Lib.smallest_length (by omega)

theorem smallest_ids_grow (le : count ≤ more) :
    ((Lib.smallest (sampleRank sha256 seed node) count.toNat candidates.entries).map Prod.fst).Sublist
      ((Lib.smallest (sampleRank sha256 seed node) more.toNat candidates.entries).map Prod.fst) :=
  (Lib.smallest_sublist (Int.toNat_le_toNat le)).map Prod.fst

theorem select_permuted (same : others.entries.Perm candidates.entries) :
    selectSampleIds sha256 node others count seed = selectSampleIds sha256 node candidates count seed := by
  have payloads : others.payloads.Nodup ↔ candidates.payloads.Nodup := (same.map Prod.snd).nodup_iff
  rw [selectSampleIds, selectSampleIds, same.length_eq, Lib.smallest_of_perm sample_rank_apart same]
  simp only [payloads]

theorem select_sample_ids_inv (selected : selectSampleIds sha256 node candidates count seed = .ok chosen) :
    labelled seed = true ∧ labelled node = true ∧ candidates.payloads.Nodup ∧ 0 ≤ count ∧
      count ≤ candidates.entries.length := by
  have inside : 0 ≤ count ∧ count ≤ candidates.entries.length := by
    by_contra outside
    have low : count < 0 ∨ (candidates.entries.length : Int) < count := by omega
    obtain ⟨text, refused⟩ := sample_count_refuses low
    rw [selectSampleIds, refused] at selected
    cases selected
  rw [selectSampleIds, sample_count_counts (by omega) inside.1 inside.2] at selected
  simp only [Lib.bind_ok, Lib.require_ok, decide_eq_true_iff] at selected
  obtain ⟨_, _, _, seeded, _, named, _, apart, _⟩ := selected
  exact ⟨seeded, named, apart, inside⟩

theorem selected_sorted {ids sorted : List Int} (same : sorted = ids.insertionSort (· ≤ ·)) :
    sorted.Pairwise (· ≤ ·) ∧ sorted.Perm ids := by
  rw [same]
  exact ⟨List.pairwise_insertionSort .., List.perm_insertionSort ..⟩

theorem selected_perm (selected : selectSampleIds sha256 node candidates count seed = .ok chosen) :
    chosen.Perm ((Lib.smallest (sampleRank sha256 seed node) count.toNat candidates.entries).map Prod.fst) := by
  obtain ⟨seeded, named, apart, low, high⟩ := select_sample_ids_inv selected
  rw [select_sample_ids_ok seeded named apart low high] at selected
  exact (selected_sorted (Except.ok.inj selected).symm).2

theorem percentage_at_least_one {percentage population : Int} (positive : 0 < percentage) (some : 0 < population) :
    1 ≤ (percentage * population + 99) / 100 := by
  have least : 0 < percentage * population := Int.mul_pos positive some
  omega

theorem percentage_at_most_all {percentage population : Int} (high : percentage ≤ 100) (sized : 0 ≤ population) :
    (percentage * population + 99) / 100 ≤ population := by
  have most : percentage * population ≤ 100 * population := Int.mul_le_mul_of_nonneg_right high sized
  omega

-- Samples of all sizes come from one ranking, whatever order the ids are given in.
theorem sample_sizes_nested (sha256 : List UInt8 → List UInt8) (node seed : String) (candidates : SampleCandidates) :
    (∀ count, (∃ chosen, selectSampleIds sha256 node candidates count seed = .ok chosen) ↔
      labelled seed = true ∧ labelled node = true ∧ candidates.payloads.Nodup ∧ 0 ≤ count ∧
        count ≤ candidates.entries.length) ∧
    (∀ count chosen, selectSampleIds sha256 node candidates count seed = .ok chosen →
      (chosen.length : Int) = count ∧ chosen.Nodup ∧ ∀ jobId ∈ chosen, jobId ∈ candidates.jobIds) ∧
    (∀ count, ∀ others : SampleCandidates, others.entries.Perm candidates.entries →
      selectSampleIds sha256 node others count seed = selectSampleIds sha256 node candidates count seed) ∧
    (∀ count more chosen wider, count ≤ more → selectSampleIds sha256 node candidates count seed = .ok chosen →
      selectSampleIds sha256 node candidates more seed = .ok wider → ∀ jobId ∈ chosen, jobId ∈ wider) ∧
    (∀ percentage, ∀ population : Nat, 0 ≤ percentage → percentage ≤ 100 →
      ∃ count, sampleCount (.percentage, percentage) population = .ok count ∧
        count = ⌈(percentage * population : ℚ) / 100⌉ ∧ (0 < percentage → 0 < population → 1 ≤ count) ∧
          count ≤ population) := by
  refine ⟨fun count => ?_, fun count chosen selected => ?_, fun count others same => select_permuted same,
    fun count more chosen wider le selected more_selected => ?_, fun percentage population low high => ?_⟩
  · constructor
    · intro ⟨chosen, selected⟩
      exact select_sample_ids_inv selected
    · intro ⟨seeded, named, apart, low, high⟩
      exact ⟨_, select_sample_ids_ok seeded named apart low high⟩
  · have perm := selected_perm selected
    obtain ⟨_, _, _, low, high⟩ := select_sample_ids_inv selected
    have length : chosen.length = count.toNat := perm.length_eq.trans (smallest_ids_length high)
    refine ⟨by omega, perm.nodup_iff.mpr smallest_ids_nodup, fun jobId member => ?_⟩
    exact smallest_ids_subperm.subset (perm.mem_iff.mp member)
  · intro jobId member
    have grown := (smallest_ids_grow le).subset ((selected_perm selected).mem_iff.mp member)
    exact (selected_perm more_selected).mem_iff.mpr grown
  · have sized : (0 : Int) ≤ population := Int.natCast_nonneg population
    have ceiling := percentage_ceiling percentage population
    rw [Int.cast_natCast] at ceiling
    exact ⟨_, sample_count_percentage low high sized, ceiling.symm,
      fun positive some => percentage_at_least_one positive (by omega), percentage_at_most_all high sized⟩

-- An empty seed is refused, whatever is asked for.
theorem empty_seed_refused :
    ¬∀ (sha256 : List UInt8 → List UInt8) (node seed : String) (candidates : SampleCandidates) (count : Int),
      labelled node = true → candidates.payloads.Nodup → 0 ≤ count → count ≤ candidates.entries.length →
        ∃ chosen, selectSampleIds sha256 node candidates count seed = .ok chosen ∧ (chosen.length : Int) = count := by
  intro every
  obtain ⟨chosen, selected, _⟩ := every (fun bytes => bytes) "a" "" ⟨[(7, [49])], List.nodup_singleton _⟩ 1
    (by decide) (List.nodup_singleton _) (by decide) (by decide)
  have ⟨seeded, _⟩ := select_sample_ids_inv selected
  exact absurd seeded (by decide)

end Selection

end MicroWorkflow
