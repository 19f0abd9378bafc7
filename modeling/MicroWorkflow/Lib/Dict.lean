import Mathlib.Data.List.Nodup

set_option autoImplicit false

namespace MicroWorkflow.Lib.Dict

section Dict

variable {κ ν : Type} [DecidableEq κ]

def get (dict : List (κ × ν)) (key : κ) : Option ν := (dict.find? fun entry => entry.1 = key).map Prod.snd

def set (dict : List (κ × ν)) (key : κ) (value : ν) : List (κ × ν) :=
  if dict.any fun entry => entry.1 = key then
    dict.map fun entry => if entry.1 = key then (key, value) else entry
  else dict ++ [(key, value)]

def update (dict other : List (κ × ν)) : List (κ × ν) := other.foldl (fun dict entry => set dict entry.1 entry.2) dict

def pop (dict : List (κ × ν)) (key : κ) : List (κ × ν) := dict.filter fun entry => entry.1 ≠ key

variable {dict other : List (κ × ν)} {key asked : κ} {value : ν} {entry : κ × ν}

theorem get_mem (found : get dict key = some value) : (key, value) ∈ dict := by
  obtain ⟨entry, first, rfl⟩ := Option.map_eq_some_iff.mp found
  have same : entry.1 = key := by simpa using List.find?_some first
  rw [← same]
  exact List.mem_of_find?_eq_some first

theorem get_none_iff : get dict key = none ↔ ∀ entry ∈ dict, entry.1 ≠ key := by
  simp [get]

theorem get_of_mem (distinct : (dict.map Prod.fst).Nodup) (member : entry ∈ dict) : get dict entry.1 = some entry.2 := by
  cases found : get dict entry.1 with
  | none => exact absurd rfl (get_none_iff.mp found entry member)
  | some value =>
      have same := List.inj_on_of_nodup_map distinct (get_mem found) member rfl
      rw [← same]

theorem set_fresh (fresh : ∀ entry ∈ dict, entry.1 ≠ key) : set dict key value = dict ++ [(key, value)] := by
  refine if_neg fun present => ?_
  obtain ⟨entry, member, same⟩ := List.any_eq_true.mp present
  exact fresh entry member (of_decide_eq_true same)

theorem mem_set (member : entry ∈ set dict key value) : entry ∈ dict ∨ entry = (key, value) := by
  rw [set] at member
  by_cases present : dict.any fun entry => entry.1 = key
  · rw [if_pos present] at member
    obtain ⟨before, inside, rfl⟩ := List.mem_map.mp member
    by_cases here : before.1 = key
    · exact .inr (if_pos here)
    · rw [if_neg here]
      exact .inl inside
  · rw [if_neg present] at member
    simpa using member

@[simp] theorem get_set_self : get (set dict key value) key = some value := by
  by_cases present : dict.any fun entry => entry.1 = key
  · rw [set, if_pos present]
    induction dict with
    | nil => cases present
    | cons first rest ih =>
        by_cases here : first.1 = key
        · simp [get, here]
        · have later : rest.any (fun entry => entry.1 = key) = true := by simpa [here] using present
          have found := ih later
          rw [get, List.map_cons, if_neg here, List.find?_cons_of_neg (by simpa using here)]
          exact found
  · have fresh : ∀ entry ∈ dict, entry.1 ≠ key :=
      fun entry member same => present (List.any_eq_true.mpr ⟨entry, member, decide_eq_true same⟩)
    rw [set_fresh fresh, get, List.find?_append, List.find?_eq_none.mpr (by simpa using fresh)]
    simp

theorem get_set_other (other : asked ≠ key) : get (set dict key value) asked = get dict asked := by
  by_cases present : dict.any fun entry => entry.1 = key
  · rw [set, if_pos present, get, get]
    congr 1
    clear present
    induction dict with
    | nil => rfl
    | cons first rest ih =>
        by_cases here : first.1 = key
        · rw [List.map_cons, if_pos here, List.find?_cons_of_neg (by simpa using Ne.symm other),
            List.find?_cons_of_neg (by simpa [here] using Ne.symm other), ih]
        · rw [List.map_cons, if_neg here, List.find?_cons, List.find?_cons, ih]
  · rw [set, if_neg present, get, get, List.find?_append]
    congr 1
    cases found : dict.find? fun entry => entry.1 = asked with
    | some entry => rfl
    | none => simpa using Ne.symm other

theorem get_pop_other (other : asked ≠ key) : get (pop dict key) asked = get dict asked := by
  rw [get, get, pop, List.find?_filter]
  congr 2
  funext entry
  by_cases here : entry.1 = asked
  · simp [here, other]
  · simp [here]

theorem mem_pop : entry ∈ pop dict key ↔ entry ∈ dict ∧ entry.1 ≠ key := by
  simp [pop]

theorem update_fresh (distinct : ((dict ++ other).map Prod.fst).Nodup) : update dict other = dict ++ other := by
  induction other generalizing dict with
  | nil => exact (List.append_nil dict).symm
  | cons first rest ih =>
      have fresh : ∀ entry ∈ dict, entry.1 ≠ first.1 := by
        intro entry member same
        rw [List.map_append, List.nodup_append] at distinct
        exact distinct.2.2 entry.1 (List.mem_map_of_mem member) first.1 List.mem_cons_self same
      have shifted : dict ++ first :: rest = dict ++ [first] ++ rest := by simp
      show update (set dict first.1 first.2) rest = _
      rw [set_fresh fresh, shifted]
      exact ih (by rw [← shifted]; exact distinct)

theorem set_nodup (distinct : (dict.map Prod.fst).Nodup) : ((set dict key value).map Prod.fst).Nodup := by
  by_cases present : dict.any fun entry => entry.1 = key
  · have keys : (dict.map fun entry => if entry.1 = key then (key, value) else entry).map Prod.fst = dict.map Prod.fst := by
      rw [List.map_map]
      refine List.map_congr_left fun entry _ => ?_
      by_cases here : entry.1 = key
      · rw [Function.comp_apply, if_pos here]
        exact here.symm
      · rw [Function.comp_apply, if_neg here]
    rw [set, if_pos present, keys]
    exact distinct
  · rw [set, if_neg present, List.map_append, List.nodup_append]
    refine ⟨distinct, List.nodup_singleton key, ?_⟩
    intro one member other sole same
    cases List.mem_singleton.mp sole
    obtain ⟨entry, inside, named⟩ := List.mem_map.mp member
    exact present (List.any_eq_true.mpr ⟨entry, inside, decide_eq_true (named.trans same)⟩)

theorem update_all {α : Type} (entries : α → List (κ × ν)) {items : List α}
    (distinct : ((dict ++ items.flatMap entries).map Prod.fst).Nodup) :
    items.foldl (fun dict item => update dict (entries item)) dict = dict ++ items.flatMap entries := by
  induction items generalizing dict with
  | nil => exact (List.append_nil dict).symm
  | cons item rest ih =>
      rw [List.flatMap_cons, ← List.append_assoc] at distinct
      have first : ((dict ++ entries item).map Prod.fst).Nodup := by
        rw [List.map_append] at distinct
        exact distinct.of_append_left
      rw [List.foldl_cons, update_fresh first, ih distinct, List.flatMap_cons, List.append_assoc]

end Dict

end MicroWorkflow.Lib.Dict
