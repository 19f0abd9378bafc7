import MicroWorkflow.Lib.Guarded
import MicroWorkflow.Lib.Table

set_option autoImplicit false

namespace MicroWorkflow.Lib.Table

variable {ε κ ρ : Type} {key : ρ → κ} [DecidableEq κ]

def changeOne (t : Table key) (k : κ) (p : ρ → Bool) (f : ρ → ρ) (error : ε)
    (keep : ∀ r, key (f r) = key r := by intro r; cases r; rfl) : Except ε (Table key) :=
  if (t.find k).any p then .ok (t.modify (fun r => decide (key r = k)) f keep) else .error error

def removeOne (t : Table key) (k : κ) (p : ρ → Bool) (error : ε) : Except ε (Table key) :=
  if (t.find k).any p then .ok (t.delete fun r => decide (key r = k)) else .error error

variable {t u : Table key} {k : κ} {p : ρ → Bool} {f : ρ → ρ} {error : ε}

theorem change_one_ok {keep : ∀ r, key (f r) = key r} (changed : t.changeOne k p f error keep = .ok u) :
    ∃ r, t.find k = some r ∧ p r = true ∧ u.find k = some (f r) ∧ ∀ other, other ≠ k → u.find other = t.find other := by
  unfold changeOne at changed
  split at changed
  · rename_i met
    obtain ⟨r, found, chosen⟩ := (Option.any_eq_true _ _).mp met
    obtain rfl := Except.ok.inj changed
    refine ⟨r, found, chosen, ?_, fun other apart => ?_⟩
    · rw [find_modify, found, Option.map_some, if_pos (by simpa using find_key found)]
    · rw [find_modify]
      cases there : t.find other with
      | none => rfl
      | some s =>
          have missed : key s ≠ k := fun same => apart ((find_key there).symm.trans same)
          simp [missed]
  · exact absurd changed (by simp)

theorem change_one_contains {keep : ∀ r, key (f r) = key r} (changed : t.changeOne k p f error keep = .ok u) (other : κ) :
    u.contains other = t.contains other := by
  obtain ⟨r, found, _, here, elsewhere⟩ := change_one_ok changed
  by_cases same : other = k
  · rw [same, contains, contains, found, here]
    rfl
  · rw [contains, contains, elsewhere other same]

theorem mem_change_one {keep : ∀ r, key (f r) = key r} (changed : t.changeOne k p f error keep = .ok u) {s : ρ} :
    s ∈ u.rows ↔ (s ∈ t.rows ∧ key s ≠ k) ∨ ∃ r ∈ t.rows, key r = k ∧ s = f r := by
  unfold changeOne at changed
  split at changed
  · obtain rfl := Except.ok.inj changed
    rw [mem_modify]
    constructor
    · rintro ⟨r, member, rfl⟩
      by_cases here : key r = k
      · exact .inr ⟨r, member, here, by simp [here]⟩
      · exact .inl ⟨by simpa [here] using member, by simp [here]⟩
    · rintro (⟨member, apart⟩ | ⟨r, member, here, rfl⟩)
      · exact ⟨s, member, by simp [apart]⟩
      · exact ⟨r, member, by simp [here]⟩
  · exact absurd changed (by simp)

theorem remove_one_ok (removed : t.removeOne k p error = .ok u) :
    ∃ r, t.find k = some r ∧ p r = true ∧ u.find k = none ∧ ∀ other, other ≠ k → u.find other = t.find other := by
  unfold removeOne at removed
  split at removed
  · rename_i met
    obtain ⟨r, found, chosen⟩ := (Option.any_eq_true _ _).mp met
    obtain rfl := Except.ok.inj removed
    refine ⟨r, found, chosen, ?_, fun other apart => ?_⟩
    · rw [find_delete, found, Option.filter_some, if_neg (by simpa using find_key found)]
    · rw [find_delete]
      cases there : t.find other with
      | none => rfl
      | some s =>
          have missed : key s ≠ k := fun same => apart ((find_key there).symm.trans same)
          simp [missed]
  · exact absurd removed (by simp)

theorem mem_remove_one (removed : t.removeOne k p error = .ok u) {s : ρ} :
    s ∈ u.rows ↔ s ∈ t.rows ∧ key s ≠ k := by
  unfold removeOne at removed
  split at removed
  · obtain rfl := Except.ok.inj removed
    rw [mem_delete]
    simp
  · exact absurd removed (by simp)

section Threads

variable {ι : Type} {p : ι → ρ → Bool} {f : ι → ρ → ρ} {error : ι → ε} {items : List ι}

theorem change_one_weaken {p q : ρ → Bool} {f : ρ → ρ} {error other : ε}
    {keep : ∀ r, key (f r) = key r} (weaker : ∀ r, p r = true → q r = true)
    (changed : t.changeOne k p f error keep = .ok u) : t.changeOne k q f other keep = .ok u := by
  unfold changeOne at changed ⊢
  split at changed
  · rename_i met
    obtain ⟨r, found, chosen⟩ := (Option.any_eq_true _ _).mp met
    have still : (t.find k).any q = true := (Option.any_eq_true _ _).mpr ⟨r, found, weaker r chosen⟩
    rw [if_pos still]
    exact changed
  · exact absurd changed (by simp)

theorem thread_change_one (addr : ι → κ) {keep : ∀ i r, key (f i r) = key r}
    (once : ∀ i ∈ items, ∀ j ∈ items, addr i = addr j → ∀ r, p i r = true → p j (f i r) = false)
    (changed : thread (fun t i => changeOne t (addr i) (p i) (f i) (error i) (keep i)) t items = .ok u) :
    (items.map addr).Nodup ∧ (∀ i ∈ items, ∃ r, t.find (addr i) = some r ∧ p i r = true) ∧
      ∀ k, u.find k = (t.find k).map (rewritten addr f items k) := by
  induction items generalizing t with
  | nil =>
      obtain rfl := Except.ok.inj changed
      exact ⟨List.nodup_nil, by simp, fun k => by simp⟩
  | cons i rest ih =>
      rw [thread_cons, bind_ok] at changed
      obtain ⟨middle, first, later⟩ := changed
      obtain ⟨r, found, met, here, elsewhere⟩ := change_one_ok first
      obtain ⟨distinct, meets, finds⟩ := ih (fun a inside b there =>
        once a (List.mem_cons_of_mem _ inside) b (List.mem_cons_of_mem _ there)) later
      have apart : ∀ j ∈ rest, addr j ≠ addr i := by
        intro j member same
        obtain ⟨s, there, chosen⟩ := meets j member
        rw [same, here, Option.some.injEq] at there
        rw [← there, once i List.mem_cons_self j (List.mem_cons_of_mem _ member) same.symm r met] at chosen
        cases chosen
      have distinct : ((i :: rest).map addr).Nodup := by
        rw [List.map_cons, List.nodup_cons]
        refine ⟨fun inside => ?_, distinct⟩
        obtain ⟨j, member, same⟩ := List.mem_map.mp inside
        exact apart j member same
      refine ⟨distinct, fun j member => ?_, fun k => ?_⟩
      · rcases List.mem_cons.mp member with rfl | member
        · exact ⟨r, found, met⟩
        · obtain ⟨s, there, chosen⟩ := meets j member
          exact ⟨s, by rw [← elsewhere _ (apart j member), there], chosen⟩
      · rw [finds]
        by_cases same : k = addr i
        · subst same
          rw [here, found, Option.map_some, Option.map_some, rewritten_absent apart,
            rewritten_mem distinct List.mem_cons_self]
        · rw [elsewhere k same]
          have skipped : rewritten addr f (i :: rest) k = rewritten addr f rest k := by
            funext s
            simp [rewritten, Ne.symm same]
          rw [skipped]

end Threads

section Delete

variable {p q : ρ → Bool}

omit [DecidableEq κ] in
theorem delete_delete (wider : ∀ r, q r = true → p r = true) : (t.delete q).delete p = t.delete p := by
  apply Table.ext
  simp only [delete, List.filter_filter]
  apply List.filter_congr
  intro r _
  cases chosen : q r with
  | false => simp
  | true => simp [wider r chosen]

theorem insertAll_delete {rs : List ρ} (inserted : t.insertAll rs = some u) (chosen : ∀ r ∈ rs, p r = true) :
    u.delete p = t.delete p := by
  apply Table.ext
  have gone : rs.filter (fun r => !p r) = [] := by
    rw [List.filter_eq_nil_iff]
    intro r member
    simp [chosen r member]
  simp only [delete, insertAll_rows inserted, List.filter_append, gone, List.append_nil]

theorem insert_delete {r : ρ} (inserted : t.insert r = some u) (chosen : p r = true) : u.delete p = t.delete p := by
  apply Table.ext
  simp [delete, (insert_eq_some.mp inserted).2, chosen]

theorem change_one_delete {keep : ∀ r, key (f r) = key r} (changed : t.changeOne k q f error keep = .ok u)
    (chosen : ∀ r, key r = k → p r = true) : u.delete p = t.delete p := by
  unfold changeOne at changed
  split at changed
  · obtain rfl := Except.ok.inj changed
    apply Table.ext
    simp only [delete, modify, List.filter_map]
    have same : t.rows.filter ((fun r => !p r) ∘ fun r => if decide (key r = k) = true then f r else r) =
        t.rows.filter fun r => !p r := by
      apply List.filter_congr
      intro r _
      by_cases here : key r = k
      · simp [here, chosen r here, chosen (f r) ((keep r).trans here)]
      · simp [here]
    rw [same]
    calc
      _ = (t.rows.filter fun r => !p r).map id := by
        apply List.map_congr_left
        intro r member
        have kept : key r ≠ k := by
          intro here
          have gone := (List.mem_filter.mp member).2
          simp [chosen r here] at gone
        simp [kept]
      _ = _ := List.map_id _
  · exact absurd changed (by simp)

end Delete

end MicroWorkflow.Lib.Table
