import Mathlib.Data.List.Nodup

set_option autoImplicit false

namespace MicroWorkflow.Lib

structure Table {κ ρ : Type} (key : ρ → κ) where
  rows : List ρ
  nodup : (rows.map key).Nodup

namespace Table

variable {κ ρ : Type} {key : ρ → κ}

def empty : Table key := ⟨[], List.nodup_nil⟩

@[ext] theorem ext {t u : Table key} (same : t.rows = u.rows) : t = u := by
  cases t
  cases u
  simp only at same
  subst same
  rfl

def modify (t : Table key) (p : ρ → Bool) (f : ρ → ρ)
    (keep : ∀ r, key (f r) = key r := by intro r; cases r; rfl) : Table key where
  rows := t.rows.map fun r => if p r then f r else r
  nodup := by
    have same : (t.rows.map fun r => if p r then f r else r).map key = t.rows.map key := by
      rw [List.map_map]
      apply List.map_congr_left
      intro r _
      by_cases chosen : p r <;> simp [chosen, keep]
    rw [same]
    exact t.nodup

def delete (t : Table key) (p : ρ → Bool) : Table key where
  rows := t.rows.filter fun r => !p r
  nodup := t.nodup.sublist (List.filter_sublist.map key)

def count (t : Table key) (p : ρ → Bool) : Nat := t.rows.countP p

def select (t : Table key) (p : ρ → Bool) : List ρ := t.rows.filter p

theorem mem_select {t : Table key} {p : ρ → Bool} {r : ρ} :
    r ∈ t.select p ↔ r ∈ t.rows ∧ p r = true := List.mem_filter

theorem mem_modify {t : Table key} {p : ρ → Bool} {f : ρ → ρ} {keep : ∀ r, key (f r) = key r} {r : ρ} :
    r ∈ (t.modify p f keep).rows ↔ ∃ s ∈ t.rows, (if p s then f s else s) = r := by
  simp [modify]

theorem mem_delete {t : Table key} {p : ρ → Bool} {r : ρ} :
    r ∈ (t.delete p).rows ↔ r ∈ t.rows ∧ p r = false := by
  simp [delete]

theorem delete_rows_none {t : Table key} {p : ρ → Bool}
    (untouched : ∀ r ∈ t.rows, p r = false) : t.delete p = t := by
  apply ext
  apply List.filter_eq_self.mpr
  intro r member
  simp [untouched r member]

theorem rows_inj {t : Table key} {r s : ρ} (left : r ∈ t.rows) (right : s ∈ t.rows)
    (same : key r = key s) : r = s :=
  List.inj_on_of_nodup_map t.nodup left right same

section Lookup

variable [DecidableEq κ]

def find (t : Table key) (k : κ) : Option ρ := t.rows.find? fun r => key r = k

def contains (t : Table key) (k : κ) : Bool := (t.find k).isSome

theorem find_key {t : Table key} {k : κ} {r : ρ} (found : t.find k = some r) : key r = k := by
  simpa using List.find?_some found

theorem find_mem {t : Table key} {k : κ} {r : ρ} (found : t.find k = some r) : r ∈ t.rows :=
  List.mem_of_find?_eq_some found

theorem find_none_iff {t : Table key} {k : κ} : t.find k = none ↔ ∀ r ∈ t.rows, key r ≠ k := by
  simp [find]

theorem find_eq_some {t : Table key} {k : κ} {r : ρ} : t.find k = some r ↔ r ∈ t.rows ∧ key r = k := by
  constructor
  · exact fun found => ⟨find_mem found, find_key found⟩
  · rintro ⟨member, same⟩
    cases found : t.find k with
    | none => exact absurd same (find_none_iff.mp found r member)
    | some s => rw [rows_inj (find_mem found) member ((find_key found).trans same.symm)]

theorem find_of_mem {t : Table key} {r : ρ} (member : r ∈ t.rows) : t.find (key r) = some r :=
  find_eq_some.mpr ⟨member, rfl⟩

theorem find_isSome_iff {t : Table key} {k : κ} : (t.find k).isSome ↔ ∃ r ∈ t.rows, key r = k := by
  rw [Option.isSome_iff_exists]
  simp [find_eq_some]

def insert (t : Table key) (r : ρ) : Option (Table key) :=
  if free : t.find (key r) = none then
    some ⟨t.rows ++ [r], by
      rw [List.map_append, List.nodup_append]
      refine ⟨t.nodup, by simp, ?_⟩
      intro k left l right
      simp only [List.map_cons, List.map_nil, List.mem_singleton] at right
      subst right
      obtain ⟨s, member, same⟩ := List.mem_map.mp left
      rw [← same]
      exact find_none_iff.mp free s member⟩
  else none

def insertAll (t : Table key) : List ρ → Option (Table key)
  | [] => some t
  | r :: rest => (t.insert r).bind fun next => next.insertAll rest

def upsert (t : Table key) (r : ρ) (f : ρ → ρ)
    (keep : ∀ s, key (f s) = key s := by intro r; cases r; rfl) : Table key :=
  match t.insert r with
  | some next => next
  | none => t.modify (fun s => key s = key r) f keep

@[simp] theorem find_empty (k : κ) : (empty : Table key).find k = none := rfl

theorem find_modify {t : Table key} {p : ρ → Bool} {f : ρ → ρ} {keep : ∀ r, key (f r) = key r} {k : κ} :
    (t.modify p f keep).find k = (t.find k).map fun r => if p r then f r else r := by
  have keyed : ∀ r, key (if p r then f r else r) = key r := by
    intro r
    by_cases chosen : p r <;> simp [chosen, keep]
  have pred : ((fun r => decide (key r = k)) ∘ fun r => if p r then f r else r)
      = fun r => decide (key r = k) := by
    funext r
    simp only [Function.comp, keyed]
  simp only [find, modify, List.find?_map]
  rw [pred]

theorem find_delete {t : Table key} {p : ρ → Bool} {k : κ} :
    (t.delete p).find k = (t.find k).filter fun r => !p r := by
  cases found : t.find k with
  | none =>
      rw [Option.filter_none, find_none_iff]
      intro r member
      exact find_none_iff.mp found r (mem_delete.mp member).1
  | some r =>
      by_cases dropped : p r
      · simp only [Option.filter, dropped, Bool.not_true, Bool.false_eq_true, if_false]
        rw [find_none_iff]
        intro s member same
        obtain ⟨present, kept⟩ := mem_delete.mp member
        have equal := rows_inj present (find_mem found) (same.trans (find_key found).symm)
        rw [equal, dropped] at kept
        exact absurd kept (by decide)
      · have kept : p r = false := by simpa using dropped
        simp only [Option.filter, kept, Bool.not_false, if_true]
        exact find_eq_some.mpr ⟨mem_delete.mpr ⟨find_mem found, kept⟩, find_key found⟩

theorem insert_eq_some {t u : Table key} {r : ρ} :
    t.insert r = some u ↔ t.find (key r) = none ∧ u.rows = t.rows ++ [r] := by
  unfold insert
  split
  · rename_i free
    simp only [Option.some.injEq, free, true_and]
    exact ⟨fun same => by rw [← same], fun same => by apply ext; exact same.symm⟩
  · rename_i taken
    simp [taken]

theorem insert_free {t : Table key} {r : ρ} (free : t.find (key r) = none) : ∃ u, t.insert r = some u := by
  unfold insert
  rw [dif_pos free]
  exact ⟨_, rfl⟩

theorem find_insert {t u : Table key} {r : ρ} (inserted : t.insert r = some u) (k : κ) :
    u.find k = if key r = k then some r else t.find k := by
  obtain ⟨free, rows⟩ := insert_eq_some.mp inserted
  simp only [find, rows, List.find?_append]
  by_cases same : key r = k
  · subst same
    simp only [find] at free
    simp [free]
  · simp [same]

theorem mem_insert {t u : Table key} {r s : ρ} (inserted : t.insert r = some u) :
    s ∈ u.rows ↔ s ∈ t.rows ∨ s = r := by
  rw [(insert_eq_some.mp inserted).2]
  simp

theorem insertAll_rows {t u : Table key} {rs : List ρ} (inserted : t.insertAll rs = some u) :
    u.rows = t.rows ++ rs := by
  induction rs generalizing t with
  | nil =>
      simp only [insertAll, Option.some.injEq] at inserted
      simp [inserted]
  | cons r rest ih =>
      simp only [insertAll, Option.bind_eq_some_iff] at inserted
      obtain ⟨next, first, later⟩ := inserted
      rw [ih later, (insert_eq_some.mp first).2]
      simp

theorem find_insertAll {t u : Table key} {rs : List ρ} (inserted : t.insertAll rs = some u) (k : κ) :
    u.find k = (rs.find? fun r => key r = k).or (t.find k) := by
  induction rs generalizing t with
  | nil =>
      simp only [insertAll, Option.some.injEq] at inserted
      simp [inserted]
  | cons r rest ih =>
      simp only [insertAll, Option.bind_eq_some_iff] at inserted
      obtain ⟨next, first, later⟩ := inserted
      rw [ih later, find_insert first]
      by_cases same : key r = k
      · subst same
        have absent : rest.find? (fun s => key s = key r) = none := by
          have rows := insertAll_rows later
          rw [List.find?_eq_none]
          intro s member
          have order := u.nodup
          rw [rows, (insert_eq_some.mp first).2, List.map_append, List.nodup_append] at order
          have apart := order.2.2 (key r) (by simp) (key s) (List.mem_map_of_mem member)
          simpa using Ne.symm apart
        simp [absent]
      · simp [same]

theorem insertAll_free {t u : Table key} {rs : List ρ} (inserted : t.insertAll rs = some u) :
    ∀ r ∈ rs, t.find (key r) = none := by
  intro r member
  have rows := insertAll_rows inserted
  have order := u.nodup
  rw [rows, List.map_append, List.nodup_append] at order
  rw [find_none_iff]
  intro s present
  exact order.2.2 (key s) (List.mem_map_of_mem present) (key r) (List.mem_map_of_mem member)

theorem insertAll_some {t : Table key} {rs : List ρ} (fresh : ∀ r ∈ rs, t.find (key r) = none)
    (distinct : (rs.map key).Nodup) : ∃ u, t.insertAll rs = some u := by
  induction rs generalizing t with
  | nil => exact ⟨t, rfl⟩
  | cons r rest ih =>
      have free := fresh r List.mem_cons_self
      obtain ⟨next, first⟩ := insert_free free
      simp only [List.map_cons, List.nodup_cons] at distinct
      have later := ih (t := next) (fun s member => by
        rw [find_insert first]
        have apart : key r ≠ key s := fun same => distinct.1 (same ▸ List.mem_map_of_mem member)
        rw [if_neg apart]
        exact fresh s (List.mem_cons_of_mem _ member)) distinct.2
      obtain ⟨u, done⟩ := later
      exact ⟨u, by simp only [insertAll, first, Option.bind_some, done]⟩

theorem insertAll_append {t : Table key} {rs more : List ρ} :
    t.insertAll (rs ++ more) = (t.insertAll rs).bind fun next => next.insertAll more := by
  induction rs generalizing t with
  | nil => rfl
  | cons r rest ih =>
      simp only [List.cons_append, insertAll]
      cases t.insert r with
      | none => rfl
      | some next => exact ih

theorem rows_of_find {t u : Table key} {g : ρ → ρ} (keys : u.rows.map key = t.rows.map key)
    (found : ∀ r ∈ t.rows, u.find (key r) = some (g r)) : u.rows = t.rows.map g := by
  apply List.ext_getElem
  · have same := congrArg List.length keys
    simpa using same
  · intro i here there
    have inside : i < t.rows.length := by simpa using there
    have at_ : key u.rows[i] = key t.rows[i] := by
      have mapped := congrArg (fun keys => keys[i]?) keys
      simpa only [List.getElem?_map, List.getElem?_eq_getElem here, List.getElem?_eq_getElem inside, Option.map_some,
        Option.some.injEq] using mapped
    have left := find_of_mem (t := u) (List.getElem_mem here)
    rw [at_, found _ (List.getElem_mem inside), Option.some.injEq] at left
    rw [List.getElem_map, left]

theorem find_upsert {t : Table key} {r : ρ} {f : ρ → ρ} {keep : ∀ s, key (f s) = key s} {k : κ} :
    (t.upsert r f keep).find k =
      if key r = k then some ((t.find k).elim r f) else t.find k := by
  unfold upsert
  cases added : t.insert r with
  | some next =>
      have free := (insert_eq_some.mp added).1
      rw [find_insert added]
      by_cases same : key r = k
      · subst same
        simp [free]
      · simp [same]
  | none =>
      have taken : t.find (key r) ≠ none := by
        intro free
        unfold insert at added
        rw [dif_pos free] at added
        exact absurd added (by simp)
      dsimp only
      rw [find_modify]
      by_cases same : key r = k
      · subst same
        cases found : t.find (key r) with
        | none => exact absurd found taken
        | some s => simp [find_key found]
      · cases found : t.find k with
        | none => simp [same]
        | some s =>
            have apart : key s ≠ key r := fun equal => same (equal.symm.trans (find_key found))
            simp [same, apart]

end Lookup

section UpdateEach

variable {ι : Type}

def updateEach (t : Table key) (p : ι → ρ → Bool) (f : ι → ρ → ρ)
    (items : List ι) (keep : ∀ i r, key (f i r) = key r := by intro _ r; cases r; rfl) : Table key × Nat :=
  match items with
  | [] => (t, 0)
  | item :: rest =>
      let later := (t.modify (p item) (f item) (keep item)).updateEach p f rest keep
      (later.1, t.count (p item) + later.2)

variable {p : ι → ρ → Bool} {f : ι → ρ → ρ} {items : List ι}

theorem updateEach_append {t : Table key} {keep : ∀ i r, key (f i r) = key r} {more : List ι} :
    t.updateEach p f (items ++ more) keep =
      (((t.updateEach p f items keep).1.updateEach p f more keep).1,
        (t.updateEach p f items keep).2 + ((t.updateEach p f items keep).1.updateEach p f more keep).2) := by
  induction items generalizing t with
  | nil => simp [updateEach]
  | cons item rest ih => simp only [List.cons_append, updateEach, ih, Nat.add_assoc]

theorem updateEach_keys {t : Table key} {keep : ∀ i r, key (f i r) = key r} :
    (t.updateEach p f items keep).1.rows.map key = t.rows.map key := by
  induction items generalizing t with
  | nil => rfl
  | cons item rest ih =>
      simp only [updateEach, ih, modify, List.map_map]
      apply List.map_congr_left
      intro r _
      by_cases chosen : p item r <;> simp [chosen, keep]

variable [DecidableEq κ] {addr : ι → κ}

theorem count_one_key {t : Table key} {q : ρ → Bool} {k : κ} (addressed : ∀ r, q r = true → key r = k) :
    t.count q = if (t.find k).any q then 1 else 0 := by
  have few : ∀ rows : List ρ, (rows.map key).Nodup →
      rows.countP q = if (rows.find? fun r => key r = k).any q then 1 else 0 := by
    intro rows distinct
    induction rows with
    | nil => rfl
    | cons r rest ih =>
        simp only [List.map_cons, List.nodup_cons] at distinct
        by_cases here : key r = k
        · have absent : ∀ s ∈ rest, q s = false := by
            intro s member
            by_contra chosen
            have same := addressed s (by simpa using chosen)
            exact distinct.1 (here.trans same.symm ▸ List.mem_map_of_mem member)
          have none : rest.countP q = 0 := by
            rw [List.countP_eq_zero]
            intro s member
            simp [absent s member]
          cases chosen : q r <;> simp [here, none, chosen]
        · have missed : q r = false := by
            by_contra chosen
            exact here (addressed r (by simpa using chosen))
          rw [List.countP_cons_of_neg (by simp [missed]), ih distinct.2]
          simp [here]
  exact few t.rows t.nodup

def rewritten (addr : ι → κ) (f : ι → ρ → ρ) (items : List ι) (k : κ) (r : ρ) : ρ :=
  match items.find? fun i => addr i = k with
  | some i => f i r
  | none => r

@[simp] theorem rewritten_nil (addr : ι → κ) (f : ι → ρ → ρ) (k : κ) : rewritten addr f [] k = id := rfl

theorem rewritten_absent {k : κ} {r : ρ} (absent : ∀ i ∈ items, addr i ≠ k) : rewritten addr f items k r = r := by
  have none : (items.find? fun i => addr i = k) = none := by simpa using absent
  simp only [rewritten, none]

theorem rewritten_absent_fun {k : κ} (absent : ∀ i ∈ items, addr i ≠ k) : rewritten addr f items k = id := by
  funext r
  exact rewritten_absent absent

theorem rewritten_snoc {i : ι} {k : κ} {r : ρ} (fresh : ∀ j ∈ items, addr j ≠ addr i) :
    rewritten addr f (items ++ [i]) k r = if addr i = k then f i r else rewritten addr f items k r := by
  by_cases here : addr i = k
  · have absent : (items.find? fun j => addr j = k) = none := by
      simpa [here] using fresh
    simp [rewritten, List.find?_append, absent, here]
  · simp [rewritten, List.find?_append, here]

theorem rewritten_mem {i : ι} {r : ρ} (distinct : (items.map addr).Nodup) (member : i ∈ items) :
    rewritten addr f items (addr i) r = f i r := by
  cases chosen : items.find? fun j => addr j = addr i with
  | none => simp only [List.find?_eq_none, decide_eq_true_eq] at chosen; exact absurd rfl (chosen i member)
  | some j =>
      have same : addr j = addr i := by simpa using List.find?_some chosen
      have equal := List.inj_on_of_nodup_map distinct (List.mem_of_find?_eq_some chosen) member same
      simp only [rewritten, chosen, equal]

theorem rewritten_cases (addr : ι → κ) (f : ι → ρ → ρ) (items : List ι) (k : κ) (r : ρ) :
    (rewritten addr f items k r = r ∧ ∀ i ∈ items, addr i ≠ k) ∨
      ∃ i ∈ items, addr i = k ∧ rewritten addr f items k r = f i r := by
  cases chosen : items.find? fun i => addr i = k with
  | none =>
      have absent : ∀ i ∈ items, addr i ≠ k := by simpa using chosen
      exact .inl ⟨rewritten_absent absent, absent⟩
  | some i =>
      have same : addr i = k := by simpa using List.find?_some chosen
      exact .inr ⟨i, List.mem_of_find?_eq_some chosen, same, by simp only [rewritten, chosen]⟩

theorem find_updateEach {t : Table key} {keep : ∀ i r, key (f i r) = key r}
    (addressed : ∀ i r, p i r = true → key r = addr i)
    (distinct : (items.map addr).Nodup) (k : κ) :
    (t.updateEach p f items keep).1.find k =
      (t.find k).map (rewritten addr (fun i r => if p i r then f i r else r) items k) := by
  induction items generalizing t with
  | nil => simp [updateEach]
  | cons item rest ih =>
      simp only [List.map_cons, List.nodup_cons] at distinct
      simp only [updateEach]
      rw [ih distinct.2, find_modify, Option.map_map]
      cases found : t.find k with
      | none => rfl
      | some r =>
          simp only [Option.map_some, Function.comp, Option.some.injEq]
          by_cases here : addr item = k
          · have absent : ∀ i ∈ rest, addr i ≠ k := fun i member same =>
              distinct.1 (here.trans same.symm ▸ List.mem_map_of_mem member)
            rw [rewritten_absent absent]
            simp [rewritten, here]
          · have missed : p item r = false := by
              by_contra chosen
              exact here ((addressed item r (by simpa using chosen)).symm.trans (find_key found))
            simp [rewritten, here, missed]

theorem updateEach_complete {t : Table key} {keep : ∀ i r, key (f i r) = key r}
    (addressed : ∀ i r, p i r = true → key r = addr i)
    (spent : items.Pairwise fun i j => addr i = addr j → ∀ r, p j (f i r) = false)
    (all : (t.updateEach p f items keep).2 = items.length) :
    (items.map addr).Nodup ∧ ∀ i ∈ items, ∃ r, t.find (addr i) = some r ∧ p i r = true := by
  have bounded : ∀ (u : Table key) (rest : List ι), (u.updateEach p f rest keep).2 ≤ rest.length := by
    intro u rest
    induction rest generalizing u with
    | nil => exact Nat.le_refl 0
    | cons i rest ih =>
        have later := ih (u.modify (p i) (f i) (keep i))
        have one : u.count (p i) ≤ 1 := by
          rw [count_one_key (addressed i)]
          split <;> omega
        simp only [updateEach, List.length_cons]
        omega
  induction items generalizing t with
  | nil => exact ⟨List.nodup_nil, fun i member => absurd member (by simp)⟩
  | cons item rest ih =>
      have later := bounded (t.modify (p item) (f item) (keep item)) rest
      have first := count_one_key (t := t) (addressed item)
      simp only [updateEach, List.length_cons] at all
      have met : (t.find (addr item)).any (p item) = true := by
        by_contra unmet
        rw [if_neg unmet] at first
        omega
      rw [if_pos met] at first
      rw [List.pairwise_cons] at spent
      obtain ⟨distinct, each⟩ := ih (t := t.modify (p item) (f item) (keep item)) spent.2 (by omega)
      obtain ⟨row, found, chosen⟩ := (Option.any_eq_true _ _).mp met
      have fresh : ∀ i ∈ rest, addr i ≠ addr item := by
        intro i member same
        obtain ⟨r, here, guard⟩ := each i member
        rw [same, find_modify, found, Option.map_some, if_pos chosen, Option.some.injEq] at here
        rw [← here, spent.1 i member same.symm row] at guard
        exact absurd guard (by simp)
      refine ⟨?_, ?_⟩
      · rw [List.map_cons, List.nodup_cons]
        refine ⟨?_, distinct⟩
        intro inside
        obtain ⟨i, member, same⟩ := List.mem_map.mp inside
        exact fresh i member same
      · intro i member
        rcases List.mem_cons.mp member with rfl | later
        · exact ⟨row, found, chosen⟩
        · obtain ⟨r, here, guard⟩ := each i later
          rw [find_modify] at here
          obtain ⟨s, old, changed⟩ := Option.map_eq_some_iff.mp here
          have missed : p item s = false := by
            by_contra hit
            exact fresh i later ((find_key old).symm.trans (addressed item s (by simpa using hit)))
          rw [missed] at changed
          simp only [Bool.false_eq_true, if_false] at changed
          exact ⟨s, old, changed ▸ guard⟩

theorem find_updateEach_met {t : Table key} {keep : ∀ i r, key (f i r) = key r}
    (addressed : ∀ i r, p i r = true → key r = addr i) (distinct : (items.map addr).Nodup)
    (met : ∀ i ∈ items, ∃ r, t.find (addr i) = some r ∧ p i r = true) (k : κ) :
    (t.updateEach p f items keep).1.find k = (t.find k).map (rewritten addr f items k) := by
  rw [find_updateEach addressed distinct]
  cases found : t.find k with
  | none => rfl
  | some r =>
      simp only [Option.map_some, rewritten]
      cases chosen : items.find? fun i => addr i = k with
      | none => rfl
      | some i =>
          obtain ⟨s, here, guard⟩ := met i (List.mem_of_find?_eq_some chosen)
          have same : addr i = k := by simpa using List.find?_some chosen
          rw [same, found, Option.some.injEq] at here
          simp only [here, guard, if_true]

theorem updateEach_count {t : Table key} {keep : ∀ i r, key (f i r) = key r}
    (addressed : ∀ i r, p i r = true → key r = addr i) (distinct : (items.map addr).Nodup)
    (met : ∀ i ∈ items, ∃ r, t.find (addr i) = some r ∧ p i r = true) :
    (t.updateEach p f items keep).2 = items.length := by
  induction items generalizing t with
  | nil => rfl
  | cons item rest ih =>
      simp only [List.map_cons, List.nodup_cons] at distinct
      obtain ⟨row, found, chosen⟩ := met item List.mem_cons_self
      have one : t.count (p item) = 1 := by
        rw [count_one_key (addressed item), found, Option.any_some, if_pos chosen]
      have later : (((t.modify (p item) (f item) (keep item))).updateEach p f rest keep).2 = rest.length := by
        refine ih distinct.2 fun i member => ?_
        obtain ⟨r, here, guard⟩ := met i (List.mem_cons_of_mem _ member)
        have spared : p item r = false := by
          by_contra hit
          have same := (addressed item r (by simpa using hit)).symm.trans (find_key here)
          exact distinct.1 (same ▸ List.mem_map_of_mem member)
        exact ⟨r, by rw [find_modify, here, Option.map_some, spared]; rfl, guard⟩
      simp only [updateEach, one, later, List.length_cons]
      omega

end UpdateEach

end Table

end MicroWorkflow.Lib
