import Mathlib.Data.List.Infix

set_option autoImplicit false

namespace MicroWorkflow.Lib

inductive FileTree (K L D : Type) where
  | leaf (body : L)
  | directory (marker : D) (children : List (K × FileTree K L D))

namespace FileTree

variable {K L D T : Type}

section Comparison

variable [DecidableEq K] [DecidableEq L] [DecidableEq D]

mutual
def same : FileTree K L D → FileTree K L D → Bool
  | .leaf body, .leaf other => decide (body = other)
  | .directory marker children, .directory other others => decide (marker = other) && sameChildren children others
  | .leaf _, .directory _ _ => false
  | .directory _ _, .leaf _ => false
def sameChildren : List (K × FileTree K L D) → List (K × FileTree K L D) → Bool
  | [], [] => true
  | (name, child) :: rest, (other, there) :: others =>
      decide (name = other) && (child.same there && sameChildren rest others)
  | [], _ :: _ => false
  | _ :: _, [] => false
end

mutual
theorem same_iff : ∀ tree other : FileTree K L D, tree.same other = true ↔ tree = other
  | .leaf body, .leaf other => by simp [same]
  | .directory marker children, .directory other others => by simp [same, same_children_iff children others]
  | .leaf _, .directory _ _ => by simp [same]
  | .directory _ _, .leaf _ => by simp [same]
theorem same_children_iff :
    ∀ children others : List (K × FileTree K L D), sameChildren children others = true ↔ children = others
  | [], [] => by simp [sameChildren]
  | (name, child) :: rest, (other, there) :: others => by
      simp [sameChildren, same_iff child there, same_children_iff rest others, and_assoc]
  | [], _ :: _ => by simp [sameChildren]
  | _ :: _, [] => by simp [sameChildren]
end

instance : DecidableEq (FileTree K L D) := fun tree other => decidable_of_iff _ (same_iff tree other)

end Comparison

section Entries

variable [DecidableEq K]

def entry (name : K) : List (K × T) → Option T
  | [] => none
  | (other, found) :: rest => if other = name then some found else entry name rest

theorem entry_none_iff {name : K} {children : List (K × T)} :
    entry name children = none ↔ name ∉ children.map Prod.fst := by
  induction children with
  | nil => simp [entry]
  | cons head rest ih =>
      obtain ⟨other, value⟩ := head
      by_cases same : other = name
      · simp [entry, same]
      · simp [entry, same, ih, Ne.symm same]

def dropEntry (name : K) (children : List (K × T)) : List (K × T) :=
  children.filter fun child => decide (child.1 ≠ name)

theorem entry_drop (name other : K) (children : List (K × T)) :
    entry other (dropEntry name children) = if other = name then none else entry other children := by
  induction children with
  | nil => simp [dropEntry, entry]
  | cons head rest ih =>
      obtain ⟨first, value⟩ := head
      by_cases dropped : first = name
      · have skip : dropEntry name ((first, value) :: rest) = dropEntry name rest := by simp [dropEntry, dropped]
        rw [skip, ih]
        by_cases same : other = name
        · simp [same]
        · have apart : first ≠ other := fun eq => same (eq.symm.trans dropped)
          simp [same, entry, apart]
      · have keep : dropEntry name ((first, value) :: rest) = (first, value) :: dropEntry name rest := by
          simp [dropEntry, dropped]
        rw [keep, entry, ih, entry]
        by_cases here : first = other
        · have apart : other ≠ name := fun eq => dropped (here.trans eq)
          simp [here, apart]
        · simp [here]

variable [LT K] [DecidableLT K]

def placeEntry (name : K) (value : T) : List (K × T) → List (K × T)
  | [] => [(name, value)]
  | child :: rest => if child.1 < name then child :: placeEntry name value rest else (name, value) :: child :: rest

def setEntry (name : K) (value : Option T) (children : List (K × T)) : List (K × T) :=
  match value with
  | none => dropEntry name children
  | some found => placeEntry name found (dropEntry name children)

theorem entry_place (name other : K) (value : T) (children : List (K × T)) (fresh : entry name children = none) :
    entry other (placeEntry name value children) = if other = name then some value else entry other children := by
  induction children with
  | nil =>
      by_cases same : other = name
      · simp [placeEntry, entry, same]
      · simp [placeEntry, entry, same, Ne.symm same]
  | cons head rest ih =>
      obtain ⟨first, found⟩ := head
      have apart : first ≠ name := by
        intro same
        simp [entry, same] at fresh
      have later : entry name rest = none := by simpa [entry, apart] using fresh
      rw [placeEntry]
      split
      · rw [entry, ih later, entry]
        by_cases here : first = other
        · have distinct : other ≠ name := fun eq => apart (here.trans eq)
          simp [here, distinct]
        · simp [here]
      · by_cases same : other = name
        · simp [entry, same]
        · simp [entry, same, Ne.symm same]

@[simp] theorem entry_set (name other : K) (value : Option T) (children : List (K × T)) :
    entry other (setEntry name value children) = if other = name then value else entry other children := by
  cases value with
  | none => exact entry_drop name other children
  | some found =>
      have fresh : entry name (dropEntry name children) = none := by simp [entry_drop]
      rw [setEntry, entry_place name other found _ fresh, entry_drop]
      by_cases same : other = name
      · simp [same]
      · simp [same]

end Entries

section Paths

variable [DecidableEq K]

-- A path through a file is an error of the system; a missing name is not.
def find : List K → FileTree K L D → Except String (Option (FileTree K L D))
  | [], tree => .ok (some tree)
  | _ :: _, .leaf _ => .error "Not a directory"
  | name :: rest, .directory _ children =>
      match entry name children with
      | none => .ok none
      | some child => find rest child

def heading : FileTree K L D → L ⊕ D
  | .leaf body => .inl body
  | .directory marker _ => .inr marker

def look (path : List K) (tree : FileTree K L D) : Option (L ⊕ D) :=
  match tree.find path with
  | .ok found => found.map heading
  | .error _ => none

variable {tree changed : FileTree K L D} {path : List K}

theorem find_append (path below : List K) (tree : FileTree K L D) :
    tree.find (path ++ below) =
      match tree.find path with
      | .error error => .error error
      | .ok none => .ok none
      | .ok (some found) => found.find below := by
  induction path generalizing tree with
  | nil => simp [find]
  | cons name rest ih =>
      cases tree with
      | leaf body => simp [find]
      | directory marker children =>
          cases present : entry name children with
          | none => simp [find, present]
          | some child => simp [find, present, ih child]

theorem find_append_some {found : FileTree K L D} (present : tree.find path = .ok (some found)) (below : List K) :
    tree.find (path ++ below) = found.find below := by
  rw [find_append, present]

theorem look_of_find {found : Option (FileTree K L D)} (present : tree.find path = .ok found) :
    tree.look path = found.map heading := by
  rw [look, present]

theorem look_congr (same : changed.find path = tree.find path) : changed.look path = tree.look path := by
  rw [look, look, same]

theorem look_below {found : Option (FileTree K L D)} (here : tree.find path = .ok found) (below : List K) :
    tree.look (path ++ below) = found.bind fun inner => inner.look below := by
  rw [look, find_append, here]
  cases found with
  | none => rfl
  | some inner => rfl

theorem find_of_look {marker : D} (seen : tree.look path = some (.inr marker)) :
    ∃ children, tree.find path = .ok (some (.directory marker children)) := by
  unfold look at seen
  cases present : tree.find path with
  | error reason => simp [present] at seen
  | ok found =>
      rw [present] at seen
      cases found with
      | none => simp at seen
      | some inner =>
          cases inner with
          | leaf body => simp [heading] at seen
          | directory other children =>
              simp only [Option.map_some, heading, Option.some.injEq, Sum.inr.injEq] at seen
              exact ⟨children, by rw [seen]⟩

theorem find_parent {name : K} {found : FileTree K L D} (present : tree.find (path ++ [name]) = .ok (some found)) :
    ∃ marker children, tree.find path = .ok (some (.directory marker children)) := by
  rw [find_append] at present
  split at present
  · cases present
  · cases present
  · rename_i above holder
    cases above with
    | leaf body => simp [find] at present
    | directory marker children => exact ⟨marker, children, holder⟩

theorem find_member {marker : D} {children : List (K × FileTree K L D)}
    (holder : tree.find path = .ok (some (.directory marker children))) (name : K) :
    tree.find (path ++ [name]) = .ok (entry name children) := by
  rw [find_append_some holder, find]
  cases entry name children with
  | none => rfl
  | some child => rfl

variable [LT K] [DecidableLT K]

def put (value : Option (FileTree K L D)) : List K → FileTree K L D → Except String (FileTree K L D)
  | [], _ => .error "Device or resource busy"
  | _ :: _, .leaf _ => .error "Not a directory"
  | name :: [], .directory marker children => .ok (.directory marker (setEntry name value children))
  | name :: next :: rest, .directory marker children =>
      match entry name children with
      | none => .error "No such file or directory"
      | some child =>
          match put value (next :: rest) child with
          | .error error => .error error
          | .ok changed => .ok (.directory marker (setEntry name (some changed) children))

variable {value : Option (FileTree K L D)} {other : List K}

theorem put_cons {name : K} {rest : List K} (done : tree.put value (name :: rest) = .ok changed) :
    ∃ marker children, tree = .directory marker children ∧
      ((rest = [] ∧ changed = .directory marker (setEntry name value children)) ∨
        rest ≠ [] ∧ ∃ child inner, entry name children = some child ∧ child.put value rest = .ok inner ∧
          changed = .directory marker (setEntry name (some inner) children)) := by
  cases tree with
  | leaf body => cases rest <;> simp [put] at done
  | directory marker children =>
      refine ⟨marker, children, rfl, ?_⟩
      cases rest with
      | nil => exact .inl ⟨rfl, by simpa [put] using done.symm⟩
      | cons next more =>
          cases present : entry name children with
          | none => simp [put, present] at done
          | some child =>
              cases step : child.put value (next :: more) with
              | error error => simp [put, present, step] at done
              | ok inner =>
                  refine .inr ⟨by simp, child, inner, rfl, step, ?_⟩
                  simpa [put, present, step] using done.symm

theorem find_put (done : tree.put value path = .ok changed) : changed.find path = .ok value := by
  induction path generalizing tree changed with
  | nil => simp [put] at done
  | cons name rest ih =>
      obtain ⟨marker, children, rfl, ⟨rfl, rfl⟩ | ⟨_, child, inner, _, step, rfl⟩⟩ := put_cons done
      · cases value with
        | none => simp [find]
        | some found => simp [find]
      · simp [find, ih step]

def Apart (path other : List K) : Prop := ¬ path <+: other ∧ ¬ other <+: path

omit [DecidableEq K] [LT K] [DecidableLT K] in
theorem Apart.symm (apart : Apart path other) : Apart other path := ⟨apart.2, apart.1⟩

theorem find_put_apart (done : tree.put value path = .ok changed) (apart : Apart path other) :
    changed.find other = tree.find other := by
  induction path generalizing tree changed other with
  | nil => simp [put] at done
  | cons name rest ih =>
      obtain ⟨marker, children, rfl, outcome⟩ := put_cons done
      cases other with
      | nil => exact absurd (List.nil_prefix) apart.2
      | cons first more =>
          by_cases same : first = name
          · subst same
            have below : Apart rest more :=
              ⟨fun inside => apart.1 (List.cons_prefix_cons.mpr ⟨rfl, inside⟩),
                fun inside => apart.2 (List.cons_prefix_cons.mpr ⟨rfl, inside⟩)⟩
            obtain ⟨rfl, rfl⟩ | ⟨_, child, inner, present, step, rfl⟩ := outcome
            · exact absurd List.nil_prefix below.1
            · simp [find, present, ih step below]
          · obtain ⟨rfl, rfl⟩ | ⟨_, child, inner, present, step, rfl⟩ := outcome
            · simp [find, same]
            · simp [find, same]

theorem find_put_above {name : K} {below : List K} (done : tree.put value (path ++ name :: below) = .ok changed) :
    ∃ marker children later, tree.find path = .ok (some (.directory marker children)) ∧
      changed.find path = .ok (some (.directory marker later)) := by
  induction path generalizing tree changed with
  | nil =>
      obtain ⟨marker, children, rfl, ⟨_, rfl⟩ | ⟨_, _, _, _, _, rfl⟩⟩ := put_cons done
      · exact ⟨marker, children, _, rfl, rfl⟩
      · exact ⟨marker, children, _, rfl, rfl⟩
  | cons first rest ih =>
      obtain ⟨marker, children, rfl, ⟨none, _⟩ | ⟨_, child, inner, present, step, rfl⟩⟩ := put_cons done
      · simp at none
      · obtain ⟨found, before, later, here, there⟩ := ih step
        exact ⟨found, before, later, by simp [find, present, here], by simp [find, there]⟩

theorem put_ok {marker : D} {children : List (K × FileTree K L D)}
    (parent : tree.find path = .ok (some (.directory marker children))) (name : K) (value : Option (FileTree K L D)) :
    ∃ changed, tree.put value (path ++ [name]) = .ok changed := by
  induction path generalizing tree with
  | nil =>
      obtain rfl := Option.some.inj (Except.ok.inj parent)
      exact ⟨_, rfl⟩
  | cons first rest ih =>
      cases tree with
      | leaf body => simp [find] at parent
      | directory above siblings =>
          cases present : entry first siblings with
          | none => simp [find, present] at parent
          | some child =>
              have holder : child.find rest = .ok (some (.directory marker children)) := by
                simpa [find, present] using parent
              obtain ⟨inner, step⟩ := ih holder
              refine ⟨.directory above (setEntry first (some inner) siblings), ?_⟩
              have longer : rest ++ [name] ≠ [] := by simp
              obtain ⟨next, more, shape⟩ := List.exists_cons_of_ne_nil longer
              rw [List.cons_append, shape, put, present]
              rw [shape] at step
              simp [step]

theorem look_above {name : K} {below : List K} (done : tree.put value (path ++ name :: below) = .ok changed) :
    changed.look path = tree.look path := by
  obtain ⟨marker, children, later, before, after⟩ := find_put_above done
  rw [look_of_find before, look_of_find after]
  rfl

theorem look_put (done : tree.put value path = .ok changed) (outside : ¬ path <+: other) :
    changed.look other = tree.look other := by
  by_cases inside : other <+: path
  · obtain ⟨rest, rfl⟩ := inside
    cases rest with
    | nil => exact absurd (by simp) outside
    | cons name below => exact look_above done
  · exact look_congr (find_put_apart done ⟨outside, inside⟩)

def move (source target : List K) (tree : FileTree K L D) : Except String (FileTree K L D) :=
  match tree.find source with
  | .error error => .error error
  | .ok none => .error "No such file or directory"
  | .ok (some moved) =>
      match tree.find target with
      | .error error => .error error
      | .ok (some _) => .error "File exists"
      | .ok none =>
          match tree.put none source with
          | .error error => .error error
          | .ok without => without.put (some moved) target

variable {source target : List K}

theorem move_ok (done : tree.move source target = .ok changed) :
    ∃ moved without, tree.find source = .ok (some moved) ∧ tree.find target = .ok none ∧
      tree.put none source = .ok without ∧ without.put (some moved) target = .ok changed := by
  unfold move at done
  split at done
  · cases done
  · cases done
  · rename_i moved present
    split at done
    · cases done
    · cases done
    · rename_i absent
      split at done
      · cases done
      · rename_i without removed
        exact ⟨moved, without, present, absent, removed, done⟩

theorem move_places (done : tree.move source target = .ok changed) (apart : Apart source target) :
    ∃ moved, tree.find source = .ok (some moved) ∧ tree.find target = .ok none ∧
      changed.find source = .ok none ∧ changed.find target = .ok (some moved) := by
  obtain ⟨moved, without, present, absent, removed, placed⟩ := move_ok done
  refine ⟨moved, present, absent, ?_, find_put placed⟩
  rw [find_put_apart placed apart.symm, find_put removed]

theorem find_move_apart (done : tree.move source target = .ok changed) (left : Apart source other)
    (right : Apart target other) : changed.find other = tree.find other := by
  obtain ⟨moved, without, _, _, removed, placed⟩ := move_ok done
  rw [find_put_apart placed right, find_put_apart removed left]

theorem look_move (done : tree.move source target = .ok changed) (left : ¬ source <+: other)
    (right : ¬ target <+: other) : changed.look other = tree.look other := by
  obtain ⟨moved, without, _, _, removed, placed⟩ := move_ok done
  rw [look_put placed right, look_put removed left]

theorem directory_put {marker : D} {children : List (K × FileTree K L D)}
    (done : tree.put value path = .ok changed) (outside : ¬ path <+: other)
    (here : tree.find other = .ok (some (.directory marker children))) :
    ∃ later, changed.find other = .ok (some (.directory marker later)) := by
  by_cases inside : other <+: path
  · obtain ⟨rest, rfl⟩ := inside
    cases rest with
    | nil => exact absurd (by simp) outside
    | cons name below =>
        obtain ⟨found, before, later, there, after⟩ := find_put_above done
        rw [here] at there
        cases there
        exact ⟨later, after⟩
  · exact ⟨children, by rw [find_put_apart done ⟨outside, inside⟩, here]⟩

theorem move_done {above below : List K} {name last : K} {moved : FileTree K L D} {marker lower : D}
    {children siblings : List (K × FileTree K L D)} (apart : Apart (above ++ [name]) (below ++ [last]))
    (holder : tree.find above = .ok (some (.directory lower siblings)))
    (present : tree.find (above ++ [name]) = .ok (some moved)) (absent : tree.find (below ++ [last]) = .ok none)
    (parent : tree.find below = .ok (some (.directory marker children))) :
    ∃ changed, tree.move (above ++ [name]) (below ++ [last]) = .ok changed := by
  obtain ⟨without, removed⟩ := put_ok holder name none
  have outside : ¬ above ++ [name] <+: below := fun inside => apart.1 (inside.trans (List.prefix_append _ _))
  obtain ⟨later, still⟩ := directory_put removed outside parent
  obtain ⟨changed, placed⟩ := put_ok still last (some moved)
  refine ⟨changed, ?_⟩
  rw [move, present, absent, removed]
  exact placed

end Paths

end FileTree

end MicroWorkflow.Lib
