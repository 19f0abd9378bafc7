import Mathlib.Data.List.Perm.Subperm
import Mathlib.Data.Nat.Find
import MicroWorkflow.Lib.Guarded

set_option autoImplicit false

namespace MicroWorkflow.Lib

inductive Onward (κ : Type) where
  | stop (answer : Bool)
  | next (key : Option κ)
deriving DecidableEq, Repr

section Walk

variable {κ ε : Type} [DecidableEq κ]

def walk (look : κ → Except ε (Onward κ)) (cycle : ε) : Nat → List κ → Option κ → Except ε Bool
  | _, _, none => .ok false
  | 0, _, some _ => .error cycle
  | fuel + 1, visited, some key => do
      refuse (key ∈ visited) cycle
      match ← look key with
      | .stop answer => return answer
      | .next key' => walk look cycle fuel (key :: visited) key'

variable {look : κ → Except ε (Onward κ)} {cycle : ε} {fuel extra n : Nat} {visited known : List κ} {key : κ}

inductive ReachesIn (look : κ → Except ε (Onward κ)) : Nat → κ → Prop where
  | here {key : κ} : look key = .ok (.stop true) → ReachesIn look 0 key
  | onward {n : Nat} {key after : κ} : look key = .ok (.next (some after)) → ReachesIn look n after →
      ReachesIn look (n + 1) key

def Reaches (look : κ → Except ε (Onward κ)) (key : κ) : Prop := ∃ n, ReachesIn look n key

theorem walk_unseen (unseen : key ∉ visited) :
    walk look cycle (fuel + 1) visited (some key) = (look key >>= fun onward => match onward with
      | .stop answer => .ok answer
      | .next key' => walk look cycle fuel (key :: visited) key') := by
  simp only [walk, unseen, decide_false, refuse, Bool.false_eq_true, if_false, bind, Except.bind]
  rfl

theorem walk_seen (seen : key ∈ visited) : walk look cycle (fuel + 1) visited (some key) = .error cycle := by
  simp only [walk, seen, decide_true, refuse, if_true, bind, Except.bind]

theorem walk_sound (walked : walk look cycle fuel visited (some key) = .ok true) : Reaches look key := by
  induction fuel generalizing visited key with
  | zero => simp [walk] at walked
  | succ fuel ih =>
      by_cases seen : key ∈ visited
      · rw [walk_seen seen] at walked
        exact absurd walked (by simp)
      · rw [walk_unseen seen] at walked
        obtain ⟨onward, looked, rest⟩ := bind_ok.mp walked
        cases onward with
        | stop answer =>
            cases rest
            exact ⟨0, .here looked⟩
        | next after =>
            cases after with
            | none => simp [walk] at rest
            | some after =>
                obtain ⟨n, reached⟩ := ih rest
                exact ⟨n + 1, .onward looked reached⟩

theorem walk_fuel {start : Option κ} (found : ∀ key onward, look key = .ok onward → key ∈ known)
    (distinct : visited.Nodup) (seen : ∀ key ∈ visited, key ∈ known)
    (enough : known.length + 1 ≤ fuel + visited.length) :
    walk look cycle (fuel + extra) visited start = walk look cycle fuel visited start := by
  induction fuel generalizing visited start with
  | zero =>
      have bounded := (distinct.subperm seen).length_le
      omega
  | succ fuel ih =>
      rw [Nat.add_right_comm]
      cases start with
      | none => rfl
      | some key =>
          by_cases again : key ∈ visited
          · rw [walk_seen again, walk_seen again]
          · rw [walk_unseen again, walk_unseen again]
            cases looked : look key with
            | error error => rfl
            | ok onward =>
                cases onward with
                | stop answer => rfl
                | next after =>
                    have grown : ∀ item ∈ key :: visited, item ∈ known := by
                      intro item member
                      rcases List.mem_cons.mp member with rfl | old
                      · exact found _ _ looked
                      · exact seen item old
                    exact ih (List.nodup_cons.mpr ⟨again, distinct⟩) grown (by simp only [List.length_cons]; omega)

theorem walk_shortest (reached : ReachesIn look n key) (shortest : ∀ m, m < n → ¬ReachesIn look m key)
    (apart : ∀ item ∈ visited, ∀ m, m ≤ n → ¬ReachesIn look m item) :
    walk look cycle (n + 1 + extra) visited (some key) = .ok true := by
  induction n generalizing visited key with
  | zero =>
      have unseen : key ∉ visited := fun member => apart key member 0 (Nat.le_refl 0) reached
      cases reached with
      | here looked =>
          rw [Nat.zero_add, Nat.add_comm, walk_unseen unseen, looked]
          rfl
  | succ n ih =>
      have unseen : key ∉ visited := fun member => apart key member (n + 1) (Nat.le_refl _) reached
      cases reached with
      | @onward _ _ after looked rest =>
          have later : ∀ m, m < n → ¬ReachesIn look m after := by
            intro m less shorter
            exact shortest (m + 1) (by omega) (.onward looked shorter)
          have fresh : ∀ item ∈ key :: visited, ∀ m, m ≤ n → ¬ReachesIn look m item := by
            intro item member m within shorter
            rcases List.mem_cons.mp member with rfl | old
            · exact shortest m (by omega) shorter
            · exact apart item old m (by omega) shorter
          have goes := ih rest later fresh
          rw [Nat.add_right_comm, walk_unseen unseen, looked]
          exact goes

theorem walk_complete (found : ∀ key onward, look key = .ok onward → key ∈ known) (reaches : Reaches look key)
    (enough : known.length + 1 ≤ fuel) : walk look cycle fuel [] (some key) = .ok true := by
  classical
  have none : ∀ item ∈ ([] : List κ), item ∈ known := fun item member => absurd member List.not_mem_nil
  have apart : ∀ item ∈ ([] : List κ), ∀ m, m ≤ Nat.find reaches → ¬ReachesIn look m item :=
    fun item member => absurd member List.not_mem_nil
  have goes : walk look cycle (Nat.find reaches + 1 + fuel) [] (some key) = .ok true :=
    walk_shortest (Nat.find_spec reaches) (fun m less => Nat.find_min reaches less) apart
  rw [Nat.add_comm, walk_fuel found List.nodup_nil none (by simpa using enough)] at goes
  exact goes

theorem walk_iff (found : ∀ key onward, look key = .ok onward → key ∈ known) (enough : known.length + 1 ≤ fuel) :
    walk look cycle fuel [] (some key) = .ok true ↔ Reaches look key :=
  ⟨walk_sound, fun reaches => walk_complete found reaches enough⟩

end Walk

end MicroWorkflow.Lib
