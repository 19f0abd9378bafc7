import MicroWorkflow.ComponentRecord

set_option autoImplicit false

namespace MicroWorkflow

open Lib (require orRaise)

structure Readiness where
  lineage : Lineage
  overridden : Bool
deriving DecidableEq, Repr

def validLineage : Lineage → Bool
  | (some .stable, none) => true
  | (some .unstable, some origin) => origin != ""
  | _ => false

def observeParent (seen : Option Readiness × Bool) (parent : ResultTriple) : Result (Option Readiness × Bool) :=
  if parent.1 ≠ .done then .ok (seen.1, true)
  else do
    require (validLineage parent.2) (.value "invalid done component result")
    return (some ⟨parent.2, false⟩, seen.2 || seen.1.any fun result => result ≠ ⟨parent.2, false⟩)

def readinessVerdict (interruptStartOrigin : Option String) : Option Readiness × Bool → Option Readiness
  | (_, true) => interruptStartOrigin.map fun origin => ⟨(some .unstable, some origin), true⟩
  | (result, false) => some (result.getD ⟨(some .stable, none), false⟩)

def calculateComponentReadiness (parentObservations : List ResultTriple) (interruptStartOrigin : Option String) :
    Result (Option Readiness) := do
  require (interruptStartOrigin.all fun origin => origin != "") (.value "invalid interrupt start origin")
  let seen ← parentObservations.foldlM observeParent (none, false)
  return readinessVerdict interruptStartOrigin seen

def calculateSampledResumeLineage (retained : Lineage) (parentReadiness : Readiness) : Result (Option Lineage) := do
  require (validLineage retained) (.value "invalid sampled component result")
  return if parentReadiness.lineage.1 = some .unstable ∧ retained ≠ parentReadiness.lineage then none else some retained

def withOverride (readiness : Option Readiness) : Option Lineage → Result (Option Readiness)
  | none => .ok none
  | some lineage => do
      let readiness ← orRaise readiness (.type "'NoneType' object is not subscriptable")
      return some ⟨lineage, readiness.overridden⟩

def resumeOverCompleted (retained : Lineage) (readiness : Option Readiness) : Option Readiness → Result (Option Readiness)
  | none => .ok none
  | some completed => do
      let lineage ← calculateSampledResumeLineage retained completed
      withOverride readiness lineage

def calculateInterruptSampledResumeReadiness (retained : Lineage) (parentObservations : List ResultTriple)
    (interruptStartOrigin : Option String) : Result (Option Readiness) := do
  let readiness ← calculateComponentReadiness parentObservations interruptStartOrigin
  let completed ← calculateComponentReadiness (parentObservations.filter fun item => item.1 = .done) none
  resumeOverCompleted retained readiness completed

def predictRetainedLineage (retained : Lineage) (parentObservations : List ResultTriple) : Result (Option Lineage) := do
  match ← calculateComponentReadiness parentObservations none with
  | none => return none
  | some readiness => calculateSampledResumeLineage retained readiness

section Law

variable {parents : List ResultTriple} {origin : Option String} {lineage retained : Lineage}

def ValidParent (parent : ResultTriple) : Prop := parent.1 = .done → validLineage parent.2 = true

instance (parent : ResultTriple) : Decidable (ValidParent parent) :=
  inferInstanceAs (Decidable (parent.1 = .done → validLineage parent.2 = true))

def AgreeOn (parents : List ResultTriple) (lineage : Lineage) : Prop := ∀ parent ∈ parents, parent = (.done, lineage)

def Clash (parents : List ResultTriple) (retained : Lineage) : Prop :=
  (∃ left right, (Lifecycle.done, left) ∈ parents ∧ (Lifecycle.done, right) ∈ parents ∧ left ≠ right) ∨
    ∃ lineage, (Lifecycle.done, lineage) ∈ parents ∧ lineage.1 = some .unstable ∧ lineage ≠ retained

theorem observe_open {parent : ResultTriple} {seen : Option Readiness × Bool} (waits : parent.1 ≠ .done) :
    observeParent seen parent = .ok (seen.1, true) := if_pos waits

theorem observe_done {seen : Option Readiness × Bool} (valid : validLineage lineage = true) :
    observeParent seen (.done, lineage) =
      .ok (some ⟨lineage, false⟩, seen.2 || seen.1.any fun result => result ≠ ⟨lineage, false⟩) := by
  simp [observeParent, valid, require]

theorem fold_blocked (valid : ∀ parent ∈ parents, ValidParent parent) (seen : Option Readiness) :
    ∃ result, parents.foldlM observeParent (seen, true) = .ok (result, true) := by
  induction parents generalizing seen with
  | nil => exact ⟨seen, rfl⟩
  | cons parent rest ih =>
      have later := fun other member => valid other (List.mem_cons_of_mem parent member)
      by_cases done : parent.1 = .done
      · obtain ⟨lifecycle, lineage⟩ := parent
        cases done
        obtain ⟨result, blocked⟩ := ih later (some ⟨lineage, false⟩)
        refine ⟨result, ?_⟩
        rw [List.foldlM_cons, observe_done (valid _ List.mem_cons_self rfl)]
        exact blocked
      · obtain ⟨result, blocked⟩ := ih later seen
        refine ⟨result, ?_⟩
        rw [List.foldlM_cons, observe_open done]
        exact blocked

theorem fold_agree (valid : validLineage lineage = true) (agree : AgreeOn parents lineage) :
    parents.foldlM observeParent (some ⟨lineage, false⟩, false) = .ok (some ⟨lineage, false⟩, false) := by
  induction parents with
  | nil => rfl
  | cons parent rest ih =>
      rw [agree parent List.mem_cons_self, List.foldlM_cons, observe_done valid]
      simpa using ih fun other member => agree other (List.mem_cons_of_mem parent member)

theorem fold_differs (valid : ∀ parent ∈ parents, ValidParent parent)
    (differs : ¬AgreeOn parents lineage) :
    ∃ result, parents.foldlM observeParent (some ⟨lineage, false⟩, false) = .ok (result, true) := by
  induction parents generalizing lineage with
  | nil => exact absurd (fun parent member => by cases member) differs
  | cons parent rest ih =>
      have later := fun other member => valid other (List.mem_cons_of_mem parent member)
      by_cases done : parent.1 = .done
      · obtain ⟨lifecycle, other⟩ := parent
        cases done
        rw [List.foldlM_cons, observe_done (valid _ List.mem_cons_self rfl)]
        by_cases same : other = lineage
        · subst other
          obtain ⟨result, blocked⟩ := @ih lineage later fun agree => differs fun parent member => by
            rcases List.mem_cons.mp member with rfl | inside
            · rfl
            · exact agree parent inside
          refine ⟨result, ?_⟩
          simpa using blocked
        · obtain ⟨result, blocked⟩ := fold_blocked later (some ⟨other, false⟩)
          refine ⟨result, ?_⟩
          have mismatch : (⟨lineage, false⟩ : Readiness) ≠ ⟨other, false⟩ := by
            intro equal
            cases equal
            exact same rfl
          simpa [mismatch] using blocked
      · rw [List.foldlM_cons, observe_open done]
        exact fold_blocked later _

theorem readiness_of_fold (seen : Option Readiness × Bool) (named : (origin.all fun text => text != "") = true)
    (folded : parents.foldlM observeParent (none, false) = .ok seen) :
    calculateComponentReadiness parents origin = .ok (readinessVerdict origin seen) := by
  rw [calculateComponentReadiness, named, folded]
  rfl

theorem readiness_agrees (valid : validLineage lineage = true) (named : (origin.all fun text => text != "") = true)
    (some_parent : parents ≠ []) (agree : AgreeOn parents lineage) :
    calculateComponentReadiness parents origin = .ok (some ⟨lineage, false⟩) := by
  refine readiness_of_fold (some ⟨lineage, false⟩, false) named ?_
  cases parents with
  | nil => exact absurd rfl some_parent
  | cons parent rest =>
      rw [agree parent List.mem_cons_self, List.foldlM_cons, observe_done valid]
      exact fold_agree valid fun other member => agree other (List.mem_cons_of_mem parent member)

theorem readiness_blocked (valid : ∀ parent ∈ parents, ValidParent parent)
    (named : (origin.all fun text => text != "") = true) (differs : ¬∃ lineage, AgreeOn parents lineage) :
    calculateComponentReadiness parents origin =
      .ok (origin.map fun text => ⟨(some .unstable, some text), true⟩) := by
  have folded : ∃ result, parents.foldlM observeParent (none, false) = .ok (result, true) := by
    cases parents with
    | nil => exact absurd ⟨(none, none), fun parent member => by cases member⟩ differs
    | cons parent rest =>
        have later := fun other member => valid other (List.mem_cons_of_mem parent member)
        by_cases done : parent.1 = .done
        · obtain ⟨lifecycle, lineage⟩ := parent
          cases done
          rw [List.foldlM_cons, observe_done (valid _ List.mem_cons_self rfl)]
          refine fold_differs later fun agree => differs ⟨lineage, fun parent member => ?_⟩
          rcases List.mem_cons.mp member with rfl | inside
          · rfl
          · exact agree parent inside
        · rw [List.foldlM_cons, observe_open done]
          exact fold_blocked later _
  obtain ⟨result, blocked⟩ := folded
  exact readiness_of_fold _ named blocked

theorem agree_valid (valid : ∀ parent ∈ parents, ValidParent parent) (some_parent : parents ≠ [])
    (agree : AgreeOn parents lineage) : validLineage lineage = true := by
  obtain ⟨parent, member⟩ := List.exists_mem_of_ne_nil parents some_parent
  have shown := valid parent member
  rw [agree parent member] at shown
  exact shown rfl

theorem readiness_perm {others : List ResultTriple} (valid : ∀ parent ∈ parents, ValidParent parent)
    (named : (origin.all fun text => text != "") = true) (same : others.Perm parents) :
    calculateComponentReadiness others origin = calculateComponentReadiness parents origin := by
  have validOthers : ∀ parent ∈ others, ValidParent parent := fun parent member => valid parent (same.mem_iff.mp member)
  have agreeIff : ∀ lineage, AgreeOn others lineage ↔ AgreeOn parents lineage :=
    fun lineage => forall_congr' fun parent => by rw [same.mem_iff]
  by_cases agree : ∃ lineage, AgreeOn parents lineage
  · obtain ⟨lineage, agree⟩ := agree
    by_cases empty : parents = []
    · subst empty
      rw [same.eq_nil]
    · have some_other : others ≠ [] := fun none => empty (by simpa [none] using same.symm)
      have validLineage := agree_valid valid empty agree
      rw [readiness_agrees validLineage named empty agree,
        readiness_agrees validLineage named some_other ((agreeIff lineage).mpr agree)]
  · have differs : ¬∃ lineage, AgreeOn others lineage := fun ⟨lineage, holds⟩ => agree ⟨lineage, (agreeIff lineage).mp holds⟩
    rw [readiness_blocked valid named agree, readiness_blocked validOthers named differs]

theorem sampled_resume_keeps {readiness : Readiness} (kept : validLineage retained = true) :
    calculateSampledResumeLineage retained readiness =
      .ok (if readiness.lineage.1 = some .unstable ∧ retained ≠ readiness.lineage then none else some retained) := by
  rw [calculateSampledResumeLineage, kept]
  rfl

def completedParents (parents : List ResultTriple) : List ResultTriple := parents.filter fun item => item.1 = .done

theorem mem_completed_parents {parent : ResultTriple} :
    parent ∈ completedParents parents ↔ parent ∈ parents ∧ parent.1 = .done := by
  rw [completedParents, List.mem_filter, decide_eq_true_eq]

theorem completed_readiness (valid : ∀ parent ∈ parents, ValidParent parent) (kept : validLineage retained = true) :
    (Clash parents retained ∧ (calculateComponentReadiness (completedParents parents) none = .ok none ∨
      ∃ completed, calculateComponentReadiness (completedParents parents) none = .ok (some completed) ∧
        calculateSampledResumeLineage retained completed = .ok none)) ∨
    (¬Clash parents retained ∧
      ∃ completed, calculateComponentReadiness (completedParents parents) none = .ok (some completed) ∧
        calculateSampledResumeLineage retained completed = .ok (some retained)) := by
  have validDone : ∀ parent ∈ completedParents parents, ValidParent parent :=
    fun parent member => valid parent (mem_completed_parents.mp member).1
  have done_mem : ∀ lineage, (Lifecycle.done, lineage) ∈ parents → (Lifecycle.done, lineage) ∈ completedParents parents :=
    fun lineage member => mem_completed_parents.mpr ⟨member, rfl⟩
  by_cases empty : completedParents parents = []
  · right
    have none_done : ∀ lineage, (Lifecycle.done, lineage) ∉ parents := by
      intro lineage member
      have inside := done_mem lineage member
      rw [empty] at inside
      cases inside
    refine ⟨?_, ⟨(some .stable, none), false⟩, by rw [empty]; rfl, ?_⟩
    · rintro (⟨left, right, member, _⟩ | ⟨lineage, member, _⟩)
      · exact none_done left member
      · exact none_done lineage member
    · rw [sampled_resume_keeps kept]
      rfl
  by_cases agree : ∃ lineage, AgreeOn (completedParents parents) lineage
  · obtain ⟨lineage, agree⟩ := agree
    have shared : ∀ other, (Lifecycle.done, other) ∈ parents → other = lineage := by
      intro other member
      have equal := agree _ (done_mem other member)
      cases equal
      rfl
    have present : (Lifecycle.done, lineage) ∈ parents := by
      obtain ⟨parent, member⟩ := List.exists_mem_of_ne_nil _ empty
      rw [agree parent member] at member
      exact (mem_completed_parents.mp member).1
    have value : calculateComponentReadiness (completedParents parents) none = .ok (some ⟨lineage, false⟩) :=
      readiness_agrees (agree_valid validDone empty agree) rfl empty agree
    by_cases refused : lineage.1 = some .unstable ∧ retained ≠ lineage
    · left
      refine ⟨.inr ⟨lineage, present, refused.1, refused.2.symm⟩, .inr ⟨_, value, ?_⟩⟩
      rw [sampled_resume_keeps kept, if_pos refused]
    · right
      refine ⟨?_, _, value, by rw [sampled_resume_keeps kept, if_neg refused]⟩
      rintro (⟨left, right, first, second, different⟩ | ⟨other, member, unstable, different⟩)
      · exact different ((shared left first).trans (shared right second).symm)
      · cases shared other member
        exact refused ⟨unstable, different.symm⟩
  · left
    refine ⟨.inl ?_, .inl (@readiness_blocked _ none validDone rfl agree)⟩
    obtain ⟨⟨lifecycle, first⟩, member⟩ := List.exists_mem_of_ne_nil _ empty
    obtain ⟨inside, done⟩ := mem_completed_parents.mp member
    cases done
    have other : ∃ other, (Lifecycle.done, other) ∈ parents ∧ first ≠ other := by
      by_contra same
      refine agree ⟨first, fun parent member => ?_⟩
      obtain ⟨lifecycle, lineage⟩ := parent
      obtain ⟨inside, done⟩ := mem_completed_parents.mp member
      cases done
      by_contra different
      exact same ⟨lineage, inside, fun equal => different (by rw [equal])⟩
    obtain ⟨second, member, different⟩ := other
    exact ⟨first, second, inside, member, different⟩

theorem retained_lineage_predicted (valid : ∀ parent ∈ parents, ValidParent parent) (kept : validLineage retained = true) :
    (predictRetainedLineage retained parents = .ok none ∨ predictRetainedLineage retained parents = .ok (some retained)) ∧
    (Clash parents retained → predictRetainedLineage retained parents = .ok none) := by
  have unfolded : ∀ result, calculateComponentReadiness parents none = .ok result → predictRetainedLineage retained parents =
      match result with
      | none => .ok none
      | some readiness => calculateSampledResumeLineage retained readiness := by
    intro result known
    rw [predictRetainedLineage, known]
    cases result <;> rfl
  by_cases agree : ∃ lineage, AgreeOn parents lineage
  · obtain ⟨lineage, agree⟩ := agree
    by_cases empty : parents = []
    · subst empty
      refine ⟨.inr ?_, ?_⟩
      · rw [unfolded (some ⟨(some .stable, none), false⟩) rfl]
        exact sampled_resume_keeps kept
      · rintro (⟨left, right, member, _⟩ | ⟨lineage, member, _⟩)
        · cases member
        · cases member
    have known := unfolded _ (readiness_agrees (agree_valid valid empty agree) rfl empty agree)
    rw [known]
    dsimp only
    rw [sampled_resume_keeps kept]
    by_cases refused : lineage.1 = some .unstable ∧ retained ≠ lineage
    · rw [if_pos refused]
      exact ⟨.inl rfl, fun _ => rfl⟩
    · rw [if_neg refused]
      refine ⟨.inr rfl, ?_⟩
      rintro (⟨left, right, first, second, different⟩ | ⟨other, member, unstable, different⟩)
      · cases agree _ first
        cases agree _ second
        exact absurd rfl different
      · cases agree _ member
        exact absurd ⟨unstable, different.symm⟩ refused
  · rw [unfolded none (@readiness_blocked _ none valid rfl agree)]
    exact ⟨.inl rfl, fun _ => rfl⟩

theorem interrupt_resume_value (valid : ∀ parent ∈ parents, ValidParent parent)
    (named : (origin.all fun text => text != "") = true) (kept : validLineage retained = true) :
    ∃ ordinary, calculateComponentReadiness parents origin = .ok ordinary ∧
      (Clash parents retained → calculateInterruptSampledResumeReadiness retained parents origin = .ok none) ∧
      (¬Clash parents retained →
        calculateInterruptSampledResumeReadiness retained parents origin = withOverride ordinary (some retained)) := by
  obtain ⟨ordinary, known⟩ : ∃ ordinary, calculateComponentReadiness parents origin = .ok ordinary := by
    by_cases agree : ∃ lineage, AgreeOn parents lineage
    · obtain ⟨lineage, agree⟩ := agree
      by_cases empty : parents = []
      · subst empty
        exact ⟨_, readiness_of_fold (none, false) named rfl⟩
      · exact ⟨_, readiness_agrees (agree_valid valid empty agree) named empty agree⟩
    · exact ⟨_, readiness_blocked valid named agree⟩
  have start : calculateInterruptSampledResumeReadiness retained parents origin =
      (calculateComponentReadiness (completedParents parents) none).bind (resumeOverCompleted retained ordinary) := by
    rw [calculateInterruptSampledResumeReadiness, known]
    rfl
  refine ⟨ordinary, known, ?_, ?_⟩
  · intro clash
    rcases completed_readiness valid kept with ⟨_, blocked | ⟨completed, value, refused⟩⟩ | ⟨agreed, _⟩
    · rw [start, blocked]
      rfl
    · rw [start, value]
      show resumeOverCompleted retained ordinary (some completed) = _
      rw [resumeOverCompleted, refused]
      rfl
    · exact absurd clash agreed
  · intro agreed
    rcases completed_readiness valid kept with ⟨clash, _⟩ | ⟨_, completed, value, accepted⟩
    · exact absurd clash agreed
    · rw [start, value]
      show resumeOverCompleted retained ordinary (some completed) = _
      rw [resumeOverCompleted, accepted]
      rfl

theorem with_override_some {ordinary : Option Readiness} {readiness : Readiness}
    (value : withOverride ordinary (some retained) = .ok (some readiness)) :
    readiness.lineage = retained ∧ ∃ found, ordinary = some found ∧ readiness.overridden = found.overridden := by
  cases ordinary with
  | none => cases value
  | some found =>
      cases value
      exact ⟨rfl, found, rfl, rfl⟩

-- What the parents allow depends on which results they show and not on their order; a sampled result is
-- kept as it is or not at all.
theorem component_readiness_law (parents : List ResultTriple) (origin : Option String)
    (valid : ∀ parent ∈ parents, ValidParent parent) (named : ∀ text, origin = some text → text ≠ "") :
    (∀ others : List ResultTriple, others.Perm parents →
      calculateComponentReadiness others origin = calculateComponentReadiness parents origin) ∧
    (parents = [] → calculateComponentReadiness parents origin = .ok (some ⟨(some .stable, none), false⟩)) ∧
    (∀ lineage, parents ≠ [] → AgreeOn parents lineage →
      calculateComponentReadiness parents origin = .ok (some ⟨lineage, false⟩)) ∧
    ((¬∃ lineage, AgreeOn parents lineage) →
      calculateComponentReadiness parents origin = .ok (origin.map fun text => ⟨(some .unstable, some text), true⟩)) ∧
    ∀ retained, validLineage retained = true →
      ((∀ readiness, calculateSampledResumeLineage retained readiness = .ok none ∨
          calculateSampledResumeLineage retained readiness = .ok (some retained)) ∧
        (∀ readiness : Readiness, readiness.lineage.1 = some .unstable → readiness.lineage ≠ retained →
          calculateSampledResumeLineage retained readiness = .ok none)) ∧
      ((predictRetainedLineage retained parents = .ok none ∨ predictRetainedLineage retained parents = .ok (some retained)) ∧
        (Clash parents retained → predictRetainedLineage retained parents = .ok none)) ∧
      (Clash parents retained → calculateInterruptSampledResumeReadiness retained parents origin = .ok none) ∧
      (∀ ordinary, ¬Clash parents retained → calculateComponentReadiness parents origin = .ok (some ordinary) →
        calculateInterruptSampledResumeReadiness retained parents origin = .ok (some ⟨retained, ordinary.overridden⟩)) ∧
      (¬Clash parents retained → calculateComponentReadiness parents origin = .ok none →
        calculateInterruptSampledResumeReadiness retained parents origin =
          .error (.type "'NoneType' object is not subscriptable")) ∧
      ∀ readiness, calculateInterruptSampledResumeReadiness retained parents origin = .ok (some readiness) →
        readiness.lineage = retained ∧ ∃ ordinary, calculateComponentReadiness parents origin = .ok (some ordinary) ∧
          readiness.overridden = ordinary.overridden := by
  have named : (origin.all fun text => text != "") = true := by
    cases origin with
    | none => rfl
    | some text => simpa using named text rfl
  refine ⟨fun others same => readiness_perm valid named same, ?_, ?_, fun differs => readiness_blocked valid named differs, ?_⟩
  · rintro rfl
    exact readiness_of_fold (none, false) named rfl
  · intro lineage some_parent agree
    exact readiness_agrees (agree_valid valid some_parent agree) named some_parent agree
  intro retained kept
  obtain ⟨ordinary, known, clashes, keeps⟩ := interrupt_resume_value valid named kept
  refine ⟨⟨fun readiness => ?_, fun readiness unstable different => ?_⟩, retained_lineage_predicted valid kept, clashes, ?_,
    ?_, ?_⟩
  · rw [sampled_resume_keeps kept]
    by_cases refused : readiness.lineage.1 = some .unstable ∧ retained ≠ readiness.lineage
    · exact .inl (by rw [if_pos refused])
    · exact .inr (by rw [if_neg refused])
  · rw [sampled_resume_keeps kept, if_pos ⟨unstable, different.symm⟩]
  · intro found agreed value
    rw [known] at value
    cases value
    exact keeps agreed
  · intro agreed value
    rw [known] at value
    cases value
    exact keeps agreed
  · intro readiness value
    by_cases clash : Clash parents retained
    · rw [clashes clash] at value
      cases value
    · rw [keeps clash] at value
      obtain ⟨lineage, found, rfl, flag⟩ := with_override_some value
      exact ⟨lineage, found, known, flag⟩

theorem component_readiness_law_at :
    calculateComponentReadiness [(.done, some .stable, none), (.failed, none, none)] (some "child") =
      .ok (some ⟨(some .unstable, some "child"), true⟩) ∧
    calculateInterruptSampledResumeReadiness (some .unstable, some "child")
        [(.done, some .stable, none), (.failed, none, none)] (some "child") =
      .ok (some ⟨(some .unstable, some "child"), true⟩) := by
  have law := component_readiness_law [(.done, some .stable, none), (.failed, none, none)] (some "child")
    (by decide) (by decide)
  have differs : ¬∃ lineage, AgreeOn [(.done, some .stable, none), (.failed, none, none)] lineage := by
    rintro ⟨lineage, agree⟩
    cases agree (.failed, none, none) (by decide)
  have ordinary := law.2.2.2.1 differs
  refine ⟨ordinary, (law.2.2.2.2 (some .unstable, some "child") (by decide)).2.2.2.1 _ ?_ ordinary⟩
  rintro (⟨left, right, first, second, different⟩ | ⟨lineage, member, unstable, different⟩)
  · simp only [List.mem_cons, Prod.mk.injEq, List.not_mem_nil, or_false] at first second
    grind
  · simp only [List.mem_cons, Prod.mk.injEq, List.not_mem_nil, or_false] at member
    grind

end Law

end MicroWorkflow
