import MicroWorkflow.Ownership

set_option autoImplicit false

namespace MicroWorkflow

open Lib (Table)

structure LastExecution (db : Database) (row : Job) (identity : JobInstance) (owner : ExecutionOwner) : Prop where
  session : db.executionSessions.contains owner.sessionId = true
  selected : db.sessionComponents.contains (owner.sessionId, owner.componentKey) = true
  place : owner.address = row.address
  jobInstance : owner.jobInstanceId = identity.instanceId
  creator : owner.createdByExecutionId = identity.createdByExecutionId
  reached : owner.generation ≤ row.generation
  current : row.activeExecutionId.isSome = true → owner.generation = row.generation
  member : row.nodeName ∈ owner.componentKey
  readable : executionOwnerFromRow db owner = .ok owner

structure ReadableJob (db : Database) (row : Job) (identity : JobInstance) : Prop where
  found : db.jobInstances.find row.address = some identity
  valid : validInstance identity.instanceId = true
  creator : creatorRecorded db identity.createdByExecutionId = true
  active : ∀ executionId, row.activeExecutionId = some executionId → identity.lastExecutionId = some executionId
  last : ∀ executionId, identity.lastExecutionId = some executionId →
    ∃ owner, db.jobExecutionOwners.find executionId = some owner ∧ LastExecution db row identity owner

def lastOwner (db : Database) (identity : JobInstance) : Option ExecutionOwner :=
  identity.lastExecutionId.bind db.jobExecutionOwners.find

structure Observes (db : Database) (row : Job) (identity : JobInstance) (observed : JobOwnerObservation) : Prop where
  jobInstance : observed.jobInstanceId = identity.instanceId
  generation : observed.generation = row.generation
  status : observed.status = row.status
  active : observed.activeExecutionId = row.activeExecutionId
  owner : observed.owner = lastOwner db identity

variable {db : Database} {row : Job} {identity : JobInstance} {observed : JobOwnerObservation} {owner : ExecutionOwner}

theorem execution_owner_same {stored : ExecutionOwner} (read : executionOwnerFromRow db stored = .ok owner) :
    owner = stored := by
  simp only [executionOwnerFromRow, Lib.bind_ok, Lib.pure_ok] at read
  obtain ⟨_, _, _, _, _, _, _, _, _, _, _, _, _, _, same⟩ := read
  exact same.symm

theorem active_or_last {active last : Option String} (consistent : (active.isSome && active != last) = false) :
    active.or last = last ∧ ∀ executionId, active = some executionId → last = some executionId := by
  cases active with
  | none => exact ⟨rfl, fun _ absurdity => absurd absurdity (by simp)⟩
  | some executionId =>
      simp only [Option.isSome_some, Bool.true_and, bne_eq_false_iff_eq] at consistent
      exact ⟨by rw [← consistent]; rfl, fun _ same => consistent ▸ same⟩

theorem observation_readable (seen : jobOwnerObservationFromRow db row = .ok observed) :
    ∃ identity, ReadableJob db row identity ∧ Observes db row identity observed := by
  unfold jobOwnerObservationFromRow at seen
  simp only [Lib.bind_ok, Lib.orRaise_ok, Lib.require_ok, Lib.refuse_ok] at seen
  obtain ⟨identity, found, _, valid, _, creator, _, consistent, seen⟩ := seen
  obtain ⟨chosen, active⟩ := active_or_last consistent
  rw [chosen] at seen
  refine ⟨identity, ?_⟩
  cases last : identity.lastExecutionId with
  | none =>
      rw [last] at seen active
      obtain rfl := Except.ok.inj seen
      refine ⟨⟨found, valid, creator, fun executionId same => ?_, fun executionId same => ?_⟩, rfl, rfl, rfl, rfl, ?_⟩
      · rw [last]
        exact active executionId same
      · exact absurd (last.symm.trans same) (by simp)
      · rw [lastOwner, last]
        rfl
  | some executionId =>
      rw [last] at seen
      simp only [Lib.bind_ok, Lib.orRaise_ok, Lib.require_ok, Lib.pure_ok, Bool.and_eq_true, beq_iff_eq,
        decide_eq_true_eq, Bool.or_eq_true, Option.isNone_iff_eq_none] at seen
      obtain ⟨owner, stored, session, running, _, ⟨⟨⟨⟨⟨⟨selected, node⟩, job⟩, jobInstance⟩, created⟩, reached⟩, current⟩,
        _, member, owner', readable, rfl⟩ := seen
      obtain rfl := execution_owner_same readable
      have place : owner'.address = row.address := Prod.ext node job
      refine ⟨⟨found, valid, creator, active, fun other same => ?_⟩, rfl, rfl, rfl, rfl, ?_⟩
      · rw [last, Option.some.injEq] at same
        subst same
        refine ⟨owner', stored, ?_, selected, place, jobInstance, created, reached, fun isActive => ?_, member, readable⟩
        · rw [Table.contains, running]
          rfl
        · rcases current with inactive | same
          · rw [inactive] at isActive
            exact absurd isActive (by simp)
          · exact same
      · rw [lastOwner, last]
        exact stored.symm

theorem readable_observation (readable : ReadableJob db row identity) :
    ∃ observed, jobOwnerObservationFromRow db row = .ok observed ∧ Observes db row identity observed := by
  have consistent : (row.activeExecutionId.isSome && row.activeExecutionId != identity.lastExecutionId) = false := by
    cases active : row.activeExecutionId with
    | none => rfl
    | some executionId => simp [readable.active executionId active]
  obtain ⟨chosen, _⟩ := active_or_last consistent
  cases last : identity.lastExecutionId with
  | none =>
      refine ⟨⟨identity.instanceId, row.generation, row.status, row.activeExecutionId, row.activePid,
        row.activeStartedAt, .unclaimed, none, none⟩, ?_, rfl, rfl, rfl, rfl, by simp [lastOwner, last]⟩
      rw [last] at consistent chosen
      simp [jobOwnerObservationFromRow, readable.found, readable.valid, readable.creator, last, consistent, chosen,
        bind, Except.bind, Lib.orRaise, Lib.require, Lib.refuse, pure, Except.pure]
  | some executionId =>
      obtain ⟨owner, stored, execution⟩ := readable.last executionId last
      obtain ⟨session, running⟩ := Option.isSome_iff_exists.mp execution.session
      refine ⟨⟨identity.instanceId, row.generation, row.status, row.activeExecutionId, row.activePid,
        row.activeStartedAt, if row.activeExecutionId.isSome then .active else .last, some owner,
        some ⟨session, readSessionParentIds db session.sessionId⟩⟩, ?_, rfl, rfl, rfl, rfl, ?_⟩
      · have place := execution.place
        simp only [ExecutionOwner.address, Job.address, Prod.mk.injEq] at place
        have current : (row.activeExecutionId.isNone || owner.generation == row.generation) = true := by
          cases active : row.activeExecutionId with
          | none => rfl
          | some other => simp [execution.current (by simp [active])]
        rw [last] at consistent chosen
        simp [jobOwnerObservationFromRow, readable.found, readable.valid, readable.creator, last, consistent, chosen,
          stored, running, execution.selected, place, execution.jobInstance, execution.creator, execution.reached,
          current, execution.member, execution.readable, bind, Except.bind, Lib.orRaise, Lib.require, Lib.refuse, pure,
          Except.pure]
      · rw [lastOwner, last]
        exact stored.symm

end MicroWorkflow
