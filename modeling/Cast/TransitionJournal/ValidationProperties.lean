import Cast.TransitionJournal.Successors

/-! What acceptance by the record contract means. Each validator is read off
once as a statement about the record; later modules use these readings and
never unfold a validator again. -/

namespace Cast.TransitionJournal

open Foundation

variable {record : TransitionRecord}

@[simp] theorem ForwardPhase.forward_toPhase (phase : ForwardPhase) :
    phase.toPhase.forward = some phase := by
  cases phase <;> rfl

theorem Phase.forward_eq_some {phase : Phase} {forward : ForwardPhase} :
    phase.forward = some forward ↔ phase = forward.toPhase := by
  constructor
  · intro found
    cases phase <;> simp only [Phase.forward, Option.some.injEq, reduceCtorEq] at found <;> subst found <;> rfl
  · rintro rfl
    exact forward.forward_toPhase

theorem ForwardPhase.toPhase_injective {left right : ForwardPhase}
    (same : left.toPhase = right.toPhase) : left = right := by
  have found := congrArg Phase.forward same
  simpa only [ForwardPhase.forward_toPhase, Option.some.injEq] using found

theorem ForwardPhase.toPhase_ne (phase : ForwardPhase) {other : Phase}
    (notForward : other.forward = none) : phase.toPhase ≠ other := by
  rintro rfl
  rw [ForwardPhase.forward_toPhase] at notForward
  cases notForward

theorem nextGeneration_eq_some {generation next : UInt64} :
    nextGeneration generation = some next ↔ generation.toNat + 1 < UInt64.size ∧ next = generation + 1 := by
  by_cases bounded : generation.toNat + 1 < UInt64.size
  · simp [nextGeneration, bounded, eq_comm]
  · simp [nextGeneration, bounded]

theorem nextGeneration_toNat {generation next : UInt64} (advanced : nextGeneration generation = some next) :
    next.toNat = generation.toNat + 1 := by
  obtain ⟨bounded, rfl⟩ := nextGeneration_eq_some.mp advanced
  rw [UInt64.toNat_add]
  exact Nat.mod_eq_of_lt bounded

namespace TransitionRecord

/-- The layout-dependent part of the contract, at the record's layout phase. -/
@[mk_iff] structure LayoutValid (record : TransitionRecord) (layout : ForwardPhase) : Prop where
  receipts : record.validateBootPublicationReceipts layout = .ok ()
  reachable : record.validateOptionReachability layout = .ok ()
  candidate : record.validateCandidateLayout layout = .ok ()

/-- The whole record contract, one field for each check or group of checks. -/
@[mk_iff] structure Valid (record : TransitionRecord) : Prop where
  format : record.format = payloadFormat
  version : record.version = payloadVersionV1 ∨ record.version = payloadVersionV2 ∨ record.version = payloadVersion
  v1Domain : record.validateV1Domain = .ok ()
  generation : record.generation ≠ 0
  creationEpoch : record.creationEpoch.validate = .ok ()
  previousToken : record.previous.treeToken.validate = .ok ()
  candidateToken : record.candidate.treeToken.validate = .ok ()
  previousIdentity : record.previous.usrRuntimeIdentity.validate = .ok ()
  candidateIdentity : record.candidate.usrRuntimeIdentity.validate = .ok ()
  candidateId : validateStateId record.candidate.id = .ok ()
  previousId : validateStateId record.previous.id = .ok ()
  origin : record.candidate.origin = record.operation.expectedOrigin
  layout : ∃ layout, record.layoutPhase = .ok layout ∧ record.LayoutValid layout
  relationships : record.validateRelationships = .ok ()
  plan : ∀ plan, record.rollback = some plan →
    record.validateRollbackPlan plan = .ok () ∧ validateRollbackPhase record.phase plan = .ok ()

theorem validateRollback_eq_ok :
    record.validateRollback = .ok () ↔ ∀ plan, record.rollback = some plan →
      record.validateRollbackPlan plan = .ok () ∧ validateRollbackPhase record.phase plan = .ok () := by
  cases present : record.rollback <;> simp [validateRollback, present]

theorem validate_eq_ok : record.validate = .ok () ↔ record.Valid := by
  simp only [validate, bind_eq_ok, exists_check, refuse_eq_ok, validateRollback_eq_ok, not_not,
    valid_iff, layoutValid_iff, ← exists_and_right, and_assoc]

/-- A forward record carries no plan, a rollback record carries one from an
allowed source; in both cases this is the layout phase. -/
theorem layoutPhase_eq_ok {layout : ForwardPhase} : record.layoutPhase = .ok layout ↔
      (record.phase = layout.toPhase ∧ record.rollback = none) ∨
      (record.phase.forward = none ∧ ∃ plan, record.rollback = some plan ∧
        plan.source = layout ∧ rollbackAllowed layout = true) := by
  unfold layoutPhase
  cases forward : record.phase.forward with
  | some phase =>
    have atPhase := Phase.forward_eq_some.mp forward
    cases record.rollback with
    | none =>
      simp only [Except.ok.injEq, reduceCtorEq, false_and, or_false, and_true]
      rw [atPhase]
      exact ⟨fun same => same ▸ rfl, ForwardPhase.toPhase_injective⟩
    | some plan => simp
  | none =>
    have notForward : record.phase ≠ layout.toPhase := (layout.toPhase_ne forward).symm
    cases record.rollback with
    | none => simp [notForward]
    | some plan =>
      simp only [notForward, false_and, false_or, true_and, Option.some.injEq]
      split
      · next allowed =>
          simp only [Except.ok.injEq]
          constructor
          · rintro rfl
            exact ⟨plan, rfl, rfl, allowed⟩
          · rintro ⟨_, rfl, same, _⟩
            exact same
      · next refused =>
          simp only [reduceCtorEq, false_iff]
          rintro ⟨_, rfl, same, allowed⟩
          exact refused (same ▸ allowed)

namespace Valid

variable (valid : record.Valid)
include valid

theorem rollback_eq_none {phase : ForwardPhase}
    (atPhase : record.phase = phase.toPhase) : record.rollback = none := by
  obtain ⟨layout, selected, _⟩ := valid.layout
  rcases layoutPhase_eq_ok.mp selected with ⟨_, absent⟩ | ⟨notForward, _⟩
  · exact absent
  · exact absurd atPhase.symm (phase.toPhase_ne notForward)

theorem layoutPhase_of_forward {phase : ForwardPhase}
    (atPhase : record.phase = phase.toPhase) : record.LayoutValid phase := by
  obtain ⟨layout, selected, accepted⟩ := valid.layout
  have absent := valid.rollback_eq_none atPhase
  rcases layoutPhase_eq_ok.mp selected with ⟨same, _⟩ | ⟨_, plan, present, _⟩
  · rw [atPhase] at same
    exact ForwardPhase.toPhase_injective same ▸ accepted
  · rw [absent] at present
    cases present

theorem exists_plan (notForward : record.phase.forward = none) :
    ∃ plan, record.rollback = some plan ∧ rollbackAllowed plan.source = true ∧ record.LayoutValid plan.source := by
  obtain ⟨layout, selected, accepted⟩ := valid.layout
  rcases layoutPhase_eq_ok.mp selected with ⟨same, _⟩ | ⟨_, plan, present, rfl, allowed⟩
  · exact absurd same.symm (layout.toPhase_ne notForward)
  · exact ⟨plan, present, allowed, accepted⟩

/-- A record carrying a plan is past its rollback decision. -/
theorem notForward_of_plan {plan : RollbackPlan}
    (present : record.rollback = some plan) : record.phase.forward = none := by
  cases forward : record.phase.forward with
  | none => rfl
  | some phase =>
    have absent := valid.rollback_eq_none (Phase.forward_eq_some.mp forward)
    rw [absent] at present
    cases present

end Valid

end TransitionRecord

end Cast.TransitionJournal
