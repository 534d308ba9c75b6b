import Cast.TransitionJournal.SuccessorProperties

/-! No valid record short of a terminal phase is stuck. For each phase a next
record is exhibited and shown valid, so that the check admits it and one of the
typed constructors returns it. -/

namespace Cast.TransitionJournal

open Foundation TransitionRecord RollbackStage

variable {record : TransitionRecord} {plan : RollbackPlan} {generation : UInt64}
  {target current source layout : ForwardPhase} {phase : Phase}

namespace TransitionRecord

theorem validateV1Domain_eq_ok : record.validateV1Domain = .ok () ↔
    (record.version = payloadVersionV1 → record.phase ≠ .bootRepairComplete ∧
      ∀ plan, record.rollback = some plan → plan.boot.repaired = false) := by
  unfold validateV1Domain
  by_cases legacy : record.version = payloadVersionV1
  · cases planned : record.rollback with
    | none => simp [legacy]
    | some plan => cases boot : plan.boot <;> simp [legacy, boot, BootRollback.repaired]
  · simp [legacy]

/-- The receipt check reads the version, the options and the receipts; the
phase only appears in its error. -/
theorem validateBootPublicationReceipts_congr {other : TransitionRecord}
    (accepted : record.validateBootPublicationReceipts layout = .ok ())
    (version : record.version = other.version) (options : record.options = other.options)
    (receipts : record.bootPublicationReceipts = other.bootPublicationReceipts)
    (sameSide : layout.ordinal ≥ ForwardPhase.bootSyncStarted.ordinal ↔
      target.ordinal ≥ ForwardPhase.bootSyncStarted.ordinal) :
    other.validateBootPublicationReceipts target = .ok () := by
  unfold validateBootPublicationReceipts at accepted ⊢
  rw [← version, ← options, ← receipts]
  simp only [sameSide] at accepted
  split_ifs at accepted ⊢ <;> simpa only [refuse_eq_ok] using accepted

/-- A valid record stays valid when a rollback record replaces it, provided the
new plan and phase meet their own contracts. -/
theorem Valid.withPlan (valid : record.Valid) (counted : generation ≠ 0) (notForward : phase.forward = none)
    (allowed : rollbackAllowed plan.source = true) (layout : record.LayoutValid plan.source)
    (identified : { record with rollback := some plan }.validateCandidateLayout plan.source = .ok ())
    (contract : record.PlanValid plan) (atPhase : validateRollbackPhase phase plan = .ok ())
    (legacy : record.version = payloadVersionV1 → phase ≠ .bootRepairComplete ∧ plan.boot.repaired = false) :
    { record with
      generation := generation, phase := phase, rollback := some plan }.Valid := { valid with
  v1Domain := by
    refine validateV1Domain_eq_ok.mpr fun isLegacy => ⟨(legacy isLegacy).1, ?_⟩
    rintro _ ⟨rfl⟩
    exact (legacy isLegacy).2
  generation := counted
  layout := ⟨plan.source, layoutPhase_eq_ok.mpr (.inr ⟨notForward, plan, rfl, rfl, allowed⟩),
    validateBootPublicationReceipts_congr layout.receipts rfl rfl rfl Iff.rfl,
    layout.reachable, identified⟩
  plan := by
    rintro _ ⟨rfl⟩
    exact ⟨validateRollbackPlan_eq_ok.mpr (contract.congr rfl rfl), atPhase⟩ }

end TransitionRecord

/-- The plan changes that progress relies on: none, one action applied, or the
boot repair given up. -/
inductive PlanProgress (plan : RollbackPlan) : RollbackPlan → Prop
  | keep : PlanProgress plan plan
  | apply {stage : RollbackStage} (pending : stage.status plan = .pending) :
      PlanProgress plan (stage.record plan .applied)
  | abandon (boot : plan.boot = .pendingUnverifiable) : PlanProgress plan { plan with boot := .unverified }

namespace PlanProgress

variable {nextPlan : RollbackPlan}

section

variable (progress : PlanProgress plan nextPlan)
include progress

theorem source_eq : nextPlan.source = plan.source := by
  cases progress with
  | keep | abandon _ => rfl
  | @apply stage pending => exact stage.source_record plan .applied

theorem planValid (contract : record.PlanValid plan) : record.PlanValid nextPlan := by
  cases progress with
  | keep => exact contract
  | @apply stage pending =>
    refine ⟨fun other => ?_, ?_, ?_, ?_⟩
    · rw [status_record, source_record, ← contract.required other]
      split
      · next same =>
          rw [same, pending]
          rfl
      · rfl
    · rw [source_record, boot_record]
      exact contract.boot
    · rw [disposition_record, source_record]
      exact contract.disposition
    · rw [effects_record, source_record]
      exact contract.effects
  | abandon boot =>
    refine ⟨fun stage => ?_, ?_, contract.disposition, contract.effects⟩
    · rw [← contract.required stage]
      cases stage <;> rfl
    · have accepted := contract.boot
      rw [boot] at accepted
      revert accepted
      cases plan.source == ForwardPhase.bootSyncStarted <;> simp [bootRollbackAccepted]

/-- None of the changes asks for a candidate ID that the plan did not ask for. -/
theorem validateCandidateLayout (present : record.rollback = some plan)
    (accepted : record.validateCandidateLayout layout = .ok ()) :
    { record with rollback := some nextPlan }.validateCandidateLayout layout = .ok () := by
  have sameDemand : { record with rollback := some nextPlan }.candidateIdRequired layout =
      record.candidateIdRequired layout := by
    cases progress with
    | keep => rw [← present]
    | @apply stage pending =>
      cases layout <;> try rfl
      cases stage <;> simp only [RollbackStage.status] at pending <;>
        simp [candidateIdRequired, present, RollbackStage.record, pending]
    | abandon boot =>
      cases layout <;> try rfl
      simp [candidateIdRequired, present]
  unfold TransitionRecord.validateCandidateLayout at accepted ⊢
  rw [sameDemand]
  exact accepted

theorem repaired_eq_false (unrepaired : plan.boot.repaired = false) : nextPlan.boot.repaired = false := by
  cases progress with
  | keep => exact unrepaired
  | @apply stage pending =>
    rw [stage.boot_record]
    exact unrepaired
  | abandon boot => rfl

end

end PlanProgress

/-- A valid rollback record has an edge of the ladder to take, into a phase that
its plan fits again. -/
theorem exists_rollbackStep (notForward : phase.forward = none) (unblocked : phase.blocksAdvance = false)
    (valid : validateRollbackPhase phase plan = .ok ()) :
    ∃ nextPlan nextPhase, RollbackStep plan phase nextPlan nextPhase ∧
      PlanProgress plan nextPlan ∧ validateRollbackPhase nextPhase nextPlan = .ok () ∧
      nextPhase.forward = none ∧ nextPhase ≠ .bootRepairComplete := by
  rcases Phase.rollback_cases notForward with dispatches | ⟨stage, rfl⟩ | rfl | rfl | rfl | blocked
  · rcases firstPending_or_nonePending plan with ⟨stage, first⟩ | settled
    · exact ⟨plan, stage.intent, .enter dispatches first, .keep, validateRollbackPhase_intent.mpr
        ⟨dispatches.cursorAt valid first, first.pending⟩, stage.intent_forward,
        by cases stage <;> decide⟩
    · have untouched := dispatches.untouched valid
      have resolved : ordinaryActionsResolved plan = true := ordinaryActionsResolved_iff.mpr
        fun stage => RollbackAction.settled_iff.mpr (settled stage)
      cases boot : plan.boot with
      | pendingUnverifiable =>
        exact ⟨plan, .bootRepairRequired, .requireRepair dispatches settled boot, .keep,
          validateRollbackPhase_repairRequired.mpr ⟨resolved, boot⟩, rfl, by decide⟩
      | notRequired =>
        exact ⟨plan, .rollbackComplete, .finishWithoutBoot dispatches settled boot, .keep,
          validateRollbackPhase_rollbackComplete.mpr ⟨resolved, .inl boot⟩, rfl, by decide⟩
      | applied | alreadySatisfied | unverified =>
        rw [boot] at untouched
        cases untouched
  · obtain ⟨cursor, pending⟩ := validateRollbackPhase_intent.mp valid
    refine ⟨stage.record plan .applied, stage.completed, .finish .applied pending, .apply pending,
      validateRollbackPhase_completed.mpr ⟨⟨?_, ?_, ?_⟩, ?_⟩, stage.completed_forward,
      by cases stage <;> decide⟩
    · intro other earlier
      rw [stage.status_record, if_neg (by rintro rfl; exact Nat.lt_irrefl _ earlier)]
      exact cursor.earlier other earlier
    · intro other later
      rw [stage.status_record, if_neg (by rintro rfl; exact Nat.lt_irrefl _ later)]
      exact cursor.later other later
    · rw [stage.boot_record]
      exact cursor.boot
    · rw [stage.status_record, if_pos rfl]
      rfl
  · have started := validateRollbackPhase_repairRequired.mp valid
    exact ⟨plan, .bootRepairStarted, .startRepair, .keep,
      validateRollbackPhase_repairStarted.mpr started, rfl, by decide⟩
  · obtain ⟨resolved, boot⟩ := validateRollbackPhase_repairStarted.mp valid
    exact ⟨{ plan with boot := .unverified }, .bootRepairUnverified, .abandonRepair, .abandon boot,
      validateRollbackPhase_repairUnverified.mpr ⟨resolved, rfl⟩, rfl, by decide⟩
  · obtain ⟨resolved, repaired⟩ := validateRollbackPhase_repairComplete.mp valid
    exact ⟨plan, .rollbackComplete, .finishAfterRepair, .keep,
      validateRollbackPhase_rollbackComplete.mpr ⟨resolved, .inr repaired⟩, rfl, by decide⟩
  · rw [unblocked] at blocked
    cases blocked

/-- A decision plan which finds every possible effect already undone. -/
def satisfiedPlan (record : TransitionRecord) (source : ForwardPhase) : RollbackPlan :=
  let status (stage : RollbackStage) : RollbackAction :=
    if stage.possible record source then .alreadySatisfied else .notRequired
  { source := source
    previousArchive := status .previousArchive
    usrExchange := status .usrExchange
    candidate := ⟨status .candidate, record.candidateDispositionFor source⟩
    freshDb := status .freshDb
    boot := if source == .bootSyncStarted then .pendingUnverifiable else .notRequired
    externalEffectsMayRemain := record.externalEffectsPossible source }

theorem satisfiedPlan_status (stage : RollbackStage) : stage.status (satisfiedPlan record source) =
      if stage.possible record source then .alreadySatisfied else .notRequired := by
  cases stage <;> rfl

theorem satisfiedPlan_planValid : record.PlanValid (satisfiedPlan record source) where
  required stage := by
    rw [satisfiedPlan_status]
    change _ = stage.possible record source
    cases stage.possible record source <;> rfl
  boot := by
    simp only [satisfiedPlan]
    cases source == ForwardPhase.bootSyncStarted <;> rfl
  disposition := rfl
  effects := rfl

theorem satisfiedPlan_decided : validateRollbackPhase .rollbackDecided (satisfiedPlan record source) = .ok () := by
  refine validateRollbackPhase_decided.mpr ⟨fun stage => ?_, ?_⟩
  · rw [satisfiedPlan_status]
    split <;> decide
  · simp only [satisfiedPlan]
    split <;> rfl

theorem satisfiedPlan_repaired : (satisfiedPlan record source).boot.repaired = false := by
  simp only [satisfiedPlan]
  split <;> rfl

/-- An interrupted allocation needs no ID once the row is known to be absent. -/
theorem satisfiedPlan_validateCandidateLayout (accepted : record.validateCandidateLayout source = .ok ()) :
    { record with rollback := some (satisfiedPlan record source) }.validateCandidateLayout source = .ok () := by
  unfold validateCandidateLayout at accepted ⊢
  cases operation : record.operation <;> simp only [operation] at accepted ⊢ <;> try exact accepted
  cases source <;> try exact accepted
  simp [candidateIdRequired, satisfiedPlan, possible, operation, ForwardPhase.ordinal]

namespace TransitionRecord.Valid

/-- Past the boot synchronization every layout condition of the forward ladder
stays as it was. -/
theorem committedForward (valid : record.Valid) (counted : generation ≠ 0)
    (atPhase : record.phase = current.toPhase) (beyond : 15 ≤ current.ordinal)
    (committed : 16 ≤ target.ordinal) :
    { record with generation := generation, phase := target.toPhase }.Valid := { valid with
  v1Domain := by
    refine validateV1Domain_eq_ok.mpr fun legacy => ⟨target.toPhase_ne rfl, ?_⟩
    exact ((validateV1Domain_eq_ok.mp valid.v1Domain) legacy).2
  generation := counted
  layout := by
    have layout := valid.layoutPhase_of_forward atPhase
    refine ⟨target, layoutPhase_eq_ok.mpr (.inl ⟨rfl, valid.rollback_eq_none atPhase⟩),
      validateBootPublicationReceipts_congr layout.receipts rfl rfl rfl ?_, ?_, ?_⟩
    · simp only [ForwardPhase.ordinal] at beyond committed ⊢
      omega
    · cases target <;> first | exact absurd committed (by decide) | simp [validateOptionReachability]
    · have candidate := layout.candidate
      have demand : ∀ phase : ForwardPhase, 15 ≤ phase.ordinal → ∀ other : TransitionRecord,
          other.candidateIdRequired phase = some true := by
        intro phase late other
        cases phase <;> first | rfl | exact absurd late (by decide)
      unfold validateCandidateLayout at candidate ⊢
      rw [demand _ beyond] at candidate
      rw [demand _ (by omega)]
      exact candidate
  plan := by
    intro plan present
    have absent : record.rollback = some plan := present
    rw [valid.rollback_eq_none atPhase] at absent
    cases absent }

end TransitionRecord.Valid

theorem nextGeneration_ne_zero {next : UInt64} (counted : nextGeneration generation = some next) : next ≠ 0 := by
  rintro rfl
  have advanced := nextGeneration_toNat counted
  simp at advanced

section

variable (valid : record.Valid) (counted : nextGeneration record.generation = some generation)
include valid counted

theorem exists_decision (atPhase : record.phase = source.toPhase) (allowed : rollbackAllowed source = true) :
    Advance record { record with
      generation := generation, phase := .rollbackDecided,
      rollback := some (satisfiedPlan record source) } where
  expectedValid := valid
  nextValid := by
    have layout := valid.layoutPhase_of_forward atPhase
    exact valid.withPlan (nextGeneration_ne_zero counted) rfl allowed layout
      (satisfiedPlan_validateCandidateLayout layout.candidate) satisfiedPlan_planValid
      satisfiedPlan_decided (fun _ => ⟨by decide, satisfiedPlan_repaired⟩)
  unblocked := by
    rw [atPhase]
    cases source <;> first | rfl | cases allowed
  generation := counted
  same := by constructor <;> rfl
  receipts := .inl rfl
  phase := validatePhaseAdvance_decided atPhase allowed rfl rfl rfl
  candidateId := .inl rfl

theorem exists_commit (atPhase : record.phase = current.toPhase)
    (beyond : 15 ≤ current.ordinal) (committed : 16 ≤ target.ordinal)
    (follows : nextForwardPhase record current = some target) :
    Advance record { record with generation := generation, phase := target.toPhase } where
  expectedValid := valid
  nextValid := valid.committedForward (nextGeneration_ne_zero counted) atPhase beyond committed
  unblocked := by
    rw [atPhase]
    cases current <;> first | rfl | cases follows
  generation := counted
  same := by constructor <;> rfl
  receipts := .inl rfl
  phase := validatePhaseAdvance_forward atPhase follows rfl
  candidateId := .inl rfl

theorem exists_ladder (notForward : record.phase.forward = none) (unblocked : record.phase.blocksAdvance = false) :
    ∃ next, Advance record next ∧ next.phase.forward = none := by
  obtain ⟨plan, present, allowed, layout⟩ := valid.exists_plan notForward
  obtain ⟨contract, atPhase⟩ := valid.plan plan present
  obtain ⟨nextPlan, nextPhase, step, progress, entered, nextNotForward, notRepaired⟩ :=
    exists_rollbackStep notForward unblocked atPhase
  refine ⟨{ record with generation := generation, phase := nextPhase, rollback := some nextPlan },
    ⟨valid, ?_, unblocked, counted, by constructor <;> rfl, .inl rfl,
      validatePhaseAdvance_ladder notForward nextNotForward present rfl atPhase step, .inl rfl⟩,
    nextNotForward⟩
  have source := progress.source_eq
  refine valid.withPlan (nextGeneration_ne_zero counted) nextNotForward (source ▸ allowed) (source ▸ layout) ?_
    (progress.planValid (TransitionRecord.validateRollbackPlan_eq_ok.mp contract)) entered ?_
  · rw [source]
    exact progress.validateCandidateLayout present layout.candidate
  · intro legacy
    have domain := TransitionRecord.validateV1Domain_eq_ok.mp valid.v1Domain legacy
    exact ⟨notRepaired, progress.repaired_eq_false (domain.2 plan present)⟩

end

/-- The forward phases from which no rollback may be decided still have a
forward edge, and it leads into the commit. -/
theorem nextForwardPhase_of_not_allowed (record : TransitionRecord)
    (unfinished : current ≠ .complete) (refused : rollbackAllowed current = false) :
    ∃ target, nextForwardPhase record current = some target ∧ 15 ≤ current.ordinal ∧ 16 ≤ target.ordinal := by
  cases current <;> first | exact absurd rfl unfinished | cases refused
  · exact ⟨.commitDecided, rfl, by decide, by decide⟩
  · exact ⟨.commitCleanupComplete, rfl, by decide, by decide⟩
  · exact ⟨.complete, rfl, by decide, by decide⟩

/-- A forward record whose only forward edge enters boot synchronization in an
older payload version: nothing but a rollback decision can succeed it. -/
theorem Constructed.rollbackDecision_of_legacy {next : TransitionRecord}
    (constructed : Constructed record next) (legacy : record.version ≠ payloadVersion)
    (atPhase : record.phase = current.toPhase)
    (booting : nextForwardPhase record current = some .bootSyncStarted ∨
      nextForwardPhase record current = some .bootSyncComplete) :
    ∃ observations, record.rollbackDecision observations = .ok next := by
  have valid := (validateAdvance_eq_ok.mp constructed.admitted).expectedValid
  have planless := valid.rollback_eq_none atPhase
  cases constructed with
  | forward allocated built =>
    simp only [forwardSuccessor, bind_eq_ok, exists_check, okOr_eq_ok,
      refuse_eq_ok, atPhase, ForwardPhase.forward_toPhase, Option.some.injEq] at built
    obtain ⟨_, _, rfl, target, follows, notStarted, notComplete, _⟩ := built
    rcases booting with started | completed
    · exact absurd (Option.some.inj (follows.symm.trans started)) notStarted
    · exact absurd (Option.some.inj (follows.symm.trans completed)) notComplete
  | bootSyncStarted receipts built =>
    simp only [bootSyncStartedSuccessor, bind_eq_ok, exists_check, refuse_eq_ok] at built
    exact absurd legacy built.2.1
  | bootSyncComplete pair built =>
    simp only [bootSyncCompleteSuccessor, bind_eq_ok, exists_check, refuse_eq_ok] at built
    exact absurd legacy built.2.1
  | rollbackDecision observations built => exact ⟨observations, built⟩
  | rollback outcome built =>
    simp only [rollbackSuccessor, bind_eq_ok, exists_check, okOr_eq_ok, planless] at built
    obtain ⟨_, _, _, absent, _⟩ := built
    cases absent
  | bootRepairStarted built | bootRepairComplete _ built | bootRepairUnverified built
  | bootRepairRollbackComplete built =>
    -- Each of the repair constructors starts from a phase of the rollback.
    simp only [bootRepairStartedSuccessor,
      bootRepairCompleteSuccessor, bootRepairUnverifiedSuccessor,
      bootRepairRollbackCompleteSuccessor, bind_eq_ok, exists_check,
      refuse_eq_ok, not_not, atPhase] at built
    exact absurd built.2.1 (current.toPhase_ne rfl)

/-- No valid record short of a terminal phase is stuck: some typed constructor
succeeds on it. In the older payload versions the forward edge into boot
synchronization is refused, and there it is the rollback decision that succeeds. -/
theorem exists_constructed_successor {record : TransitionRecord}
    (valid : record.validate = .ok ()) (notComplete : record.phase ≠ .complete)
    (notRolledBack : record.phase ≠ .rollbackComplete)
    (notUnverified : record.phase ≠ .bootRepairUnverified)
    (below : record.generation.toNat < UInt64.size - 1) :
    (∃ next, Constructed record next) ∧
    ∀ current : ForwardPhase, record.version ≠ payloadVersion → record.phase = current.toPhase →
      nextForwardPhase record current = some .bootSyncStarted ∨
        nextForwardPhase record current = some .bootSyncComplete →
      (∃ observations next, record.rollbackDecision observations = .ok next) ∧
        ∀ next, Constructed record next → ∃ observations, record.rollbackDecision observations = .ok next := by
  have valid := TransitionRecord.validate_eq_ok.mp valid
  have counted : nextGeneration record.generation = some (record.generation + 1) :=
    nextGeneration_eq_some.mpr ⟨by omega, rfl⟩
  have unblocked : record.phase.blocksAdvance = false := by
    cases phase : record.phase <;> first | rfl | contradiction
  have successor : ∃ next, Constructed record next := by
    cases forward : record.phase.forward with
    | none =>
      obtain ⟨next, advance, nextNotForward⟩ := exists_ladder valid counted forward unblocked
      refine ⟨next, advance.constructed ?_⟩
      rintro (entered | entered) <;> rw [entered] at nextNotForward <;> cases nextNotForward
    | some current =>
      have atPhase := Phase.forward_eq_some.mp forward
      cases allowed : rollbackAllowed current with
      | true =>
        exact ⟨_, (exists_decision valid counted atPhase allowed).constructed
          (by rintro (started | completed) <;> contradiction)⟩
      | false =>
        have unfinished : current ≠ .complete := by
          rintro rfl
          exact notComplete atPhase
        obtain ⟨target, follows, beyond, committed⟩ := nextForwardPhase_of_not_allowed record unfinished allowed
        exact ⟨_, (exists_commit valid counted atPhase beyond committed follows).constructed
          (by rintro (started | completed) <;> cases target <;> contradiction)⟩
  refine ⟨successor, fun current legacy atPhase booting => ⟨?_, fun next constructed =>
    constructed.rollbackDecision_of_legacy legacy atPhase booting⟩⟩
  obtain ⟨next, constructed⟩ := successor
  obtain ⟨observations, built⟩ := constructed.rollbackDecision_of_legacy legacy atPhase booting
  exact ⟨observations, next, built⟩

theorem sampleRecord_exists_successor : ∃ next, Constructed (sampleRecord 1 .preparing none) next :=
  (@exists_constructed_successor (sampleRecord 1 .preparing none) rfl (by decide) (by decide) (by decide) (by decide)).1

end Cast.TransitionJournal
