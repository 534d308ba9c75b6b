import Cast.TransitionJournal.AdvanceProperties

/-! The typed successor constructors against the conditional-advance check. A
constructor's result is always admitted; conversely every field of an admitted
record is forced by the contract on both ends, so that one of the constructors
rebuilds it. -/

namespace Cast.TransitionJournal

open Foundation BootPublication TransitionRecord

variable {record next built : TransitionRecord} {layout current : ForwardPhase} {phase : Phase} {plan : RollbackPlan}

/-- `next` is a value that one of the typed successor constructors returns. -/
inductive Constructed (record next : TransitionRecord) : Prop
  | forward (allocated : Option Int32) (built : record.forwardSuccessor allocated = .ok next)
  | bootSyncStarted (receipts : ReceiptPair) (built : record.bootSyncStartedSuccessor receipts = .ok next)
  | bootSyncComplete (pair : ReceiptPair) (built : record.bootSyncCompleteSuccessor pair = .ok next)
  | rollbackDecision (observations : RollbackObservations) (built : record.rollbackDecision observations = .ok next)
  | rollback (outcome : Option RollbackActionOutcome) (built : record.rollbackSuccessor outcome = .ok next)
  | bootRepairStarted (built : record.bootRepairStartedSuccessor = .ok next)
  | bootRepairComplete (outcome : BootRepairOutcome) (built : record.bootRepairCompleteSuccessor outcome = .ok next)
  | bootRepairUnverified (built : record.bootRepairUnverifiedSuccessor = .ok next)
  | bootRepairRollbackComplete (built : record.bootRepairRollbackCompleteSuccessor = .ok next)

theorem TransitionRecord.submit_eq_ok :
    record.submit built = .ok next ↔ built = next ∧ validateAdvance record next = .ok () := by
  simp only [submit, bind_eq_ok, exists_check, pure_eq_ok]
  rw [and_comm]
  exact and_congr_right fun same => same ▸ Iff.rfl

/-- Whatever the program returns has passed the conditional-advance check. -/
def Submits (record : TransitionRecord) (program : Except CodecError TransitionRecord) : Prop :=
  ∀ next, program = .ok next → validateAdvance record next = .ok ()

theorem Submits.bind {α : Type} {step : Except CodecError α}
    {rest : α → Except CodecError TransitionRecord} (submits : ∀ value, Submits record (rest value)) :
    Submits record (step >>= rest) := by
  intro next built
  obtain ⟨value, _, returned⟩ := bind_eq_ok.mp built
  exact submits value next returned

theorem submits_submit : Submits record (record.submit built) := fun _ submitted => (submit_eq_ok.mp submitted).2

/-- The constructors differ in their checks, but each of them ends with the submission. -/
theorem Constructed.admitted (constructed : Constructed record next) : validateAdvance record next = .ok () := by
  rcases constructed with ⟨_, built⟩ | ⟨_, built⟩ | ⟨_, built⟩ | ⟨_, built⟩ | ⟨_, built⟩ | built |
    ⟨_, built⟩ | built | built
  all_goals
    refine (?_ : Submits record _) next built
    repeat first | exact submits_submit | refine .bind fun _ => ?_

namespace TransitionRecord

/-- The current payload version carries a receipt correlation from the start of boot
synchronization on. -/
theorem LayoutValid.exists_receipts (accepted : record.LayoutValid .bootSyncStarted)
    (version : record.version = payloadVersion) : ∃ receipts, record.bootPublicationReceipts = some receipts := by
  obtain ⟨receipts, reachable, _⟩ := accepted
  have notLegacy : ¬ (record.version = payloadVersionV1 ∨ record.version = payloadVersionV2) := by
    rw [version]
    decide
  simp only [validateOptionReachability, bind_eq_ok, exists_check, refuse_eq_ok] at reachable
  obtain ⟨_, _, _, _, enabled⟩ := reachable
  rw [validateBootPublicationReceipts, if_neg notLegacy] at receipts
  simp only [refuse_eq_ok, ne_eq, not_not] at receipts
  rw [← Option.isSome_iff_exists, receipts]
  simpa using enabled

end TransitionRecord

namespace Advance

section

variable (advance : Advance record next)
include advance

/-- The next record is its predecessor with the fields an advance may change, so that a
constructor that sets them submits it. -/
theorem submitted {rollback : Option RollbackPlan}
    {receipts : Option ReceiptPair} {candidate : Candidate} (entered : next.phase = phase)
    (planned : next.rollback = rollback) (correlated : next.bootPublicationReceipts = receipts)
    (recorded : next.candidate = candidate) : record.submit { record with
      generation := next.generation, phase := phase, rollback := rollback,
      bootPublicationReceipts := receipts, candidate := candidate } = .ok next := by
  subst entered planned correlated recorded
  have same := advance.same
  refine submit_eq_ok.mpr ⟨?_, validateAdvance_eq_ok.mpr advance⟩
  exact TransitionRecord.ext same.format same.version rfl same.transitionId same.creationEpoch
    same.operation rfl rfl rfl rfl same.previous same.options same.quarantineName

theorem rollback_eq {target : ForwardPhase} (atPhase : record.phase = current.toPhase)
    (entered : next.phase = target.toPhase) : next.rollback = record.rollback :=
  (advance.nextValid.rollback_eq_none entered).trans (advance.expectedValid.rollback_eq_none atPhase).symm

theorem receipts_eq (notStarted : next.phase ≠ .bootSyncStarted) :
    next.bootPublicationReceipts = record.bootPublicationReceipts := by
  rcases advance.receipts with same | entered
  · exact same.symm
  · simp [receiptEntry, notStarted] at entered

theorem candidate_eq (kept : record.phase ≠ .freshStateAllocating ∨
      (next.phase ≠ .freshStateAllocated ∧ next.phase ≠ .rollbackDecided) ∨
      record.candidate.id.isNone = false) :
    next.candidate = record.candidate := by
  have sameId : next.candidate.id = record.candidate.id := by
    rcases advance.candidateId with same | introduced
    · exact same.symm
    · rcases kept with otherSource | ⟨notAllocated, notDecided⟩ | present
      · simp [candidateIdIntroduced, otherSource] at introduced
      · simp [candidateIdIntroduced, notAllocated, notDecided] at introduced
      · simp [candidateIdIntroduced, present] at introduced
  exact (advance.same.candidate_eq sameId).symm

theorem bootSyncStarted_of_forward (version : record.version = payloadVersion)
    (atPhase : record.phase = current.toPhase)
    (follows : nextForwardPhase record current = some .bootSyncStarted)
    (entered : next.phase = ForwardPhase.bootSyncStarted.toPhase) : Constructed record next := by
  have layout := advance.nextValid.layoutPhase_of_forward entered
  obtain ⟨receipts, correlated⟩ := layout.exists_receipts (advance.same.version ▸ version)
  have candidate := advance.candidate_eq (.inr (.inl (by simp [entered, ForwardPhase.toPhase])))
  refine .bootSyncStarted receipts ?_
  simp only [bootSyncStartedSuccessor, bind_eq_ok, exists_check, okOr_eq_ok, refuse_eq_ok, not_not, validate_eq_ok]
  exact ⟨advance.expectedValid, version, current, Phase.forward_eq_some.mpr atPhase, follows,
    next.generation, advance.generation,
    advance.submitted entered (advance.rollback_eq atPhase entered) correlated candidate⟩

theorem bootSyncComplete_of_forward (version : record.version = payloadVersion)
    (atPhase : record.phase = ForwardPhase.bootSyncStarted.toPhase)
    (entered : next.phase = ForwardPhase.bootSyncComplete.toPhase) : Constructed record next := by
  obtain ⟨pair, correlated⟩ := (advance.expectedValid.layoutPhase_of_forward atPhase).exists_receipts version
  have receipts := advance.receipts_eq (by simp [entered, ForwardPhase.toPhase])
  have candidate := advance.candidate_eq (.inl (by simp [atPhase, ForwardPhase.toPhase]))
  refine .bootSyncComplete pair ?_
  simp only [bootSyncCompleteSuccessor, bind_eq_ok, exists_check, okOr_eq_ok, refuse_eq_ok, not_not, validate_eq_ok]
  exact ⟨advance.expectedValid, version, atPhase, correlated, next.generation, advance.generation,
    advance.submitted entered (advance.rollback_eq atPhase entered) receipts candidate⟩

/-- Every other forward edge: only the end of an allocation takes an argument. -/
theorem forward_of_forward {target : ForwardPhase} (atPhase : record.phase = current.toPhase)
    (follows : nextForwardPhase record current = some target)
    (entered : next.phase = target.toPhase) (notStarted : target ≠ .bootSyncStarted)
    (notComplete : target ≠ .bootSyncComplete) : Constructed record next := by
  have receipts := advance.receipts_eq (fun started =>
    notStarted (ForwardPhase.toPhase_injective (entered.symm.trans started)))
  have build : ∀ allocated candidate, next.candidate = candidate →
      ((current == .freshStateAllocating && target == .freshStateAllocated) = false → allocated = none) →
      candidate = (if current == .freshStateAllocating && target == .freshStateAllocated then
        { record.candidate with id := allocated } else record.candidate) →
      record.forwardSuccessor allocated = .ok next := by
    rintro allocated candidate recorded unallocated rfl
    simp only [forwardSuccessor, bind_eq_ok, exists_check, okOr_eq_ok, refuse_eq_ok, validate_eq_ok]
    refine ⟨advance.expectedValid, current, Phase.forward_eq_some.mpr atPhase, target, follows,
      notStarted, notComplete, ?_, next.generation, advance.generation,
      advance.submitted entered (advance.rollback_eq atPhase entered) receipts recorded⟩
    rintro ⟨notAllocation, given⟩
    rw [unallocated notAllocation] at given
    cases given
  by_cases allocation : current = .freshStateAllocating
  · subst allocation
    obtain rfl : target = .freshStateAllocated := (Option.some.inj follows).symm
    exact .forward next.candidate.id (build _ _ rfl (fun absurdity => by cases absurdity)
      (advance.same.candidate_eq rfl).symm)
  · have candidate := advance.candidate_eq (.inl fun allocating =>
      allocation (ForwardPhase.toPhase_injective (atPhase.symm.trans allocating)))
    refine .forward none (build none _ candidate (fun _ => rfl) ?_)
    simp [allocation]

end

/-- The observation behind an initial status. -/
private def observationOf : RollbackAction → Option InitialRollbackAction
  | .pending => some .pending
  | .alreadySatisfied => some .alreadySatisfied
  | .notRequired | .applied => none

private theorem observedInitialAction_observationOf (name : String) {possible : Bool}
    {action : RollbackAction} (required : action.required = possible)
    (unapplied : action ≠ .applied) :
    observedInitialAction name possible (observationOf action) = .ok action := by
  subst required
  cases action <;> first | rfl | exact absurd rfl unapplied

private theorem exists_initialAction {action : RollbackAction} (required : action.required = true)
    (unapplied : action ≠ .applied) :
    ∃ initial : InitialRollbackAction, action = initial.toRollbackAction := by
  cases action with
  | pending => exact ⟨.pending, rfl⟩
  | alreadySatisfied => exact ⟨.alreadySatisfied, rfl⟩
  | notRequired => cases required
  | applied => exact absurd rfl unapplied

private theorem boot_eq_of_untouched {possible : Bool} {boot : BootRollback}
    (accepted : bootRollbackAccepted possible boot = true) (untouched : boot.untouched = true) :
    boot = if possible then .pendingUnverifiable else .notRequired := by
  cases possible <;> cases boot <;> simp_all [bootRollbackAccepted, BootRollback.untouched]

section

variable (advance : Advance record next)
include advance

/-- The ID a rollback decision may have to record: one allocated by the
interrupted step and not yet in the journal. -/
private theorem exists_allocated  : ∃ allocated : Option Int32,
      ¬ (record.candidate.id.isSome = true ∧ allocated.isSome = true) ∧
      next.candidate = if record.candidate.id.isNone then
        { record.candidate with id := allocated } else record.candidate := by
  cases present : record.candidate.id with
  | none => exact ⟨next.candidate.id, by simp, (advance.same.candidate_eq rfl).symm⟩
  | some id => exact ⟨none, by simp, advance.candidate_eq (.inr (.inr (by simp [present])))⟩

theorem rollbackDecision_of_decided {source : ForwardPhase} (atPhase : record.phase = source.toPhase)
    (allowed : rollbackAllowed source = true) (entered : next.phase = .rollbackDecided)
    (planned : next.rollback = some plan) (fromSource : plan.source = source) :
    Constructed record next := by
  subst fromSource
  obtain ⟨accepted, phase⟩ := advance.nextValid.plan plan planned
  have contract : record.PlanValid plan :=
    (validateRollbackPlan_eq_ok.mp accepted).congr advance.same.operation.symm advance.same.options.symm
  rw [entered] at phase
  obtain ⟨unapplied, untouched⟩ := validateRollbackPhase_decided.mp phase
  have observed := fun (name : String) (stage : RollbackStage) =>
    observedInitialAction_observationOf name (contract.required stage) (unapplied stage)
  obtain ⟨initial, candidate⟩ := exists_initialAction (contract.required .candidate) (unapplied .candidate)
  have boot := boot_eq_of_untouched contract.boot untouched
  obtain ⟨allocated, exclusive, recorded⟩ := advance.exists_allocated
  refine .rollbackDecision ⟨allocated, observationOf plan.previousArchive,
    observationOf plan.usrExchange, initial, observationOf plan.freshDb⟩ ?_
  simp only [rollbackDecision, bind_eq_ok, exists_check, okOr_eq_ok, refuse_eq_ok, Bool.not_eq_false, validate_eq_ok]
  refine ⟨advance.expectedValid, plan.source, Phase.forward_eq_some.mpr atPhase, allowed,
    next.generation, advance.generation, exclusive,
    plan.previousArchive, observed _ .previousArchive, plan.usrExchange, observed _ .usrExchange,
    plan.freshDb, observed _ .freshDb,
    advance.submitted entered (planned.trans ?_) (advance.receipts_eq (by simp [entered])) recorded⟩
  -- Every field of the plan is either observed above or fixed by the plan contract.
  have effects := contract.effects
  have disposition := contract.disposition
  simp only [externalEffectsPossible] at effects
  simp only [RollbackStage.status] at candidate
  rcases plan with ⟨_, _, _, ⟨_, _⟩, _, _, _⟩
  simp_all

/-- A step of the ladder that goes through the ordinary constructor. -/
private theorem rollbackSuccessor_of_step {plan nextPlan : RollbackPlan} {outcome : Option RollbackActionOutcome}
    (present : record.rollback = some plan) (planned : next.rollback = some nextPlan)
    (ordinary : ¬ (record.phase = .bootRepairRequired ∨ record.phase = .bootRepairStarted ∨
      record.phase = .bootRepairComplete))
    (follows : nextRollbackPhase plan record.phase = some next.phase)
    (completion : ((rollbackActionPhase record.phase).any (fun entry => !entry.2) &&
      (rollbackActionPhase next.phase).any (fun entry => entry.2)) = outcome.isSome)
    (recorded : recordOutcome plan outcome record.phase next.phase = .ok nextPlan)
    (receipts : next.bootPublicationReceipts = record.bootPublicationReceipts)
    (candidate : next.candidate = record.candidate) :
    record.rollbackSuccessor outcome = .ok next := by
  simp only [rollbackSuccessor, bind_eq_ok, exists_check, okOr_eq_ok, refuse_eq_ok, not_not, validate_eq_ok]
  exact ⟨advance.expectedValid, ordinary, plan, present, next.phase, follows, completion,
    next.generation, advance.generation, nextPlan, recorded,
    advance.submitted rfl planned receipts candidate⟩

theorem constructed_of_ladder {nextPlan : RollbackPlan} {nextPhase : Phase} (present : record.rollback = some plan)
    (planned : next.rollback = some nextPlan) (atPhase : record.phase = phase)
    (entered : next.phase = nextPhase) (step : RollbackStep plan phase nextPlan nextPhase) :
    Constructed record next := by
  have valid := advance.expectedValid
  have notForward := valid.notForward_of_plan present
  have nextNotForward := advance.nextValid.notForward_of_plan planned
  have receipts := advance.receipts_eq (fun started => by simp [started, Phase.forward] at nextNotForward)
  have candidate := advance.candidate_eq (.inl fun allocating => by simp [allocating, Phase.forward] at notForward)
  have routed : nextPlan = plan → Dispatches phase → dispatchRollback plan = some nextPhase →
      Constructed record next := by
    rintro rfl dispatches dispatched
    refine .rollback none (advance.rollbackSuccessor_of_step present planned ?_ ?_ ?_ rfl
      receipts candidate) <;> rw [atPhase]
    · exact dispatches.ordinary
    · rw [entered, dispatches.nextRollbackPhase_eq, dispatched]
    · rw [dispatches.notIntent]
      rfl
  cases step with
  | enter dispatches first => exact routed rfl dispatches (dispatchRollback_firstPending first)
  | requireRepair dispatches settled boot | finishWithoutBoot dispatches settled boot =>
    exact routed rfl dispatches (by rw [dispatchRollback_nonePending settled, boot]; rfl)
  | @finish stage outcome pending =>
    refine .rollback (some outcome) (advance.rollbackSuccessor_of_step present planned ?_ ?_ ?_
      ?_ receipts candidate) <;> rw [atPhase]
    · cases stage <;> decide
    · rw [entered, RollbackStage.nextRollbackPhase_intent]
    · rw [entered]
      cases stage <;> rfl
    · rw [entered]
      cases stage <;> rfl
  | startRepair =>
    refine .bootRepairStarted ?_
    simp only [bootRepairStartedSuccessor, bind_eq_ok, exists_check, okOr_eq_ok, refuse_eq_ok, not_not, validate_eq_ok]
    exact ⟨valid, atPhase, next.generation, advance.generation,
      advance.submitted entered (planned.trans present.symm) receipts candidate⟩
  | completeRepair outcome =>
    refine .bootRepairComplete outcome ?_
    simp only [bootRepairCompleteSuccessor, bind_eq_ok, exists_check, okOr_eq_ok, refuse_eq_ok, not_not, validate_eq_ok]
    exact ⟨valid, atPhase, next.generation, advance.generation, plan, present,
      advance.submitted entered planned receipts candidate⟩
  | abandonRepair =>
    refine .bootRepairUnverified ?_
    simp only [bootRepairUnverifiedSuccessor, bind_eq_ok, exists_check,
      okOr_eq_ok, refuse_eq_ok, not_not, validate_eq_ok]
    exact ⟨valid, atPhase, next.generation, advance.generation, plan, present,
      advance.submitted entered planned receipts candidate⟩
  | finishAfterRepair =>
    refine .bootRepairRollbackComplete ?_
    simp only [bootRepairRollbackCompleteSuccessor, bind_eq_ok, exists_check,
      okOr_eq_ok, refuse_eq_ok, not_not, validate_eq_ok]
    exact ⟨valid, atPhase, next.generation, advance.generation,
      advance.submitted entered (planned.trans present.symm) receipts candidate⟩

/-- Every admitted record is constructed, provided that entering a boot
synchronization phase happens in the current payload version: the two
constructors for those phases refuse the older ones. -/
theorem constructed (current : next.phase = .bootSyncStarted ∨ next.phase = .bootSyncComplete →
      record.version = payloadVersion) : Constructed record next := by
  cases advance.step with
  | @forward source target atPhase follows entered =>
    by_cases started : target = .bootSyncStarted
    · subst started
      exact advance.bootSyncStarted_of_forward (current (.inl entered)) atPhase follows entered
    · by_cases completed : target = .bootSyncComplete
      · subst completed
        obtain rfl := nextForwardPhase_eq_bootSyncComplete follows
        exact advance.bootSyncComplete_of_forward (current (.inr entered)) atPhase entered
      · exact advance.forward_of_forward atPhase follows entered started completed
  | decided atPhase allowed entered planned fromSource =>
    exact advance.rollbackDecision_of_decided atPhase allowed entered planned fromSource
  | ladder present planned step => exact advance.constructed_of_ladder present planned rfl rfl step

end

end Advance

/-- On records of the current payload version the conditional-advance check and
the typed constructors define the same one-step relation. -/
theorem validateAdvance_iff_constructed {record next : TransitionRecord} (version : record.version = payloadVersion) :
    validateAdvance record next = .ok () ↔ Constructed record next :=
  ⟨fun admitted => (validateAdvance_eq_ok.mp admitted).constructed fun _ => version, Constructed.admitted⟩

/-- A new state over an empty previous tree, at any point of its run. -/
def sampleRecord (generation : UInt64) (phase : Phase) (rollback : Option RollbackPlan) : TransitionRecord where
  format := payloadFormat
  version := payloadVersion
  generation := generation
  transitionId := ⟨"0123456789abcdef0123456789abcdef", by decide⟩
  creationEpoch := ⟨⟨"01234567-89ab-cdef-0123-456789abcdef"⟩, ⟨4, 5⟩⟩
  operation := .newState
  phase := phase
  rollback := rollback
  bootPublicationReceipts := none
  candidate := ⟨none, .fresh, ⟨"11111111111111111111111111111111"⟩, ⟨1, 10, 3⟩⟩
  previous := ⟨none, ⟨"22222222222222222222222222222222"⟩, ⟨1, 11, 3⟩, .synthesizedEmpty⟩
  options := ⟨false, false, false⟩
  quarantineName := ⟨"failed-candidate", by decide⟩

/-- The plan of that run when it is abandoned while still preparing. -/
def samplePlan (candidate : RollbackAction) : RollbackPlan where
  source := .preparing
  previousArchive := .notRequired
  usrExchange := .notRequired
  candidate := ⟨candidate, .quarantine⟩
  freshDb := .notRequired
  boot := .notRequired
  externalEffectsMayRemain := false

theorem sampleRecord_decision_constructed : (sampleRecord 1 .preparing none).version = payloadVersion ∧
      Constructed (sampleRecord 1 .preparing none) (sampleRecord 2 .rollbackDecided (some (samplePlan .pending))) :=
  ⟨rfl, (validateAdvance_iff_constructed rfl).mp rfl⟩

end Cast.TransitionJournal
