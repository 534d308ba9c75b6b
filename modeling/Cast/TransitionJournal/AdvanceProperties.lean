import Cast.TransitionJournal.RollbackLadder

/-! What one accepted conditional advance can do. The check is read off once:
the two ends are valid, the data of the transition is the same on both, and the
phase took one step of the forward ladder, left it by a rollback decision, or
took one step of the rollback ladder. -/

namespace Cast.TransitionJournal

open Foundation RollbackStage

variable {plan nextPlan : RollbackPlan} {phase nextPhase : Phase} {stage : RollbackStage}

/-- Two records of one transition: everything that no advance may change. -/
@[mk_iff] structure SameTransition (left right : TransitionRecord) : Prop where
  format : left.format = right.format
  version : left.version = right.version
  transitionId : left.transitionId = right.transitionId
  creationEpoch : left.creationEpoch = right.creationEpoch
  operation : left.operation = right.operation
  previous : left.previous = right.previous
  options : left.options = right.options
  quarantineName : left.quarantineName = right.quarantineName
  candidateOrigin : left.candidate.origin = right.candidate.origin
  candidateToken : left.candidate.treeToken = right.candidate.treeToken
  candidateIdentity : left.candidate.usrRuntimeIdentity = right.candidate.usrRuntimeIdentity

namespace SameTransition

theorem refl (record : TransitionRecord) : SameTransition record record := by constructor <;> rfl

theorem trans {first second third : TransitionRecord} (left : SameTransition first second)
    (right : SameTransition second third) : SameTransition first third where
  format := left.format.trans right.format
  version := left.version.trans right.version
  transitionId := left.transitionId.trans right.transitionId
  creationEpoch := left.creationEpoch.trans right.creationEpoch
  operation := left.operation.trans right.operation
  previous := left.previous.trans right.previous
  options := left.options.trans right.options
  quarantineName := left.quarantineName.trans right.quarantineName
  candidateOrigin := left.candidateOrigin.trans right.candidateOrigin
  candidateToken := left.candidateToken.trans right.candidateToken
  candidateIdentity := left.candidateIdentity.trans right.candidateIdentity

theorem candidate_eq {left right : TransitionRecord} (same : SameTransition left right)
    {id : Option Int32} (sameId : right.candidate.id = id) :
    { left.candidate with id := id } = right.candidate := by
  rw [Candidate.mk.injEq]
  exact ⟨sameId.symm, same.candidateOrigin, same.candidateToken, same.candidateIdentity⟩

end SameTransition

/-- Everything the conditional-advance check requires, one field for each of
its checks or groups of checks. -/
@[mk_iff] structure Advance (expected next : TransitionRecord) : Prop where
  expectedValid : expected.Valid
  nextValid : next.Valid
  unblocked : expected.phase.blocksAdvance = false
  generation : nextGeneration expected.generation = some next.generation
  same : SameTransition expected next
  receipts : expected.bootPublicationReceipts = next.bootPublicationReceipts ∨ receiptEntry expected next = true
  phase : validatePhaseAdvance expected next = .ok ()
  candidateId : expected.candidate.id = next.candidate.id ∨ candidateIdIntroduced expected next = true

theorem validateAdvance_eq_ok {expected next : TransitionRecord} :
    validateAdvance expected next = .ok () ↔ Advance expected next := by
  simp only [validateAdvance, bind_eq_ok, exists_check, refuse_eq_ok, okOr_eq_ok,
    TransitionRecord.validate_eq_ok, not_or, not_and_or, not_not, Bool.not_eq_true,
    Bool.not_eq_false, advance_iff, sameTransition_iff, existsAndEq]
  -- The same conditions, in the order of the checks.
  tauto

theorem nextForwardPhase_eq_bootSyncComplete {record : TransitionRecord} {current : ForwardPhase}
    (follows : nextForwardPhase record current = some .bootSyncComplete) :
    current = .bootSyncStarted := by
  cases current <;>
    simp [nextForwardPhase, TransitionRecord.afterSystem, TransitionRecord.afterArchive] at follows ⊢ <;>
    split_ifs at follows <;> cases follows

/-- The phases after which the ladder dispatches to the next pending stage. -/
inductive Dispatches : Phase → Prop
  | decided : Dispatches .rollbackDecided
  | completed (stage : RollbackStage) : Dispatches stage.completed

/-- The edges of the rollback ladder, each with the plan it leaves. -/
inductive RollbackStep : RollbackPlan → Phase → RollbackPlan → Phase → Prop
  | enter {plan : RollbackPlan} {phase : Phase} {stage : RollbackStage}
      (dispatches : Dispatches phase) (first : FirstPending plan stage) :
      RollbackStep plan phase plan stage.intent
  | finish {plan : RollbackPlan} {stage : RollbackStage} (outcome : RollbackActionOutcome)
      (pending : stage.status plan = .pending) :
      RollbackStep plan stage.intent (stage.record plan outcome.toRollbackAction) stage.completed
  | requireRepair {plan : RollbackPlan} {phase : Phase} (dispatches : Dispatches phase)
      (settled : ∀ stage : RollbackStage, stage.status plan ≠ .pending)
      (boot : plan.boot = .pendingUnverifiable) :
      RollbackStep plan phase plan .bootRepairRequired
  | finishWithoutBoot {plan : RollbackPlan} {phase : Phase} (dispatches : Dispatches phase)
      (settled : ∀ stage : RollbackStage, stage.status plan ≠ .pending)
      (boot : plan.boot = .notRequired) :
      RollbackStep plan phase plan .rollbackComplete
  | startRepair {plan : RollbackPlan} : RollbackStep plan .bootRepairRequired plan .bootRepairStarted
  | completeRepair {plan : RollbackPlan} (outcome : BootRepairOutcome) :
      RollbackStep plan .bootRepairStarted { plan with boot := outcome.toBootRollback } .bootRepairComplete
  | abandonRepair {plan : RollbackPlan} :
      RollbackStep plan .bootRepairStarted { plan with boot := .unverified } .bootRepairUnverified
  | finishAfterRepair {plan : RollbackPlan} : RollbackStep plan .bootRepairComplete plan .rollbackComplete

/-- The three ways an accepted advance moves the phase. -/
inductive PhaseStep (expected next : TransitionRecord) : Prop
  | forward {current target : ForwardPhase} (atPhase : expected.phase = current.toPhase)
      (follows : nextForwardPhase expected current = some target)
      (entered : next.phase = target.toPhase)
  | decided {source : ForwardPhase} {plan : RollbackPlan}
      (atPhase : expected.phase = source.toPhase) (allowed : rollbackAllowed source = true)
      (entered : next.phase = .rollbackDecided) (planned : next.rollback = some plan)
      (fromSource : plan.source = source)
  | ladder {plan nextPlan : RollbackPlan} (present : expected.rollback = some plan)
      (planned : next.rollback = some nextPlan)
      (step : RollbackStep plan expected.phase nextPlan next.phase)

theorem validateActionAdvance_eq_ok {completed : Option Nat} {before after : RollbackAction}
    {index : Nat} : validateActionAdvance completed ((before, after), index) = .ok () ↔
      (completed = some index → before = .pending ∧ after.resolved = true) ∧
      (completed ≠ some index → before = after) := by
  by_cases selected : some index = completed
  · subst selected
    simp [validateActionAdvance]
  · simp [validateActionAdvance, selected, Ne.symm selected]

theorem validateRollbackPlanAdvance_eq_ok :
    validateRollbackPlanAdvance plan nextPlan phase nextPhase = .ok () ↔
      (plan.source = nextPlan.source ∧ plan.candidate.disposition = nextPlan.candidate.disposition ∧
        plan.externalEffectsMayRemain = nextPlan.externalEffectsMayRemain) ∧
      (∀ stage : RollbackStage, (completedAction phase nextPhase = some stage.index →
          stage.status plan = .pending ∧ (stage.status nextPlan).resolved = true) ∧
        (completedAction phase nextPhase ≠ some stage.index → stage.status plan = stage.status nextPlan)) ∧
      validateBootAdvance plan.boot nextPlan.boot phase nextPhase = true := by
  simp only [validateRollbackPlanAdvance, rollbackActions, List.zip_cons_cons, List.zip_nil_right,
    List.zipIdx_cons, List.zipIdx_nil, List.forM_eq_forM, List.forM_cons, List.forM_nil,
    bind_eq_ok, exists_check, refuse_eq_ok, not_or, not_not, Bool.not_eq_false,
    validateActionAdvance_eq_ok, forall_iff, RollbackStage.index,
    RollbackStage.status, pure_eq_ok, and_true, and_assoc, Nat.zero_add, Nat.reduceAdd]

theorem nextRollbackPhase_eq_some (follows : nextRollbackPhase plan phase = some nextPhase) :
    (Dispatches phase ∧ dispatchRollback plan = some nextPhase) ∨
    (∃ stage : RollbackStage, phase = stage.intent ∧ nextPhase = stage.completed) ∨
    (phase = .bootRepairRequired ∧ nextPhase = .bootRepairStarted) ∨
    (phase = .bootRepairStarted ∧ nextPhase = .bootRepairUnverified) ∨
    (phase = .bootRepairComplete ∧ nextPhase = .rollbackComplete) := by
  cases phase <;> simp only [nextRollbackPhase, Option.some.injEq, reduceCtorEq] at follows
  case rollbackDecided => exact .inl ⟨.decided, follows⟩
  case previousRestoredToStaging => exact .inl ⟨.completed .previousArchive, follows⟩
  case usrRestored => exact .inl ⟨.completed .usrExchange, follows⟩
  case candidatePreserved => exact .inl ⟨.completed .candidate, follows⟩
  case freshDbInvalidated => exact .inl ⟨.completed .freshDb, follows⟩
  case previousRestoreIntent => exact .inr (.inl ⟨.previousArchive, rfl, follows.symm⟩)
  case reverseExchangeIntent => exact .inr (.inl ⟨.usrExchange, rfl, follows.symm⟩)
  case candidatePreserveIntent => exact .inr (.inl ⟨.candidate, rfl, follows.symm⟩)
  case freshDbInvalidationIntent => exact .inr (.inl ⟨.freshDb, rfl, follows.symm⟩)
  all_goals simp [← follows]

theorem Phase.rollback_cases (notForward : phase.forward = none) :
    Dispatches phase ∨ (∃ stage : RollbackStage, phase = stage.intent) ∨
      phase = .bootRepairRequired ∨ phase = .bootRepairStarted ∨ phase = .bootRepairComplete ∨
      phase.blocksAdvance = true := by
  cases phase <;> simp only [Phase.forward, reduceCtorEq] at notForward
  case rollbackDecided => exact .inl .decided
  case previousRestoredToStaging => exact .inl (.completed .previousArchive)
  case usrRestored => exact .inl (.completed .usrExchange)
  case candidatePreserved => exact .inl (.completed .candidate)
  case freshDbInvalidated => exact .inl (.completed .freshDb)
  case previousRestoreIntent => exact .inr (.inl ⟨.previousArchive, rfl⟩)
  case reverseExchangeIntent => exact .inr (.inl ⟨.usrExchange, rfl⟩)
  case candidatePreserveIntent => exact .inr (.inl ⟨.candidate, rfl⟩)
  case freshDbInvalidationIntent => exact .inr (.inl ⟨.freshDb, rfl⟩)
  all_goals simp [Phase.blocksAdvance]

/-- Once a stage is completed, nothing at or before it is pending: dispatch goes on
strictly after it. -/
theorem FirstPending.index_lt {finished : RollbackStage} (first : FirstPending plan stage)
    (valid : validateRollbackPhase finished.completed plan = .ok ()) :
    finished.index < stage.index := by
  obtain ⟨cursor, resolved⟩ := validateRollbackPhase_completed.mp valid
  have pending := first.pending
  rcases Nat.lt_trichotomy finished.index stage.index with later | same | earlier
  · exact later
  · rw [index_injective same, pending] at resolved
    cases resolved
  · have settled := cursor.earlier stage earlier
    rw [pending] at settled
    cases settled

section

variable (dispatches : Dispatches phase)
include dispatches

theorem Dispatches.completedAction_eq_none (nextPhase : Phase) : completedAction phase nextPhase = none := by
  cases dispatches with
  | decided => rfl
  | completed stage => cases stage <;> rfl

theorem Dispatches.nextRollbackPhase_eq
    (plan : RollbackPlan) : nextRollbackPhase plan phase = dispatchRollback plan := by
  cases dispatches with
  | decided => rfl
  | completed stage => exact stage.nextRollbackPhase_completed plan

theorem Dispatches.notIntent : (rollbackActionPhase phase).any (fun entry => !entry.2) = false := by
  cases dispatches with
  | decided => rfl
  | completed stage => cases stage <;> rfl

theorem Dispatches.ordinary : ¬ (phase = .bootRepairRequired ∨ phase = .bootRepairStarted ∨
      phase = .bootRepairComplete) := by
  cases dispatches with
  | decided => decide
  | completed stage => cases stage <;> decide

/-- Entering the first pending stage keeps the cursor discipline. -/
theorem Dispatches.cursorAt (valid : validateRollbackPhase phase plan = .ok ())
    (first : FirstPending plan stage) : CursorAt plan stage := by
  have earlier := fun other below => RollbackAction.settled_iff.mpr (first.earlier other below)
  cases dispatches with
  | decided =>
    obtain ⟨unapplied, untouched⟩ := validateRollbackPhase_decided.mp valid
    exact ⟨earlier, fun other _ => unapplied other, untouched⟩
  | completed finished =>
    have after := first.index_lt valid
    obtain ⟨cursor, _⟩ := validateRollbackPhase_completed.mp valid
    exact ⟨earlier, fun other above => cursor.later other (Nat.lt_trans after above), cursor.boot⟩

theorem Dispatches.untouched (valid : validateRollbackPhase phase plan = .ok ()) :
    plan.boot.untouched = true := by
  cases dispatches with
  | decided => exact (validateRollbackPhase_decided.mp valid).2
  | completed finished => exact (validateRollbackPhase_completed.mp valid).1.boot

end

section

variable (accepted : validateRollbackPlanAdvance plan nextPlan phase nextPhase = .ok ())
include accepted

theorem boot_eq_of_advance (notRepairing : phase ≠ .bootRepairStarted) : plan.boot = nextPlan.boot := by
  obtain ⟨_, _, boot⟩ := validateRollbackPlanAdvance_eq_ok.mp accepted
  simpa [validateBootAdvance, notRepairing] using boot

/-- An edge that completes no ordinary action changes nothing but the boot status. -/
theorem plan_eq_of_advance (noAction : completedAction phase nextPhase = none) :
    nextPlan = { plan with boot := nextPlan.boot } := by
  obtain ⟨⟨source, disposition, effects⟩, statuses, _⟩ := validateRollbackPlanAdvance_eq_ok.mp accepted
  refine RollbackPlan.ext_stages source.symm (fun stage => ?_) disposition.symm rfl effects.symm
  have unchanged := (statuses stage).2 (by simp [noAction])
  rw [← unchanged]
  cases stage <;> rfl

theorem plan_eq_of_quiet_advance (noAction : completedAction phase nextPhase = none)
    (notRepairing : phase ≠ .bootRepairStarted) : nextPlan = plan := by
  rw [plan_eq_of_advance accepted noAction, ← boot_eq_of_advance accepted notRepairing]

end

theorem RollbackStage.completedAction_intent (stage : RollbackStage) :
    completedAction stage.intent stage.completed = some stage.index := by
  cases stage <;> rfl

theorem plan_eq_of_finish (accepted : validateRollbackPlanAdvance plan nextPlan stage.intent stage.completed = .ok ()) :
    stage.status plan = .pending ∧ ∃ outcome : RollbackActionOutcome,
      nextPlan = stage.record plan outcome.toRollbackAction := by
  have boot := boot_eq_of_advance accepted (by cases stage <;> decide)
  obtain ⟨⟨source, disposition, effects⟩, statuses, _⟩ := validateRollbackPlanAdvance_eq_ok.mp accepted
  obtain ⟨pending, resolved⟩ := (statuses stage).1 stage.completedAction_intent
  refine ⟨pending, ?_⟩
  obtain ⟨outcome, status⟩ : ∃ outcome : RollbackActionOutcome,
      stage.status nextPlan = outcome.toRollbackAction := by
    rcases RollbackAction.resolved_iff.mp resolved with applied | satisfied
    · exact ⟨.applied, applied⟩
    · exact ⟨.alreadySatisfied, satisfied⟩
  refine ⟨outcome, RollbackPlan.ext_stages ?_ (fun other => ?_) ?_ ?_ ?_⟩
  · rw [source_record, source]
  · rw [status_record]
    split
    · next same => rw [same, status]
    · next different =>
        refine ((statuses other).2 fun selected => different ?_).symm
        rw [completedAction_intent] at selected
        exact index_injective (Option.some.inj selected).symm
  · rw [disposition_record, disposition]
  · rw [boot_record, boot]
  · rw [effects_record, effects]

/-- Every edge the check accepts into a valid rollback record is an edge of the
ladder. -/
theorem rollbackStep_of_accepted (nextValid : validateRollbackPhase nextPhase nextPlan = .ok ())
    (follows : (phase = .bootRepairStarted ∧ nextPhase = .bootRepairComplete) ∨
      nextRollbackPhase plan phase = some nextPhase)
    (accepted : validateRollbackPlanAdvance plan nextPlan phase nextPhase = .ok ()) :
    RollbackStep plan phase nextPlan nextPhase := by
  rcases follows with ⟨rfl, rfl⟩ | follows
  · have same := plan_eq_of_advance accepted rfl
    obtain ⟨_, repaired⟩ := validateRollbackPhase_repairComplete.mp nextValid
    rw [same]
    cases boot : nextPlan.boot with
    | applied => exact .completeRepair .applied
    | alreadySatisfied => exact .completeRepair .alreadySatisfied
    | notRequired | pendingUnverifiable | unverified => simp [boot, BootRollback.repaired] at repaired
  rcases nextRollbackPhase_eq_some follows with ⟨dispatches, dispatched⟩ |
    ⟨stage, rfl, rfl⟩ | ⟨rfl, rfl⟩ | ⟨rfl, rfl⟩ | ⟨rfl, rfl⟩
  · obtain rfl := plan_eq_of_quiet_advance accepted (dispatches.completedAction_eq_none nextPhase)
      (fun repairing => dispatches.ordinary (.inr (.inl repairing)))
    rcases dispatchRollback_eq_some dispatched with ⟨stage, first, rfl⟩ | ⟨settled, ⟨boot, rfl⟩ | ⟨boot, rfl⟩⟩
    · exact .enter dispatches first
    · exact .requireRepair dispatches settled boot
    · exact .finishWithoutBoot dispatches settled boot
  · obtain ⟨pending, outcome, rfl⟩ := plan_eq_of_finish accepted
    exact .finish outcome pending
  · obtain rfl := plan_eq_of_quiet_advance accepted rfl (by decide)
    exact .startRepair
  · have same := plan_eq_of_advance accepted rfl
    obtain ⟨_, unverified⟩ := validateRollbackPhase_repairUnverified.mp nextValid
    rw [same, unverified]
    exact .abandonRepair
  · obtain rfl := plan_eq_of_quiet_advance accepted rfl (by decide)
    exact .finishAfterRepair

/-- An edge that completes no ordinary action may change the boot status only as
the boot check allows. -/
theorem validateRollbackPlanAdvance_withBoot {boot : BootRollback} (noAction : completedAction phase nextPhase = none)
    (accepted : validateBootAdvance plan.boot boot phase nextPhase = true) :
    validateRollbackPlanAdvance plan { plan with boot := boot } phase nextPhase = .ok () := by
  refine validateRollbackPlanAdvance_eq_ok.mpr ⟨⟨rfl, rfl, rfl⟩, fun stage => ⟨?_, ?_⟩, accepted⟩
  · intro completes
    rw [noAction] at completes
    cases completes
  · intro _
    cases stage <;> rfl

theorem validateBootAdvance_self (boot : BootRollback) (phase nextPhase : Phase) :
    validateBootAdvance boot boot phase nextPhase = true := by
  simp [validateBootAdvance]

theorem validateRollbackPlanAdvance_finish (outcome : RollbackActionOutcome) (pending : stage.status plan = .pending) :
    validateRollbackPlanAdvance plan (stage.record plan outcome.toRollbackAction) stage.intent
      stage.completed = .ok () := by
  refine validateRollbackPlanAdvance_eq_ok.mpr
    ⟨⟨(stage.source_record plan _).symm, (stage.disposition_record plan _).symm,
      (stage.effects_record plan _).symm⟩, fun other => ⟨?_, ?_⟩, ?_⟩
  · intro selected
    obtain rfl : other = stage := index_injective (Option.some.inj (selected.symm.trans stage.completedAction_intent))
    rw [status_record, if_pos rfl]
    exact ⟨pending, by cases outcome <;> rfl⟩
  · intro unselected
    rw [status_record, if_neg]
    rintro rfl
    exact unselected other.completedAction_intent
  · rw [boot_record]
    exact validateBootAdvance_self _ _ _

/-- The converse: every edge of the ladder out of a valid record meets the
plan-advance check. -/
theorem RollbackStep.accepted (step : RollbackStep plan phase nextPlan nextPhase)
    (valid : validateRollbackPhase phase plan = .ok ()) :
    ((phase = .bootRepairStarted ∧ nextPhase = .bootRepairComplete) ∨ nextRollbackPhase plan phase = some nextPhase) ∧
    validateRollbackPlanAdvance plan nextPlan phase nextPhase = .ok () := by
  have quiet : ∀ {target : Phase}, completedAction phase target = none →
      validateRollbackPlanAdvance plan plan phase target = .ok () :=
    fun noAction => validateRollbackPlanAdvance_withBoot noAction (validateBootAdvance_self _ _ _)
  cases step with
  | enter dispatches first =>
    exact ⟨.inr ((dispatches.nextRollbackPhase_eq plan).trans
      (dispatchRollback_firstPending first)), quiet (dispatches.completedAction_eq_none _)⟩
  | requireRepair dispatches settled boot | finishWithoutBoot dispatches settled boot =>
    refine ⟨.inr ?_, quiet (dispatches.completedAction_eq_none _)⟩
    rw [dispatches.nextRollbackPhase_eq, dispatchRollback_nonePending settled, boot]
    rfl
  | @finish stage outcome pending =>
    exact ⟨.inr (stage.nextRollbackPhase_intent plan), validateRollbackPlanAdvance_finish outcome pending⟩
  | startRepair | finishAfterRepair => exact ⟨.inr rfl, quiet rfl⟩
  | completeRepair outcome =>
    obtain ⟨_, boot⟩ := validateRollbackPhase_repairStarted.mp valid
    refine ⟨.inl ⟨rfl, rfl⟩, validateRollbackPlanAdvance_withBoot rfl ?_⟩
    rw [boot]
    cases outcome <;> rfl
  | abandonRepair =>
    obtain ⟨_, boot⟩ := validateRollbackPhase_repairStarted.mp valid
    refine ⟨.inr rfl, validateRollbackPlanAdvance_withBoot rfl ?_⟩
    rw [boot]
    rfl

variable {expected next : TransitionRecord}

theorem validatePhaseAdvance_forward {current target : ForwardPhase} (atPhase : expected.phase = current.toPhase)
    (follows : nextForwardPhase expected current = some target)
    (entered : next.phase = target.toPhase) : validatePhaseAdvance expected next = .ok () := by
  simp only [validatePhaseAdvance, atPhase, entered, ForwardPhase.forward_toPhase, bind_eq_ok,
    okOr_eq_ok, refuse_eq_ok, not_not]
  exact ⟨target, follows, rfl⟩

theorem validatePhaseAdvance_decided {source : ForwardPhase} (atPhase : expected.phase = source.toPhase)
    (allowed : rollbackAllowed source = true) (entered : next.phase = .rollbackDecided)
    (planned : next.rollback = some plan) (fromSource : plan.source = source) :
    validatePhaseAdvance expected next = .ok () := by
  have notForward : Phase.rollbackDecided.forward = none := rfl
  simp only [validatePhaseAdvance, atPhase, entered, ForwardPhase.forward_toPhase, notForward,
    refuse_eq_ok, allowed, planned, Option.map_some, fromSource]
  simp

theorem validatePhaseAdvance_ladder (notForward : expected.phase.forward = none)
    (nextNotForward : next.phase.forward = none) (present : expected.rollback = some plan)
    (planned : next.rollback = some nextPlan)
    (valid : validateRollbackPhase expected.phase plan = .ok ())
    (step : RollbackStep plan expected.phase nextPlan next.phase) :
    validatePhaseAdvance expected next = .ok () := by
  obtain ⟨follows, changed⟩ := step.accepted valid
  simp only [validatePhaseAdvance, notForward, nextNotForward, bind_eq_ok, exists_check, okOr_eq_ok, refuse_eq_ok]
  refine ⟨plan, present, nextPlan, planned, ?_, changed⟩
  rintro ⟨notRepair, diverted⟩
  exact follows.elim notRepair diverted

theorem Advance.step (advance : Advance expected next) : PhaseStep expected next := by
  have accepted := advance.phase
  unfold validatePhaseAdvance at accepted
  cases current : expected.phase.forward with
  | some source =>
    have atPhase := Phase.forward_eq_some.mp current
    cases entered : next.phase.forward with
    | some target =>
      simp only [current, entered, bind_eq_ok, okOr_eq_ok, refuse_eq_ok, not_not] at accepted
      obtain ⟨_, follows, rfl⟩ := accepted
      exact .forward atPhase follows (Phase.forward_eq_some.mp entered)
    | none =>
      simp only [current, entered, refuse_eq_ok, not_or, not_not, Bool.not_eq_false, Option.map_eq_some_iff] at accepted
      obtain ⟨decided, allowed, plan, planned, fromSource⟩ := accepted
      exact .decided atPhase allowed decided planned fromSource
  | none =>
    cases entered : next.phase.forward with
    | some target => simp [current, entered] at accepted
    | none =>
      simp only [current, entered, bind_eq_ok, okOr_eq_ok, exists_check, refuse_eq_ok,
        not_and_or, not_or, not_not] at accepted
      obtain ⟨plan, present, nextPlan, planned, follows, changed⟩ := accepted
      exact .ladder present planned (rollbackStep_of_accepted
        (advance.nextValid.plan nextPlan planned).2 follows changed)

end Cast.TransitionJournal
