import Mathlib.Order.WellFounded
import Cast.TransitionJournal.ValidationProperties

/-! The rollback ladder seen stage by stage. Validation and dispatch index the
four ordinary actions by position; here each position is a named stage with its
intent and completion phase, and every validator of the ladder is read off as a
statement about stages. -/

namespace Cast.TransitionJournal

open Foundation

variable {plan : RollbackPlan}

/-- The ordinary recovery actions in their fixed order. -/
inductive RollbackStage where
  | previousArchive
  | usrExchange
  | candidate
  | freshDb
deriving DecidableEq

namespace RollbackStage

def index : RollbackStage → Nat
  | .previousArchive => 0
  | .usrExchange => 1
  | .candidate => 2
  | .freshDb => 3

def intent : RollbackStage → Phase
  | .previousArchive => .previousRestoreIntent
  | .usrExchange => .reverseExchangeIntent
  | .candidate => .candidatePreserveIntent
  | .freshDb => .freshDbInvalidationIntent

def completed : RollbackStage → Phase
  | .previousArchive => .previousRestoredToStaging
  | .usrExchange => .usrRestored
  | .candidate => .candidatePreserved
  | .freshDb => .freshDbInvalidated

def status (plan : RollbackPlan) : RollbackStage → RollbackAction
  | .previousArchive => plan.previousArchive
  | .usrExchange => plan.usrExchange
  | .candidate => plan.candidate.action
  | .freshDb => plan.freshDb

def record (plan : RollbackPlan) (action : RollbackAction) : RollbackStage → RollbackPlan
  | .previousArchive => { plan with previousArchive := action }
  | .usrExchange => { plan with usrExchange := action }
  | .candidate => { plan with candidate := { plan.candidate with action := action } }
  | .freshDb => { plan with freshDb := action }

theorem forall_iff {property : RollbackStage → Prop} : (∀ stage, property stage) ↔
    property .previousArchive ∧ property .usrExchange ∧ property .candidate ∧ property .freshDb := by
  constructor
  · intro held
    exact ⟨held _, held _, held _, held _⟩
  · rintro ⟨previousArchive, usrExchange, candidate, freshDb⟩ stage
    cases stage <;> assumption

theorem index_injective {left right : RollbackStage} (same : left.index = right.index) :
    left = right := by
  cases left <;> cases right <;> first | rfl | cases same

@[simp] theorem status_record (plan : RollbackPlan) (action : RollbackAction) (stage other : RollbackStage) :
    other.status (stage.record plan action) = if other = stage then action else other.status plan := by
  cases stage <;> cases other <;> rfl

section

variable (stage : RollbackStage) (plan : RollbackPlan) (action : RollbackAction)

@[simp] theorem source_record : (stage.record plan action).source = plan.source := by
  cases stage <;> rfl

@[simp] theorem boot_record : (stage.record plan action).boot = plan.boot := by
  cases stage <;> rfl

theorem disposition_record : (stage.record plan action).candidate.disposition = plan.candidate.disposition := by
  cases stage <;> rfl

theorem effects_record : (stage.record plan action).externalEffectsMayRemain = plan.externalEffectsMayRemain := by
  cases stage <;> rfl

@[simp] theorem intent_forward : stage.intent.forward = none := by cases stage <;> rfl

@[simp] theorem completed_forward : stage.completed.forward = none := by cases stage <;> rfl

@[simp] theorem nextRollbackPhase_intent : nextRollbackPhase plan stage.intent = some stage.completed := by
  cases stage <;> rfl

@[simp] theorem nextRollbackPhase_completed : nextRollbackPhase plan stage.completed = dispatchRollback plan := by
  cases stage <;> rfl

end

end RollbackStage

theorem RollbackPlan.ext_stages {left right : RollbackPlan} (source : left.source = right.source)
    (statuses : ∀ stage : RollbackStage, stage.status left = stage.status right)
    (disposition : left.candidate.disposition = right.candidate.disposition)
    (boot : left.boot = right.boot)
    (effects : left.externalEffectsMayRemain = right.externalEffectsMayRemain) :
    left = right := by
  rcases left with ⟨_, _, _, ⟨_, _⟩, _, _, _⟩
  rcases right with ⟨_, _, _, ⟨_, _⟩, _, _, _⟩
  simp only [RollbackStage.forall_iff, RollbackStage.status] at statuses
  simp_all

/-- Stages strictly before `stage` are settled, those strictly after it were not
applied: the cursor discipline shared by both phases of a stage. -/
@[mk_iff] structure CursorAt (plan : RollbackPlan) (stage : RollbackStage) : Prop where
  earlier : ∀ other : RollbackStage, other.index < stage.index → (other.status plan).settled = true
  later : ∀ other : RollbackStage, stage.index < other.index → other.status plan ≠ .applied
  boot : plan.boot.untouched = true

variable {stage : RollbackStage}

theorem matchesActionPhase_iff {completed : Bool} : matchesActionPhase plan stage.index completed = true ↔
      CursorAt plan stage ∧ (if completed then (stage.status plan).resolved else stage.status plan == .pending) = true := by
  cases stage <;>
    simp [cursorAt_iff, RollbackStage.forall_iff, RollbackStage.index, RollbackStage.status, matchesActionPhase,
      rollbackActions] <;>
    tauto

theorem validateRollbackPhase_intent : validateRollbackPhase stage.intent plan = .ok () ↔
      CursorAt plan stage ∧ stage.status plan = .pending := by
  have checked : validateRollbackPhase stage.intent plan =
      refuse (matchesActionPhase plan stage.index false = false) (.rollbackPlanPhaseMismatch stage.intent) := by
    cases stage <;> rfl
  rw [checked, refuse_eq_ok, Bool.not_eq_false, matchesActionPhase_iff]
  exact and_congr_right fun _ => beq_iff_eq

theorem validateRollbackPhase_completed : validateRollbackPhase stage.completed plan = .ok () ↔
      CursorAt plan stage ∧ (stage.status plan).resolved = true := by
  have checked : validateRollbackPhase stage.completed plan =
      refuse (matchesActionPhase plan stage.index true = false) (.rollbackPlanPhaseMismatch stage.completed) := by
    cases stage <;> rfl
  rw [checked, refuse_eq_ok, Bool.not_eq_false, matchesActionPhase_iff]
  rfl

theorem ordinaryActionsResolved_iff : ordinaryActionsResolved plan = true ↔
      ∀ stage : RollbackStage, (stage.status plan).settled = true := by
  simp [ordinaryActionsResolved, rollbackActions, RollbackStage.forall_iff, RollbackStage.status]

theorem validateRollbackPhase_decided : validateRollbackPhase .rollbackDecided plan = .ok () ↔
      (∀ stage : RollbackStage, stage.status plan ≠ .applied) ∧ plan.boot.untouched = true := by
  refine refuse_eq_ok.trans ?_
  simp [rollbackActions, RollbackStage.forall_iff, RollbackStage.status, and_assoc]

theorem validateRollbackPhase_repairRequired : validateRollbackPhase .bootRepairRequired plan = .ok () ↔
      ordinaryActionsResolved plan = true ∧ plan.boot = .pendingUnverifiable := by
  refine refuse_eq_ok.trans ?_
  simp

theorem validateRollbackPhase_repairStarted : validateRollbackPhase .bootRepairStarted plan = .ok () ↔
      ordinaryActionsResolved plan = true ∧ plan.boot = .pendingUnverifiable := by
  refine refuse_eq_ok.trans ?_
  simp

theorem validateRollbackPhase_repairComplete : validateRollbackPhase .bootRepairComplete plan = .ok () ↔
      ordinaryActionsResolved plan = true ∧ plan.boot.repaired = true := by
  refine refuse_eq_ok.trans ?_
  simp

theorem validateRollbackPhase_repairUnverified : validateRollbackPhase .bootRepairUnverified plan = .ok () ↔
      ordinaryActionsResolved plan = true ∧ plan.boot = .unverified := by
  refine refuse_eq_ok.trans ?_
  simp

theorem validateRollbackPhase_rollbackComplete : validateRollbackPhase .rollbackComplete plan = .ok () ↔
      ordinaryActionsResolved plan = true ∧ (plan.boot = .notRequired ∨ plan.boot.repaired = true) := by
  refine refuse_eq_ok.trans ?_
  simp [or_iff_not_imp_left]

variable {action : RollbackAction}

theorem RollbackAction.settled_iff : action.settled = true ↔ action ≠ .pending := by cases action <;> decide

theorem RollbackAction.resolved_iff :
    action.resolved = true ↔ action = .applied ∨ action = .alreadySatisfied := by
  cases action <;> decide

theorem RollbackAction.required_iff : action.required = true ↔ action ≠ .notRequired := by
  cases action <;> decide

/-- The stage dispatch enters: pending, with nothing pending before it. -/
structure FirstPending (plan : RollbackPlan) (stage : RollbackStage) : Prop where
  pending : stage.status plan = .pending
  earlier : ∀ other : RollbackStage, other.index < stage.index → other.status plan ≠ .pending

theorem firstPending_or_nonePending (plan : RollbackPlan) :
    (∃ stage, FirstPending plan stage) ∨ ∀ stage : RollbackStage, stage.status plan ≠ .pending := by
  by_cases settled : ∀ stage : RollbackStage, stage.status plan ≠ .pending
  · exact .inr settled
  · simp only [not_forall, not_not] at settled
    obtain ⟨stage, pending, least⟩ :=
      (measure RollbackStage.index).wf.has_min {stage | stage.status plan = .pending} settled
    exact .inl ⟨stage, pending, fun other earlier isPending => least other isPending earlier⟩

theorem dispatchRollback_firstPending
    (first : FirstPending plan stage) : dispatchRollback plan = some stage.intent := by
  obtain ⟨pending, earlier⟩ := first
  simp only [RollbackStage.forall_iff, ne_eq, ← beq_eq_false_iff_ne] at earlier
  cases stage <;>
    simp_all [dispatchRollback, rollbackActions, RollbackStage.status, RollbackStage.index,
      RollbackStage.intent, List.find?, -beq_eq_false_iff_ne]

theorem dispatchRollback_nonePending (settled : ∀ stage : RollbackStage, stage.status plan ≠ .pending) :
    dispatchRollback plan = plan.boot.route := by
  simp only [RollbackStage.forall_iff, RollbackStage.status, ne_eq, ← beq_eq_false_iff_ne] at settled
  simp only [dispatchRollback, rollbackActions, List.zip_cons_cons, List.zip_nil_right, List.find?, settled]

/-- Dispatch enters the first pending stage, and once none is pending it turns
to the boot status. -/
theorem dispatchRollback_eq_some {next : Phase} (dispatched : dispatchRollback plan = some next) :
    (∃ stage, FirstPending plan stage ∧ next = stage.intent) ∨
    ((∀ stage : RollbackStage, stage.status plan ≠ .pending) ∧
      ((plan.boot = .pendingUnverifiable ∧ next = .bootRepairRequired) ∨
        (plan.boot = .notRequired ∧ next = .rollbackComplete))) := by
  rcases firstPending_or_nonePending plan with ⟨stage, first⟩ | settled
  · rw [dispatchRollback_firstPending first] at dispatched
    exact .inl ⟨stage, first, (Option.some.inj dispatched).symm⟩
  · rw [dispatchRollback_nonePending settled] at dispatched
    refine .inr ⟨settled, ?_⟩
    cases boot : plan.boot <;> simp_all [BootRollback.route]

/-- Whether a stage's effect may have happened before the run left the forward
ladder at `source`, so that its reversal is required. -/
def RollbackStage.possible (record : TransitionRecord) (source : ForwardPhase) : RollbackStage → Bool
  | .previousArchive => record.options.archivePrevious &&
      decide (source.ordinal ≥ ForwardPhase.previousArchiveIntent.ordinal)
  | .usrExchange => decide (source.ordinal ≥ ForwardPhase.usrExchangeIntent.ordinal)
  | .candidate => true
  | .freshDb => record.operation == .newState &&
      decide (source.ordinal ≥ ForwardPhase.freshStateAllocating.ordinal)

namespace TransitionRecord

/-- Whether triggers or boot publication may have acted outside the journal's reach. -/
def externalEffectsPossible (record : TransitionRecord) (source : ForwardPhase) : Bool :=
  (record.runsTransactionTriggers && decide (source.ordinal ≥ ForwardPhase.transactionTriggersStarted.ordinal)) ||
  (record.options.runSystemTriggers && decide (source.ordinal ≥ ForwardPhase.systemTriggersStarted.ordinal)) ||
  source == .bootSyncStarted

/-- The plan contract: each status is required exactly when its effect is possible. -/
@[mk_iff] structure PlanValid (record : TransitionRecord) (plan : RollbackPlan) : Prop where
  required : ∀ stage : RollbackStage, (stage.status plan).required = stage.possible record plan.source
  boot : bootRollbackAccepted (plan.source == .bootSyncStarted) plan.boot = true
  disposition : plan.candidate.disposition = record.candidateDispositionFor plan.source
  effects : plan.externalEffectsMayRemain = record.externalEffectsPossible plan.source

theorem validateRollbackPlan_eq_ok {record : TransitionRecord} :
    record.validateRollbackPlan plan = .ok () ↔ record.PlanValid plan := by
  simp only [validateRollbackPlan, validateRollbackRequirement, bind_eq_ok, exists_check,
    refuse_eq_ok, not_not, Bool.not_eq_false, planValid_iff, RollbackStage.forall_iff, and_assoc,
    @eq_comm Bool (RollbackAction.required _)]
  rfl

theorem PlanValid.congr {left right : TransitionRecord}
    (contract : left.PlanValid plan) (operation : left.operation = right.operation)
    (options : left.options = right.options) : right.PlanValid plan where
  required stage := by
    rw [contract.required stage]
    cases stage <;> simp only [RollbackStage.possible, operation, options]
  boot := contract.boot
  disposition := by
    rw [contract.disposition]
    simp only [candidateDispositionFor, operation]
  effects := by
    rw [contract.effects]
    simp only [externalEffectsPossible, runsTransactionTriggers, operation, options]

end TransitionRecord

end Cast.TransitionJournal
