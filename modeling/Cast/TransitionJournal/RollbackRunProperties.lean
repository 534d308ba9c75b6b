import Cast.TransitionJournal.RunProperties

/-! Runs that end in rollback. The phases of the two ladders are ranked so that
every admitted advance climbs strictly; with that, the position of a record in
a run and the stage it stands at determine each other. -/

namespace Cast.TransitionJournal

open Foundation

variable {plan nextPlan : RollbackPlan} {records : List TransitionRecord} {stage : RollbackStage} {index : Nat}

/-- Position on the forward ladder followed by the rollback ladder. -/
def Phase.rank : Phase → Nat
  | .rollbackDecided => 19
  | .previousRestoreIntent => 20
  | .previousRestoredToStaging => 21
  | .reverseExchangeIntent => 22
  | .usrRestored => 23
  | .candidatePreserveIntent => 24
  | .candidatePreserved => 25
  | .freshDbInvalidationIntent => 26
  | .freshDbInvalidated => 27
  | .bootRepairRequired => 28
  | .bootRepairStarted => 29
  | .bootRepairComplete => 30
  | .bootRepairUnverified => 31
  | .rollbackComplete => 32
  | phase => (phase.forward.map ForwardPhase.ordinal).getD 0

theorem ForwardPhase.rank_toPhase (phase : ForwardPhase) : phase.toPhase.rank = phase.ordinal := by
  cases phase <;> rfl

theorem RollbackStage.rank_intent (stage : RollbackStage) :
    stage.intent.rank = 20 + 2 * stage.index := by
  cases stage <;> rfl

theorem RollbackStage.rank_completed (stage : RollbackStage) :
    stage.completed.rank = 21 + 2 * stage.index := by
  cases stage <;> rfl

theorem Dispatches.rank_le {phase : Phase} (dispatches : Dispatches phase) : phase.rank ≤ 27 := by
  cases dispatches with
  | decided => decide
  | completed stage => cases stage <;> decide

variable {phase nextPhase : Phase}

section

variable (step : RollbackStep plan phase nextPlan nextPhase)
include step

/-- Each edge of the ladder climbs. The dispatch after a completed stage does so
because validity leaves nothing pending at or before that stage. -/
theorem RollbackStep.rank_lt (valid : validateRollbackPhase phase plan = .ok ()) : phase.rank < nextPhase.rank := by
  cases step with
  | @enter _ stage dispatches first =>
    rw [stage.rank_intent]
    cases dispatches with
    | decided =>
      simp only [Phase.rank]
      omega
    | completed finished =>
      have after := first.index_lt valid
      rw [finished.rank_completed]
      omega
  | @finish stage outcome pending =>
    rw [stage.rank_intent, stage.rank_completed]
    omega
  | requireRepair dispatches settled boot | finishWithoutBoot dispatches settled boot =>
    exact Nat.lt_of_le_of_lt dispatches.rank_le (by decide)
  | startRepair | completeRepair outcome | abandonRepair | finishAfterRepair => decide

theorem RollbackStep.source_eq : nextPlan.source = plan.source := by
  cases step with
  | @finish stage outcome pending => exact stage.source_record plan _
  | enter | requireRepair | finishWithoutBoot | startRepair | completeRepair | abandonRepair
  | finishAfterRepair => rfl

/-- A status changes only on the edge that completes its stage. -/
theorem RollbackStep.edge_of_status_ne (changed : stage.status plan ≠ stage.status nextPlan) :
    stage.status plan = .pending ∧ phase = stage.intent ∧ nextPhase = stage.completed := by
  cases step with
  | @finish finished outcome pending =>
    rw [finished.status_record] at changed
    split at changed
    · next same =>
        subst same
        exact ⟨pending, rfl, rfl⟩
    · exact absurd rfl changed
  | enter | requireRepair | finishWithoutBoot | startRepair | finishAfterRepair => exact absurd rfl changed
  | completeRepair outcome | abandonRepair => exact absurd (by cases stage <;> rfl) changed

end

namespace Advance

variable {expected next : TransitionRecord}

theorem rank_lt (advance : Advance expected next) : expected.phase.rank < next.phase.rank := by
  cases advance.step with
  | @forward current target atPhase follows entered =>
    rw [atPhase, entered, ForwardPhase.rank_toPhase, ForwardPhase.rank_toPhase]
    exact nextForwardPhase_ordinal_lt follows
  | @decided source plan atPhase allowed entered planned fromSource =>
    rw [atPhase, entered, ForwardPhase.rank_toPhase]
    exact Nat.lt_of_le_of_lt (rollbackAllowed_ordinal_le allowed) (by decide)
  | ladder present planned step => exact step.rank_lt (advance.expectedValid.plan _ present).2

/-- Between two records that carry plans, the advance is an edge of the ladder. -/
theorem rollbackStep (advance : Advance expected next)
    (present : expected.rollback = some plan) (planned : next.rollback = some nextPlan) :
    RollbackStep plan expected.phase nextPlan next.phase := by
  have notForward := advance.expectedValid.notForward_of_plan present
  cases advance.step with
  | @forward current _ atPhase _ _ => exact absurd atPhase.symm (current.toPhase_ne notForward)
  | @decided source _ atPhase _ _ _ _ => exact absurd atPhase.symm (source.toPhase_ne notForward)
  | ladder present' planned' step =>
    rw [present] at present'
    rw [planned] at planned'
    cases present'
    cases planned'
    exact step

end Advance

/-- What a rollback run completes, in the order in which it may do so. -/
inductive RecoveryEffect where
  | action (stage : RollbackStage)
  | boot
deriving DecidableEq

namespace RecoveryEffect

def position : RecoveryEffect → Nat
  | .action stage => stage.index
  | .boot => 4

/-- The edge that completes an effect: a stage's own, or the end of a started
boot repair, verified or not. -/
def completedBy (current next : Phase) : RecoveryEffect → Prop
  | .action stage => current = stage.intent ∧ next = stage.completed
  | .boot => current = .bootRepairStarted ∧
      (next = .bootRepairComplete ∨ next = .bootRepairUnverified)

end RecoveryEffect

/-- The run completes `effect` between its records `index` and `index + 1`. -/
def CompletesAt (records : List TransitionRecord) (effect : RecoveryEffect) (index : Nat) : Prop :=
  ∃ before after, records[index]? = some before ∧ records[index + 1]? = some after ∧
    effect.completedBy before.phase after.phase

/-- The status of `stage` differs in the plans of records `index` and `index + 1`. -/
def StatusChangesAt (records : List TransitionRecord) (stage : RollbackStage) (index : Nat) : Prop :=
  ∃ before after plan nextPlan, records[index]? = some before ∧
    records[index + 1]? = some after ∧ before.rollback = some plan ∧
    after.rollback = some nextPlan ∧ stage.status plan ≠ stage.status nextPlan

variable {earlier later : Nat} {before after : TransitionRecord}

section

variable (run : records.IsChain Admits)
  (atBefore : records[earlier]? = some before) (atAfter : records[later]? = some after)
include run atBefore atAfter

theorem run_rank_lt (order : earlier < later) : before.phase.rank < after.phase.rank :=
  run_related run (fun left right => left.phase.rank < right.phase.rank)
    (fun admitted => admitted.advance.rank_lt) Nat.lt_trans order atBefore atAfter

theorem run_rank_lt_iff : before.phase.rank < after.phase.rank ↔ earlier < later := by
  constructor
  · intro ranked
    by_contra unordered
    rcases Nat.lt_or_eq_of_le (Nat.le_of_not_lt unordered) with swapped | rfl
    · exact Nat.lt_asymm ranked (run_rank_lt run atAfter atBefore swapped)
    · rw [atBefore] at atAfter
      cases atAfter
      exact Nat.lt_irrefl _ ranked
  · exact run_rank_lt run atBefore atAfter

theorem run_phase_injective (same : before.phase = after.phase) : earlier = later := by
  have forwards := run_rank_lt_iff run atBefore atAfter
  have backwards := run_rank_lt_iff run atAfter atBefore
  rw [same] at forwards backwards
  omega

theorem run_same_transition (order : earlier ≤ later) : SameTransition before after :=
  run_preserves run (fun admitted same => same.trans admitted.advance.same) order atBefore atAfter
    (SameTransition.refl before)

end

theorem RecoveryEffect.completedBy.rank_eq {effect : RecoveryEffect} {current next : Phase}
    (completes : effect.completedBy current next) :
    current.rank = 20 + 2 * effect.position + (if effect = .boot then 1 else 0) := by
  cases effect with
  | action stage =>
    rw [completes.1, stage.rank_intent]
    simp [RecoveryEffect.position]
  | boot =>
    rw [completes.1]
    rfl

theorem RecoveryEffect.position_le (effect : RecoveryEffect) : effect.position ≤ if effect = .boot then 4 else 3 := by
  cases effect with
  | action stage => cases stage <;> decide
  | boot => decide

theorem run_completes_in_order (run : records.IsChain Admits) {first second : RecoveryEffect}
    (firstDone : CompletesAt records first earlier)
    (secondDone : CompletesAt records second later) :
    first.position < second.position ↔ earlier < later := by
  obtain ⟨_, _, atFirst, _, firstEdge⟩ := firstDone
  obtain ⟨_, _, atSecond, _, secondEdge⟩ := secondDone
  rw [← run_rank_lt_iff run atFirst atSecond, firstEdge.rank_eq, secondEdge.rank_eq]
  have firstBound := first.position_le
  have secondBound := second.position_le
  cases first <;> cases second <;> simp only [RecoveryEffect.position, reduceCtorEq, if_true,
    if_false] at firstBound secondBound ⊢ <;> omega

variable {record : TransitionRecord}

theorem preparing_eq_ok {inputs : PreparingInputs} (prepared : TransitionRecord.preparing inputs = .ok record) :
    record.Valid ∧ record.rollback = none := by
  simp only [TransitionRecord.preparing, bind_eq_ok, exists_check, pure_eq_ok,
    TransitionRecord.validate_eq_ok] at prepared
  obtain ⟨valid, rfl⟩ := prepared
  exact ⟨valid, rfl⟩

theorem run_valid (run : JournalRun records) (atIndex : records[index]? = some record) :
    record.Valid := by
  cases index with
  | zero =>
    obtain ⟨inputs, first, rest, rfl, prepared⟩ := run.prepared
    cases atIndex
    exact (preparing_eq_ok prepared).1
  | succ index =>
    obtain ⟨_, _, stepped⟩ := run_step_into run.admitted atIndex
    exact stepped.advance.nextValid

/-- A plan names the forward phase at which its run left the forward ladder. By
induction on the position: either the decision was just made, or the plan was
handed on by an edge of the ladder, which keeps its source. -/
theorem run_left_forward_ladder (run : JournalRun records)
    (atIndex : records[index]? = some record) (planned : record.rollback = some plan) :
    ∃ left before after, records[left]? = some before ∧ before.phase = plan.source.toPhase ∧
      records[left + 1]? = some after ∧ after.phase = .rollbackDecided := by
  induction index generalizing record plan with
  | zero =>
    obtain ⟨inputs, first, rest, rfl, prepared⟩ := run.prepared
    cases atIndex
    rw [(preparing_eq_ok prepared).2] at planned
    cases planned
  | succ index ih =>
    obtain ⟨previous, atPrevious, stepped⟩ := run_step_into run.admitted atIndex
    have advance := stepped.advance
    cases advance.step with
    | forward atPhase follows entered =>
      rw [advance.nextValid.rollback_eq_none entered] at planned
      cases planned
    | decided atPhase allowed entered chosen fromSource =>
      rw [planned] at chosen
      cases chosen
      exact ⟨index, _, record, atPrevious, fromSource ▸ atPhase, atIndex, entered⟩
    | ladder present handed step =>
      rw [planned] at handed
      cases handed
      obtain ⟨left, before, after, atLeft, atSource, atNext, decided⟩ := ih atPrevious present
      exact ⟨left, before, after, atLeft, step.source_eq ▸ atSource, atNext, decided⟩

/-- What a run that ended in rollback has done, read off its records. -/
structure ExactRollback (records : List TransitionRecord) (final : TransitionRecord)
    (plan : RollbackPlan) : Prop where
  planned : final.rollback = some plan
  left : ∃ left before after, records[left]? = some before ∧
    before.phase = plan.source.toPhase ∧ records[left + 1]? = some after ∧
    after.phase = .rollbackDecided ∧
    ∀ index record, records[index]? = some record → (record.phase.forward ≠ none ↔ index ≤ left)
  resolved : ∀ stage : RollbackStage, stage.possible final plan.source = true →
    stage.status plan = .applied ∨ stage.status plan = .alreadySatisfied
  changes : ∀ (stage : RollbackStage) index before after plan nextPlan,
    records[index]? = some before → records[index + 1]? = some after →
    before.rollback = some plan → after.rollback = some nextPlan →
    stage.status plan ≠ stage.status nextPlan →
    stage.status plan = .pending ∧ before.phase = stage.intent ∧ after.phase = stage.completed
  once : ∀ stage first second, StatusChangesAt records stage first →
    StatusChangesAt records stage second → first = second
  ordered : ∀ first second earlier later, CompletesAt records first earlier →
    CompletesAt records second later → (first.position < second.position ↔ earlier < later)
  unchanged : ∀ (earlier later : Nat) before after, earlier ≤ later →
    records[earlier]? = some before → records[later]? = some after →
    SameTransition before after
  counted : ∀ index before after, records[index]? = some before → records[index + 1]? = some after →
    after.generation.toNat = before.generation.toNat + 1

theorem status_resolved_of_terminal (valid : record.Valid) (planned : record.rollback = some plan)
    (terminal : record.phase = .rollbackComplete ∨ record.phase = .bootRepairUnverified)
    (possible : stage.possible record plan.source = true) :
    stage.status plan = .applied ∨ stage.status plan = .alreadySatisfied := by
  obtain ⟨contract, atPhase⟩ := valid.plan plan planned
  have required := (TransitionRecord.validateRollbackPlan_eq_ok.mp contract).required stage
  have settled : ordinaryActionsResolved plan = true := by
    rcases terminal with complete | unverified
    · rw [complete] at atPhase
      exact (validateRollbackPhase_rollbackComplete.mp atPhase).1
    · rw [unverified] at atPhase
      exact (validateRollbackPhase_repairUnverified.mp atPhase).1
  have settled := ordinaryActionsResolved_iff.mp settled stage
  rw [possible, RollbackAction.required_iff] at required
  rw [RollbackAction.settled_iff] at settled
  cases status : stage.status plan <;> simp_all

theorem run_edge_of_status_change (run : records.IsChain Admits) {before after : TransitionRecord}
    (atBefore : records[index]? = some before) (atAfter : records[index + 1]? = some after)
    (present : before.rollback = some plan) (planned : after.rollback = some nextPlan)
    (changed : stage.status plan ≠ stage.status nextPlan) :
    stage.status plan = .pending ∧ before.phase = stage.intent ∧ after.phase = stage.completed :=
  ((run_step run atBefore atAfter).advance.rollbackStep present planned).edge_of_status_ne changed

/-- Every run that ends in `RollbackComplete` or `BootRepairUnverified` has rolled
back exactly what its source phase requires. -/
theorem rollback_run_is_exact {records : List TransitionRecord} {final : TransitionRecord}
    (run : JournalRun records) (ended : records.getLast? = some final)
    (terminal : final.phase = .rollbackComplete ∨ final.phase = .bootRepairUnverified) :
    ∃ plan, ExactRollback records final plan := by
  have chain := run.admitted
  have atFinal : records[records.length - 1]? = some final := by
    rw [← List.getLast?_eq_getElem?]
    exact ended
  have notForward : final.phase.forward = none := by
    rcases terminal with complete | unverified
    · rw [complete]
      rfl
    · rw [unverified]
      rfl
  have valid := run_valid run atFinal
  obtain ⟨plan, planned, _⟩ := valid.exists_plan notForward
  refine ⟨plan, ⟨planned, ?_, ?_, ?_, ?_, ?_, ?_, ?_⟩⟩
  · obtain ⟨left, before, after, atLeft, atSource, atNext, decided⟩ := run_left_forward_ladder run atFinal planned
    refine ⟨left, before, after, atLeft, atSource, atNext, decided, fun index record atIndex => ?_⟩
    constructor
    · intro forward
      by_contra beyond
      exact forward (run_stays_in_rollback chain atNext atIndex (Nat.lt_of_not_le beyond) (by rw [decided]; rfl))
    · intro within rollback
      have absent := run_stays_in_rollback chain atIndex atLeft within rollback
      exact absurd atSource.symm (plan.source.toPhase_ne absent)
  · exact fun stage => status_resolved_of_terminal valid planned terminal
  · exact fun stage index before after plan nextPlan atBefore atAfter present next changed =>
      run_edge_of_status_change chain atBefore atAfter present next changed
  · rintro stage first second ⟨_, _, _, _, atFirst, afterFirst, firstPlan, firstNext, firstChange⟩
      ⟨_, _, _, _, atSecond, afterSecond, secondPlan, secondNext, secondChange⟩
    have firstEdge := run_edge_of_status_change chain atFirst afterFirst firstPlan firstNext firstChange
    have secondEdge := run_edge_of_status_change chain atSecond afterSecond secondPlan secondNext secondChange
    exact run_phase_injective chain atFirst atSecond (firstEdge.2.1.trans secondEdge.2.1.symm)
  · exact fun first second earlier later => run_completes_in_order chain
  · exact fun earlier later before after order atBefore atAfter => run_same_transition chain atBefore atAfter order
  · exact fun index before after atBefore atAfter =>
      nextGeneration_toNat (run_step chain atBefore atAfter).advance.generation

theorem sampleRun_is_exact :
    ∃ plan, ExactRollback sampleRun (sampleRecord 5 .rollbackComplete (some (samplePlan .applied))) plan :=
  rollback_run_is_exact sampleRun_journalRun rfl (.inl rfl)

end Cast.TransitionJournal
