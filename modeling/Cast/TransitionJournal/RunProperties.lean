import Cast.Foundation.Runs
import Cast.TransitionJournal.SuccessorProperties

/-! Whole runs of the journal. A run starts at a prepared record and every next
record is admitted after the one before it. Each property is first proved of
one admitted advance and then carried along the run. -/

namespace Cast.TransitionJournal

open Foundation TransitionRecord List

variable {expected next record : TransitionRecord}

def Admits (expected next : TransitionRecord) : Prop := validateAdvance expected next = .ok ()

theorem Admits.advance (admitted : Admits expected next) : Advance expected next := validateAdvance_eq_ok.mp admitted

structure JournalRun (records : List TransitionRecord) : Prop where
  prepared : ∃ inputs first rest, records = first :: rest ∧ TransitionRecord.preparing inputs = .ok first
  admitted : records.IsChain Admits

/-- The phases from which a transition can only be carried to its end. -/
def Phase.committed (phase : Phase) : Prop :=
  phase = .bootSyncComplete ∨ phase = .commitDecided ∨ phase = .commitCleanupComplete ∨ phase = .complete

variable {phase : Phase}

theorem Phase.committed_iff :
    phase.committed ↔ ∃ current : ForwardPhase, phase = current.toPhase ∧ 15 ≤ current.ordinal := by
  constructor
  · rintro (rfl | rfl | rfl | rfl)
    · exact ⟨.bootSyncComplete, rfl, by decide⟩
    · exact ⟨.commitDecided, rfl, by decide⟩
    · exact ⟨.commitCleanupComplete, rfl, by decide⟩
    · exact ⟨.complete, rfl, by decide⟩
  · rintro ⟨current, rfl, late⟩
    cases current <;> first | exact absurd late (by decide) | simp [Phase.committed, ForwardPhase.toPhase]

theorem nextForwardPhase_ordinal_lt {current target : ForwardPhase}
    (follows : nextForwardPhase record current = some target) :
    current.ordinal < target.ordinal := by
  cases current <;>
    simp only [nextForwardPhase, TransitionRecord.afterSystem, TransitionRecord.afterArchive] at follows <;>
    (try split_ifs at follows) <;> cases follows <;> decide

theorem rollbackAllowed_ordinal_le {source : ForwardPhase} (allowed : rollbackAllowed source = true) :
    source.ordinal ≤ 14 := by
  cases source <;> first | decide | cases allowed

namespace Advance

theorem notForward (advance : Advance expected next) (rollback : expected.phase.forward = none) :
    next.phase.forward = none := by
  cases advance.step with
  | @forward current _ atPhase _ _ => exact absurd atPhase.symm (current.toPhase_ne rollback)
  | @decided source _ atPhase _ _ _ _ => exact absurd atPhase.symm (source.toPhase_ne rollback)
  | ladder _ planned _ => exact advance.nextValid.notForward_of_plan planned

theorem committed (advance : Advance expected next) (committed : expected.phase.committed) :
    next.phase.committed := by
  obtain ⟨current, atPhase, late⟩ := Phase.committed_iff.mp committed
  cases advance.step with
  | @forward source target atSource follows entered =>
    obtain rfl := ForwardPhase.toPhase_injective (atSource.symm.trans atPhase)
    have climbed := nextForwardPhase_ordinal_lt follows
    exact Phase.committed_iff.mpr ⟨target, entered, by omega⟩
  | decided atSource allowed _ _ _ =>
    obtain rfl := ForwardPhase.toPhase_injective (atSource.symm.trans atPhase)
    have early := rollbackAllowed_ordinal_le allowed
    omega
  | ladder present _ _ =>
    have notForward := advance.expectedValid.notForward_of_plan present
    exact absurd atPhase.symm (current.toPhase_ne notForward)

end Advance

theorem Phase.committed.forward_isSome (committed : phase.committed) :
    phase.forward.isSome = true := by
  obtain ⟨current, rfl, _⟩ := Phase.committed_iff.mp committed
  rw [ForwardPhase.forward_toPhase]
  rfl

theorem recoveryDisposition_of_notForward (rollback : record.phase.forward = none) (phase : ForwardPhase) :
    record.recoveryDisposition ≠ .rollForward phase := by
  intro disposed
  simp only [recoveryDisposition] at disposed
  cases atPhase : record.phase <;> rw [atPhase] at disposed rollback <;> first | cases disposed; done | cases rollback

theorem recoveryDisposition_of_committed (committed : record.phase.committed) :
    ∃ phase, record.recoveryDisposition = .rollForward phase := by
  rcases committed with atPhase | atPhase | atPhase | atPhase <;>
    simp [recoveryDisposition, atPhase, Phase.recoveryDisposition]

section Direction

variable {records : List TransitionRecord} {earlier later : Nat} {before after : TransitionRecord}
  (run : records.IsChain Admits)
  (atBefore : records[earlier]? = some before) (atAfter : records[later]? = some after)
include run atBefore atAfter

theorem run_stays_in_rollback (order : earlier ≤ later) (rollback : before.phase.forward = none) :
    after.phase.forward = none :=
  run_preserves run (fun admitted => admitted.advance.notForward) order atBefore atAfter rollback

theorem run_stays_committed (order : earlier ≤ later) (committed : before.phase.committed) : after.phase.committed :=
  run_preserves run (fun admitted => admitted.advance.committed) order atBefore atAfter committed

theorem run_not_blocked (order : earlier < later) : before.phase.blocksAdvance = false := by
  obtain ⟨bound, _⟩ := List.getElem?_eq_some_iff.mp atAfter
  have atNext := getElem?_eq_getElem (Nat.lt_of_le_of_lt order bound)
  exact (run_step run atBefore atNext).advance.unblocked

omit atBefore atAfter in
theorem run_not_committed_and_rollback (beforeMember : before ∈ records) (afterMember : after ∈ records)
    (committed : before.phase.committed) (rollback : after.phase.forward = none) : False := by
  obtain ⟨first, atFirst⟩ := mem_iff_getElem?.mp beforeMember
  obtain ⟨second, atSecond⟩ := mem_iff_getElem?.mp afterMember
  rcases Nat.le_total first second with order | order
  · have forward := (run_stays_committed run atFirst atSecond order committed).forward_isSome
    rw [rollback] at forward
    cases forward
  · have forward := committed.forward_isSome
    rw [run_stays_in_rollback run atSecond atFirst order rollback] at forward
    cases forward

end Direction

/-- The direction of a run is decided once. After a committed phase no rollback
phase follows, after a rollback phase no forward phase, after a terminal phase
nothing; and the recovery table agrees with the direction taken. -/
theorem run_direction_decided_once {records : List TransitionRecord} (run : JournalRun records) :
    (∀ (earlier later : Nat) (before after : TransitionRecord), earlier < later →
      records[earlier]? = some before → records[later]? = some after →
      (before.phase.committed → after.phase.forward ≠ none) ∧
      (before.phase.forward = none → after.phase.forward = none) ∧
      before.phase ≠ .complete ∧ before.phase ≠ .rollbackComplete ∧
      before.phase ≠ .bootRepairUnverified) ∧
    ¬ ((∃ record ∈ records, record.phase.committed) ∧ ∃ record ∈ records, record.phase.forward = none) ∧
    (∀ (earlier later : Nat) (before after : TransitionRecord), earlier ≤ later →
      records[earlier]? = some before → records[later]? = some after →
      (before.phase.forward = none → ∀ phase, after.recoveryDisposition ≠ .rollForward phase) ∧
      (before.phase.committed → (∀ source, after.recoveryDisposition ≠ .beginRollback source) ∧
        ∀ phase, after.recoveryDisposition ≠ .resumeRollback phase)) := by
  have chain := run.admitted
  refine ⟨?_, ?_, ?_⟩
  · intro earlier later before after order atBefore atAfter
    have unblocked := run_not_blocked chain atBefore atAfter order
    refine ⟨fun committed absent => ?_,
      run_stays_in_rollback chain atBefore atAfter (Nat.le_of_lt order), ?_, ?_, ?_⟩
    · exact run_not_committed_and_rollback chain (mem_of_getElem? atBefore) (mem_of_getElem? atAfter) committed absent
    all_goals
      intro terminal
      rw [terminal] at unblocked
      cases unblocked
  · rintro ⟨⟨before, beforeMember, committed⟩, after, afterMember, rollback⟩
    exact run_not_committed_and_rollback chain beforeMember afterMember committed rollback
  · intro earlier later before after order atBefore atAfter
    refine ⟨fun rollback => recoveryDisposition_of_notForward
      (run_stays_in_rollback chain atBefore atAfter order rollback), fun committed => ?_⟩
    obtain ⟨phase, disposed⟩ := recoveryDisposition_of_committed
      (run_stays_committed chain atBefore atAfter order committed)
    simp [disposed]

/-- The sample run which is abandoned while preparing. -/
def sampleRun : List TransitionRecord :=
  [sampleRecord 1 .preparing none, sampleRecord 2 .rollbackDecided (some (samplePlan .pending)),
    sampleRecord 3 .candidatePreserveIntent (some (samplePlan .pending)),
    sampleRecord 4 .candidatePreserved (some (samplePlan .applied)),
    sampleRecord 5 .rollbackComplete (some (samplePlan .applied))]

theorem sampleRun_journalRun : JournalRun sampleRun where
  prepared := by
    refine ⟨⟨⟨"0123456789abcdef0123456789abcdef", by decide⟩,
      ⟨⟨"01234567-89ab-cdef-0123-456789abcdef"⟩, ⟨4, 5⟩⟩, .newState, none,
      ⟨"11111111111111111111111111111111"⟩, ⟨1, 10, 3⟩,
      ⟨none, ⟨"22222222222222222222222222222222"⟩, ⟨1, 11, 3⟩, .synthesizedEmpty⟩, false, false,
      ⟨"failed-candidate", by decide⟩⟩, _, _, rfl, rfl⟩
  admitted := .cons_cons rfl (.cons_cons rfl (.cons_cons rfl (.cons_cons rfl (.singleton _))))

theorem sampleRun_direction_decided_once :
    ¬ ((∃ record ∈ sampleRun, record.phase.committed) ∧ ∃ record ∈ sampleRun, record.phase.forward = none) :=
  (run_direction_decided_once sampleRun_journalRun).2.1

/-- The ordinary actions a plan still has to carry out. -/
def RollbackPlan.pendingActions (plan : RollbackPlan) : Nat := (rollbackActions plan).count .pending

variable {plan : RollbackPlan}

/-- Steps a rollback phase may still take once no ordinary action is pending. -/
def Phase.routingSteps : Phase → Nat
  | .rollbackDecided | .previousRestoredToStaging | .usrRestored | .candidatePreserved
  | .freshDbInvalidated => 4
  | .previousRestoreIntent | .reverseExchangeIntent | .candidatePreserveIntent
  | .freshDbInvalidationIntent | .bootRepairRequired => 3
  | .bootRepairStarted => 2
  | .bootRepairComplete => 1
  | _ => 0

/-- A bound on the advances a record still admits. Each pending action costs its
intent and its completion; the forward ladder keeps enough in hand to leave
it from its last revocable phase with every action pending. -/
def TransitionRecord.remainingSteps (record : TransitionRecord) : Nat :=
  match record.phase.forward, record.rollback with
  | some phase, _ => 27 - phase.ordinal
  | none, some plan => 2 * plan.pendingActions + record.phase.routingSteps
  | none, none => 0

theorem RollbackPlan.pendingActions_le (plan : RollbackPlan) : plan.pendingActions ≤ 4 := count_le_length

theorem RollbackPlan.pendingActions_record {stage : RollbackStage}
    (pending : stage.status plan = .pending) (outcome : RollbackActionOutcome) :
    (stage.record plan outcome.toRollbackAction).pendingActions + 1 = plan.pendingActions := by
  have resolved : (outcome.toRollbackAction == RollbackAction.pending) = false := by cases outcome <;> rfl
  cases stage <;> simp only [RollbackStage.status] at pending <;>
    simp only [pendingActions, rollbackActions, RollbackStage.record, count_cons, count_nil, pending, resolved] <;>
    simp <;> omega

theorem TransitionRecord.remainingSteps_forward {phase : ForwardPhase}
    (atPhase : record.phase = phase.toPhase) : record.remainingSteps = 27 - phase.ordinal := by
  simp only [remainingSteps, atPhase, ForwardPhase.forward_toPhase]

theorem TransitionRecord.remainingSteps_rollback
    (notForward : record.phase.forward = none) (planned : record.rollback = some plan) :
    record.remainingSteps = 2 * plan.pendingActions + record.phase.routingSteps := by
  simp only [remainingSteps, notForward, planned]

theorem ForwardPhase.ordinal_le (phase : ForwardPhase) : phase.ordinal ≤ 18 := by cases phase <;> decide

theorem TransitionRecord.remainingSteps_le (record : TransitionRecord) : record.remainingSteps ≤ 27 := by
  unfold remainingSteps
  split
  · omega
  · next plan _ _ =>
      have pending := plan.pendingActions_le
      have routing : record.phase.routingSteps ≤ 4 := by cases record.phase <;> decide
      omega
  · omega

theorem Dispatches.routingSteps_eq (dispatches : Dispatches phase) :
    phase.routingSteps = 4 := by
  cases dispatches with
  | decided => rfl
  | completed stage => cases stage <;> rfl

/-- Each edge of the rollback ladder uses up at least one step. -/
theorem RollbackStep.remaining_lt {nextPlan : RollbackPlan} {nextPhase : Phase}
    (step : RollbackStep plan phase nextPlan nextPhase) :
    2 * nextPlan.pendingActions + nextPhase.routingSteps < 2 * plan.pendingActions + phase.routingSteps := by
  cases step with
  | @enter _ stage dispatches first =>
    have intent : stage.intent.routingSteps = 3 := by cases stage <;> rfl
    rw [dispatches.routingSteps_eq, intent]
    omega
  | @finish stage outcome pending =>
    have fewer := RollbackPlan.pendingActions_record pending outcome
    have intent : stage.intent.routingSteps = 3 := by cases stage <;> rfl
    have completed : stage.completed.routingSteps = 4 := by cases stage <;> rfl
    omega
  | requireRepair dispatches settled boot | finishWithoutBoot dispatches settled boot =>
    rw [dispatches.routingSteps_eq]
    simp only [Phase.routingSteps]
    omega
  | startRepair | finishAfterRepair =>
    simp only [Phase.routingSteps]
    omega
  | completeRepair outcome | abandonRepair =>
    simp only [Phase.routingSteps, RollbackPlan.pendingActions, rollbackActions]
    omega

theorem Advance.remainingSteps_lt
    (advance : Advance expected next) : next.remainingSteps < expected.remainingSteps := by
  cases advance.step with
  | @forward current target atPhase follows entered =>
    rw [remainingSteps_forward atPhase, remainingSteps_forward entered]
    have climbed := nextForwardPhase_ordinal_lt follows
    have bound := target.ordinal_le
    omega
  | @decided source plan atPhase allowed entered planned fromSource =>
    have notForward : next.phase.forward = none := by
      rw [entered]
      rfl
    rw [remainingSteps_forward atPhase, remainingSteps_rollback notForward planned, entered]
    have early := rollbackAllowed_ordinal_le allowed
    have pending := plan.pendingActions_le
    simp only [Phase.routingSteps]
    omega
  | ladder present planned step =>
    rw [remainingSteps_rollback (advance.expectedValid.notForward_of_plan present) present,
      remainingSteps_rollback (advance.nextValid.notForward_of_plan planned) planned]
    exact step.remaining_lt

/-- Every admitted advance lowers the remaining steps, so that no sequence of
advances is longer than 28 records, whatever the first one is, and none cycles. -/
theorem admitted_runs_are_bounded :
    (∀ expected next, validateAdvance expected next = .ok () → next.remainingSteps < expected.remainingSteps) ∧
    (∀ records : List TransitionRecord, records.IsChain (fun expected next => validateAdvance expected next = .ok ()) →
      records.length ≤ 28) ∧
    ¬ ∃ sequence : Nat → TransitionRecord,
      ∀ index, validateAdvance (sequence index) (sequence (index + 1)) = .ok () := by
  have decreases : ∀ {expected next}, Admits expected next → next.remainingSteps < expected.remainingSteps :=
    fun admitted => admitted.advance.remainingSteps_lt
  exact ⟨fun _ _ => decreases, fun _ run => run_length_le run decreases remainingSteps_le,
    @not_infinite_run _ Admits _ decreases⟩

end Cast.TransitionJournal
