import Cast.TransitionJournal.Validation

/-! The creation of a record and the typed constructors of its successors. The
coordinator has no other way to build a record it may publish: every
constructor validates its predecessor, rebuilds the next record from it, and
submits the pair to the conditional-advance check. -/

namespace Cast.TransitionJournal

open Foundation State BootPublication

/-- Classification of one rollback effect at the durable decision boundary. -/
inductive InitialRollbackAction where
  | pending
  | alreadySatisfied

def InitialRollbackAction.toRollbackAction : InitialRollbackAction → RollbackAction
  | .pending => .pending
  | .alreadySatisfied => .alreadySatisfied

/-- Exact namespace and database observations persisted by the rollback
decision. Optional actions are present exactly when the source phase makes the
recovery effect possible; the candidate is always classified. -/
structure RollbackObservations where
  allocatedCandidateId : Option Int32
  previousArchive : Option InitialRollbackAction
  usrExchange : Option InitialRollbackAction
  candidate : InitialRollbackAction
  freshDb : Option InitialRollbackAction

inductive RollbackActionOutcome where
  | applied
  | alreadySatisfied

def RollbackActionOutcome.toRollbackAction : RollbackActionOutcome → RollbackAction
  | .applied => .applied
  | .alreadySatisfied => .alreadySatisfied

inductive BootRepairOutcome where
  | applied
  | alreadySatisfied

def BootRepairOutcome.toBootRollback : BootRepairOutcome → BootRollback
  | .applied => .applied
  | .alreadySatisfied => .alreadySatisfied

/-- The arguments of `TransitionRecord::preparing`. -/
structure PreparingInputs where
  transitionId : TransitionId
  creationEpoch : RuntimeEpoch
  operation : Operation
  candidateId : Option Int32
  candidateTreeToken : TreeToken
  candidateUsrRuntimeIdentity : RuntimeTreeIdentity
  previous : Previous
  runSystemTriggers : Bool
  runBootSync : Bool
  quarantineName : QuarantineName

def observedInitialAction (action : String) (possible : Bool)
    (observation : Option InitialRollbackAction) : Except CodecError RollbackAction :=
  match possible, observation with
  | true, some observation => .ok observation.toRollbackAction
  | false, none => .ok .notRequired
  | possible, observation =>
    .error (.invalidRollbackRequirement action
      ((observation.map InitialRollbackAction.toRollbackAction).getD .notRequired) possible)

namespace TransitionRecord

def preparing (inputs : PreparingInputs) : Except CodecError TransitionRecord := do
  let candidateOrigin := match inputs.operation with
    | .newState => CandidateOrigin.fresh
    | .activateArchived => CandidateOrigin.archived
    | .activeReblit => CandidateOrigin.activeReblit
  let archivePrevious := inputs.previous.origin == .activeState
  let record : TransitionRecord := {
    format := payloadFormat
    version := payloadVersion
    generation := 1
    transitionId := inputs.transitionId
    creationEpoch := inputs.creationEpoch
    operation := inputs.operation
    phase := .preparing
    rollback := none
    bootPublicationReceipts := none
    candidate := {
      id := inputs.candidateId
      origin := candidateOrigin
      treeToken := inputs.candidateTreeToken
      usrRuntimeIdentity := inputs.candidateUsrRuntimeIdentity }
    previous := inputs.previous
    options := {
      archivePrevious := archivePrevious
      runSystemTriggers := inputs.runSystemTriggers
      runBootSync := inputs.runBootSync }
    quarantineName := inputs.quarantineName }
  record.validate
  pure record

/-- The tail shared by every constructor: the rebuilt record is returned only
when the conditional-advance check accepts the pair. -/
def submit (record next : TransitionRecord) : Except CodecError TransitionRecord := do
  validateAdvance record next
  pure next

def forwardSuccessor (record : TransitionRecord) (allocatedCandidateId : Option Int32) :
    Except CodecError TransitionRecord := do
  record.validate
  let current ← okOr record.phase.forward (.illegalPhaseAdvance record.phase record.phase)
  let nextPhase ← okOr (nextForwardPhase record current) .terminalPhaseAdvance
  refuse (nextPhase = .bootSyncStarted) .explicitBootSyncStartedSuccessorRequired
  refuse (nextPhase = .bootSyncComplete) .explicitBootSyncCompleteSuccessorRequired
  let allocationCompleted := current == .freshStateAllocating && nextPhase == .freshStateAllocated
  refuse (allocationCompleted = false ∧ allocatedCandidateId.isSome = true) .candidateStateChangedIllegally
  let generation ← okOr (nextGeneration record.generation) .generationExhausted
  let candidate :=
    if allocationCompleted then { record.candidate with id := allocatedCandidateId }
    else record.candidate
  record.submit { record with
    generation := generation, phase := nextPhase.toPhase, candidate := candidate }

def bootSyncStartedSuccessor (record : TransitionRecord) (receipts : ReceiptPair) :
    Except CodecError TransitionRecord := do
  record.validate
  refuse (record.version ≠ payloadVersion) (.payloadVersionBootPublicationReceiptsMismatch record.version)
  let current ← okOr record.phase.forward (.illegalPhaseAdvance record.phase .bootSyncStarted)
  refuse (nextForwardPhase record current ≠ some .bootSyncStarted) (.illegalPhaseAdvance record.phase .bootSyncStarted)
  let generation ← okOr (nextGeneration record.generation) .generationExhausted
  record.submit { record with
    generation := generation, phase := .bootSyncStarted, bootPublicationReceipts := some receipts }

def bootSyncCompleteSuccessor (record : TransitionRecord) (expectedPair : ReceiptPair) :
    Except CodecError TransitionRecord := do
  record.validate
  refuse (record.version ≠ payloadVersion) (.payloadVersionBootPublicationReceiptsMismatch record.version)
  refuse (record.phase ≠ .bootSyncStarted) (.illegalPhaseAdvance record.phase .bootSyncComplete)
  refuse (record.bootPublicationReceipts ≠ some expectedPair) .bootPublicationReceiptsChangedIllegally
  let generation ← okOr (nextGeneration record.generation) .generationExhausted
  record.submit { record with generation := generation, phase := .bootSyncComplete }

def rollbackDecision (record : TransitionRecord) (observations : RollbackObservations) :
    Except CodecError TransitionRecord := do
  record.validate
  let source ← okOr record.phase.forward (.illegalPhaseAdvance record.phase .rollbackDecided)
  refuse (rollbackAllowed source = false) (.invalidRollbackSource source)
  let previousPossible := record.options.archivePrevious &&
    decide (source.ordinal ≥ ForwardPhase.previousArchiveIntent.ordinal)
  let usrPossible := decide (source.ordinal ≥ ForwardPhase.usrExchangeIntent.ordinal)
  let freshPossible := record.operation == .newState &&
    decide (source.ordinal ≥ ForwardPhase.freshStateAllocating.ordinal)
  let bootPossible := source == .bootSyncStarted
  let generation ← okOr (nextGeneration record.generation) .generationExhausted
  refuse (record.candidate.id.isSome = true ∧ observations.allocatedCandidateId.isSome = true)
    .candidateStateChangedIllegally
  let candidate :=
    if record.candidate.id.isNone then
      { record.candidate with id := observations.allocatedCandidateId }
    else record.candidate
  let previousArchive ← observedInitialAction "previous-archive" previousPossible observations.previousArchive
  let usrExchange ← observedInitialAction "usr-exchange" usrPossible observations.usrExchange
  let freshDb ← observedInitialAction "fresh-db" freshPossible observations.freshDb
  let plan : RollbackPlan := {
    source := source
    previousArchive := previousArchive
    usrExchange := usrExchange
    candidate := {
      action := observations.candidate.toRollbackAction
      disposition := record.candidateDispositionFor source }
    freshDb := freshDb
    boot := if bootPossible then .pendingUnverifiable else .notRequired
    externalEffectsMayRemain :=
      (record.runsTransactionTriggers && decide (source.ordinal ≥ ForwardPhase.transactionTriggersStarted.ordinal)) ||
      (record.options.runSystemTriggers && decide (source.ordinal ≥ ForwardPhase.systemTriggersStarted.ordinal)) ||
      bootPossible }
  record.submit { record with
    generation := generation, phase := .rollbackDecided, candidate := candidate,
    rollback := some plan }

/-- The completed action's status is stored: the outcome block of
`rollback_successor`. An edge that completes no action takes no outcome. -/
def recordOutcome (plan : RollbackPlan) (outcome : Option RollbackActionOutcome)
    (phase nextPhase : Phase) : Except CodecError RollbackPlan :=
  match outcome.map RollbackActionOutcome.toRollbackAction with
  | none => .ok plan
  | some status =>
    match phase, nextPhase with
    | .previousRestoreIntent, .previousRestoredToStaging => .ok { plan with previousArchive := status }
    | .reverseExchangeIntent, .usrRestored => .ok { plan with usrExchange := status }
    | .candidatePreserveIntent, .candidatePreserved =>
      .ok { plan with candidate := { plan.candidate with action := status } }
    | .freshDbInvalidationIntent, .freshDbInvalidated => .ok { plan with freshDb := status }
    | _, _ => .error .rollbackActionOutcomeMismatch

def rollbackSuccessor (record : TransitionRecord) (outcome : Option RollbackActionOutcome) :
    Except CodecError TransitionRecord := do
  record.validate
  refuse (record.phase = .bootRepairRequired ∨ record.phase = .bootRepairStarted ∨
    record.phase = .bootRepairComplete) (.explicitBootRepairSuccessorRequired record.phase)
  let plan ← okOr record.rollback .missingRollbackPlan
  let nextPhase ← okOr (nextRollbackPhase plan record.phase) (if record.phase.blocksAdvance then .terminalPhaseAdvance
      else .illegalPhaseAdvance record.phase record.phase)
  let ordinaryCompletion := (rollbackActionPhase record.phase).any (fun entry => !entry.2) &&
    (rollbackActionPhase nextPhase).any (fun entry => entry.2)
  refuse (ordinaryCompletion ≠ outcome.isSome) .rollbackActionOutcomeMismatch
  let generation ← okOr (nextGeneration record.generation) .generationExhausted
  let nextPlan ← recordOutcome plan outcome record.phase nextPhase
  record.submit { record with
    generation := generation, phase := nextPhase, rollback := some nextPlan }

def bootRepairStartedSuccessor (record : TransitionRecord) :
    Except CodecError TransitionRecord := do
  record.validate
  refuse (record.phase ≠ .bootRepairRequired) (.illegalPhaseAdvance record.phase .bootRepairStarted)
  let generation ← okOr (nextGeneration record.generation) .generationExhausted
  record.submit { record with generation := generation, phase := .bootRepairStarted }

def bootRepairCompleteSuccessor (record : TransitionRecord) (outcome : BootRepairOutcome) :
    Except CodecError TransitionRecord := do
  record.validate
  refuse (record.phase ≠ .bootRepairStarted) (.illegalPhaseAdvance record.phase .bootRepairComplete)
  let generation ← okOr (nextGeneration record.generation) .generationExhausted
  let plan ← okOr record.rollback .missingRollbackPlan
  record.submit { record with
    generation := generation, phase := .bootRepairComplete,
    rollback := some { plan with boot := outcome.toBootRollback } }

def bootRepairUnverifiedSuccessor (record : TransitionRecord) :
    Except CodecError TransitionRecord := do
  record.validate
  refuse (record.phase ≠ .bootRepairStarted) (.illegalPhaseAdvance record.phase .bootRepairUnverified)
  let generation ← okOr (nextGeneration record.generation) .generationExhausted
  let plan ← okOr record.rollback .missingRollbackPlan
  record.submit { record with
    generation := generation, phase := .bootRepairUnverified,
    rollback := some { plan with boot := .unverified } }

def bootRepairRollbackCompleteSuccessor (record : TransitionRecord) :
    Except CodecError TransitionRecord := do
  record.validate
  refuse (record.phase ≠ .bootRepairComplete) (.illegalPhaseAdvance record.phase .rollbackComplete)
  let generation ← okOr (nextGeneration record.generation) .generationExhausted
  record.submit { record with generation := generation, phase := .rollbackComplete }

end TransitionRecord

end Cast.TransitionJournal
