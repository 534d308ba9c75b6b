import Cast.Foundation.Checks
import Cast.TransitionJournal.Model

/-! The record contract: what a persisted record must satisfy by itself, and
which record may conditionally replace which. Checks run in source order and
report the source's error at the first one that fails.
The direction in which startup may resume a transition is a table of its own. -/

namespace Cast.TransitionJournal

open Foundation

def ForwardPhase.ordinal : ForwardPhase → Nat
  | .preparing => 0
  | .freshStateAllocating => 1
  | .freshStateAllocated => 2
  | .candidatePrepareStarted => 3
  | .candidatePrepared => 4
  | .transactionTriggersStarted => 5
  | .transactionTriggersComplete => 6
  | .usrExchangeIntent => 7
  | .usrExchanged => 8
  | .rootLinksComplete => 9
  | .systemTriggersStarted => 10
  | .systemTriggersComplete => 11
  | .previousArchiveIntent => 12
  | .previousArchived => 13
  | .bootSyncStarted => 14
  | .bootSyncComplete => 15
  | .commitDecided => 16
  | .commitCleanupComplete => 17
  | .complete => 18

/-- `Phase::from(ForwardPhase)`. -/
def ForwardPhase.toPhase : ForwardPhase → Phase
  | .preparing => .preparing
  | .freshStateAllocating => .freshStateAllocating
  | .freshStateAllocated => .freshStateAllocated
  | .candidatePrepareStarted => .candidatePrepareStarted
  | .candidatePrepared => .candidatePrepared
  | .transactionTriggersStarted => .transactionTriggersStarted
  | .transactionTriggersComplete => .transactionTriggersComplete
  | .usrExchangeIntent => .usrExchangeIntent
  | .usrExchanged => .usrExchanged
  | .rootLinksComplete => .rootLinksComplete
  | .systemTriggersStarted => .systemTriggersStarted
  | .systemTriggersComplete => .systemTriggersComplete
  | .previousArchiveIntent => .previousArchiveIntent
  | .previousArchived => .previousArchived
  | .bootSyncStarted => .bootSyncStarted
  | .bootSyncComplete => .bootSyncComplete
  | .commitDecided => .commitDecided
  | .commitCleanupComplete => .commitCleanupComplete
  | .complete => .complete

def Phase.forward : Phase → Option ForwardPhase
  | .preparing => some .preparing
  | .freshStateAllocating => some .freshStateAllocating
  | .freshStateAllocated => some .freshStateAllocated
  | .candidatePrepareStarted => some .candidatePrepareStarted
  | .candidatePrepared => some .candidatePrepared
  | .transactionTriggersStarted => some .transactionTriggersStarted
  | .transactionTriggersComplete => some .transactionTriggersComplete
  | .usrExchangeIntent => some .usrExchangeIntent
  | .usrExchanged => some .usrExchanged
  | .rootLinksComplete => some .rootLinksComplete
  | .systemTriggersStarted => some .systemTriggersStarted
  | .systemTriggersComplete => some .systemTriggersComplete
  | .previousArchiveIntent => some .previousArchiveIntent
  | .previousArchived => some .previousArchived
  | .bootSyncStarted => some .bootSyncStarted
  | .bootSyncComplete => some .bootSyncComplete
  | .commitDecided => some .commitDecided
  | .commitCleanupComplete => some .commitCleanupComplete
  | .complete => some .complete
  | .rollbackDecided | .previousRestoreIntent | .previousRestoredToStaging
  | .reverseExchangeIntent | .usrRestored | .candidatePreserveIntent
  | .candidatePreserved | .freshDbInvalidationIntent | .freshDbInvalidated
  | .bootRepairRequired | .bootRepairStarted | .bootRepairComplete
  | .bootRepairUnverified | .rollbackComplete => none

def Phase.blocksAdvance : Phase → Bool
  | .complete | .bootRepairUnverified | .rollbackComplete => true
  | _ => false

def Phase.deletable : Phase → Bool
  | .complete | .rollbackComplete => true
  | _ => false

def RollbackAction.required (action : RollbackAction) : Bool := action != .notRequired

def RollbackAction.resolved : RollbackAction → Bool
  | .applied | .alreadySatisfied => true
  | _ => false

/-- Positions of the four separators of the canonical boot identifier. -/
def bootIdSeparator (index : Nat) : Bool := index == 8 || index == 13 || index == 18 || index == 23

def BootId.validate (id : BootId) : Except CodecError Unit :=
  let bytes := utf8 id.text
  let canonical := bytes.length == 36 && bytes.zipIdx.all fun (byte, index) =>
    if bootIdSeparator index then byte == 0x2d else isLowerHex byte
  let nonzero := bytes.any fun byte => !(byte == 0x30 || byte == 0x2d)
  refuse (canonical = false ∨ nonzero = false) .invalidBootId

def TreeToken.validate (token : TreeToken) : Except CodecError Unit :=
  let bytes := utf8 token.text
  refuse (bytes.length ≠ 32 ∨ bytes.all isLowerHex = false ∨ bytes.all (· == 0x30) = true) .invalidTreeToken

def MountNamespaceIdentity.validate (identity : MountNamespaceIdentity) : Except CodecError Unit :=
  refuse (identity.stDev = 0 ∨ identity.inode = 0) .zeroMountNamespaceIdentity

def RuntimeEpoch.validate (epoch : RuntimeEpoch) : Except CodecError Unit := do
  epoch.bootId.validate
  epoch.mountNamespace.validate

def RuntimeTreeIdentity.validate (identity : RuntimeTreeIdentity) : Except CodecError Unit :=
  refuse (identity.stDev = 0 ∨ identity.inode = 0 ∨ identity.mountId = 0) .zeroRuntimeTreeIdentity

def RuntimeTreeIdentity.sameObject (identity other : RuntimeTreeIdentity) : Bool :=
  identity.stDev == other.stDev && identity.inode == other.inode

def requireOptionPresence {α : Type} (value : Option α) (required : Bool)
    (error : CodecError) : Except CodecError Unit :=
  refuse (value.isSome ≠ required) error

def rollbackAllowed (source : ForwardPhase) : Bool :=
  decide (source.ordinal < ForwardPhase.commitDecided.ordinal) && source != .bootSyncComplete

def Operation.expectedOrigin : Operation → CandidateOrigin
  | .newState => .fresh
  | .activateArchived => .archived
  | .activeReblit => .activeReblit

namespace TransitionRecord

def runsTransactionTriggers (record : TransitionRecord) : Bool :=
  match record.operation with
  | .newState | .activeReblit => true
  | .activateArchived => false

def candidateDispositionFor (record : TransitionRecord) (source : ForwardPhase) : AbortDisposition :=
  match record.operation with
  | .newState | .activeReblit => .quarantine
  | .activateArchived => if source = .systemTriggersStarted then .quarantine else .rearchive

/-- The version-1 block of `validate`: that payload domain has no verified
boot-repair completion and no completed boot rollback. -/
def validateV1Domain (record : TransitionRecord) : Except CodecError Unit :=
  if record.version = payloadVersionV1 then do
    refuse (record.phase = .bootRepairComplete) (.payloadVersionPhaseMismatch record.version record.phase)
    match record.rollback.map RollbackPlan.boot with
    | some .applied => .error (.payloadVersionBootRollbackMismatch record.version .applied)
    | some .alreadySatisfied => .error (.payloadVersionBootRollbackMismatch record.version .alreadySatisfied)
    | _ => .ok ()
  else .ok ()

def validateStateId : Option Int32 → Except CodecError Unit
  | some id => refuse (id ≤ 0) (.invalidStateId id)
  | none => .ok ()

/-- The forward phase whose layout the record has: its own phase, or the source
its rollback plan recorded. -/
def layoutPhase (record : TransitionRecord) : Except CodecError ForwardPhase :=
  match record.phase.forward, record.rollback with
  | some phase, none => .ok phase
  | some _, some _ => .error .rollbackPlanOnForwardPhase
  | none, some rollback =>
    if rollbackAllowed rollback.source then .ok rollback.source
    else .error (.invalidRollbackSource rollback.source)
  | none, none => .error .missingRollbackPlan

def validateBootPublicationReceipts (record : TransitionRecord) (layoutPhase : ForwardPhase) : Except CodecError Unit :=
  if record.version = payloadVersionV1 ∨ record.version = payloadVersionV2 then
    refuse (record.bootPublicationReceipts.isNone = false)
      (.payloadVersionBootPublicationReceiptsMismatch record.version)
  else
    let required := record.options.runBootSync && decide (layoutPhase.ordinal ≥ ForwardPhase.bootSyncStarted.ordinal)
    refuse (record.bootPublicationReceipts.isSome ≠ required)
      (.bootPublicationReceiptPresenceMismatch record.phase required)

def validateOptionReachability (record : TransitionRecord) (phase : ForwardPhase) :
    Except CodecError Unit := do
  refuse ((phase = .freshStateAllocating ∨ phase = .freshStateAllocated) ∧
      record.operation ≠ .newState) .freshPhaseForExistingCandidate
  refuse ((phase = .transactionTriggersStarted ∨ phase = .transactionTriggersComplete) ∧
      record.runsTransactionTriggers = false) (.disabledPhase phase.toPhase)
  refuse ((phase = .systemTriggersStarted ∨ phase = .systemTriggersComplete) ∧
      record.options.runSystemTriggers = false) (.disabledPhase phase.toPhase)
  refuse ((phase = .previousArchiveIntent ∨ phase = .previousArchived) ∧
      record.options.archivePrevious = false) (.disabledPhase phase.toPhase)
  refuse ((phase = .bootSyncStarted ∨ phase = .bootSyncComplete) ∧
      record.options.runBootSync = false) (.disabledPhase phase.toPhase)

/-- Whether a new state's candidate must, must not, or may carry its ID. An
absent allocation is already satisfied without an ID, while a concurrently
removed row keeps its ID as evidence: there either is accepted. -/
def candidateIdRequired (record : TransitionRecord) : ForwardPhase → Option Bool
  | .preparing => some false
  | .freshStateAllocating =>
    match record.rollback with
    | none => some false
    | some rollback =>
      match rollback.freshDb with
      | .pending | .applied => some true
      | .alreadySatisfied => none
      | .notRequired => some false
  | _ => some true

def validateCandidateLayout (record : TransitionRecord) (phase : ForwardPhase) : Except CodecError Unit :=
  match record.operation with
  | .newState =>
    match record.candidateIdRequired phase with
    | some required => requireOptionPresence record.candidate.id required .candidateStateLayout
    | none => .ok ()
  | .activateArchived | .activeReblit =>
    refuse (record.candidate.id.isNone = true) .existingCandidateStateMissing

/-- The previous-origin match of the new-state branch. -/
def validateNewStateOrigin (record : TransitionRecord) : Except CodecError Unit :=
  match record.previous.origin with
  | .activeState =>
    refuse (record.previous.id.isNone = true) (.previousOriginStateMismatch record.previous.origin record.previous.id)
  | .synthesizedEmpty | .unmanaged =>
    refuse (record.previous.id.isSome = true) (.previousOriginStateMismatch record.previous.origin record.previous.id)
  | .activeReblitCorrupt => .error (.previousOriginOperationMismatch record.operation record.previous.origin)

def validateRelationships (record : TransitionRecord) : Except CodecError Unit := do
  refuse (record.candidate.treeToken = record.previous.treeToken) .candidatePreviousTreeTokenCollision
  let candidate := record.candidate.usrRuntimeIdentity
  let previous := record.previous.usrRuntimeIdentity
  refuse (candidate.sameObject previous = true) .candidatePreviousObjectCollision
  refuse (candidate.stDev ≠ previous.stDev) (.candidatePreviousFilesystemMismatch candidate.stDev previous.stDev)
  refuse (candidate.mountId ≠ previous.mountId) (.candidatePreviousMountMismatch candidate.mountId previous.mountId)
  refuse (record.options.archivePrevious ≠ (record.previous.origin == .activeState))
    (.archiveOptionMismatch record.previous.origin record.options.archivePrevious)
  match record.operation with
  | .activeReblit =>
    refuse (record.previous.origin ≠ .activeReblitCorrupt ∨
      record.previous.id.isNone = true ∨ record.candidate.id ≠ record.previous.id)
      .activeReblitStateMismatch
  | .activateArchived => do
    refuse (record.previous.origin ≠ .activeState ∨
      record.previous.id.isNone = true ∨ record.candidate.id.isNone = true)
      .archivedActivationStateMismatch
    refuse (record.candidate.id.isSome = true ∧ record.candidate.id = record.previous.id)
      .candidatePreviousStateCollision
  | .newState => do
    record.validateNewStateOrigin
    refuse (record.candidate.id.isSome = true ∧ record.candidate.id = record.previous.id)
      .candidatePreviousStateCollision

end TransitionRecord

def validateRollbackRequirement (action : String) (status : RollbackAction) (possible : Bool) :
    Except CodecError Unit :=
  refuse (possible ≠ status.required) (.invalidRollbackRequirement action status possible)

/-- The boot-rollback match of the plan validator. -/
def bootRollbackAccepted (possible : Bool) (boot : BootRollback) : Bool :=
  match possible, boot with
  | false, .notRequired => true
  | true, .pendingUnverifiable | true, .applied | true, .alreadySatisfied
  | true, .unverified => true
  | _, _ => false

def TransitionRecord.validateRollbackPlan (record : TransitionRecord) (rollback : RollbackPlan) :
    Except CodecError Unit := do
  validateRollbackRequirement "previous-archive" rollback.previousArchive
    (record.options.archivePrevious && decide (rollback.source.ordinal ≥ ForwardPhase.previousArchiveIntent.ordinal))
  validateRollbackRequirement "usr-exchange" rollback.usrExchange
    (decide (rollback.source.ordinal ≥ ForwardPhase.usrExchangeIntent.ordinal))
  validateRollbackRequirement "candidate" rollback.candidate.action true
  validateRollbackRequirement "fresh-db" rollback.freshDb
    (record.operation == .newState && decide (rollback.source.ordinal ≥ ForwardPhase.freshStateAllocating.ordinal))
  let bootPossible := rollback.source == .bootSyncStarted
  refuse (bootRollbackAccepted bootPossible rollback.boot = false) .invalidBootRollbackRequirement
  let expectedDisposition := record.candidateDispositionFor rollback.source
  refuse (rollback.candidate.disposition ≠ expectedDisposition)
    (.invalidCandidateDisposition record.operation rollback.source expectedDisposition rollback.candidate.disposition)
  let externalEffectsMayRemain :=
    (record.runsTransactionTriggers &&
      decide (rollback.source.ordinal ≥ ForwardPhase.transactionTriggersStarted.ordinal)) ||
    (record.options.runSystemTriggers &&
      decide (rollback.source.ordinal ≥ ForwardPhase.systemTriggersStarted.ordinal)) ||
    rollback.source == .bootSyncStarted
  refuse (rollback.externalEffectsMayRemain ≠ externalEffectsMayRemain)
    (.invalidExternalEffectsEvidence externalEffectsMayRemain rollback.externalEffectsMayRemain)

def rollbackActions (plan : RollbackPlan) : List RollbackAction :=
  [plan.previousArchive, plan.usrExchange, plan.candidate.action, plan.freshDb]

/-- The test every settled action passes: not required, or resolved. -/
def RollbackAction.settled (action : RollbackAction) : Bool := action == .notRequired || action.resolved

def ordinaryActionsResolved (plan : RollbackPlan) : Bool := (rollbackActions plan).all RollbackAction.settled

def rollbackActionPhase : Phase → Option (Nat × Bool)
  | .previousRestoreIntent => some (0, false)
  | .previousRestoredToStaging => some (0, true)
  | .reverseExchangeIntent => some (1, false)
  | .usrRestored => some (1, true)
  | .candidatePreserveIntent => some (2, false)
  | .candidatePreserved => some (2, true)
  | .freshDbInvalidationIntent => some (3, false)
  | .freshDbInvalidated => some (3, true)
  | _ => none

def BootRollback.untouched : BootRollback → Bool
  | .notRequired | .pendingUnverifiable => true
  | _ => false

def BootRollback.repaired : BootRollback → Bool
  | .applied | .alreadySatisfied => true
  | _ => false

/-- The per-action arm of the phase match: everything before the current action
is settled, the current one is pending or resolved, nothing later is applied. -/
def matchesActionPhase (plan : RollbackPlan) (current : Nat) (completed : Bool) : Bool :=
  let actions := rollbackActions plan
  let priorResolved := (actions.take current).all RollbackAction.settled
  let currentMatches := (actions[current]?).any fun action =>
    if completed then action.resolved else action == .pending
  let laterUnapplied := (actions.drop (current + 1)).all (· != .applied)
  priorResolved && currentMatches && laterUnapplied && plan.boot.untouched

def validateRollbackPhase (phase : Phase) (plan : RollbackPlan) : Except CodecError Unit :=
  match phase with
  | .rollbackDecided =>
    refuse (((rollbackActions plan).all (· != .applied) && plan.boot.untouched) = false)
      (.rollbackPlanPhaseMismatch phase)
  | .bootRepairRequired | .bootRepairStarted =>
    refuse ((ordinaryActionsResolved plan && plan.boot == .pendingUnverifiable) = false)
      (.rollbackPlanPhaseMismatch phase)
  | .bootRepairComplete =>
    refuse ((ordinaryActionsResolved plan && plan.boot.repaired) = false) (.rollbackPlanPhaseMismatch phase)
  | .bootRepairUnverified =>
    refuse ((ordinaryActionsResolved plan && plan.boot == .unverified) = false) (.rollbackPlanPhaseMismatch phase)
  | .rollbackComplete =>
    refuse ((ordinaryActionsResolved plan && (plan.boot == .notRequired || plan.boot.repaired)) = false)
      (.rollbackPlanPhaseMismatch phase)
  | _ =>
    match rollbackActionPhase phase with
    | none => .error .rollbackPlanOnForwardPhase
    | some (current, completed) =>
      refuse (matchesActionPhase plan current completed = false) (.rollbackPlanPhaseMismatch phase)

/-- The last block of `validate`. -/
def TransitionRecord.validateRollback (record : TransitionRecord) : Except CodecError Unit :=
  match record.rollback with
  | some rollback => do
    record.validateRollbackPlan rollback
    validateRollbackPhase record.phase rollback
  | none => .ok ()

def TransitionRecord.validate (record : TransitionRecord) : Except CodecError Unit := do
  refuse (record.format ≠ payloadFormat) (.unsupportedPayloadFormat record.format)
  refuse (¬ (record.version = payloadVersionV1 ∨ record.version = payloadVersionV2 ∨
    record.version = payloadVersion)) (.unsupportedPayloadVersion record.version)
  record.validateV1Domain
  refuse (record.generation = 0) .zeroGeneration
  record.creationEpoch.validate
  record.previous.treeToken.validate
  record.candidate.treeToken.validate
  record.previous.usrRuntimeIdentity.validate
  record.candidate.usrRuntimeIdentity.validate
  validateStateId record.candidate.id
  validateStateId record.previous.id
  refuse (record.candidate.origin ≠ record.operation.expectedOrigin)
    (.operationOriginMismatch record.operation record.candidate.origin)
  let layout ← record.layoutPhase
  record.validateBootPublicationReceipts layout
  record.validateOptionReachability layout
  record.validateCandidateLayout layout
  record.validateRelationships
  record.validateRollback

/-- The forward phase after system triggers, or after the root links when the
triggers are skipped. -/
def TransitionRecord.afterSystem (record : TransitionRecord) : ForwardPhase :=
  if record.options.archivePrevious then .previousArchiveIntent
  else if record.options.runBootSync then .bootSyncStarted
  else .commitDecided

def TransitionRecord.afterArchive (record : TransitionRecord) : ForwardPhase :=
  if record.options.runBootSync then .bootSyncStarted else .commitDecided

def nextForwardPhase (record : TransitionRecord) : ForwardPhase → Option ForwardPhase
  | .preparing =>
    if record.operation = .newState then some .freshStateAllocating
    else some .candidatePrepareStarted
  | .freshStateAllocating => some .freshStateAllocated
  | .freshStateAllocated => some .candidatePrepareStarted
  | .candidatePrepareStarted => some .candidatePrepared
  | .candidatePrepared =>
    if record.runsTransactionTriggers then some .transactionTriggersStarted
    else some .usrExchangeIntent
  | .transactionTriggersStarted => some .transactionTriggersComplete
  | .transactionTriggersComplete => some .usrExchangeIntent
  | .usrExchangeIntent => some .usrExchanged
  | .usrExchanged => some .rootLinksComplete
  | .rootLinksComplete =>
    if record.options.runSystemTriggers then some .systemTriggersStarted
    else some record.afterSystem
  | .systemTriggersStarted => some .systemTriggersComplete
  | .systemTriggersComplete => some record.afterSystem
  | .previousArchiveIntent => some .previousArchived
  | .previousArchived => some record.afterArchive
  | .bootSyncStarted => some .bootSyncComplete
  | .bootSyncComplete => some .commitDecided
  | .commitDecided => some .commitCleanupComplete
  | .commitCleanupComplete => some .complete
  | .complete => none

/-- The end of the dispatch, once no ordinary action is pending. -/
def BootRollback.route : BootRollback → Option Phase
  | .pendingUnverifiable => some .bootRepairRequired
  | .notRequired => some .rollbackComplete
  | .applied | .alreadySatisfied | .unverified => none

/-- The shared dispatch of the rollback ladder: the first pending action in the
fixed order, and once none is pending the boot status. -/
def dispatchRollback (plan : RollbackPlan) : Option Phase :=
  let intents := (rollbackActions plan).zip
    [Phase.previousRestoreIntent, .reverseExchangeIntent, .candidatePreserveIntent, .freshDbInvalidationIntent]
  match intents.find? (fun entry => entry.1 == .pending) with
  | some (_, intent) => some intent
  | none => plan.boot.route

def nextRollbackPhase (plan : RollbackPlan) : Phase → Option Phase
  | .previousRestoreIntent => some .previousRestoredToStaging
  | .reverseExchangeIntent => some .usrRestored
  | .candidatePreserveIntent => some .candidatePreserved
  | .freshDbInvalidationIntent => some .freshDbInvalidated
  | .bootRepairRequired => some .bootRepairStarted
  | .bootRepairStarted => some .bootRepairUnverified
  | .bootRepairComplete => some .rollbackComplete
  | .bootRepairUnverified | .rollbackComplete => none
  | .rollbackDecided | .previousRestoredToStaging | .usrRestored | .candidatePreserved
  | .freshDbInvalidated => dispatchRollback plan
  | _ => none

/-- The action an edge of the rollback ladder completes, by its index. -/
def completedAction : Phase → Phase → Option Nat
  | .previousRestoreIntent, .previousRestoredToStaging => some 0
  | .reverseExchangeIntent, .usrRestored => some 1
  | .candidatePreserveIntent, .candidatePreserved => some 2
  | .freshDbInvalidationIntent, .freshDbInvalidated => some 3
  | _, _ => none

/-- One turn of the status loop: the completed action moves from pending to a
resolved status, every other action keeps its status. -/
def validateActionAdvance (completed : Option Nat)
    (entry : (RollbackAction × RollbackAction) × Nat) : Except CodecError Unit :=
  let ((before, after), index) := entry
  if some index = completed then
    refuse (before ≠ .pending ∨ after.resolved = false) .rollbackPlanChangedIllegally
  else
    refuse (before ≠ after) .rollbackPlanChangedIllegally

def validateBootAdvance (expected next : BootRollback) (currentPhase nextPhase : Phase) : Bool :=
  (currentPhase == .bootRepairStarted && nextPhase == .bootRepairUnverified &&
    expected == .pendingUnverifiable && next == .unverified) ||
  (currentPhase == .bootRepairStarted && nextPhase == .bootRepairComplete &&
    expected == .pendingUnverifiable && next.repaired) ||
  expected == next

def validateRollbackPlanAdvance (expected next : RollbackPlan) (currentPhase nextPhase : Phase) :
    Except CodecError Unit := do
  refuse (expected.source ≠ next.source ∨ expected.candidate.disposition ≠ next.candidate.disposition ∨
    expected.externalEffectsMayRemain ≠ next.externalEffectsMayRemain)
    .rollbackPlanChangedIllegally
  ((rollbackActions expected).zip (rollbackActions next)).zipIdx.forM
    (validateActionAdvance (completedAction currentPhase nextPhase))
  refuse (validateBootAdvance expected.boot next.boot currentPhase nextPhase = false) .rollbackPlanChangedIllegally

/-- `generation.checked_add(1)`. -/
def nextGeneration (generation : UInt64) : Option UInt64 :=
  if generation.toNat + 1 < UInt64.size then some (generation + 1) else none

/-- The phase match of `validate_advance`, on already validated records. -/
def validatePhaseAdvance (expected next : TransitionRecord) : Except CodecError Unit :=
  match expected.phase.forward, next.phase.forward with
  | some current, some actual => do
    let wanted ← okOr (nextForwardPhase expected current) .terminalPhaseAdvance
    refuse (actual ≠ wanted) (.illegalPhaseAdvance expected.phase next.phase)
  | some current, none =>
    refuse (next.phase ≠ .rollbackDecided ∨ rollbackAllowed current = false ∨
      next.rollback.map RollbackPlan.source ≠ some current)
      (.illegalPhaseAdvance expected.phase next.phase)
  | none, some _ => .error (.illegalPhaseAdvance expected.phase next.phase)
  | none, none => do
    -- The source expects both plans here: validation has found them already.
    let expectedPlan ← okOr expected.rollback .missingRollbackPlan
    let nextPlan ← okOr next.rollback .missingRollbackPlan
    refuse (¬ (expected.phase = .bootRepairStarted ∧ next.phase = .bootRepairComplete) ∧
      nextRollbackPhase expectedPlan expected.phase ≠ some next.phase)
      (.illegalPhaseAdvance expected.phase next.phase)
    validateRollbackPlanAdvance expectedPlan nextPlan expected.phase next.phase

/-- The only two edges which may introduce the candidate's state ID. -/
def candidateIdIntroduced (expected next : TransitionRecord) : Bool :=
  (expected.phase == .freshStateAllocating && next.phase == .freshStateAllocated &&
    expected.candidate.id.isNone && next.candidate.id.isSome) ||
  (expected.phase == .freshStateAllocating && next.phase == .rollbackDecided &&
    expected.candidate.id.isNone && next.candidate.id.isSome &&
    next.rollback.any (·.freshDb == .pending))

/-- The only edge which may introduce the receipt correlation. -/
def receiptEntry (expected next : TransitionRecord) : Bool :=
  expected.version == payloadVersion && expected.bootPublicationReceipts.isNone &&
    next.bootPublicationReceipts.isSome && next.phase == .bootSyncStarted

def validateAdvance (expected next : TransitionRecord) : Except CodecError Unit := do
  expected.validate
  next.validate
  refuse (expected.phase.blocksAdvance = true) .terminalPhaseAdvance
  let expectedGeneration ← okOr (nextGeneration expected.generation) .generationExhausted
  refuse (next.generation ≠ expectedGeneration) (.generationMismatch expectedGeneration next.generation)
  refuse (expected.transitionId ≠ next.transitionId) .transitionChanged
  refuse (expected.bootPublicationReceipts ≠ next.bootPublicationReceipts ∧
    receiptEntry expected next = false) .bootPublicationReceiptsChangedIllegally
  refuse (expected.format ≠ next.format ∨ expected.version ≠ next.version ∨
    expected.creationEpoch ≠ next.creationEpoch ∨ expected.operation ≠ next.operation ∨
    expected.previous ≠ next.previous ∨ expected.options ≠ next.options ∨
    expected.quarantineName ≠ next.quarantineName ∨
    expected.candidate.origin ≠ next.candidate.origin ∨
    expected.candidate.treeToken ≠ next.candidate.treeToken ∨
    expected.candidate.usrRuntimeIdentity ≠ next.candidate.usrRuntimeIdentity)
    .immutableTransitionDataChanged
  validatePhaseAdvance expected next
  refuse (expected.candidate.id ≠ next.candidate.id ∧ candidateIdIntroduced expected next = false)
    .candidateStateChangedIllegally

inductive RecoveryDisposition where
  | beginRollback (source : ForwardPhase)
  | resumeRollback (phase : Phase)
  | rollForward (phase : ForwardPhase)
  | finalizeRollback
  | manualBootRepair

/-- The forward phases are spelled out where the source unwraps `forward()`. -/
def Phase.recoveryDisposition : Phase → RecoveryDisposition
  | .preparing => .beginRollback .preparing
  | .freshStateAllocating => .beginRollback .freshStateAllocating
  | .freshStateAllocated => .beginRollback .freshStateAllocated
  | .candidatePrepareStarted => .beginRollback .candidatePrepareStarted
  | .candidatePrepared => .beginRollback .candidatePrepared
  | .transactionTriggersStarted => .beginRollback .transactionTriggersStarted
  | .transactionTriggersComplete => .beginRollback .transactionTriggersComplete
  | .usrExchangeIntent => .beginRollback .usrExchangeIntent
  | .usrExchanged => .beginRollback .usrExchanged
  | .rootLinksComplete => .beginRollback .rootLinksComplete
  | .systemTriggersStarted => .beginRollback .systemTriggersStarted
  | .systemTriggersComplete => .beginRollback .systemTriggersComplete
  | .previousArchiveIntent => .beginRollback .previousArchiveIntent
  | .previousArchived => .beginRollback .previousArchived
  | .bootSyncStarted => .beginRollback .bootSyncStarted
  | .bootSyncComplete => .rollForward .bootSyncComplete
  | .commitDecided => .rollForward .commitDecided
  | .commitCleanupComplete => .rollForward .commitCleanupComplete
  | .complete => .rollForward .complete
  | .rollbackDecided => .resumeRollback .rollbackDecided
  | .previousRestoreIntent => .resumeRollback .previousRestoreIntent
  | .previousRestoredToStaging => .resumeRollback .previousRestoredToStaging
  | .reverseExchangeIntent => .resumeRollback .reverseExchangeIntent
  | .usrRestored => .resumeRollback .usrRestored
  | .candidatePreserveIntent => .resumeRollback .candidatePreserveIntent
  | .candidatePreserved => .resumeRollback .candidatePreserved
  | .freshDbInvalidationIntent => .resumeRollback .freshDbInvalidationIntent
  | .freshDbInvalidated => .resumeRollback .freshDbInvalidated
  | .bootRepairRequired => .resumeRollback .bootRepairRequired
  | .bootRepairStarted => .resumeRollback .bootRepairStarted
  | .bootRepairComplete => .resumeRollback .bootRepairComplete
  | .bootRepairUnverified => .manualBootRepair
  | .rollbackComplete => .finalizeRollback

def TransitionRecord.recoveryDisposition (record : TransitionRecord) : RecoveryDisposition :=
  record.phase.recoveryDisposition

end Cast.TransitionJournal
