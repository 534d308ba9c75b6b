import Cast.Foundation.Machine

/-! The persisted record of the single in-flight state transition. Every field
of the durable payload is kept; text is held as a string and inspected through
its UTF-8 bytes, as the source does. -/

namespace Cast

open Foundation

/-- The bytes of a text in the order the source iterates them. -/
def utf8 (value : String) : List UInt8 := value.toUTF8.data.toList

def isAsciiLowercase (byte : UInt8) : Bool := 0x61 ≤ byte && byte ≤ 0x7a

namespace State

/-- Durable correlation identifier of one state transition. The text was
accepted by the parser: exactly 32 lowercase hexadecimal characters. -/
structure TransitionId where
  text : String
  canonical : (utf8 text).length = 32 ∧ (utf8 text).all isLowerHex = true
deriving DecidableEq

def TransitionId.parse (value : String) : Option TransitionId :=
  if canonical : (utf8 value).length = 32 ∧ (utf8 value).all isLowerHex = true then
    some ⟨value, canonical⟩
  else none

end State

namespace BootPublication

/-- SHA-256 identity of one complete receipt. -/
structure ReceiptFingerprint where
  bytes : Vector UInt8 32
deriving DecidableEq

structure ReceiptPair where
  committed : Option ReceiptFingerprint
  pending : ReceiptFingerprint
deriving DecidableEq

end BootPublication

namespace TransitionJournal

open State BootPublication

def maxQuarantineNameBytes : Nat := 128

/-- The admission test of `QuarantineName::parse`. -/
def quarantineNameAccepted (value : String) : Bool :=
  let bytes := utf8 value
  !(bytes.isEmpty || decide (bytes.length > maxQuarantineNameBytes) ||
    value == "." || value == ".." ||
    bytes.any fun byte => !isAsciiLowercase byte && !isAsciiDigit byte &&
      !(byte == 0x2d || byte == 0x5f || byte == 0x2e))

/-- One bounded lowercase path component; only parsed names exist. -/
structure QuarantineName where
  text : String
  accepted : quarantineNameAccepted text = true
deriving DecidableEq

inductive Operation where
  | newState
  | activateArchived
  | activeReblit
deriving DecidableEq

inductive CandidateOrigin where
  | fresh
  | archived
  | activeReblit
deriving DecidableEq

inductive PreviousOrigin where
  | activeState
  | activeReblitCorrupt
  | synthesizedEmpty
  | unmanaged
deriving DecidableEq

inductive AbortDisposition where
  | rearchive
  | quarantine
deriving DecidableEq

inductive Phase where
  | preparing
  | freshStateAllocating
  | freshStateAllocated
  | candidatePrepareStarted
  | candidatePrepared
  | transactionTriggersStarted
  | transactionTriggersComplete
  | usrExchangeIntent
  | usrExchanged
  | rootLinksComplete
  | systemTriggersStarted
  | systemTriggersComplete
  | previousArchiveIntent
  | previousArchived
  | bootSyncStarted
  | bootSyncComplete
  | commitDecided
  | commitCleanupComplete
  | complete
  | rollbackDecided
  | previousRestoreIntent
  | previousRestoredToStaging
  | reverseExchangeIntent
  | usrRestored
  | candidatePreserveIntent
  | candidatePreserved
  | freshDbInvalidationIntent
  | freshDbInvalidated
  | bootRepairRequired
  | bootRepairStarted
  | bootRepairComplete
  | bootRepairUnverified
  | rollbackComplete
deriving DecidableEq

inductive ForwardPhase where
  | preparing
  | freshStateAllocating
  | freshStateAllocated
  | candidatePrepareStarted
  | candidatePrepared
  | transactionTriggersStarted
  | transactionTriggersComplete
  | usrExchangeIntent
  | usrExchanged
  | rootLinksComplete
  | systemTriggersStarted
  | systemTriggersComplete
  | previousArchiveIntent
  | previousArchived
  | bootSyncStarted
  | bootSyncComplete
  | commitDecided
  | commitCleanupComplete
  | complete
deriving DecidableEq

/-- Canonical kernel boot identifier captured when a transition is created. The
text is checked by validation, not by construction. -/
structure BootId where
  text : String
deriving DecidableEq

/-- Immutable random logical identity assigned to one `/usr` tree. -/
structure TreeToken where
  text : String
deriving DecidableEq

structure MountNamespaceIdentity where
  stDev : UInt64
  inode : UInt64
deriving DecidableEq

structure RuntimeEpoch where
  bootId : BootId
  mountNamespace : MountNamespaceIdentity
deriving DecidableEq

structure RuntimeTreeIdentity where
  stDev : UInt64
  inode : UInt64
  mountId : UInt64
deriving DecidableEq

structure Candidate where
  id : Option Int32
  origin : CandidateOrigin
  treeToken : TreeToken
  usrRuntimeIdentity : RuntimeTreeIdentity
deriving DecidableEq

structure Previous where
  id : Option Int32
  treeToken : TreeToken
  usrRuntimeIdentity : RuntimeTreeIdentity
  origin : PreviousOrigin
deriving DecidableEq

structure TransitionOptions where
  archivePrevious : Bool
  runSystemTriggers : Bool
  runBootSync : Bool
deriving DecidableEq

inductive RollbackAction where
  | notRequired
  | pending
  | applied
  | alreadySatisfied
deriving DecidableEq

inductive BootRollback where
  | notRequired
  | pendingUnverifiable
  | applied
  | alreadySatisfied
  | unverified
deriving DecidableEq

structure CandidateRollback where
  action : RollbackAction
  disposition : AbortDisposition
deriving DecidableEq

structure RollbackPlan where
  source : ForwardPhase
  previousArchive : RollbackAction
  usrExchange : RollbackAction
  candidate : CandidateRollback
  freshDb : RollbackAction
  boot : BootRollback
  externalEffectsMayRemain : Bool
deriving DecidableEq

@[ext] structure TransitionRecord where
  format : String
  version : UInt16
  generation : UInt64
  transitionId : TransitionId
  creationEpoch : RuntimeEpoch
  operation : Operation
  phase : Phase
  rollback : Option RollbackPlan
  bootPublicationReceipts : Option ReceiptPair
  candidate : Candidate
  previous : Previous
  options : TransitionOptions
  quarantineName : QuarantineName
deriving DecidableEq

inductive CodecError where
  | recordTooLarge (size : Nat)
  | truncatedHeader (size : Nat)
  | invalidMagic
  | unsupportedFrameVersion (version : UInt16)
  | lengthMismatch (declared actual : Nat)
  | checksumMismatch
  | json (message : String)
  | nonCanonicalPayload
  | unsupportedPayloadFormat (format : String)
  | unsupportedPayloadVersion (version : UInt16)
  | payloadVersionPhaseMismatch (version : UInt16) (phase : Phase)
  | payloadVersionBootRollbackMismatch (version : UInt16) (status : BootRollback)
  | payloadVersionBootPublicationReceiptsMismatch (version : UInt16)
  | bootPublicationReceiptPresenceMismatch (phase : Phase) (required : Bool)
  | zeroGeneration
  | generationExhausted
  | generationMismatch (expected actual : UInt64)
  | invalidBootId
  | invalidTreeToken
  | invalidQuarantineName
  | invalidStateId (id : Int32)
  | operationOriginMismatch (operation : Operation) (origin : CandidateOrigin)
  | existingCandidateStateMissing
  | candidateStateLayout
  | activeReblitStateMismatch
  | archivedActivationStateMismatch
  | previousOriginStateMismatch (origin : PreviousOrigin) (stateId : Option Int32)
  | previousOriginOperationMismatch (operation : Operation) (origin : PreviousOrigin)
  | archiveOptionMismatch (origin : PreviousOrigin) (archivePrevious : Bool)
  | zeroMountNamespaceIdentity
  | zeroRuntimeTreeIdentity
  | rollbackPlanOnForwardPhase
  | missingRollbackPlan
  | invalidRollbackSource (source : ForwardPhase)
  | disabledPhase (phase : Phase)
  | freshPhaseForExistingCandidate
  | candidatePreviousTreeTokenCollision
  | candidatePreviousObjectCollision
  | candidatePreviousFilesystemMismatch (candidate previous : UInt64)
  | candidatePreviousMountMismatch (candidate previous : UInt64)
  | candidatePreviousStateCollision
  | invalidRollbackRequirement (action : String) (status : RollbackAction) (possible : Bool)
  | invalidBootRollbackRequirement
  | invalidCandidateDisposition (operation : Operation) (rollbackSource : ForwardPhase)
      (expected actual : AbortDisposition)
  | invalidExternalEffectsEvidence (expected actual : Bool)
  | rollbackPlanPhaseMismatch (phase : Phase)
  | transitionChanged
  | immutableTransitionDataChanged
  | terminalPhaseAdvance
  | illegalPhaseAdvance (current next : Phase)
  | rollbackPlanChangedIllegally
  | rollbackActionOutcomeMismatch
  | explicitBootRepairSuccessorRequired (phase : Phase)
  | explicitBootSyncStartedSuccessorRequired
  | explicitBootSyncCompleteSuccessorRequired
  | bootPublicationReceiptsChangedIllegally
  | candidateStateChangedIllegally

def QuarantineName.parse (value : String) : Except CodecError QuarantineName :=
  if accepted : quarantineNameAccepted value = true then .ok ⟨value, accepted⟩
  else .error .invalidQuarantineName

def payloadFormat : String := "cast-state-transition"

/-- Legacy payloads stay readable and advance only where the successor needs no
authenticated receipt evidence. -/
def payloadVersionV1 : UInt16 := 1

/-- Adds verified boot-repair completion, still without receipt correlation. -/
def payloadVersionV2 : UInt16 := 2

/-- The write version of every newly prepared transition. -/
def payloadVersion : UInt16 := 3

end TransitionJournal

end Cast
