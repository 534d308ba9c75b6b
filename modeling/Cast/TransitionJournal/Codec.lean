import Cast.Foundation.BigEndian
import Cast.Foundation.Json
import Cast.TransitionJournal.Validation

/-! The durable form of a record: canonical JSON inside a checksummed frame. The
serializer is spelled out as the derived one writes it, field by field in
declaration order. The digest and the JSON reader belong to other crates and
are parameters. -/

namespace Cast

open Foundation

def BootPublication.ReceiptFingerprint.toJson (fingerprint : BootPublication.ReceiptFingerprint) : List UInt8 :=
  jsonString (fingerprint.bytes.toList.flatMap fun (byte : UInt8) =>
    [hexDigit (byte >>> 4), hexDigit (byte &&& 0x0f)])

def BootPublication.ReceiptPair.toJson (pair : BootPublication.ReceiptPair) : List UInt8 :=
  jsonObject [ (utf8 "committed", jsonOption ReceiptFingerprint.toJson pair.committed),
    (utf8 "pending", pair.pending.toJson)]

namespace TransitionJournal

/-- A string value; the enumerations are written as their kebab-case names. -/
def jsonText (text : String) : List UInt8 := jsonString (utf8 text)

def Operation.name : Operation → String
  | .newState => "new-state"
  | .activateArchived => "activate-archived"
  | .activeReblit => "active-reblit"

def CandidateOrigin.name : CandidateOrigin → String
  | .fresh => "fresh"
  | .archived => "archived"
  | .activeReblit => "active-reblit"

def PreviousOrigin.name : PreviousOrigin → String
  | .activeState => "active-state"
  | .activeReblitCorrupt => "active-reblit-corrupt"
  | .synthesizedEmpty => "synthesized-empty"
  | .unmanaged => "unmanaged"

def AbortDisposition.name : AbortDisposition → String
  | .rearchive => "rearchive"
  | .quarantine => "quarantine"

def Phase.name : Phase → String
  | .preparing => "preparing"
  | .freshStateAllocating => "fresh-state-allocating"
  | .freshStateAllocated => "fresh-state-allocated"
  | .candidatePrepareStarted => "candidate-prepare-started"
  | .candidatePrepared => "candidate-prepared"
  | .transactionTriggersStarted => "transaction-triggers-started"
  | .transactionTriggersComplete => "transaction-triggers-complete"
  | .usrExchangeIntent => "usr-exchange-intent"
  | .usrExchanged => "usr-exchanged"
  | .rootLinksComplete => "root-links-complete"
  | .systemTriggersStarted => "system-triggers-started"
  | .systemTriggersComplete => "system-triggers-complete"
  | .previousArchiveIntent => "previous-archive-intent"
  | .previousArchived => "previous-archived"
  | .bootSyncStarted => "boot-sync-started"
  | .bootSyncComplete => "boot-sync-complete"
  | .commitDecided => "commit-decided"
  | .commitCleanupComplete => "commit-cleanup-complete"
  | .complete => "complete"
  | .rollbackDecided => "rollback-decided"
  | .previousRestoreIntent => "previous-restore-intent"
  | .previousRestoredToStaging => "previous-restored-to-staging"
  | .reverseExchangeIntent => "reverse-exchange-intent"
  | .usrRestored => "usr-restored"
  | .candidatePreserveIntent => "candidate-preserve-intent"
  | .candidatePreserved => "candidate-preserved"
  | .freshDbInvalidationIntent => "fresh-db-invalidation-intent"
  | .freshDbInvalidated => "fresh-db-invalidated"
  | .bootRepairRequired => "boot-repair-required"
  | .bootRepairStarted => "boot-repair-started"
  | .bootRepairComplete => "boot-repair-complete"
  | .bootRepairUnverified => "boot-repair-unverified"
  | .rollbackComplete => "rollback-complete"

/-- The forward phases carry the same names in their own enumeration. -/
def ForwardPhase.name (phase : ForwardPhase) : String := phase.toPhase.name

def RollbackAction.name : RollbackAction → String
  | .notRequired => "not-required"
  | .pending => "pending"
  | .applied => "applied"
  | .alreadySatisfied => "already-satisfied"

def BootRollback.name : BootRollback → String
  | .notRequired => "not-required"
  | .pendingUnverifiable => "pending-unverifiable"
  | .applied => "applied"
  | .alreadySatisfied => "already-satisfied"
  | .unverified => "unverified"

def MountNamespaceIdentity.toJson (identity : MountNamespaceIdentity) : List UInt8 :=
  jsonObject [ (utf8 "st_dev", jsonNatural identity.stDev.toNat), (utf8 "inode", jsonNatural identity.inode.toNat)]

def RuntimeEpoch.toJson (epoch : RuntimeEpoch) : List UInt8 :=
  jsonObject [ (utf8 "boot_id", jsonText epoch.bootId.text), (utf8 "mount_namespace", epoch.mountNamespace.toJson)]

def RuntimeTreeIdentity.toJson (identity : RuntimeTreeIdentity) : List UInt8 :=
  jsonObject [ (utf8 "st_dev", jsonNatural identity.stDev.toNat), (utf8 "inode", jsonNatural identity.inode.toNat),
    (utf8 "mount_id", jsonNatural identity.mountId.toNat)]

def stateIdToJson (id : Int32) : List UInt8 := jsonInteger id.toInt

def Candidate.toJson (candidate : Candidate) : List UInt8 :=
  jsonObject [ (utf8 "id", jsonOption stateIdToJson candidate.id), (utf8 "origin", jsonText candidate.origin.name),
    (utf8 "tree_token", jsonText candidate.treeToken.text),
    (utf8 "usr_runtime_identity", candidate.usrRuntimeIdentity.toJson)]

def Previous.toJson (previous : Previous) : List UInt8 :=
  jsonObject [ (utf8 "id", jsonOption stateIdToJson previous.id), (utf8 "tree_token", jsonText previous.treeToken.text),
    (utf8 "usr_runtime_identity", previous.usrRuntimeIdentity.toJson),
    (utf8 "origin", jsonText previous.origin.name)]

def TransitionOptions.toJson (options : TransitionOptions) : List UInt8 :=
  jsonObject [ (utf8 "archive_previous", jsonBool options.archivePrevious),
    (utf8 "run_system_triggers", jsonBool options.runSystemTriggers),
    (utf8 "run_boot_sync", jsonBool options.runBootSync)]

def CandidateRollback.toJson (candidate : CandidateRollback) : List UInt8 :=
  jsonObject [ (utf8 "action", jsonText candidate.action.name),
    (utf8 "disposition", jsonText candidate.disposition.name)]

def RollbackPlan.toJson (plan : RollbackPlan) : List UInt8 :=
  jsonObject [ (utf8 "source", jsonText plan.source.name),
    (utf8 "previous_archive", jsonText plan.previousArchive.name),
    (utf8 "usr_exchange", jsonText plan.usrExchange.name),
    (utf8 "candidate", plan.candidate.toJson),
    (utf8 "fresh_db", jsonText plan.freshDb.name),
    (utf8 "boot", jsonText plan.boot.name),
    (utf8 "external_effects_may_remain", jsonBool plan.externalEffectsMayRemain)]

/-- `serde_json::to_vec`. An absent receipt correlation is skipped, every other
optional field is written as null. -/
def TransitionRecord.toVec (record : TransitionRecord) : List UInt8 :=
  jsonObject ([ (utf8 "format", jsonText record.format), (utf8 "version", jsonNatural record.version.toNat),
    (utf8 "generation", jsonNatural record.generation.toNat),
    (utf8 "transition_id", jsonText record.transitionId.text),
    (utf8 "creation_epoch", record.creationEpoch.toJson),
    (utf8 "operation", jsonText record.operation.name),
    (utf8 "phase", jsonText record.phase.name),
    (utf8 "rollback", jsonOption RollbackPlan.toJson record.rollback)] ++
    (record.bootPublicationReceipts.map fun receipts =>
      (utf8 "boot_publication_receipts", receipts.toJson)).toList ++ [
    (utf8 "candidate", record.candidate.toJson),
    (utf8 "previous", record.previous.toJson),
    (utf8 "options", record.options.toJson),
    (utf8 "quarantine_name", jsonText record.quarantineName.text)])

def magic : List UInt8 := utf8 "CASTSTJ\x00"

def frameVersion : Nat := 1

def magicEnd : Nat := 8

def versionEnd : Nat := magicEnd + 2

def lengthEnd : Nat := versionEnd + 4

def checksumEnd : Nat := lengthEnd + 32

def headerSize : Nat := checksumEnd

def maxCanonicalRecordBytes : Nat := 16 * 1024

/-- `u32::try_from` of a length. -/
def lengthField (size : Nat) : Option Nat := if size < UInt32.size then some size else none

def enforceRecordSize (size : Nat) : Except CodecError Unit :=
  refuse (size > maxCanonicalRecordBytes) (.recordTooLarge size)

/-- `bytes[start..stop]`. -/
def slice (start stop : Nat) (bytes : List UInt8) : List UInt8 := (bytes.take stop).drop start

section Frame

variable (sha256 : List UInt8 → Vector UInt8 32)

def checksum (version length payload : List UInt8) : List UInt8 :=
  (sha256 (magic ++ version ++ length ++ payload)).toList

def encode (record : TransitionRecord) : Except CodecError (List UInt8) := do
  record.validate
  let payload := record.toVec
  let framedLen ← okOr (checkedAdd headerSize payload.length) (.recordTooLarge usizeMax)
  enforceRecordSize framedLen
  let payloadLen ← okOr (lengthField payload.length) (.recordTooLarge framedLen)
  let version := toBigEndian 2 frameVersion
  let length := toBigEndian 4 payloadLen
  pure (magic ++ version ++ length ++ checksum sha256 version length payload ++ payload)

variable (fromSlice : List UInt8 → Except String TransitionRecord)

def decode (framed : List UInt8) : Except CodecError TransitionRecord := do
  enforceRecordSize framed.length
  refuse (framed.length < headerSize) (.truncatedHeader framed.length)
  refuse (framed.take magicEnd ≠ magic) .invalidMagic
  let version := slice magicEnd versionEnd framed
  refuse (fromBigEndian version ≠ frameVersion) (.unsupportedFrameVersion (UInt16.ofNat (fromBigEndian version)))
  let length := slice versionEnd lengthEnd framed
  let payloadLen := fromBigEndian length
  let expectedLen ← okOr (checkedAdd headerSize payloadLen) (.recordTooLarge usizeMax)
  refuse (expectedLen ≠ framed.length) (.lengthMismatch payloadLen (framed.length - headerSize))
  let payload := framed.drop headerSize
  refuse (slice lengthEnd checksumEnd framed ≠ checksum sha256 version length payload) .checksumMismatch
  let record ← (fromSlice payload).mapError .json
  record.validate
  refuse (record.toVec ≠ payload) .nonCanonicalPayload
  pure record

end Frame

end TransitionJournal

end Cast
