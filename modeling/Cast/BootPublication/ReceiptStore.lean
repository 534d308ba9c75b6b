import Cast.BootPublication.ReceiptCodec

/-! The durable chain of boot-publication receipts. The head names the committed receipt
and at most one pending one; the bodies are stored once and stay. A receipt is staged as
pending, and promotion makes exactly that one the committed head.
SQLite types values and not columns, so a column may hold a value of any storage class; what
the schema declares are constraints that a statement must keep. -/

namespace Cast.BootPublication.ReceiptStore

open Foundation State

inductive StorageClass where
  | null
  | integer
  | real
  | text
  | blob
deriving DecidableEq

inductive SqlValue where
  | null
  | integer (value : Int)
  /-- A float, by the text it is shown as. -/
  | real (shown : String)
  | text (value : String)
  | blob (bytes : List UInt8)
deriving DecidableEq

def SqlValue.typeof : SqlValue → StorageClass
  | null => .null
  | integer _ => .integer
  | real _ => .real
  | text _ => .text
  | blob _ => .blob

/-- `length(CAST(value AS BLOB))`, which for a blob is its `length`. -/
def SqlValue.byteLength : SqlValue → Option Nat
  | null => none
  | integer value => some (utf8 (toString value)).length
  | real shown => some (utf8 shown).length
  | text value => some (utf8 value).length
  | blob bytes => some bytes.length

def fingerprintToSql (fingerprint : ReceiptFingerprint) : SqlValue := .blob fingerprint.bytes.toList

def transitionToSql (transitionId : TransitionId) : SqlValue := .text transitionId.text

def optionToSql {α : Type} (toSql : α → SqlValue) : Option α → SqlValue
  | none => .null
  | some value => toSql value

/-- What SQLite or Diesel reports. -/
inductive DatabaseError where
  | notFound
  | deserialization
  | constraintViolation
  /-- A failed `BEGIN`, `COMMIT` or `ROLLBACK`, by its result code. -/
  | transaction (code : Int)

/-- A row of `boot_publication_receipt_head`. -/
structure HeadRow where
  singleton : Int
  committedReceiptSha256 : SqlValue
  pendingTransitionId : SqlValue
  pendingReceiptSha256 : SqlValue

/-- A row of `boot_publication_receipts`. -/
structure ReceiptRow where
  receiptSha256 : SqlValue
  transitionId : SqlValue
  canonicalBody : SqlValue

structure Database where
  head : List HeadRow
  receipts : List ReceiptRow

/-- The tables as the migrations leave them. -/
def Database.initial : Database := ⟨[⟨1, .null, .null, .null⟩], []⟩

def isFingerprintValue : SqlValue → Bool
  | .blob bytes => bytes.length == 32
  | _ => false

/-- The text has 32 bytes, each a lowercase hexadecimal digit. -/
def isTransitionValue : SqlValue → Bool
  | .text value => (utf8 value).length == 32 && (utf8 value).all isLowerHex
  | _ => false

def isBodyValue : SqlValue → Bool
  | .blob bytes => 0 < bytes.length && bytes.length ≤ 16777216
  | _ => false

def HeadRow.isAccepted (row : HeadRow) : Bool :=
  row.singleton == 1 && (row.committedReceiptSha256 == .null || isFingerprintValue row.committedReceiptSha256) &&
    (row.pendingTransitionId == .null && row.pendingReceiptSha256 == .null ||
      isTransitionValue row.pendingTransitionId && isFingerprintValue row.pendingReceiptSha256)

/-- The constraints on a row of the receipts, with its two unique columns. -/
def ReceiptRow.isAccepted (row : ReceiptRow) (others : List ReceiptRow) : Bool :=
  isFingerprintValue row.receiptSha256 && isTransitionValue row.transitionId && isBodyValue row.canonicalBody &&
    others.all fun other =>
      other.receiptSha256 != row.receiptSha256 && other.transitionId != row.transitionId

/-- `INSERT`: the number of rows inserted, and the database with them. -/
def Database.insertReceiptRow (database : Database) (row : ReceiptRow) : Except DatabaseError (Nat × Database) := do
  refuse (row.isAccepted database.receipts = false) .constraintViolation
  return (1, { database with receipts := database.receipts ++ [row] })

/-- `UPDATE … WHERE`: the number of rows changed, and the database with them. -/
def Database.updateHead (database : Database) (selected : HeadRow → Bool)
    (set : HeadRow → HeadRow) : Except DatabaseError (Nat × Database) := do
  let changed := database.head.filter selected
  refuse (changed.any (fun row => !(set row).isAccepted) = true) .constraintViolation
  return (changed.length, { database with head := database.head.map fun row => if selected row then set row else row })

inductive FingerprintError where
  | invalidBinaryLength (actual : Nat)

def fingerprintFromSlice (bytes : List UInt8) : Except FingerprintError ReceiptFingerprint :=
  if exact : bytes.length = 32 then .ok ⟨⟨bytes.toArray, by simpa using exact⟩⟩
  else .error (.invalidBinaryLength bytes.length)

variable (device : DeviceNumbers) (sha256 : List UInt8 → Vector UInt8 32)
  (fromSlice : List UInt8 → Except String ReceiptBody)

structure PendingReceipt where
  transitionId : TransitionId
  fingerprint : ReceiptFingerprint

structure ReceiptHead where
  committed : Option ReceiptFingerprint
  pending : Option PendingReceipt

/-- The pair that the journal keeps, only for the given transition. -/
def ReceiptHead.receiptPairFor (head : ReceiptHead) (transitionId : TransitionId) : Option ReceiptPair :=
  (head.pending.filter fun pending => pending.transitionId = transitionId).map fun pending =>
    ⟨head.committed, pending.fingerprint⟩

inductive HeadError where
  | missingSingleton
  | multipleRows
  | invalidSingleton (actual : Int)
  | incompletePendingPair (transitionPresent receiptPresent : Bool)
  | invalidPendingTransitionId
  | invalidStoredFingerprint (field : String) (source : FingerprintError)
  | invalidStorageType (field : String) (expected actual : StorageClass)
  | invalidStoredFieldLength (field : String) (expected : Nat) (actual : Option Nat)
  | database (source : DatabaseError)

def receiptHeadSingleton : Int := 1

def receiptHeadScanLimit : Nat := 2

def validateNullableStorage (field : String) (present : StorageClass) (value : SqlValue)
    (expectedBytes : Nat) : Except HeadError Bool :=
  if value.typeof = .null ∧ value.byteLength = none then .ok false
  else if value.typeof = present ∧ value.byteLength = some expectedBytes then .ok true
  else if value.typeof ≠ present then .error (.invalidStorageType field present value.typeof)
  else .error (.invalidStoredFieldLength field expectedBytes value.byteLength)

def validateReceiptHeadShape (row : HeadRow) : Except HeadError Unit := do
  refuse (row.singleton ≠ receiptHeadSingleton) (.invalidSingleton row.singleton)
  let _ ← validateNullableStorage "committed_receipt_sha256" .blob row.committedReceiptSha256 32
  let transitionPresent ← validateNullableStorage "pending_transition_id" .text row.pendingTransitionId 32
  let receiptPresent ← validateNullableStorage "pending_receipt_sha256" .blob row.pendingReceiptSha256 32
  refuse (transitionPresent ≠ receiptPresent) (.incompletePendingPair transitionPresent receiptPresent)

/-- A nullable column of bytes, as Diesel reads it. -/
def readBlob : SqlValue → Except HeadError (Option (List UInt8))
  | .null => .ok none
  | .blob bytes => .ok (some bytes)
  | _ => .error (.database .deserialization)

def readText : SqlValue → Except HeadError (Option String)
  | .null => .ok none
  | .text value => .ok (some value)
  | _ => .error (.database .deserialization)

def decodeFingerprint (field : String) (bytes : List UInt8) : Except HeadError ReceiptFingerprint :=
  (fingerprintFromSlice bytes).mapError (.invalidStoredFingerprint field)

def decodePending : Option String → Option (List UInt8) → Except HeadError (Option PendingReceipt)
  | none, none => .ok none
  | some transitionId, some receipt => do
    let transitionId ← okOr (TransitionId.parse transitionId) .invalidPendingTransitionId
    let fingerprint ← decodeFingerprint "pending_receipt_sha256" receipt
    return some ⟨transitionId, fingerprint⟩
  | transitionId, receipt => .error (.incompletePendingPair transitionId.isSome receipt.isSome)

def decodeReceiptHead (stored : HeadRow) : Except HeadError ReceiptHead := do
  refuse (stored.singleton ≠ receiptHeadSingleton) (.invalidSingleton stored.singleton)
  let committed ← readBlob stored.committedReceiptSha256
  let committed ← committed.mapM (decodeFingerprint "committed_receipt_sha256")
  let transitionId ← readText stored.pendingTransitionId
  let receipt ← readBlob stored.pendingReceiptSha256
  let pending ← decodePending transitionId receipt
  return ⟨committed, pending⟩

def loadReceiptHead (database : Database) : Except HeadError ReceiptHead :=
  match database.head.take receiptHeadScanLimit with
  | [] => .error .missingSingleton
  | [shape] => do
    validateReceiptHeadShape shape
    let stored ← okOr (database.head.find? fun row => row.singleton = receiptHeadSingleton) (.database .notFound)
    decodeReceiptHead stored
  | _ :: _ :: _ => .error .multipleRows

/-- The head rows whose committed receipt is the given one. -/
def committedIs (committed : Option ReceiptFingerprint) (row : HeadRow) : Bool :=
  row.committedReceiptSha256 == optionToSql fingerprintToSql committed

def stagePendingRow (database : Database) (transitionId : TransitionId) (pair : ReceiptPair) :
    Except DatabaseError (Nat × Database) :=
  database.updateHead (fun row => row.singleton == receiptHeadSingleton && row.pendingTransitionId == .null &&
      row.pendingReceiptSha256 == .null && committedIs pair.committed row)
    (fun row => { row with
      pendingTransitionId := transitionToSql transitionId
      pendingReceiptSha256 := fingerprintToSql pair.pending })

def promotePendingRow (database : Database) (transitionId : TransitionId) (pair : ReceiptPair) :
    Except DatabaseError (Nat × Database) :=
  database.updateHead (fun row => row.singleton == receiptHeadSingleton &&
      row.pendingTransitionId == transitionToSql transitionId &&
      row.pendingReceiptSha256 == fingerprintToSql pair.pending && committedIs pair.committed row)
    (fun row => { row with
      committedReceiptSha256 := fingerprintToSql pair.pending
      pendingTransitionId := .null
      pendingReceiptSha256 := .null })

inductive ReceiptReference where
  | committed
  | committedPredecessor
  | pending

structure ReceiptState where
  head : ReceiptHead
  committed : Option CanonicalReceipt
  pending : Option CanonicalReceipt

inductive StateError where
  | head (source : HeadError)
  | danglingReference (reference : ReceiptReference) (fingerprint : ReceiptFingerprint)
  | multipleBodies (fingerprint : ReceiptFingerprint)
  | multipleTransitionBodies (transitionId : TransitionId)
  | invalidStorageType (field : String) (expected actual : StorageClass)
  | invalidStoredFieldLength (field : String) (expected : Nat) (actual : Option Nat)
  | invalidStoredBodyLength (actual : Option Nat) (limit : Nat)
  | invalidStoredFingerprint (source : FingerprintError)
  | invalidStoredTransitionId
  | lookupFingerprintMismatch (expected actual : ReceiptFingerprint)
  | codec (source : ReceiptCodecError)
  | bodyFingerprintMismatch (stored body : ReceiptFingerprint)
  | bodyTransitionMismatch (stored body : TransitionId)
  | pendingTransitionMismatch (head body : TransitionId)
  | pendingPredecessorMismatch (head body : Option ReceiptFingerprint)
  | committedMismatch (expected actual : Option ReceiptFingerprint)
  | pendingConflict (existing requested : PendingReceipt)
  | immutableBodyConflict (fingerprint : ReceiptFingerprint)
  | orphanTransitionConflict (transitionId : TransitionId)
      (existingFingerprint requestedFingerprint : ReceiptFingerprint)
  | insertRowMismatch (changed : Nat)
  | stageRowMismatch (changed : Nat)
  | stageRevalidationMismatch
  | database (source : DatabaseError)
  /-- What the source expects to be there. -/
  | panicked

def receiptLookupLimit : Nat := 2

def validateStorageType (field : String) (expected : StorageClass) (value : SqlValue) : Except StateError Unit :=
  refuse (value.typeof ≠ expected) (.invalidStorageType field expected value.typeof)

def validateExactLength (field : String) (expected : Nat) (value : SqlValue) : Except StateError Unit :=
  refuse (value.byteLength ≠ some expected) (.invalidStoredFieldLength field expected value.byteLength)

def bodyLengthAllowed : Option Nat → Bool
  | some bytes => 1 ≤ bytes && bytes ≤ maxCanonicalReceiptBodyBytes
  | none => false

def validateReceiptShape (row : ReceiptRow) : Except StateError Unit := do
  validateStorageType "receipt_sha256" .blob row.receiptSha256
  validateExactLength "receipt_sha256" 32 row.receiptSha256
  validateStorageType "transition_id" .text row.transitionId
  validateExactLength "transition_id" 32 row.transitionId
  validateStorageType "canonical_body" .blob row.canonicalBody
  refuse (bodyLengthAllowed row.canonicalBody.byteLength = false)
    (.invalidStoredBodyLength row.canonicalBody.byteLength maxCanonicalReceiptBodyBytes)

/-- A column of bytes, as Diesel reads it. -/
def requireBlob : SqlValue → Except StateError (List UInt8)
  | .blob bytes => .ok bytes
  | _ => .error (.database .deserialization)

def requireText : SqlValue → Except StateError String
  | .text value => .ok value
  | _ => .error (.database .deserialization)

def decodeStoredReceipt (stored : ReceiptRow) (expectedFingerprint : ReceiptFingerprint) :
    Except StateError CanonicalReceipt := do
  let receiptSha256 ← requireBlob stored.receiptSha256
  let transitionId ← requireText stored.transitionId
  let canonicalBody ← requireBlob stored.canonicalBody
  let storedFingerprint ← (fingerprintFromSlice receiptSha256).mapError .invalidStoredFingerprint
  refuse (storedFingerprint ≠ expectedFingerprint) (.lookupFingerprintMismatch expectedFingerprint storedFingerprint)
  let storedTransition ← okOr (TransitionId.parse transitionId) .invalidStoredTransitionId
  let receipt ← (decodeReceipt device sha256 fromSlice canonicalBody).mapError .codec
  refuse (receipt.fingerprint ≠ storedFingerprint) (.bodyFingerprintMismatch storedFingerprint receipt.fingerprint)
  refuse (receipt.body.transitionId ≠ storedTransition)
    (.bodyTransitionMismatch storedTransition receipt.body.transitionId)
  return receipt

def loadReceipt (database : Database) (expectedFingerprint : ReceiptFingerprint) :
    Except StateError (Option CanonicalReceipt) :=
  let found := database.receipts.filter fun row =>
    row.receiptSha256 = fingerprintToSql expectedFingerprint
  match found.take receiptLookupLimit with
  | [] => .ok none
  | [row] => do
    validateReceiptShape row
    let receipt ← decodeStoredReceipt device sha256 fromSlice row expectedFingerprint
    return some receipt
  | _ :: _ :: _ => .error (.multipleBodies expectedFingerprint)

def loadTransitionOwner (database : Database) (transitionId : TransitionId) :
    Except StateError (Option ReceiptFingerprint) :=
  let found := database.receipts.filter fun row => row.transitionId = transitionToSql transitionId
  match found.take receiptLookupLimit with
  | [] => .ok none
  | [row] => do
    validateReceiptShape row
    let stored ← requireBlob row.receiptSha256
    let fingerprint ← (fingerprintFromSlice stored).mapError .invalidStoredFingerprint
    return some fingerprint
  | _ :: _ :: _ => .error (.multipleTransitionBodies transitionId)

def loadRequiredReceipt (database : Database) (reference : ReceiptReference)
    (fingerprint : ReceiptFingerprint) : Except StateError CanonicalReceipt := do
  let found ← loadReceipt device sha256 fromSlice database fingerprint
  okOr found (.danglingReference reference fingerprint)

/-- A pending body must be of the head's transition and follow its committed receipt. -/
def requirePendingCorrelation (head : ReceiptHead) : Option PendingReceipt →
    Option CanonicalReceipt → Except StateError Unit
  | some pendingHead, some pendingBody => do
    refuse (pendingBody.body.transitionId ≠ pendingHead.transitionId)
      (.pendingTransitionMismatch pendingHead.transitionId pendingBody.body.transitionId)
    refuse (pendingBody.body.committedPredecessor ≠ head.committed)
      (.pendingPredecessorMismatch head.committed pendingBody.body.committedPredecessor)
  | _, _ => .ok ()

def loadReceiptState (database : Database) : Except StateError ReceiptState := do
  let head ← (loadReceiptHead database).mapError .head
  let committed ← head.committed.mapM fun fingerprint =>
    loadRequiredReceipt device sha256 fromSlice database .committed fingerprint
  let pending ← head.pending.mapM fun pending =>
    loadRequiredReceipt device sha256 fromSlice database .pending pending.fingerprint
  requirePendingCorrelation head head.pending pending
  return ⟨head, committed, pending⟩

def receiptPair (receipt : CanonicalReceipt) : ReceiptPair := ⟨receipt.body.committedPredecessor, receipt.fingerprint⟩

inductive StageOutcome where
  | staged
  | alreadyStaged

def receiptRow (receipt : CanonicalReceipt) : ReceiptRow :=
  ⟨fingerprintToSql receipt.fingerprint, transitionToSql receipt.body.transitionId, .blob receipt.canonicalBody⟩

def insertReceipt (database : Database) (receipt : CanonicalReceipt) :
    Except StateError Database := do
  let (inserted, database) ← (database.insertReceiptRow (receiptRow receipt)).mapError .database
  refuse (inserted ≠ 1) (.insertRowMismatch inserted)
  return database

/-- A retry of what is pending already; anything else is a conflict with it. -/
def retryPending (existing : PendingReceipt) (existingBody : Option CanonicalReceipt)
    (receipt : CanonicalReceipt) : Except StateError StageOutcome :=
  if existing.transitionId = receipt.body.transitionId ∧
      existing.fingerprint = receipt.fingerprint then do
    let existingBody ← okOr existingBody .panicked
    refuse (existingBody.canonicalBody ≠ receipt.canonicalBody) (.immutableBodyConflict receipt.fingerprint)
    return .alreadyStaged
  else
    .error (.pendingConflict existing ⟨receipt.body.transitionId, receipt.fingerprint⟩)

/-- Neither the transition nor the fingerprint may be known. -/
def requireUnknown (database : Database) (receipt : CanonicalReceipt) : Except StateError Unit := do
  let owner ← loadTransitionOwner database receipt.body.transitionId
  match owner with
  | some existingFingerprint =>
    .error (.orphanTransitionConflict receipt.body.transitionId existingFingerprint receipt.fingerprint)
  | none => .ok ()
  let known ← loadReceipt device sha256 fromSlice database receipt.fingerprint
  refuse (known.isSome = true) (.immutableBodyConflict receipt.fingerprint)

/-- The body is inserted and the empty pending slot names it. -/
def stageFresh (database : Database) (receipt : CanonicalReceipt) : Except StateError (StageOutcome × Database) := do
  requireUnknown device sha256 fromSlice database receipt
  let database ← insertReceipt database receipt
  let persisted ← loadRequiredReceipt device sha256 fromSlice database .pending receipt.fingerprint
  refuse (persisted.canonicalBody ≠ receipt.canonicalBody) (.immutableBodyConflict receipt.fingerprint)
  let (changed, database) ←
    (stagePendingRow database receipt.body.transitionId (receiptPair receipt)).mapError .database
  refuse (changed ≠ 1) (.stageRowMismatch changed)
  let after ← loadReceiptState device sha256 fromSlice database
  let exactBody := after.pending.any fun stored => stored.canonicalBody = receipt.canonicalBody
  refuse (after.head.receiptPairFor receipt.body.transitionId ≠ some (receiptPair receipt) ∨
    exactBody = false) .stageRevalidationMismatch
  return (.staged, database)

def stageReceipt (database : Database) (receipt : CanonicalReceipt) : Except StateError (StageOutcome × Database) := do
  let before ← loadReceiptState device sha256 fromSlice database
  refuse (before.head.committed ≠ (receiptPair receipt).committed)
    (.committedMismatch (receiptPair receipt).committed before.head.committed)
  match before.head.pending with
  | some existing => do
    let outcome ← retryPending existing before.pending receipt
    return (outcome, database)
  | none => stageFresh device sha256 fromSlice database receipt

inductive PromotionOutcome where
  | promoted
  | alreadyPromoted

/-- The exact state that is found after an uncertain report. -/
inductive DurableState where
  | pending
  | promoted

inductive PromotionError where
  | state (source : StateError)
  | missingPending
  | committedPredecessorMismatch (expected actual : Option ReceiptFingerprint)
  | pendingTransitionMismatch (expected actual : TransitionId)
  | pendingFingerprintMismatch (expected actual : ReceiptFingerprint)
  | pendingBodyMismatch
  | deadlineExceeded
  | headUpdateRowMismatch (changed : Nat)
  | terminalRevalidationMismatch
  | postCommitDurableState (durable : DurableState)
  | postCommitMismatch
  | postCommitState (source : StateError)
  | commitReport (durable : DurableState) (source : DatabaseError)
  | commitReportMismatch (source : DatabaseError)
  | commitReportCleanup (report cleanup : DatabaseError)
  | commitReportAndReconciliation (commit : DatabaseError) (reconciliation : StateError)
  | database (source : DatabaseError)

def isExactPromoted (database : Database) (state : ReceiptState) (receipt : CanonicalReceipt) :
    Except StateError Bool :=
  if state.head.committed = some receipt.fingerprint ∧ state.head.pending = none ∧
      state.pending = none ∧ state.committed = some receipt then do
    let _ ← receipt.body.committedPredecessor.mapM fun predecessor =>
      loadRequiredReceipt device sha256 fromSlice database .committedPredecessor predecessor
    return true
  else .ok false

def requireExactPending (state : ReceiptState) (receipt : CanonicalReceipt) :
    Except PromotionError Unit := do
  refuse (state.head.committed ≠ (receiptPair receipt).committed)
    (.committedPredecessorMismatch (receiptPair receipt).committed state.head.committed)
  let pending ← okOr state.head.pending .missingPending
  refuse (pending.transitionId ≠ receipt.body.transitionId)
    (.pendingTransitionMismatch receipt.body.transitionId pending.transitionId)
  refuse (pending.fingerprint ≠ receipt.fingerprint)
    (.pendingFingerprintMismatch receipt.fingerprint pending.fingerprint)
  refuse (state.pending ≠ some receipt) .pendingBodyMismatch

def isExactPending (state : ReceiptState) (receipt : CanonicalReceipt) : Bool :=
  state.head.committed = (receiptPair receipt).committed &&
    (state.head.pending.any fun pending => pending.transitionId = receipt.body.transitionId &&
      pending.fingerprint = receipt.fingerprint) &&
    state.pending = some receipt

def inspectExactState (database : Database) (receipt : CanonicalReceipt) :
    Except PromotionError DurableState := do
  let state ← (loadReceiptState device sha256 fromSlice database).mapError .state
  let promoted ← (isExactPromoted device sha256 fromSlice database state receipt).mapError .state
  if promoted then return .promoted
  else do
    requireExactPending state receipt
    return .pending

/-- The body of the transaction; `late` tells whether the deadline has passed just before
the head would change. -/
def promoteReceipt (late : Bool) (database : Database) (receipt : CanonicalReceipt) :
    Except PromotionError (PromotionOutcome × Database) := do
  let durable ← inspectExactState device sha256 fromSlice database receipt
  match durable with
  | .promoted => return (.alreadyPromoted, database)
  | .pending => do
    refuse (late = true) .deadlineExceeded
    let (changed, database) ←
      (promotePendingRow database receipt.body.transitionId (receiptPair receipt)).mapError .database
    refuse (changed ≠ 1) (.headUpdateRowMismatch changed)
    let after ← (loadReceiptState device sha256 fromSlice database).mapError .state
    let promoted ← (isExactPromoted device sha256 fromSlice database after receipt).mapError .state
    refuse (promoted = false) .terminalRevalidationMismatch
    return (.promoted, database)

def classifyDurableState (database : Database) (receipt : CanonicalReceipt) :
    Except StateError (Option DurableState) := do
  let state ← loadReceiptState device sha256 fromSlice database
  let promoted ← isExactPromoted device sha256 fromSlice database state receipt
  if promoted then return some .promoted
  else if isExactPending state receipt then return some .pending
  else return none

/-- A commit that is reported as failed may have taken effect all the same. -/
structure CommitFailure where
  error : DatabaseError
  durable : Bool

/-- How the database and the clock answer one call. -/
structure Environment where
  beginFailure : Option DatabaseError
  rollbackFailure : Option DatabaseError
  commitFailure : Option CommitFailure
  /-- The failure to restore a clean transaction boundary after a failed commit. -/
  cleanupFailure : Option DatabaseError
  late : Bool

/-- Nothing fails, and the deadline is not reached. -/
def Environment.calm : Environment := ⟨none, none, none, none, false⟩

structure Transaction (ε α : Type) where
  result : Except ε α
  bodySucceeded : Bool
  database : Database

/-- One exclusive transaction: a failed body is rolled back. -/
def exclusiveTx {ε α : Type} (environment : Environment) (fromDatabase : DatabaseError → ε)
    (database : Database) (body : Except ε (α × Database)) : Transaction ε α :=
  match environment.beginFailure with
  | some failure => ⟨.error (fromDatabase failure), false, database⟩
  | none =>
    match body with
    | .error error => ⟨.error ((environment.rollbackFailure.map fromDatabase).getD error), false, database⟩
    | .ok (value, next) =>
      match environment.commitFailure with
      | none => ⟨.ok value, true, next⟩
      | some failure =>
        ⟨.error (fromDatabase failure.error), true, if failure.durable then next else database⟩

def stageBootPublicationReceipt (environment : Environment) (database : Database)
    (receipt : CanonicalReceipt) : Except StateError StageOutcome × Database :=
  let transaction := exclusiveTx environment .database database (stageReceipt device sha256 fromSlice database receipt)
  (transaction.result, transaction.database)

/-- The durable outcome after a commit that was reported as failed. -/
def commitReportError (environment : Environment) (database : Database)
    (receipt : CanonicalReceipt) (source : DatabaseError) : PromotionError :=
  match environment.cleanupFailure with
  | some cleanup => .commitReportCleanup source cleanup
  | none =>
    match classifyDurableState device sha256 fromSlice database receipt with
    | .ok (some durable) => .commitReport durable source
    | .ok none => .commitReportMismatch source
    | .error reconciliation => .commitReportAndReconciliation source reconciliation

/-- After a commit the head must be found promoted. -/
def requirePostCommit (database : Database) (receipt : CanonicalReceipt)
    (outcome : PromotionOutcome) : Except PromotionError PromotionOutcome :=
  match classifyDurableState device sha256 fromSlice database receipt with
  | .ok (some .promoted) => .ok outcome
  | .ok (some durable) => .error (.postCommitDurableState durable)
  | .ok none => .error .postCommitMismatch
  | .error source => .error (.postCommitState source)

/-- What a promotion makes of the result of its transaction. -/
def reportPromotion (environment : Environment) (receipt : CanonicalReceipt)
    (transaction : Transaction PromotionError PromotionOutcome) :
    Except PromotionError PromotionOutcome :=
  match transaction.result with
  | .ok outcome => requirePostCommit device sha256 fromSlice transaction.database receipt outcome
  | .error (.database source) =>
    if transaction.bodySucceeded then
      .error (commitReportError device sha256 fromSlice environment transaction.database receipt source)
    else .error (.database source)
  | .error error => .error error

def promoteBootPublicationReceipt (environment : Environment) (database : Database)
    (receipt : CanonicalReceipt) : Except PromotionError PromotionOutcome × Database :=
  match inspectExactState device sha256 fromSlice database receipt with
  | .error error => (.error error, database)
  | .ok .promoted => (.ok .alreadyPromoted, database)
  | .ok .pending =>
    let transaction := exclusiveTx environment .database database
      (promoteReceipt device sha256 fromSlice environment.late database receipt)
    (reportPromotion device sha256 fromSlice environment receipt transaction, transaction.database)

inductive Call where
  | stage (receipt : CanonicalReceipt)
  | promote (receipt : CanonicalReceipt)

inductive Answer where
  | stage (result : Except StateError StageOutcome)
  | promote (result : Except PromotionError PromotionOutcome)

/-- One call of some client, and how it went for the database. -/
structure Event where
  call : Call
  environment : Environment

def Event.step (event : Event) (database : Database) : Answer × Database :=
  match event.call with
  | .stage receipt =>
    let (result, next) := stageBootPublicationReceipt device sha256 fromSlice event.environment database receipt
    (.stage result, next)
  | .promote receipt =>
    let (result, next) := promoteBootPublicationReceipt device sha256 fromSlice event.environment database receipt
    (.promote result, next)

/-- The database after a sequence of calls, in whatever way clients interleave them. -/
def run (database : Database) (events : List Event) : Database :=
  events.foldl (fun database event => (event.step device sha256 fromSlice database).2) database

end Cast.BootPublication.ReceiptStore
