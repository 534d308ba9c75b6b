import Cast.Foundation.Programs
import Cast.TransitionJournal.Codec

/-! The durable store of the transition journal: one canonical record beside the
lock file, replaced through a temporary and a rename. Each function is the
program of its system calls. The journal directory is the directory the calls
work on; owner, file type and link count of a file are never changed by any of
them and have no counterpart here. -/

namespace Cast.TransitionJournal

open Foundation Foundation.Program

def canonicalName : FileName := utf8 "state-transition"

def lockName : FileName := utf8 "state-transition.lock"

def journalFileMode : UInt32 := 0o600

def maxStaleTemporaries : Nat := 256

def temporaryPrefix : List UInt8 := utf8 ".state-transition.tmp-"

def deletePrefix : List UInt8 := utf8 ".state-transition.delete-"

inductive StorageError where
  | revalidateJournalEntrySet (source : IoError)
  | journalEntrySetMismatch (expectedCanonical : Option Bool) (entries : List FileName)
  | openCanonical (source : IoError)
  | validateCanonical (source : IoError)
  | readCanonical (source : IoError)
  | decode (source : CodecError)
  | encode (source : CodecError)
  | invalidCreationRecord
  | canonicalAlreadyExists
  | canonicalMissing
  | expectedRecordMismatch
  | invalidAdvance (source : CodecError)
  | deleteNonterminal
  | openLock (source : IoError)
  | validateLock (source : IoError)
  | revalidateJournalLock (source : IoError)
  | journalLockBindingChanged
  | unexpectedJournalEntry (name : FileName)
  | tooManyStaleTemporaries
  | enumerateJournal (source : IoError)
  | validateStaleTemporary (name : FileName) (source : IoError)
  | cleanupTemporary (name : FileName) (source : IoError)
  | createTemporary (source : IoError)
  | temporaryNamesExhausted
  | validateTemporary (source : IoError)
  | writeTemporary (source : IoError)
  | syncTemporary (source : IoError)
  | publishCanonical (source : IoError)
  | canonicalChanged
  | detachCanonical (source : IoError)
  | restoreCanonical (source : IoError)
  | deleteResidueEntrySetMismatch (entries : List FileName)
  | validateDeleteResidue (name : FileName) (source : IoError)
  | readDeleteResidue (name : FileName) (source : IoError)
  | decodeDeleteResidue (name : FileName) (source : CodecError)
  | nonterminalDeleteResidue (name : FileName)
  | deleteResidueChanged (name : FileName)
  | restoreDeleteResidue (name : FileName) (restored : Bool) (source : IoError)
  | restoreDeleteResidueAndReconciliation (name : FileName) (restore : IoError) (reconciliation : StorageError)
  | syncDeleteResidueAndReconciliation (name : FileName) (sync : IoError) (reconciliation : StorageError)
  | boundDeleteEntrySetMismatch (privateName : FileName) (entries : List FileName)
  | deleteCanonical (source : IoError)
  | deleteDetachedCanonical (source : IoError)
  | deleteDisplaced (source : IoError)
  | syncJournalDirectory (source : IoError)

/-- The process that runs the store: its id, its umask, and the next value of the
process-wide name sequence. -/
structure Process where
  id : UInt32
  umask : UInt32
  sequence : UInt64

/-- A number in lowercase hexadecimal, padded to the width. -/
def lowerHex : Nat → Nat → List UInt8
  | 0, _ => []
  | width + 1, value => lowerHex width (value / 16) ++ [hexDigit (UInt8.ofNat (value % 16))]

def generatedTail (process : Process) : List UInt8 :=
  lowerHex 8 process.id.toNat ++ 0x2d :: lowerHex 16 process.sequence.toNat

def temporaryName (process : Process) : FileName := temporaryPrefix ++ generatedTail process

def deleteName (process : Process) : FileName := deletePrefix ++ generatedTail process

def validGeneratedTail (tail : List UInt8) : Bool :=
  tail.length = 8 + 1 + 16 && tail[8]? == some 0x2d && (tail.take 8 ++ tail.drop 9).all isLowerHex

/-- `strip_prefix` with the check of what is left. -/
def validName (start : List UInt8) (name : FileName) : Bool :=
  start.isPrefixOf name && validGeneratedTail (name.drop start.length)

def validTemporaryName (name : FileName) : Bool := validName temporaryPrefix name

def validDeleteName (name : FileName) : Bool := validName deletePrefix name

def modeBits (metadata : Metadata) : UInt32 := metadata.mode &&& 0o7777

/-- `require_safe_stale_temporary` and `recoverable_private_lock_mode`: no bits
but the owner's read and write. -/
def restrictedMode (metadata : Metadata) : Bool := modeBits metadata &&& ~~~journalFileMode == 0

def requireSafeMetadata (metadata : Metadata) : Program IoError Unit :=
  check (modeBits metadata ≠ journalFileMode) .permissionDenied

def requireSafeRegularFile (file : Nat) : Program IoError Unit := do
  let metadata ← request (.metadata file)
  requireSafeMetadata metadata

def requireSafeStaleTemporary (file : Nat) : Program IoError Unit := do
  let metadata ← request (.metadata file)
  check (restrictedMode metadata = false) .permissionDenied

def recoverablePrivateLockMode (file : Nat) : Program IoError UInt32 := do
  let metadata ← request (.metadata file)
  check (restrictedMode metadata = false) .permissionDenied
  pure (modeBits metadata)

def readBounded (file : Nat) : Program IoError (List UInt8) := do
  let initial ← request (.metadata file)
  requireSafeMetadata initial
  check (initial.size > maxCanonicalRecordBytes) .invalidData
  let bytes ← request (.read file (maxCanonicalRecordBytes + 1))
  check (bytes.length > maxCanonicalRecordBytes) .invalidData
  let final ← request (.metadata file)
  requireSafeMetadata final
  check (bytes.length ≠ initial.size ∨ final.size ≠ initial.size) .invalidData
  pure bytes

def directoryEntries : Program IoError (List FileName) := do
  let entries ← request .list
  check (entries.length > maxStaleTemporaries + 3) .invalidData
  pure entries

/-- Error reports list the names in byte order. -/
def sortedEntries (entries : List FileName) : List FileName := entries.mergeSort fun left right => !List.lex right left

/-- An open store: the retained lock file and the token of this open. -/
structure TransitionJournalStore where
  lock : Nat
  binding : Nat
  
structure LoadedRecord where
  record : TransitionRecord
  framed : List UInt8
  identity : Nat

structure TemporaryRecord where
  name : FileName
  identity : Nat

def normalizeMode (file : Nat) (mode : UInt32) : Program StorageError Unit :=
  if mode ≠ journalFileMode then (request (.chmod file journalFileMode)).mapError .openLock
  else pure ()

/-- The lock file is already there, possibly from a process that stopped before
it had given the file its mode. -/
def openExistingLock : Program StorageError Nat := do
  let pinned ← (request (.openAt lockName)).mapError .openLock
  let mode ← (recoverablePrivateLockMode pinned).mapError .validateLock
  normalizeMode pinned mode
  (requireSafeRegularFile pinned).mapError .validateLock
  let file ← (request (.openAt lockName)).mapError .openLock
  check (pinned ≠ file) .canonicalChanged
  pure file

def openLockFile (process : Process) : Program StorageError Nat := do
  match ← (request (.create lockName (journalFileMode &&& ~~~process.umask))).attempt with
  | .ok file => do
    (request (.chmod file journalFileMode)).mapError .openLock
    pure file
  | .error .alreadyExists => openExistingLock
  | .error source => fail (.openLock source)

/-- `open_and_lock`. Holding the exclusive lock is what lets a run of the store
be one process after another. -/
def openAndLock (process : Process) : Program StorageError Nat := do
  let file ← openLockFile process
  (requireSafeRegularFile file).mapError .validateLock
  let named ← (request (.openAt lockName)).mapError .validateLock
  (requireSafeRegularFile named).mapError .validateLock
  check (file ≠ named) .canonicalChanged
  (request (.sync file)).mapError .openLock
  (request .syncDirectory).mapError .syncJournalDirectory
  pure file

variable (sha256 : List UInt8 → Vector UInt8 32) (fromSlice : List UInt8 → Except String TransitionRecord)

def openNamed (name : FileName) : Program StorageError (Option Nat) := do
  match ← (request (.openAt name)).attempt with
  | .ok file => do
    (requireSafeRegularFile file).mapError .validateCanonical
    pure (some file)
  | .error .notFound => pure none
  | .error source => fail (.openCanonical source)

def requireSameInode (expected actual : Nat) : Program StorageError Unit := check (expected ≠ actual) .canonicalChanged

/-- `open_named(name)?.ok_or(CanonicalChanged)?` followed by the identity check. -/
def requireNamed (name : FileName) (identity : Nat) : Program StorageError Unit := do
  let named ← openNamed name
  let file ← done (okOr named .canonicalChanged)
  requireSameInode identity file

def loadRecord (file : Nat) : Program StorageError LoadedRecord := do
  let framed ← (readBounded file).mapError .readCanonical
  (requireSafeRegularFile file).mapError .validateCanonical
  let record ← done ((decode sha256 fromSlice framed).mapError .decode)
  pure ⟨record, framed, file⟩

def loadPinned : Program StorageError (Option LoadedRecord) := do
  match ← openNamed canonicalName with
  | none => pure none
  | some file => do
    let loaded ← loadRecord sha256 fromSlice file
    pure (some loaded)

def load : Program StorageError (Option TransitionRecord) := do
  let loaded ← loadPinned sha256 fromSlice
  pure (loaded.map LoadedRecord.record)

def revalidateExactPublicLock (store : TransitionJournalStore) : Program StorageError Unit := do
  (requireSafeRegularFile store.lock).mapError .revalidateJournalLock
  let file ← (request (.openAt lockName)).mapError .revalidateJournalLock
  (requireSafeRegularFile file).mapError .revalidateJournalLock
  check (store.lock ≠ file) .journalLockBindingChanged

/-- Both captures of the public names. That the directory itself is still the
`journal` child of the retained `.cast` is outside this directory. -/
def revalidateRetainedCastBinding (store : TransitionJournalStore) :
    Program StorageError Unit := do
  revalidateExactPublicLock store
  revalidateExactPublicLock store

def inspectExactPublicEntrySet (expectedCanonical : Option Bool) : Program StorageError Bool := do
  let names ← directoryEntries.mapError .revalidateJournalEntrySet
  let canonicalCount := names.count canonicalName
  let canonicalPresent := canonicalCount == 1
  let exact := names.count lockName = 1 ∧ canonicalCount ≤ 1 ∧ names.length = 1 + canonicalPresent.toNat ∧
    expectedCanonical.all (· == canonicalPresent)
  check (¬ exact) (.journalEntrySetMismatch expectedCanonical (sortedEntries names))
  pure canonicalPresent

def revalidatePublicRecord (loaded : LoadedRecord) : Program StorageError Unit := do
  let file ← (request (.openAt canonicalName)).mapError .openCanonical
  (requireSafeRegularFile file).mapError .validateCanonical
  requireSameInode loaded.identity file
  let framed ← (readBounded file).mapError .readCanonical
  check (framed ≠ loaded.framed) .canonicalChanged

def revalidateExactPublicState (loaded : Option LoadedRecord) : Program StorageError Unit := do
  let _ ← inspectExactPublicEntrySet (some loaded.isSome)
  match loaded with
  | none => pure ()
  | some loaded => revalidatePublicRecord loaded

def loadPinnedRevalidated (store : TransitionJournalStore) : Program StorageError (Option LoadedRecord) := do
  revalidateRetainedCastBinding store
  let canonicalPresent ← inspectExactPublicEntrySet none
  let loaded ← loadPinned sha256 fromSlice
  check (canonicalPresent ≠ loaded.isSome) .canonicalChanged
  revalidateExactPublicState loaded
  revalidateRetainedCastBinding store
  revalidateExactPublicState loaded
  pure loaded

def cleanupTemporaryIdentity (name : FileName) (expected : Nat) : Program StorageError Unit := do
  let named ← (request (.openAt name)).mapError (.cleanupTemporary name)
  requireSameInode expected named
  (request (.unlink name)).mapError (.cleanupTemporary name)
  (request .syncDirectory).mapError .syncJournalDirectory

def cleanupTemporary (temporary : TemporaryRecord) : Program StorageError Unit :=
  cleanupTemporaryIdentity temporary.name temporary.identity

/-- On failure the temporary is removed before the error is returned. -/
def orCleanup {α : Type} (temporary : TemporaryRecord) (convert : IoError → StorageError)
    (step : Program IoError α) : Program StorageError α := do
  match ← step.attempt with
  | .ok value => pure value
  | .error source => do
    cleanupTemporary temporary
    fail (convert source)

def maxAttempts : Nat := 128

def Process.advanceSequence (process : Process) : Process := { process with sequence := process.sequence + 1 }

def prepareTemporary (name : FileName) (identity : Nat) : Program StorageError TemporaryRecord := do
  let temporary : TemporaryRecord := ⟨name, identity⟩
  orCleanup temporary .createTemporary (request (.chmod identity journalFileMode))
  orCleanup temporary .validateTemporary (requireSafeRegularFile identity)
  pure temporary

def createTemporaryWithin : Nat → Process → Program StorageError TemporaryRecord
  | 0, _ => fail .temporaryNamesExhausted
  | attempts + 1, process => do
    let name := temporaryName process
    match ← (request (.create name (journalFileMode &&& ~~~process.umask))).attempt with
    | .ok identity => prepareTemporary name identity
    | .error .alreadyExists => createTemporaryWithin attempts process.advanceSequence
    | .error source => fail (.createTemporary source)

def createTemporary (process : Process) : Program StorageError TemporaryRecord :=
  createTemporaryWithin maxAttempts process

def classifyStale : List FileName → List FileName → Except StorageError (List FileName)
  | [], stale => .ok stale
  | name :: rest, stale =>
    if name = canonicalName ∨ name = lockName then classifyStale rest stale
    else if validTemporaryName name = true then
      if (stale ++ [name]).length > maxStaleTemporaries then .error .tooManyStaleTemporaries
      else classifyStale rest (stale ++ [name])
    else .error (.unexpectedJournalEntry name)

def authenticateStale (name : FileName) : Program StorageError (FileName × Nat) := do
  let file ← (request (.openAt name)).mapError (.validateStaleTemporary name)
  (requireSafeStaleTemporary file).mapError (.validateStaleTemporary name)
  pure (name, file)

def authenticateAllStale : List FileName → Program StorageError (List (FileName × Nat))
  | [] => pure []
  | name :: rest => do
    let first ← authenticateStale name
    let others ← authenticateAllStale rest
    pure (first :: others)

def cleanupAuthenticated : List (FileName × Nat) → Program StorageError Unit
  | [] => pure ()
  | (name, identity) :: rest => do
    cleanupTemporaryIdentity name identity
    cleanupAuthenticated rest

def cleanupStaleTemporaries : Program StorageError Unit := do
  let entries ← directoryEntries.mapError .enumerateJournal
  let stale ← done (classifyStale entries [])
  let authenticated ← authenticateAllStale stale
  cleanupAuthenticated authenticated

def publishInitial (temporary : TemporaryRecord) : Program StorageError Unit := do
  orCleanup temporary .publishCanonical (request (.rename temporary.name canonicalName))
  requireNamed canonicalName temporary.identity
  (request .syncDirectory).mapError .syncJournalDirectory

def publishUpdate (temporary : TemporaryRecord) (existing : LoadedRecord) :
    Program StorageError Unit := do
  requireNamed canonicalName existing.identity
  orCleanup temporary .publishCanonical (request (.exchange temporary.name canonicalName))
  -- The canonical name must now be the written inode and the temporary name
  -- the displaced one; otherwise both names are kept.
  requireNamed canonicalName temporary.identity
  requireNamed temporary.name existing.identity
  (request .syncDirectory).mapError .syncJournalDirectory
  (request (.unlink temporary.name)).mapError .deleteDisplaced
  (request .syncDirectory).mapError .syncJournalDirectory

def publishTemporary (temporary : TemporaryRecord) : Option LoadedRecord → Program StorageError Unit
  | none => publishInitial temporary
  | some existing => publishUpdate temporary existing

def publishRecordInode (process : Process) (framed : List UInt8)
    (existing : Option LoadedRecord) : Program StorageError TemporaryRecord := do
  let temporary ← createTemporary process
  orCleanup temporary .writeTemporary (request (.write temporary.identity framed))
  orCleanup temporary .syncTemporary (request (.sync temporary.identity))
  orCleanup temporary .validateTemporary (requireSafeRegularFile temporary.identity)
  publishTemporary temporary existing
  pure temporary

def publishRecord (process : Process) (framed : List UInt8) (existing : Option LoadedRecord) :
    Program StorageError Unit := do
  let _ ← publishRecordInode process framed existing
  pure ()

def publishRecordRetained (process : Process) (framed : List UInt8) (record : TransitionRecord)
    (existing : Option LoadedRecord) : Program StorageError LoadedRecord := do
  let temporary ← publishRecordInode process framed existing
  pure ⟨record, framed, temporary.identity⟩

def create (process : Process) (record : TransitionRecord) : Program StorageError Unit := do
  let framed ← done ((encode sha256 record).mapError .encode)
  check (record.generation ≠ 1 ∨ record.phase ≠ .preparing ∨ record.rollback.isSome = true) .invalidCreationRecord
  let existing ← loadPinned sha256 fromSlice
  check (existing.isSome = true) .canonicalAlreadyExists
  publishRecord process framed none

def advance (process : Process) (expected next : TransitionRecord) :
    Program StorageError Unit := do
  done ((validateAdvance expected next).mapError .invalidAdvance)
  let framed ← done ((encode sha256 next).mapError .encode)
  let loaded ← loadPinned sha256 fromSlice
  let existing ← done (okOr loaded .canonicalMissing)
  check (existing.record ≠ expected) .expectedRecordMismatch
  publishRecord process framed (some existing)

/-- The public checks of `delete_locked`, made only when it is given the retained
`.cast` directory. -/
def whenRevalidating (store : Option TransitionJournalStore)
    (checks : TransitionJournalStore → Program StorageError Unit) : Program StorageError Unit :=
  match store with
  | some store => checks store
  | none => pure ()

def inspectBeforeDelete : Option TransitionJournalStore → Program StorageError (Option Bool)
  | some store => do
    revalidateRetainedCastBinding store
    let canonicalPresent ← inspectExactPublicEntrySet none
    pure (some canonicalPresent)
  | none => pure none

def revalidateInitialPublic (initialPublic : Option Bool) (existing : Option LoadedRecord) :
    Program StorageError Unit :=
  match initialPublic with
  | some canonicalPresent => do
    check (canonicalPresent ≠ existing.isSome) .canonicalChanged
    revalidateExactPublicState existing
  | none => pure ()

def revalidatePublic (existing : Option LoadedRecord) (store : TransitionJournalStore) :
    Program StorageError Unit := do
  revalidateRetainedCastBinding store
  revalidateExactPublicState existing

def deleteExisting (revalidating : Option TransitionJournalStore) (expected : TransitionRecord)
    (existing : LoadedRecord) : Program StorageError Bool := do
  check (existing.record ≠ expected) .expectedRecordMismatch
  whenRevalidating revalidating (revalidatePublic (some existing))
  requireNamed canonicalName existing.identity
  (request (.unlink canonicalName)).mapError .deleteCanonical
  (request .syncDirectory).mapError .syncJournalDirectory
  whenRevalidating revalidating (revalidatePublic none)
  pure true

/-- Without a record there is nothing to remove, and the caller is told so. -/
def deleteAbsent (revalidating : Option TransitionJournalStore) : Program StorageError Bool := do
  whenRevalidating revalidating (revalidatePublic none)
  pure false

def deleteLocked (revalidating : Option TransitionJournalStore) (expected : TransitionRecord) :
    Program StorageError Bool := do
  let initialPublic ← inspectBeforeDelete revalidating
  done (expected.validate.mapError .decode)
  check (expected.phase.deletable = false) .deleteNonterminal
  let existing ← loadPinned sha256 fromSlice
  revalidateInitialPublic initialPublic existing
  match existing with
  | none => deleteAbsent revalidating
  | some existing => deleteExisting revalidating expected existing

def delete (expected : TransitionRecord) : Program StorageError Bool := deleteLocked sha256 fromSlice none expected

def deleteRevalidatedRetainedCast (store : TransitionJournalStore) (expected : TransitionRecord) :
    Program StorageError Bool :=
  deleteLocked sha256 fromSlice (some store) expected

end Cast.TransitionJournal
