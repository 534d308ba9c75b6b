import Cast.TransitionJournal.Store

/-! Operations on one exact canonical inode: the bound advance, and the bound
deletion that detaches the record under a private name before it is unlinked.
Every failure of the deletion is reconciled against what the directory shows,
so the error says whether the record is still there. -/

namespace Cast.TransitionJournal

open Foundation Foundation.Program

structure TransitionJournalRecordBinding where
  store : Nat
  canonical : Nat
  record : TransitionRecord

inductive TransitionJournalRecordDeleteState where
  | exactSource
  | absent
  deriving DecidableEq

inductive TransitionJournalRecordDeleteError where
  | admission (source : StorageError)
  | storage (state : TransitionJournalRecordDeleteState) (source : StorageError)
  | storageAndReconciliation (storage reconciliation : StorageError)
  | detached (source : StorageError)
  | postDelete (source : StorageError)

inductive BoundRecordDeleteNameState where
  | absent
  | exact
  | foreign
  deriving DecidableEq

inductive BoundRecordDeleteLayout where
  | exactSource
  | exactDetached
  | absent
  deriving DecidableEq

variable (sha256 : List UInt8 → Vector UInt8 32) (fromSlice : List UInt8 → Except String TransitionRecord)

def recordBinding (store : TransitionJournalStore) (expected : TransitionRecord) :
    Program StorageError TransitionJournalRecordBinding := do
  let found ← loadPinnedRevalidated sha256 fromSlice store
  let loaded ← done (okOr found .canonicalChanged)
  check (loaded.record ≠ expected) .canonicalChanged
  pure ⟨store.binding, loaded.identity, loaded.record⟩

def advanceRecordBinding (store : TransitionJournalStore) (process : Process)
    (expected : TransitionJournalRecordBinding) (next : TransitionRecord) :
    Program StorageError TransitionJournalRecordBinding := do
  check (store.binding ≠ expected.store) .canonicalChanged
  done ((validateAdvance expected.record next).mapError .invalidAdvance)
  let framed ← done ((encode sha256 next).mapError .encode)
  let found ← loadPinnedRevalidated sha256 fromSlice store
  let loaded ← done (okOr found .canonicalChanged)
  check (loaded.record ≠ expected.record ∨ loaded.identity ≠ expected.canonical) .canonicalChanged
  revalidatePublic (some loaded) store
  let published ← publishRecordRetained process framed next (some loaded)
  revalidatePublic (some published) store
  pure ⟨store.binding, published.identity, published.record⟩

/-- What stays fixed while one bound deletion runs. -/
structure BoundDelete where
  store : TransitionJournalStore
  expected : TransitionJournalRecordBinding
  record : TransitionRecord
  loaded : LoadedRecord
  privateName : FileName

def requireLoadedRecordBinding (expected : TransitionJournalRecordBinding)
    (record : TransitionRecord) (loaded : LoadedRecord) : Program StorageError Unit :=
  check (expected.record ≠ record ∨ loaded.record ≠ record ∨ loaded.identity ≠ expected.canonical) .canonicalChanged

def compareBoundRecord (loaded : LoadedRecord) (file : Nat) :
    Program StorageError BoundRecordDeleteNameState := do
  let framed ← (readBounded file).mapError .readCanonical
  pure (if file = loaded.identity ∧ framed = loaded.framed then .exact else .foreign)

def observeBoundRecordDeleteName (name : FileName) (loaded : LoadedRecord) :
    Program StorageError BoundRecordDeleteNameState := do
  match ← openNamed name with
  | none => pure .absent
  | some file => compareBoundRecord loaded file

def boundRecordDeleteLayout : BoundRecordDeleteNameState → BoundRecordDeleteNameState →
    Except StorageError BoundRecordDeleteLayout
  | .exact, .absent => .ok .exactSource
  | .absent, .exact => .ok .exactDetached
  | .absent, .absent => .ok .absent
  | _, _ => .error .canonicalChanged

def observeBoundRecordDeleteLayout (bound : BoundDelete) :
    Program StorageError BoundRecordDeleteLayout := do
  let names ← directoryEntries.mapError .revalidateJournalEntrySet
  let lockCount := names.count lockName
  let canonicalCount := names.count canonicalName
  let privateCount := names.count bound.privateName
  check (lockCount ≠ 1 ∨ canonicalCount > 1 ∨ privateCount > 1 ∨
      names.length ≠ lockCount + canonicalCount + privateCount)
    (.boundDeleteEntrySetMismatch bound.privateName (sortedEntries names))
  let canonical ← observeBoundRecordDeleteName canonicalName bound.loaded
  let detached ← observeBoundRecordDeleteName bound.privateName bound.loaded
  done (boundRecordDeleteLayout canonical detached)

def classifyBoundRecordDeleteLayout (bound : BoundDelete) :
    Program StorageError BoundRecordDeleteLayout := do
  requireLoadedRecordBinding bound.expected bound.record bound.loaded
  revalidateRetainedCastBinding bound.store
  let first ← observeBoundRecordDeleteLayout bound
  revalidateRetainedCastBinding bound.store
  let second ← observeBoundRecordDeleteLayout bound
  check (first ≠ second) .canonicalChanged
  pure second

def requireBoundRecordAbsence (bound : BoundDelete) : Program StorageError Unit := do
  let layout ← classifyBoundRecordDeleteLayout bound
  check (layout ≠ .absent) .canonicalChanged

def syncBoundDeleteDirectory : Program StorageError Unit := (request .syncDirectory).mapError .syncJournalDirectory

def confirmReconciledDeleteState (bound : BoundDelete) (storage : StorageError)
    (state : TransitionJournalRecordDeleteState) :
    Program TransitionJournalRecordDeleteError Unit := do
  match ← (classifyBoundRecordDeleteLayout bound).attempt, state with
  | .ok .exactSource, .exactSource => fail (.storage .exactSource storage)
  | .ok .absent, .absent => fail (.storage .absent storage)
  | .ok _, _ => fail (.storageAndReconciliation storage .canonicalChanged)
  | .error reconciliation, _ => fail (.storageAndReconciliation storage reconciliation)

def finishReconciledDeleteState (bound : BoundDelete) (storage : StorageError)
    (state : TransitionJournalRecordDeleteState) :
    Program TransitionJournalRecordDeleteError Unit := do
  match ← syncBoundDeleteDirectory.attempt with
  | .ok () => confirmReconciledDeleteState bound storage state
  | .error reconciliation => fail (.storageAndReconciliation storage reconciliation)

/-- `restore.err().unwrap_or(CanonicalChanged)`. -/
def restoreFailure : Except StorageError Unit → StorageError
  | .ok () => .canonicalChanged
  | .error error => error

def finishRestoredRecord (bound : BoundDelete) (storage : StorageError)
    (restore : Except StorageError Unit) : Program TransitionJournalRecordDeleteError Unit := do
  match ← (classifyBoundRecordDeleteLayout bound).attempt with
  | .ok .exactSource => finishReconciledDeleteState bound storage .exactSource
  | .ok .absent => finishReconciledDeleteState bound storage .absent
  | .ok .exactDetached => fail (.storageAndReconciliation storage (restoreFailure restore))
  | .error reconciliation => fail (.storageAndReconciliation storage reconciliation)

def restoreDetachedRecord (bound : BoundDelete) (storage : StorageError) :
    Program TransitionJournalRecordDeleteError Unit := do
  let restore ← ((request (.rename bound.privateName canonicalName)).mapError .restoreCanonical).attempt
  finishRestoredRecord bound storage restore

def reconcilePrivateUnlinkFailure (bound : BoundDelete) (storage : StorageError) :
    Program TransitionJournalRecordDeleteError Unit := do
  match ← (classifyBoundRecordDeleteLayout bound).attempt with
  | .ok .exactSource => finishReconciledDeleteState bound storage .exactSource
  | .ok .absent => finishReconciledDeleteState bound storage .absent
  | .ok .exactDetached => restoreDetachedRecord bound storage
  | .error reconciliation => fail (.storageAndReconciliation storage reconciliation)

def reconcileCleanDeleteFailure (bound : BoundDelete) (storage : StorageError) :
    Program TransitionJournalRecordDeleteError Unit := do
  match ← (classifyBoundRecordDeleteLayout bound).attempt with
  | .ok .exactSource => fail (.storage .exactSource storage)
  | .ok .absent => fail (.storage .absent storage)
  | .ok .exactDetached => fail (.storageAndReconciliation storage .canonicalChanged)
  | .error reconciliation => fail (.storageAndReconciliation storage reconciliation)

def reconcileDetachFailure (bound : BoundDelete) (storage : StorageError) :
    Program TransitionJournalRecordDeleteError (Option StorageError) := do
  match ← (classifyBoundRecordDeleteLayout bound).attempt with
  | .ok .exactSource => fail (.storage .exactSource storage)
  | .ok .exactDetached => pure (some storage)
  | .ok .absent => fail (.storage .absent storage)
  | .error reconciliation => fail (.storageAndReconciliation storage reconciliation)

def requireDetached (bound : BoundDelete) : Program TransitionJournalRecordDeleteError Unit := do
  match ← (classifyBoundRecordDeleteLayout bound).attempt with
  | .ok .exactDetached => pure ()
  | .ok _ => fail (.detached .canonicalChanged)
  | .error source => fail (.detached source)

/-- The rename to the private name. A report of failure after the rename took
effect is kept, and the deletion goes on. -/
def detachCanonical (bound : BoundDelete) : Program TransitionJournalRecordDeleteError (Option StorageError) := do
  match ← (request (.rename canonicalName bound.privateName)).attempt with
  | .ok () => do
    requireDetached bound
    pure none
  | .error source => reconcileDetachFailure bound (.detachCanonical source)

def finishDelete (pendingDetachError : Option StorageError) : Program TransitionJournalRecordDeleteError Unit :=
  match pendingDetachError with
  | some source => fail (.storage .absent source)
  | none => pure ()

def syncUnlinkedRecord (bound : BoundDelete) (pendingDetachError : Option StorageError) :
    Program TransitionJournalRecordDeleteError Unit := do
  (requireBoundRecordAbsence bound).mapError .postDelete
  match ← syncBoundDeleteDirectory.attempt with
  | .error source => reconcileCleanDeleteFailure bound source
  | .ok () => do
    (requireBoundRecordAbsence bound).mapError .postDelete
    finishDelete pendingDetachError

/-- The sole unlink. It is never retried: a failure only leads to a restore. -/
def unlinkDetachedRecord (bound : BoundDelete) (pendingDetachError : Option StorageError) :
    Program TransitionJournalRecordDeleteError Unit := do
  requireDetached bound
  match ← (request (.unlink bound.privateName)).attempt with
  | .error source => reconcilePrivateUnlinkFailure bound (.deleteDetachedCanonical source)
  | .ok () => syncUnlinkedRecord bound pendingDetachError

def admitBoundDelete (store : TransitionJournalStore) (process : Process)
    (expected : TransitionJournalRecordBinding) (record : TransitionRecord) :
    Program StorageError BoundDelete := do
  check (store.binding ≠ expected.store) .canonicalChanged
  done (record.validate.mapError .decode)
  check (record.phase.deletable = false) .deleteNonterminal
  check (expected.record ≠ record) .expectedRecordMismatch
  let found ← loadPinnedRevalidated sha256 fromSlice store
  let loaded ← done (okOr found .canonicalChanged)
  requireLoadedRecordBinding expected record loaded
  revalidatePublic (some loaded) store
  requireLoadedRecordBinding expected record loaded
  pure ⟨store, expected, record, loaded, deleteName process⟩

def deleteRecordBinding (store : TransitionJournalStore) (process : Process)
    (expected : TransitionJournalRecordBinding) (record : TransitionRecord) :
    Program TransitionJournalRecordDeleteError Unit := do
  let bound ← (admitBoundDelete sha256 fromSlice store process expected record).mapError .admission
  let pendingDetachError ← detachCanonical bound
  unlinkDetachedRecord bound pendingDetachError

end Cast.TransitionJournal
