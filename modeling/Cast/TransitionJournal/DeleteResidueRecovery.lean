import Cast.TransitionJournal.RecordBinding

/-! Opening the store. A process may have stopped between detaching a record and
unlinking it; the next open puts such a record back under the canonical name,
then removes temporaries that were never published.
Processes hold the lock one after another, and each may stop after any system call. -/

namespace Cast.TransitionJournal

open Foundation Foundation.Program

structure RetainedDeleteResidue where
  name : FileName
  identity : Nat
  framed : List UInt8

inductive DeleteResidueLayout where
  | exactResidue
  | exactCanonical
  deriving DecidableEq

def deleteResidueEntrySetError (entries : List FileName) : StorageError :=
  .deleteResidueEntrySetMismatch (sortedEntries entries)

def requireUniqueDeleteResidueInventory (entries : List FileName) : Except StorageError FileName :=
  match entries.filter validDeleteName with
  | [residue] =>
    if entries.count lockName ≠ 1 ∨ entries.length ≠ 2 ∨
        entries.any (fun name => deletePrefix.isPrefixOf name && !validDeleteName name) = true then
      .error (deleteResidueEntrySetError entries)
    else .ok residue
  | _ => .error (deleteResidueEntrySetError entries)

def deleteRecoveryEntries (store : TransitionJournalStore) : Program StorageError (List FileName) := do
  revalidateRetainedCastBinding store
  directoryEntries.mapError .enumerateJournal

def openDeleteRecoveryRecord (name : FileName) : Program StorageError Nat := do
  let file ← (request (.openAt name)).mapError (.validateDeleteResidue name)
  (requireSafeRegularFile file).mapError (.validateDeleteResidue name)
  pure file

/-- The private or the canonical name, whichever of the two is there. -/
def residueLayoutName (retained : RetainedDeleteResidue) (residueCount : Nat) : FileName × DeleteResidueLayout :=
  if residueCount = 1 then (retained.name, .exactResidue) else (canonicalName, .exactCanonical)

def observeDeleteResidueLayout (store : TransitionJournalStore)
    (retained : RetainedDeleteResidue) : Program StorageError DeleteResidueLayout := do
  let entries ← deleteRecoveryEntries store
  let residueCount := entries.count retained.name
  let canonicalCount := entries.count canonicalName
  check (entries.count lockName ≠ 1 ∨ residueCount + canonicalCount ≠ 1 ∨ entries.length ≠ 2 ∨
      residueCount > 1 ∨ canonicalCount > 1)
    (deleteResidueEntrySetError entries)
  let (name, layout) := residueLayoutName retained residueCount
  let file ← openDeleteRecoveryRecord name
  let framed ← (readBounded file).mapError (.readDeleteResidue name)
  (requireSafeRegularFile file).mapError (.validateDeleteResidue name)
  check (file ≠ retained.identity ∨ framed ≠ retained.framed) (.deleteResidueChanged retained.name)
  pure layout

def classifyDeleteResidueLayout (store : TransitionJournalStore)
    (retained : RetainedDeleteResidue) : Program StorageError DeleteResidueLayout := do
  let first ← observeDeleteResidueLayout store retained
  let second ← observeDeleteResidueLayout store retained
  check (first ≠ second) (.deleteResidueChanged retained.name)
  pure second

def requireDeleteResidueLayout (store : TransitionJournalStore)
    (retained : RetainedDeleteResidue) (expected : DeleteResidueLayout) :
    Program StorageError Unit := do
  let actual ← classifyDeleteResidueLayout store retained
  check (actual ≠ expected) (.deleteResidueChanged retained.name)

def reconcileDeleteResidueSyncError (store : TransitionJournalStore)
    (retained : RetainedDeleteResidue) (source : IoError) : Program StorageError Unit := do
  match ← (classifyDeleteResidueLayout store retained).attempt with
  | .ok .exactCanonical => fail (.syncJournalDirectory source)
  | .ok .exactResidue => fail (.syncDeleteResidueAndReconciliation retained.name source
      (.deleteResidueChanged retained.name))
  | .error reconciliation => fail (.syncDeleteResidueAndReconciliation retained.name source reconciliation)

/-- The rename back. As with the detach, a failure reported after it took effect
is kept until the end. -/
def reconcileRestoreFailure (store : TransitionJournalStore) (retained : RetainedDeleteResidue)
    (source : IoError) : Program StorageError (Option IoError) := do
  match ← (classifyDeleteResidueLayout store retained).attempt with
  | .ok .exactResidue => fail (.restoreDeleteResidue retained.name false source)
  | .ok .exactCanonical => pure (some source)
  | .error reconciliation => fail (.restoreDeleteResidueAndReconciliation retained.name source reconciliation)

def restoreResidue (store : TransitionJournalStore) (retained : RetainedDeleteResidue) :
    Program StorageError (Option IoError) := do
  match ← (request (.rename retained.name canonicalName)).attempt with
  | .ok () => pure none
  | .error source => reconcileRestoreFailure store retained source

def finishRestore (retained : RetainedDeleteResidue) (pendingRestoreError : Option IoError) :
    Program StorageError Unit :=
  match pendingRestoreError with
  | some source => fail (.restoreDeleteResidue retained.name true source)
  | none => pure ()

def syncRestoredResidue (store : TransitionJournalStore) (retained : RetainedDeleteResidue)
    (pendingRestoreError : Option IoError) : Program StorageError Unit := do
  requireDeleteResidueLayout store retained .exactCanonical
  match ← (request .syncDirectory).attempt with
  | .error source => reconcileDeleteResidueSyncError store retained source
  | .ok () => do
    requireDeleteResidueLayout store retained .exactCanonical
    finishRestore retained pendingRestoreError

section Open

variable (sha256 : List UInt8 → Vector UInt8 32)
variable (fromSlice : List UInt8 → Except String TransitionRecord)

def retainDeleteResidue (name : FileName) : Program StorageError RetainedDeleteResidue := do
  let file ← openDeleteRecoveryRecord name
  let framed ← (readBounded file).mapError (.readDeleteResidue name)
  (requireSafeRegularFile file).mapError (.validateDeleteResidue name)
  let record ← done ((decode sha256 fromSlice framed).mapError (.decodeDeleteResidue name))
  check (record.phase.deletable = false) (.nonterminalDeleteResidue name)
  pure ⟨name, file, framed⟩

def recoverResidue (store : TransitionJournalStore) (entries : List FileName) :
    Program StorageError Unit := do
  let residueName ← done (requireUniqueDeleteResidueInventory entries)
  let retained ← retainDeleteResidue sha256 fromSlice residueName
  requireDeleteResidueLayout store retained .exactResidue
  requireDeleteResidueLayout store retained .exactResidue
  let pendingRestoreError ← restoreResidue store retained
  syncRestoredResidue store retained pendingRestoreError

def recoverInterruptedBoundDelete (store : TransitionJournalStore) :
    Program StorageError Unit := do
  let entries ← deleteRecoveryEntries store
  if entries.any deletePrefix.isPrefixOf = true then
    recoverResidue sha256 fromSlice store entries
  else
    pure ()

/-- `open_from_cast`; the token tells this open from every other. -/
def openFromCast (process : Process) (token : Nat) :
    Program StorageError TransitionJournalStore := do
  let lock ← openAndLock process
  let store : TransitionJournalStore := ⟨lock, token⟩
  recoverInterruptedBoundDelete sha256 fromSlice store
  cleanupStaleTemporaries
  pure store

end Open

inductive StoreOperation where
  | create (record : TransitionRecord)
  | advance (expected next : TransitionRecord)
  | delete (expected : TransitionRecord)
  | deleteRevalidated (expected : TransitionRecord)
  | advanceRecordBinding (expected : TransitionJournalRecordBinding) (next : TransitionRecord)
  | deleteRecordBinding (expected : TransitionJournalRecordBinding) (record : TransitionRecord)

/-- What the canonical name is to hold once the operation is done. -/
def StoreOperation.publishes : StoreOperation → Option TransitionRecord
  | create record => some record
  | advance _ next => some next
  | delete _ => none
  | deleteRevalidated _ => none
  | advanceRecordBinding _ next => some next
  | deleteRecordBinding _ _ => none

/-- One call, with the value the process-wide name sequence has by then. -/
structure StoreCall where
  operation : StoreOperation
  sequence : UInt64

/-- One process: what it calls while it holds the store, and after how many
system calls it stops. A large number lets it finish. -/
structure Session where
  process : Process
  token : Nat
  calls : List StoreCall
  steps : Nat

/-- The caller goes on whatever an operation returned. -/
def ignoring {ε α : Type} (program : Program ε α) : Program StorageError Unit := do
  let _ ← program.attempt
  pure ()

section Runs

variable (sha256 : List UInt8 → Vector UInt8 32)
variable (fromSlice : List UInt8 → Except String TransitionRecord)

def StoreCall.program (store : TransitionJournalStore) (process : Process) (call : StoreCall) :
    Program StorageError Unit :=
  let process := { process with sequence := call.sequence }
  match call.operation with
  | .create record => ignoring (create sha256 fromSlice process record)
  | .advance expected next => ignoring (advance sha256 fromSlice process expected next)
  | .delete expected => ignoring (delete sha256 fromSlice expected)
  | .deleteRevalidated expected => ignoring (deleteRevalidatedRetainedCast sha256 fromSlice store expected)
  | .advanceRecordBinding expected next =>
    ignoring (advanceRecordBinding sha256 fromSlice store process expected next)
  | .deleteRecordBinding expected record =>
    ignoring (deleteRecordBinding sha256 fromSlice store process expected record)

def callAll (store : TransitionJournalStore) (process : Process) : List StoreCall → Program StorageError Unit
  | [] => pure ()
  | first :: rest => do
    first.program sha256 fromSlice store process
    callAll store process rest

def Session.program (session : Session) : Program StorageError Unit := do
  let store ← openFromCast sha256 fromSlice session.process session.token
  callAll sha256 fromSlice store session.process session.calls

def Session.run (directory : Directory) (session : Session) : Directory :=
  (session.program sha256 fromSlice).stopAfter session.steps directory

/-- What `load` returns on a directory. -/
def observe (directory : Directory) : Except StorageError (Option TransitionRecord) :=
  ((load sha256 fromSlice).run [] directory).outcome

/-- What each process in turn finds once it has opened the store. -/
def openings : Directory → List Session → List (Except StorageError (Option TransitionRecord))
  | _, [] => []
  | directory, session :: rest =>
    observe sha256 fromSlice
      ((openFromCast sha256 fromSlice session.process session.token).run [] directory).directory ::
      openings (session.run sha256 fromSlice directory) rest

end Runs

def Session.writes (session : Session) : List TransitionRecord :=
  session.calls.filterMap fun call => call.operation.publishes

/-- One lawful change of the canonical record: a first record, a legal advance,
or the removal of a finished one. -/
inductive Moves : Option TransitionRecord → Option TransitionRecord → Prop where
  | created {record : TransitionRecord} (valid : record.validate = .ok ())
      (generation : record.generation = 1) (phase : record.phase = .preparing)
      (rollback : record.rollback = none) : Moves none (some record)
  | advanced {expected next : TransitionRecord}
      (accepted : validateAdvance expected next = .ok ()) : Moves (some expected) (some next)
  | deleted {record : TransitionRecord} (terminal : record.phase = .complete ∨ record.phase = .rollbackComplete) :
      Moves (some record) none

end Cast.TransitionJournal
