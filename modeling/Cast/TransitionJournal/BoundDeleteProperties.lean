import Cast.TransitionJournal.StoreRecovery
import Cast.TransitionJournal.SuccessorProperties

/-! The bound deletion on a device whose renames, unlinks and directory syncs can
fail, before or after they took effect. -/

namespace Cast.TransitionJournal

open Foundation Foundation.Program

variable {sha256 : List UInt8 → Vector UInt8 32}
  {fromSlice : List UInt8 → Except String TransitionRecord} {directory : Directory}
  {store : TransitionJournalStore} {process : Process} {expected : TransitionJournalRecordBinding}
  {record : TransitionRecord} {stored : StoredRecord sha256 fromSlice} {bound : BoundDelete}
  {device : Device} {storage : StorageError} {name : FileName}
  {state : TransitionJournalRecordDeleteState} {pending : Option StorageError}
  {good : Unit → Directory → Prop} {always : Directory → Prop}

/-- The names of the directory in each layout of a bound deletion. -/
def BoundRecordDeleteLayout.listing (stored : StoredRecord sha256 fromSlice)
    (privateName : FileName) (lock : Nat) : BoundRecordDeleteLayout → List (FileName × Nat)
  | exactSource => [stored.entry canonicalName, (lockName, lock)]
  | exactDetached => [stored.entry privateName, (lockName, lock)]
  | absent => [(lockName, lock)]

/-- The deletion was admitted for this very record. -/
structure BoundTo (bound : BoundDelete) (stored : StoredRecord sha256 fromSlice) : Prop where
  loaded : bound.loaded = stored.loaded
  expected : bound.expected.record = bound.record
  record : stored.record = bound.record
  identity : stored.identity = bound.expected.canonical
  terminal : stored.record.phase.deletable = true
  valid : validDeleteName bound.privateName = true

structure Deleting (directory : Directory) (bound : BoundDelete)
    (stored : StoredRecord sha256 fromSlice) (layout : BoundRecordDeleteLayout) : Prop where
  boundTo : BoundTo bound stored
  names : directory.Holds (layout.listing stored bound.privateName bound.store.lock)
  lockMode : (directory.nodes bound.store.lock).mode = journalFileMode
  carried : stored.CarriedBy directory

namespace Deleting

variable {layout : BoundRecordDeleteLayout}

theorem lock_mem : (lockName, bound.store.lock) ∈ layout.listing stored bound.privateName bound.store.lock := by
  cases layout <;> simp [BoundRecordDeleteLayout.listing]

section

variable (deleting : Deleting directory bound stored layout)
include deleting

theorem counts : directory.names.keys.count lockName = 1 ∧
      directory.names.keys.count canonicalName = (layout == .exactSource).toNat ∧
      directory.names.keys.count bound.privateName = (layout == .exactDetached).toNat ∧
      directory.names.keys.length = 1 + (layout == .exactSource).toNat + (layout == .exactDetached).toNat := by
  have privateCanonical := residue_ne_canonicalName deleting.boundTo.valid
  have privateLock := residue_ne_lockName deleting.boundTo.valid
  have lockCanonical := lockName_ne_canonicalName
  have perm := deleting.names.keys_perm
  rw [perm.count_eq, perm.count_eq, perm.count_eq, perm.length_eq]
  cases layout <;>
    simp [BoundRecordDeleteLayout.listing, StoredRecord.entry, privateCanonical,
      privateCanonical.symm, privateLock, privateLock.symm, lockCanonical, lockCanonical.symm] <;>
    decide

theorem observeExact (member : stored.entry name ∈ layout.listing stored bound.privateName bound.store.lock) :
    (observeBoundRecordDeleteName name bound.loaded).Reads directory (.ok .exact) := by
  refine (openNamed_reads deleting.names member deleting.carried.mode).bind
    ((deleting.carried.readBounded.mapError _).bind ?_)
  rw [deleting.boundTo.loaded, StoredRecord.loaded, if_pos ⟨rfl, rfl⟩]
  rfl

theorem observeAbsent (missing : name ∉ (layout.listing stored bound.privateName bound.store.lock).map Prod.fst) :
    (observeBoundRecordDeleteName name bound.loaded).Reads directory (.ok .absent) :=
  (openNamed_reads_absent deleting.names missing).bind rfl

theorem observeBoundRecordDeleteLayout : (observeBoundRecordDeleteLayout bound).Reads directory (.ok layout) := by
  obtain ⟨lockCount, canonicalCount, privateCount, size⟩ := deleting.counts
  have few : (layout.listing stored bound.privateName bound.store.lock).length ≤ maxStaleTemporaries + 3 := by
    cases layout <;> exact Nat.le_of_ble_eq_true rfl
  have privateCanonical := residue_ne_canonicalName deleting.boundTo.valid
  have privateLock := residue_ne_lockName deleting.boundTo.valid
  have lockCanonical := lockName_ne_canonicalName
  refine ((directoryEntries_reads deleting.names few).mapError _).bind ((reads_check ?_).bind ?_)
  · rw [lockCount, canonicalCount, privateCount, size]
    cases layout <;> decide
  · cases layout with
    | exactSource =>
      refine (deleting.observeExact List.mem_cons_self).bind ((deleting.observeAbsent ?_).bind rfl)
      simp [BoundRecordDeleteLayout.listing, StoredRecord.entry, privateCanonical, privateLock]
    | exactDetached =>
      refine (deleting.observeAbsent ?_).bind ((deleting.observeExact List.mem_cons_self).bind rfl)
      simp [BoundRecordDeleteLayout.listing, StoredRecord.entry, privateCanonical.symm, lockCanonical.symm]
    | absent =>
      refine (deleting.observeAbsent ?_).bind ((deleting.observeAbsent ?_).bind rfl)
      · simp [BoundRecordDeleteLayout.listing, lockCanonical.symm]
      · simp [BoundRecordDeleteLayout.listing, privateLock]

theorem classify : (classifyBoundRecordDeleteLayout bound).Reads directory (.ok layout) := by
  have binding := revalidateRetainedCastBinding_reads deleting.names lock_mem deleting.lockMode
  have required : (requireLoadedRecordBinding bound.expected bound.record bound.loaded).Reads directory (.ok ()) := by
    apply reads_check
    rw [deleting.boundTo.loaded, deleting.boundTo.expected, StoredRecord.loaded,
      deleting.boundTo.record, deleting.boundTo.identity]
    simp
  exact required.bind (binding.bind (deleting.observeBoundRecordDeleteLayout.bind
    (binding.bind (deleting.observeBoundRecordDeleteLayout.bind ((reads_check (by simp)).bind rfl)))))

end

theorem requireDetached (deleting : Deleting directory bound stored .exactDetached) :
    (requireDetached bound).Reads directory (.ok ()) :=
  deleting.classify.attempt.bind rfl

theorem requireAbsence (deleting : Deleting directory bound stored .absent) :
    (requireBoundRecordAbsence bound).Reads directory (.ok ()) :=
  deleting.classify.bind (reads_check (by simp))

theorem renamed {source target : FileName} (moved : BoundRecordDeleteLayout)
    (deleting : Deleting directory bound stored layout)
    (here : layout.listing stored bound.privateName bound.store.lock =
      [stored.entry source, (lockName, bound.store.lock)])
    (there : moved.listing stored bound.privateName bound.store.lock =
      [stored.entry target, (lockName, bound.store.lock)])
    (fresh : target ≠ source ∧ target ≠ lockName) :
    ∃ after : Directory, directory.perform (.rename source target) = (.ok (), after) ∧
      Deleting after bound stored moved := by
  obtain ⟨after, performed, names, nodes⟩ := (here ▸ deleting.names).rename (by simpa [StoredRecord.entry] using fresh)
  refine ⟨after, performed, deleting.boundTo, there ▸ names, ?_, ?_⟩
  · rw [nodes]
    exact deleting.lockMode
  · rw [StoredRecord.CarriedBy, nodes]
    exact deleting.carried

theorem unlink (deleting : Deleting directory bound stored .exactDetached) :
    Deleting (directory.forget bound.privateName) bound stored .absent :=
  ⟨deleting.boundTo, deleting.names.forget, deleting.lockMode, deleting.carried⟩

end Deleting

def Anywhere (bound : BoundDelete) (stored : StoredRecord sha256 fromSlice) (directory : Directory) : Prop :=
  ∃ layout, Deleting directory bound stored layout

def TransitionJournalRecordDeleteState.layout : TransitionJournalRecordDeleteState → BoundRecordDeleteLayout
  | exactSource => .exactSource
  | absent => .absent

/-- An error that names a state names the state the directory is in. It is only
ever returned because the device failed. -/
def Reported (device : Device) (bound : BoundDelete) (stored : StoredRecord sha256 fromSlice)
    (error : TransitionJournalRecordDeleteError) (directory : Directory) : Prop :=
  device = .faulty ∧ ∀ state source, error = .storage state source → Deleting directory bound stored state.layout

/-- The record stays in one of the three layouts, and what is reported of it is true. -/
abbrev Accounts {α : Type} (device : Device) (bound : BoundDelete) (stored : StoredRecord sha256 fromSlice)
    (program : Program TransitionJournalRecordDeleteError α) (good : α → Directory → Prop)
    (directory : Directory) : Prop :=
  program.Ensures device (Anywhere bound stored) good (Reported device bound stored) directory

namespace Deleting

variable {layout : BoundRecordDeleteLayout}

theorem anywhere (deleting : Deleting directory bound stored layout) : Anywhere bound stored directory :=
  ⟨layout, deleting⟩

theorem reported (faulty : device = .faulty) (deleting : Deleting directory bound stored state.layout) :
    Reported device bound stored (.storage state storage) directory := by
  refine ⟨faulty, fun state source same => ?_⟩
  cases same
  exact deleting

theorem unreconciled {reconciliation : StorageError} (faulty : device = .faulty) :
    Reported device bound stored (.storageAndReconciliation storage reconciliation) directory :=
  ⟨faulty, fun _ _ same => nomatch same⟩

section Reconciliation

variable (faulty : device = .faulty)
include faulty

theorem confirm (deleting : Deleting directory bound stored state.layout) :
    Accounts device bound stored (confirmReconciledDeleteState bound storage state) good directory := by
  cases state with
  | exactSource | absent =>
    exact deleting.classify.attempt.ensures_bind ⟨deleting.anywhere, deleting.reported faulty⟩

theorem finish (deleting : Deleting directory bound stored state.layout) :
    Accounts device bound stored (finishReconciledDeleteState bound storage state) good directory := by
  have stopped : Accounts device bound stored
      (fail (.storageAndReconciliation storage (.syncJournalDirectory .device))) good directory :=
    ⟨deleting.anywhere, unreconciled faulty⟩
  rw [Accounts, finishReconciledDeleteState, ensures_bind, ensures_attempt, syncBoundDeleteDirectory, ensures_mapError]
  exact ensures_request rfl deleting.anywhere deleting.anywhere (deleting.confirm faulty) fun _ _ => ⟨stopped, stopped⟩

theorem finishRestored {restore : Except StorageError Unit} (deleting : Deleting directory bound stored layout) :
    Accounts device bound stored (finishRestoredRecord bound storage restore) good directory := by
  refine deleting.classify.attempt.ensures_bind ?_
  cases layout with
  | exactSource | absent => exact finish faulty deleting
  | exactDetached => exact ⟨deleting.anywhere, unreconciled faulty⟩

theorem restoreDetached (deleting : Deleting directory bound stored .exactDetached) :
    Accounts device bound stored (restoreDetachedRecord bound storage) good directory := by
  have fresh := And.intro (residue_ne_canonicalName deleting.boundTo.valid).symm lockName_ne_canonicalName.symm
  obtain ⟨restored, performed, after⟩ := deleting.renamed .exactSource rfl rfl fresh
  rw [Accounts, restoreDetachedRecord, ensures_bind, ensures_attempt, ensures_mapError]
  exact ensures_request performed deleting.anywhere after.anywhere (after.finishRestored faulty)
    fun _ _ => ⟨deleting.finishRestored faulty, after.finishRestored faulty⟩

theorem reconcilePrivateUnlinkFailure (deleting : Deleting directory bound stored layout) :
    Accounts device bound stored (reconcilePrivateUnlinkFailure bound storage) good directory := by
  refine deleting.classify.attempt.ensures_bind ?_
  cases layout with
  | exactSource | absent => exact finish faulty deleting
  | exactDetached => exact deleting.restoreDetached faulty

theorem reconcileCleanDeleteFailure (deleting : Deleting directory bound stored .absent) :
    Accounts device bound stored (reconcileCleanDeleteFailure bound storage) good directory :=
  deleting.classify.attempt.ensures_bind ⟨deleting.anywhere, deleting.reported faulty⟩

/-- A failed detach either left the record in place, and the deletion ends, or
moved it all the same, and the deletion goes on with the failure kept. -/
theorem reconcileDetachFailure (deleting : Deleting directory bound stored layout) (present : layout ≠ .absent) :
    Accounts device bound stored (reconcileDetachFailure bound storage)
      (fun pending after => (pending.isSome = true → device = .faulty) ∧ Deleting after bound stored .exactDetached)
      directory := by
  refine deleting.classify.attempt.ensures_bind ?_
  cases layout with
  | exactSource => exact ⟨deleting.anywhere, deleting.reported faulty⟩
  | exactDetached => exact ⟨deleting.anywhere, fun _ => faulty, deleting⟩
  | absent => exact absurd rfl present

end Reconciliation

theorem detachCanonical (deleting : Deleting directory bound stored .exactSource) :
    Accounts device bound stored (detachCanonical bound)
      (fun pending after => (pending.isSome = true → device = .faulty) ∧ Deleting after bound stored .exactDetached)
      directory := by
  have fresh := And.intro (residue_ne_canonicalName deleting.boundTo.valid) (residue_ne_lockName deleting.boundTo.valid)
  obtain ⟨detached, performed, after⟩ := deleting.renamed .exactDetached rfl rfl fresh
  refine ensures_step_handled performed deleting.anywhere ?_ fun faulty => ⟨?_, ?_⟩
  · exact after.requireDetached.ensures_bind ⟨after.anywhere, nofun, after⟩
  · exact deleting.reconcileDetachFailure faulty nofun
  · exact after.reconcileDetachFailure faulty nofun

section

variable (kept : pending.isSome = true → device = .faulty)
include kept

theorem finishDelete (deleting : Deleting directory bound stored .absent) :
    Accounts device bound stored (finishDelete pending)
      (fun _ after => Deleting after bound stored .absent) directory := by
  cases pending with
  | none => exact ⟨deleting.anywhere, deleting⟩
  | some source => exact ⟨deleting.anywhere, deleting.reported (kept rfl)⟩

theorem syncUnlinkedRecord (deleting : Deleting directory bound stored .absent) :
    Accounts device bound stored (syncUnlinkedRecord bound pending)
      (fun _ after => Deleting after bound stored .absent) directory := by
  refine (deleting.requireAbsence.mapError _).ensures_bind ?_
  rw [ensures_bind, ensures_attempt, syncBoundDeleteDirectory, ensures_mapError]
  refine ensures_request rfl deleting.anywhere deleting.anywhere ?_ fun faulty _ => ⟨?_, ?_⟩
  · exact (deleting.requireAbsence.mapError _).ensures_bind (deleting.finishDelete kept)
  · exact deleting.reconcileCleanDeleteFailure faulty
  · exact deleting.reconcileCleanDeleteFailure faulty

theorem unlinkDetachedRecord (deleting : Deleting directory bound stored .exactDetached) :
    Accounts device bound stored (unlinkDetachedRecord bound pending)
      (fun _ after => Deleting after bound stored .absent) directory := by
  refine deleting.requireDetached.ensures_bind ?_
  refine ensures_step_handled deleting.names.unlink deleting.anywhere ?_ fun faulty => ⟨?_, ?_⟩
  · exact deleting.unlink.syncUnlinkedRecord kept
  · exact deleting.reconcilePrivateUnlinkFailure faulty
  · exact deleting.unlink.reconcilePrivateUnlinkFailure faulty

end

theorem deletion (deleting : Deleting directory bound stored .exactSource) (device : Device) :
    Accounts device bound stored (TransitionJournal.detachCanonical bound >>= fun pending =>
      TransitionJournal.unlinkDetachedRecord bound pending)
      (fun _ after => Deleting after bound stored .absent) directory :=
  deleting.detachCanonical.bind fun _ _ detached => detached.2.unlinkDetachedRecord detached.1

end Deleting

variable {file : Nat} {loaded : Option LoadedRecord}

/-- The program makes no unlink, whatever it is answered. -/
def Keeps {ε α : Type} (program : Program ε α) : Prop := program.MakesAtMost Request.isUnlink 0

theorem keeps_request {call : Request} (other : call.isUnlink = false) : Keeps (request call) := by
  have bounded := @makesAtMost_request Request.isUnlink call
  rwa [other] at bounded

theorem keeps_check {ε : Type} {refused : Prop} [Decidable refused] {error : ε} : Keeps (check refused error) := trivial

theorem keeps_done {ε α : Type} {outcome : Except ε α} : Keeps (done outcome) := trivial

theorem keeps_requireSafeRegularFile : Keeps (requireSafeRegularFile file) :=
  (keeps_request rfl).after fun _ => keeps_check

theorem keeps_readBounded : Keeps (readBounded file) :=
  (keeps_request rfl).after fun _ => keeps_check.after fun _ => keeps_check.after fun _ =>
    (keeps_request rfl).after fun _ => keeps_check.after fun _ =>
      (keeps_request rfl).after fun _ => keeps_check.after fun _ => keeps_check.after fun _ =>
        keeps_done

theorem keeps_directoryEntries : Keeps directoryEntries :=
  (keeps_request rfl).after fun _ => keeps_check.after fun _ => keeps_done

theorem keeps_openNamed : Keeps (openNamed name) := by
  refine (keeps_request rfl).attempt.after fun found => ?_
  cases found with
  | error error => cases error <;> exact keeps_done
  | ok file => exact (keeps_requireSafeRegularFile.mapError _).after fun _ => keeps_done

theorem keeps_loadPinned {sha256 : List UInt8 → Vector UInt8 32}
    {fromSlice : List UInt8 → Except String TransitionRecord} :
    Keeps (loadPinned sha256 fromSlice) := by
  refine keeps_openNamed.after fun found => ?_
  cases found with
  | none => exact keeps_done
  | some file =>
    refine MakesAtMost.after ?_ fun _ => keeps_done
    exact (keeps_readBounded.mapError _).after fun _ =>
      (keeps_requireSafeRegularFile.mapError _).after fun _ => keeps_done.after fun _ => keeps_done

theorem keeps_revalidateRetainedCastBinding : Keeps (revalidateRetainedCastBinding store) := by
  have once : Keeps (revalidateExactPublicLock store) :=
    (keeps_requireSafeRegularFile.mapError _).after fun _ =>
      ((keeps_request rfl).mapError _).after fun _ =>
        (keeps_requireSafeRegularFile.mapError _).after fun _ => keeps_check
  exact once.after fun _ => once

theorem keeps_inspectExactPublicEntrySet {expectedCanonical : Option Bool} :
    Keeps (inspectExactPublicEntrySet expectedCanonical) :=
  (keeps_directoryEntries.mapError _).after fun _ => keeps_check.after fun _ => keeps_done

theorem keeps_revalidateExactPublicState : Keeps (revalidateExactPublicState loaded) := by
  refine keeps_inspectExactPublicEntrySet.after fun _ => ?_
  cases loaded with
  | none => exact keeps_done
  | some loaded =>
    exact ((keeps_request rfl).mapError _).after fun _ =>
      (keeps_requireSafeRegularFile.mapError _).after fun _ => keeps_check.after fun _ =>
        (keeps_readBounded.mapError _).after fun _ => keeps_check

theorem keeps_revalidatePublic : Keeps (revalidatePublic loaded store) :=
  keeps_revalidateRetainedCastBinding.after fun _ => keeps_revalidateExactPublicState

theorem keeps_admitBoundDelete : Keeps (admitBoundDelete sha256 fromSlice store process expected record) := by
  have load : Keeps (loadPinnedRevalidated sha256 fromSlice store) :=
    keeps_revalidateRetainedCastBinding.after fun _ =>
      keeps_inspectExactPublicEntrySet.after fun _ => keeps_loadPinned.after fun _ =>
        keeps_check.after fun _ => keeps_revalidateExactPublicState.after fun _ =>
          keeps_revalidateRetainedCastBinding.after fun _ =>
            keeps_revalidateExactPublicState.after fun _ => keeps_done
  exact keeps_check.after fun _ => keeps_done.after fun _ => keeps_check.after fun _ =>
    keeps_check.after fun _ => load.after fun _ => keeps_done.after fun _ =>
      keeps_check.after fun _ => keeps_revalidatePublic.after fun _ =>
        keeps_check.after fun _ => keeps_done

theorem keeps_classify : Keeps (classifyBoundRecordDeleteLayout bound) := by
  have observeName : ∀ name, Keeps (observeBoundRecordDeleteName name bound.loaded) := by
    intro name
    refine keeps_openNamed.after fun found => ?_
    cases found with
    | none => exact keeps_done
    | some file => exact (keeps_readBounded.mapError _).after fun _ => keeps_done
  have observe : Keeps (observeBoundRecordDeleteLayout bound) :=
    (keeps_directoryEntries.mapError _).after fun _ => keeps_check.after fun _ =>
      (observeName _).after fun _ => (observeName _).after fun _ => keeps_done
  exact keeps_check.after fun _ => keeps_revalidateRetainedCastBinding.after fun _ =>
    observe.after fun _ => keeps_revalidateRetainedCastBinding.after fun _ =>
      observe.after fun _ => keeps_check.after fun _ => keeps_done

theorem keeps_requireDetached : Keeps (requireDetached bound) := by
  refine keeps_classify.attempt.after fun observed => ?_
  rcases observed with _ | (_ | _ | _) <;> exact keeps_done

theorem keeps_detachCanonical : Keeps (detachCanonical bound) := by
  refine (keeps_request rfl).attempt.after fun renamed => ?_
  cases renamed with
  | ok _ => exact keeps_requireDetached.after fun _ => keeps_done
  | error _ =>
    refine keeps_classify.attempt.after fun observed => ?_
    rcases observed with _ | (_ | _ | _) <;> exact keeps_done

theorem keeps_finish : Keeps (finishReconciledDeleteState bound storage state) := by
  refine ((keeps_request rfl).mapError _).attempt.after fun synced => ?_
  cases synced with
  | error _ => exact keeps_done
  | ok _ =>
    refine keeps_classify.attempt.after fun observed => ?_
    rcases observed with _ | (_ | _ | _) <;> cases state <;> exact keeps_done

theorem keeps_reconcilePrivateUnlinkFailure : Keeps (reconcilePrivateUnlinkFailure bound storage) := by
  refine keeps_classify.attempt.after fun observed => ?_
  rcases observed with _ | (_ | _ | _)
  · exact keeps_done
  · exact keeps_finish
  · refine ((keeps_request rfl).mapError _).attempt.after fun _ =>
      keeps_classify.attempt.after fun again => ?_
    rcases again with _ | (_ | _ | _)
    · exact keeps_done
    · exact keeps_finish
    · exact keeps_done
    · exact keeps_finish
  · exact keeps_finish

theorem keeps_syncUnlinkedRecord : Keeps (syncUnlinkedRecord bound pending) := by
  have absence : Keeps (requireBoundRecordAbsence bound) := keeps_classify.after fun _ => keeps_check
  refine (absence.mapError _).after fun _ =>
    ((keeps_request rfl).mapError _).attempt.after fun synced => ?_
  cases synced with
  | error _ =>
    refine keeps_classify.attempt.after fun observed => ?_
    rcases observed with _ | (_ | _ | _) <;> exact keeps_done
  | ok _ =>
    refine (absence.mapError _).after fun _ => ?_
    cases pending <;> exact keeps_done

/-- The one unlink stands between parts that make none. -/
theorem deleteRecordBinding_unlinks :
    (deleteRecordBinding sha256 fromSlice store process expected record).MakesAtMost Request.isUnlink 1 := by
  refine (keeps_admitBoundDelete.mapError _).after fun bound =>
    keeps_detachCanonical.after fun pending => keeps_requireDetached.after fun _ => ?_
  have sole : (request (.unlink bound.privateName)).MakesAtMost Request.isUnlink 1 := makesAtMost_request _
  change MakesAtMost Request.isUnlink (1 + 0) _
  refine sole.attempt.bind fun unlinked => ?_
  cases unlinked with
  | error _ => exact keeps_reconcilePrivateUnlinkFailure
  | ok _ => exact keeps_syncUnlinkedRecord

variable {lock : Nat} {current : Option (StoredRecord sha256 fromSlice)}

/-- The lock, and a terminal record under a private name. -/
structure Residual (directory : Directory) (lock : Nat) (stored : StoredRecord sha256 fromSlice)
    (privateName : FileName) : Prop where
  names : directory.Holds [stored.entry privateName, (lockName, lock)]
  valid : validDeleteName privateName = true
  terminal : stored.record.phase.deletable = true
  lockMode : (directory.nodes lock).mode = journalFileMode
  carried : stored.CarriedBy directory

theorem Residual.recoverable {privateName : FileName} (residual : Residual directory lock stored privateName) :
    Recoverable directory (some stored) :=
  .locked (residual.names : directory.Holds ([stored.entry privateName] ++ [(lockName, lock)]))
    (.detached residual.valid residual.terminal residual.carried)
    (residual.lockMode ▸ restricted_journalFileMode)

theorem Deleting.settled_source (deleting : Deleting directory bound stored .exactSource) :
    Settled directory bound.store.lock (some stored) :=
  ⟨deleting.names, deleting.lockMode, deleting.carried.of_some⟩

theorem Deleting.settled_absent (deleting : Deleting directory bound stored .absent) :
    Settled directory bound.store.lock (none : Option (StoredRecord sha256 fromSlice)) :=
  ⟨deleting.names, deleting.lockMode, fun _ isCurrent => nomatch isCurrent⟩

/-- Admission looks only, and lets through nothing but the bound terminal record. -/
theorem Settled.admitBoundDelete (settled : Settled directory store.lock current) (before : always directory) :
    (admitBoundDelete sha256 fromSlice store process expected record).Ensures device always
      (fun bound after => after = directory ∧ bound.store = store ∧
        ∃ stored, current = some stored ∧ Deleting directory bound stored .exactSource)
      (fun _ after => after = directory) directory := by
  refine ensures_check before (fun _ => rfl) fun _ => ?_
  refine ensures_done before (fun _ _ => rfl) fun _ _ => ?_
  refine ensures_check before (fun _ => rfl) fun deletable => ?_
  refine ensures_check before (fun _ => rfl) fun _ => ?_
  refine settled.loadPinnedRevalidated.ensures_bind (ensures_done before (fun _ _ => rfl) ?_)
  intro loaded found
  cases current with
  | none => cases found
  | some stored =>
    cases found
    refine ensures_check before (fun _ => rfl) fun matching => ?_
    simp only [not_or, not_not] at matching
    obtain ⟨expectedRecord, isRecord, identity⟩ := matching
    have again : (requireLoadedRecordBinding expected record stored.loaded).Reads directory (.ok ()) := by
      apply reads_check
      rw [expectedRecord, isRecord, identity]
      simp
    refine settled.revalidatePublic.ensures_bind (again.ensures_bind ?_)
    have terminal : stored.record.phase.deletable = true := by
      have sameRecord : stored.record = record := isRecord
      rw [sameRecord]
      simpa using deletable
    refine ⟨before, rfl, rfl, stored, rfl, ?_, settled.names, settled.lockMode, settled.carried stored rfl⟩
    exact ⟨rfl, expectedRecord, isRecord, identity, terminal, validDeleteName_deleteName process⟩

/-- A bound deletion is refused with the directory untouched, or it goes on from
the bound record. -/
theorem Settled.deleteRecordBinding (settled : Settled directory store.lock current)
    {bad : TransitionJournalRecordDeleteError → Directory → Prop} (before : always directory)
    (refused : ∀ source, bad (.admission source) directory)
    (continues : ∀ bound stored, current = some stored → bound.store = store →
      Deleting directory bound stored .exactSource →
      (detachCanonical bound >>= fun pending => unlinkDetachedRecord bound pending).Ensures
        device always good bad directory) :
    (deleteRecordBinding sha256 fromSlice store process expected record).Ensures device always good bad directory := by
  rw [TransitionJournal.deleteRecordBinding, ensures_bind, ensures_mapError]
  refine (settled.admitBoundDelete before).mono (fun _ kept => kept) ?_ ?_
  · rintro bound after _ ⟨rfl, sameStore, stored, isCurrent, deleting⟩
    exact continues bound stored isCurrent sameStore deleting
  · rintro source after _ rfl
    exact refused source

/-- The record is gone, in place, or under a private name, and nothing else is there. -/
def Placed (lock : Nat) (stored : StoredRecord sha256 fromSlice) (directory : Directory) : Prop :=
  Settled directory lock (none : Option (StoredRecord sha256 fromSlice)) ∨ Settled directory lock (some stored) ∨
    ∃ privateName, Residual directory lock stored privateName

theorem Anywhere.placed (anywhere : Anywhere bound stored directory) : Placed bound.store.lock stored directory := by
  obtain ⟨layout, deleting⟩ := anywhere
  cases layout with
  | exactSource => exact .inr (.inl deleting.settled_source)
  | exactDetached =>
    have bound := deleting.boundTo
    exact .inr (.inr ⟨_, deleting.names, bound.valid, bound.terminal, deleting.lockMode, deleting.carried⟩)
  | absent => exact .inl deleting.settled_absent

theorem Placed.recoverable (placed : Placed lock stored directory) :
    Recoverable directory (none : Option (StoredRecord sha256 fromSlice)) ∨ Recoverable directory (some stored) := by
  rcases placed with absent | source | ⟨_, residual⟩
  · exact .inl absent.recoverable
  · exact .inr source.recoverable
  · exact .inr residual.recoverable

def TransitionJournalRecordDeleteState.remaining (stored : StoredRecord sha256 fromSlice) :
    TransitionJournalRecordDeleteState → Option (StoredRecord sha256 fromSlice)
  | exactSource => some stored
  | absent => none

theorem deleteRecordBinding_ensures (settled : Settled directory store.lock (some stored)) :
    (deleteRecordBinding sha256 fromSlice store process expected record).Ensures device (Placed store.lock stored)
      (fun _ after =>
        Settled after store.lock (none : Option (StoredRecord sha256 fromSlice)))
      (fun error after => ∀ state source, error = .storage state source →
        Settled after store.lock (state.remaining stored))
      directory := by
  refine settled.deleteRecordBinding (Or.inr (.inl settled)) (fun _ _ _ same => nomatch same) ?_
  rintro bound _ ⟨rfl⟩ rfl deleting
  refine (deleting.deletion _).mono (fun _ => Anywhere.placed) (fun _ _ _ => Deleting.settled_absent) ?_
  rintro error after _ ⟨_, reported⟩ state source same
  have found := reported state source same
  cases state with
  | exactSource => exact found.settled_source
  | absent => exact found.settled_absent

/-- A later open always succeeds; it finds no record where none was left, and the
same record where it was left in place or under a private name. -/
theorem Placed.openFromCast (placed : Placed lock stored directory) (opener : Process) (token : Nat) :
    ∃ reopened, ((openFromCast sha256 fromSlice opener token).run [] directory).outcome = .ok reopened ∧
      (Settled ((openFromCast sha256 fromSlice opener token).run [] directory).directory
          reopened.lock (none : Option (StoredRecord sha256 fromSlice)) ∨
        Settled ((openFromCast sha256 fromSlice opener token).run [] directory).directory
          reopened.lock (some stored)) := by
  rcases placed.recoverable with absent | present
  · obtain ⟨reopened, succeeded, settled⟩ := openFromCast_run absent opener token
    exact ⟨reopened, succeeded, .inl settled⟩
  · obtain ⟨reopened, succeeded, settled⟩ := openFromCast_run present opener token
    exact ⟨reopened, succeeded, .inr settled⟩

/-- Whatever fails on the way of a bound deletion, what it returns is true of the
directory it leaves, the record is unlinked at most once, and the next open puts
the directory in order. -/
theorem bound_delete_reports_true_state (settled : Settled directory store.lock (some stored)) (faults : List Fault) :
    let run := (deleteRecordBinding sha256 fromSlice store process expected record).run faults directory
    (run.outcome = .ok () → Settled run.directory store.lock (none : Option (StoredRecord sha256 fromSlice))) ∧
    (∀ source, run.outcome = .error (.storage .exactSource source) → Settled run.directory store.lock (some stored)) ∧
    (∀ source, run.outcome = .error (.storage .absent source) →
      Settled run.directory store.lock (none : Option (StoredRecord sha256 fromSlice))) ∧
    run.requests.countP Request.isUnlink ≤ 1 ∧
    Placed store.lock stored run.directory ∧
    ∀ (opener : Process) (token : Nat), ∃ reopened,
      ((openFromCast sha256 fromSlice opener token).run [] run.directory).outcome = .ok reopened ∧
        (Settled ((openFromCast sha256 fromSlice opener token).run [] run.directory).directory
            reopened.lock (none : Option (StoredRecord sha256 fromSlice)) ∨
          Settled ((openFromCast sha256 fromSlice opener token).run [] run.directory).directory
            reopened.lock (some stored)) := by
  intro run
  have ended : (done run.outcome).Ensures .faulty _ _ _ run.directory :=
    (deleteRecordBinding_ensures settled).run faults (.inr rfl)
  have placed : Placed store.lock stored run.directory := ended.atStart
  refine ⟨fun succeeded => ?_, fun source failed => ?_, fun source failed => ?_,
    deleteRecordBinding_unlinks.run faults, placed, placed.openFromCast⟩
  · rw [succeeded] at ended
    exact ended.2
  · rw [failed] at ended
    exact ended.2 .exactSource source rfl
  · rw [failed] at ended
    exact ended.2 .absent source rfl

/-- Without failures the bound terminal record is deleted. -/
theorem deleteRecordBinding_succeeds (settled : Settled directory store.lock (some stored))
    (sameStore : store.binding = expected.store) (isRecord : expected.record = stored.record)
    (identity : stored.identity = expected.canonical) (terminal : stored.record.phase.deletable = true) :
    let run := (deleteRecordBinding sha256 fromSlice store process expected stored.record).run [] directory
    run.outcome = .ok () ∧ Settled run.directory store.lock (none : Option (StoredRecord sha256 fromSlice)) := by
  intro run
  have matching : (requireLoadedRecordBinding expected stored.record stored.loaded).Reads directory (.ok ()) := by
    apply reads_check
    rw [isRecord, StoredRecord.loaded, identity]
    simp
  let bound : BoundDelete := ⟨store, expected, stored.record, stored.loaded, deleteName process⟩
  have admitted : (admitBoundDelete sha256 fromSlice store process expected stored.record).Reads
      directory (.ok bound) := by
    refine (reads_check (not_not.mpr sameStore)).bind ?_
    rw [TransitionRecord.validate_eq_ok.mpr stored.valid]
    refine Reads.bind rfl ((reads_check (by simp [terminal])).bind
      ((reads_check (not_not.mpr isRecord)).bind (settled.loadPinnedRevalidated.bind ?_)))
    exact Reads.bind rfl (matching.bind (settled.revalidatePublic.bind (matching.bind rfl)))
  have deleting : Deleting directory bound stored .exactSource :=
    ⟨⟨rfl, isRecord, rfl, identity, terminal, validDeleteName_deleteName process⟩, settled.names,
      settled.lockMode, settled.carried stored rfl⟩
  have ensured : (deleteRecordBinding sha256 fromSlice store process expected stored.record).Ensures
      .reliable _ _ _ directory := (admitted.mapError _).ensures_bind (deleting.deletion _)
  have ended : (done run.outcome).Ensures .reliable _ _ _ run.directory := ensured.run [] (.inl rfl)
  generalize run.outcome = outcome at ended ⊢
  cases outcome with
  | ok => exact ⟨rfl, ended.2.settled_absent⟩
  | error => cases ended.2.1

/-- The lock and one file under the canonical name. -/
def sampleDirectory (framed : List UInt8) : Directory :=
  ((Directory.empty.addFile lockName journalFileMode).addFile canonicalName journalFileMode).setNode
    1 ⟨journalFileMode, framed⟩

theorem sampleDirectory_settled (stored : StoredRecord sha256 fromSlice) (first : stored.identity = 1) :
    Settled (sampleDirectory stored.framed) 0 (some stored) := by
  have locked := @Directory.Holds.addFile _ _ lockName Directory.Holds.empty (by simp) journalFileMode
  have names := @Directory.Holds.addFile _ _ canonicalName locked (by decide) journalFileMode
  refine ⟨?_, rfl, fun other same => ?_⟩
  · have listed : canonicalEntry (some stored) = [(canonicalName, 1)] := by
      rw [← first]
      rfl
    rw [listed]
    exact names.setNode _
  · cases same
    rw [StoredRecord.CarriedBy, first]
    rfl

def sampleTerminal : TransitionRecord := sampleRecord 5 .rollbackComplete (some (samplePlan .applied))

def sampleStored : StoredRecord (fun _ => Vector.replicate 32 0) (fun _ => .ok sampleTerminal) where
  identity := 1
  framed := frame (fun _ => Vector.replicate 32 0) sampleTerminal.toVec
  record := sampleTerminal
  decodes := decode_of_encode (encode_eq_ok.mpr ⟨TransitionRecord.validate_eq_ok.mp rfl, rfl⟩) rfl

theorem sampleTerminal_delete_reports_true_state : Settled (sampleDirectory sampleStored.framed) 0 (some sampleStored) ∧
      ((deleteRecordBinding (fun _ => Vector.replicate 32 0) (fun _ => .ok sampleTerminal) ⟨0, 7⟩
        ⟨1, 0, 0⟩ ⟨7, 1, sampleTerminal⟩ sampleTerminal).run [.misreported, .refused]
        (sampleDirectory sampleStored.framed)).requests.countP Request.isUnlink ≤ 1 :=
  ⟨sampleDirectory_settled sampleStored rfl,
    (@bound_delete_reports_true_state _ _ _ ⟨0, 7⟩ _ _ _ _ (sampleDirectory_settled sampleStored rfl) _).2.2.2.1⟩

theorem sampleTerminal_deleted :
    ((deleteRecordBinding (fun _ => Vector.replicate 32 0) (fun _ => .ok sampleTerminal) ⟨0, 7⟩ ⟨1, 0, 0⟩
      ⟨7, 1, sampleTerminal⟩ sampleTerminal).run [] (sampleDirectory sampleStored.framed)).outcome = .ok () :=
  (@deleteRecordBinding_succeeds _ _ _ ⟨0, 7⟩ _ _ _ (sampleDirectory_settled sampleStored rfl)
    rfl rfl rfl rfl).1

end Cast.TransitionJournal
