import Cast.TransitionJournal.StoreInspection

/-! Opening the store after a stop. `Recoverable` describes every directory a
stopped process can leave behind, together with the record the next open will
settle on. Opening never fails on such a directory, never leaves that set on the
way, and ends with the lock and at most the canonical name. -/

namespace Cast.TransitionJournal

open Foundation Foundation.Program
open List hiding Vector

variable {sha256 : List UInt8 → Vector UInt8 32} {fromSlice : List UInt8 → Except String TransitionRecord}
  {directory : Directory} {file lock : Nat} {listing entries : List (FileName × Nat)}
  {process : Process} {store : TransitionJournalStore} {name residue : FileName}
  {current : Option (StoredRecord sha256 fromSlice)} {stored : StoredRecord sha256 fromSlice}

/-- No permission bits but the owner's read and write. -/
def Restricted (mode : UInt32) : Prop := mode &&& ~~~journalFileMode = 0

theorem restricted_journalFileMode : Restricted journalFileMode := by
  unfold Restricted
  decide

theorem restricted_umask (umask : UInt32) : Restricted (journalFileMode &&& ~~~umask) := by
  have regrouped : journalFileMode &&& ~~~umask &&& ~~~journalFileMode =
      (journalFileMode &&& ~~~journalFileMode) &&& ~~~umask := by
    ac_rfl
  rw [Restricted, regrouped, UInt32.and_not_self, UInt32.zero_and]

theorem Restricted.restrictedMode {metadata : Metadata} (restricted : Restricted metadata.mode) :
    restrictedMode metadata = true := by
  have regrouped : metadata.mode &&& 0o7777 &&& ~~~journalFileMode =
      (metadata.mode &&& ~~~journalFileMode) &&& 0o7777 := by
    ac_rfl
  rw [TransitionJournal.restrictedMode, modeBits, regrouped, restricted]
  rfl

/-- A restricted mode whose low bits are the final mode is the final mode. -/
theorem Restricted.eq_journalFileMode {mode : UInt32} (restricted : Restricted mode)
    (bits : mode &&& 0o7777 = journalFileMode) : mode = journalFileMode := by
  have split : mode &&& (journalFileMode ||| ~~~journalFileMode) =
      (mode &&& journalFileMode) ||| (mode &&& ~~~journalFileMode) := by
    apply UInt32.toBitVec_inj.mp
    simp only [UInt32.toBitVec_and, UInt32.toBitVec_or, BitVec.and_or_distrib_left]
  calc mode = mode &&& (journalFileMode ||| ~~~journalFileMode) := by simp
    _ = mode &&& journalFileMode := by rw [split, restricted, UInt32.or_zero]
    _ = mode &&& 0o7777 &&& journalFileMode := by rw [UInt32.and_assoc]; rfl
    _ = journalFileMode := by rw [bits, UInt32.and_self]

/-- The names beside the lock that a stopped process can leave: temporaries that
were not published or have been displaced, or the one record that was detached. -/
inductive Leftover (directory : Directory) :
    List (FileName × Nat) → Option (StoredRecord sha256 fromSlice) → Prop where
  | temporaries {entries : List (FileName × Nat)} {current : Option (StoredRecord sha256 fromSlice)}
      (few : entries.length ≤ maxStaleTemporaries)
      (valid : ∀ entry ∈ entries, validTemporaryName entry.1 = true)
      (restricted : ∀ entry ∈ entries, Restricted (directory.nodes entry.2).mode)
      (carried : ∀ stored, current = some stored → stored.CarriedBy directory) :
      Leftover directory (entries ++ canonicalEntry current) current
  | detached {name : FileName} {stored : StoredRecord sha256 fromSlice} (valid : validDeleteName name = true)
      (terminal : stored.record.phase.deletable = true)
      (carried : stored.CarriedBy directory) :
      Leftover directory [stored.entry name] (some stored)

theorem Leftover.clean (carried : ∀ stored, current = some stored → stored.CarriedBy directory) :
    Leftover directory (canonicalEntry current) current :=
  @Leftover.temporaries _ _ directory [] current (Nat.zero_le _) (by simp) (by simp) carried

/-- Every directory the next open can put in order, and the record it will find. -/
inductive Recoverable (directory : Directory) :
    Option (StoredRecord sha256 fromSlice) → Prop where
  | unlocked (names : directory.Holds []) : Recoverable directory none
  | locked {lock : Nat} {listing : List (FileName × Nat)} {current : Option (StoredRecord sha256 fromSlice)}
      (names : directory.Holds (listing ++ [(lockName, lock)]))
      (leftover : Leftover directory listing current)
      (lockMode : Restricted (directory.nodes lock).mode) : Recoverable directory current

/-- Giving a file its final mode. -/
def normalized (directory : Directory) (file : Nat) : Directory :=
  directory.setNode file ⟨journalFileMode, (directory.nodes file).bytes⟩

theorem chmod_perform : directory.perform (.chmod file journalFileMode) = (.ok (), normalized directory file) := rfl

theorem normalized_mode : ((normalized directory file).nodes file).mode = journalFileMode := by
  rw [normalized, Directory.setNode_nodes_self]

theorem StoredRecord.CarriedBy.of_some (carried : stored.CarriedBy directory) :
    ∀ other, some stored = some other → other.CarriedBy directory := by
  intro other same
  cases same
  exact carried

theorem CarriedBy.normalized (carried : stored.CarriedBy directory) : stored.CarriedBy (normalized directory file) := by
  by_cases same : stored.identity = file
  · subst same
    rw [StoredRecord.CarriedBy, TransitionJournal.normalized, Directory.setNode_nodes_self, carried]
  · rw [StoredRecord.CarriedBy, TransitionJournal.normalized, directory.setNode_nodes_ne _ same]
    exact carried

theorem Restricted.normalized {other : Nat} (restricted : Restricted (directory.nodes other).mode) :
    Restricted ((normalized directory file).nodes other).mode := by
  by_cases same : other = file
  · rw [same, normalized_mode]
    exact restricted_journalFileMode
  · rw [TransitionJournal.normalized, directory.setNode_nodes_ne _ same]
    exact restricted

theorem Leftover.normalized (leftover : Leftover directory listing current) :
    Leftover (normalized directory file) listing current := by
  cases leftover with
  | temporaries few valid restricted carried =>
    exact .temporaries few valid (fun entry member => (restricted entry member).normalized)
      fun stored isCurrent => CarriedBy.normalized (carried stored isCurrent)
  | detached valid terminal carried => exact .detached valid terminal (CarriedBy.normalized carried)

/-- The lock is held and has its mode; the rest is as it was left. -/
structure Locked (directory : Directory) (lock : Nat)
    (current : Option (StoredRecord sha256 fromSlice)) : Prop where
  lockMode : (directory.nodes lock).mode = journalFileMode
  leftover : ∃ listing, directory.Holds (listing ++ [(lockName, lock)]) ∧ Leftover directory listing current

theorem Locked.recoverable (locked : Locked directory lock current) :
    Recoverable directory current := by
  obtain ⟨listing, names, leftover⟩ := locked.leftover
  exact .locked names leftover (locked.lockMode ▸ restricted_journalFileMode)

theorem Locked.lock_at (locked : Locked directory lock current) :
    (request (.openAt lockName)).Reads directory (.ok lock) := by
  obtain ⟨listing, names, _⟩ := locked.leftover
  exact openAt_reads names (mem_append_right _ mem_cons_self)

theorem recoverablePrivateLockMode_reads (restricted : Restricted (directory.nodes lock).mode) :
    (recoverablePrivateLockMode lock).Reads directory (.ok ((directory.nodes lock).mode &&& 0o7777)) := by
  refine (reads_request rfl rfl).bind ((reads_check ?_).bind ?_)
  · rw [Restricted.restrictedMode restricted]
    decide
  · rfl

theorem Locked.requireSafe (locked : Locked directory lock current) :
    (requireSafeRegularFile lock).Reads directory (.ok ()) :=
  requireSafeRegularFile_reads locked.lockMode

section

variable (names : directory.Holds (listing ++ [(lockName, lock)]))
  (leftover : Leftover directory listing current) (restricted : Restricted (directory.nodes lock).mode)
include names leftover restricted

theorem normalizeMode_ensures : (normalizeMode lock ((directory.nodes lock).mode &&& 0o7777)).Succeeds
      (Recoverable · current) (fun _ after => Locked after lock current) directory := by
  have before : Recoverable directory current := .locked names leftover restricted
  unfold normalizeMode
  split
  · have after : Locked (normalized directory lock) lock current :=
      ⟨normalized_mode, listing, names.setNode _, leftover.normalized⟩
    exact ensures_last (.chmod lock journalFileMode) chmod_perform before after.recoverable after
  · next final =>
      have mode := restricted.eq_journalFileMode (not_not.mp final)
      exact ⟨before, mode, listing, names, leftover⟩

theorem openExistingLock_ensures : openExistingLock.Succeeds (Recoverable · current)
      (fun file after => Locked after file current) directory := by
  have opened := openAt_reads names (mem_append_right listing mem_cons_self)
  refine (opened.mapError _).ensures_bind (((recoverablePrivateLockMode_reads restricted).mapError _).ensures_bind ?_)
  refine (normalizeMode_ensures names leftover restricted).bind fun _ after locked => ?_
  refine (locked.requireSafe.mapError _).ensures_bind ((locked.lock_at.mapError _).ensures_bind ?_)
  exact (reads_check (by simp)).ensures_bind ⟨locked.recoverable, locked⟩

end

theorem openLockFile_ensures (recoverable : Recoverable directory current) :
    (openLockFile process).Succeeds (Recoverable · current)
      (fun lock after => Locked after lock current) directory := by
  cases recoverable with
  | unlocked names =>
    have created : (directory.addFile lockName (journalFileMode &&& ~~~process.umask)).Holds
        ([] ++ [(lockName, directory.next)]) := names.addFile (by simp) _
    have leftover : @Leftover sha256 fromSlice (directory.addFile lockName (journalFileMode &&& ~~~process.umask))
        (canonicalEntry none) none := Leftover.clean (by simp)
    refine ensures_step_attempt (names.create (by simp) _) (.unlocked names) ?_
    refine ensures_step chmod_perform (.locked created leftover ?_) ?_
    · rw [Directory.addFile_nodes_self]
      exact restricted_umask _
    · have locked := (⟨normalized_mode, _, created.setNode _, leftover.normalized⟩ :
        Locked (normalized _ directory.next) directory.next none)
      exact ⟨locked.recoverable, locked⟩
  | locked names leftover restricted =>
    have opened := openExistingLock_ensures names leftover restricted
    rw [Succeeds, openLockFile, ensures_bind, ensures_attempt]
    exact ensures_request_error (names.create_taken (mem_append_right _ mem_cons_self) _) rfl opened.atStart opened

theorem openAndLock_ensures (recoverable : Recoverable directory current) :
    (openAndLock process).Succeeds (Recoverable · current)
      (fun lock after => Locked after lock current) directory := by
  refine (openLockFile_ensures recoverable).bind fun lock after locked => ?_
  refine (locked.requireSafe.mapError _).ensures_bind ((locked.lock_at.mapError _).ensures_bind
    ((locked.requireSafe.mapError _).ensures_bind ((reads_check (by simp)).ensures_bind ?_)))
  refine ensures_step rfl locked.recoverable (ensures_step rfl locked.recoverable ?_)
  exact ⟨locked.recoverable, locked⟩

theorem classifyStale_eq_ok {names stale : List FileName}
    (known : ∀ name ∈ names, name = canonicalName ∨ name = lockName ∨ validTemporaryName name = true)
    (few : stale.length + (names.filter validTemporaryName).length ≤ maxStaleTemporaries) :
    classifyStale names stale = .ok (stale ++ names.filter validTemporaryName) := by
  induction names generalizing stale with
  | nil => rw [filter_nil, append_nil]; rfl
  | cons name rest ih =>
    have knownRest := fun other member => known other (mem_cons_of_mem name member)
    by_cases fixed : name = canonicalName ∨ name = lockName
    · have notTemporary : validTemporaryName name = false := by
        rcases fixed with rfl | rfl <;> decide
      rw [filter_cons_of_neg (by simp [notTemporary])] at few ⊢
      rw [classifyStale, if_pos fixed]
      exact ih knownRest few
    · have temporary : validTemporaryName name = true := by
        rcases known name mem_cons_self with same | same | valid
        · exact absurd (.inl same) fixed
        · exact absurd (.inr same) fixed
        · exact valid
      rw [filter_cons_of_pos temporary, length_cons] at few
      have room : (stale ++ [name]).length + (rest.filter validTemporaryName).length ≤
          maxStaleTemporaries := by
        rw [length_append, length_singleton]
        omega
      rw [classifyStale, if_neg fixed, if_pos temporary, if_neg (by omega), ih knownRest room,
        filter_cons_of_pos temporary, append_assoc, singleton_append]

/-- The canonical record is in place; what is left to remove are temporaries. -/
structure Stale (directory : Directory) (lock : Nat) (entries : List (FileName × Nat))
    (current : Option (StoredRecord sha256 fromSlice)) : Prop where
  names : directory.Holds (entries ++ (canonicalEntry current ++ [(lockName, lock)]))
  few : entries.length ≤ maxStaleTemporaries
  valid : ∀ entry ∈ entries, validTemporaryName entry.1 = true
  restricted : ∀ entry ∈ entries, Restricted (directory.nodes entry.2).mode
  lockMode : (directory.nodes lock).mode = journalFileMode
  carried : ∀ stored, current = some stored → stored.CarriedBy directory

namespace Stale

theorem settled (stale : Stale directory lock [] current) : Settled directory lock current :=
  ⟨stale.names, stale.lockMode, stale.carried⟩

theorem forget (stale : Stale directory lock ((name, file) :: entries) current) :
    Stale (directory.forget name) lock entries current where
  names := stale.names.forget
  few := Nat.le_of_succ_le stale.few
  valid := fun entry member => stale.valid entry (mem_cons_of_mem _ member)
  restricted := fun entry member => stale.restricted entry (mem_cons_of_mem _ member)
  lockMode := stale.lockMode
  carried := stale.carried

section

variable (stale : Stale directory lock entries current)
include stale

theorem recoverable : Recoverable directory current :=
  .locked (by rw [append_assoc]; exact stale.names) (.temporaries stale.few stale.valid stale.restricted stale.carried)
    (stale.lockMode ▸ restricted_journalFileMode)

theorem perm {other : List (FileName × Nat)} (same : entries.Perm other) :
    Stale directory lock other current where
  names := stale.names.perm (same.append_right _)
  few := same.length_eq ▸ stale.few
  valid := fun entry member => stale.valid entry (same.mem_iff.mpr member)
  restricted := fun entry member => stale.restricted entry (same.mem_iff.mpr member)
  lockMode := stale.lockMode
  carried := stale.carried

theorem mem_keys (member : name ∈ directory.names.keys) :
    name = canonicalName ∨ name = lockName ∨ validTemporaryName name = true := by
  have listed := stale.names.keys_perm.mem_iff.mp member
  obtain ⟨⟨_, file⟩, found, rfl⟩ := mem_map.mp listed
  rcases mem_append.mp found with temporary | fixed
  · exact .inr (.inr (stale.valid _ temporary))
  · cases current with
    | none =>
      have same := mem_singleton.mp fixed
      exact .inr (.inl (congrArg Prod.fst same))
    | some stored =>
      rcases mem_cons.mp fixed with same | same
      · exact .inl (congrArg Prod.fst same)
      · exact .inr (.inl (congrArg Prod.fst (mem_singleton.mp same)))

theorem directoryEntries : directoryEntries.Reads directory (.ok directory.names.keys) := by
  refine directoryEntries_reads stale.names ?_
  have bounded := stale.few
  cases current <;> simp [canonicalEntry] <;> omega

theorem filter_keys : (directory.names.keys.filter validTemporaryName).Perm (entries.map Prod.fst) := by
  have filtered := stale.names.keys_perm.filter validTemporaryName
  have kept : (entries.map Prod.fst).filter validTemporaryName = entries.map Prod.fst := by
    rw [filter_eq_self]
    intro name member
    obtain ⟨entry, found, rfl⟩ := mem_map.mp member
    exact stale.valid entry found
  have dropped : ((canonicalEntry current ++ [(lockName, lock)]).map Prod.fst).filter
      validTemporaryName = [] := by
    cases current <;> simp [canonicalEntry, StoredRecord.entry] <;> decide
  rwa [map_append, filter_append, kept, dropped, append_nil] at filtered

theorem authenticateAllStale {found : List (FileName × Nat)} (members : ∀ entry ∈ found, entry ∈ entries) :
    (authenticateAllStale (found.map Prod.fst)).Reads directory (.ok found) := by
  induction found with
  | nil => rfl
  | cons entry rest ih =>
    obtain ⟨name, file⟩ := entry
    have member := members _ mem_cons_self
    have restricted : restrictedMode ⟨(directory.nodes file).mode, (directory.nodes file).bytes.length⟩ = true :=
      Restricted.restrictedMode (stale.restricted _ member)
    have safe : (requireSafeStaleTemporary file).Reads directory (.ok ()) :=
      (reads_request rfl rfl).bind (reads_check (by rw [restricted]; decide))
    have first : (authenticateStale name).Reads directory (.ok (name, file)) :=
      ((openAt_reads stale.names (mem_append_left _ member)).mapError _).bind ((safe.mapError _).bind rfl)
    exact first.bind ((ih fun entry later => members entry (mem_cons_of_mem _ later)).bind rfl)

omit stale in
theorem cleanupTemporaryIdentity (stale : Stale directory lock ((name, file) :: entries) current) :
    (cleanupTemporaryIdentity name file).Succeeds (Recoverable · current)
      (fun _ after => Stale after lock entries current) directory := by
  refine ((openAt_reads stale.names mem_cons_self).mapError _).ensures_bind ((reads_check (by simp)).ensures_bind ?_)
  refine ensures_step stale.names.unlink stale.recoverable ?_
  refine ensures_last .syncDirectory rfl stale.forget.recoverable stale.forget.recoverable ?_
  exact stale.forget

theorem cleanupAuthenticated : (cleanupAuthenticated entries).Succeeds (Recoverable · current)
      (fun _ after => Settled after lock current) directory := by
  induction entries generalizing directory with
  | nil => exact ⟨stale.recoverable, stale.settled⟩
  | cons entry rest ih => exact stale.cleanupTemporaryIdentity.bind fun _ after remaining => ih remaining

theorem cleanupStaleTemporaries : cleanupStaleTemporaries.Succeeds (Recoverable · current)
      (fun _ after => Settled after lock current) directory := by
  have scan := stale.filter_keys
  have classified : classifyStale directory.names.keys [] = .ok (directory.names.keys.filter validTemporaryName) := by
    refine classifyStale_eq_ok (fun name member => stale.mem_keys member) ?_
    rw [length_nil, Nat.zero_add, scan.length_eq, length_map]
    exact stale.few
  -- The scan lists the temporaries in its own order, with the inodes found there.
  let locate := fun name => (name, (directory.names.lookup name).getD 0)
  have located : (entries.map Prod.fst).map locate = entries := by
    rw [map_map]
    refine (map_congr_left fun entry member => ?_).trans (map_id entries)
    have found := stale.names.lookup.mpr (mem_append_left _ member)
    simp only [Function.comp_apply, locate, found, Option.getD_some, id_eq]
  have same : entries.Perm ((directory.names.keys.filter validTemporaryName).map locate) :=
    located ▸ (scan.symm.map locate)
  have listed : ((directory.names.keys.filter validTemporaryName).map locate).map Prod.fst =
      directory.names.keys.filter validTemporaryName := by
    rw [map_map]
    exact map_id _
  refine (stale.directoryEntries.mapError _).ensures_bind ?_
  rw [classified]
  have reordered := stale.perm same
  have authenticated := reordered.authenticateAllStale fun _ member => member
  rw [listed] at authenticated
  exact authenticated.ensures_bind reordered.cleanupAuthenticated

end

end Stale

/-- The name a detached record is under in each layout. -/
def DeleteResidueLayout.recordName (residue : FileName) : DeleteResidueLayout → FileName
  | exactResidue => residue
  | exactCanonical => canonicalName

variable {layout : DeleteResidueLayout}

def StoredRecord.retained (stored : StoredRecord sha256 fromSlice) (residue : FileName) : RetainedDeleteResidue :=
  ⟨residue, stored.identity, stored.framed⟩

/-- A terminal record alone with the lock, under its private name or back under
the canonical one. -/
structure Restoring (directory : Directory) (store : TransitionJournalStore) (residue : FileName)
    (stored : StoredRecord sha256 fromSlice) (layout : DeleteResidueLayout) : Prop where
  names : directory.Holds [stored.entry (layout.recordName residue), (lockName, store.lock)]
  valid : validDeleteName residue = true
  terminal : stored.record.phase.deletable = true
  lockMode : (directory.nodes store.lock).mode = journalFileMode
  carried : stored.CarriedBy directory

namespace Restoring

theorem stale (restoring : Restoring directory store residue stored .exactCanonical) :
    Stale directory store.lock [] (some stored) where
  names := restoring.names
  few := Nat.zero_le _
  valid := by simp
  restricted := by simp
  lockMode := restoring.lockMode
  carried := restoring.carried.of_some

section

variable (restoring : Restoring directory store residue stored layout)
include restoring

theorem locked : Locked directory store.lock (some stored) := by
  refine ⟨restoring.lockMode, [stored.entry (layout.recordName residue)], restoring.names, ?_⟩
  cases layout with
  | exactResidue => exact .detached restoring.valid restoring.terminal restoring.carried
  | exactCanonical => exact Leftover.clean restoring.carried.of_some

theorem keys_perm : directory.names.keys.Perm [layout.recordName residue, lockName] := restoring.names.keys_perm

theorem counts : directory.names.keys.count lockName = 1 ∧
      directory.names.keys.count residue = (layout == .exactResidue).toNat ∧
      directory.names.keys.count canonicalName = (layout == .exactCanonical).toNat ∧
      directory.names.keys.length = 2 := by
  have differs := residue_ne_canonicalName restoring.valid
  have residueLock := residue_ne_lockName restoring.valid
  have canonicalLock := lockName_ne_canonicalName
  have perm := restoring.keys_perm
  rw [perm.count_eq, perm.count_eq, perm.count_eq, perm.length_eq]
  cases layout <;>
    simp [DeleteResidueLayout.recordName, differs, differs.symm, residueLock, residueLock.symm, canonicalLock,
      canonicalLock.symm] <;>
    decide

theorem deleteRecoveryEntries : (deleteRecoveryEntries store).Reads directory (.ok directory.names.keys) :=
  (revalidateRetainedCastBinding_reads restoring.names (mem_cons_of_mem _ mem_cons_self) restoring.lockMode).bind
    ((directoryEntries_reads restoring.names (Nat.le_of_ble_eq_true rfl)).mapError _)

theorem openDeleteRecoveryRecord :
    (openDeleteRecoveryRecord (layout.recordName residue)).Reads directory (.ok stored.identity) :=
  ((openAt_reads restoring.names mem_cons_self).mapError _).bind
    (((requireSafeRegularFile_reads restoring.carried.mode).mapError _).bind rfl)

theorem residueLayoutName : residueLayoutName (stored.retained residue) (directory.names.keys.count residue) =
      (layout.recordName residue, layout) := by
  rw [restoring.counts.2.1]
  cases layout <;> rfl

theorem observeDeleteResidueLayout :
    (observeDeleteResidueLayout store (stored.retained residue)).Reads directory (.ok layout) := by
  obtain ⟨lockCount, residueCount, canonicalCount, size⟩ := restoring.counts
  refine restoring.deleteRecoveryEntries.bind ((reads_check ?_).bind ?_)
  · rw [lockCount, size, StoredRecord.retained, residueCount, canonicalCount]
    cases layout <;> decide
  · simp only [StoredRecord.retained]
    have selected := restoring.residueLayoutName
    simp only [StoredRecord.retained] at selected
    rw [selected]
    refine restoring.openDeleteRecoveryRecord.bind ((restoring.carried.readBounded.mapError _).bind
        (((requireSafeRegularFile_reads restoring.carried.mode).mapError _).bind ?_))
    exact (reads_check (by simp)).bind rfl

theorem classifyDeleteResidueLayout :
    (classifyDeleteResidueLayout store (stored.retained residue)).Reads directory (.ok layout) :=
  restoring.observeDeleteResidueLayout.bind
    (restoring.observeDeleteResidueLayout.bind ((reads_check (by simp)).bind rfl))

theorem requireDeleteResidueLayout :
    (requireDeleteResidueLayout store (stored.retained residue) layout).Reads directory (.ok ()) :=
  restoring.classifyDeleteResidueLayout.bind (reads_check (by simp))

end

section

variable (restoring : Restoring directory store residue stored .exactResidue)
include restoring

theorem requireUniqueDeleteResidueInventory :
    requireUniqueDeleteResidueInventory directory.names.keys = .ok residue := by
  have lockInvalid : validDeleteName lockName = false := by decide
  have lockStarts : deletePrefix.isPrefixOf lockName = false := by decide
  have perm : directory.names.keys.Perm [residue, lockName] := restoring.keys_perm
  have filtered : directory.names.keys.filter validDeleteName = [residue] := by
    have kept := perm.filter validDeleteName
    rw [filter_cons_of_pos restoring.valid, filter_cons_of_neg (by simp [lockInvalid]), filter_nil] at kept
    exact perm_singleton.mp kept
  have foreign : directory.names.keys.any
      (fun name => deletePrefix.isPrefixOf name && !validDeleteName name) = false := by
    rw [any_eq_false]
    intro name member
    rcases mem_pair.mp (perm.mem_iff.mp member) with same | same
    · simp [same, restoring.valid]
    · simp [same, lockStarts]
  simp [TransitionJournal.requireUniqueDeleteResidueInventory, filtered, restoring.counts, foreign]

theorem retainDeleteResidue : (retainDeleteResidue sha256 fromSlice residue).Reads directory
      (.ok (stored.retained residue)) := by
  refine restoring.openDeleteRecoveryRecord.bind ((restoring.carried.readBounded.mapError _).bind
    (((requireSafeRegularFile_reads restoring.carried.mode).mapError _).bind ?_))
  rw [stored.decodes]
  exact (reads_check (by simp [restoring.terminal])).bind rfl

theorem rename : ∃ restored : Directory, directory.perform (.rename residue canonicalName) = (.ok (), restored) ∧
      Restoring restored store residue stored .exactCanonical := by
  have fresh : canonicalName ∉ [stored.entry residue, (lockName, store.lock)].map Prod.fst := by
    rw [map_cons, map_cons, map_nil, mem_pair]
    rintro (same | same)
    · exact residue_ne_canonicalName restoring.valid same.symm
    · exact lockName_ne_canonicalName same.symm
  obtain ⟨restored, performed, names, nodes⟩ := restoring.names.rename fresh
  refine ⟨restored, performed, names, restoring.valid, restoring.terminal, ?_, ?_⟩
  · rw [nodes]
    exact restoring.lockMode
  · rw [StoredRecord.CarriedBy, nodes]
    exact restoring.carried

theorem recoverResidue : (recoverResidue sha256 fromSlice store directory.names.keys).Succeeds
      (Recoverable · (some stored)) (fun _ after => Stale after store.lock [] (some stored)) directory := by
  obtain ⟨restored, performed, after⟩ := restoring.rename
  have recovered := after.locked.recoverable
  unfold TransitionJournal.recoverResidue
  rw [restoring.requireUniqueDeleteResidueInventory]
  refine Reads.ensures_bind rfl (restoring.retainDeleteResidue.ensures_bind ?_)
  refine restoring.requireDeleteResidueLayout.ensures_bind (restoring.requireDeleteResidueLayout.ensures_bind ?_)
  refine ensures_bind.mpr (ensures_step_attempt performed restoring.locked.recoverable ?_)
  refine ⟨recovered, after.requireDeleteResidueLayout.ensures_bind ?_⟩
  refine ensures_step_attempt rfl recovered (after.requireDeleteResidueLayout.ensures_bind ?_)
  exact ⟨recovered, after.stale⟩

end

end Restoring

variable {token : Nat}

theorem Stale.recoverInterruptedBoundDelete (stale : Stale directory store.lock entries current) :
    (recoverInterruptedBoundDelete sha256 fromSlice store).Reads directory (.ok ()) := by
  have ordinary : directory.names.keys.any deletePrefix.isPrefixOf = false := by
    rw [any_eq_false]
    intro name member
    rw [Bool.not_eq_true]
    rcases stale.mem_keys member with rfl | rfl | temporary
    · decide
    · decide
    · exact temporary_not_delete temporary
  have scanned : (deleteRecoveryEntries store).Reads directory (.ok directory.names.keys) :=
    (revalidateRetainedCastBinding_reads stale.names (mem_append_right _ Settled.lock_mem) stale.lockMode).bind
      (stale.directoryEntries.mapError _)
  refine scanned.bind ?_
  rw [if_neg (by rw [ordinary]; decide)]
  rfl

theorem Restoring.recoverInterruptedBoundDelete (restoring : Restoring directory store residue stored .exactResidue) :
    (recoverInterruptedBoundDelete sha256 fromSlice store).Succeeds
      (Recoverable · (some stored)) (fun _ after => Stale after store.lock [] (some stored)) directory := by
  have found : directory.names.keys.any deletePrefix.isPrefixOf = true :=
    any_eq_true.mpr ⟨residue, restoring.keys_perm.mem_iff.mpr mem_cons_self, residue_isPrefixOf restoring.valid⟩
  refine restoring.deleteRecoveryEntries.ensures_bind ?_
  rw [if_pos found]
  exact restoring.recoverResidue

theorem Locked.recoverInterruptedBoundDelete (store : TransitionJournalStore)
    (locked : Locked directory store.lock current) :
    (recoverInterruptedBoundDelete sha256 fromSlice store).Succeeds
      (Recoverable · current) (fun _ after => ∃ entries, Stale after store.lock entries current) directory := by
  obtain ⟨listing, names, leftover⟩ := locked.leftover
  cases leftover with
  | temporaries few valid restricted carried =>
    rw [append_assoc] at names
    have stale : Stale directory store.lock _ current := ⟨names, few, valid, restricted, locked.lockMode, carried⟩
    rw [Succeeds, stale.recoverInterruptedBoundDelete.ensures]
    exact ⟨locked.recoverable, _, stale⟩
  | detached valid terminal carried =>
    have restoring : Restoring directory store _ _ .exactResidue := ⟨names, valid, terminal, locked.lockMode, carried⟩
    exact restoring.recoverInterruptedBoundDelete.mono (fun _ recoverable => recoverable)
      (fun _ _ _ stale => ⟨[], stale⟩) (fun _ _ _ impossible => impossible)

theorem Settled.recoverable (settled : Settled directory lock current) : Recoverable directory current :=
  .locked settled.names (.clean settled.carried) (settled.lockMode ▸ restricted_journalFileMode)

/-- Opening succeeds on every recoverable directory and settles on its record;
stopped anywhere, it leaves a directory the next open settles the same way. -/
theorem openFromCast_ensures (recoverable : Recoverable directory current) (process : Process) (token : Nat) :
    (openFromCast sha256 fromSlice process token).Succeeds (Recoverable · current)
      (fun store after => store.binding = token ∧ Settled after store.lock current) directory := by
  refine (openAndLock_ensures recoverable).bind fun lock afterLock locked => ?_
  have recovered := Locked.recoverInterruptedBoundDelete ⟨lock, token⟩ locked
  refine recovered.bind fun _ afterRestore restored => ?_
  obtain ⟨entries, stale⟩ := restored
  exact stale.cleanupStaleTemporaries.bind fun _ after settled =>
    ⟨settled.recoverable, rfl, settled⟩

theorem openFromCast_run (recoverable : Recoverable directory current) (process : Process) (token : Nat) :
    ∃ store, ((openFromCast sha256 fromSlice process token).run [] directory).outcome = .ok store ∧
      Settled ((openFromCast sha256 fromSlice process token).run [] directory).directory store.lock current := by
  obtain ⟨store, succeeded, _, settled⟩ := (openFromCast_ensures recoverable process token).run_ok
  exact ⟨store, succeeded, settled⟩

end Cast.TransitionJournal
