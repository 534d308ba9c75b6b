import Cast.TransitionJournal.DeleteResidueRecovery
import Cast.TransitionJournal.CodecProperties

/-! What the looking parts of the store return on a directory whose names are
known. Nothing here changes the directory; the modules about publication,
deletion and opening use these readings and do not look into the inspections
again. -/

namespace Cast.TransitionJournal

open Foundation Foundation.Program
open List hiding Vector

variable {name : FileName} {directory : Directory} {listing : List (FileName × Nat)}
  {store : TransitionJournalStore} {start : List UInt8}

theorem lockName_ne_canonicalName : lockName ≠ canonicalName := by decide

theorem length_lowerHex (width value : Nat) : (lowerHex width value).length = width := by
  induction width generalizing value with
  | zero => rfl
  | succ width ih => rw [lowerHex, length_append, ih, length_singleton]

theorem isLowerHex_hexDigit {nibble : Nat} (small : nibble < 16) :
    isLowerHex (hexDigit (UInt8.ofNat nibble)) = true := by
  revert small nibble
  decide

theorem all_lowerHex (width value : Nat) : (lowerHex width value).all isLowerHex = true := by
  induction width generalizing value with
  | zero => rfl
  | succ width ih =>
    rw [lowerHex, all_append, ih, all_cons, all_nil, isLowerHex_hexDigit (Nat.mod_lt _ (by decide))]
    rfl

theorem validGeneratedTail_generatedTail (process : Process) : validGeneratedTail (generatedTail process) = true := by
  have first := length_lowerHex 8 process.id.toNat
  have second := length_lowerHex 16 process.sequence.toNat
  have kept : (generatedTail process).take 8 = lowerHex 8 process.id.toNat := by
    rw [generatedTail, take_append_of_le_length (by omega), take_of_length_le (by omega)]
  have rest : (generatedTail process).drop 9 = lowerHex 16 process.sequence.toNat := by
    rw [generatedTail, drop_append, first, drop_of_length_le (by omega),
      nil_append, Nat.add_sub_cancel_left 8 1, drop_one, tail_cons]
  have dash : (generatedTail process)[8]? = some 0x2d := by
    rw [generatedTail, getElem?_append_right (by omega), first, Nat.sub_self, getElem?_cons_zero]
  have digits : (lowerHex 8 process.id.toNat ++ lowerHex 16 process.sequence.toNat).all
      isLowerHex = true := by
    rw [all_append, all_lowerHex, all_lowerHex]
    rfl
  have size : (generatedTail process).length = 8 + 1 + 16 := by
    rw [generatedTail, length_append, length_cons, first, second]
  rw [validGeneratedTail, kept, rest, dash, size]
  simpa using digits

theorem validName_append (start : List UInt8) (process : Process) :
    validName start (start ++ generatedTail process) = true := by
  rw [validName, drop_left, validGeneratedTail_generatedTail, Bool.and_true, isPrefixOf_iff_prefix]
  exact prefix_append _ _

theorem validDeleteName_deleteName (process : Process) : validDeleteName (deleteName process) = true :=
  validName_append _ process

theorem starts_of_validName {name : List UInt8} (valid : validName start name = true) : start <+: name :=
  isPrefixOf_iff_prefix.mp (Bool.and_eq_true_iff.mp valid).1

theorem not_starts_of_take {other name : List UInt8} (size : Nat) (starts : start <+: name)
    (inStart : size ≤ start.length) (inOther : size ≤ other.length)
    (differ : start.take size ≠ other.take size) : ¬ other <+: name := by
  intro also
  apply differ
  rw [prefix_iff_eq_take.mp starts, prefix_iff_eq_take.mp also, take_take,
    take_take, Nat.min_eq_left inStart, Nat.min_eq_left inOther]

theorem ne_of_starts {other name : List UInt8} (size : Nat) (starts : start <+: name)
    (inStart : size ≤ start.length) (inOther : size ≤ other.length)
    (differ : start.take size ≠ other.take size) : name ≠ other := by
  intro same
  exact not_starts_of_take size starts inStart inOther differ (same ▸ prefix_refl _)

section Temporary

variable (valid : validTemporaryName name = true)
include valid

theorem temporary_ne_canonicalName : name ≠ canonicalName :=
  ne_of_starts 1 (starts_of_validName valid) (by decide) (by decide) (by decide)

theorem temporary_ne_lockName : name ≠ lockName :=
  ne_of_starts 1 (starts_of_validName valid) (by decide) (by decide) (by decide)

theorem temporary_not_delete : deletePrefix.isPrefixOf name = false := by
  rw [Bool.eq_false_iff]
  intro starts
  rw [ isPrefixOf_iff_prefix] at starts
  exact not_starts_of_take 19 (starts_of_validName valid) (by decide) (by decide) (by decide) starts

end Temporary

section Residue

variable (valid : validDeleteName name = true)
include valid

theorem residue_ne_canonicalName : name ≠ canonicalName :=
  ne_of_starts 1 (starts_of_validName valid) (by decide) (by decide) (by decide)

theorem residue_ne_lockName : name ≠ lockName :=
  ne_of_starts 1 (starts_of_validName valid) (by decide) (by decide) (by decide)

theorem residue_isPrefixOf : deletePrefix.isPrefixOf name = true :=
  isPrefixOf_iff_prefix.mpr (starts_of_validName valid)

end Residue

variable {file : Nat}

theorem requireSafeMetadata_reads {metadata : Metadata} (safe : metadata.mode = journalFileMode) :
    (requireSafeMetadata metadata).Reads directory (.ok ()) := by
  apply reads_check
  rw [modeBits, safe]
  decide

theorem requireSafeRegularFile_reads (safe : (directory.nodes file).mode = journalFileMode) :
    (requireSafeRegularFile file).Reads directory (.ok ()) :=
  (reads_request rfl rfl).bind (requireSafeMetadata_reads safe)

theorem readBounded_reads {bytes : List UInt8} (holds : directory.nodes file = ⟨journalFileMode, bytes⟩)
    (small : bytes.length ≤ maxCanonicalRecordBytes) :
    (readBounded file).Reads directory (.ok bytes) := by
  have mode : (directory.nodes file).mode = journalFileMode := by rw [holds]
  have contents : (directory.nodes file).bytes = bytes := by rw [holds]
  have whole : bytes.take (maxCanonicalRecordBytes + 1) = bytes := take_of_length_le (Nat.le_succ_of_le small)
  have read : (request (.read file (maxCanonicalRecordBytes + 1))).Reads directory (.ok bytes) :=
    reads_request rfl (by simp only [Directory.perform, contents, whole])
  refine (reads_request rfl rfl).bind ((requireSafeMetadata_reads mode).bind ?_)
  refine (reads_check (by simp only [contents]; omega)).bind (read.bind ?_)
  refine (reads_check (by omega)).bind ((reads_request rfl rfl).bind ?_)
  refine (requireSafeMetadata_reads mode).bind ((reads_check ?_).bind rfl)
  simp [contents]

section

variable (held : directory.Holds listing)
include held

theorem directoryEntries_reads (few : listing.length ≤ maxStaleTemporaries + 3) :
    directoryEntries.Reads directory (.ok directory.names.keys) := by
  have size : directory.names.keys.length = listing.length := by
    rw [held.keys_perm.length_eq, length_map]
  exact (reads_request rfl rfl).bind ((reads_check (by omega)).bind rfl)

theorem openAt_reads (member : (name, file) ∈ listing) : (request (.openAt name)).Reads directory (.ok file) :=
  reads_request rfl (by rw [held.openAt member])

theorem openNamed_reads_absent (absent : name ∉ listing.map Prod.fst) :
    (openNamed name).Reads directory (.ok none) := by
  have missing : (request (.openAt name)).Reads directory (.error .notFound) :=
    reads_request rfl (by rw [held.openAt_absent absent])
  exact missing.attempt.bind rfl

theorem revalidateExactPublicLock_reads (member : (lockName, store.lock) ∈ listing)
    (safe : (directory.nodes store.lock).mode = journalFileMode) :
    (revalidateExactPublicLock store).Reads directory (.ok ()) := by
  have checked := (requireSafeRegularFile_reads safe).mapError StorageError.revalidateJournalLock
  exact checked.bind (((openAt_reads held member).mapError _).bind (checked.bind (reads_check (by simp))))

theorem revalidateRetainedCastBinding_reads (member : (lockName, store.lock) ∈ listing)
    (safe : (directory.nodes store.lock).mode = journalFileMode) :
    (revalidateRetainedCastBinding store).Reads directory (.ok ()) :=
  (revalidateExactPublicLock_reads held member safe).bind (revalidateExactPublicLock_reads held member safe)

variable (member : (name, file) ∈ listing) (safe : (directory.nodes file).mode = journalFileMode)
include member safe

theorem openNamed_reads : (openNamed name).Reads directory (.ok (some file)) :=
  (openAt_reads held member).attempt.bind (((requireSafeRegularFile_reads safe).mapError _).bind rfl)

theorem requireNamed_reads : (requireNamed name file).Reads directory (.ok ()) :=
  (openNamed_reads held member safe).bind (Reads.bind rfl (reads_check (by simp)))

end

section Records

variable (sha256 : List UInt8 → Vector UInt8 32)
variable (fromSlice : List UInt8 → Except String TransitionRecord)

/-- One inode that holds a whole record: reading it back gives the record. -/
structure StoredRecord where
  identity : Nat
  framed : List UInt8
  record : TransitionRecord
  decodes : decode sha256 fromSlice framed = .ok record

variable {sha256 fromSlice}

namespace StoredRecord

def loaded (stored : StoredRecord sha256 fromSlice) : LoadedRecord := ⟨stored.record, stored.framed, stored.identity⟩

def entry (stored : StoredRecord sha256 fromSlice) (name : FileName) : FileName × Nat := (name, stored.identity)

def CarriedBy (stored : StoredRecord sha256 fromSlice) (directory : Directory) : Prop :=
  directory.nodes stored.identity = ⟨journalFileMode, stored.framed⟩

variable {stored : StoredRecord sha256 fromSlice}

theorem length_framed_le (stored : StoredRecord sha256 fromSlice) : stored.framed.length ≤ maxCanonicalRecordBytes := by
  obtain ⟨payload, _, small, _⟩ := decode_eq_ok.mp stored.decodes
  exact small

theorem valid (stored : StoredRecord sha256 fromSlice) : stored.record.Valid := by
  obtain ⟨payload, _, _, _, valid, _⟩ := decode_eq_ok.mp stored.decodes
  exact valid

section

variable (carried : stored.CarriedBy directory)
include carried

theorem CarriedBy.mode :
    (directory.nodes stored.identity).mode = journalFileMode := by
  rw [carried]

theorem CarriedBy.readBounded :
    (readBounded stored.identity).Reads directory (.ok stored.framed) :=
  readBounded_reads carried stored.length_framed_le

theorem CarriedBy.loadRecord :
    (loadRecord sha256 fromSlice stored.identity).Reads directory (.ok stored.loaded) := by
  refine (carried.readBounded.mapError _).bind (((requireSafeRegularFile_reads carried.mode).mapError _).bind ?_)
  rw [stored.decodes]
  rfl

end

end StoredRecord

/-- The canonical name is there exactly when a record is current. -/
def canonicalEntry (current : Option (StoredRecord sha256 fromSlice)) : List (FileName × Nat) :=
  (current.map fun stored => stored.entry canonicalName).toList

/-- The store between two operations: the lock, at most the canonical name, and
under it the current record. -/
structure Settled (directory : Directory) (lock : Nat)
    (current : Option (StoredRecord sha256 fromSlice)) : Prop where
  names : directory.Holds (canonicalEntry current ++ [(lockName, lock)])
  lockMode : (directory.nodes lock).mode = journalFileMode
  carried : ∀ stored, current = some stored → stored.CarriedBy directory

namespace Settled

variable {lock : Nat} {current : Option (StoredRecord sha256 fromSlice)}

theorem lock_mem : (lockName, lock) ∈ canonicalEntry current ++ [(lockName, lock)] := mem_append_right _ mem_cons_self

theorem canonical_mem {stored : StoredRecord sha256 fromSlice} :
    (canonicalName, stored.identity) ∈ canonicalEntry (some stored) ++ [(lockName, lock)] :=
  mem_cons_self

theorem canonical_absent : canonicalName ∉ (canonicalEntry (none : Option (StoredRecord sha256 fromSlice)) ++
      [(lockName, lock)]).map Prod.fst := by
  rw [map_append, mem_append]
  rintro (member | member)
  · cases member
  · exact lockName_ne_canonicalName (mem_singleton.mp member).symm

theorem revalidatePublicRecord {stored : StoredRecord sha256 fromSlice}
    (settled : Settled directory lock (some stored)) :
    (revalidatePublicRecord stored.loaded).Reads directory (.ok ()) := by
  have carried := settled.carried stored rfl
  refine ((openAt_reads settled.names canonical_mem).mapError _).bind
    (((requireSafeRegularFile_reads carried.mode).mapError _).bind ?_)
  refine (reads_check (by simp [StoredRecord.loaded])).bind ((carried.readBounded.mapError _).bind (reads_check ?_))
  simp [StoredRecord.loaded]

section

variable (settled : Settled directory lock current)
include settled

theorem keys_perm : directory.names.keys.Perm ((if current.isSome then [canonicalName] else []) ++ [lockName]) := by
  have perm := settled.names.keys_perm
  cases current <;> exact perm

theorem loadPinned : (loadPinned sha256 fromSlice).Reads directory (.ok (current.map StoredRecord.loaded)) := by
  cases current with
  | none => exact (openNamed_reads_absent settled.names canonical_absent).bind rfl
  | some stored =>
    have carried := settled.carried stored rfl
    exact (openNamed_reads settled.names canonical_mem carried.mode).bind (carried.loadRecord.bind rfl)

theorem load : (load sha256 fromSlice).Reads directory (.ok (current.map StoredRecord.record)) := by
  refine settled.loadPinned.bind ?_
  rw [Option.map_map]
  rfl

theorem inspectExactPublicEntrySet (expected : Option Bool) (agrees : expected.all (· == current.isSome) = true) :
    (inspectExactPublicEntrySet expected).Reads directory (.ok current.isSome) := by
  have perm := settled.keys_perm
  have few : (canonicalEntry current ++ [(lockName, lock)]).length ≤ maxStaleTemporaries + 3 := by
    cases current <;> exact Nat.le_of_ble_eq_true rfl
  refine ((directoryEntries_reads settled.names few).mapError _).bind ?_
  rw [perm.count_eq, perm.count_eq, perm.length_eq]
  generalize current.isSome = present at agrees
  cases present <;> exact (reads_check (not_not.mpr ⟨by decide, by decide, by decide, agrees⟩)).bind rfl

theorem revalidateExactPublicState :
    (revalidateExactPublicState (current.map StoredRecord.loaded)).Reads directory (.ok ()) := by
  have agrees : (some (current.map StoredRecord.loaded).isSome).all (· == current.isSome) = true := by simp
  refine (settled.inspectExactPublicEntrySet _ agrees).bind ?_
  cases current with
  | none => rfl
  | some stored => exact settled.revalidatePublicRecord

end

variable (settled : Settled directory store.lock current)
include settled

theorem revalidateRetainedCastBinding : (revalidateRetainedCastBinding store).Reads directory (.ok ()) :=
  revalidateRetainedCastBinding_reads settled.names lock_mem settled.lockMode

theorem revalidatePublic :
    (revalidatePublic (current.map StoredRecord.loaded) store).Reads directory (.ok ()) :=
  settled.revalidateRetainedCastBinding.bind settled.revalidateExactPublicState

theorem loadPinnedRevalidated :
    (loadPinnedRevalidated sha256 fromSlice store).Reads directory (.ok (current.map StoredRecord.loaded)) := by
  refine settled.revalidateRetainedCastBinding.bind
    ((settled.inspectExactPublicEntrySet none rfl).bind (settled.loadPinned.bind ?_))
  refine (reads_check (by simp)).bind (settled.revalidateExactPublicState.bind ?_)
  exact settled.revalidateRetainedCastBinding.bind (settled.revalidateExactPublicState.bind rfl)

end Settled

end Records

end Cast.TransitionJournal
