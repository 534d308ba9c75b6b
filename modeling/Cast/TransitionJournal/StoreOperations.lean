import Cast.TransitionJournal.BoundDeleteProperties

/-! The operations of an open store on a device that does not fail. From a settled
directory each operation ends settled, on the old record or on the one it was to
publish; stopped anywhere, it leaves a directory the next open settles on one of
the two. -/

namespace Cast.TransitionJournal

open Foundation Foundation.Program
open List hiding Vector

variable {sha256 : List UInt8 → Vector UInt8 32}
  {fromSlice : List UInt8 → Except String TransitionRecord} {directory : Directory} {lock : Nat}
  {framed : List UInt8} {process : Process} {temporary : TemporaryRecord} {node : Node}
  {record expected next : TransitionRecord} {current : Option (StoredRecord sha256 fromSlice)}
  {stored : StoredRecord sha256 fromSlice}

variable {name : FileName}

/-- A temporary that is not yet published, with what has been written to it. -/
structure Prepared (directory : Directory) (lock : Nat) (temporary : TemporaryRecord)
    (node : Node) (current : Option (StoredRecord sha256 fromSlice)) : Prop where
  stale : Stale directory lock [(temporary.name, temporary.identity)] current
  node : directory.nodes temporary.identity = node
  notLock : lock ≠ temporary.identity
  notCurrent : ∀ stored, current = some stored → stored.identity ≠ temporary.identity

theorem Prepared.setNode (prepared : Prepared directory lock temporary node current)
    (changed : Node) (restricted : Restricted changed.mode) :
    Prepared (directory.setNode temporary.identity changed) lock temporary changed current := by
  have stale := prepared.stale
  have self := directory.setNode_nodes_self temporary.identity changed
  refine ⟨⟨stale.names.setNode _, stale.few, stale.valid, ?_, ?_, ?_⟩, self, prepared.notLock, prepared.notCurrent⟩
  · rw [forall_mem_singleton, self]
    exact restricted
  · rw [directory.setNode_nodes_ne changed prepared.notLock]
    exact stale.lockMode
  · intro stored isCurrent
    rw [StoredRecord.CarriedBy, directory.setNode_nodes_ne changed (prepared.notCurrent stored isCurrent)]
    exact stale.carried stored isCurrent

/-- Whatever the process, its temporary name is free in a settled directory. -/
theorem Settled.temporary_fresh (settled : Settled directory lock current) (valid : validTemporaryName name = true) :
    name ∉ (canonicalEntry current ++ [(lockName, lock)]).map Prod.fst := by
  intro member
  have listed := settled.keys_perm.mem_iff.mp (settled.names.keys_perm.mem_iff.mpr member)
  rcases mem_append.mp listed with canonical | isLock
  · split at canonical
    · exact temporary_ne_canonicalName valid (mem_singleton.mp canonical)
    · cases canonical
  · exact temporary_ne_lockName valid (mem_singleton.mp isLock)

theorem Settled.prepared (settled : Settled directory lock current) {mode : UInt32}
    (valid : validTemporaryName name = true) (restricted : Restricted mode) :
    Prepared (directory.addFile name mode) lock ⟨name, directory.next⟩ ⟨mode, []⟩ current := by
  have names := settled.names
  have fresh := settled.temporary_fresh valid
  have lockOld : lock < directory.next := names.inode_lt Settled.lock_mem
  have currentOld : ∀ stored, current = some stored → stored.identity < directory.next := by
    intro stored isCurrent
    subst isCurrent
    exact names.inode_lt Settled.canonical_mem
  have self := directory.addFile_nodes_self name mode
  refine ⟨⟨names.addFile fresh mode, Nat.le_of_ble_eq_true rfl, ?_, ?_, ?_, ?_⟩, self,
    Nat.ne_of_lt lockOld, fun stored isCurrent => Nat.ne_of_lt (currentOld stored isCurrent)⟩
  · exact forall_mem_singleton.mpr valid
  · rw [forall_mem_singleton, self]
    exact restricted
  · rw [directory.addFile_nodes name mode lockOld]
    exact settled.lockMode
  · intro stored isCurrent
    rw [StoredRecord.CarriedBy, directory.addFile_nodes name mode (currentOld stored isCurrent)]
    exact settled.carried stored isCurrent

section Publication

/-- On the way of a publication: the next open finds the old record, or already
the one that is being published. -/
def Publishing (current : Option (StoredRecord sha256 fromSlice)) (record : TransitionRecord)
    (directory : Directory) : Prop :=
  Recoverable directory current ∨
    ∃ target : StoredRecord sha256 fromSlice, target.record = record ∧ Recoverable directory (some target)

theorem Prepared.publishing (prepared : Prepared directory lock temporary node current) :
    Publishing current record directory :=
  .inl prepared.stale.recoverable

theorem createTemporary_ensures (settled : Settled directory lock current) :
    (createTemporary process).Succeeds (Publishing current record)
      (fun temporary after => Prepared after lock temporary ⟨journalFileMode, []⟩ current) directory := by
  have valid : validTemporaryName (temporaryName process) = true := validName_append _ process
  have created := settled.prepared valid (restricted_umask process.umask)
  have normalized := created.setNode ⟨journalFileMode, []⟩ restricted_journalFileMode
  have safe := requireSafeRegularFile_reads (congrArg Node.mode normalized.node)
  refine ensures_step_attempt (settled.names.create (settled.temporary_fresh valid) _) (.inl settled.recoverable) ?_
  refine ensures_bind.mpr (ensures_step_attempt chmod_perform created.publishing ?_)
  rw [TransitionJournal.normalized, created.node]
  refine ⟨normalized.publishing, ensures_bind.mpr (safe.attempt.ensures_bind ?_)⟩
  exact ⟨normalized.publishing, normalized.publishing, normalized⟩

/-- The record once it stands in the file of the temporary. -/
def published (temporary : TemporaryRecord) (framed : List UInt8) (record : TransitionRecord)
    (decodes : decode sha256 fromSlice framed = .ok record) : StoredRecord sha256 fromSlice :=
  ⟨temporary.identity, framed, record, decodes⟩

theorem publishing_settled {decodes : decode sha256 fromSlice framed = .ok record}
    (settled : Settled directory lock (some (published temporary framed record decodes))) :
    Publishing current record directory :=
  .inr ⟨_, rfl, settled.recoverable⟩

variable (decodes : decode sha256 fromSlice framed = .ok record)
include decodes

theorem Prepared.publishInitial (prepared : Prepared directory lock temporary ⟨journalFileMode, framed⟩ current)
    (isNew : current = none) :
    (publishInitial temporary).Succeeds (Publishing current record)
      (fun _ after => Settled after lock (some (published temporary framed record decodes))) directory := by
  subst isNew
  have valid : validTemporaryName temporary.name = true := prepared.stale.valid _ mem_cons_self
  have names : directory.Holds [(temporary.name, temporary.identity), (lockName, lock)] := prepared.stale.names
  have fresh : canonicalName ∉ [(temporary.name, temporary.identity), (lockName, lock)].map Prod.fst := by
    simp [(temporary_ne_canonicalName valid).symm, lockName_ne_canonicalName.symm]
  obtain ⟨renamed, performed, renamedNames, nodes⟩ := names.rename fresh
  have settled : Settled renamed lock (some (published temporary framed record decodes)) := by
    refine ⟨renamedNames, nodes ▸ prepared.stale.lockMode, fun stored same => ?_⟩
    cases same
    rw [StoredRecord.CarriedBy, nodes]
    exact prepared.node
  have named := requireNamed_reads settled.names Settled.canonical_mem (settled.carried _ rfl).mode
  refine ensures_bind.mpr (ensures_step_attempt performed prepared.publishing ?_)
  refine ⟨publishing_settled settled, named.ensures_bind ?_⟩
  refine ensures_last .syncDirectory rfl (publishing_settled settled) (publishing_settled settled) ?_
  exact settled

section

variable (prepared : Prepared directory lock temporary ⟨journalFileMode, framed⟩ (some stored))
include prepared

theorem Prepared.exchange :
    ∃ exchanged : Directory, directory.perform (.exchange temporary.name canonicalName) = (.ok (), exchanged) ∧
      Stale exchanged lock [stored.entry temporary.name] (some (published temporary framed record decodes)) ∧
      stored.CarriedBy exchanged := by
  have stale := prepared.stale
  have names : directory.Holds ((temporary.name, temporary.identity) ::
      (canonicalName, stored.identity) :: [(lockName, lock)]) := stale.names
  obtain ⟨exchanged, performed, exchangedNames, nodes⟩ := names.exchange
  have kept : stored.CarriedBy exchanged := by
    rw [StoredRecord.CarriedBy, nodes]
    exact stale.carried stored rfl
  refine ⟨exchanged, performed, ⟨exchangedNames, stale.few, ?_, ?_, ?_, ?_⟩, kept⟩
  · exact forall_mem_singleton.mpr (stale.valid (temporary.name, temporary.identity) mem_cons_self)
  · exact forall_mem_singleton.mpr (kept.mode ▸ restricted_journalFileMode)
  · rw [nodes]
    exact stale.lockMode
  · intro other same
    cases same
    rw [StoredRecord.CarriedBy, nodes]
    exact prepared.node

theorem Prepared.publishUpdate :
    (publishUpdate temporary stored.loaded).Succeeds (Publishing (some stored) record)
      (fun _ after => Settled after lock (some (published temporary framed record decodes))) directory := by
  obtain ⟨exchanged, performed, stale, kept⟩ := prepared.exchange decodes
  have old := requireNamed_reads prepared.stale.names
    (mem_cons_of_mem _ mem_cons_self) (prepared.stale.carried stored rfl).mode
  have canonical := requireNamed_reads stale.names (mem_cons_of_mem _ mem_cons_self) (stale.carried _ rfl).mode
  have displaced := requireNamed_reads stale.names mem_cons_self kept.mode
  have after : Publishing (some stored) record exchanged := .inr ⟨_, rfl, stale.recoverable⟩
  have settled := stale.forget.settled
  refine old.ensures_bind (ensures_bind.mpr (ensures_step_attempt performed prepared.publishing ?_))
  refine ⟨after, canonical.ensures_bind (displaced.ensures_bind ?_)⟩
  refine ensures_step rfl after (ensures_step stale.names.unlink after ?_)
  refine ensures_last .syncDirectory rfl (publishing_settled settled) (publishing_settled settled) ?_
  exact settled

end

theorem Prepared.publishTemporary (prepared : Prepared directory lock temporary ⟨journalFileMode, framed⟩ current) :
    (publishTemporary temporary (current.map StoredRecord.loaded)).Succeeds (Publishing current record)
      (fun _ after => Settled after lock (some (published temporary framed record decodes))) directory := by
  cases current with
  | none => exact prepared.publishInitial decodes rfl
  | some stored => exact prepared.publishUpdate decodes

theorem publishRecordInode_ensures (settled : Settled directory lock current) :
    (publishRecordInode process framed (current.map StoredRecord.loaded)).Succeeds (Publishing current record)
      (fun temporary after => Settled after lock (some (published temporary framed record decodes))) directory := by
  refine (createTemporary_ensures settled).bind fun temporary created prepared => ?_
  have written := prepared.setNode ⟨journalFileMode, framed⟩ restricted_journalFileMode
  have performed : created.perform (.write temporary.identity framed) =
      (.ok (), created.setNode temporary.identity ⟨journalFileMode, framed⟩) := by
    simp only [Directory.perform, prepared.node, nil_append]
  have safe := requireSafeRegularFile_reads (congrArg Node.mode written.node)
  refine ensures_bind.mpr (ensures_step_attempt performed prepared.publishing ?_)
  refine ⟨written.publishing, ensures_bind.mpr (ensures_step_attempt rfl written.publishing ?_)⟩
  refine ⟨written.publishing, ensures_bind.mpr (safe.attempt.ensures_bind ?_)⟩
  refine ⟨written.publishing, (written.publishTemporary decodes).bind fun _ after settled => ?_⟩
  exact ⟨publishing_settled settled, settled⟩

end Publication

variable {store : TransitionJournalStore} {operation : StoreOperation}

/-- The record before the operation, or the one it was to publish. -/
def Reaches (current : Option (StoredRecord sha256 fromSlice)) (operation : StoreOperation)
    (target : Option (StoredRecord sha256 fromSlice)) : Prop :=
  target = current ∨ (target.map StoredRecord.record = operation.publishes ∧
    Moves (current.map StoredRecord.record) operation.publishes)

def Under (current : Option (StoredRecord sha256 fromSlice)) (operation : StoreOperation)
    (directory : Directory) : Prop :=
  ∃ target, Reaches current operation target ∧ Recoverable directory target

/-- An operation is over, whether it was carried out or refused. -/
def Over (lock : Nat) (current : Option (StoredRecord sha256 fromSlice))
    (operation : StoreOperation) (directory : Directory) : Prop :=
  ∃ target, Reaches current operation target ∧ Settled directory lock target

theorem Over.under (ended : Over lock current operation directory) :
    Under current operation directory := by
  obtain ⟨target, reached, settled⟩ := ended
  exact ⟨target, reached, settled.recoverable⟩

theorem Settled.ended (settled : Settled directory lock current) : Over lock current operation directory :=
  ⟨current, .inl rfl, settled⟩

theorem phase_of_deletable {phase : Phase} (deletable : phase.deletable = true) :
    phase = .complete ∨ phase = .rollbackComplete := by
  cases phase <;> simp [Phase.deletable] at deletable ⊢

theorem Publishing.under (publishing : Publishing current record directory)
    (publishes : operation.publishes = some record)
    (moves : Moves (current.map StoredRecord.record) (some record)) :
    Under current operation directory := by
  rcases publishing with kept | ⟨target, isRecord, recoverable⟩
  · exact ⟨current, .inl rfl, kept⟩
  · refine ⟨some target, .inr ⟨?_, publishes ▸ moves⟩, recoverable⟩
    rw [publishes, Option.map_some, isRecord]

theorem publish_ensures (settled : Settled directory lock current)
    (decodes : decode sha256 fromSlice framed = .ok record)
    (publishes : operation.publishes = some record)
    (moves : Moves (current.map StoredRecord.record) (some record))
    {bad : StorageError → Directory → Prop} :
    (publishRecordInode process framed (current.map StoredRecord.loaded)).Ensures .reliable (Under current operation)
      (fun temporary after => Over lock current operation after ∧
        Settled after lock (some (published temporary framed record decodes)))
      bad directory := by
  refine (publishRecordInode_ensures decodes settled).mono
    (fun _ publishing => publishing.under publishes moves) ?_ (fun _ _ _ failed => failed.elim)
  intro temporary after _ done
  refine ⟨⟨_, .inr ⟨?_, publishes ▸ moves⟩, done⟩, done⟩
  rw [publishes]
  rfl

/-- From a settled directory the program ends settled, on the record from before
or on the one the operation publishes, and is recoverable everywhere between. -/
def Completes {ε α : Type} (lock : Nat) (current : Option (StoredRecord sha256 fromSlice))
    (operation : StoreOperation) (program : Program ε α) (directory : Directory) : Prop :=
  program.Ensures .reliable (Under current operation) (fun _ => Over lock current operation)
    (fun _ => Over lock current operation) directory

variable {revalidating : Option TransitionJournalStore}

/-- The store whose public names are revalidated is the open one. -/
def Revalidates (store : TransitionJournalStore) (revalidating : Option TransitionJournalStore) : Prop :=
  ∀ given, revalidating = some given → given = store

theorem revalidates_none : Revalidates store none := fun _ same => nomatch same

theorem whenRevalidating_reads (own : Revalidates store revalidating)
    {checks : TransitionJournalStore → Program StorageError Unit}
    (passes : (checks store).Reads directory (.ok ())) :
    (whenRevalidating revalidating checks).Reads directory (.ok ()) := by
  cases revalidating with
  | none => rfl
  | some given => exact own given rfl ▸ passes

theorem Settled.unlink (settled : Settled directory lock (some stored)) :
    directory.perform (.unlink canonicalName) = (.ok (), directory.forget canonicalName) ∧
      Settled (directory.forget canonicalName) lock (none : Option (StoredRecord sha256 fromSlice)) := by
  have names : directory.Holds ((canonicalName, stored.identity) :: [(lockName, lock)]) := settled.names
  exact ⟨names.unlink, names.forget, settled.lockMode, fun _ isCurrent => nomatch isCurrent⟩

theorem Completes.ignoring {ε α : Type} {program : Program ε α}
    (completes : Completes lock current operation program directory) :
    (ignoring program).Succeeds (Under current operation) (fun _ => Over lock current operation) directory := by
  refine Ensures.bind (ensures_attempt.mpr ?_) fun _ after ended => ⟨Over.under ended, ended⟩
  exact completes

section

variable (settled : Settled directory store.lock current)
include settled

theorem Settled.completes_done {ε α β : Type} {outcome : Except ε β} {next : β → Program ε α}
    (passes : ∀ value, outcome = .ok value → Completes store.lock current operation (next value) directory) :
    Completes store.lock current operation (Program.done outcome >>= next) directory :=
  ensures_done settled.ended.under (fun _ _ => settled.ended) passes

theorem Settled.completes_check {ε α : Type} {refused : Prop} [Decidable refused] {error : ε}
    {next : Unit → Program ε α}
    (passes : ¬ refused → Completes store.lock current operation (next ()) directory) :
    Completes store.lock current operation (check refused error >>= next) directory :=
  ensures_check settled.ended.under (fun _ => settled.ended) passes

theorem create_completes (readsBack : fromSlice record.toVec = .ok record) :
    Completes store.lock current (.create record) (create sha256 fromSlice process record) directory := by
  refine settled.completes_done fun framed encoded => ?_
  rw [mapError_eq_ok] at encoded
  refine settled.completes_check fun initial => ?_
  simp only [not_or, not_not, Option.isSome_eq_false_iff, Bool.not_eq_true, Option.isNone_iff_eq_none] at initial
  obtain ⟨generation, phase, rollback⟩ := initial
  refine settled.loadPinned.ensures_bind (settled.completes_check fun absent => ?_)
  cases current with
  | some stored => exact absurd rfl absent
  | none =>
    have valid := TransitionRecord.validate_eq_ok.mpr (encode_eq_ok.mp encoded).1
    exact (publish_ensures settled (decode_of_encode encoded readsBack) rfl
      (.created valid generation phase rollback)).bind fun _ _ ended => ⟨ended.1.under, ended.1⟩

theorem advance_completes (readsBack : fromSlice next.toVec = .ok next) :
    Completes store.lock current (.advance expected next)
      (advance sha256 fromSlice process expected next) directory := by
  refine settled.completes_done fun _ accepted => ?_
  refine settled.completes_done fun framed encoded => ?_
  rw [mapError_eq_ok] at accepted encoded
  refine settled.loadPinned.ensures_bind (settled.completes_done ?_)
  intro existing found
  cases current with
  | none => cases found
  | some stored =>
    cases found
    refine settled.completes_check fun same => ?_
    have isExpected : stored.record = expected := not_not.mp same
    have moves : Moves (some stored.record) (some next) := .advanced (isExpected.symm ▸ accepted)
    exact (publish_ensures settled (decode_of_encode encoded readsBack) rfl moves).bind
      fun _ _ ended => ⟨ended.1.under, ended.1⟩

theorem advanceRecordBinding_completes {expected : TransitionJournalRecordBinding}
    (readsBack : fromSlice next.toVec = .ok next) :
    Completes store.lock current (.advanceRecordBinding expected next)
      (advanceRecordBinding sha256 fromSlice store process expected next) directory := by
  refine settled.completes_check fun _ => ?_
  refine settled.completes_done fun _ accepted => ?_
  refine settled.completes_done fun framed encoded => ?_
  rw [mapError_eq_ok] at accepted encoded
  refine settled.loadPinnedRevalidated.ensures_bind (settled.completes_done ?_)
  intro loaded found
  cases current with
  | none => cases found
  | some stored =>
    cases found
    refine settled.completes_check fun same => ?_
    have isExpected : stored.record = expected.record := not_not.mp (not_or.mp same).1
    have moves : Moves (some stored.record) (some next) := .advanced (isExpected.symm ▸ accepted)
    refine settled.revalidatePublic.ensures_bind (ensures_bind.mpr ?_)
    refine (publish_ensures settled (decode_of_encode encoded readsBack) rfl moves).bind ?_
    intro temporary after ended
    exact ⟨ended.1.under, ended.2.revalidatePublic.ensures_bind ⟨ended.1.under, ended.1⟩⟩

theorem inspectBeforeDelete_reads (own : Revalidates store revalidating) :
    (inspectBeforeDelete revalidating).Reads directory (.ok (revalidating.map fun _ => current.isSome)) := by
  cases revalidating with
  | none => rfl
  | some given =>
    cases own given rfl
    exact settled.revalidateRetainedCastBinding.bind ((settled.inspectExactPublicEntrySet none rfl).bind rfl)

theorem revalidateInitialPublic_reads :
    (revalidateInitialPublic (revalidating.map fun _ => current.isSome)
      (current.map StoredRecord.loaded)).Reads directory (.ok ()) := by
  cases revalidating with
  | none => rfl
  | some given => exact (reads_check (by simp)).bind settled.revalidateExactPublicState

theorem deleteLocked_completes (own : Revalidates store revalidating) (removes : operation.publishes = none) :
    Completes store.lock current operation (deleteLocked sha256 fromSlice revalidating expected) directory := by
  have stays : Over store.lock current operation directory := settled.ended
  refine (inspectBeforeDelete_reads settled own).ensures_bind ?_
  refine settled.completes_done fun _ _ => ?_
  refine settled.completes_check fun deletable => ?_
  refine settled.loadPinned.ensures_bind ((revalidateInitialPublic_reads settled).ensures_bind ?_)
  cases current with
  | none => exact (whenRevalidating_reads own settled.revalidatePublic).ensures_bind ⟨stays.under, stays⟩
  | some stored =>
    refine settled.completes_check fun same => ?_
    have isExpected : stored.record = expected := not_not.mp same
    have terminal : stored.record.phase.deletable = true := by
      rw [isExpected]
      simpa using deletable
    obtain ⟨performed, removed⟩ := settled.unlink
    have ended : Over store.lock (some stored) operation (directory.forget canonicalName) := by
      refine ⟨none, .inr ⟨removes.symm, ?_⟩, removed⟩
      rw [removes]
      exact .deleted (phase_of_deletable terminal)
    refine (whenRevalidating_reads own settled.revalidatePublic).ensures_bind ?_
    refine (requireNamed_reads settled.names Settled.canonical_mem (settled.carried stored rfl).mode).ensures_bind ?_
    refine ensures_step performed stays.under (ensures_step rfl ended.under ?_)
    exact (whenRevalidating_reads own removed.revalidatePublic).ensures_bind ⟨ended.under, ended⟩

theorem deleteRecordBinding_completes {expected : TransitionJournalRecordBinding} :
    Completes store.lock current (.deleteRecordBinding expected record)
      (deleteRecordBinding sha256 fromSlice store process expected record) directory := by
  have stays : Over store.lock current (.deleteRecordBinding expected record) directory := settled.ended
  refine settled.deleteRecordBinding stays.under (fun _ => stays) ?_
  rintro bound stored rfl rfl deleting
  have removes : Reaches (some stored) (.deleteRecordBinding expected record) none :=
    .inr ⟨rfl, .deleted (phase_of_deletable deleting.boundTo.terminal)⟩
  refine (deleting.deletion .reliable).mono ?_ ?_ ?_
  · intro after anywhere
    rcases anywhere.placed with absent | source | ⟨_, residual⟩
    · exact ⟨none, removes, absent.recoverable⟩
    · exact ⟨some stored, .inl rfl, source.recoverable⟩
    · exact ⟨some stored, .inl rfl, residual.recoverable⟩
  · intro _ after _ deleted
    exact ⟨none, removes, deleted.settled_absent⟩
  · intro _ _ _ reported
    cases reported.1

theorem StoreCall.program_ensures (first : StoreCall)
    (readsBack : ∀ record, first.operation.publishes = some record → fromSlice record.toVec = .ok record) :
    (first.program sha256 fromSlice store process).Succeeds
      (Under current first.operation) (fun _ => Over store.lock current first.operation) directory := by
  obtain ⟨operation, sequence⟩ := first
  cases operation with
  | create record => exact (create_completes settled (readsBack _ rfl)).ignoring
  | advance expected next => exact (advance_completes settled (readsBack _ rfl)).ignoring
  | delete expected => exact (deleteLocked_completes settled revalidates_none rfl).ignoring
  | deleteRevalidated expected =>
    exact (deleteLocked_completes settled (fun _ same => (Option.some.inj same).symm) rfl).ignoring
  | advanceRecordBinding expected next =>
    exact (advanceRecordBinding_completes settled (readsBack _ rfl)).ignoring
  | deleteRecordBinding expected record => exact (deleteRecordBinding_completes settled).ignoring

end

end Cast.TransitionJournal
