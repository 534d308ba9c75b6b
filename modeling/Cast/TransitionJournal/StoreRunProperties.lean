import Mathlib.Data.List.Chain
import Cast.TransitionJournal.StoreOperations

/-! Runs of the store over any number of processes, each stopped anywhere. The
step facts of the operations and of opening are carried along whole sessions and
then along the list of sessions. -/

namespace Cast.TransitionJournal

open Foundation Relation
open List hiding Vector

variable {sha256 : List UInt8 → Vector UInt8 32} {fromSlice : List UInt8 → Except String TransitionRecord}

/-- Only the lock, and at most the canonical name. -/
def OnlyLockAndCanonical (directory : Directory) : Prop :=
  lockName ∈ directory.names ∧ ∀ name ∈ directory.names, name = lockName ∨ name = canonicalName

variable {directory : Directory} {lock : Nat} {store : TransitionJournalStore} {process : Process}
  {current target : Option (StoredRecord sha256 fromSlice)} {operation : StoreOperation}

theorem Settled.onlyLockAndCanonical (settled : Settled directory lock current) :
    OnlyLockAndCanonical directory := by
  refine ⟨settled.names.mem_names.mpr (mem_map.mpr ⟨_, Settled.lock_mem, rfl⟩), ?_⟩
  intro name member
  have listed := settled.keys_perm.mem_iff.mp (AList.mem_keys.mp member)
  rcases mem_append.mp listed with canonical | isLock
  · split at canonical
    · exact .inr (mem_singleton.mp canonical)
    · cases canonical
  · exact .inl (mem_singleton.mp isLock)

theorem Settled.observe (settled : Settled directory lock current) :
    observe sha256 fromSlice directory = .ok (current.map StoredRecord.record) :=
  settled.load.run

theorem Reaches.moves (reached : Reaches current operation target) :
    ReflTransGen Moves (current.map StoredRecord.record) (target.map StoredRecord.record) := by
  rcases reached with rfl | ⟨published, moves⟩
  · exact .refl
  · rw [published]
    exact .single moves

/-- The directory can be put in order, and the record was reached lawfully. -/
def Within (current : Option (StoredRecord sha256 fromSlice)) (directory : Directory) : Prop :=
  ∃ target : Option (StoredRecord sha256 fromSlice),
    ReflTransGen Moves (current.map StoredRecord.record) (target.map StoredRecord.record) ∧ Recoverable directory target

theorem Within.trans (reached : ReflTransGen Moves (current.map StoredRecord.record)
      (target.map StoredRecord.record)) (within : Within target directory) :
    Within current directory := by
  obtain ⟨last, moves, recoverable⟩ := within
  exact ⟨last, reached.trans moves, recoverable⟩

theorem callAll_ensures (process : Process) (calls : List StoreCall) (settled : Settled directory store.lock current)
    (readsBack : ∀ record ∈ calls.filterMap (·.operation.publishes), fromSlice record.toVec = .ok record) :
    (callAll sha256 fromSlice store process calls).Succeeds (Within current)
      (fun _ after => ∃ target : Option (StoredRecord sha256 fromSlice),
        ReflTransGen Moves (current.map StoredRecord.record) (target.map StoredRecord.record) ∧
          Settled after store.lock target) directory := by
  induction calls generalizing directory current with
  | nil => exact ⟨⟨current, .refl, settled.recoverable⟩, current, .refl, settled⟩
  | cons first rest ih =>
    have firstBack : ∀ record, first.operation.publishes = some record →
        fromSlice record.toVec = .ok record := fun record published =>
      readsBack record (mem_filterMap.mpr ⟨first, mem_cons_self, published⟩)
    have restBack : ∀ record ∈ rest.filterMap (·.operation.publishes), fromSlice record.toVec = .ok record := by
      intro record member
      obtain ⟨other, found, published⟩ := mem_filterMap.mp member
      exact readsBack record (mem_filterMap.mpr ⟨other, mem_cons_of_mem first found, published⟩)
    have performed : (first.program sha256 fromSlice store process).Succeeds
        (Within current) (fun _ => Over store.lock current first.operation) directory :=
      (first.program_ensures settled firstBack).mono
        (fun _ under => under.imp fun _ reached => ⟨reached.1.moves, reached.2⟩)
        (fun _ _ _ ended => ended) (fun _ _ _ impossible => impossible)
    refine performed.bind fun _ after ended => ?_
    obtain ⟨target, reached, settledAfter⟩ := ended
    refine (ih settledAfter restBack).mono (fun _ => Within.trans reached.moves) ?_ (fun _ _ _ impossible => impossible)
    rintro _ last _ ⟨final, moves, settledLast⟩
    exact ⟨final, reached.moves.trans moves, settledLast⟩

theorem Session.program_ensures (session : Session) (recoverable : Recoverable directory current)
    (readsBack : ∀ record ∈ session.writes, fromSlice record.toVec = .ok record) :
    (session.program sha256 fromSlice).Succeeds (Within current) (fun _ _ => True) directory := by
  have opened : (openFromCast sha256 fromSlice session.process session.token).Succeeds
      (Within current) (fun store after => Settled after store.lock current) directory :=
    (openFromCast_ensures recoverable _ _).mono (fun _ kept => ⟨current, .refl, kept⟩)
      (fun _ _ _ settled => settled.2) (fun _ _ _ impossible => impossible)
  refine opened.bind fun store after settled => ?_
  exact (callAll_ensures _ session.calls settled readsBack).mono (fun _ within => within)
    (fun _ _ _ _ => trivial) (fun _ _ _ impossible => impossible)

/-- One process, stopped anywhere, hands on a directory the next one can open. -/
theorem Session.run_within (session : Session) (recoverable : Recoverable directory current)
    (readsBack : ∀ record ∈ session.writes, fromSlice record.toVec = .ok record) :
    Within current (session.run sha256 fromSlice directory) :=
  (session.program_ensures recoverable readsBack).stopAfter session.steps

section

variable (sessions : List Session) (recoverable : Recoverable directory current)
  (readsBack : ∀ record ∈ sessions.flatMap Session.writes, fromSlice record.toVec = .ok record)
include recoverable readsBack

theorem run_within : Within current (sessions.foldl (Session.run sha256 fromSlice) directory) := by
  induction sessions generalizing directory current with
  | nil => exact ⟨current, .refl, recoverable⟩
  | cons session rest ih =>
    rw [flatMap_cons, forall_mem_append] at readsBack
    obtain ⟨own, others⟩ := readsBack
    obtain ⟨target, moves, reached⟩ := session.run_within recoverable own
    exact Within.trans moves (ih reached others)

/-- The records found at the opens, each reached lawfully from the one before. -/
theorem openings_chain : ∃ records : List (Option TransitionRecord),
      openings sha256 fromSlice directory sessions = records.map .ok ∧
        (records.IsChain (ReflTransGen Moves) ∧ ∀ first ∈ records.head?, first = current.map StoredRecord.record) := by
  induction sessions generalizing directory current with
  | nil => exact ⟨[], rfl, .nil, by simp⟩
  | cons session rest ih =>
    rw [flatMap_cons, forall_mem_append] at readsBack
    obtain ⟨own, others⟩ := readsBack
    obtain ⟨target, moves, reached⟩ := session.run_within recoverable own
    obtain ⟨records, observed, chain, head⟩ := ih reached others
    obtain ⟨_, _, settled⟩ := openFromCast_run recoverable session.process session.token
    refine ⟨current.map StoredRecord.record :: records, ?_, ?_, by simp⟩
    · rw [openings, settled.observe, observed]
      rfl
    · refine isChain_cons.mpr ⟨fun next member => ?_, chain⟩
      rw [head next member]
      exact moves

end

/-- An operation stopped anywhere: the next open finds the record from before, or
the one the operation was to publish. -/
theorem StoreCall.stopped (last : StoreCall) (settled : Settled directory store.lock current)
    (readsBack : ∀ record, last.operation.publishes = some record → fromSlice record.toVec = .ok record) (steps : Nat) :
    Under current last.operation ((last.program sha256 fromSlice store process).stopAfter steps directory) :=
  (last.program_ensures settled readsBack).stopAfter steps

/-- Processes hold the store one after another, each stopped after any of its
system calls. The next open always succeeds and leaves the lock and at most the
canonical name; what the opens find is a chain of legal advances, interrupted
only by removals of finished records and by first records. An operation that is
stopped leaves the record from before it, or the one it was to publish, also
when any number of opens after it are cut short. -/
theorem store_survives_interruption (sha256 : List UInt8 → Vector UInt8 32)
    (fromSlice : List UInt8 → Except String TransitionRecord) (sessions : List Session)
    (process : Process) (token : Nat) (calls : List StoreCall) (last : StoreCall) (steps : Nat)
    (cutShort : List (Process × Nat × Nat)) (successor : Process) (successorToken : Nat)
    (readsBack : ∀ record ∈ sessions.flatMap Session.writes ++
      (calls ++ [last]).filterMap (·.operation.publishes), fromSlice record.toVec = .ok record) :
    let left := sessions.foldl (Session.run sha256 fromSlice) Directory.empty
    let opened := (openFromCast sha256 fromSlice process token).run [] left
    (∃ records : List (Option TransitionRecord),
      openings sha256 fromSlice Directory.empty sessions = records.map .ok ∧ records.IsChain (ReflTransGen Moves)) ∧
    ∃ store, opened.outcome = .ok store ∧ OnlyLockAndCanonical opened.directory ∧
      let before := ((callAll sha256 fromSlice store process calls).run [] opened.directory).directory
      let stopped := (last.program sha256 fromSlice store process).stopAfter steps before
      let recovering := cutShort.foldl (fun directory attempt =>
        (openFromCast sha256 fromSlice attempt.1 attempt.2.1).stopAfter attempt.2.2 directory) stopped
      let reopened := (openFromCast sha256 fromSlice successor successorToken).run [] recovering
      ∃ was found, observe sha256 fromSlice before = .ok was ∧
        reopened.outcome.isOk = true ∧ OnlyLockAndCanonical reopened.directory ∧
        observe sha256 fromSlice reopened.directory = .ok found ∧
        (found = was ∨ (found = last.operation.publishes ∧ Moves was found)) := by
  intro left opened
  have initial : Recoverable Directory.empty
      (none : Option (StoredRecord sha256 fromSlice)) := .unlocked Directory.Holds.empty
  have sessionsBack := fun record member => readsBack record (mem_append_left _ member)
  have callsBack : ∀ record ∈ calls.filterMap (·.operation.publishes),
      fromSlice record.toVec = .ok record := fun record member =>
    readsBack record (mem_append_right _ (filterMap_append .. ▸ mem_append_left _ member))
  have lastBack : ∀ record, last.operation.publishes = some record →
      fromSlice record.toVec = .ok record := fun record published =>
    readsBack record (mem_append_right _ (mem_filterMap.mpr ⟨last, mem_append_right _ mem_cons_self, published⟩))
  obtain ⟨records, observed, chain, _⟩ := openings_chain sessions initial sessionsBack
  refine ⟨⟨records, observed, chain⟩, ?_⟩
  obtain ⟨current, _, recoverable⟩ := run_within sessions initial sessionsBack
  obtain ⟨store, succeeded, settled⟩ := openFromCast_run recoverable process token
  refine ⟨store, succeeded, settled.onlyLockAndCanonical, ?_⟩
  intro before stopped recovering reopened
  obtain ⟨_, _, held, _, settledBefore⟩ := (callAll_ensures process calls settled callsBack).run_ok
  have under : Under held last.operation stopped := last.stopped settledBefore lastBack steps
  obtain ⟨target, reached, recoverableAfter⟩ := under
  have kept : Recoverable recovering target :=
    foldlRecOn (motive := (Recoverable · target)) cutShort _ recoverableAfter
      fun _ kept attempt _ => (openFromCast_ensures kept attempt.1 attempt.2.1).stopAfter attempt.2.2
  obtain ⟨next, reopens, settledAfter⟩ := openFromCast_run kept successor successorToken
  refine ⟨_, _, settledBefore.observe, ?_, settledAfter.onlyLockAndCanonical, settledAfter.observe, ?_⟩
  · exact reopens ▸ rfl
  · rcases reached with rfl | ⟨published, moves⟩
    · exact .inl rfl
    · exact .inr ⟨published, published ▸ moves⟩

/-- A first record whose publication is cut short after the rename, and a second
process that only looks. -/
def sampleSessions : List Session :=
  [⟨⟨1, 0, 0⟩, 0, [⟨.create (sampleRecord 1 .preparing none), 0⟩], 24⟩, ⟨⟨2, 0, 0⟩, 1, [], 40⟩]

theorem sampleSessions_survive :
    (∀ record ∈ sampleSessions.flatMap Session.writes, record = sampleRecord 1 .preparing none) ∧
    ∃ records : List (Option TransitionRecord),
      openings (fun _ => Vector.replicate 32 0) (fun _ => .ok (sampleRecord 1 .preparing none))
        Directory.empty sampleSessions = records.map .ok ∧
      records.IsChain (ReflTransGen Moves) := by
  have written : ∀ record ∈ sampleSessions.flatMap Session.writes,
      record = sampleRecord 1 .preparing none := by
    simp [sampleSessions, Session.writes, StoreOperation.publishes]
  refine ⟨written, (store_survives_interruption _ _ sampleSessions ⟨3, 0, 0⟩ 2 []
    ⟨.delete sampleTerminal, 0⟩ 3 [(⟨4, 0, 0⟩, 3, 5)] ⟨5, 0, 0⟩ 4 fun record member => ?_).1⟩
  have listed : record ∈ sampleSessions.flatMap Session.writes := by
    simpa [StoreOperation.publishes] using member
  rw [written record listed]

end Cast.TransitionJournal
