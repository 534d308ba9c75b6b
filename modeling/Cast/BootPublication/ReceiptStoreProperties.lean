import Cast.Foundation.HeadChain
import Cast.Foundation.KeyedRows
import Cast.BootPublication.ReceiptCodecProperties
import Cast.BootPublication.ReceiptStore

/-! The receipt store refines an append-only chain. Every database that calls can reach is
the encoding of a chain of receipts; a call either leaves the chain as it is, stages one
receipt or promotes the pending one. -/

namespace Cast.BootPublication.ReceiptStore

open Foundation State
open List hiding Vector

variable {device : DeviceNumbers} {sha256 : List UInt8 → Vector UInt8 32}
  {fromSlice : List UInt8 → Except String ReceiptBody} {receipt persisted : CanonicalReceipt}
  {database next : Database} {fingerprint : ReceiptFingerprint} {α : Type} {rows : List ReceiptRow}
  {transitionId : TransitionId}

def chainKeys : ChainKeys CanonicalReceipt ReceiptFingerprint TransitionId where
  keyOf receipt := receipt.fingerprint
  ownerOf receipt := receipt.body.transitionId
  previous receipt := receipt.body.committedPredecessor

abbrev Chain := HeadChain chainKeys

def pendingOf (receipt : CanonicalReceipt) : PendingReceipt := ⟨receipt.body.transitionId, receipt.fingerprint⟩

def headOf (chain : Chain) : ReceiptHead := ⟨chain.commits.head?, chain.pending.map pendingOf⟩

def headRow (head : ReceiptHead) : HeadRow :=
  ⟨receiptHeadSingleton, optionToSql fingerprintToSql head.committed,
    optionToSql (fun pending => transitionToSql pending.transitionId) head.pending,
    optionToSql (fun pending => fingerprintToSql pending.fingerprint) head.pending⟩

def tablesOf (chain : Chain) : Database := ⟨[headRow (headOf chain)], chain.items.map receiptRow⟩

theorem fingerprintFromSlice_bytes (fingerprint : ReceiptFingerprint) :
    fingerprintFromSlice fingerprint.bytes.toList = .ok fingerprint := by
  rw [fingerprintFromSlice, dif_pos (by simp)]
  rfl

theorem parse_text (transitionId : TransitionId) : TransitionId.parse transitionId.text = some transitionId := by
  rw [TransitionId.parse, dif_pos transitionId.canonical]

theorem fingerprintToSql_inj {first second : ReceiptFingerprint} :
    fingerprintToSql first = fingerprintToSql second ↔ first = second := by
  obtain ⟨first⟩ := first
  obtain ⟨second⟩ := second
  simp [fingerprintToSql, Vector.toList_inj]

theorem transitionToSql_inj {first second : TransitionId} :
    transitionToSql first = transitionToSql second ↔ first = second := by
  obtain ⟨first, _⟩ := first
  obtain ⟨second, _⟩ := second
  simp [transitionToSql]

theorem validateNullableStorage_fingerprint (field : String) (value : Option ReceiptFingerprint) :
    validateNullableStorage field .blob (optionToSql fingerprintToSql value) 32 = .ok value.isSome := by
  cases value with
  | none => rfl
  | some fingerprint =>
    simp [validateNullableStorage, optionToSql, fingerprintToSql, SqlValue.typeof, SqlValue.byteLength]

theorem validateNullableStorage_transition (field : String) (value : Option TransitionId) :
    validateNullableStorage field .text (optionToSql transitionToSql value) 32 = .ok value.isSome := by
  cases value with
  | none => rfl
  | some transitionId =>
    simp [validateNullableStorage, optionToSql, transitionToSql, SqlValue.typeof,
      SqlValue.byteLength, transitionId.canonical.1]

@[simp] theorem optionToSql_none (toSql : α → SqlValue) : optionToSql toSql none = .null := rfl

@[simp] theorem optionToSql_some (toSql : α → SqlValue) (value : α) :
    optionToSql toSql (some value) = toSql value := rfl

theorem optionToSql_map {β : Type} (toSql : β → SqlValue) (convert : α → β) (value : Option α) :
    optionToSql (fun item => toSql (convert item)) value = optionToSql toSql (value.map convert) := by
  cases value <;> rfl

theorem validateReceiptHeadShape_headRow (head : ReceiptHead) : validateReceiptHeadShape (headRow head) = .ok () := by
  rw [validateReceiptHeadShape, headRow, optionToSql_map transitionToSql PendingReceipt.transitionId,
    optionToSql_map fingerprintToSql PendingReceipt.fingerprint]
  simp only [validateNullableStorage_fingerprint, validateNullableStorage_transition, bind_eq_ok,
    exists_check, refuse_eq_ok, Except.ok.injEq, exists_eq_left', Option.isSome_map]
  simp

theorem decodeReceiptHead_headRow (head : ReceiptHead) : decodeReceiptHead (headRow head) = .ok head := by
  obtain ⟨committed, pending⟩ := head
  have readCommitted : readBlob (optionToSql fingerprintToSql committed) = .ok (committed.map (·.bytes.toList)) := by
    cases committed <;> rfl
  have decodedCommitted : (committed.map (·.bytes.toList)).mapM
      (decodeFingerprint "committed_receipt_sha256") = .ok committed := by
    cases committed with
    | none => rfl
    | some fingerprint => simp [decodeFingerprint, fingerprintFromSlice_bytes, Except.mapError]
  simp only [decodeReceiptHead, headRow, readCommitted, decodedCommitted, bind_eq_ok,
    exists_check, pure_eq_ok, Except.ok.injEq, exists_eq_left']
  cases pending with
  | none => exact ⟨rfl, none, rfl, none, rfl, none, rfl, rfl⟩
  | some pending =>
    refine ⟨rfl, _, rfl, _, rfl, some pending, ?_, rfl⟩
    simp only [decodePending, decodeFingerprint, parse_text, fingerprintFromSlice_bytes, okOr, Except.mapError, ok_bind]
    rfl

theorem loadReceiptHead_headRow (head : ReceiptHead) (receipts : List ReceiptRow) :
    loadReceiptHead ⟨[headRow head], receipts⟩ = .ok head := by
  have found : [headRow head].find? (fun row => row.singleton = receiptHeadSingleton) = some (headRow head) := rfl
  simp only [loadReceiptHead, receiptHeadScanLimit, take_succ_cons, take_nil,
    validateReceiptHeadShape_headRow, found, okOr, ok_bind, decodeReceiptHead_headRow]

variable {chain : Chain} {head : List HeadRow} {items : List CanonicalReceipt}

theorem validateReceiptShape_receiptRow : validateReceiptShape (receiptRow receipt) = .ok () ↔
    bodyLengthAllowed (some receipt.canonicalBody.length) = true := by
  have transition : (utf8 receipt.body.transitionId.text).length = 32 := receipt.body.transitionId.canonical.1
  have fingerprint : receipt.fingerprint.bytes.toList.length = 32 := by simp
  -- The checks become their conditions before the columns are computed.
  simp only [validateReceiptShape, validateStorageType, validateExactLength, bind_eq_ok, exists_check, refuse_eq_ok]
  simp only [receiptRow, fingerprintToSql, transitionToSql, SqlValue.typeof, SqlValue.byteLength,
    transition, fingerprint, ne_eq, true_and, not_true_eq_false, not_false_eq_true,
    Bool.not_eq_false]

/-- The row of a receipt is read back as what its body decodes to, if that has the
fingerprint and the transition of the row. -/
theorem decodeStoredReceipt_receiptRow :
    decodeStoredReceipt device sha256 fromSlice (receiptRow receipt) receipt.fingerprint = .ok persisted ↔
      decodeReceipt device sha256 fromSlice receipt.canonicalBody = .ok persisted ∧
        persisted.fingerprint = receipt.fingerprint ∧
        persisted.body.transitionId = receipt.body.transitionId := by
  simp only [decodeStoredReceipt, receiptRow, fingerprintToSql, transitionToSql, requireBlob,
    requireText, bind_eq_ok, exists_check, mapError_eq_ok, okOr_eq_ok, refuse_eq_ok, pure_eq_ok,
    fingerprintFromSlice_bytes, parse_text, Except.ok.injEq, Option.some.injEq, exists_eq_left',
    not_not, ne_eq, true_and]
  simp only [existsAndEq, and_true]

section

variable (distinct : (items.map (·.fingerprint)).Nodup)
include distinct

theorem filter_fingerprint_rows (fingerprint : ReceiptFingerprint) :
    ((items.map receiptRow).filter fun row => row.receiptSha256 = fingerprintToSql fingerprint) =
      (items.find? fun receipt => receipt.fingerprint = fingerprint).toList.map receiptRow := by
  rw [filter_map, ← filter_key_eq_find? distinct]
  simp only [Function.comp_def, receiptRow, fingerprintToSql_inj]

theorem loadReceipt_absent (absent : fingerprint ∉ items.map (·.fingerprint)) :
    loadReceipt device sha256 fromSlice ⟨head, items.map receiptRow⟩ fingerprint = .ok none := by
  have unfound := find?_key_of_not_mem absent
  simp only [loadReceipt, filter_fingerprint_rows distinct, unfound]
  rfl

theorem loadReceipt_present (member : receipt ∈ items) :
    loadReceipt device sha256 fromSlice ⟨head, items.map receiptRow⟩ receipt.fingerprint = (do
      validateReceiptShape (receiptRow receipt)
      let decoded ← decodeStoredReceipt device sha256 fromSlice (receiptRow receipt) receipt.fingerprint
      return some decoded) := by
  have found := find?_key_of_mem distinct member
  simp only [loadReceipt, filter_fingerprint_rows distinct, found]
  rfl

end

section

variable (distinct : (items.map (·.body.transitionId)).Nodup)
include distinct

theorem filter_transition_rows (transitionId : TransitionId) :
    ((items.map receiptRow).filter fun row => row.transitionId = transitionToSql transitionId) =
      (items.find? fun receipt => receipt.body.transitionId = transitionId).toList.map receiptRow := by
  rw [filter_map, ← filter_key_eq_find? distinct]
  simp only [Function.comp_def, receiptRow, transitionToSql_inj]

theorem loadTransitionOwner_absent (absent : transitionId ∉ items.map (·.body.transitionId)) :
    loadTransitionOwner ⟨head, items.map receiptRow⟩ transitionId = .ok none := by
  have unfound := find?_key_of_not_mem absent
  simp only [loadTransitionOwner, filter_transition_rows distinct, unfound]
  rfl

theorem loadTransitionOwner_present (member : receipt ∈ items) :
    loadTransitionOwner ⟨head, items.map receiptRow⟩ receipt.body.transitionId ≠ .ok none := by
  have found := find?_key_of_mem distinct member
  simp only [loadTransitionOwner, filter_transition_rows distinct, found]
  intro free
  change (do
    validateReceiptShape (receiptRow receipt)
    let stored ← requireBlob (receiptRow receipt).receiptSha256
    let fingerprint ← (fingerprintFromSlice stored).mapError StateError.invalidStoredFingerprint
    return some fingerprint) = Except.ok none at free
  simp only [bind_eq_ok, pure_eq_ok] at free
  obtain ⟨_, _, _, _, _, _, absent⟩ := free
  cases absent

end

/-- A body that the codec reads back as the receipt it belongs to. -/
structure Decodes (device : DeviceNumbers) (sha256 : List UInt8 → Vector UInt8 32)
    (fromSlice : List UInt8 → Except String ReceiptBody) (receipt : CanonicalReceipt) : Prop where
  decoded : decodeReceipt device sha256 fromSlice receipt.canonicalBody = .ok receipt
  sized : bodyLengthAllowed (some receipt.canonicalBody.length) = true

/-- The database holds exactly the chain, with bodies that can be read. -/
structure Represents (device : DeviceNumbers) (sha256 : List UInt8 → Vector UInt8 32)
    (fromSlice : List UInt8 → Except String ReceiptBody) (chain : Chain) (database : Database) :
    Prop where
  tables : database = tablesOf chain
  decodes : ∀ receipt ∈ chain.items, Decodes device sha256 fromSlice receipt

theorem represents_initial : Represents device sha256 fromSlice .empty .initial where
  tables := rfl
  decodes _ member := by cases member

def committedItem (chain : Chain) : Option CanonicalReceipt :=
  chain.commits.head?.bind fun fingerprint =>
    chain.items.find? fun receipt => receipt.fingerprint = fingerprint

theorem committedItem_of_mem (member : receipt ∈ chain.items)
    (isHead : chain.commits.head? = some receipt.fingerprint) :
    committedItem chain = some receipt := by
  rw [committedItem, isHead]
  exact find?_key_of_mem chain.distinctKeys member

def stateOf (chain : Chain) : ReceiptState := ⟨headOf chain, committedItem chain, chain.pending⟩

theorem predecessor_of_pending (isPending : chain.pending = some receipt) :
    receipt.body.committedPredecessor = chain.commits.head? := chain.pendingFollows receipt isPending

variable {committed : Option ReceiptFingerprint}

theorem isFingerprintValue_toSql : isFingerprintValue (fingerprintToSql fingerprint) = true := by
  simp [isFingerprintValue, fingerprintToSql]

theorem isTransitionValue_toSql : isTransitionValue (transitionToSql transitionId) = true := by
  simp only [isTransitionValue, transitionToSql, transitionId.canonical, beq_self_eq_true, Bool.and_self]

theorem headRow_isAccepted (head : ReceiptHead) : (headRow head).isAccepted = true := by
  obtain ⟨committed, pending⟩ := head
  have committedAccepted : (optionToSql fingerprintToSql committed == .null ||
      isFingerprintValue (optionToSql fingerprintToSql committed)) = true := by
    cases committed with
    | none => rfl
    | some fingerprint => simp [optionToSql, isFingerprintValue_toSql]
  cases pending with
  | none => simpa [HeadRow.isAccepted, headRow, receiptHeadSingleton] using committedAccepted
  | some pending =>
    have pendingAccepted : (isTransitionValue (transitionToSql pending.transitionId) &&
        isFingerprintValue (fingerprintToSql pending.fingerprint)) = true := by
      rw [isTransitionValue_toSql, isFingerprintValue_toSql]
      rfl
    simp only [HeadRow.isAccepted, headRow, committedAccepted, optionToSql_some, pendingAccepted,
      Bool.or_true, receiptHeadSingleton]
    rfl

theorem updateHead_single {row : HeadRow} {selected : HeadRow → Bool} {set : HeadRow → HeadRow}
    (isSelected : selected row = true) (accepted : (set row).isAccepted = true) :
    Database.updateHead ⟨[row], rows⟩ selected set = .ok (1, ⟨[set row], rows⟩) := by
  simp [Database.updateHead, isSelected, accepted, refuse, ok_bind, pure, Except.pure]

theorem stagePendingRow_headRow :
    stagePendingRow ⟨[headRow ⟨committed, none⟩], rows⟩ transitionId ⟨committed, fingerprint⟩ =
      .ok (1, ⟨[headRow ⟨committed, some ⟨transitionId, fingerprint⟩⟩], rows⟩) := by
  refine updateHead_single ?_ (headRow_isAccepted ⟨committed, some ⟨transitionId, fingerprint⟩⟩)
  simp [headRow, optionToSql, committedIs]

theorem promotePendingRow_headRow :
    promotePendingRow ⟨[headRow ⟨committed, some ⟨transitionId, fingerprint⟩⟩], rows⟩ transitionId
        ⟨committed, fingerprint⟩ =
      .ok (1, ⟨[headRow ⟨some fingerprint, none⟩], rows⟩) := by
  refine updateHead_single ?_ (headRow_isAccepted ⟨some fingerprint, none⟩)
  simp [headRow, optionToSql, committedIs]

variable {outcome : StageOutcome}

/-- Two receipts that the store cannot tell apart. -/
structure SameStored (persisted receipt : CanonicalReceipt) : Prop where
  fingerprint : persisted.fingerprint = receipt.fingerprint
  transition : persisted.body.transitionId = receipt.body.transitionId
  predecessor : persisted.body.committedPredecessor = receipt.body.committedPredecessor
  bytes : persisted.canonicalBody = receipt.canonicalBody

theorem requireUnknown_eq_ok : requireUnknown device sha256 fromSlice database receipt = .ok () ↔
    loadTransitionOwner database receipt.body.transitionId = .ok none ∧
      loadReceipt device sha256 fromSlice database receipt.fingerprint = .ok none := by
  rw [requireUnknown]
  cases owned : loadTransitionOwner database receipt.body.transitionId with
  | error error => simp [bind, Except.bind]
  | ok found =>
    cases found with
    | some fingerprint => simp [bind, Except.bind]
    | none => simp [ok_bind]

theorem insertReceipt_eq_ok (inserted : insertReceipt database receipt = .ok next) :
    next = ⟨database.head, database.receipts ++ [receiptRow receipt]⟩ ∧
      bodyLengthAllowed (some receipt.canonicalBody.length) = true := by
  simp only [insertReceipt, Database.insertReceiptRow, bind_eq_ok, exists_check, mapError_eq_ok,
    refuse_eq_ok, pure_eq_ok, Bool.not_eq_false] at inserted
  obtain ⟨⟨count, after⟩, ⟨accepted, made⟩, _, same⟩ := inserted
  cases made
  refine ⟨same.symm, ?_⟩
  simp only [ReceiptRow.isAccepted, Bool.and_eq_true] at accepted
  exact accepted.1.2

/-- The state that is loaded after an update has checked what is pending. -/
theorem loadReceiptState_pending {committed : Option ReceiptFingerprint} {pending : PendingReceipt}
    {state : ReceiptState}
    (loaded : loadReceiptState device sha256 fromSlice ⟨[headRow ⟨committed, some pending⟩], rows⟩ = .ok state)
    (found : loadRequiredReceipt device sha256 fromSlice
      ⟨[headRow ⟨committed, some pending⟩], rows⟩ .pending pending.fingerprint = .ok persisted) :
    persisted.body.committedPredecessor = committed := by
  simp only [loadReceiptState, loadReceiptHead_headRow, Except.mapError, ok_bind, bind_eq_ok,
    Option.mapM_some, found] at loaded
  obtain ⟨_, _, body, isBody, _, correlated, _⟩ := loaded
  cases isBody
  simp only [requirePendingCorrelation, bind_eq_ok, exists_check, refuse_eq_ok, ne_eq, not_not] at correlated
  exact correlated.2

inductive Concluded {ε α : Type} (environment : Environment) (fromDatabase : DatabaseError → ε)
    (database : Database) (body : Except ε (α × Database)) : Transaction ε α → Prop where
  | unbegun (failure : DatabaseError) :
      environment.beginFailure = some failure →
      Concluded environment fromDatabase database body ⟨.error (fromDatabase failure), false, database⟩
  | rolledBack (error : ε) : body = .error error → Concluded environment fromDatabase database body
        ⟨.error ((environment.rollbackFailure.map fromDatabase).getD error), false, database⟩
  | committed (value : α) (next : Database) : body = .ok (value, next) →
      environment.commitFailure = none →
      Concluded environment fromDatabase database body ⟨.ok value, true, next⟩
  | reported (value : α) (next : Database) (failure : CommitFailure) : body = .ok (value, next) →
      environment.commitFailure = some failure →
      Concluded environment fromDatabase database body
        ⟨.error (fromDatabase failure.error), true, if failure.durable then next else database⟩

theorem exclusiveTx_concluded {ε : Type} (environment : Environment)
    (fromDatabase : DatabaseError → ε) (database : Database) (body : Except ε (α × Database)) :
    Concluded environment fromDatabase database body (exclusiveTx environment fromDatabase database body) := by
  unfold exclusiveTx
  cases begun : environment.beginFailure with
  | some failure => exact .unbegun failure begun
  | none =>
    cases result : body with
    | error error => exact .rolledBack error rfl
    | ok made =>
      obtain ⟨value, next⟩ := made
      cases committed : environment.commitFailure with
      | none => exact .committed value next rfl committed
      | some failure => exact .reported value next failure rfl committed

/-- The receipt is the committed head, with nothing pending after it. -/
structure IsHead (chain : Chain) (receipt : CanonicalReceipt) : Prop where
  unpended : chain.pending = none
  committed : chain.commits.head? = some receipt.fingerprint
  stored : receipt ∈ chain.items

theorem IsHead.predecessor_stored (isHead : IsHead chain receipt)
    (follows : receipt.body.committedPredecessor = some fingerprint) :
    ∃ item ∈ chain.items, item.fingerprint = fingerprint := by
  obtain ⟨older, commits⟩ : ∃ older, chain.commits = receipt.fingerprint :: older := by
    have committed := isHead.committed
    cases known : chain.commits with
    | nil =>
      rw [known] at committed
      cases committed
    | cons first older =>
      rw [known] at committed
      cases committed
      exact ⟨older, rfl⟩
  obtain ⟨item, member, same, linked⟩ := chain.linked [] _ older commits
  have isItem := inj_on_of_nodup_map chain.distinctKeys member isHead.stored same
  rw [isItem] at linked
  change receipt.body.committedPredecessor = older.head? at linked
  rw [follows] at linked
  refine chain.committed_stored ?_
  rw [commits]
  exact mem_cons_of_mem _ (mem_of_head? linked.symm)

theorem isExactPromoted_not_head (notHead : ¬ IsHead chain receipt) :
    isExactPromoted device sha256 fromSlice database (stateOf chain) receipt = .ok false := by
  rw [isExactPromoted, if_neg]
  intro exactHead
  obtain ⟨committed, _, unpended, found⟩ := exactHead
  refine notHead ⟨unpended, committed, ?_⟩
  change committedItem chain = some receipt at found
  rw [committedItem, Option.bind_eq_some_iff] at found
  obtain ⟨_, _, found⟩ := found
  exact mem_of_find?_eq_some found

theorem requireExactPending_stateOf :
    requireExactPending (stateOf chain) receipt = .ok () ↔ chain.pending = some receipt := by
  simp only [requireExactPending, bind_eq_ok, exists_check, refuse_eq_ok, okOr_eq_ok, ne_eq, not_not]
  constructor
  · intro accepted
    obtain ⟨_, _, _, _, _, isPending⟩ := accepted
    exact isPending
  · intro isPending
    refine ⟨(predecessor_of_pending isPending).symm, pendingOf receipt, ?_, rfl, rfl, isPending⟩
    simp [stateOf, headOf, isPending]

theorem isExactPending_stateOf : isExactPending (stateOf chain) receipt = true ↔ chain.pending = some receipt := by
  rw [isExactPending]
  constructor
  · intro accepted
    simp only [Bool.and_eq_true, decide_eq_true_eq] at accepted
    exact accepted.2
  · intro isPending
    simp [stateOf, headOf, isPending, pendingOf, receiptPair, predecessor_of_pending isPending]

theorem not_isHead_of_pending (isPending : chain.pending = some receipt) : ¬ IsHead chain receipt := by
  intro isHead
  rw [isHead.unpended] at isPending
  cases isPending

theorem isHead_promote (isPending : chain.pending = some receipt) :
    IsHead (chain.promote receipt isPending) receipt where
  unpended := rfl
  committed := rfl
  stored := chain.pendingStored receipt isPending

section

variable (represents : Represents device sha256 fromSlice chain database)
include represents

theorem Represents.loadReceiptHead : loadReceiptHead database = .ok (headOf chain) := by
  rw [represents.tables]
  exact loadReceiptHead_headRow _ _

theorem Represents.loadReceipt (member : receipt ∈ chain.items) :
    loadReceipt device sha256 fromSlice database receipt.fingerprint = .ok (some receipt) := by
  have decodes := represents.decodes receipt member
  have read : decodeStoredReceipt device sha256 fromSlice (receiptRow receipt) receipt.fingerprint =
      .ok receipt := decodeStoredReceipt_receiptRow.mpr ⟨decodes.decoded, rfl, rfl⟩
  have shape := validateReceiptShape_receiptRow.mpr decodes.sized
  rw [represents.tables, tablesOf, loadReceipt_present chain.distinctKeys member, shape, read]
  rfl

theorem Represents.loadRequired (member : receipt ∈ chain.items) (reference : ReceiptReference) :
    loadRequiredReceipt device sha256 fromSlice database reference receipt.fingerprint = .ok receipt := by
  rw [loadRequiredReceipt, represents.loadReceipt member]
  rfl

theorem Represents.loadReceiptState :
    loadReceiptState device sha256 fromSlice database = .ok (stateOf chain) := by
  have committed : (headOf chain).committed.mapM (fun fingerprint =>
      loadRequiredReceipt device sha256 fromSlice database .committed fingerprint) = .ok (committedItem chain) := by
    cases known : chain.commits.head? with
    | none => simp [headOf, committedItem, known, pure, Except.pure]
    | some fingerprint =>
      obtain ⟨item, member, same⟩ := chain.committed_stored (mem_of_head? known)
      change item.fingerprint = fingerprint at same
      subst same
      have loaded := represents.loadRequired member .committed
      simp [headOf, known, loaded, committedItem_of_mem member known]
  have pending : (headOf chain).pending.mapM (fun pending =>
      loadRequiredReceipt device sha256 fromSlice database .pending pending.fingerprint) = .ok chain.pending := by
    cases known : chain.pending with
    | none => simp [headOf, known, pure, Except.pure]
    | some item =>
      have loaded := represents.loadRequired (chain.pendingStored item known) .pending
      simp [headOf, known, pendingOf, loaded]
  have correlated : requirePendingCorrelation (headOf chain) (headOf chain).pending chain.pending = .ok () := by
    cases known : chain.pending with
    | none => simp [headOf, known, requirePendingCorrelation]
    | some item => simp [headOf, known, requirePendingCorrelation, pendingOf, predecessor_of_pending known]
  simp only [ReceiptStore.loadReceiptState, represents.loadReceiptHead, Except.mapError, ok_bind, committed, pending,
    correlated]
  rfl

theorem Represents.requireUnknown (unknown : requireUnknown device sha256 fromSlice database receipt = .ok ()) :
    receipt.fingerprint ∉ chain.items.map (·.fingerprint) ∧
      receipt.body.transitionId ∉ chain.items.map (·.body.transitionId) := by
  obtain ⟨unowned, unstored⟩ := requireUnknown_eq_ok.mp unknown
  constructor
  · intro known
    obtain ⟨stored, member, same⟩ := mem_map.mp known
    rw [← same, represents.loadReceipt member] at unstored
    cases unstored
  · intro known
    obtain ⟨stored, member, same⟩ := mem_map.mp known
    rw [← same, represents.tables] at unowned
    exact loadTransitionOwner_present chain.distinctOwners member unowned

/-- A fresh receipt that is staged is stored as what its bytes decode to, and pending. -/
theorem Represents.stageFresh (unpended : chain.pending = none)
    (follows : receipt.body.committedPredecessor = chain.commits.head?)
    (staged : stageFresh device sha256 fromSlice database receipt = .ok (outcome, next)) :
    outcome = .staged ∧ ∃ persisted, SameStored persisted receipt ∧
      ∃ admits : chain.Admits persisted, Represents device sha256 fromSlice (chain.stage persisted admits) next := by
  simp only [ReceiptStore.stageFresh, bind_eq_ok, exists_check, mapError_eq_ok, refuse_eq_ok,
    pure_eq_ok, Prod.mk.injEq, not_not, ne_eq, not_or] at staged
  obtain ⟨unknown, inserted, insertion, persisted, loaded, bytes, ⟨changed, updated⟩, update, _,
    after, reloaded, _, isStaged, same⟩ := staged
  obtain ⟨newKey, newOwner⟩ := represents.requireUnknown unknown
  obtain ⟨isInserted, sized⟩ := insertReceipt_eq_ok insertion
  have rows : inserted = ⟨[headRow ⟨chain.commits.head?, none⟩], (chain.items ++ [receipt]).map receiptRow⟩ := by
    rw [isInserted, represents.tables, tablesOf, headOf, unpended, map_append]
    rfl
  have distinct : ((chain.items ++ [receipt]).map (·.fingerprint)).Nodup := by
    rw [map_append, map_singleton, nodup_append_comm, singleton_append, nodup_cons]
    exact ⟨newKey, chain.distinctKeys⟩
  have member : receipt ∈ chain.items ++ [receipt] := by simp
  -- What was inserted reads back as the persisted receipt.
  have read : decodeReceipt device sha256 fromSlice receipt.canonicalBody = .ok persisted ∧
      persisted.fingerprint = receipt.fingerprint ∧
      persisted.body.transitionId = receipt.body.transitionId := by
    rw [rows] at loaded
    simp only [loadRequiredReceipt, loadReceipt_present distinct member, bind_eq_ok, pure_eq_ok, okOr_eq_ok] at loaded
    obtain ⟨_, ⟨_, _, decoded, stored, isDecoded⟩, isPersisted⟩ := loaded
    subst isDecoded
    cases isPersisted
    exact decodeStoredReceipt_receiptRow.mp stored
  obtain ⟨decoded, fingerprint, transition⟩ := read
  have sameRow : receiptRow persisted = receiptRow receipt := by
    rw [receiptRow, receiptRow, fingerprint, transition, bytes]
  have isUpdated : updated = ⟨[headRow ⟨chain.commits.head?, some (pendingOf persisted)⟩],
      (chain.items ++ [receipt]).map receiptRow⟩ := by
    rw [rows, receiptPair, follows, stagePendingRow_headRow] at update
    cases update
    rw [pendingOf, fingerprint, transition]
  -- The reloaded state checks the predecessor of what was stored.
  have predecessor : persisted.body.committedPredecessor = chain.commits.head? := by
    rw [isUpdated] at reloaded
    refine loadReceiptState_pending reloaded ?_
    rw [rows] at loaded
    rw [pendingOf, fingerprint]
    exact loaded
  have admits : chain.Admits persisted := by
    refine ⟨unpended, predecessor, ?_, ?_⟩
    · rw [← fingerprint] at newKey
      exact newKey
    · rw [← transition] at newOwner
      exact newOwner
  refine ⟨isStaged.symm, persisted, ⟨fingerprint, transition, predecessor.trans follows.symm, bytes⟩, admits, ?_, ?_⟩
  · rw [← same, isUpdated, tablesOf, map_append, map_singleton, ← sameRow]
    simp only [HeadChain.stage, headOf, map_append, map_singleton]
    rfl
  · intro stored storedMember
    simp only [HeadChain.stage, mem_append, mem_singleton] at storedMember
    rcases storedMember with old | new
    · exact represents.decodes stored old
    · subst new
      exact ⟨bytes ▸ decoded, bytes ▸ sized⟩

theorem Represents.stageReceipt_mismatch (differs : receipt.body.committedPredecessor ≠ chain.commits.head?) :
    stageReceipt device sha256 fromSlice database receipt =
      .error (.committedMismatch receipt.body.committedPredecessor chain.commits.head?) := by
  rw [stageReceipt, represents.loadReceiptState]
  simp only [ok_bind, refuse, stateOf, headOf, receiptPair, ne_eq, Ne.symm differs, not_false_eq_true, if_true]
  rfl

theorem Represents.stageReceipt_again
    (isPending : chain.pending = some persisted) (same : SameStored persisted receipt) :
    stageReceipt device sha256 fromSlice database receipt = .ok (.alreadyStaged, database) := by
  rw [stageReceipt, represents.loadReceiptState]
  simp [ok_bind, refuse, stateOf, headOf, receiptPair, ← predecessor_of_pending isPending, same.predecessor, isPending,
    pendingOf, retryPending, same.transition, same.fingerprint, same.bytes, okOr, pure, Except.pure]

theorem Represents.stageReceipt_cases
    (staged : stageReceipt device sha256 fromSlice database receipt = .ok (outcome, next)) :
    next = database ∨ ∃ persisted, SameStored persisted receipt ∧
      ∃ admits : chain.Admits persisted, Represents device sha256 fromSlice (chain.stage persisted admits) next := by
  by_cases follows : receipt.body.committedPredecessor = chain.commits.head?
  · rw [stageReceipt, represents.loadReceiptState] at staged
    simp only [ok_bind, bind_eq_ok, exists_check] at staged
    obtain ⟨_, staged⟩ := staged
    cases isPending : chain.pending with
    | some item =>
      simp only [stateOf, headOf, isPending, Option.map_some, bind_eq_ok, pure_eq_ok, Prod.mk.injEq] at staged
      obtain ⟨_, _, _, same⟩ := staged
      exact .inl same.symm
    | none =>
      simp only [stateOf, headOf, isPending, Option.map_none] at staged
      exact .inr (represents.stageFresh isPending follows staged).2
  · rw [represents.stageReceipt_mismatch follows] at staged
    cases staged

theorem Represents.stage (decodes : Decodes device sha256 fromSlice receipt) (admits : chain.Admits receipt) :
    Represents device sha256 fromSlice (chain.stage receipt admits) (tablesOf (chain.stage receipt admits)) where
  tables := rfl
  decodes := forall_mem_append.mpr ⟨represents.decodes, forall_mem_singleton.mpr decodes⟩

theorem Represents.insertReceipt (sized : bodyLengthAllowed (some receipt.canonicalBody.length) = true)
    (admits : chain.Admits receipt) : ReceiptStore.insertReceipt database receipt =
      .ok ⟨database.head, database.receipts ++ [receiptRow receipt]⟩ := by
  have others : (database.receipts.all fun other =>
      other.receiptSha256 != (receiptRow receipt).receiptSha256 &&
        other.transitionId != (receiptRow receipt).transitionId) = true := by
    rw [all_eq_true]
    intro other member
    rw [represents.tables] at member
    obtain ⟨item, isItem, rfl⟩ := mem_map.mp member
    simp only [receiptRow, Bool.and_eq_true, bne_iff_ne, ne_eq, fingerprintToSql_inj, transitionToSql_inj]
    constructor
    · intro same
      exact admits.newKey (mem_map.mpr ⟨item, isItem, same⟩)
    · intro same
      exact admits.newOwner (mem_map.mpr ⟨item, isItem, same⟩)
  have accepted : (receiptRow receipt).isAccepted database.receipts = true := by
    rw [ReceiptRow.isAccepted, others]
    simp only [receiptRow, isFingerprintValue_toSql, isTransitionValue_toSql, Bool.true_and, Bool.and_true]
    exact sized
  simp [ReceiptStore.insertReceipt, Database.insertReceiptRow, accepted, refuse, ok_bind,
    Except.mapError, pure, Except.pure]

/-- A receipt that the chain admits is staged, when its bytes can be read back. -/
theorem Represents.stageReceipt_fresh
    (decodes : Decodes device sha256 fromSlice receipt) (admits : chain.Admits receipt) :
    stageReceipt device sha256 fromSlice database receipt = .ok (.staged, tablesOf (chain.stage receipt admits)) := by
  have unknown : ReceiptStore.requireUnknown device sha256 fromSlice database receipt = .ok () := by
    rw [requireUnknown_eq_ok, represents.tables]
    exact ⟨loadTransitionOwner_absent chain.distinctOwners admits.newOwner,
      loadReceipt_absent chain.distinctKeys admits.newKey⟩
  have after := represents.stage decodes admits
  have member : receipt ∈ (chain.stage receipt admits).items := mem_append_right _ (mem_singleton_self _)
  -- The lookup of a body does not read the head.
  have required : loadRequiredReceipt device sha256 fromSlice
      ⟨database.head, database.receipts ++ [receiptRow receipt]⟩ .pending receipt.fingerprint = .ok receipt := by
    have loaded := after.loadRequired member .pending
    rw [represents.tables]
    rw [tablesOf, HeadChain.stage, map_append, map_singleton] at loaded
    exact loaded
  have follows : receipt.body.committedPredecessor = chain.commits.head? := admits.follows
  have updated : stagePendingRow ⟨database.head, database.receipts ++ [receiptRow receipt]⟩
      receipt.body.transitionId (receiptPair receipt) = .ok (1, tablesOf (chain.stage receipt admits)) := by
    rw [represents.tables, tablesOf, headOf, admits.unpended, receiptPair, follows, tablesOf,
      HeadChain.stage, map_append]
    exact stagePendingRow_headRow
  rw [stageReceipt, represents.loadReceiptState]
  simp only [ok_bind, refuse, stateOf, headOf, receiptPair, follows, ne_eq, not_true_eq_false, if_false,
    admits.unpended, Option.map_none]
  simp only [ReceiptStore.stageFresh, unknown, represents.insertReceipt decodes.sized admits,
    required, updated, after.loadReceiptState, ok_bind, Except.mapError, refuse, ne_eq,
    not_true_eq_false, if_false]
  simp [stateOf, headOf, HeadChain.stage, ReceiptHead.receiptPairFor, pendingOf, receiptPair, follows,
    ok_bind, pure, Except.pure]

theorem Represents.isExactPromoted_head (isHead : IsHead chain receipt) :
    isExactPromoted device sha256 fromSlice database (stateOf chain) receipt = .ok true := by
  have exactHead : (stateOf chain).head.committed = some receipt.fingerprint ∧
      (stateOf chain).head.pending = none ∧ (stateOf chain).pending = none ∧
      (stateOf chain).committed = some receipt := by
    refine ⟨isHead.committed, ?_, isHead.unpended, committedItem_of_mem isHead.stored isHead.committed⟩
    simp [stateOf, headOf, isHead.unpended]
  have loaded : ∃ found, receipt.body.committedPredecessor.mapM (fun predecessor =>
      loadRequiredReceipt device sha256 fromSlice database .committedPredecessor predecessor) = .ok found := by
    cases follows : receipt.body.committedPredecessor with
    | none => exact ⟨none, rfl⟩
    | some fingerprint =>
      obtain ⟨item, member, same⟩ := isHead.predecessor_stored follows
      have required := represents.loadRequired member .committedPredecessor
      rw [same] at required
      exact ⟨some item, by simp [required]⟩
  obtain ⟨found, loaded⟩ := loaded
  rw [isExactPromoted, if_pos exactHead, loaded]
  rfl

theorem Represents.inspect_head (isHead : IsHead chain receipt) :
    inspectExactState device sha256 fromSlice database receipt = .ok .promoted := by
  simp only [inspectExactState, represents.loadReceiptState, Except.mapError, ok_bind,
    represents.isExactPromoted_head isHead, if_true]
  rfl

theorem Represents.inspect_other (notHead : ¬ IsHead chain receipt) (notPending : chain.pending ≠ some receipt) :
    ∃ error, requireExactPending (stateOf chain) receipt = .error error ∧
      inspectExactState device sha256 fromSlice database receipt = .error error := by
  cases checked : requireExactPending (stateOf chain) receipt with
  | ok _ => exact absurd (requireExactPending_stateOf.mp checked) notPending
  | error error =>
    refine ⟨error, rfl, ?_⟩
    simp only [inspectExactState, represents.loadReceiptState, Except.mapError, ok_bind,
      isExactPromoted_not_head notHead, Bool.false_eq_true, if_false, checked]
    rfl

theorem Represents.classify_head (isHead : IsHead chain receipt) :
    classifyDurableState device sha256 fromSlice database receipt = .ok (some .promoted) := by
  simp only [classifyDurableState, represents.loadReceiptState, ok_bind, represents.isExactPromoted_head isHead, if_true]
  rfl

variable (isPending : chain.pending = some receipt)
include isPending

theorem Represents.inspect_pending :
    inspectExactState device sha256 fromSlice database receipt = .ok .pending := by
  simp only [inspectExactState, represents.loadReceiptState, Except.mapError, ok_bind, Bool.false_eq_true, if_false,
    isExactPromoted_not_head (not_isHead_of_pending isPending), requireExactPending_stateOf.mpr isPending]
  rfl

theorem Represents.classify_pending :
    classifyDurableState device sha256 fromSlice database receipt = .ok (some .pending) := by
  simp only [classifyDurableState, represents.loadReceiptState, ok_bind, Bool.false_eq_true, if_false, if_true,
    isExactPromoted_not_head (not_isHead_of_pending isPending), isExactPending_stateOf.mpr isPending]
  rfl

theorem Represents.promote : Represents device sha256 fromSlice (chain.promote receipt isPending)
      (tablesOf (chain.promote receipt isPending)) where
  tables := rfl
  decodes := represents.decodes

theorem Represents.promoteReceipt_pending :
    promoteReceipt device sha256 fromSlice false database receipt =
      .ok (.promoted, tablesOf (chain.promote receipt isPending)) := by
  have updated : promotePendingRow database receipt.body.transitionId (receiptPair receipt) =
      .ok (1, tablesOf (chain.promote receipt isPending)) := by
    rw [represents.tables, tablesOf, headOf, isPending, receiptPair, predecessor_of_pending isPending]
    exact promotePendingRow_headRow
  have after := (represents.promote isPending).loadReceiptState
  have promoted := (represents.promote isPending).isExactPromoted_head (isHead_promote isPending)
  simp only [promoteReceipt, represents.inspect_pending isPending, ok_bind, refuse,
    Bool.false_eq_true, if_false, updated, Except.mapError, ne_eq, not_true_eq_false, after,
    promoted]
  rfl

theorem Represents.promoteReceipt_late :
    promoteReceipt device sha256 fromSlice true database receipt = .error .deadlineExceeded := by
  simp only [promoteReceipt, represents.inspect_pending isPending, ok_bind, refuse, if_true]
  rfl

end

end Cast.BootPublication.ReceiptStore
