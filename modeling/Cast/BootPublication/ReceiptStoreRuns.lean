import Cast.BootPublication.ReceiptStoreProperties
import Cast.BootPublication.StagedPublication

/-! Calls on the receipt store and runs of them. What a call answers and what it leaves is
said once for each kind of call, over the chain that the database holds; every run from the
empty database then keeps a linear chain of committed receipts. -/

namespace Cast.BootPublication.ReceiptStore

open Foundation
open List hiding Vector

variable {receipt persisted : CanonicalReceipt} {chain next : Chain} {database : Database}
  {event : Event} {environment : Environment} {answer : Answer}
  {device : DeviceNumbers} {sha256 : List UInt8 → Vector UInt8 32}
  {fromSlice : List UInt8 → Except String ReceiptBody}

/-- A staging leaves the chain alone or stages what the receipt is stored as. -/
inductive Stages (chain : Chain) (receipt : CanonicalReceipt) : Chain → Prop where
  | stay : Stages chain receipt chain
  | stage (persisted : CanonicalReceipt) (same : SameStored persisted receipt)
      (admits : chain.Admits persisted) : Stages chain receipt (chain.stage persisted admits)

theorem Stages.step (stages : Stages chain receipt next) :
    HeadChain.Step chain next := by
  cases stages with
  | stay => exact .stay chain
  | stage persisted same admits => exact .stage chain persisted admits

/-- What a staging answers, and the chain that it leaves. -/
inductive StageAnswer (environment : Environment) (chain : Chain) (receipt : CanonicalReceipt) :
    Except StateError StageOutcome → Chain → Prop where
  | unbegun (failure : DatabaseError) : environment.beginFailure = some failure →
      StageAnswer environment chain receipt (.error (.database failure)) chain
  | refused (error : StateError) :
      StageAnswer environment chain receipt (.error ((environment.rollbackFailure.map .database).getD error)) chain
  | committed (outcome : StageOutcome) (next : Chain) : Stages chain receipt next →
      environment.commitFailure = none →
      StageAnswer environment chain receipt (.ok outcome) next
  | reported (failure : CommitFailure) (next : Chain) : Stages chain receipt next →
      environment.commitFailure = some failure →
      StageAnswer environment chain receipt (.error (.database failure.error)) (if failure.durable then next else chain)

inductive PromoteAnswer (environment : Environment) (chain : Chain) (receipt : CanonicalReceipt) :
    Except PromotionError PromotionOutcome → Chain → Prop where
  | already : IsHead chain receipt → PromoteAnswer environment chain receipt (.ok .alreadyPromoted) chain
  | refused (error : PromotionError) : requireExactPending (stateOf chain) receipt = .error error →
      PromoteAnswer environment chain receipt (.error error) chain
  | unbegun (failure : DatabaseError) : environment.beginFailure = some failure →
      PromoteAnswer environment chain receipt (.error (.database failure)) chain
  | late : environment.late = true → PromoteAnswer environment chain receipt
        (.error ((environment.rollbackFailure.map .database).getD .deadlineExceeded)) chain
  | promoted (isPending : chain.pending = some receipt) : environment.commitFailure = none →
      PromoteAnswer environment chain receipt (.ok .promoted) (chain.promote receipt isPending)
  | uncleaned (isPending : chain.pending = some receipt) (failure : CommitFailure)
      (cleanup : DatabaseError) : environment.commitFailure = some failure →
      PromoteAnswer environment chain receipt (.error (.commitReportCleanup failure.error cleanup))
        (if failure.durable then chain.promote receipt isPending else chain)
  | reported (isPending : chain.pending = some receipt) (failure : CommitFailure) :
      environment.commitFailure = some failure →
      PromoteAnswer environment chain receipt
        (.error (.commitReport (if failure.durable then .promoted else .pending) failure.error))
        (if failure.durable then chain.promote receipt isPending else chain)

/-- A transaction whose body fails or changes nothing leaves the database as it is. -/
theorem exclusiveTx_unchanged {ε α : Type} {fromDatabase : DatabaseError → ε} {body : Except ε (α × Database)}
    (keeps : ∀ value next, body = .ok (value, next) → next = database) :
    (exclusiveTx environment fromDatabase database body).database = database := by
  have concluded := exclusiveTx_concluded environment fromDatabase database body
  generalize exclusiveTx environment fromDatabase database body = transaction at concluded ⊢
  cases concluded with
  | unbegun _ _ | rolledBack _ _ => rfl
  | committed value next made committed => exact keeps value next made
  | reported value next failure made committed =>
    rw [keeps value next made]
    exact ite_self _

inductive Answers (event : Event) (chain : Chain) : Answer → Chain → Prop where
  | stage (receipt : CanonicalReceipt) (result : Except StateError StageOutcome) (next : Chain) :
      event.call = .stage receipt → StageAnswer event.environment chain receipt result next →
      Answers event chain (.stage result) next
  | promote (receipt : CanonicalReceipt) (result : Except PromotionError PromotionOutcome)
      (next : Chain) : event.call = .promote receipt →
      PromoteAnswer event.environment chain receipt result next →
      Answers event chain (.promote result) next

theorem StageAnswer.stages {result : Except StateError StageOutcome}
    (answered : StageAnswer environment chain receipt result next) :
    Stages chain receipt next := by
  cases answered with
  | unbegun _ _ | refused _ => exact .stay
  | committed outcome next stages committed => exact stages
  | reported failure after stages committed =>
    cases failure.durable with
    | true => exact stages
    | false => exact .stay

theorem PromoteAnswer.promotes {result : Except PromotionError PromotionOutcome}
    (answered : PromoteAnswer environment chain receipt result next) :
    next = chain ∨ ∃ isPending, next = chain.promote receipt isPending := by
  cases answered with
  | already _ | refused _ _ | unbegun _ _ | late _ => exact .inl rfl
  | promoted isPending committed => exact .inr ⟨isPending, rfl⟩
  | uncleaned isPending failure _ _ | reported isPending failure _ =>
    cases failure.durable with
    | true => exact .inr ⟨isPending, rfl⟩
    | false => exact .inl rfl

theorem Answers.step (answers : Answers event chain answer next) : HeadChain.Step chain next := by
  cases answers with
  | stage receipt result next called answered => exact answered.stages.step
  | promote receipt result next called answered =>
    rcases answered.promotes with same | ⟨isPending, same⟩
    · subst same
      exact .stay _
    · subst same
      exact .promote chain receipt isPending

def committedHead (database : Database) : Option ReceiptFingerprint :=
  (loadReceiptHead database).toOption.bind (·.committed)

def pendingHead (database : Database) : Option ReceiptFingerprint :=
  (loadReceiptHead database).toOption.bind fun head => head.pending.map (·.fingerprint)

theorem pending_of_fingerprint (member : persisted ∈ chain.items)
    (isPending : chain.pending.map (·.fingerprint) = some persisted.fingerprint) :
    chain.pending = some persisted := by
  obtain ⟨item, known, same⟩ := Option.map_eq_some_iff.mp isPending
  rw [known]
  exact congrArg some (inj_on_of_nodup_map chain.distinctKeys (chain.pendingStored item known) member same)

section

variable (represents : Represents device sha256 fromSlice chain database)
include represents

theorem Represents.stage_answer (environment : Environment) (receipt : CanonicalReceipt) :
    ∃ next, StageAnswer environment chain receipt
        (stageBootPublicationReceipt device sha256 fromSlice environment database receipt).1 next ∧
      Represents device sha256 fromSlice next
        (stageBootPublicationReceipt device sha256 fromSlice environment database receipt).2 := by
  have concluded := exclusiveTx_concluded environment StateError.database database
    (stageReceipt device sha256 fromSlice database receipt)
  rw [stageBootPublicationReceipt]
  generalize exclusiveTx environment StateError.database database
    (stageReceipt device sha256 fromSlice database receipt) = transaction at concluded ⊢
  have stages {value : StageOutcome} {after : Database}
      (staged : stageReceipt device sha256 fromSlice database receipt = .ok (value, after)) :
      ∃ next, Stages chain receipt next ∧ Represents device sha256 fromSlice next after := by
    rcases represents.stageReceipt_cases staged with same | ⟨persisted, same, admits, after⟩
    · exact ⟨chain, .stay, same ▸ represents⟩
    · exact ⟨_, .stage persisted same admits, after⟩
  cases concluded with
  | unbegun failure begun => exact ⟨chain, .unbegun failure begun, represents⟩
  | rolledBack error failed => exact ⟨chain, .refused error, represents⟩
  | committed value after staged committed =>
    obtain ⟨next, staging, holds⟩ := stages staged
    exact ⟨next, .committed value next staging committed, holds⟩
  | reported value after failure staged committed =>
    obtain ⟨next, staging, holds⟩ := stages staged
    refine ⟨_, .reported failure next staging committed, ?_⟩
    cases failure.durable with
    | true => exact holds
    | false => exact represents

section

variable (isPending : chain.pending = some receipt)
include isPending

theorem Represents.promoteReceipt_error {late : Bool} {error : PromotionError}
    (failed : promoteReceipt device sha256 fromSlice late database receipt = .error error) :
    late = true ∧ error = .deadlineExceeded := by
  cases late with
  | true =>
    rw [represents.promoteReceipt_late isPending] at failed
    cases failed
    exact ⟨rfl, rfl⟩
  | false =>
    rw [represents.promoteReceipt_pending isPending] at failed
    cases failed

theorem Represents.promoteReceipt_ok {late : Bool} {outcome : PromotionOutcome} {next : Database}
    (made : promoteReceipt device sha256 fromSlice late database receipt = .ok (outcome, next)) :
    outcome = .promoted ∧ next = tablesOf (chain.promote receipt isPending) := by
  cases late with
  | true =>
    rw [represents.promoteReceipt_late isPending] at made
    cases made
  | false =>
    rw [represents.promoteReceipt_pending isPending] at made
    cases made
    exact ⟨rfl, rfl⟩

/-- The durable outcome that is reported is the one that the commit had. -/
theorem Represents.commitReportError (failure : CommitFailure) (uncleaned : environment.cleanupFailure = none) :
    commitReportError device sha256 fromSlice environment
      (if failure.durable then tablesOf (chain.promote receipt isPending) else database) receipt failure.error =
      .commitReport (if failure.durable then .promoted else .pending) failure.error := by
  rw [ReceiptStore.commitReportError, uncleaned]
  cases failure.durable with
  | true =>
    have found := (represents.promote isPending).classify_head (isHead_promote isPending)
    simp only [if_true, found]
  | false =>
    have found := represents.classify_pending isPending
    simp only [Bool.false_eq_true, if_false, found]

theorem Represents.promote_calm : promoteBootPublicationReceipt device sha256 fromSlice .calm database receipt =
      (.ok .promoted, tablesOf (chain.promote receipt isPending)) := by
  have body := represents.promoteReceipt_pending isPending
  have found := (represents.promote isPending).classify_head (isHead_promote isPending)
  simp only [promoteBootPublicationReceipt, represents.inspect_pending isPending, Environment.calm,
    body, exclusiveTx, reportPromotion, requirePostCommit, found]

end

theorem Represents.promote_answer (environment : Environment) (receipt : CanonicalReceipt) :
    ∃ next, PromoteAnswer environment chain receipt
        (promoteBootPublicationReceipt device sha256 fromSlice environment database receipt).1 next ∧
      Represents device sha256 fromSlice next
        (promoteBootPublicationReceipt device sha256 fromSlice environment database receipt).2 := by
  unfold promoteBootPublicationReceipt
  by_cases isHead : IsHead chain receipt
  · rw [represents.inspect_head isHead]
    exact ⟨chain, .already isHead, represents⟩
  by_cases isPending : chain.pending = some receipt
  · rw [represents.inspect_pending isPending]
    dsimp only
    have concluded := exclusiveTx_concluded environment PromotionError.database database
      (promoteReceipt device sha256 fromSlice environment.late database receipt)
    generalize exclusiveTx environment PromotionError.database database
      (promoteReceipt device sha256 fromSlice environment.late database receipt) = transaction
      at concluded ⊢
    have promoted := represents.promote isPending
    cases concluded with
    | unbegun failure begun => exact ⟨chain, .unbegun failure begun, represents⟩
    | rolledBack error failed =>
      obtain ⟨isLate, rfl⟩ := represents.promoteReceipt_error isPending failed
      refine ⟨chain, ?_, represents⟩
      have answer := @PromoteAnswer.late environment chain receipt isLate
      cases rollback : environment.rollbackFailure with
      | none | some _ =>
        rw [rollback] at answer
        exact answer
    | committed value next made committed =>
      obtain ⟨rfl, rfl⟩ := represents.promoteReceipt_ok isPending made
      refine ⟨_, ?_, promoted⟩
      simp only [reportPromotion, requirePostCommit, promoted.classify_head (isHead_promote isPending)]
      exact .promoted isPending committed
    | reported value next failure made committed =>
      obtain ⟨rfl, rfl⟩ := represents.promoteReceipt_ok isPending made
      refine ⟨if failure.durable then chain.promote receipt isPending else chain, ?_, ?_⟩
      · simp only [reportPromotion, if_true]
        cases cleaned : environment.cleanupFailure with
        | none =>
          rw [represents.commitReportError isPending failure cleaned]
          exact .reported isPending failure committed
        | some cleanup =>
          rw [ReceiptStore.commitReportError, cleaned]
          exact .uncleaned isPending failure cleanup committed
      · cases failure.durable with
        | true => exact promoted
        | false => exact represents
  · obtain ⟨error, checked, inspected⟩ := represents.inspect_other isHead isPending
    rw [inspected]
    exact ⟨chain, .refused error checked, represents⟩

theorem Represents.stage_calm (decodes : Decodes device sha256 fromSlice receipt) (admits : chain.Admits receipt) :
    stageBootPublicationReceipt device sha256 fromSlice .calm database receipt =
      (.ok .staged, tablesOf (chain.stage receipt admits)) := by
  rw [stageBootPublicationReceipt, represents.stageReceipt_fresh decodes admits]
  rfl

theorem Represents.answers (event : Event) :
    ∃ next, Answers event chain (event.step device sha256 fromSlice database).1 next ∧
      Represents device sha256 fromSlice next (event.step device sha256 fromSlice database).2 := by
  unfold Event.step
  cases called : event.call with
  | stage receipt =>
    obtain ⟨next, answer, holds⟩ := represents.stage_answer event.environment receipt
    exact ⟨next, .stage receipt _ next called answer, holds⟩
  | promote receipt =>
    obtain ⟨next, answer, holds⟩ := represents.promote_answer event.environment receipt
    exact ⟨next, .promote receipt _ next called answer, holds⟩

theorem Represents.committedHead : committedHead database = chain.commits.head? := by
  rw [ReceiptStore.committedHead, represents.loadReceiptHead]
  rfl

theorem Represents.pendingHead : pendingHead database = chain.pending.map (·.fingerprint) := by
  rw [ReceiptStore.pendingHead, represents.loadReceiptHead]
  simp [Except.toOption, headOf, pendingOf, Function.comp_def]

theorem Represents.stageReceipt_settled (settled : chain.Settled persisted) (same : SameStored persisted receipt) :
    stageReceipt device sha256 fromSlice database receipt =
      if ReceiptStore.pendingHead database = some receipt.fingerprint then
        .ok (.alreadyStaged, database)
      else .error (.committedMismatch receipt.body.committedPredecessor (ReceiptStore.committedHead database)) := by
  rw [represents.pendingHead, represents.committedHead, ← same.fingerprint]
  rcases settled.cases with isPending | ⟨committed, moved⟩
  · rw [if_pos (by rw [isPending]; rfl)]
    exact represents.stageReceipt_again isPending same
  · rw [if_neg]
    · refine represents.stageReceipt_mismatch ?_
      rw [← same.predecessor]
      exact moved
    · intro byFingerprint
      have isPending := pending_of_fingerprint settled.1 byFingerprint
      exact chain.pendingUncommitted persisted isPending committed

theorem Represents.promote_committed (member : receipt ∈ chain.items) (committed : receipt.fingerprint ∈ chain.commits)
    (environment : Environment) :
    promoteBootPublicationReceipt device sha256 fromSlice environment database receipt =
      (if ReceiptStore.committedHead database = some receipt.fingerprint ∧
          ReceiptStore.pendingHead database = none then .ok .alreadyPromoted
        else .error (.committedPredecessorMismatch receipt.body.committedPredecessor
          (ReceiptStore.committedHead database)), database) := by
  rw [represents.pendingHead, represents.committedHead]
  by_cases isHead : IsHead chain receipt
  · rw [if_pos ⟨isHead.committed, Option.map_eq_none_iff.mpr isHead.unpended⟩, promoteBootPublicationReceipt,
      represents.inspect_head isHead]
  · have notPending : chain.pending ≠ some receipt := by
      intro isPending
      exact chain.pendingUncommitted receipt isPending committed
    have moved := chain.previous_ne_head member committed
    change receipt.body.committedPredecessor ≠ chain.commits.head? at moved
    obtain ⟨error, checked, inspected⟩ := represents.inspect_other isHead notPending
    have isMismatch : error = .committedPredecessorMismatch receipt.body.committedPredecessor
        chain.commits.head? := by
      simp only [requireExactPending, stateOf, headOf, receiptPair, refuse, ne_eq, Ne.symm moved,
        not_false_eq_true, if_true] at checked
      exact (Except.error.inj checked).symm
    rw [promoteBootPublicationReceipt, inspected, if_neg, isMismatch]
    intro atHead
    exact isHead ⟨Option.map_eq_none_iff.mp atHead.2, atHead.1, member⟩

end

section Runs

variable (device : DeviceNumbers) (sha256 : List UInt8 → Vector UInt8 32)
  (fromSlice : List UInt8 → Except String ReceiptBody)

/-- The fingerprints that became the committed head along a run, the oldest first. -/
def commitLog (database : Database) : List Event → List ReceiptFingerprint
  | [] => []
  | event :: events =>
    let next := (event.step device sha256 fromSlice database).2
    (if committedHead next = committedHead database then [] else (committedHead next).toList) ++ commitLog next events

/-- One head, whose fingerprints have their bodies, over rows that are told apart. -/
structure Sound (database : Database) : Prop where
  oneHead : ∃ row, database.head = [row]
  loads : ∃ state, loadReceiptState device sha256 fromSlice database = .ok state
  committedStored : ∀ fingerprint, committedHead database = some fingerprint →
    ∃ stored, loadReceipt device sha256 fromSlice database fingerprint = .ok (some stored) ∧
      stored.fingerprint = fingerprint
  pendingStored : ∀ fingerprint, pendingHead database = some fingerprint →
    ∃ stored, loadReceipt device sha256 fromSlice database fingerprint = .ok (some stored) ∧
      stored.fingerprint = fingerprint
  oneForTransition : (database.receipts.map (·.transitionId)).Nodup
  oneForFingerprint : (database.receipts.map (·.receiptSha256)).Nodup

/-- The log ends at the committed head, repeats nothing, and each body in it names the entry
before its own. -/
structure LinearLog (database : Database) (log : List ReceiptFingerprint) : Prop where
  distinct : log.Nodup
  newest : committedHead database = log.getLast?
  linked : ∀ older fingerprint newer, log = older ++ fingerprint :: newer →
    ∃ stored, loadReceipt device sha256 fromSlice database fingerprint = .ok (some stored) ∧
      stored.fingerprint = fingerprint ∧ stored.body.committedPredecessor = older.getLast?

def DurableState.headFor (receipt : CanonicalReceipt) : DurableState → ReceiptHead
  | .promoted => ⟨some receipt.fingerprint, none⟩
  | .pending => ⟨receipt.body.committedPredecessor, some (pendingOf receipt)⟩

/-- The answer refuses the call, as opposed to reporting a failure of the database. -/
def Answer.isConflict : Answer → Bool
  | .stage (.ok _) => false
  | .stage (.error (.database _)) => false
  | .stage (.error _) => true
  | .promote (.ok _) => false
  | .promote (.error (.database _)) => false
  | .promote (.error (.commitReport _ _)) => false
  | .promote (.error (.commitReportMismatch _)) => false
  | .promote (.error (.commitReportCleanup _ _)) => false
  | .promote (.error (.commitReportAndReconciliation _ _)) => false
  | .promote (.error _) => true

/-- The answer does not leave open what a commit did to the head. -/
def Answer.isClassified : Answer → Bool
  | .promote (.error (.commitReportMismatch _)) => false
  | .promote (.error (.commitReportAndReconciliation _ _)) => false
  | _ => true

/-- What one call may do to a database. -/
structure Careful (database : Database) (event : Event) : Prop where
  rowsStay : database.receipts <+: (event.step device sha256 fromSlice database).2.receipts
  conflictKeeps : (event.step device sha256 fromSlice database).1.isConflict = true →
    (event.step device sha256 fromSlice database).2 = database
  durableActual : ∀ receipt durable source, event.call = .promote receipt →
    (event.step device sha256 fromSlice database).1 = .promote (.error (.commitReport durable source)) →
    loadReceiptHead (event.step device sha256 fromSlice database).2 = .ok (durable.headFor receipt)
  alwaysClassified : (event.step device sha256 fromSlice database).1.isClassified = true

/-- What a call that has taken effect before meets when it is made again. -/
def Repeats (database : Database) : Call → Prop
  | .stage receipt =>
    (∀ environment, (stageBootPublicationReceipt device sha256 fromSlice environment database receipt).2 = database) ∧
    (stageBootPublicationReceipt device sha256 fromSlice .calm database receipt).1 =
      if pendingHead database = some receipt.fingerprint then .ok .alreadyStaged
      else .error (.committedMismatch receipt.body.committedPredecessor (committedHead database))
  | .promote receipt => ∀ environment,
      promoteBootPublicationReceipt device sha256 fromSlice environment database receipt =
        (if committedHead database = some receipt.fingerprint ∧ pendingHead database = none then
            .ok .alreadyPromoted
          else .error (.committedPredecessorMismatch receipt.body.committedPredecessor
            (committedHead database)), database)

variable {device sha256 fromSlice}

theorem Answers.conflict_stays (answers : Answers event chain answer next)
    (conflict : answer.isConflict = true) : next = chain := by
  cases answers with
  | stage receipt result next called answered =>
    cases answered with
    | unbegun _ _ | refused _ => rfl
    | committed _ _ _ _ | reported _ _ _ _ => cases conflict
  | promote receipt result next called answered =>
    cases answered with
    | already _ | refused _ _ | unbegun _ _ | late _ => rfl
    | promoted _ _ | uncleaned _ _ _ _ | reported _ _ _ => cases conflict

variable {error : PromotionError}

theorem requireExactPending_not_report {state : ReceiptState}
    (checked : requireExactPending state receipt = .error error) :
    (Answer.promote (.error error)).isConflict = true := by
  rw [requireExactPending] at checked
  cases head : state.head.pending with
  | none | some _ =>
    rw [head] at checked
    simp only [okOr, refuse, bind, Except.bind] at checked
    grind [Answer.isConflict]

theorem headOf_promote (isPending : chain.pending = some receipt) :
    headOf (chain.promote receipt isPending) = DurableState.promoted.headFor receipt := rfl

theorem headOf_pending (isPending : chain.pending = some receipt) :
    headOf chain = DurableState.pending.headFor receipt := by
  rw [headOf, isPending, DurableState.headFor, predecessor_of_pending isPending]
  rfl

/-- An answer is a conflict, a failure of the database, or the classified end of a commit. -/
theorem PromoteAnswer.error_cases (answered : PromoteAnswer environment chain receipt (.error error) next) :
    (Answer.promote (.error error)).isConflict = true ∨ (∃ failure, error = .database failure) ∨
      (∃ report cleanup, error = .commitReportCleanup report cleanup) ∨
      ∃ durable source, error = .commitReport durable source ∧ headOf next = durable.headFor receipt := by
  cases answered with
  | refused error checked => exact .inl (requireExactPending_not_report checked)
  | unbegun failure begun => exact .inr (.inl ⟨failure, rfl⟩)
  | late isLate =>
    cases environment.rollbackFailure with
    | none => exact .inl rfl
    | some failure => exact .inr (.inl ⟨failure, rfl⟩)
  | uncleaned isPending failure cleanup committed => exact .inr (.inr (.inl ⟨failure.error, cleanup, rfl⟩))
  | reported isPending failure committed =>
    refine .inr (.inr (.inr ⟨_, failure.error, rfl, ?_⟩))
    cases failure.durable with
    | true => exact headOf_promote isPending
    | false => exact headOf_pending isPending

theorem Answers.promote_error (called : event.call = .promote receipt)
    (answers : Answers event chain (.promote (.error error)) next) :
    PromoteAnswer event.environment chain receipt (.error error) next := by
  cases answers with
  | promote known result next knownCall answered =>
    rw [called] at knownCall
    cases knownCall
    exact answered

theorem Answers.classified (answers : Answers event chain answer next) :
    answer.isClassified = true := by
  cases answers with
  | stage receipt result next called answered => rfl
  | promote receipt result next called answered =>
    cases result with
    | ok outcome => rfl
    | error error =>
      rcases answered.error_cases with conflict | ⟨_, rfl⟩ | ⟨_, _, rfl⟩ | ⟨_, _, rfl, _⟩
      · cases error <;> first | rfl | cases conflict
      · rfl
      · rfl
      · rfl

theorem Answers.settles (answers : Answers event chain answer next) (changed : next ≠ chain) :
    (∃ receipt persisted, event.call = .stage receipt ∧ SameStored persisted receipt ∧ next.Settled persisted) ∨
    ∃ receipt, event.call = .promote receipt ∧ receipt ∈ next.items ∧ receipt.fingerprint ∈ next.commits := by
  cases answers with
  | stage receipt result next called answered =>
    cases answered.stages with
    | stay => exact absurd rfl changed
    | stage persisted same admits =>
      refine .inl ⟨receipt, persisted, called, same, ?_, .inl rfl⟩
      exact mem_append_right _ (mem_singleton_self _)
  | promote receipt result next called answered =>
    rcases answered.promotes with same | ⟨isPending, same⟩
    · exact absurd same changed
    · subst same
      exact .inr ⟨receipt, called, chain.pendingStored receipt isPending, mem_cons_self⟩

section

variable (represents : Represents device sha256 fromSlice chain database)
include represents

theorem Represents.run (events : List Event) :
    ∃ final, Represents device sha256 fromSlice final (run device sha256 fromSlice database events) ∧
      chain.Reaches final ∧
      final.commits = (commitLog device sha256 fromSlice database events).reverse ++ chain.commits := by
  induction events generalizing chain database with
  | nil => exact ⟨chain, represents, .refl, rfl⟩
  | cons event events ih =>
    obtain ⟨next, answered, holds⟩ := represents.answers event
    obtain ⟨final, holdsFinal, reaches, commits⟩ := ih holds
    refine ⟨final, holdsFinal, .head answered.step reaches, ?_⟩
    rw [commits, commitLog, holds.committedHead, represents.committedHead]
    rcases answered.step.commits with same | ⟨key, added, isNew⟩
    · simp [same]
    · simp [added, Ne.symm isNew]

theorem Represents.sound : Sound device sha256 fromSlice database where
  oneHead := ⟨headRow (headOf chain), by rw [represents.tables]; rfl⟩
  loads := ⟨_, represents.loadReceiptState⟩
  committedStored fingerprint isCommitted := by
    rw [represents.committedHead] at isCommitted
    obtain ⟨item, member, same⟩ := chain.committed_stored (mem_of_head? isCommitted)
    change item.fingerprint = fingerprint at same
    exact ⟨item, same ▸ represents.loadReceipt member, same⟩
  pendingStored fingerprint isPending := by
    rw [represents.pendingHead] at isPending
    obtain ⟨item, known, same⟩ := Option.map_eq_some_iff.mp isPending
    exact ⟨item, same ▸ represents.loadReceipt (chain.pendingStored item known), same⟩
  oneForTransition := by
    have distinct := chain.distinctOwners.map (f := transitionToSql) fun _ _ => transitionToSql_inj.mp
    rw [represents.tables]
    simpa [tablesOf, receiptRow, Function.comp_def, chainKeys] using distinct
  oneForFingerprint := by
    have distinct := chain.distinctKeys.map (f := fingerprintToSql) fun _ _ => fingerprintToSql_inj.mp
    rw [represents.tables]
    simpa [tablesOf, receiptRow, Function.comp_def, chainKeys] using distinct

theorem Represents.linearLog {log : List ReceiptFingerprint} (commits : chain.commits = log.reverse) :
    LinearLog device sha256 fromSlice database log where
  distinct := by
    rw [← nodup_reverse, ← commits]
    exact chain.distinctCommits
  newest := by rw [represents.committedHead, commits, head?_reverse]
  linked older fingerprint newer split := by
    have reversed : chain.commits = newer.reverse ++ fingerprint :: older.reverse := by
      rw [commits, split]
      simp
    obtain ⟨item, member, same, follows⟩ := chain.linked _ _ _ reversed
    change item.fingerprint = fingerprint at same
    refine ⟨item, same ▸ represents.loadReceipt member, same, ?_⟩
    rw [← head?_reverse]
    exact follows

theorem Represents.unchanged {after : Database}
    (holds : Represents device sha256 fromSlice chain after) : after = database := by
  rw [holds.tables, represents.tables]

theorem Represents.careful (event : Event) : Careful device sha256 fromSlice database event := by
  obtain ⟨next, answers, holds⟩ := represents.answers event
  refine ⟨?_, ?_, ?_, ?_⟩
  · have stay := answers.step.items_stay.map receiptRow
    rw [holds.tables, represents.tables]
    exact stay
  · intro conflict
    have same := answers.conflict_stays conflict
    subst same
    exact represents.unchanged holds
  · intro receipt durable source called answered
    rw [answered] at answers
    rw [holds.loadReceiptHead]
    rcases (answers.promote_error called).error_cases with
      conflict | ⟨_, isDatabase⟩ | ⟨_, _, isCleanup⟩ | ⟨_, _, isReport, actual⟩
    · cases conflict
    · cases isDatabase
    · cases isCleanup
    · cases isReport
      rw [actual]
  · exact answers.classified

theorem Represents.repeats_stage (settled : chain.Settled persisted) (same : SameStored persisted receipt) :
    Repeats device sha256 fromSlice database (.stage receipt) := by
  have again := represents.stageReceipt_settled settled same
  constructor
  · intro environment
    refine exclusiveTx_unchanged ?_
    intro value after made
    rw [again] at made
    split at made
    · cases made
      rfl
    · cases made
  · rw [stageBootPublicationReceipt, again]
    split
    · rfl
    · rfl

theorem Represents.repeats (event : Event) (later : List Event)
    (changed : (event.step device sha256 fromSlice database).2 ≠ database) :
    Repeats device sha256 fromSlice
      (ReceiptStore.run device sha256 fromSlice (event.step device sha256 fromSlice database).2 later) event.call := by
  obtain ⟨next, answers, holds⟩ := represents.answers event
  obtain ⟨final, holdsFinal, reaches, commits⟩ := holds.run later
  have moved : next ≠ chain := by
    intro same
    subst same
    exact changed (represents.unchanged holds)
  rcases answers.settles moved with
    ⟨receipt, persisted, called, same, settled⟩ | ⟨receipt, called, member, committed⟩
  · rw [called]
    exact holdsFinal.repeats_stage (reaches.settled settled) same
  · rw [called]
    intro environment
    refine holdsFinal.promote_committed (reaches.items_stay.subset member) ?_ environment
    rw [commits]
    exact mem_append_right _ committed

end

/-- Every run of stagings and promotions from the empty database, however clients interleave
them and whatever commits are reported as failed. -/
theorem receipt_runs_are_linear (events : List Event) :
    Sound device sha256 fromSlice (ReceiptStore.run device sha256 fromSlice .initial events) ∧
    LinearLog device sha256 fromSlice (ReceiptStore.run device sha256 fromSlice .initial events)
      (commitLog device sha256 fromSlice .initial events) ∧
    (∀ event, Careful device sha256 fromSlice (ReceiptStore.run device sha256 fromSlice .initial events) event) ∧
    ∀ event later, (event.step device sha256 fromSlice (ReceiptStore.run device sha256 fromSlice .initial events)).2 ≠
          ReceiptStore.run device sha256 fromSlice .initial events →
      Repeats device sha256 fromSlice (ReceiptStore.run device sha256 fromSlice .initial (events ++ event :: later))
        event.call := by
  obtain ⟨chain, represents, _, commits⟩ := (@represents_initial device sha256 fromSlice).run events
  refine ⟨represents.sound, represents.linearLog ?_, represents.careful, ?_⟩
  · rw [commits]
    exact append_nil _
  · intro event later changed
    have repeated := represents.repeats event later changed
    rw [ReceiptStore.run, foldl_append]
    exact repeated

end Runs

section Sample

open InstalledDelta

def firstDigest (_ : List UInt8) : Vector UInt8 32 := firstFingerprint.bytes

def readFirst (_ : List UInt8) : Except String ReceiptBody := .ok (kernelReceipt none 0 .unclaimedAbsent)

def firstReceipt : CanonicalReceipt :=
  canonicalReceipt firstDigest (kernelReceipt none 0 .unclaimedAbsent) (kernelReceipt none 0 .unclaimedAbsent).toVec

theorem firstReceipt_decodes : Decodes linuxDeviceNumbers firstDigest readFirst firstReceipt where
  decoded := decodeReceipt_eq_ok.mpr
    ⟨_, rfl, rfl, prepareReceipt_eq_ok.mpr ⟨kernelReceipt_valid none 0 .unclaimedAbsent, rfl⟩⟩
  sized := by
    have short := ReceiptBody.length_toVec_le (kernelReceipt_valid none 0 .unclaimedAbsent)
    have filled : 0 < firstReceipt.canonicalBody.length := by
      simp [firstReceipt, canonicalReceipt, ReceiptBody.toVec, jsonObject]
    simp only [bodyLengthAllowed, Bool.and_eq_true, decide_eq_true_eq]
    exact ⟨filled, short⟩

theorem firstReceipt_admitted : (HeadChain.empty : Chain).Admits firstReceipt where
  unpended := rfl
  follows := rfl
  newKey := not_mem_nil
  newOwner := not_mem_nil

def firstChain : Chain := (HeadChain.empty.stage firstReceipt firstReceipt_admitted).promote firstReceipt rfl

def firstEvents : List Event := [⟨.stage firstReceipt, .calm⟩, ⟨.promote firstReceipt, .calm⟩]

theorem firstReceipt_staged : stageBootPublicationReceipt linuxDeviceNumbers firstDigest readFirst .calm .initial
        firstReceipt =
      (.ok .staged, tablesOf (HeadChain.empty.stage firstReceipt firstReceipt_admitted)) :=
  represents_initial.stage_calm firstReceipt_decodes firstReceipt_admitted

theorem firstEvents_run : run linuxDeviceNumbers firstDigest readFirst .initial firstEvents = tablesOf firstChain := by
  have staged := represents_initial.stage firstReceipt_decodes firstReceipt_admitted
  rw [run, firstEvents, foldl_cons, foldl_cons, foldl_nil, Event.step, Event.step]
  dsimp only
  rw [firstReceipt_staged, staged.promote_calm rfl]
  rfl

/-- A staging that took effect is refused when it is repeated after the promotion. -/
theorem restaged_after_promotion_refused :
    (stageBootPublicationReceipt linuxDeviceNumbers firstDigest readFirst .calm .initial firstReceipt).1 = .ok .staged ∧
    stageBootPublicationReceipt linuxDeviceNumbers firstDigest readFirst .calm
        (run linuxDeviceNumbers firstDigest readFirst .initial firstEvents) firstReceipt =
      (.error (.committedMismatch none (some firstFingerprint)),
        run linuxDeviceNumbers firstDigest readFirst .initial firstEvents) := by
  have staged := represents_initial.stage firstReceipt_decodes firstReceipt_admitted
  have moved : firstReceipt.body.committedPredecessor ≠ firstChain.commits.head? := by
    intro same
    cases same
  have refused := (staged.promote rfl).stageReceipt_mismatch moved
  rw [firstReceipt_staged, firstEvents_run, stageBootPublicationReceipt]
  refine ⟨rfl, ?_⟩
  rw [firstChain, refused]
  rfl

end Sample

end Cast.BootPublication.ReceiptStore
