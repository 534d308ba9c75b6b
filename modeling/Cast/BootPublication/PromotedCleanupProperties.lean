import Cast.BootPublication.PromotedCleanup
import Cast.BootPublication.StagedPublication

/-! The cleanup of a promoted publication against the publication itself. Of a staged
publication the cleanup can always join the two receipts, so it succeeds exactly when
every output of the predecessor can be classified. That fails for an output that is
desired again and was found absent, and for a borrowed one whose bytes changed. -/

namespace Cast.BootPublication.PromotedCleanup

open Foundation InstalledDelta List

variable {aliasesEsp : Bool} {device : DeviceNumbers} {predecessor : Option ReceiptBody}
  {destinations : Destinations} {desired : List DesiredOutput} {states : List DestinationState}
  {output other : Output} {disposition : CleanupDisposition} {schedule : List EffectScheduleEntry}
  {key : CollisionKey} {wanted : DesiredOutput} {state : DestinationState}

section Union

variable {installed seen : List Output} {union : PhysicalOutputUnion}

/-- The entry of a key from what each receipt has there. -/
def joinPair : Option (Nat × Output) → Option (Nat × Output) → Option PhysicalOutputPair
  | none, none => none
  | predecessor, installed => some ⟨predecessor, installed⟩

def rowOf (aliasesEsp : Bool) (outputs : List Output) (key : CollisionKey) : Option (Nat × Output) :=
  rowAt (physicalKey aliasesEsp) outputs key

structure Paired (aliasesEsp : Bool) (installed seen : List Output) (union : PhysicalOutputUnion) :
    Prop where
  lookup : ∀ key, union.find? key = joinPair (rowOf aliasesEsp seen key) (rowOf aliasesEsp installed key)

theorem insertInstalledOutputs_paired (distinct : (installed.map (physicalKey aliasesEsp)).Nodup) :
    ∃ union, insertInstalledOutputs aliasesEsp installed = .ok union ∧ Paired aliasesEsp installed [] union := by
  obtain ⟨union, inserted⟩ : ∃ union, insertInstalledOutputs aliasesEsp installed = .ok union :=
    insertDistinct_total Fills.nil distinct
  have fills := insertDistinct_fills Fills.nil inserted
  refine ⟨union, inserted, ⟨?_⟩⟩
  intro key
  rw [fills.lookup, nil_append]
  cases found : rowAt (physicalKey aliasesEsp) installed key with
  | none | some _ => simp [rowOf, found, joinPair]

/-- The two outputs of one key differ in nothing but bytes and claim. -/
structure SamePath (predecessor installed : Output) : Prop where
  root : predecessor.root = installed.root
  path : predecessor.relativePath = installed.relativePath
  phase : predecessor.phase = installed.phase
  role : predecessor.role = installed.role
  mode : predecessor.mode = installed.mode

theorem SamePath.required {predecessor : Output} (same : SamePath predecessor other)
    (index otherIndex : Nat) : requireSamePathSemantics index predecessor otherIndex other = .ok () := by
  simp [requireSamePathSemantics, refuse_eq_ok, same.root, same.path, same.phase, same.role, same.mode]

section

variable (paired : Paired aliasesEsp installed seen union)
include paired

theorem Paired.extend (fresh : rowOf aliasesEsp seen (physicalKey aliasesEsp output) = none) :
    Paired aliasesEsp installed (seen ++ [output])
      (union.insert (physicalKey aliasesEsp output) ⟨some (seen.length, output),
        rowOf aliasesEsp installed (physicalKey aliasesEsp output)⟩) where
  lookup key := by
    by_cases same : physicalKey aliasesEsp output = key
    · subst same
      have here : rowOf aliasesEsp (seen ++ [output]) (physicalKey aliasesEsp output) = some (seen.length, output) := by
        rw [rowOf, rowAt_append_singleton, ← rowOf, fresh, if_pos rfl]
        rfl
      rw [SortedMap.find?_insert_self, here]
      rfl
    · have elsewhere : rowOf aliasesEsp (seen ++ [output]) key = rowOf aliasesEsp seen key := by
        rw [rowOf, rowAt_append_singleton, if_neg same, Option.or_none, rowOf]
      rw [SortedMap.find?_insert_of_ne (Ne.symm same), elsewhere, paired.lookup]

theorem Paired.insertPredecessorOutput (fresh : rowOf aliasesEsp seen (physicalKey aliasesEsp output) = none)
    (same : ∀ row, rowOf aliasesEsp installed (physicalKey aliasesEsp output) = some row → SamePath output row.2) :
    insertPredecessorOutput aliasesEsp seen.length union output =
      .ok (union.insert (physicalKey aliasesEsp output) ⟨some (seen.length, output),
          rowOf aliasesEsp installed (physicalKey aliasesEsp output)⟩,
        (rowOf aliasesEsp installed (physicalKey aliasesEsp output)).map Prod.fst) := by
  have looked := paired.lookup (physicalKey aliasesEsp output)
  rw [fresh] at looked
  cases found : rowOf aliasesEsp installed (physicalKey aliasesEsp output) with
  | none =>
    rw [found] at looked
    simp only [PromotedCleanup.insertPredecessorOutput, looked, joinPair, Option.map_none]
  | some row =>
    rw [found] at looked
    obtain ⟨index, other⟩ := row
    have required := (same _ found).required seen.length index
    simp [PromotedCleanup.insertPredecessorOutput, looked, joinPair, refuse, okOr, required, bind,
      Except.bind, pure, Except.pure]

theorem Paired.insertPredecessorOutputs {rest : List Output}
    (distinct : ((seen ++ rest).map (physicalKey aliasesEsp)).Nodup)
    (same : ∀ output ∈ rest, ∀ row,
      rowOf aliasesEsp installed (physicalKey aliasesEsp output) = some row → SamePath output row.2) :
    ∃ final, insertPredecessorOutputs aliasesEsp seen.length union rest = .ok (final, rest.map fun output =>
          (rowOf aliasesEsp installed (physicalKey aliasesEsp output)).map Prod.fst) ∧
      Paired aliasesEsp installed (seen ++ rest) final := by
  induction rest generalizing seen union with
  | nil =>
    rw [append_nil]
    exact ⟨union, rfl, paired⟩
  | cons output rest ih =>
    rw [forall_mem_cons] at same
    have arranged : seen ++ output :: rest = (seen ++ [output]) ++ rest := by simp
    have fresh : rowOf aliasesEsp seen (physicalKey aliasesEsp output) = none := by
      rw [rowOf, rowAt_eq_none]
      intro known member equal
      rw [map_append, nodup_append] at distinct
      exact distinct.2.2 _ (mem_map_of_mem member) _ (mem_map_of_mem mem_cons_self) equal
    have first := paired.insertPredecessorOutput fresh same.1
    rw [arranged] at distinct ⊢
    obtain ⟨final, later, tracked⟩ := ih (paired.extend fresh) distinct same.2
    rw [length_append, length_singleton] at later
    refine ⟨final, ?_, tracked⟩
    simp only [PromotedCleanup.insertPredecessorOutputs, bind_eq_ok, pure_eq_ok]
    exact ⟨_, first, _, later, rfl⟩

end

end Union

theorem asU128_fromU128 (value : BitVec 128) : Xxh3.asU128 (Xxh3.fromU128 value) = value := by
  have bounded : value.toNat < 256 ^ 16 := value.isLt
  simp [Xxh3.asU128, Xxh3.fromU128, fromBigEndian_toBigEndian bounded]

theorem asU128_injective {left right : Xxh3} (same : Xxh3.asU128 left = Xxh3.asU128 right) :
    left = right := by
  have below (digest : Xxh3) : fromBigEndian digest.bytes.toList < 2 ^ 128 := by
    have bounded := fromBigEndian_lt digest.bytes.toList
    rwa [Vector.length_toList] at bounded
  have values := congrArg BitVec.toNat same
  rw [Xxh3.asU128, Xxh3.asU128, BitVec.toNat_ofNat, BitVec.toNat_ofNat,
    Nat.mod_eq_of_lt (below left), Nat.mod_eq_of_lt (below right)] at values
  have bytes : left.bytes = right.bytes := Vector.toList_inj.mp (fromBigEndian_injective (by simp) values)
  cases left
  cases right
  cases bytes
  rfl

theorem exactBytes_receiptOutput {desired : DesiredOutput} {claim : OutputProvenanceClaim} :
    exactBytes output (receiptOutput desired claim) ↔ installedExpected output = desiredExpected desired := by
  have digests : output.xxh3 = Xxh3.fromU128 desired.checksum ↔ Xxh3.asU128 output.xxh3 = desired.checksum := by
    constructor
    · intro same
      rw [same, asU128_fromU128]
    · intro same
      exact asU128_injective (by rw [same, asU128_fromU128])
  simp only [exactBytes, receiptOutput, installedExpected, desiredExpected, Expected.mk.injEq, digests]
  exact and_left_comm

section Classification

variable {predecessor : Output} {index : Nat}

def dispositionOf (predecessor : Output) : Option Output → Option CleanupDisposition
  | none =>
    some (if claimIsOwned predecessor.provenanceClaim then .deleteOwnedStale
      else .preserveUnownedStale)
  | some installed =>
    if exactBytes predecessor installed then
      if installed.provenanceClaim = retainedClaim predecessor then some .noOp else none
    else if claimIsOwned predecessor.provenanceClaim = true ∧
        installed.provenanceClaim = .claimedPublishedByCast then some .replaceOwned
    else none

theorem classifyPredecessorOutput_eq_ok {row : Option (Nat × Output)} :
    classifyPredecessorOutput index predecessor row = .ok disposition ↔
      dispositionOf predecessor (row.map Prod.snd) = some disposition := by
  cases row with
  | none => simp [classifyPredecessorOutput, dispositionOf]
  | some row =>
    obtain ⟨position, installed⟩ := row
    by_cases exact : exactBytes predecessor installed
    · simp only [classifyPredecessorOutput, dispositionOf, Option.map_some, if_pos exact,
        bind_eq_ok, exists_check, refuse_eq_ok, pure_eq_ok, not_not]
      by_cases kept : installed.provenanceClaim = retainedClaim predecessor <;> simp [kept]
    · simp only [classifyPredecessorOutput, dispositionOf, Option.map_some, if_neg exact,
        bind_eq_ok, exists_check, refuse_eq_ok, pure_eq_ok, not_not, Bool.not_eq_false]
      by_cases owned : claimIsOwned predecessor.provenanceClaim = true <;>
        by_cases claimed : installed.provenanceClaim = .claimedPublishedByCast <;>
        simp [owned, claimed]

theorem matchedOutput_row {installed : List Output} :
    matchedOutput installed ((rowOf aliasesEsp installed key).map Prod.fst) = .ok (rowOf aliasesEsp installed key) := by
  cases found : rowOf aliasesEsp installed key with
  | none => rfl
  | some row =>
    obtain ⟨index, output⟩ := row
    have looked := (rowAt_eq_some found).1
    simp [matchedOutput, looked, okOr, bind, Except.bind, pure, Except.pure]

/-- The installed output of the key of an output. -/
def successor (aliasesEsp : Bool) (installed : List Output) (predecessor : Output) : Option Output :=
  (rowOf aliasesEsp installed (physicalKey aliasesEsp predecessor)).map Prod.snd

structure PlannedFor (aliasesEsp : Bool) (installed : List Output) (predecessor : Output)
    (entry : CleanupPlanEntry) : Prop where
  classifies : entry.predecessorOutput = predecessor
  successor : entry.installedOutput = successor aliasesEsp installed predecessor
  disposition : dispositionOf predecessor (PromotedCleanup.successor aliasesEsp installed predecessor) =
    some entry.disposition

theorem classifyPredecessorOutputs_eq_ok {installed outputs : List Output} {entries : List CleanupPlanEntry} :
    classifyPredecessorOutputs installed index (outputs.zip (outputs.map fun output =>
        (rowOf aliasesEsp installed (physicalKey aliasesEsp output)).map Prod.fst)) = .ok entries ↔
      Forall₂ (PlannedFor aliasesEsp installed) outputs entries := by
  induction outputs generalizing index entries with
  | nil => simp [classifyPredecessorOutputs, eq_comm]
  | cons output rest ih =>
    simp only [map_cons, zip_cons_cons, classifyPredecessorOutputs, matchedOutput_row,
      bind_eq_ok, pure_eq_ok, Except.ok.injEq, exists_eq_left', classifyPredecessorOutput_eq_ok, ih,
      forall₂_cons_left_iff]
    constructor
    · intro classified
      obtain ⟨disposition, decided, others, later, same⟩ := classified
      refine ⟨⟨disposition, output, successor aliasesEsp installed output⟩, others, ?_, later, same.symm⟩
      exact ⟨rfl, rfl, decided⟩
    · intro planned
      obtain ⟨⟨disposition, first, second⟩, others, here, later, same⟩ := planned
      obtain ⟨classifies, found, decided⟩ := here
      simp only at classifies found
      subst classifies found
      exact ⟨disposition, decided, others, later, same.symm⟩

end Classification

theorem requireCurrentOnlyProvenance_eq_ok {pairs : List PhysicalOutputPair} :
    requireCurrentOnlyProvenance pairs = .ok () ↔ ∀ pair ∈ pairs, pair.predecessor = none →
        ∃ row, pair.installed = some row ∧ row.2.provenanceClaim ≠ .claimedPublishedByCast := by
  induction pairs with
  | nil => simp [requireCurrentOnlyProvenance]
  | cons pair rest ih =>
    rw [forall_mem_cons, ← ih]
    cases known : pair.predecessor with
    | some row => simp [requireCurrentOnlyProvenance, known]
    | none =>
      simp only [requireCurrentOnlyProvenance, known, Option.isSome_none, Bool.false_eq_true,
        if_false, bind_eq_ok, exists_check, okOr_eq_ok, refuse_eq_ok, forall_const, ← exists_and_right,
        and_assoc]

theorem joinPair_isSome {first second : Option (Nat × Output)} :
    (joinPair first second).isSome = true ↔ first.isSome = true ∨ second.isSome = true := by
  cases first <;> cases second <;> simp [joinPair]

theorem joinPair_unpreceded {first second : Option (Nat × Output)} {pair : PhysicalOutputPair}
    (found : joinPair first second = some pair) (unpreceded : pair.predecessor = none) :
    first = none ∧ ∃ row, second = some row ∧ pair.installed = some row := by
  cases first <;> cases second <;> cases found <;> cases unpreceded
  exact ⟨rfl, _, rfl, rfl⟩

theorem requireStableDestinationMatch_of_matches {destination : String} {first second : Destination}
    (same : destinationMatches first second = true) :
    requireStableDestinationMatch destination first second = .ok () := by
  rw [destinationMatches, Bool.and_eq_true, beq_iff_eq, beq_iff_eq] at same
  simp [requireStableDestinationMatch, refuse_eq_ok, same.1, same.2]

theorem requireStableDestinationsMatch_of_match {first second : Destinations}
    (same : destinationsMatch first second = true) :
    requireStableDestinationsMatch first second = .ok () := by
  cases first <;> cases second <;> try cases same
  · exact requireStableDestinationMatch_of_matches same
  · rw [destinationsMatch, Bool.and_eq_true] at same
    simp only [requireStableDestinationsMatch, bind_eq_ok, exists_check]
    exact ⟨requireStableDestinationMatch_of_matches same.1, requireStableDestinationMatch_of_matches same.2⟩

theorem physicalKey_eq_installedKey (destinations : Destinations) :
    physicalKey destinations.aliasesEsp = installedKey (layoutOf destinations) := by
  funext output
  have domain : collisionDomain destinations.aliasesEsp output.root = (layoutOf destinations).forRoot output.root := by
    cases destinations <;> cases output.root <;> rfl
  rw [physicalKey, domain]
  rfl

theorem mode_of_valid {body : ReceiptBody} (valid : body.validate device = .ok ()) (member : output ∈ body.outputs) :
    output.mode = canonicalActiveReblitOutputMode := by
  obtain ⟨_, _, _, _, _, scanned⟩ := ReceiptBody.validate_eq_ok.mp valid
  obtain ⟨index, found⟩ := mem_iff_getElem?.mp member
  have checked := scanned.valid index output found
  simp only [Output.validate, bind_eq_ok, exists_check, refuse_eq_ok, not_not] at checked
  exact checked.2.1

section Staged

/-- The desired output, with its live state, that takes the place of an output. -/
def Shares (destinations : Destinations) (desired : List DesiredOutput)
    (states : List DestinationState) (output : Output) (wanted : DesiredOutput)
    (state : DestinationState) : Prop :=
  ∃ index : Nat, desired[index]? = some wanted ∧ states[index]? = some state ∧
    desiredKey (layoutOf destinations) wanted = installedKey (layoutOf destinations) output

/-- The two receipts of a chain are the staged one and the one it was staged against. -/
structure Promotes (staged : Staged device predecessor destinations desired states)
    (chain : PromotedReceiptChain) : Prop where
  installed : chain.installedReceipt.body = staged.receipt
  preceding : chain.committedPredecessorReceipt.map (·.body) = predecessor

variable (staged : Staged device predecessor destinations desired states)

theorem rowOf_receipt_eq_none : rowOf destinations.aliasesEsp staged.receipt.outputs key = none ↔
      desiredAt (layoutOf destinations) desired key = none := by
  have absent {α : Type} (keyOf : α → CollisionKey) (items : List α) :
      rowAt keyOf items key = none ↔ key ∉ items.map keyOf := by
    simp [rowAt_eq_none]
  rw [desiredAt, Option.map_eq_none_iff, absent, ← staged.receipt_keys, rowOf, absent, physicalKey_eq_installedKey]

theorem rowOf_installed_eq_none : rowOf destinations.aliasesEsp (installedOutputs predecessor) key = none ↔
      installedAt (layoutOf destinations) (installedOutputs predecessor) key = none := by
  rw [installedAt, Option.map_eq_none_iff, rowOf, physicalKey_eq_installedKey]

/-- What a staged publication made of the output that takes the place of another. -/
structure Succession (destinations : Destinations) (desired : List DesiredOutput)
    (states : List DestinationState) (output : Output) (wanted : DesiredOutput)
    (state : DestinationState) (action : DeltaAction) (other : Output) : Prop where
  shares : Shares destinations desired states output wanted state
  same : SameOutput output wanted
  acted : desiredAction (installedClaimIsOwned output.provenanceClaim) state = some action
  made : ∃ claim, receiptClaimForDesiredAction action = some claim ∧ other = receiptOutput wanted claim

include staged in
theorem ownedAt_of_mem (installed : output ∈ installedOutputs predecessor) :
    ownedAt (layoutOf destinations) (installedOutputs predecessor) (installedKey (layoutOf destinations) output) =
      installedClaimIsOwned output.provenanceClaim := by
  obtain ⟨union, joined, _, _⟩ := staged.joined
  rw [ownedAt, installedAt_of_mem joined.installedKeys installed]
  rfl

variable (valid : ∀ receipt, predecessor = some receipt → receipt.validate device = .ok ()) {row : Nat × Output}

theorem succession_of_row (installed : output ∈ installedOutputs predecessor)
    (found : rowOf destinations.aliasesEsp staged.receipt.outputs
      (installedKey (layoutOf destinations) output) = some row) :
    ∃ wanted state action, Succession destinations desired states output wanted state action row.2 := by
  obtain ⟨index, other⟩ := row
  obtain ⟨place, sameKey⟩ := rowAt_eq_some found
  obtain ⟨wanted, state, action, claim, isWanted, live, acted, claimed, made⟩ := staged.output_origin place
  have key : desiredKey (layoutOf destinations) wanted = installedKey (layoutOf destinations) output := by
    rw [physicalKey_eq_installedKey, made] at sameKey
    exact sameKey
  obtain ⟨union, joined, _, _⟩ := staged.joined
  have present := desiredAt_of_mem joined.desiredKeys (mem_of_getElem? isWanted)
  rw [key] at present
  rw [key, ownedAt_of_mem staged installed] at acted
  exact ⟨wanted, state, action, ⟨index, isWanted, live, key⟩,
    joined.agree _ _ _ (installedAt_of_mem joined.installedKeys installed) present, acted, claim,
    claimed, made⟩

include staged in
theorem shares_unique {other : DesiredOutput} {otherState : DestinationState}
    (first : Shares destinations desired states output wanted state)
    (second : Shares destinations desired states output other otherState) :
    other = wanted ∧ otherState = state := by
  obtain ⟨index, isWanted, live, key⟩ := first
  obtain ⟨position, isOther, otherLive, otherKey⟩ := second
  obtain ⟨union, joined, _, _⟩ := staged.joined
  have here := rowAt_of_getElem? joined.desiredKeys isWanted
  have there := rowAt_of_getElem? joined.desiredKeys isOther
  rw [key, ← otherKey, there] at here
  cases here
  rw [live] at otherLive
  exact ⟨rfl, (Option.some.inj otherLive).symm⟩

include valid in
theorem samePath_of_row (installed : output ∈ installedOutputs predecessor)
    (found : rowOf destinations.aliasesEsp staged.receipt.outputs
      (physicalKey destinations.aliasesEsp output) = some row) :
    SamePath output row.2 := by
  have otherMode : row.2.mode = canonicalActiveReblitOutputMode :=
    mode_of_valid staged.completed_facts.2.2.2 (mem_of_getElem? (rowAt_eq_some found).1)
  have mode : output.mode = canonicalActiveReblitOutputMode := by
    cases known : predecessor with
    | none =>
      rw [known] at installed
      cases installed
    | some receipt =>
      rw [known] at installed
      exact mode_of_valid (valid receipt known) installed
  rw [physicalKey_eq_installedKey] at found
  obtain ⟨wanted, state, action, succession⟩ := succession_of_row staged installed found
  obtain ⟨claim, _, made⟩ := succession.made
  have same := succession.same
  rw [made] at otherMode ⊢
  exact ⟨same.root, same.path, same.phase, same.role, mode.trans otherMode.symm⟩

/-- Only an output that was owned before is claimed as published before. -/
theorem current_only_unclaimed (absent : rowOf destinations.aliasesEsp (installedOutputs predecessor) key = none)
    (found : rowOf destinations.aliasesEsp staged.receipt.outputs key = some row) :
    row.2.provenanceClaim ≠ .claimedPublishedByCast := by
  obtain ⟨index, other⟩ := row
  obtain ⟨place, sameKey⟩ := rowAt_eq_some found
  obtain ⟨wanted, state, action, claim, _, _, acted, claimed, made⟩ := staged.output_origin place
  rw [physicalKey_eq_installedKey, made] at sameKey
  change desiredKey (layoutOf destinations) wanted = key at sameKey
  rw [rowOf_installed_eq_none] at absent
  rw [sameKey, ownedAt, absent] at acted
  rw [made]
  change claim ≠ .claimedPublishedByCast
  cases state with
  | absent | exact =>
    cases acted
    cases claimed
    decide
  | different => cases acted

include valid in
theorem receipts_join :
    ∃ start union, insertInstalledOutputs destinations.aliasesEsp staged.receipt.outputs = .ok start ∧
      insertPredecessorOutputs destinations.aliasesEsp 0 start (installedOutputs predecessor) =
        .ok (union, (installedOutputs predecessor).map fun output =>
          (rowOf destinations.aliasesEsp staged.receipt.outputs
            (physicalKey destinations.aliasesEsp output)).map Prod.fst) ∧
      requireNoUnionHierarchyConflicts union = .ok () ∧
      requireCurrentOnlyProvenance (union.entries.map (·.2)) = .ok () := by
  obtain ⟨deltaUnion, joined, flat, _⟩ := staged.joined
  have receiptKeys : (staged.receipt.outputs.map (physicalKey destinations.aliasesEsp)).Nodup := by
    rw [physicalKey_eq_installedKey, staged.receipt_keys]
    exact joined.desiredKeys
  have installedKeys : (([] ++ installedOutputs predecessor).map (physicalKey destinations.aliasesEsp)).Nodup := by
    rw [physicalKey_eq_installedKey]
    exact joined.installedKeys
  obtain ⟨start, inserted, paired⟩ := insertInstalledOutputs_paired receiptKeys
  obtain ⟨union, extended, pairs⟩ := paired.insertPredecessorOutputs installedKeys
    fun output installed row found => samePath_of_row staged valid installed found
  rw [nil_append] at pairs
  refine ⟨start, union, inserted, extended, ?_, ?_⟩
  · -- Both unions have the same keys.
    have taken (key : CollisionKey) : (union.find? key).isSome = true ↔ (deltaUnion.find? key).isSome = true := by
      rw [pairs.lookup, joinPair_isSome, joined.lookup, joinSides_isSome,
        Option.isSome_iff_ne_none, Option.isSome_iff_ne_none, Option.isSome_iff_ne_none,
        Option.isSome_iff_ne_none]
      exact or_congr (not_congr rowOf_installed_eq_none) (not_congr (rowOf_receipt_eq_none staged))
    rw [requireNoUnionHierarchyConflicts, refuse_eq_ok, any_hasTakenAncestor_iff]
    intro key ancestor isTaken below ancestorTaken
    exact flat key ancestor ((taken key).mp isTaken) below ((taken _).mp ancestorTaken)
  · rw [requireCurrentOnlyProvenance_eq_ok]
    intro pair member unpreceded
    obtain ⟨entry, entryMember, same⟩ := mem_map.mp member
    have looked := pairs.lookup entry.1
    rw [SortedMap.find?_eq_some_iff.mpr entryMember, same] at looked
    obtain ⟨absent, row, found, isRow⟩ := joinPair_unpreceded looked.symm unpreceded
    exact ⟨row, isRow, current_only_unclaimed staged absent found⟩

variable {chain : PromotedReceiptChain}

theorem predecessorOutputs_eq (preceding : chain.committedPredecessorReceipt.map (·.body) = predecessor) :
    (chain.committedPredecessorReceipt.map (·.body.outputs)).getD [] = installedOutputs predecessor := by
  rw [installedOutputs, ← preceding, Option.map_map]
  rfl

include valid in
/-- Of a staged publication only the classification of the outputs can fail. -/
theorem prepare_eq_classify (promotes : Promotes staged chain) :
    prepareActiveReblitPromotedBootCleanupPlan chain = do
      let entries ← classifyPredecessorOutputs staged.receipt.outputs 0
        ((installedOutputs predecessor).zip ((installedOutputs predecessor).map fun output =>
          (rowOf destinations.aliasesEsp staged.receipt.outputs
            (physicalKey destinations.aliasesEsp output)).map Prod.fst))
      return ⟨chain.installedReceipt.fingerprint, entries⟩ := by
  obtain ⟨start, union, inserted, extended, flat, unclaimed⟩ := receipts_join staged valid
  obtain ⟨_, sameDestinations, _, receiptValid⟩ := staged.completed_facts
  have stable (receipt : CanonicalReceipt) (known : chain.committedPredecessorReceipt = some receipt) :
      requireStableDestinationsMatch receipt.body.destinations destinations = .ok () := by
    refine requireStableDestinationsMatch_of_match (staged.destinations_match ?_)
    rw [← promotes.preceding, known]
    rfl
  have few : staged.receipt.outputs.length + (installedOutputs predecessor).length ≤
      maxPromotedBootCleanupUnionOutputs := by
    have receiptCount := (ReceiptBody.validate_eq_ok.mp receiptValid).2.2.2.2.1
    have installedCount : (installedOutputs predecessor).length ≤ maxReceiptOutputs := by
      cases known : predecessor with
      | none => exact Nat.zero_le _
      | some receipt => exact (ReceiptBody.validate_eq_ok.mp (valid receipt known)).2.2.2.2.1
    exact Nat.le_trans (Nat.add_le_add receiptCount installedCount) (by decide)
  obtain ⟨capacity, added, within, -⟩ := (exists_checkedAdd (by decide) fun _ => True).mpr ⟨few, trivial⟩
  rw [prepareActiveReblitPromotedBootCleanupPlan, promotes.installed, sameDestinations,
    predecessorOutputs_eq promotes.preceding]
  cases known : chain.committedPredecessorReceipt with
  | none => simp only [added, okOr, refuse, within, if_false, inserted, extended, flat, unclaimed, ok_bind]
  | some receipt =>
    simp only [stable receipt known, added, okOr, refuse, within, if_false, inserted, extended,
      flat, unclaimed, ok_bind]

include valid in
theorem prepare_eq_ok (promotes : Promotes staged chain) {plan : CleanupPlan} :
    prepareActiveReblitPromotedBootCleanupPlan chain = .ok plan ↔
      ∃ entries, Forall₂ (PlannedFor destinations.aliasesEsp staged.receipt.outputs)
        (installedOutputs predecessor) entries ∧
      ⟨chain.installedReceipt.fingerprint, entries⟩ = plan := by
  rw [prepare_eq_classify staged valid promotes]
  simp only [bind_eq_ok, pure_eq_ok, classifyPredecessorOutputs_eq_ok]

end Staged

section Agreement

variable {action : DeltaAction}

def dispositionForAction : DeltaAction → Option CleanupDisposition
  | .retainOwnedDesired | .preserveBorrowedDesired => some .noOp
  | .replaceOwnedDesired => some .replaceOwned
  | .deleteOwnedStaleAfterPromotion => some .deleteOwnedStale
  | .preserveUnownedStale => some .preserveUnownedStale
  | .publishDesired => none

/-- The entry of an output has the disposition of the output's action. -/
def Agrees (entries : List ClassifiedEntry) (output : Output) (planned : CleanupPlanEntry) : Prop :=
  planned.predecessorOutput = output ∧
    ∃ entry ∈ entries, entry.root = output.root ∧ entry.relativePath = output.relativePath ∧
      dispositionForAction entry.action = some planned.disposition

/-- An output that is desired again was found, and if it is borrowed, with its bytes. -/
def Kept (output : Output) (wanted : DesiredOutput) (state : DestinationState) : Prop :=
  state ≠ .absent ∧ (installedClaimIsOwned output.provenanceClaim = false →
    installedExpected output = desiredExpected wanted)

/-- What the schedule checks of the bytes of an output that is desired again. -/
structure BytesFit (action : DeltaAction) (output : Output) (wanted : DesiredOutput) : Prop where
  retained : action = .retainOwnedDesired → installedExpected output = desiredExpected wanted
  replaced : action = .replaceOwnedDesired → installedExpected output ≠ desiredExpected wanted

theorem exists_dispositionForAction {owned : Bool}
    (acted : desiredAction owned state = some action) (present : state ≠ .absent) :
    ∃ disposition, dispositionForAction action = some disposition := by
  cases state with
  | absent => exact absurd rfl present
  | exact | different => cases owned <;> cases acted <;> exact ⟨_, rfl⟩

theorem claimIsOwned_eq (claim : OutputProvenanceClaim) :
    claimIsOwned claim = installedClaimIsOwned claim := by
  cases claim <;> rfl

theorem Succession.dispositionOf_iff
    (succession : Succession destinations desired states output wanted state action other)
    (fit : BytesFit action output wanted) :
    dispositionOf output (some other) = some disposition ↔
      Kept output wanted state ∧ dispositionForAction action = some disposition := by
  obtain ⟨claim, claimed, made⟩ := succession.made
  have acted := succession.acted
  rw [made]
  simp only [dispositionOf, exactBytes_receiptOutput, retainedClaim, claimIsOwned_eq, Kept]
  cases owned : installedClaimIsOwned output.provenanceClaim with
  | true =>
    rw [owned] at acted
    cases state with
    | absent =>
      cases acted
      cases claimed
      simp [receiptOutput]
    | exact =>
      cases acted
      cases claimed
      simp [receiptOutput, fit.retained rfl, dispositionForAction]
    | different =>
      cases acted
      cases claimed
      simp [receiptOutput, fit.replaced rfl, dispositionForAction]
  | false =>
    rw [owned] at acted
    cases state with
    | absent =>
      cases acted
      cases claimed
      simp [receiptOutput]
    | exact =>
      cases acted
      cases claimed
      by_cases same : installedExpected output = desiredExpected wanted <;>
        simp [receiptOutput, same, dispositionForAction]
    | different => cases acted

variable (staged : Staged device predecessor destinations desired states)
  (installed : output ∈ installedOutputs predecessor)

section

variable (succession : Succession destinations desired states output wanted state action other)
include installed succession

theorem Succession.delta_entry :
    ∃ entry ∈ staged.entries, entry.root = output.root ∧ entry.relativePath = output.relativePath ∧
      entry.installedExpected = some (installedExpected output) ∧ entry.action = action := by
  obtain ⟨index, isWanted, live, key⟩ := succession.shares
  obtain ⟨entry, member, root, path, expected, acted⟩ := staged.desired_entry isWanted live
  obtain ⟨union, joined, _, _⟩ := staged.joined
  rw [key, expectedAt, installedAt_of_mem joined.installedKeys installed] at expected
  rw [key, ownedAt_of_mem staged installed, succession.acted] at acted
  have same := succession.same
  exact ⟨entry, member, root.trans same.root.symm, path.trans same.path.symm, expected, (Option.some.inj acted).symm⟩

theorem Succession.bytesFit (scheduled : prepareEffectSchedule staged.entries desired = .ok schedule) :
    BytesFit action output wanted := by
  obtain ⟨entry, member, root, path, expected, acted⟩ := succession.delta_entry staged installed
  obtain ⟨index, isWanted, _, _⟩ := succession.shares
  obtain ⟨matched, matchedMember, validated⟩ := prepareEffectSchedule_sound scheduled wanted (mem_of_getElem? isWanted)
  have same : matched = entry := by
    refine staged.entry_unique matchedMember member ?_ ?_
    · rw [validated.root, root, succession.same.root]
    · rw [validated.path, path, succession.same.path]
  subst same
  obtain ⟨planIndex, deltaIndex, valid⟩ := validated.valid
  rw [expected, acted] at valid
  constructor
  · intro retains
    subst retains
    simpa [validateDesiredAction, refuse_eq_ok] using valid
  · intro replaces
    subst replaces
    simpa [validateDesiredAction, refuse_eq_ok] using valid

end

/-- A disposition of the delta's action, if every output in its place allows one. -/
def Disposes (staged : Staged device predecessor destinations desired states) (output : Output)
    (disposition : CleanupDisposition) : Prop :=
  (∀ wanted state, Shares destinations desired states output wanted state → Kept output wanted state) ∧
  ∃ entry ∈ staged.entries, entry.root = output.root ∧ entry.relativePath = output.relativePath ∧
    dispositionForAction entry.action = some disposition

theorem disposes_iff {entry : ClassifiedEntry} (member : entry ∈ staged.entries) (root : entry.root = output.root)
    (path : entry.relativePath = output.relativePath) :
    Disposes staged output disposition ↔
      (∀ wanted state, Shares destinations desired states output wanted state → Kept output wanted state) ∧
        dispositionForAction entry.action = some disposition := by
  refine and_congr_right fun _ => ⟨?_, fun decided => ⟨entry, member, root, path, decided⟩⟩
  rintro ⟨other, otherMember, otherRoot, otherPath, decided⟩
  rwa [staged.entry_unique member otherMember (root.trans otherRoot.symm) (path.trans otherPath.symm)]

section

include installed

theorem stale_disposes (undesired : desiredAt (layoutOf destinations) desired
      (installedKey (layoutOf destinations) output) = none) :
    dispositionOf output none = some disposition ↔ Disposes staged output disposition := by
  obtain ⟨entry, member, root, path, acted⟩ := staged.stale_entry installed undesired
  have unshared (wanted : DesiredOutput) (state : DestinationState) :
      ¬ Shares destinations desired states output wanted state := by
    rintro ⟨index, isWanted, _, key⟩
    obtain ⟨union, joined, _, _⟩ := staged.joined
    have present := desiredAt_of_mem joined.desiredKeys (mem_of_getElem? isWanted)
    rw [key, undesired] at present
    cases present
  have decided : dispositionOf output none = dispositionForAction entry.action := by
    rw [← acted, dispositionOf, claimIsOwned_eq]
    cases installedClaimIsOwned output.provenanceClaim <;> rfl
  rw [decided, disposes_iff staged member root path]
  exact (and_iff_right fun wanted state shares => absurd shares (unshared wanted state)).symm

section

variable (scheduled : prepareEffectSchedule staged.entries desired = .ok schedule)
include scheduled

theorem Succession.disposes (succession : Succession destinations desired states output wanted state action other) :
    dispositionOf output (some other) = some disposition ↔ Disposes staged output disposition := by
  obtain ⟨entry, member, root, path, _, acted⟩ := succession.delta_entry staged installed
  rw [succession.dispositionOf_iff (succession.bytesFit staged installed scheduled), ← acted,
    disposes_iff staged member root path]
  refine and_congr_left fun _ => ⟨?_, fun kept => kept wanted state succession.shares⟩
  intro kept second secondState shares
  obtain ⟨rfl, rfl⟩ := shares_unique staged succession.shares shares
  exact kept

theorem successor_disposes : dispositionOf output (successor destinations.aliasesEsp staged.receipt.outputs output) =
        some disposition ↔ Disposes staged output disposition := by
  rw [successor, physicalKey_eq_installedKey]
  cases found : rowOf destinations.aliasesEsp staged.receipt.outputs (installedKey (layoutOf destinations) output) with
  | none => exact stale_disposes staged installed ((rowOf_receipt_eq_none staged).mp found)
  | some row =>
    obtain ⟨wanted, state, action, succession⟩ := succession_of_row staged installed found
    exact succession.disposes staged installed scheduled

end

/-- Every output of the predecessor has an action, and the kept ones a disposition. -/
theorem exists_disposes
    (kept : ∀ wanted state, Shares destinations desired states output wanted state → Kept output wanted state) :
    ∃ disposition, Disposes staged output disposition := by
  cases found : rowOf destinations.aliasesEsp staged.receipt.outputs (installedKey (layoutOf destinations) output) with
  | none => exact ⟨_, (stale_disposes staged installed ((rowOf_receipt_eq_none staged).mp found)).mp rfl⟩
  | some row =>
    obtain ⟨wanted, state, action, succession⟩ := succession_of_row staged installed found
    obtain ⟨entry, member, root, path, _, acted⟩ := succession.delta_entry staged installed
    obtain ⟨disposition, decided⟩ :=
      exists_dispositionForAction succession.acted (kept wanted state succession.shares).1
    exact ⟨disposition, (disposes_iff staged member root path).mpr ⟨kept, acted ▸ decided⟩⟩

end

/-- The cleanup of a publication that was staged and scheduled agrees with its delta
exactly when every installed output that is desired again was not found absent, and when
the borrowed ones among them are desired with the bytes they had. -/
theorem cleanup_agrees_iff (valid : ∀ receipt, predecessor = some receipt → receipt.validate device = .ok ())
    {schedule : List EffectScheduleEntry}
    (scheduled : prepareEffectSchedule staged.entries desired = .ok schedule)
    {chain : PromotedReceiptChain} (promotes : Promotes staged chain) :
    (∃ plan, prepareActiveReblitPromotedBootCleanupPlan chain = .ok plan ∧
      Forall₂ (Agrees staged.entries) (installedOutputs predecessor) plan.entries) ↔
    ∀ output ∈ installedOutputs predecessor, ∀ wanted state,
      Shares destinations desired states output wanted state → Kept output wanted state := by
  simp only [prepare_eq_ok staged valid promotes]
  constructor
  · intro agreed
    obtain ⟨plan, ⟨entries, planned, same⟩, _⟩ := agreed
    intro output installed
    obtain ⟨entry, _, plannedFor⟩ := exists_right_of_mem planned installed
    exact ((successor_disposes staged installed scheduled).mp plannedFor.disposition).1
  · intro kept
    let made (output : Output) : CleanupPlanEntry :=
      ⟨(dispositionOf output (successor destinations.aliasesEsp staged.receipt.outputs output)).getD .noOp, output,
        successor destinations.aliasesEsp staged.receipt.outputs output⟩
    have disposed (output : Output) (installed : output ∈ installedOutputs predecessor) :
        Disposes staged output (made output).disposition ∧
        dispositionOf output (successor destinations.aliasesEsp staged.receipt.outputs output) =
          some (made output).disposition := by
      obtain ⟨disposition, disposes⟩ := exists_disposes staged installed (kept output installed)
      have decided := (successor_disposes staged installed scheduled).mpr disposes
      simp only [made, decided, Option.getD_some]
      exact ⟨disposes, trivial⟩
    refine ⟨_, ⟨(installedOutputs predecessor).map made, ?_, rfl⟩, ?_⟩
    · rw [forall₂_map_right_iff, forall₂_same]
      intro output installed
      exact ⟨rfl, rfl, (disposed output installed).2⟩
    · rw [forall₂_map_right_iff, forall₂_same]
      intro output installed
      exact ⟨rfl, (disposed output installed).1.2⟩

end Agreement

def firstCanonical : CanonicalReceipt := ⟨firstKernel.receipt, firstKernel.receipt.toVec, firstFingerprint⟩

/-- The chain in which another kernel has taken the place of the first. -/
def replacedChain : PromotedReceiptChain where
  installedReceipt := ⟨replacedKernel.receipt, replacedKernel.receipt.toVec, ⟨#v[0x6a, 0x3f, 0x58,
    0x65, 0xd1, 0x5d, 0x57, 0xb1, 0x3b, 0x7a, 0x80, 0xdc, 0x90, 0x2c, 0xf1, 0xd3, 0x73, 0x7f, 0x95,
    0x6e, 0xa3, 0x57, 0xdc, 0x66, 0x7d, 0x54, 0x57, 0x58, 0x17, 0x51, 0x51, 0xe9]⟩⟩
  committedPredecessorReceipt := some firstCanonical

/-- The chain in which the first kernel was published a second time. -/
def restoredChain : PromotedReceiptChain where
  installedReceipt := ⟨restoredKernel.receipt, restoredKernel.receipt.toVec, ⟨#v[0x42, 0x49, 0x94,
    0x33, 0xcf, 0x2b, 0xfc, 0x1f, 0xc5, 0x1e, 0xbb, 0x68, 0x6b, 0xaf, 0xe6, 0x78, 0x66, 0xc5, 0x02,
    0xeb, 0x37, 0xe0, 0xdf, 0x79, 0x2c, 0xae, 0x2d, 0x8c, 0x0b, 0x37, 0x19, 0xc8]⟩⟩
  committedPredecessorReceipt := some firstCanonical

theorem firstKernel_valid (receipt : ReceiptBody)
    (known : some (kernelReceipt none 0 .unclaimedAbsent) = some receipt) :
    receipt.validate linuxDeviceNumbers = .ok () := by
  cases known
  exact kernelReceipt_valid none 0 .unclaimedAbsent

theorem replacedKernel_agrees : ∃ plan, prepareActiveReblitPromotedBootCleanupPlan replacedChain = .ok plan ∧
      Forall₂ (Agrees replacedKernel.entries) firstKernel.receipt.outputs plan.entries := by
  refine (cleanup_agrees_iff replacedKernel firstKernel_valid rfl ⟨rfl, rfl⟩).mpr ?_
  intro output installed wanted state shares
  obtain ⟨index, _, live, _⟩ := shares
  rw [mem_singleton.mp installed]
  obtain ⟨_, sameState⟩ := List.getElem?_eq_some_iff.mp live
  rw [getElem_singleton] at sameState
  subst sameState
  exact ⟨by decide, fun unowned => absurd unowned (by decide)⟩

/-- The first kernel is gone, and desired again with the same bytes. That is staged and
scheduled, and the cleanup of the promoted chain refuses it. -/
theorem restoredKernel_refused : firstKernel.receipt.validate linuxDeviceNumbers = .ok () ∧
    (∃ schedule, prepareEffectSchedule restoredKernel.entries [kernelOutput 0] = .ok schedule) ∧
    prepareActiveReblitPromotedBootCleanupPlan restoredChain = .error (.retainedProvenanceMismatch 0 0) := by
  refine ⟨kernelReceipt_valid none 0 .unclaimedAbsent, ⟨_, rfl⟩, ?_⟩
  rw [prepare_eq_classify restoredKernel firstKernel_valid ⟨rfl, rfl⟩]
  rfl

end Cast.BootPublication.PromotedCleanup
