import Cast.BootPublication.InstalledDeltaProperties

/-! One publication, from the installed receipt to its own. A staged publication holds
what every stage computed; its facts say, output by output, which action was taken and
which claim the new receipt makes. -/

namespace Cast.BootPublication.InstalledDelta

open Foundation PublicationPlan List

variable {desired : List DesiredOutput} {output : DesiredOutput}

/-- The results of all stages, each of which succeeded. -/
structure Staged (device : DeviceNumbers) (predecessor : Option ReceiptBody)
    (destinations : Destinations) (desired : List DesiredOutput)
    (states : List DestinationState) where
  delta : PreparedDelta
  assessment : AssessmentSeal
  entries : List ClassifiedEntry
  claims : List ProvenanceClaim
  origin : ReceiptOrigin
  receipt : ReceiptBody
  prepared : prepareInstalledBootPublicationDelta destinations desired predecessor = .ok delta
  assessed : sealBoundDesiredStates (layoutOf destinations) desired states = .ok assessment
  classified : classifyWithPreflightAssessment delta assessment = .ok entries
  derived : deriveReceiptProvenanceClaims entries desired = .ok claims
  completed : prepareCompleteBootPublicationReceipt device origin destinations desired claims = .ok receipt

def installedOutputs (predecessor : Option ReceiptBody) : List Output := (predecessor.map (·.outputs)).getD []

variable {layout : Layout} {installed : List Output} {union : Union} {key : CollisionKey}

/-- Whether the installed output of a key is owned; none is not. -/
def ownedAt (layout : Layout) (installed : List Output) (key : CollisionKey) : Bool :=
  ((installedAt layout installed key).map fun output =>
    installedClaimIsOwned output.provenanceClaim).getD false

def expectedAt (layout : Layout) (installed : List Output) (key : CollisionKey) : Option Expected :=
  (installedAt layout installed key).map installedExpected

theorem Joined.desired_request (joined : Joined layout installed desired union)
    (found : desiredAt layout desired key = some output) :
    ∃ builder, union.find? key = some builder ∧
      builder.request = ⟨output.root, output.relativePath, some (desiredExpected output),
        expectedAt layout installed key, ownedAt layout installed key⟩ := by
  have looked := joined.lookup key
  rw [found] at looked
  cases present : installedAt layout installed key with
  | none =>
    rw [present] at looked
    refine ⟨_, looked, ?_⟩
    simp [DeltaRequestBuilder.request, desiredBuilder, expectedAt, ownedAt, present]
  | some first =>
    rw [present] at looked
    have same := joined.agree key first output present found
    refine ⟨_, looked, ?_⟩
    simp [DeltaRequestBuilder.request, installedBuilder, expectedAt, ownedAt, present, same.root, same.path]

theorem installedAt_of_mem (distinct : (installed.map (installedKey layout)).Nodup) {output : Output}
    (member : output ∈ installed) :
    installedAt layout installed (installedKey layout output) = some output := by
  obtain ⟨index, found⟩ := mem_iff_getElem?.mp member
  rw [installedAt, rowAt_of_getElem? distinct found]
  rfl

theorem desiredAt_of_mem (distinct : (desired.map (desiredKey layout)).Nodup) (member : output ∈ desired) :
    desiredAt layout desired (desiredKey layout output) = some output := by
  obtain ⟨index, found⟩ := mem_iff_getElem?.mp member
  rw [desiredAt, rowAt_of_getElem? distinct found]
  rfl

namespace Staged

variable {device : DeviceNumbers} {predecessor : Option ReceiptBody} {destinations : Destinations}
  {states : List DestinationState} (staged : Staged device predecessor destinations desired states)

include staged in
theorem destinations_match {receipt : ReceiptBody} (installed : predecessor = some receipt) :
    destinationsMatch receipt.destinations destinations = true := by
  have prepared := staged.prepared
  subst installed
  simp only [prepareInstalledBootPublicationDelta, bind_eq_ok, exists_check, refuse_eq_ok,
    Bool.not_eq_false] at prepared
  exact prepared.1

theorem joined : ∃ union, Joined (layoutOf destinations) (installedOutputs predecessor) desired union ∧
    (FlatKeys fun key => (union.find? key).isSome = true) ∧
    staged.delta.requests = union.entries.map fun entry => entry.2.request := by
  have united : prepareUnion (layoutOf destinations) desired (predecessor.map (·.outputs)) = .ok staged.delta := by
    have prepared := staged.prepared
    cases predecessor with
    | none | some _ =>
      simp only [prepareInstalledBootPublicationDelta, bind_eq_ok, exists_check] at prepared
      exact prepared.2
  simp only [prepareUnion, bind_eq_ok, pure_eq_ok] at united
  obtain ⟨_, _, union, joined, same⟩ := united
  obtain ⟨holds, flat⟩ := joinOutputs_joined joined
  exact ⟨union, holds, flat, by rw [← same]⟩

theorem entry_of_key : ∃ union sealedByKey,
    Joined (layoutOf destinations) (installedOutputs predecessor) desired union ∧
    keySealedStates staged.assessment.desiredStates = .ok sealedByKey ∧
    ∀ key builder, union.find? key = some builder →
      ∃ entry ∈ staged.entries, Classified sealedByKey.find? builder.request entry := by
  obtain ⟨union, joined, _, requests⟩ := staged.joined
  obtain ⟨sealedByKey, keyed, each⟩ := classify_sound staged.classified
  refine ⟨union, sealedByKey, joined, keyed, ?_⟩
  intro key builder found
  have member : builder.request ∈ staged.delta.requests := by
    rw [requests]
    exact mem_map_of_mem (SortedMap.mem_of_find?_eq_some found)
  exact exists_right_of_mem each member

variable {state : DestinationState} {index : Nat}

theorem sealed_state {sealedByKey : SealedByKey}
    (keyed : keySealedStates staged.assessment.desiredStates = .ok sealedByKey) (wanted : desired[index]? = some output)
    (live : states[index]? = some state) {row : Nat × SealedState}
    (found : sealedByKey.find? output.key = some row) : row.2.state = state := by
  have assessed := staged.assessed
  simp only [sealBoundDesiredStates, bind_eq_ok, exists_check, pure_eq_ok] at assessed
  have fills := insertDistinct_fills Fills.nil keyed
  rw [nil_append, ← assessed.2] at fills
  have place : (zipWith (fun output state => (⟨output.root, output.relativePath,
      output.checksum, output.length, output.contentIdentity, state⟩ : SealedState)) desired
      states)[index]? = some ⟨output.root, output.relativePath, output.checksum, output.length,
        output.contentIdentity, state⟩ := by
    rw [getElem?_zipWith, wanted, live]
  have looked := fills.lookup output.key
  have sealedRow := rowAt_of_getElem? fills.distinct place
  rw [found, show output.key = SealedState.key ⟨output.root, output.relativePath, output.checksum,
    output.length, output.contentIdentity, state⟩ from rfl, sealedRow] at looked
  cases looked
  rfl

theorem desired_entry (wanted : desired[index]? = some output) (live : states[index]? = some state) :
    ∃ entry ∈ staged.entries, entry.root = output.root ∧ entry.relativePath = output.relativePath ∧
      entry.installedExpected = expectedAt (layoutOf destinations) (installedOutputs predecessor)
        (desiredKey (layoutOf destinations) output) ∧
      desiredAction (ownedAt (layoutOf destinations) (installedOutputs predecessor)
        (desiredKey (layoutOf destinations) output)) state = some entry.action := by
  obtain ⟨union, sealedByKey, joined, keyed, each⟩ := staged.entry_of_key
  have present := desiredAt_of_mem joined.desiredKeys (mem_of_getElem? wanted)
  obtain ⟨builder, found, request⟩ := joined.desired_request present
  obtain ⟨entry, member, classified⟩ := each _ builder found
  rw [request] at classified
  obtain ⟨row, looked, acted⟩ := classified.acted _ rfl
  rw [staged.sealed_state keyed wanted live looked] at acted
  exact ⟨entry, member, classified.root, classified.path, classified.installed, acted⟩

theorem stale_entry {output : Output} (installed : output ∈ installedOutputs predecessor)
    (undesired : desiredAt (layoutOf destinations) desired (installedKey (layoutOf destinations) output) = none) :
    ∃ entry ∈ staged.entries, entry.root = output.root ∧ entry.relativePath = output.relativePath ∧
      staleAction (installedClaimIsOwned output.provenanceClaim) = entry.action := by
  obtain ⟨union, sealedByKey, joined, keyed, each⟩ := staged.entry_of_key
  have present := installedAt_of_mem joined.installedKeys installed
  have found := joined.lookup (installedKey (layoutOf destinations) output)
  rw [present, undesired] at found
  obtain ⟨entry, member, classified⟩ := each _ _ found
  exact ⟨entry, member, classified.root, classified.path, classified.stale rfl⟩

theorem entry_unique {first second : ClassifiedEntry} (firstMember : first ∈ staged.entries)
    (secondMember : second ∈ staged.entries) (root : first.root = second.root)
    (path : first.relativePath = second.relativePath) : first = second := by
  refine inj_on_of_nodup_map (derive_sound staged.derived).1 firstMember secondMember ?_
  rw [ClassifiedEntry.key, ClassifiedEntry.key, root, path]

theorem completed_facts : staged.claims.length = desired.length ∧ staged.receipt.destinations = destinations ∧
    staged.receipt.outputs = zipWith (fun output claim => receiptOutput output claim.claim) desired staged.claims ∧
    staged.receipt.validate device = .ok () := by
  have completed := staged.completed
  simp only [prepareCompleteBootPublicationReceipt, bind_eq_ok, exists_check, refuse_eq_ok,
    mapError_eq_ok, pure_eq_ok, not_not] at completed
  obtain ⟨count, outputs, mapped, valid, same⟩ := completed
  rw [← same]
  exact ⟨count, rfl, mapOutputs_eq mapped, valid⟩

theorem receipt_output (wanted : desired[index]? = some output) (live : states[index]? = some state) :
    ∃ action claim, desiredAction (ownedAt (layoutOf destinations) (installedOutputs predecessor)
        (desiredKey (layoutOf destinations) output)) state = some action ∧
      receiptClaimForDesiredAction action = some claim ∧
      staged.receipt.outputs[index]? = some (receiptOutput output claim) := by
  obtain ⟨entry, member, root, path, _, acted⟩ := staged.desired_entry wanted live
  obtain ⟨claim, claimed, other, otherMember, by_other⟩ := forall₂_getElem? (derive_sound staged.derived).2 wanted
  have same : other = entry := by
    refine inj_on_of_nodup_map (derive_sound staged.derived).1 otherMember member ?_
    rw [by_other.key, ClassifiedEntry.key, DesiredOutput.key, root, path]
  subst same
  refine ⟨other.action, claim.claim, acted, by_other.claim, ?_⟩
  rw [staged.completed_facts.2.2.1, getElem?_zipWith, wanted, claimed]

include staged in
theorem states_length : states.length = desired.length := by
  have assessed := staged.assessed
  simp only [sealBoundDesiredStates, bind_eq_ok, exists_check, refuse_eq_ok, not_not] at assessed
  exact assessed.1.symm

theorem output_origin {output : Output} (found : staged.receipt.outputs[index]? = some output) :
    ∃ wanted state action claim, desired[index]? = some wanted ∧ states[index]? = some state ∧
      desiredAction (ownedAt (layoutOf destinations) (installedOutputs predecessor)
        (desiredKey (layoutOf destinations) wanted)) state = some action ∧
      receiptClaimForDesiredAction action = some claim ∧ output = receiptOutput wanted claim := by
  have bounded : index < desired.length := by
    obtain ⟨inside, _⟩ := List.getElem?_eq_some_iff.mp found
    rw [staged.completed_facts.2.2.1, length_zipWith] at inside
    omega
  have wanted := getElem?_eq_getElem bounded
  have live := getElem?_eq_getElem (staged.states_length ▸ bounded)
  obtain ⟨action, claim, acted, claimed, made⟩ := staged.receipt_output wanted live
  rw [found] at made
  exact ⟨_, _, action, claim, wanted, live, acted, claimed, Option.some.inj made⟩

theorem receipt_keys : staged.receipt.outputs.map (installedKey (layoutOf destinations)) =
    desired.map (desiredKey (layoutOf destinations)) := by
  obtain ⟨count, _, outputs, _⟩ := staged.completed_facts
  have keys : desired.map (desiredKey (layoutOf destinations)) =
      ((desired.zip staged.claims).map Prod.fst).map (desiredKey (layoutOf destinations)) := by
    rw [map_fst_zip (Nat.le_of_eq count.symm)]
  rw [outputs, ← map_uncurry_zip_eq_zipWith, map_map, keys, map_map]
  rfl

end Staged

/-- A kernel on the boot partition, with the given bytes. -/
def kernelOutput (checksum : BitVec 128) : DesiredOutput :=
  ⟨.boot, .payload, .payload, "EFI/cast/vmlinuz", canonicalActiveReblitOutputMode, checksum, 4096,
    ⟨Vector.replicate 32 0⟩⟩

def kernelReceipt (committed : Option ReceiptFingerprint) (checksum : BitVec 128)
    (claim : OutputProvenanceClaim) : ReceiptBody :=
  { sampleReceipt receiptFormat receiptBodyVersion with
    committedPredecessor := committed
    outputs := [receiptOutput (kernelOutput checksum) claim] }

def kernelDestinations : Destinations := .bootAliasesEsp sampleDestination

theorem kernelReceipt_valid (committed : Option ReceiptFingerprint) (checksum : BitVec 128)
    (claim : OutputProvenanceClaim) :
    (kernelReceipt committed checksum claim).validate linuxDeviceNumbers = .ok () := by
  have parts : PartsValid linuxDeviceNumbers (kernelReceipt committed checksum claim) := by
    refine ⟨rfl, Nat.le_refl 1, by simp [kernelReceipt, maxReceiptOutputs], ?_, ?_, ?_⟩
    · intro index output found
      cases index with
      | zero =>
        cases found
        rfl
      | succ index => cases found
    · show 16 ≤ maxReceiptPathBytes
      decide
    · show 4096 ≤ maxReceiptLogicalBytes
      decide
  exact parts.accepts rfl rfl (pairwise_singleton _ _) (pairwise_singleton _ _)

theorem flatKeys_of_single {ν : Type} {map : SortedMap CollisionKey ν} {entry : CollisionKey × ν}
    (single : map.entries = [entry]) : FlatKeys fun key => (map.find? key).isSome = true := by
  have only (key : CollisionKey) (taken : (map.find? key).isSome = true) : key = entry.1 := by
    obtain ⟨value, found⟩ := Option.isSome_iff_exists.mp taken
    have member := SortedMap.mem_of_find?_eq_some found
    rw [single, mem_singleton] at member
    rw [← member]
  intro key ancestor taken below ancestorTaken
  have same := only _ taken
  have ancestorSame := congrArg CollisionKey.folded (only _ ancestorTaken)
  rw [same, ← ancestorSame] at below
  have longer := below.length_le
  simp at longer

theorem kernel_joins (checksum : BitVec 128) (outputs : List Output) {start union : Union}
    {entry : CollisionKey × DeltaRequestBuilder}
    (inserted : insertInstalled .bootAliasesEsp outputs = .ok start)
    (joined : insertDesired .bootAliasesEsp start (kernelOutput checksum) = .ok union)
    (single : union.entries = [entry]) :
    joinOutputs .bootAliasesEsp [kernelOutput checksum] outputs = .ok union := by
  simp only [joinOutputs, requireNoUnionHierarchyConflicts, bind_eq_ok, exists_check, pure_eq_ok,
    refuse_eq_ok, any_hasTakenAncestor_iff, foldlM_cons, foldlM_nil]
  exact ⟨start, inserted, union, ⟨union, joined, rfl⟩, flatKeys_of_single single, rfl⟩

def kernelOrigin (committed : Option ReceiptFingerprint) : ReceiptOrigin :=
  ⟨(sampleReceipt receiptFormat receiptBodyVersion).transitionId, committed,
    ⟨Vector.replicate 32 0⟩, ⟨Vector.replicate 32 0⟩⟩

def kernelClaim (claim : OutputProvenanceClaim) : ProvenanceClaim :=
  ⟨.boot, "EFI/cast/vmlinuz", ⟨Vector.replicate 32 0⟩, claim⟩

theorem kernel_completed (committed : Option ReceiptFingerprint) (checksum : BitVec 128)
    (claim : OutputProvenanceClaim) :
    prepareCompleteBootPublicationReceipt linuxDeviceNumbers (kernelOrigin committed)
      kernelDestinations [kernelOutput checksum] [kernelClaim claim] =
        .ok (kernelReceipt committed checksum claim) := by
  have valid := kernelReceipt_valid committed checksum claim
  simp only [prepareCompleteBootPublicationReceipt, bind_eq_ok, exists_check, refuse_eq_ok,
    mapError_eq_ok, pure_eq_ok, not_not]
  exact ⟨rfl, _, rfl, valid, rfl⟩

def kernelSeal (checksum : BitVec 128) (state : DestinationState) : AssessmentSeal :=
  ⟨.bootAliasesEsp, [⟨.boot, "EFI/cast/vmlinuz", checksum, 4096, ⟨Vector.replicate 32 0⟩, state⟩]⟩

def kernelEntry (checksum : BitVec 128) (installed : Option Expected) (action : DeltaAction) : ClassifiedEntry :=
  ⟨.boot, "EFI/cast/vmlinuz", some (desiredExpected (kernelOutput checksum)), installed, action⟩

/-- The first publication, of a kernel that was not there. -/
def firstKernel : Staged linuxDeviceNumbers none kernelDestinations [kernelOutput 0] [.absent] where
  delta := ⟨.bootAliasesEsp, [(desiredBuilder (kernelOutput 0)).request]⟩
  assessment := kernelSeal 0 .absent
  entries := [kernelEntry 0 none .publishDesired]
  claims := [kernelClaim .unclaimedAbsent]
  origin := kernelOrigin none
  receipt := kernelReceipt none 0 .unclaimedAbsent
  prepared := by
    have joins := kernel_joins 0 [] rfl rfl rfl
    simp only [prepareInstalledBootPublicationDelta, prepareUnion, bind_eq_ok, exists_check]
    exact ⟨trivial, _, rfl, _, joins, rfl⟩
  assessed := rfl
  classified := rfl
  derived := rfl
  completed := kernel_completed none 0 .unclaimedAbsent

def firstFingerprint : ReceiptFingerprint :=
  ⟨#v[0x38, 0x99, 0x0f, 0x75, 0x34, 0xd6, 0xd7, 0x3f, 0x6b, 0x89, 0x61, 0x62, 0xaf, 0xc8, 0x71, 0xb0,
    0xda, 0x22, 0xf0, 0xfb, 0x07, 0x3f, 0xf2, 0xf8, 0xa7, 0x97, 0x43, 0x5f, 0xea, 0x0b, 0xa5, 0xf1]⟩

def firstExpected : Expected := installedExpected (receiptOutput (kernelOutput 0) .unclaimedAbsent)

def kernelDelta (checksum : BitVec 128) : PreparedDelta :=
  ⟨.bootAliasesEsp, [⟨.boot, "EFI/cast/vmlinuz", some (desiredExpected (kernelOutput checksum)),
    some firstExpected, true⟩]⟩

/-- A publication after the first one, as the live state of the kernel decides. -/
def secondKernel (checksum : BitVec 128) (state : DestinationState) (action : DeltaAction)
    (claim : OutputProvenanceClaim)
    (classified : classifyWithPreflightAssessment (kernelDelta checksum) (kernelSeal checksum state) =
      .ok [kernelEntry checksum (some firstExpected) action])
    (derived : deriveReceiptProvenanceClaims [kernelEntry checksum (some firstExpected) action]
      [kernelOutput checksum] = .ok [kernelClaim claim]) :
    Staged linuxDeviceNumbers (some (kernelReceipt none 0 .unclaimedAbsent)) kernelDestinations
      [kernelOutput checksum] [state] where
  delta := kernelDelta checksum
  assessment := kernelSeal checksum state
  entries := [kernelEntry checksum (some firstExpected) action]
  claims := [kernelClaim claim]
  origin := kernelOrigin (some firstFingerprint)
  receipt := kernelReceipt (some firstFingerprint) checksum claim
  prepared := by
    have joins := kernel_joins checksum [receiptOutput (kernelOutput 0) .unclaimedAbsent] rfl rfl rfl
    simp only [prepareInstalledBootPublicationDelta, prepareUnion, bind_eq_ok, exists_check]
    exact ⟨rfl, _, rfl, _, joins, rfl⟩
  assessed := rfl
  classified := classified
  derived := derived
  completed := kernel_completed (some firstFingerprint) checksum claim

/-- The kernel is gone, and published again. -/
def restoredKernel := secondKernel 0 .absent .publishDesired .unclaimedAbsent rfl rfl

/-- Another kernel takes the place of the first. -/
def replacedKernel := secondKernel 1 .different .replaceOwnedDesired .claimedPublishedByCast rfl rfl

end Cast.BootPublication.InstalledDelta
