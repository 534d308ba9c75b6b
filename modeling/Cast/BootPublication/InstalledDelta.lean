import Cast.Foundation.BigEndian
import Cast.Foundation.KeyedRows
import Cast.BootPublication.PublicationPlan

/-! What a boot publication has to do, given what the last one left. The outputs of the
installed receipt and the desired ones are joined by their physical keys, each key is
classified by the live state of its destination, and the actions give the provenance
claims of the next receipt and the schedule of effects. -/

namespace Cast.BootPublication.InstalledDelta

open Foundation State PublicationPlan

def Xxh3.fromU128 (value : BitVec 128) : Xxh3 where
  bytes := ⟨(toBigEndian 16 value.toNat).toArray, by simp⟩

def Xxh3.asU128 (digest : Xxh3) : BitVec 128 := BitVec.ofNat 128 (fromBigEndian digest.bytes.toList)

structure Expected where
  checksum : BitVec 128
  length : UInt64
  contentIdentity : Sha256
deriving DecidableEq

structure DesiredOutput where
  root : Root
  phase : PublicationPhase
  role : OutputRole
  relativePath : String
  mode : UInt32
  checksum : BitVec 128
  length : UInt64
  contentIdentity : Sha256

def desiredOutput (planned : Planned) : DesiredOutput :=
  ⟨planned.root, planned.phase, planned.role, planned.relativePath, canonicalActiveReblitOutputMode,
    planned.source.digest, UInt64.ofNat planned.source.length, planned.source.contentIdentity⟩

def desiredExpected (output : DesiredOutput) : Expected := ⟨output.checksum, output.length, output.contentIdentity⟩

def installedExpected (output : Output) : Expected := ⟨Xxh3.asU128 output.xxh3, output.length, output.contentSha256⟩

def installedClaimIsOwned : OutputProvenanceClaim → Bool
  | .unclaimedAbsent | .claimedPublishedByCast => true
  | .borrowedFirstAdoption => false

/-- The stable identity of a destination outlives a restart, its witness does not. -/
def destinationMatches (installed current : Destination) : Bool :=
  installed.partuuid == current.partuuid && installed.partitionNumber == current.partitionNumber

def destinationsMatch : Destinations → Destinations → Bool
  | .bootAliasesEsp installed, .bootAliasesEsp esp => destinationMatches installed esp
  | .distinctXbootldr installedEsp installedXbootldr, .distinctXbootldr esp xbootldr =>
    destinationMatches installedEsp esp && destinationMatches installedXbootldr xbootldr
  | _, _ => false

def layoutOf : Destinations → Layout
  | .bootAliasesEsp _ => .bootAliasesEsp
  | .distinctXbootldr _ _ => .distinctXbootldr

inductive DeltaAction where
  | publishDesired
  | retainOwnedDesired
  | preserveBorrowedDesired
  | replaceOwnedDesired
  | deleteOwnedStaleAfterPromotion
  | preserveUnownedStale
deriving DecidableEq

inductive DeltaError where
  | installedDestinationMismatch
  | unionCountOverflow
  | duplicatePhysicalKey
  | duplicateClassifiedKey (index : Nat)
  | missingDesiredClassifiedKey (desiredIndex : Nat)
  | staleActionForDesiredKey (desiredIndex deltaIndex : Nat)
  | desiredClassifiedExpectationMismatch (desiredIndex deltaIndex : Nat)
  | unmatchedDesiredClassifiedKey (deltaIndex : Nat)
  | staleClassifiedExpectation (deltaIndex : Nat)
  | crossSetPhysicalKeyConflict
  | crossSetHierarchyConflict
  | preflightDesiredCountMismatch (expected actual : Nat)
  | preflightDestinationLayoutMismatch
  | missingPreflightDesiredKey (index : Nat)
  | preflightDesiredExpectationMismatch (index : Nat)
  | duplicatePreflightDesiredKey
  | unmatchedPreflightDesiredKey (planIndex : Nat)
  | ownedOutputWithoutInstalledIdentity (index : Nat)
  | unownedDifferentDesired (index : Nat)

structure DeltaRequestBuilder where
  root : Root
  relativePath : String
  phase : PublicationPhase
  role : OutputRole
  desired : Option Expected
  installed : Option Expected
  installedOwned : Bool

structure DeltaRequest where
  root : Root
  relativePath : String
  desired : Option Expected
  installed : Option Expected
  installedOwned : Bool

structure PreparedDelta where
  destinationLayout : Layout
  requests : List DeltaRequest

abbrev Union := SortedMap CollisionKey DeltaRequestBuilder

def physicalKey (layout : Layout) (root : Root) (path : String) : CollisionKey :=
  ⟨layout.forRoot root, caseFoldedPath path⟩

def installedKey (layout : Layout) (output : Output) : CollisionKey :=
  physicalKey layout output.root output.relativePath

def desiredKey (layout : Layout) (output : DesiredOutput) : CollisionKey :=
  physicalKey layout output.root output.relativePath

def installedBuilder (output : Output) : DeltaRequestBuilder :=
  ⟨output.root, output.relativePath, output.phase, output.role, none,
    some (installedExpected output), installedClaimIsOwned output.provenanceClaim⟩

def desiredBuilder (output : DesiredOutput) : DeltaRequestBuilder :=
  ⟨output.root, output.relativePath, output.phase, output.role, some (desiredExpected output), none, false⟩

def insertInstalled (layout : Layout) (installed : List Output) : Except DeltaError Union :=
  insertDistinct (installedKey layout) (fun _ output => installedBuilder output)
    (fun _ => .duplicatePhysicalKey) 0 .empty installed

/-- A desired output joins the installed one of its key only when it is the same output,
with its bytes apart. -/
def insertDesired (layout : Layout) (union : Union) (output : DesiredOutput) : Except DeltaError Union :=
  let key := desiredKey layout output
  match union.find? key with
  | some existing => do
    refuse (existing.root ≠ output.root ∨ existing.relativePath ≠ output.relativePath ∨
      (existing.phase ≠ output.phase ∨ existing.role ≠ output.role) ∨
      existing.desired.isSome = true) .crossSetPhysicalKeyConflict
    return union.insert key { existing with desired := some (desiredExpected output) }
  | none => .ok (union.insert key (desiredBuilder output))

def requireNoUnionHierarchyConflicts (union : Union) : Except DeltaError Unit :=
  refuse (union.entries.any (fun entry => hasTakenAncestor slash
    (fun ancestor => (union.find? ⟨entry.1.domain, ancestor⟩).isSome) entry.1.folded) = true)
    .crossSetHierarchyConflict

def DeltaRequestBuilder.request (builder : DeltaRequestBuilder) : DeltaRequest :=
  ⟨builder.root, builder.relativePath, builder.desired, builder.installed, builder.installedOwned⟩

def joinOutputs (layout : Layout) (desired : List DesiredOutput) (installed : List Output) :
    Except DeltaError Union := do
  let union ← insertInstalled layout installed
  let union ← desired.foldlM (insertDesired layout) union
  requireNoUnionHierarchyConflicts union
  return union

def prepareUnion (layout : Layout) (desired : List DesiredOutput)
    (installed : Option (List Output)) : Except DeltaError PreparedDelta := do
  let outputs := installed.getD []
  let _ ← okOr (checkedAdd desired.length outputs.length) .unionCountOverflow
  let union ← joinOutputs layout desired outputs
  return ⟨layout, union.entries.map fun entry => entry.2.request⟩

/-- The union against an installed receipt, which must be of the same destinations. -/
def prepareInstalledBootPublicationDelta (destinations : Destinations)
    (desired : List DesiredOutput) (installed : Option ReceiptBody) :
    Except DeltaError PreparedDelta := do
  match installed with
  | some receipt =>
    refuse (destinationsMatch receipt.destinations destinations = false) .installedDestinationMismatch
  | none => .ok ()
  prepareUnion (layoutOf destinations) desired (installed.map (·.outputs))

/-- What the preflight found at a destination. -/
inductive DestinationState where
  | absent
  | exact
  | different
deriving DecidableEq

structure LogicalKey where
  root : Root
  path : List UInt8
deriving DecidableEq

instance : Ord LogicalKey where
  compare := compareLex (compareOn LogicalKey.root) (compareOn LogicalKey.path)

instance : Std.TransOrd LogicalKey :=
  inferInstanceAs (Std.TransCmp (compareLex (compareOn LogicalKey.root) (compareOn LogicalKey.path)))

instance : Std.LawfulEqOrd LogicalKey where
  compare_self := Std.ReflCmp.compare_self
  eq_of_compare {left right} same := by
    obtain ⟨root, path⟩ := left
    obtain ⟨otherRoot, otherPath⟩ := right
    obtain ⟨sameRoot, samePath⟩ := compareLex_eq_eq.mp same
    have roots : root = otherRoot := Std.LawfulEqOrd.eq_of_compare sameRoot
    have paths : path = otherPath := Std.LawfulEqOrd.eq_of_compare samePath
    rw [roots, paths]

structure SealedState where
  root : Root
  relativePath : String
  checksum : BitVec 128
  length : UInt64
  contentIdentity : Sha256
  state : DestinationState

structure AssessmentSeal where
  destinationLayout : Layout
  desiredStates : List SealedState

inductive PreflightError where
  | publicationCountMismatch (expected actual : Nat)

def sealBoundDesiredStates (layout : Layout) (outputs : List DesiredOutput)
    (states : List DestinationState) : Except PreflightError AssessmentSeal := do
  refuse (outputs.length ≠ states.length) (.publicationCountMismatch outputs.length states.length)
  return ⟨layout, List.zipWith (fun output state => ⟨output.root, output.relativePath,
    output.checksum, output.length, output.contentIdentity, state⟩) outputs states⟩

structure ClassifiedEntry where
  root : Root
  relativePath : String
  desiredExpected : Option Expected
  installedExpected : Option Expected
  action : DeltaAction

def DeltaRequest.key (request : DeltaRequest) : LogicalKey := ⟨request.root, utf8 request.relativePath⟩

def DesiredOutput.key (output : DesiredOutput) : LogicalKey := ⟨output.root, utf8 output.relativePath⟩

def sealedExpectedMatches (state : SealedState) (expected : Expected) : Bool :=
  state.checksum == expected.checksum && state.length == expected.length &&
    state.contentIdentity == expected.contentIdentity

def classifyDesired (index : Nat) (request : DeltaRequest) (state : DestinationState) :
    Except DeltaError DeltaAction := do
  refuse (request.installedOwned = true ∧ request.installed.isNone = true) (.ownedOutputWithoutInstalledIdentity index)
  match state with
  | .absent => .ok .publishDesired
  | .exact => .ok (if request.installedOwned then .retainOwnedDesired else .preserveBorrowedDesired)
  | .different =>
    if request.installedOwned then .ok .replaceOwnedDesired
    else .error (.unownedDifferentDesired index)

def classifyStale (index : Nat) (request : DeltaRequest) : Except DeltaError DeltaAction := do
  refuse (request.installed.isNone = true) (.ownedOutputWithoutInstalledIdentity index)
  return if request.installedOwned then .deleteOwnedStaleAfterPromotion else .preserveUnownedStale

abbrev SealedByKey := SortedMap LogicalKey (Nat × SealedState)

def SealedState.key (state : SealedState) : LogicalKey := ⟨state.root, utf8 state.relativePath⟩

def keySealedStates (states : List SealedState) : Except DeltaError SealedByKey :=
  insertDistinct SealedState.key (fun planIndex state => (planIndex, state))
    (fun _ => .duplicatePreflightDesiredKey) 0 .empty states

/-- The action of one request; a desired one takes its sealed state. -/
def classifyRequest (index : Nat) (sealedByKey : SealedByKey) (request : DeltaRequest) :
    Except DeltaError (DeltaAction × SealedByKey) :=
  match request.desired with
  | some expected => do
    let found ← okOr (sealedByKey.find? request.key) (.missingPreflightDesiredKey index)
    refuse (sealedExpectedMatches found.2 expected = false) (.preflightDesiredExpectationMismatch index)
    let action ← classifyDesired index request found.2.state
    return (action, sealedByKey.erase request.key)
  | none => do
    let action ← classifyStale index request
    return (action, sealedByKey)

def classifyRequests : Nat → SealedByKey → List DeltaRequest → Except DeltaError (List ClassifiedEntry × SealedByKey)
  | _, sealedByKey, [] => .ok ([], sealedByKey)
  | index, sealedByKey, request :: rest => do
    let (action, sealedByKey) ← classifyRequest index sealedByKey request
    let (entries, unmatched) ← classifyRequests (index + 1) sealedByKey rest
    return (⟨request.root, request.relativePath, request.desired, request.installed, action⟩ :: entries, unmatched)

def classifyWithPreflightAssessment (delta : PreparedDelta) (assessment : AssessmentSeal) :
    Except DeltaError (List ClassifiedEntry) := do
  refuse (delta.destinationLayout ≠ assessment.destinationLayout) .preflightDestinationLayoutMismatch
  let desiredCount := (delta.requests.filter fun request => request.desired.isSome).length
  refuse (desiredCount ≠ assessment.desiredStates.length)
    (.preflightDesiredCountMismatch assessment.desiredStates.length desiredCount)
  let sealedByKey ← keySealedStates assessment.desiredStates
  let (entries, unmatched) ← classifyRequests 0 sealedByKey delta.requests
  match unmatched.entries with
  | (_, planIndex, _) :: _ => .error (.unmatchedPreflightDesiredKey planIndex)
  | [] => return entries

structure ProvenanceClaim where
  destinationRoot : Root
  relativePath : String
  contentSha256 : Sha256
  claim : OutputProvenanceClaim

def receiptClaimForDesiredAction : DeltaAction → Option OutputProvenanceClaim
  | .publishDesired => some .unclaimedAbsent
  | .retainOwnedDesired | .replaceOwnedDesired => some .claimedPublishedByCast
  | .preserveBorrowedDesired => some .borrowedFirstAdoption
  | .deleteOwnedStaleAfterPromotion | .preserveUnownedStale => none

def ClassifiedEntry.key (entry : ClassifiedEntry) : LogicalKey := ⟨entry.root, utf8 entry.relativePath⟩

abbrev KeyedEntries := SortedMap LogicalKey (Nat × ClassifiedEntry)

def keyEntries (entries : List ClassifiedEntry) : Except DeltaError KeyedEntries :=
  insertDistinct ClassifiedEntry.key (fun index entry => (index, entry))
    (fun index => .duplicateClassifiedKey index) 0 .empty entries

def claimOutput (desiredIndex : Nat) (keyed : KeyedEntries) (output : DesiredOutput) :
    Except DeltaError ProvenanceClaim := do
  let (deltaIndex, entry) ← okOr (keyed.find? output.key) (.missingDesiredClassifiedKey desiredIndex)
  let claim ← okOr (receiptClaimForDesiredAction entry.action) (.staleActionForDesiredKey desiredIndex deltaIndex)
  refuse (entry.desiredExpected ≠ some (desiredExpected output))
    (.desiredClassifiedExpectationMismatch desiredIndex deltaIndex)
  return ⟨output.root, output.relativePath, output.contentIdentity, claim⟩

def claimOutputs : Nat → KeyedEntries → List DesiredOutput → Except DeltaError (List ProvenanceClaim × KeyedEntries)
  | _, keyed, [] => .ok ([], keyed)
  | desiredIndex, keyed, output :: rest => do
    let claim ← claimOutput desiredIndex keyed output
    let (claims, unclaimed) ← claimOutputs (desiredIndex + 1) (keyed.erase output.key) rest
    return (claim :: claims, unclaimed)

def deriveReceiptProvenanceClaims (entries : List ClassifiedEntry) (desired : List DesiredOutput) :
    Except DeltaError (List ProvenanceClaim) := do
  let keyed ← keyEntries entries
  let (claims, unclaimed) ← claimOutputs 0 keyed desired
  match unclaimed.entries.find? fun entry => (receiptClaimForDesiredAction entry.2.2.action).isSome with
  | some (_, deltaIndex, _) => .error (.unmatchedDesiredClassifiedKey deltaIndex)
  | none => .ok ()
  match unclaimed.entries.find? fun entry => entry.2.2.desiredExpected.isSome with
  | some (_, deltaIndex, _) => .error (.staleClassifiedExpectation deltaIndex)
  | none => .ok ()
  return claims

inductive ReceiptError where
  | provenanceClaimCountMismatch (expected actual : Nat)
  | provenanceClaimBindingMismatch (index : Nat)
  | body (source : ReceiptBodyError)

def ProvenanceClaim.matches (claim : ProvenanceClaim) (desired : DesiredOutput) : Bool :=
  claim.destinationRoot == desired.root && claim.relativePath == desired.relativePath &&
    claim.contentSha256 == desired.contentIdentity

def receiptOutput (desired : DesiredOutput) (claim : OutputProvenanceClaim) : Output :=
  ⟨desired.root, desired.phase, desired.role, desired.relativePath, desired.mode,
    Xxh3.fromU128 desired.checksum, desired.length, desired.contentIdentity, claim⟩

def mapOutputs : Nat → List DesiredOutput → List ProvenanceClaim → Except ReceiptError (List Output)
  | index, desired :: rest, claim :: claims => do
    refuse (claim.matches desired = false) (.provenanceClaimBindingMismatch index)
    let outputs ← mapOutputs (index + 1) rest claims
    return receiptOutput desired claim.claim :: outputs
  | _, _, _ => .ok []

/-- The fields of a receipt that come from the journal and the inventory. -/
structure ReceiptOrigin where
  transitionId : TransitionId
  committedPredecessor : Option ReceiptFingerprint
  predecessorJournalSha256 : Sha256
  desiredInventorySha256 : Sha256

def prepareCompleteBootPublicationReceipt (device : DeviceNumbers) (origin : ReceiptOrigin)
    (destinations : Destinations) (desired : List DesiredOutput) (claims : List ProvenanceClaim) :
    Except ReceiptError ReceiptBody := do
  refuse (claims.length ≠ desired.length) (.provenanceClaimCountMismatch desired.length claims.length)
  let outputs ← mapOutputs 0 desired claims
  let body : ReceiptBody := ⟨receiptFormat, receiptBodyVersion, origin.transitionId,
    origin.committedPredecessor, origin.predecessorJournalSha256, origin.desiredInventorySha256,
    destinations, outputs⟩
  (body.validate device).mapError .body
  return body

end Cast.BootPublication.InstalledDelta
