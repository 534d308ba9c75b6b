import Cast.Foundation.KeyedRows
import Cast.BootPublication.ReceiptCodec

/-! Cleanup after a promoted boot publication, from the pair of receipts alone. The
outputs of both are joined by their physical keys, and every output of the
predecessor is classified by its claim and the claim of the installed output with
its key. -/

namespace Cast.BootPublication.PromotedCleanup

open Foundation

def maxPromotedBootCleanupUnionOutputs : Nat := maxReceiptOutputs * 2

inductive CleanupDisposition where
  | noOp
  | replaceOwned
  | deleteOwnedStale
  | preserveUnownedStale

structure CleanupPlanEntry where
  disposition : CleanupDisposition
  predecessorOutput : Output
  installedOutput : Option Output

structure CleanupPlan where
  promotedReceipt : ReceiptFingerprint
  entries : List CleanupPlanEntry

structure PromotedReceiptChain where
  installedReceipt : CanonicalReceipt
  committedPredecessorReceipt : Option CanonicalReceipt

inductive CleanupPlanError where
  | destinationLayoutMismatch
  | stableDestinationMismatch (destination : String)
  | unionCountOverflow
  | unionOutputLimit (actual : Nat)
  | duplicateInstalledPhysicalKey (index : Nat)
  | duplicatePredecessorPhysicalKey (index : Nat)
  | crossReceiptPhysicalKeyMismatch (predecessorIndex installedIndex : Nat)
  | crossReceiptHierarchyConflict
  | currentOnlyOwnershipClaim (installedIndex : Nat)
  | retainedProvenanceMismatch (predecessorIndex installedIndex : Nat)
  | borrowedReplacement (predecessorIndex installedIndex : Nat)
  | replacementProvenanceMismatch (predecessorIndex installedIndex : Nat)
  /-- What the source expects to be there. -/
  | panicked

def requireStableDestinationMatch (destination : String) (predecessor installed : Destination) :
    Except CleanupPlanError Unit :=
  refuse (predecessor.partuuid ≠ installed.partuuid ∨
    predecessor.partitionNumber ≠ installed.partitionNumber) (.stableDestinationMismatch destination)

def requireStableDestinationsMatch : Destinations → Destinations → Except CleanupPlanError Unit
  | .bootAliasesEsp predecessorEsp, .bootAliasesEsp installedEsp =>
    requireStableDestinationMatch "esp" predecessorEsp installedEsp
  | .distinctXbootldr predecessorEsp predecessorXbootldr, .distinctXbootldr installedEsp installedXbootldr => do
      requireStableDestinationMatch "esp" predecessorEsp installedEsp
      requireStableDestinationMatch "xbootldr" predecessorXbootldr installedXbootldr
  | _, _ => .error .destinationLayoutMismatch

structure PhysicalOutputPair where
  predecessor : Option (Nat × Output)
  installed : Option (Nat × Output)

/-- The source keeps one map for each domain; a key here has its domain first. -/
abbrev PhysicalOutputUnion := SortedMap CollisionKey PhysicalOutputPair

def physicalKey (aliasesEsp : Bool) (output : Output) : CollisionKey :=
  ⟨collisionDomain aliasesEsp output.root, output.folded⟩

def insertInstalledOutputs (aliasesEsp : Bool) (installed : List Output) :
    Except CleanupPlanError PhysicalOutputUnion :=
  insertDistinct (physicalKey aliasesEsp) (fun index output => ⟨none, some (index, output)⟩)
    (fun index => .duplicateInstalledPhysicalKey index) 0 .empty installed

def requireSamePathSemantics (predecessorIndex : Nat) (predecessor : Output) (installedIndex : Nat)
    (installed : Output) : Except CleanupPlanError Unit :=
  refuse (predecessor.root ≠ installed.root ∨ predecessor.relativePath ≠ installed.relativePath ∨
    predecessor.phase ≠ installed.phase ∨ predecessor.role ≠ installed.role ∨
    predecessor.mode ≠ installed.mode)
    (.crossReceiptPhysicalKeyMismatch predecessorIndex installedIndex)

/-- One output of the predecessor: the union with it, and the index of the installed
output that has its key. -/
def insertPredecessorOutput (aliasesEsp : Bool) (index : Nat) (union : PhysicalOutputUnion)
    (output : Output) : Except CleanupPlanError (PhysicalOutputUnion × Option Nat) :=
  let key := physicalKey aliasesEsp output
  match union.find? key with
  | none => .ok (union.insert key ⟨some (index, output), none⟩, none)
  | some pair => do
    refuse (pair.predecessor.isSome = true) (.duplicatePredecessorPhysicalKey index)
    let (installedIndex, installed) ← okOr pair.installed .panicked
    requireSamePathSemantics index output installedIndex installed
    return (union.insert key { pair with predecessor := some (index, output) }, some installedIndex)

def insertPredecessorOutputs (aliasesEsp : Bool) : Nat → PhysicalOutputUnion → List Output →
    Except CleanupPlanError (PhysicalOutputUnion × List (Option Nat))
  | _, union, [] => .ok (union, [])
  | index, union, output :: rest => do
    let (union, found) ← insertPredecessorOutput aliasesEsp index union output
    let (union, others) ← insertPredecessorOutputs aliasesEsp (index + 1) union rest
    return (union, found :: others)

def requireNoUnionHierarchyConflicts (union : PhysicalOutputUnion) : Except CleanupPlanError Unit :=
  refuse (union.entries.any (fun entry => hasTakenAncestor slash
    (fun ancestor => (union.find? ⟨entry.1.domain, ancestor⟩).isSome) entry.1.folded) = true)
    .crossReceiptHierarchyConflict

def requireCurrentOnlyProvenance : List PhysicalOutputPair → Except CleanupPlanError Unit
  | [] => .ok ()
  | pair :: rest => do
    if pair.predecessor.isSome then .ok ()
    else do
      let (installedIndex, installed) ← okOr pair.installed .panicked
      refuse (installed.provenanceClaim = .claimedPublishedByCast) (.currentOnlyOwnershipClaim installedIndex)
    requireCurrentOnlyProvenance rest

def claimIsOwned : OutputProvenanceClaim → Bool
  | .unclaimedAbsent | .claimedPublishedByCast => true
  | .borrowedFirstAdoption => false

def exactBytes (predecessor installed : Output) : Prop :=
  predecessor.length = installed.length ∧ predecessor.xxh3 = installed.xxh3 ∧
    predecessor.contentSha256 = installed.contentSha256

instance (predecessor installed : Output) : Decidable (exactBytes predecessor installed) :=
  inferInstanceAs (Decidable (_ ∧ _))

/-- The claim of an output that was kept byte for byte. -/
def retainedClaim (predecessor : Output) : OutputProvenanceClaim :=
  if claimIsOwned predecessor.provenanceClaim then .claimedPublishedByCast
  else .borrowedFirstAdoption

def classifyPredecessorOutput (predecessorIndex : Nat) (predecessor : Output)
    (installed : Option (Nat × Output)) : Except CleanupPlanError CleanupDisposition :=
  match installed with
  | none =>
    .ok (if claimIsOwned predecessor.provenanceClaim then .deleteOwnedStale
      else .preserveUnownedStale)
  | some (installedIndex, installed) =>
    if exactBytes predecessor installed then do
      refuse (installed.provenanceClaim ≠ retainedClaim predecessor)
        (.retainedProvenanceMismatch predecessorIndex installedIndex)
      return .noOp
    else do
      refuse (claimIsOwned predecessor.provenanceClaim = false) (.borrowedReplacement predecessorIndex installedIndex)
      refuse (installed.provenanceClaim ≠ .claimedPublishedByCast)
        (.replacementProvenanceMismatch predecessorIndex installedIndex)
      return .replaceOwned

def matchedOutput (installed : List Output) : Option Nat → Except CleanupPlanError (Option (Nat × Output))
  | none => .ok none
  | some index => do
    let output ← okOr installed[index]? .panicked
    return some (index, output)

def classifyPredecessorOutputs (installed : List Output) : Nat → List (Output × Option Nat) →
    Except CleanupPlanError (List CleanupPlanEntry)
  | _, [] => .ok []
  | index, (output, found) :: rest => do
    let installedOutput ← matchedOutput installed found
    let disposition ← classifyPredecessorOutput index output installedOutput
    let entries ← classifyPredecessorOutputs installed (index + 1) rest
    return ⟨disposition, output, installedOutput.map (·.2)⟩ :: entries

def prepareActiveReblitPromotedBootCleanupPlan (chain : PromotedReceiptChain) :
    Except CleanupPlanError CleanupPlan := do
  let installed := chain.installedReceipt.body
  match chain.committedPredecessorReceipt with
  | some predecessor => requireStableDestinationsMatch predecessor.body.destinations installed.destinations
  | none => .ok ()
  let predecessorOutputs := (chain.committedPredecessorReceipt.map (·.body.outputs)).getD []
  let capacity ← okOr (checkedAdd installed.outputs.length predecessorOutputs.length) .unionCountOverflow
  refuse (capacity > maxPromotedBootCleanupUnionOutputs) (.unionOutputLimit capacity)
  let aliasesEsp := installed.destinations.aliasesEsp
  let union ← insertInstalledOutputs aliasesEsp installed.outputs
  let (union, found) ← insertPredecessorOutputs aliasesEsp 0 union predecessorOutputs
  requireNoUnionHierarchyConflicts union
  requireCurrentOnlyProvenance (union.entries.map (·.2))
  let entries ← classifyPredecessorOutputs installed.outputs 0 (predecessorOutputs.zip found)
  return ⟨chain.installedReceipt.fingerprint, entries⟩

end Cast.BootPublication.PromotedCleanup
