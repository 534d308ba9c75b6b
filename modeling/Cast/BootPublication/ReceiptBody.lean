import Mathlib.Data.List.DropRight
import Cast.Foundation.Paths
import Cast.TransitionJournal.Model

/-! The canonical data of a boot-publication receipt and its validation: two
partitions as they were once observed, and the inventory of files published to
them. FAT folds case, so the inventory is checked for collisions in folded
paths, with an ordered map of the destinations seen so far. -/

namespace Cast.BootPublication

open Foundation State

def receiptFormat : String := "cast-boot-publication-receipt"
def receiptBodyVersion : UInt16 := 1
def maxReceiptOutputs : Nat := 8336
def maxReceiptPathBytes : Nat := 8 * 1024 * 1024
/-- One less than `PATH_MAX`. -/
def maxReceiptSinglePathBytes : Nat := 4095
def maxReceiptPathComponents : Nat := 16
def maxReceiptFatComponentBytes : Nat := 255
def maxReceiptLogicalBytes : Nat := 10 * 1024 * 1024 * 1024
def canonicalActiveReblitOutputMode : UInt32 := 0o644

structure Sha256 where
  bytes : Vector UInt8 32
deriving DecidableEq

structure Xxh3 where
  bytes : Vector UInt8 16
deriving DecidableEq

/-- The C library's packing of device numbers. -/
structure DeviceNumbers where
  major : UInt64 → UInt32
  minor : UInt64 → UInt32
  makedev : UInt32 → UInt32 → UInt64

/-- Scalars captured from one authenticated observation in the past. -/
structure HistoricalRuntimeWitness where
  destinationDevice : UInt64
  destinationInode : UInt64
  mountId : UInt64
  partitionDeviceMajor : UInt32
  partitionDeviceMinor : UInt32
  diskSequence : Option UInt64
deriving DecidableEq

structure Destination where
  partuuid : String
  partitionNumber : UInt32
  historicalRuntimeWitness : HistoricalRuntimeWitness
deriving DecidableEq

inductive Destinations where
  | bootAliasesEsp (esp : Destination)
  | distinctXbootldr (esp xbootldr : Destination)
deriving DecidableEq

inductive Root where
  | esp
  | boot
deriving DecidableEq, Ord

instance : Std.TransOrd Root where
  eq_swap {left right} := by cases left <;> cases right <;> rfl
  isLE_trans {left middle right} := by cases left <;> cases middle <;> cases right <;> decide

inductive PublicationPhase where
  | payload
  | entry
  | loaderControl
  | bootloader
deriving DecidableEq, Ord

inductive OutputRole where
  | payload
  | entry
  | loaderControl
  | fallbackBootloader
  | systemdBootloader
deriving DecidableEq

inductive OutputProvenanceClaim where
  | borrowedFirstAdoption
  | unclaimedAbsent
  | claimedPublishedByCast
deriving DecidableEq

structure Output where
  root : Root
  phase : PublicationPhase
  role : OutputRole
  relativePath : String
  mode : UInt32
  xxh3 : Xxh3
  length : UInt64
  contentSha256 : Sha256
  provenanceClaim : OutputProvenanceClaim
deriving DecidableEq

structure ReceiptBody where
  format : String
  version : UInt16
  transitionId : TransitionId
  committedPredecessor : Option ReceiptFingerprint
  predecessorJournalSha256 : Sha256
  desiredInventorySha256 : Sha256
  destinations : Destinations
  outputs : List Output
deriving DecidableEq

inductive PathError where
  | empty
  | absolute
  | byteLimit
  | componentLimit
  | emptyComponent
  | dotComponent
  | parentComponent
  | nonCanonicalText
  | fatForbiddenCharacter
  | fatComponentByteLimit
  | fatTrailingDotOrSpace
  | fatShortNameMarker
  | fatReservedName

inductive ReceiptBodyError where
  | unsupportedFormat (format : String)
  | unsupportedVersion (version : UInt16)
  | invalidPartuuid (destination : String)
  | invalidPartitionNumber (destination : String)
  | invalidHistoricalRuntimeWitness (destination : String)
  | invalidHistoricalDestinationDevice (destination : String)
  | historicalPartitionDeviceMismatch (destination : String)
  | distinctPartuuidCollision
  | distinctPartitionIdentityCollision
  | distinctDiskSequenceMismatch
  | distinctRuntimeDestinationCollision
  | distinctRuntimeMountCollision
  | emptyOutputInventory
  | outputCountLimit (actual : Nat)
  | unsafeOutputPath (index : Nat) (reason : PathError)
  | outputRoleRootMismatch (index : Nat)
  | outputRolePhaseMismatch (index : Nat)
  | nonCanonicalOutputMode (index : Nat) (actual : UInt32)
  | aggregatePathByteLimit (actual : Nat)
  | logicalByteLimit (actual : Nat)
  | nonCanonicalOutputOrder (index : Nat)
  | outputPathCollision (first second : Nat)
  | outputHierarchyCollision (ancestor descendant : Nat)

section Destinations

/-- The characters of a canonical UUID from a position on; the answer is whether
all of them fit and some hexadecimal digit, here or before, is not zero. -/
def canonicalUuidFrom : Nat → Bool → List UInt8 → Bool
  | _, nonzero, [] => nonzero
  | index, nonzero, byte :: rest =>
    if index = 8 ∨ index = 13 ∨ index = 18 ∨ index = 23 then
      byte == 0x2d && canonicalUuidFrom (index + 1) nonzero rest
    else
      isLowerHex byte && canonicalUuidFrom (index + 1) (nonzero || byte != 0x30) rest

def isCanonicalNonzeroUuid (value : String) : Bool :=
  decide ((utf8 value).length = 36) && canonicalUuidFrom 0 false (utf8 value)

variable (device : DeviceNumbers)

/-- A device number has 64 bits on Linux, so its conversion never fails. -/
def HistoricalRuntimeWitness.validate (witness : HistoricalRuntimeWitness)
    (destination : String) : Except ReceiptBodyError Unit := do
  refuse (witness.destinationDevice = 0 ∨ witness.destinationInode = 0 ∨ witness.mountId = 0 ∨
      (witness.partitionDeviceMajor = 0 ∧ witness.partitionDeviceMinor = 0) ∨
      witness.diskSequence = some 0)
    (.invalidHistoricalRuntimeWitness destination)
  let deviceMajor := device.major witness.destinationDevice
  let deviceMinor := device.minor witness.destinationDevice
  refuse (device.makedev deviceMajor deviceMinor ≠ witness.destinationDevice)
    (.invalidHistoricalDestinationDevice destination)
  refuse (deviceMajor ≠ witness.partitionDeviceMajor ∨ deviceMinor ≠ witness.partitionDeviceMinor)
    (.historicalPartitionDeviceMismatch destination)

def Destination.validate (value : Destination) (destination : String) :
    Except ReceiptBodyError Unit := do
  refuse (isCanonicalNonzeroUuid value.partuuid = false) (.invalidPartuuid destination)
  refuse (value.partitionNumber = 0) (.invalidPartitionNumber destination)
  value.historicalRuntimeWitness.validate device destination

/-- The two partitions of a distinct layout must not be one. -/
def requireDistinct (esp xbootldr : Destination) : Except ReceiptBodyError Unit := do
  let first := esp.historicalRuntimeWitness
  let second := xbootldr.historicalRuntimeWitness
  refuse (esp.partuuid = xbootldr.partuuid) .distinctPartuuidCollision
  refuse (first.partitionDeviceMajor = second.partitionDeviceMajor ∧
      first.partitionDeviceMinor = second.partitionDeviceMinor)
    .distinctPartitionIdentityCollision
  refuse (first.diskSequence ≠ second.diskSequence) .distinctDiskSequenceMismatch
  refuse (first.destinationDevice = second.destinationDevice ∧
      first.destinationInode = second.destinationInode)
    .distinctRuntimeDestinationCollision
  refuse (first.mountId = second.mountId) .distinctRuntimeMountCollision

def Destinations.aliasesEsp : Destinations → Bool
  | bootAliasesEsp _ => true
  | distinctXbootldr _ _ => false

def Destinations.validate : Destinations → Except ReceiptBodyError Unit
  | bootAliasesEsp esp => esp.validate device "esp"
  | distinctXbootldr esp xbootldr => do
    esp.validate device "esp"
    xbootldr.validate device "xbootldr"
    requireDistinct esp xbootldr

end Destinations

def toAsciiLowercase (byte : UInt8) : UInt8 := if 0x41 ≤ byte && byte ≤ 0x5a then byte + 0x20 else byte

def toAsciiUppercase (byte : UInt8) : UInt8 := if 0x61 ≤ byte && byte ≤ 0x7a then byte - 0x20 else byte

def isDosReservedComponent (component : List UInt8) : Bool :=
  let stem := (((component.splitOn 0x2e).headD component).rdropWhile
    fun byte => byte == 0x20 || byte == 0x2e).map toAsciiUppercase
  stem ∈ [utf8 "CON", utf8 "PRN", utf8 "AUX", utf8 "NUL"] ||
    decide (stem.length = 4) && (stem.take 3 ∈ [utf8 "COM", utf8 "LPT"]) &&
      (stem.drop 3).all fun byte => 0x31 ≤ byte && byte ≤ 0x39

/-- `<`, `>`, `:`, `"`, `\`, `|`, `?` and `*`. -/
def fatForbidden : List UInt8 := [0x3c, 0x3e, 0x3a, 0x22, 0x5c, 0x7c, 0x3f, 0x2a]

/-- A byte outside ASCII, or an ASCII control character. -/
def isNonCanonical (byte : UInt8) : Bool := 0x80 ≤ byte || byte < 0x20 || byte == 0x7f

def validateComponent (component : List UInt8) : Except PathError Unit := do
  refuse (component = []) .emptyComponent
  refuse (component = utf8 ".") .dotComponent
  refuse (component = utf8 "..") .parentComponent
  refuse (component.any isNonCanonical = true) .nonCanonicalText
  refuse (component.length > maxReceiptFatComponentBytes) .fatComponentByteLimit
  refuse (component.any (· ∈ fatForbidden) = true) .fatForbiddenCharacter
  refuse (component.getLast? = some 0x2e ∨ component.getLast? = some 0x20) .fatTrailingDotOrSpace
  refuse (0x7e ∈ component) .fatShortNameMarker
  refuse (isDosReservedComponent component = true) .fatReservedName

/-- The components from the given count on, each counted before it is looked at. -/
def validateComponents : Nat → List (List UInt8) → Except PathError Unit
  | _, [] => .ok ()
  | components, component :: rest => do
    refuse (components + 1 > maxReceiptPathComponents) .componentLimit
    validateComponent component
    validateComponents (components + 1) rest

def validatePathText (path : List UInt8) : Except PathError Unit := do
  refuse (path = []) .empty
  refuse (path.head? = some slash) .absolute
  refuse (path.length > maxReceiptSinglePathBytes) .byteLimit
  validateComponents 0 (path.splitOn slash)

def validatePath (index : Nat) (path : String) : Except ReceiptBodyError Unit :=
  (validatePathText (utf8 path)).mapError (.unsafeOutputPath index)

def roleBinding : OutputRole → Root × PublicationPhase
  | .payload => (.boot, .payload)
  | .entry => (.boot, .entry)
  | .loaderControl => (.boot, .loaderControl)
  | .fallbackBootloader | .systemdBootloader => (.esp, .bootloader)

def Output.validate (output : Output) (index : Nat) : Except ReceiptBodyError Unit := do
  validatePath index output.relativePath
  refuse (output.mode ≠ canonicalActiveReblitOutputMode) (.nonCanonicalOutputMode index output.mode)
  let (expectedRoot, expectedPhase) := roleBinding output.role
  refuse (output.root ≠ expectedRoot) (.outputRoleRootMismatch index)
  refuse (output.phase ≠ expectedPhase) (.outputRolePhaseMismatch index)

inductive CollisionDomain where
  | shared
  | esp
  | boot
deriving DecidableEq, Ord

instance : Std.TransOrd CollisionDomain where
  eq_swap {left right} := by cases left <;> cases right <;> rfl
  isLE_trans {left middle right} := by cases left <;> cases middle <;> cases right <;> decide

instance : Std.LawfulEqOrd CollisionDomain where
  compare_self {domain} := by cases domain <;> rfl
  eq_of_compare {left right} := by cases left <;> cases right <;> decide

/-- Key of the destinations seen so far: the domain decides first. -/
structure CollisionKey where
  domain : CollisionDomain
  folded : List UInt8
deriving DecidableEq

instance : Ord CollisionKey where
  compare := compareLex (compareOn CollisionKey.domain) (compareOn CollisionKey.folded)

instance : Std.TransOrd CollisionKey :=
  inferInstanceAs (Std.TransCmp (compareLex (compareOn CollisionKey.domain) (compareOn CollisionKey.folded)))

instance : Std.LawfulEqOrd CollisionKey where
  compare_self := Std.ReflCmp.compare_self
  eq_of_compare {left right} same := by
    obtain ⟨domain, folded⟩ := left
    obtain ⟨otherDomain, otherFolded⟩ := right
    obtain ⟨sameDomain, sameFolded⟩ := compareLex_eq_eq.mp same
    have domains : domain = otherDomain := Std.LawfulEqOrd.eq_of_compare sameDomain
    have paths : folded = otherFolded := Std.LawfulEqOrd.eq_of_compare sameFolded
    rw [domains, paths]

def collisionDomain (aliasesEsp : Bool) (root : Root) : CollisionDomain :=
  match aliasesEsp, root with
  | true, _ => .shared
  | false, .esp => .esp
  | false, .boot => .boot

/-- The path of an output as a FAT name, which ignores case. -/
def Output.folded (output : Output) : List UInt8 := (utf8 output.relativePath).map toAsciiLowercase

/-- Each destination seen so far with the index and the path of its output. -/
abbrev SeenDestinations := SortedMap CollisionKey (Nat × String)

/-- No directory above the path may be the file of an earlier output. The walk
goes from one separator to the one before it. -/
def requireAncestorsFree (destinations : SeenDestinations) (domain : CollisionDomain)
    (index : Nat) (path : List UInt8) : Except ReceiptBodyError Unit :=
  match _found : rfind slash path with
  | none => .ok ()
  | some separator =>
    let ancestor := path.take separator
    match destinations.find? ⟨domain, ancestor⟩ with
    | some (first, _) => .error (.outputHierarchyCollision first index)
    | none => requireAncestorsFree destinations domain index ancestor
termination_by path.length
decreasing_by exact rfind_lt _found

/-- No earlier output may lie below the path: the first destination from the
path with a separator on is asked. -/
def requireNoDescendant (destinations : SeenDestinations) (domain : CollisionDomain)
    (index : Nat) (folded : List UInt8) : Except ReceiptBodyError Unit :=
  let below := folded ++ [slash]
  match destinations.firstFrom ⟨domain, below⟩ with
  | none => .ok ()
  | some (candidate, descendant, _) =>
    refuse (candidate.domain = domain ∧ below.isPrefixOf candidate.folded = true)
      (.outputHierarchyCollision index descendant)

/-- No earlier output may have the path itself. -/
def requireFresh (destinations : SeenDestinations) (domain : CollisionDomain) (index : Nat)
    (folded : List UInt8) : Except ReceiptBodyError Unit :=
  match destinations.find? ⟨domain, folded⟩ with
  | some (first, _) => .error (.outputPathCollision first index)
  | none => .ok ()

def admitCollisionPath (destinations : SeenDestinations) (aliasesEsp : Bool) (index : Nat)
    (output : Output) : Except ReceiptBodyError SeenDestinations := do
  let domain := collisionDomain aliasesEsp output.root
  let folded := output.folded
  requireFresh destinations domain index folded
  requireAncestorsFree destinations domain index folded
  requireNoDescendant destinations domain index folded
  return destinations.insert ⟨domain, folded⟩ (index, output.relativePath)

def asciiFoldCmp (left right : List UInt8) : Ordering :=
  compare (left.map toAsciiLowercase) (right.map toAsciiLowercase)

def compareOutputs (left right : Output) : Ordering :=
  (((compare left.phase right.phase).then (compare left.root right.root)).then
    (asciiFoldCmp (utf8 left.relativePath) (utf8 right.relativePath))).then
      (compare (utf8 left.relativePath) (utf8 right.relativePath))

structure OutputScan where
  pathBytes : Nat
  logicalBytes : Nat
  destinations : SeenDestinations
  previous : Option Output

def OutputScan.start : OutputScan := ⟨0, 0, .empty, none⟩

def requireOrder (previous : Option Output) (index : Nat) (output : Output) : Except ReceiptBodyError Unit :=
  match previous with
  | none => .ok ()
  | some previous => refuse (compareOutputs previous output ≠ .lt) (.nonCanonicalOutputOrder index)

def OutputScan.step (aliasesEsp : Bool) (scan : OutputScan) (index : Nat) (output : Output) :
    Except ReceiptBodyError OutputScan := do
  output.validate index
  let pathBytes ← okOr (checkedAdd scan.pathBytes (utf8 output.relativePath).length)
    (.aggregatePathByteLimit (UInt64.size - 1))
  refuse (pathBytes > maxReceiptPathBytes) (.aggregatePathByteLimit pathBytes)
  let logicalBytes ← okOr (checkedAdd scan.logicalBytes output.length.toNat) (.logicalByteLimit (UInt64.size - 1))
  refuse (logicalBytes > maxReceiptLogicalBytes) (.logicalByteLimit logicalBytes)
  let destinations ← admitCollisionPath scan.destinations aliasesEsp index output
  requireOrder scan.previous index output
  return ⟨pathBytes, logicalBytes, destinations, some output⟩

def OutputScan.run (aliasesEsp : Bool) : OutputScan → Nat → List Output → Except ReceiptBodyError Unit
  | _, _, [] => .ok ()
  | scan, index, output :: rest => do
    let next ← scan.step aliasesEsp index output
    next.run aliasesEsp (index + 1) rest

def ReceiptBody.validate (device : DeviceNumbers) (body : ReceiptBody) :
    Except ReceiptBodyError Unit := do
  refuse (body.format ≠ receiptFormat) (.unsupportedFormat body.format)
  refuse (body.version ≠ receiptBodyVersion) (.unsupportedVersion body.version)
  body.destinations.validate device
  refuse (body.outputs = []) .emptyOutputInventory
  refuse (body.outputs.length > maxReceiptOutputs) (.outputCountLimit body.outputs.length)
  OutputScan.start.run body.destinations.aliasesEsp 0 body.outputs

end Cast.BootPublication
