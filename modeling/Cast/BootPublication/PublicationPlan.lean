import Mathlib.Data.List.Dedup
import Mathlib.Data.Nat.Log
import Cast.BootPublication.ReceiptBody

/-! Planning a boot publication. The requests are admitted one by one under a
budget of counts, bytes and work; an exact duplicate is passed over, and every other
request must be free of collisions with the ones before it. What was admitted is
sorted into publication order. Roots, phases, roles and FAT rules are those of the
receipt, which mirrors them. -/

namespace Cast.BootPublication.PublicationPlan

open Foundation

def maxPublications : Nat := 8336
def maxPublicationPathBytes : Nat := 8 * 1024 * 1024
def maxPublicationComponents : Nat := 16
/-- One less than `PATH_MAX`. -/
def maxPublicationSinglePathBytes : Nat := 4095
def maxFatComponentBytes : Nat := 255
def maxPublicationLogicalBytes : Nat := 10 * 1024 * 1024 * 1024
def maxPublicationSealedFileBytes : Nat := 512 * 1024 * 1024
def maxPublicationGeneratedBytes : Nat := 16 * 1024 * 1024
def maxPublicationGeneratedFileBytes : Nat := 1024 * 1024
def maxPublicationWork : Nat := 1000000
def sortWorkPerElementLevel : Nat := 4

def loaderControlPath : String := "loader/loader.conf"
def fallbackBootloaderPath : String := "EFI/Boot/BOOTX64.EFI"
def systemdBootloaderPath : String := "EFI/systemd/systemd-bootx64.efi"

structure Policy where
  maxPublications : Nat
  maxPathBytes : Nat
  maxSinglePathBytes : Nat
  maxComponents : Nat
  maxLogicalBytes : Nat
  maxSealedFileBytes : Nat
  maxGeneratedBytes : Nat
  maxGeneratedFileBytes : Nat
  maxWork : Nat

def Policy.production : Policy where
  maxPublications := PublicationPlan.maxPublications
  maxPathBytes := maxPublicationPathBytes
  maxSinglePathBytes := maxPublicationSinglePathBytes
  maxComponents := maxPublicationComponents
  maxLogicalBytes := maxPublicationLogicalBytes
  maxSealedFileBytes := maxPublicationSealedFileBytes
  maxGeneratedBytes := maxPublicationGeneratedBytes
  maxGeneratedFileBytes := maxPublicationGeneratedFileBytes
  maxWork := maxPublicationWork

/-- Whether the boot root lies on the ESP or on a partition of its own. -/
inductive Layout where
  | bootAliasesEsp
  | distinctXbootldr
deriving DecidableEq

def Layout.forRoot : Layout → Root → CollisionDomain
  | .bootAliasesEsp, _ => .shared
  | .distinctXbootldr, .esp => .esp
  | .distinctXbootldr, .boot => .boot

def requiresSealedSource : OutputRole → Bool
  | .payload | .fallbackBootloader | .systemdBootloader => true
  | .entry | .loaderControl => false

/-- Content as it is declared: a generated file carries no digest yet. -/
inductive RequestSource where
  | sealedSnapshot (bindingIndex : UInt16) (digest : BitVec 128) (length : UInt64) (contentIdentity : Sha256)
  | generated (bytes : List UInt8)
deriving DecidableEq

def RequestSource.isSealed : RequestSource → Bool
  | .sealedSnapshot .. => true
  | .generated _ => false

inductive Source where
  | sealedSnapshot (bindingIndex : UInt16) (digest : BitVec 128) (length : UInt64) (contentIdentity : Sha256)
  | generated (bytes : List UInt8) (digest : BitVec 128) (contentIdentity : Sha256)
deriving DecidableEq

def Source.digest : Source → BitVec 128
  | .sealedSnapshot _ digest _ _ | .generated _ digest _ => digest

def Source.contentIdentity : Source → Sha256
  | .sealedSnapshot _ _ _ identity | .generated _ _ identity => identity

def Source.length : Source → Nat
  | .sealedSnapshot _ _ length _ => length.toNat
  | .generated bytes _ _ => bytes.length

def Source.generatedBytes : Source → Option (List UInt8)
  | .generated bytes _ _ => some bytes
  | .sealedSnapshot .. => none

/-- A declaration. The path is any sequence of bytes. -/
structure Request where
  role : OutputRole
  root : Root
  phase : PublicationPhase
  relativePath : List UInt8
  source : RequestSource
deriving DecidableEq

structure Planned where
  role : OutputRole
  root : Root
  phase : PublicationPhase
  relativePath : String
  foldedRelativePath : List UInt8
  source : Source

inductive PlanError where
  | deadlineExceeded
  | publicationCountLimit (limit actual : Nat)
  | pathByteLimit (limit actual : Nat)
  | singlePathByteLimit (path : List UInt8) (limit actual : Nat)
  | pathComponentLimit (path : List UInt8) (limit actual : Nat)
  | emptyPath
  | absolutePath (path : List UInt8)
  | emptyPathComponent (path : List UInt8)
  | dotPathComponent (path : List UInt8)
  | parentPathComponent (path : List UInt8)
  | nulPath (path : List UInt8)
  | nonUtf8Path (path : List UInt8)
  | controlPathComponent (path : List UInt8)
  | nonAsciiPathComponent (path : List UInt8)
  | reservedPrivatePublicationComponent (path component : List UInt8)
  | fatComponentByteLimit (path : List UInt8) (limit actual : Nat)
  | fatForbiddenCharacter (path : List UInt8) (character : UInt8)
  | fatTrailingDotOrSpace (path : List UInt8)
  | fatShortNameMarker (path : List UInt8)
  | fatReservedName (path component : List UInt8)
  | roleRootMismatch (role : OutputRole) (expected actual : Root)
  | rolePhaseMismatch (role : OutputRole) (expected actual : PublicationPhase)
  | roleSourceMismatch (role : OutputRole)
  | rolePathMismatch (role : OutputRole) (path : List UInt8)
  | sealedSnapshotFileByteLimit (path : List UInt8) (limit actual : Nat)
  | generatedFileByteLimit (path : List UInt8) (limit actual : Nat)
  | generatedTotalByteLimit (limit actual : Nat)
  | logicalByteLimit (limit actual : Nat)
  | workLimit (limit actual : Nat)
  | publicationCollision (firstRoot secondRoot : Root) (path : String)
  | caseInsensitiveCollision (firstRoot secondRoot : Root) (first second : String)
  | publicationHierarchyCollision (ancestorRoot descendantRoot : Root) (ancestor descendant : String)
  /-- An index or a sum that the source takes for granted. -/
  | panicked
deriving DecidableEq

/-- A 64-bit number that stops at its largest value. -/
def saturate (value : Nat) : Nat := min value (UInt64.size - 1)

variable (policy : Policy)
/- Whether the clock has passed the deadline, by the work charged when it is read. -/
variable (late : Nat → Bool)

structure Budget where
  work : Nat
  publications : Nat
  pathBytes : Nat
  declaredGeneratedBytes : Nat

def Budget.start : Budget := ⟨0, 0, 0, 0⟩

def Budget.requireDeadline (budget : Budget) : Except PlanError Unit :=
  refuse (late budget.work = true) .deadlineExceeded

def Budget.reserveWork (budget : Budget) (amount : Nat) : Except PlanError Budget := do
  budget.requireDeadline late
  let actual := saturate (budget.work + amount)
  refuse (actual > policy.maxWork) (.workLimit policy.maxWork actual)
  return { budget with work := actual }

def Budget.step (budget : Budget) : Except PlanError Budget := budget.reserveWork policy late 1

/-- Four comparisons for every element at every level of a balanced sort. -/
def conservativeSortWork (publications : Nat) : Nat :=
  if publications < 2 then 0
  else
    let levels := Nat.log 2 (publications - 1) + 1
    saturate (publications * levels * sortWorkPerElementLevel)

def Budget.admitRequest (budget : Budget) (path : List UInt8) : Except PlanError Budget := do
  let budget ← budget.step policy late
  let publications := saturate (budget.publications + 1)
  refuse (publications > policy.maxPublications) (.publicationCountLimit policy.maxPublications publications)
  let pathBytes := saturate (budget.pathBytes + path.length)
  refuse (pathBytes > policy.maxPathBytes) (.pathByteLimit policy.maxPathBytes pathBytes)
  return { budget with publications := publications, pathBytes := pathBytes }

def Budget.admitGenerated (budget : Budget) (path : List UInt8) (bytes : Nat) :
    Except PlanError Budget := do
  let budget ← budget.step policy late
  refuse (bytes > policy.maxGeneratedFileBytes) (.generatedFileByteLimit path policy.maxGeneratedFileBytes bytes)
  let total := saturate (budget.declaredGeneratedBytes + bytes)
  refuse (total > policy.maxGeneratedBytes) (.generatedTotalByteLimit policy.maxGeneratedBytes total)
  return { budget with declaredGeneratedBytes := total }

def isAsciiControl (byte : UInt8) : Bool := byte < 0x20 || byte == 0x7f

/-- A control character of a text: an ASCII one, or one of U+0080 to U+009F, which
are written with the two bytes here. -/
def hasControl : List UInt8 → Bool
  | [] => false
  | [byte] => isAsciiControl byte
  | byte :: next :: rest =>
    isAsciiControl byte || (byte == 0xc2 && 0x80 ≤ next && next ≤ 0x9f) || hasControl (next :: rest)

def retainedBootFilePrivatePrefix : List UInt8 := utf8 ".cast-payload-"

/-- The names that the publisher keeps for its own stages, in any case. -/
def isRetainedBootFilePrivateComponent (component : List UInt8) : Bool :=
  (component.take retainedBootFilePrivatePrefix.length).map toAsciiLowercase == retainedBootFilePrivatePrefix

def requireComponent (path component : List UInt8) : Except PlanError Unit := do
  refuse (component = []) (.emptyPathComponent path)
  refuse (component = utf8 ".") (.dotPathComponent path)
  refuse (component = utf8 "..") (.parentPathComponent path)
  refuse (hasControl component = true) (.controlPathComponent path)
  refuse (component.any (fun byte => 0x80 ≤ byte) = true) (.nonAsciiPathComponent path)
  refuse (isRetainedBootFilePrivateComponent component = true) (.reservedPrivatePublicationComponent path component)
  refuse (component.length > maxFatComponentBytes) (.fatComponentByteLimit path maxFatComponentBytes component.length)
  match component.find? (· ∈ fatForbidden) with
  | some character => .error (.fatForbiddenCharacter path character)
  | none => .ok ()
  refuse (component.getLast? = some 0x2e ∨ component.getLast? = some 0x20) (.fatTrailingDotOrSpace path)
  refuse (0x7e ∈ component) (.fatShortNameMarker path)
  refuse (isDosReservedComponent component = true) (.fatReservedName path component)

/-- The components from the given count on; each is charged and counted first. -/
def requireComponents (path : List UInt8) : Nat → List (List UInt8) → Budget → Except PlanError Budget
  | _, [], budget => .ok budget
  | count, component :: rest, budget => do
    let budget ← budget.step policy late
    let count := saturate (count + 1)
    refuse (count > policy.maxComponents) (.pathComponentLimit path policy.maxComponents count)
    requireComponent path component
    requireComponents path count rest budget

/-- The path as text, once it is normalized and safe on FAT. -/
def requireNormalizedRelativePath (path : List UInt8) (budget : Budget) : Except PlanError (String × Budget) := do
  refuse (path = []) .emptyPath
  refuse (0 ∈ path) (.nulPath path)
  let text ← okOr (String.fromUTF8? ⟨path.toArray⟩) (.nonUtf8Path path)
  refuse (path.head? = some slash) (.absolutePath path)
  refuse (path.length > policy.maxSinglePathBytes) (.singlePathByteLimit path policy.maxSinglePathBytes path.length)
  let budget ← requireComponents policy late path 0 (path.splitOn slash) budget
  return (text, budget)

def checksumPrefix : List UInt8 := utf8 "xxh3-"
def digestHexWidth : Nat := 32
def lengthHexWidth : Nat := 16

/-- The text around the first `-l`. -/
def splitAtLength : List UInt8 → Option (List UInt8 × List UInt8)
  | 0x2d :: 0x6c :: rest => some ([], rest)
  | byte :: rest => (splitAtLength rest).map fun parts => (byte :: parts.1, parts.2)
  | [] => none

def hexDigitValue (byte : UInt8) : Nat := if byte ≤ 0x39 then (byte - 0x30).toNat else (byte - 0x57).toNat

def hexValue (digits : List UInt8) : Nat := digits.foldl (fun value byte => 16 * value + hexDigitValue byte) 0

def checksumIdentityMatches (identity : List UInt8) (expectedDigest : BitVec 128) (expectedLength : UInt64) : Bool :=
  checksumPrefix.isPrefixOf identity &&
    match splitAtLength (identity.drop checksumPrefix.length) with
    | none => false
    | some (digest, length) =>
      decide (digest.length = digestHexWidth) && decide (length.length = lengthHexWidth) &&
        digest.all isLowerHex && length.all isLowerHex &&
        hexValue digest == expectedDigest.toNat && hexValue length == expectedLength.toNat

/-- A payload's path names its digest and its length. -/
def payloadPathMatches (path : List UInt8) : RequestSource → Bool
  | .generated _ => false
  | .sealedSnapshot _ digest length _ =>
    match path.splitOn slash with
    | [top, namespaceName, identity, leaf] =>
      top == utf8 "EFI" && !namespaceName.isEmpty && (leaf == utf8 "vmlinuz" || (utf8 ".initrd").isSuffixOf leaf) &&
        checksumIdentityMatches identity digest length
    | _ => false

def entryPathMatches (path : List UInt8) : Bool :=
  match path.splitOn slash with
  | [top, entries, filename] =>
    top == utf8 "loader" && entries == utf8 "entries" &&
      decide (filename.length > (utf8 ".conf").length) && (utf8 ".conf").isSuffixOf filename
  | _ => false

def rolePathMatches (request : Request) : Bool :=
  match request.role with
  | .payload => payloadPathMatches request.relativePath request.source
  | .entry => entryPathMatches request.relativePath
  | .loaderControl => request.relativePath == utf8 loaderControlPath
  | .fallbackBootloader => request.relativePath == utf8 fallbackBootloaderPath
  | .systemdBootloader => request.relativePath == utf8 systemdBootloaderPath

def requireRoleBinding (request : Request) : Except PlanError Unit := do
  let (expectedRoot, expectedPhase) := roleBinding request.role
  refuse (request.root ≠ expectedRoot) (.roleRootMismatch request.role expectedRoot request.root)
  refuse (request.phase ≠ expectedPhase) (.rolePhaseMismatch request.role expectedPhase request.phase)
  refuse (request.source.isSealed ≠ requiresSealedSource request.role) (.roleSourceMismatch request.role)
  refuse (rolePathMatches request = false) (.rolePathMismatch request.role request.relativePath)

section Admission

structure Hashes where
  xxh3 : List UInt8 → BitVec 128
  sha256 : List UInt8 → Vector UInt8 32

variable (hashes : Hashes)

def prepareSource (path : List UInt8) (source : RequestSource) (budget : Budget) :
    Except PlanError (Source × Budget) := do
  match source with
  | .sealedSnapshot bindingIndex digest length contentIdentity =>
    let budget ← budget.step policy late
    refuse (length.toNat > policy.maxSealedFileBytes)
      (.sealedSnapshotFileByteLimit path policy.maxSealedFileBytes length.toNat)
    return (.sealedSnapshot bindingIndex digest length contentIdentity, budget)
  | .generated bytes =>
    let budget ← budget.admitGenerated policy late path bytes.length
    let budget ← budget.step policy late
    return (.generated bytes (hashes.xxh3 bytes) ⟨hashes.sha256 bytes⟩, budget)

def caseFoldedPath (path : String) : List UInt8 := (utf8 path).map toAsciiLowercase

/-- The index of each destination of one domain. -/
abbrev Destinations := SortedMap (List UInt8) Nat

/-- The first directory above the path that is a destination. The walk goes from one
separator to the next and charges each. -/
def existingAncestorIndex (destinations : Destinations) :
    (front behind : List UInt8) → Budget → Except PlanError (Option Nat × Budget)
  | _, [], budget => .ok (none, budget)
  | front, byte :: behind, budget =>
    if byte ≠ slash then existingAncestorIndex destinations (front ++ [byte]) behind budget
    else do
      let budget ← budget.step policy late
      match destinations.find? front with
      | some existing => .ok (some existing, budget)
      | none => existingAncestorIndex destinations (front ++ [byte]) behind budget

/-- A destination below the path: the first one from the path with a separator on is
asked. -/
def existingDescendantIndex (destinations : Destinations) (folded : List UInt8)
    (budget : Budget) : Except PlanError (Option Nat × Budget) := do
  let budget ← budget.step policy late
  let below := folded ++ [slash]
  let found := (destinations.firstFrom below).filter fun entry => below.isPrefixOf entry.1
  return (found.map (·.2), budget)

structure Planning where
  budget : Budget
  outputs : List Planned
  destinations : CollisionDomain → Destinations

def Planning.start : Planning := ⟨.start, [], fun _ => .empty⟩

def Planning.output (planning : Planning) (index : Nat) : Except PlanError Planned :=
  okOr planning.outputs[index]? .panicked

def exactDuplicate (existing planned : Planned) : Bool :=
  existing.role == planned.role && existing.root == planned.root &&
    existing.phase == planned.phase && existing.relativePath == planned.relativePath &&
    existing.source == planned.source

def collisionError (existing planned : Planned) : PlanError :=
  if existing.relativePath = planned.relativePath then
    .publicationCollision existing.root planned.root planned.relativePath
  else
    .caseInsensitiveCollision existing.root planned.root existing.relativePath planned.relativePath

def Planning.insert (planning : Planning) (budget : Budget) (domain : CollisionDomain)
    (planned : Planned) : Planning where
  budget := budget
  outputs := planning.outputs ++ [planned]
  destinations := Function.update planning.destinations domain
    ((planning.destinations domain).insert planned.foldedRelativePath planning.outputs.length)

/-- A new output must not collide with any before it. -/
def Planning.place (planning : Planning) (domain : CollisionDomain) (planned : Planned)
    (budget : Budget) : Except PlanError Planning := do
  let destinations := planning.destinations domain
  let (ancestor, budget) ← existingAncestorIndex policy late destinations [] planned.foldedRelativePath budget
  match ancestor with
  | some index => do
    let existing ← planning.output index
    .error (.publicationHierarchyCollision existing.root planned.root existing.relativePath planned.relativePath)
  | none => .ok ()
  let (descendant, budget) ← existingDescendantIndex policy late destinations planned.foldedRelativePath budget
  match descendant with
  | some index => do
    let existing ← planning.output index
    .error (.publicationHierarchyCollision planned.root existing.root planned.relativePath existing.relativePath)
  | none => .ok ()
  return planning.insert budget domain planned

/-- An exact duplicate of an earlier output is passed over. -/
def Planning.settle (planning : Planning) (domain : CollisionDomain) (planned : Planned)
    (budget : Budget) : Except PlanError Planning :=
  match (planning.destinations domain).find? planned.foldedRelativePath with
  | some index => do
    let existing ← planning.output index
    if exactDuplicate existing planned then return { planning with budget := budget }
    else .error (collisionError existing planned)
  | none => planning.place policy late domain planned budget

variable (layout : Layout)

def Planning.admitPublication (planning : Planning) (request : Request) : Except PlanError Planning := do
  let budget ← planning.budget.admitRequest policy late request.relativePath
  let (path, budget) ← requireNormalizedRelativePath policy late request.relativePath budget
  requireRoleBinding request
  let (source, budget) ← prepareSource policy late hashes request.relativePath request.source budget
  let budget ← budget.step policy late
  planning.settle policy late (layout.forRoot request.root)
    ⟨request.role, request.root, request.phase, path, caseFoldedPath path, source⟩ budget

end Admission

section Plan

instance : Std.LawfulEqOrd Root where
  compare_self {root} := by cases root <;> rfl
  eq_of_compare {left right} := by cases left <;> cases right <;> decide

/-- Publication order. Paths compare by their components, as the source's paths do. -/
def comparePlanned (left right : Planned) : Ordering :=
  (((compare left.phase right.phase).then (compare left.root right.root)).then
    (compare left.foldedRelativePath right.foldedRelativePath)).then
      (compare ((utf8 left.relativePath).splitOn slash) ((utf8 right.relativePath).splitOn slash))

def sortPlanned (outputs : List Planned) : List Planned :=
  outputs.mergeSort fun left right => (comparePlanned left right).isLE

structure Totals where
  logicalBytes : Nat
  generatedBytes : Nat
  pathBytes : Nat

/-- A total with the bytes of the source, if they were generated. -/
def Source.addGenerated (source : Source) (total : Nat) : Nat :=
  match source.generatedBytes with
  | some bytes => saturate (total + bytes.length)
  | none => total

def addTotals : List Planned → Totals → Budget → Except PlanError (Totals × Budget)
  | [], totals, budget => .ok (totals, budget)
  | output :: rest, totals, budget => do
    let budget ← budget.step policy late
    let pathBytes ← okOr (checkedAdd totals.pathBytes (utf8 output.relativePath).length) .panicked
    let logicalBytes := saturate (totals.logicalBytes + output.source.length)
    refuse (logicalBytes > policy.maxLogicalBytes) (.logicalByteLimit policy.maxLogicalBytes logicalBytes)
    let generatedBytes := output.source.addGenerated totals.generatedBytes
    addTotals rest ⟨logicalBytes, generatedBytes, pathBytes⟩ budget

structure Plan where
  outputs : List Planned
  layout : Layout
  totals : Totals
  planningWork : Nat

variable (hashes : Hashes) (layout : Layout)

def preparePublicationPlan (requests : List Request) : Except PlanError Plan := do
  Budget.start.requireDeadline late
  let planning ← requests.foldlM (Planning.admitPublication policy late hashes layout) .start
  let budget ← planning.budget.step policy late
  let budget ← budget.reserveWork policy late (conservativeSortWork planning.outputs.length)
  let outputs := sortPlanned planning.outputs
  budget.requireDeadline late
  let (totals, budget) ← addTotals policy late outputs ⟨0, 0, 0⟩ budget
  budget.requireDeadline late
  return ⟨outputs, layout, totals, budget.work⟩

end Plan

end Cast.BootPublication.PublicationPlan
