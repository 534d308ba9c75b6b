import Cast.Foundation.Machine
import Cast.Foundation.SortedMap

/-! The archive scanner. One pass over the entries of a tar stream admits a manifest, and with
an extraction root the same pass creates what it admits. The tar reader and the decompressor
belong to other crates: their entries are the input. -/

namespace Cast.Archive

open Foundation

inductive Error where
  | limitExceeded (resource : String) (actual limit : Nat)
  | sparseEntry (entry : Nat)
  | globalPaxEntry (entry : Nat)
  | duplicateExtension (entry : Nat) (field : String)
  | duplicatePaxKey (entry : Nat)
  | unsupportedPaxKey (entry : Nat)
  | invalidPaxEntry (entry : Nat)
  | invalidExtensionValue (entry : Nat)
  | danglingExtension
  | unsafePath (entry : Nat)
  | escapingSymlink (entry : Nat)
  | missingLinkTarget (entry : Nat)
  | unexpectedLinkTarget (entry : Nat)
  | strippedHardlinkTarget (entry : Nat)
  | forwardHardlink (entry : Nat)
  | invalidHardlinkTargetType (entry : Nat)
  | unsupportedInodeType (entry : Nat)
  | dataOnNonRegular (entry : Nat)
  | duplicatePath (entry : Nat)
  | pathTypeCollision (entry : Nat)
  | entrySizeMismatch (entry expected found : Nat)
  | entryStreamExceededDeclaredSize
  | arithmeticOverflow
  | descriptorOperation (operation : String)
  | io (source : String)

structure ArchiveLimits where
  entries : Nat
  pathBytes : Nat
  pathDepth : Nat
  onePathBytes : Nat
  linkBytes : Nat
  extensionBytes : Nat
  totalExtensionBytes : Nat
  fileLogicalBytes : Nat
  filePhysicalBytes : Nat
  totalLogicalBytes : Nat
  totalPhysicalBytes : Nat
  materializedNodes : Nat

/-- The kinds of header the tar reader tells apart. -/
inductive EntryType where
  | regular | directory | symlink | hardLink
  | gnuSparse | gnuLongName | gnuLongLink | paxGlobalExtensions | paxLocalExtensions | other
deriving DecidableEq

/-- One raw entry as the tar reader hands it over; reading any part of it can fail. -/
structure Entry where
  entryType : EntryType
  pathBytes : List UInt8
  linkNameBytes : Option (List UInt8)
  mode : Except String UInt32
  size : UInt64
  data : Except String (List UInt8)
  paxExtensions : Except String (Option (List (Except String (List UInt8 × List UInt8))))

inductive ManifestKind where
  | regular | directory | symlink | hardlink
deriving DecidableEq

abbrev Path := List (List UInt8)

structure ManifestEntry where
  path : Path
  kind : ManifestKind
  mode : UInt32
  logicalBytes : Nat
  physicalBytes : Nat
  linkTarget : Option (List UInt8)
  sha256 : Option (Vector UInt8 32)

structure PendingExtensions where
  path : Option (List UInt8) := none
  link : Option (List UInt8) := none

def requireLimit (resource : String) (actual limit : Nat) : Except Error Unit :=
  refuse (limit < actual) (.limitExceeded resource actual limit)

/-- `checked_add` of two 64-bit counters. -/
def counted (total amount : Nat) : Except Error Nat :=
  if total + amount < UInt64.size then .ok (total + amount) else .error .arithmeticOverflow

section Budget

structure ScanBudget where
  entries : Nat := 0
  pathBytes : Nat := 0
  extensionBytes : Nat := 0
  totalLogicalBytes : Nat := 0
  totalPhysicalBytes : Nat := 0

variable (limits : ArchiveLimits) (budget : ScanBudget)

def ScanBudget.entry : Except Error (Nat × ScanBudget) := do
  let entries ← counted budget.entries 1
  requireLimit "archive entries" entries limits.entries
  pure (entries - 1, { budget with entries })

def ScanBudget.paths (bytes : Nat) : Except Error ScanBudget := do
  let pathBytes ← counted budget.pathBytes bytes
  requireLimit "archive path bytes" pathBytes limits.pathBytes
  pure { budget with pathBytes }

def ScanBudget.extension (bytes : Nat) : Except Error ScanBudget := do
  requireLimit "one archive extension bytes" bytes limits.extensionBytes
  let extensionBytes ← counted budget.extensionBytes bytes
  requireLimit "aggregate archive extension bytes" extensionBytes limits.totalExtensionBytes
  pure { budget with extensionBytes }

def ScanBudget.data (logical physical : Nat) : Except Error ScanBudget := do
  requireLimit "one file logical bytes" logical limits.fileLogicalBytes
  requireLimit "one file physical bytes" physical limits.filePhysicalBytes
  let totalLogicalBytes ← counted budget.totalLogicalBytes logical
  let totalPhysicalBytes ← counted budget.totalPhysicalBytes physical
  requireLimit "aggregate expanded logical bytes" totalLogicalBytes limits.totalLogicalBytes
  requireLimit "aggregate expanded physical bytes" totalPhysicalBytes limits.totalPhysicalBytes
  pure { budget with totalLogicalBytes, totalPhysicalBytes }

end Budget

section Extensions

def bytesOf (text : String) : List UInt8 := text.toUTF8.data.toList

/-- The value of a GNU extension: one closing NUL does not belong to it. -/
def extensionValue (data : List UInt8) : List UInt8 := if data.getLast? = some 0 then data.dropLast else data

variable (limits : ArchiveLimits) (budget : ScanBudget) (entry : Entry) (index : Nat)

def readExtensionBytes : Except Error (List UInt8 × ScanBudget) := do
  let budget ← budget.extension limits entry.size.toNat
  let data ← entry.data.mapError .io
  let value := extensionValue data
  refuse (value = [] ∨ 0 ∈ value) (.invalidExtensionValue index)
  pure (value, budget)

def ignoredPaxKeys : List (List UInt8) :=
  ["uid", "gid", "uname", "gname", "mtime", "atime", "ctime", "charset", "comment"].map bytesOf

/-- One PAX record; the keys seen so far are kept in front of the names. -/
def readPaxExtension (state : List (List UInt8) × PendingExtensions)
    (extension : Except String (List UInt8 × List UInt8)) :
    Except Error (List (List UInt8) × PendingExtensions) := do
  let (keys, pending) := state
  let (key, value) ← extension.mapError .io
  refuse (keys.contains key = true) (.duplicatePaxKey index)
  refuse (bytesOf "GNU.sparse." <+: key) (.sparseEntry index)
  if key = bytesOf "path" then
    refuse (pending.path.isSome = true) (.duplicateExtension index "path")
    pure (key :: keys, { pending with path := some value })
  else if key = bytesOf "linkpath" then
    refuse (pending.link.isSome = true) (.duplicateExtension index "linkpath")
    pure (key :: keys, { pending with link := some value })
  else
    refuse (ignoredPaxKeys.contains key = false) (.unsupportedPaxKey index)
    pure (key :: keys, pending)

def readPaxExtensions (pending : PendingExtensions) : Except Error (PendingExtensions × ScanBudget) := do
  let budget ← budget.extension limits entry.size.toNat
  let found ← entry.paxExtensions.mapError .io
  let extensions ← okOr found (.invalidPaxEntry index)
  let (_, pending) ← extensions.foldlM (readPaxExtension index) ([], pending)
  pure (pending, budget)

end Extensions

section Paths

def backslash : UInt8 := 0x5c
def dot : List UInt8 := [0x2e]
def dotDot : List UInt8 := [0x2e, 0x2e]

def components (path : List UInt8) : Path := path.splitOn slash

def joinComponents (path : Path) : List UInt8 := [slash].intercalate path

variable (limits : ArchiveLimits) (index : Nat)

def canonicalRelativeComponents (path : List UInt8) (allowTrailingSlash : Bool) :
    Except Error Path := do
  refuse (path.head?.all (· = slash) = true ∨ 0 ∈ path ∨ backslash ∈ path) (.unsafePath index)
  requireLimit "one archive path bytes" path.length limits.onePathBytes
  let split := components path
  let raw := if allowTrailingSlash ∧ split.getLast? = some [] then split.dropLast else split
  refuse (raw = [] ∨ ∃ component ∈ raw, component = [] ∨ component = dot ∨ component = dotDot) (.unsafePath index)
  requireLimit "archive path depth" raw.length limits.pathDepth
  pure raw

def takeComponent (resolved : Path) (component : List UInt8) : Except Error Path :=
  if component = [] then .error (.escapingSymlink index)
  else if component = dot then .ok resolved
  else if component = dotDot then
    if resolved = [] then .error (.escapingSymlink index) else .ok resolved.dropLast
  else .ok (resolved ++ [component])

def resolveComponent (resolved : Path) (component : List UInt8) : Except Error Path := do
  let next ← takeComponent index resolved component
  requireLimit "archive link depth" next.length limits.pathDepth
  pure next

def validateSymlinkTarget (linkPath : Path) (target : List UInt8) : Except Error Unit := do
  refuse (target.head?.all (· = slash) = true ∨ 0 ∈ target ∨ backslash ∈ target) (.escapingSymlink index)
  requireLimit "archive link bytes" target.length limits.linkBytes
  let _ ← (components target).foldlM (resolveComponent limits index) linkPath.dropLast
  pure ()

end Paths

/-- What was admitted at each path, in the order of the paths. -/
abbrev Topology := SortedMap Path ManifestKind

def validateTopology (topology : Topology) (path : Path) (kind : ManifestKind) (index : Nat) :
    Except Error Unit := do
  refuse ((topology.find? path).isSome = true) (.duplicatePath index)
  refuse (((List.range' 1 (path.length - 1)).any fun depth =>
    (topology.find? (path.take depth)).any (· ≠ .directory)) = true) (.pathTypeCollision index)
  if kind ≠ .directory then
    -- The paths below this one come right behind it.
    let next := topology.entries.find? fun entry => compare path entry.1 = .lt
    refuse (next.any (fun entry => path.length < entry.1.length ∧ path <+: entry.1) = true) (.pathTypeCollision index)

/-- The nodes that extraction creates, by their paths, with the mode of each directory. -/
structure MaterializationTrie where
  children : SortedMap Path (Option UInt32) := .empty
  nodes : Nat := 0

/-- One node on the way to the path; a node above it is a directory. -/
def MaterializationTrie.visit (path : Path) (state : SortedMap Path (Option UInt32) × Nat)
    (depth : Nat) : SortedMap Path (Option UInt32) × Nat :=
  let known := state.1.find? (path.take depth)
  let mode := if depth < path.length then some (known.join.getD 0o755) else known.join
  (state.1.insert (path.take depth) mode, if known.isNone then state.2 + 1 else state.2)

def MaterializationTrie.admit (trie : MaterializationTrie) (path : Path) (kind : ManifestKind)
    (mode : UInt32) (limit : Nat) : Except Error MaterializationTrie := do
  let (visited, added) := (List.range' 1 path.length).foldl (visit path) (trie.children, 0)
  let children := if kind = .directory then visited.insert path (some mode) else visited
  let nodes ← counted trie.nodes added
  requireLimit "materialized archive nodes" nodes limit
  pure { children, nodes }

inductive Node where
  | directory
  | regular (content : List UInt8)
  | symlink (target : List UInt8)
deriving DecidableEq

/-- What stands below the extraction root. -/
abbrev Stage := Path → Option Node

/-- `mkdirat`, and the directory is opened whether or not it was there. -/
def Stage.ensureDirectory (path : Path) (stage : Stage) (depth : Nat) : Except Error Stage :=
  match stage (path.take depth) with
  | none => .ok (Function.update stage (path.take depth) (some .directory))
  | some .directory => .ok stage
  | some _ => .error (.descriptorOperation "pin archive directory")

def Stage.ensureDirectories (stage : Stage) (path : Path) : Except Error Stage :=
  (List.range' 1 path.length).foldlM (ensureDirectory path) stage

/-- A new name below the root, with the directories above it. -/
def Stage.create (stage : Stage) (path : Path) (node : Node) (operation : String) :
    Except Error Stage := do
  let stage ← stage.ensureDirectories path.dropLast
  refuse ((stage path).isSome = true) (.descriptorOperation operation)
  pure (Function.update stage path (some node))

def Stage.createHardlinkBeneath (stage : Stage) (target path : Path) : Except Error Stage := do
  refuse (target.dropLast ≠ [] ∧ stage target.dropLast ≠ some .directory)
    (.descriptorOperation "open hardlink target parent")
  let node ← okOr (stage target) (.descriptorOperation "create extracted hardlink")
  stage.create path node "create extracted hardlink"

section Scan

structure Scan where
  budget : ScanBudget := {}
  pending : PendingExtensions := {}
  manifest : List ManifestEntry := []
  topology : Topology := .empty
  materialization : MaterializationTrie := {}
  stage : Option Stage

variable (sha256 : List UInt8 → Vector UInt8 32) (limits : ArchiveLimits) (strip : Nat)

def classifyEntry (entryType : EntryType) (index : Nat) : Except Error ManifestKind :=
  match entryType with
  | .regular => .ok .regular
  | .directory => .ok .directory
  | .symlink => .ok .symlink
  | .hardLink => .ok .hardlink
  | _ => .error (.unsupportedInodeType index)

def requireLink (link : Option (List UInt8)) (index : Nat) : Except Error (List UInt8) :=
  okOr (link.filter (· ≠ [])) (.missingLinkTarget index)

/-- What the manifest records as the entry's target. -/
def linkTargetOf (kind : ManifestKind) (original : Path) (rawLink : Option (List UInt8))
    (logicalBytes : Nat) (budget : ScanBudget) (index : Nat) :
    Except Error (Option (List UInt8) × ScanBudget) :=
  let path := original.drop strip
  match kind with
  | .symlink => do
    refuse (logicalBytes ≠ 0) (.dataOnNonRegular index)
    let rawLink ← requireLink rawLink index
    let budget ← budget.paths limits rawLink.length
    validateSymlinkTarget limits index original rawLink
    if path ≠ [] then validateSymlinkTarget limits index path rawLink
    pure (some rawLink, budget)
  | .hardlink => do
    refuse (logicalBytes ≠ 0) (.dataOnNonRegular index)
    let rawLink ← requireLink rawLink index
    let budget ← budget.paths limits rawLink.length
    let originalTarget ← canonicalRelativeComponents limits index rawLink false
    let target := originalTarget.drop strip
    refuse (path ≠ [] ∧ target = []) (.strippedHardlinkTarget index)
    pure (some (joinComponents target), budget)
  | .regular | .directory => do
    refuse (rawLink.isSome = true) (.unexpectedLinkTarget index)
    refuse (kind = .directory ∧ logicalBytes ≠ 0) (.dataOnNonRegular index)
    pure (none, budget)

def materialize (kind : ManifestKind) (path : Path) (linkTarget : Option (List UInt8))
    (data : List UInt8) (stage : Stage) : Except Error Stage :=
  match kind with
  | .regular => stage.create path (.regular data) "create extracted regular file"
  | .symlink => stage.create path (.symlink (linkTarget.getD [])) "create extracted symlink"
  | .hardlink => stage.createHardlinkBeneath (components (linkTarget.getD [])) path
  | .directory => stage.ensureDirectories path

/-- The bytes of the entry, which only a regular file has. -/
def entryData (kind : ManifestKind) (entry : Entry) (index : Nat) : Except Error (List UInt8) := do
  let data ← entry.data.mapError .io
  if kind = .regular then
    refuse (entry.size.toNat < data.length) .entryStreamExceededDeclaredSize
    refuse (data.length ≠ entry.size.toNat) (.entrySizeMismatch index entry.size.toNat data.length)
  else refuse (data ≠ []) (.dataOnNonRegular index)
  pure data

/-- A hardlink names a file that was admitted before it. -/
def requireHardlinkTarget (topology : Topology) (kind : ManifestKind) (target : Path) (index : Nat) :
    Except Error Unit := do
  if kind = .hardlink then
    let targetKind ← okOr (topology.find? target) (.forwardHardlink index)
    refuse (targetKind ≠ .regular ∧ targetKind ≠ .hardlink) (.invalidHardlinkTargetType index)

/-- An entry that is not an extension takes the names that are pending. -/
def scanInode (scan : Scan) (budget : ScanBudget) (index : Nat) (entry : Entry) :
    Except Error Scan := do
  let rawPath := scan.pending.path.getD entry.pathBytes
  let rawLink := scan.pending.link.or entry.linkNameBytes
  let budget ← budget.paths limits rawPath.length
  let kind ← classifyEntry entry.entryType index
  let original ← canonicalRelativeComponents limits index rawPath (kind = .directory)
  let path := original.drop strip
  let mode ← entry.mode.mapError .io
  let size := entry.size.toNat
  let budget ← budget.data limits size size
  let (linkTarget, budget) ← linkTargetOf limits strip kind original rawLink size budget index
  if path = [] then
    let _ ← entryData kind entry index
    return { scan with budget, pending := {} }
  validateTopology scan.topology path kind index
  let materialization ← scan.materialization.admit path kind (mode &&& 0o777) limits.materializedNodes
  requireHardlinkTarget scan.topology kind (components (linkTarget.getD [])) index
  -- The source creates a regular file before it reads the bytes; a failure of either ends the scan.
  let data ← entryData kind entry index
  let stage ← scan.stage.mapM (materialize kind path linkTarget data)
  pure { budget, stage, materialization
         pending := {}
         topology := scan.topology.insert path kind
         manifest := scan.manifest ++ [{
           path, kind, linkTarget
           mode := mode &&& 0o777
           logicalBytes := size
           physicalBytes := size
           sha256 := if kind = .regular then some (sha256 data) else none }] }

def scanEntry (scan : Scan) (read : Except String Entry) : Except Error Scan := do
  let entry ← read.mapError .io
  let (index, budget) ← scan.budget.entry limits
  match entry.entryType with
  | .gnuSparse => .error (.sparseEntry index)
  | .paxGlobalExtensions => .error (.globalPaxEntry index)
  | .gnuLongName =>
    refuse (scan.pending.path.isSome = true) (.duplicateExtension index "path")
    let (value, budget) ← readExtensionBytes limits budget entry index
    pure { scan with budget, pending := { scan.pending with path := some value } }
  | .gnuLongLink =>
    refuse (scan.pending.link.isSome = true) (.duplicateExtension index "linkpath")
    let (value, budget) ← readExtensionBytes limits budget entry index
    pure { scan with budget, pending := { scan.pending with link := some value } }
  | .paxLocalExtensions =>
    let (pending, budget) ← readPaxExtensions limits budget entry index scan.pending
    pure { scan with budget, pending }
  | _ => scanInode sha256 limits strip scan budget index entry

/-- The decoded stream: its entries, and how many bytes it had once it was read to its end. -/
structure TarStream where
  entries : List (Except String Entry)
  decodedBytes : Except String Nat

structure ScanResult where
  manifest : List ManifestEntry
  decodedBytes : Nat
  usage : ScanBudget
  materializedNodes : Nat
  stage : Option Stage

def scanArchive (archive : TarStream) (extractionRoot : Option Stage) : Except Error ScanResult := do
  let scan ← archive.entries.foldlM (scanEntry sha256 limits strip) { stage := extractionRoot }
  refuse (scan.pending.path.isSome = true ∨ scan.pending.link.isSome = true) .danglingExtension
  let decodedBytes ← archive.decodedBytes.mapError .io
  pure { manifest := scan.manifest, decodedBytes, usage := scan.budget
         materializedNodes := scan.materialization.nodes, stage := scan.stage }

end Scan

end Cast.Archive
