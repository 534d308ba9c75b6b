import Cast.Stone.Records
import Cast.Vfs.Builder

/-! Planning a frozen root, as `client/materialization/layout_planning.rs` does it: every
layout record is checked, the records are sorted, equal directories collapse, the collisions
that the tree builder would not refuse are refused, and the builder makes the tree.
The files of the tree are layout records, as `pending_file.rs` has them. -/

namespace Cast.Materialization

open Foundation Vfs Stone

/-- The characters of a package's identity. -/
abbrev PackageId := AStr

structure PendingFile where
  id : PackageId
  layout : LayoutRecord

def withTarget (target : String) : LayoutFile → LayoutFile
  | .regular source _ => .regular source target
  | .symlink source _ => .symlink source target
  | .directory _ => .directory target
  | .characterDevice _ => .characterDevice target
  | .blockDevice _ => .blockDevice target
  | .fifo _ => .fifo target
  | .socket _ => .socket target
  | .unknown source _ => .unknown source target

def kindOf : LayoutFile → Vfs.Kind
  | .symlink source _ => .symlink source.toList
  | .directory _ => .directory
  | _ => .regular

instance : BlitFile PendingFile where
  kind file := kindOf file.layout.file
  path file := join "/usr".toList file.layout.file.target.toList
  clonedTo file path :=
    { file with layout := { file.layout with file := withTarget (String.ofList path) file.layout.file } }
  ofPath path := ⟨[], ⟨0, 0, 0o755, 0, .directory (String.ofList path)⟩⟩

theorem target_withTarget (target : String) (file : LayoutFile) : (withTarget target file).target = target := by
  cases file <;> rfl

theorem kindOf_withTarget (target : String) (file : LayoutFile) : kindOf (withTarget target file) = kindOf file := by
  cases file <;> rfl

theorem join_absolute {leading path : AStr} (absolute : path.head? = some '/') :
    join leading path = path := if_pos absolute

instance : LawfulBlitFile PendingFile where
  kind_ofPath _ := rfl
  path_ofPath path absolute := by
    have target : (String.ofList path).toList = path := String.toList_ofList
    change join _ (String.ofList path).toList = path
    rw [target, join_absolute absolute]
  kind_clonedTo file path := kindOf_withTarget _ _
  path_clonedTo file path absolute := by
    have target : (String.ofList path).toList = path := String.toList_ofList
    change join _ (withTarget (String.ofList path) file.layout.file).target.toList = path
    rw [target_withTarget, target, join_absolute absolute]

/-- One less than `PATH_MAX`. -/
def maxFrozenExecutablePathBytes : Nat := 4096 - 1
def maxFrozenExecutableSymlinkTargetBytes : Nat := 4096 - 1
def maxFrozenLayoutPathComponents : Nat := 128
def maxFrozenExecutableDirectoryPaths : Nat := 262144
def maxTotalFrozenExecutableDirectoryBytes : Nat := 64 * 1024 * 1024
def maxStoneLayoutComponentBytes : Nat := 255
def maxStoneLayoutTargetDiagnosticBytes : Nat := 256
def frozenMaterializationTimeout : Nat := 600

inductive LayoutError where
  | frozenMaterializationTimeout (seconds : Nat)
  | unexpectedFrozenLayoutPackage (package : PackageId)
  | invalidStoneLayoutTarget (package : PackageId) (target : AStr) (reason : String)
  | frozenLayoutSymlinkTargetTooLong (package : PackageId) (limit actual : Nat)
  | invalidFrozenLayoutSymlinkTarget (package : PackageId) (reason : String)
  | invalidFrozenLayoutPath (package : PackageId) (path : AStr)
  | unsupportedFrozenOwnership (package : PackageId) (path : AStr) (uid gid : UInt32)
  | unsupportedFrozenLayout (package : PackageId) (path : AStr)
  | invalidFrozenLayoutMode (package : PackageId) (path : AStr) (mode : UInt32)
  | frozenPathCollision (path : AStr) (first second : PackageId)
  | frozenExecutableDirectoryLimit (limit actual : Nat)
  | frozenExecutableDirectoryByteLimit (limit actual : Nat)
  | frozenDirectorySymlinkDescendant (package : PackageId) (path redirect : AStr)
  | vfs (error : Vfs.Error)

/-! ### Targets -/

/-- The characters that fit into a number of bytes. -/
def charsWithin : Nat → AStr → AStr
  | _, [] => []
  | budget, char :: rest =>
    if char.utf8Size ≤ budget then char :: charsWithin (budget - char.utf8Size) rest else []

def stoneLayoutTargetDiagnostic (target : AStr) : AStr :=
  if byteLength target ≤ maxStoneLayoutTargetDiagnosticBytes then target
  else charsWithin maxStoneLayoutTargetDiagnosticBytes target ++ ['…']

def reservedUsrLayoutTargets : List AStr :=
  [".cast-state-id.tmp".toList, ".cast-tree-id".toList, ".cast-tree-id.tmp".toList,
    ".stateID".toList, "lib/os-release".toList, "lib/system-model.glu".toList]

def isReservedUsrLayoutTarget (target : AStr) : Bool :=
  reservedUsrLayoutTargets.any fun reserved =>
    target = reserved || (Tree.stripPrefix target reserved).any (·.head? = some '/')

def isAsciiControl (char : Char) : Bool := char.val < 0x20 || char.val == 0x7f

def isDotComponent (component : AStr) : Bool := component = ['.'] || component = ['.', '.']

def requireTargetComponents : Nat → List AStr → Except String Unit
  | _, [] => .ok ()
  | components, component :: rest => do
    refuse (isDotComponent component) "the target contains a dot component"
    refuse (maxStoneLayoutComponentBytes < byteLength component) "a target component exceeds Linux NAME_MAX"
    refuse (maxFrozenLayoutPathComponents < components + 1) "the materialized path is too deep"
    requireTargetComponents (components + 1) rest

/-- The count of components starts with that of `/usr`. -/
def requireUsrRelativeStoneTarget (target : AStr) : Except String Unit := do
  refuse (target = []) "the target is empty"
  refuse (target.head? = some '/') "the target is absolute"
  refuse (target.any isAsciiControl) "the target contains an ASCII control byte"
  refuse (target.getLast? = some '/') "the target has a trailing separator"
  refuse (['/', '/'] <:+: target) "the target contains a repeated separator"
  refuse (maxFrozenExecutablePathBytes < byteLength "/usr/".toList + byteLength target)
    "the materialized path exceeds Linux PATH_MAX"
  requireTargetComponents 1 (target.splitOn '/')
  refuse (isReservedUsrLayoutTarget target) "the target is reserved for Cast system metadata"

def requireUsrRelativeStoneLayout (package : PackageId) (layout : LayoutRecord) : Except LayoutError Unit :=
  let target := layout.file.target.toList
  (requireUsrRelativeStoneTarget target).mapError fun reason =>
    .invalidStoneLayoutTarget package (stoneLayoutTargetDiagnostic target) reason

def requireFrozenLayoutSymlinkTarget (package : PackageId) (target : AStr) :
    Except LayoutError Unit := do
  refuse (maxFrozenExecutableSymlinkTargetBytes < byteLength target)
    (.frozenLayoutSymlinkTargetTooLong package maxFrozenExecutableSymlinkTargetBytes (byteLength target))
  refuse (target = []) (.invalidFrozenLayoutSymlinkTarget package "the target is empty")
  refuse ('\x00' ∈ target) (.invalidFrozenLayoutSymlinkTarget package "the target contains NUL")

/-! ### Entries -/

def isNormalizedFrozenPath (path : AStr) : Bool :=
  "/usr/".toList.isPrefixOf path && !path.contains '\x00' && path.getLast? != some '/' &&
    !decide (['/', '/'] <:+: path) && !(path.splitOn '/').any isDotComponent

structure FrozenLayoutEntry where
  package : PackageId
  layout : LayoutRecord
  path : AStr
  packageOrder : Nat
  kindOrder : Nat
  sourceOrder : AStr

def sIfmt : UInt32 := 0o170000
def sIfreg : UInt32 := 0o100000
def sIfdir : UInt32 := 0o040000
def sIflnk : UInt32 := 0o120000

/-- `none` for an inode that a frozen root does not have. -/
def expectedFileType : LayoutFile → Option UInt32
  | .regular _ _ => some sIfreg
  | .directory _ => some sIfdir
  | .symlink _ _ => some sIflnk
  | _ => none

/-- A number in lowercase hexadecimal, padded to the width. -/
def hexText : Nat → Nat → AStr
  | 0, _ => []
  | width + 1, value => hexText width (value / 16) ++ [Nat.digitChar (value % 16)]

def kindOrderOf : LayoutFile → Nat
  | .directory _ => 0
  | .regular _ _ => 1
  | _ => 2

def sourceOrderOf : LayoutFile → AStr
  | .regular source _ => hexText 32 source.toNat
  | .symlink source _ => source.toList
  | _ => []

def requireSymlinkTarget (package : PackageId) : LayoutFile → Except LayoutError Unit
  | .symlink target _ => requireFrozenLayoutSymlinkTarget package target.toList
  | _ => .ok ()

def FrozenLayoutEntry.new (package : PackageId) (layout : LayoutRecord) (packageOrder : Nat) :
    Except LayoutError FrozenLayoutEntry := do
  requireUsrRelativeStoneLayout package layout
  requireSymlinkTarget package layout.file
  let path := "/usr/".toList ++ layout.file.target.toList
  refuse (isNormalizedFrozenPath path = false) (.invalidFrozenLayoutPath package path)
  refuse (layout.uid ≠ 0 ∨ layout.gid ≠ 0) (.unsupportedFrozenOwnership package path layout.uid layout.gid)
  let expected ← okOr (expectedFileType layout.file) (.unsupportedFrozenLayout package path)
  refuse (layout.mode &&& sIfmt ≠ expected ∨ layout.mode &&& ~~~(sIfmt ||| 0o7777) ≠ 0 ∨
      ¬ (expected ≠ sIflnk ∨ layout.mode &&& 0o7777 = 0o777))
    (.invalidFrozenLayoutMode package path layout.mode)
  return ⟨package, layout, path, packageOrder, kindOrderOf layout.file, sourceOrderOf layout.file⟩

namespace FrozenLayoutEntry

def isDirectory (entry : FrozenLayoutEntry) : Bool := (kindOf entry.layout.file).isDirectory

def pending (entry : FrozenLayoutEntry) : PendingFile := ⟨entry.package, entry.layout⟩

end FrozenLayoutEntry

def compareEntries : FrozenLayoutEntry → FrozenLayoutEntry → Ordering :=
  compareLex (compareOn (·.path)) <| compareLex (compareOn (·.packageOrder)) <|
    compareLex (compareOn (·.kindOrder)) <| compareLex (compareOn (·.sourceOrder)) <|
    compareLex (compareOn (·.layout.uid)) <| compareLex (compareOn (·.layout.gid)) <|
    compareLex (compareOn (·.layout.mode)) (compareOn (·.layout.tag))

def sortEntries (entries : List FrozenLayoutEntry) : List FrozenLayoutEntry :=
  entries.insertionSort fun left right => (compareEntries left right).isLE

def identicalDirectoryMetadata (first second : FrozenLayoutEntry) : Bool :=
  first.isDirectory && second.isDirectory && first.layout.uid == second.layout.uid &&
    first.layout.gid == second.layout.gid && first.layout.mode == second.layout.mode &&
    first.layout.tag == second.layout.tag

def frozenCollision (path : AStr) (first second : FrozenLayoutEntry) : LayoutError :=
  .frozenPathCollision path first.package second.package

/-- An entry with the path of the last selected one is the same directory, or a collision. -/
def selectEntry (selected : List FrozenLayoutEntry) (entry : FrozenLayoutEntry) :
    Except LayoutError (List FrozenLayoutEntry) :=
  match selected.getLast? with
  | some previous =>
    if previous.path = entry.path then
      if identicalDirectoryMetadata previous entry then .ok selected
      else .error (frozenCollision entry.path previous entry)
    else .ok (selected ++ [entry])
  | none => .ok (selected ++ [entry])

/-- Of a package that is named twice, the last place counts. -/
def packageOrders (packages : List PackageId) : SortedMap PackageId Nat :=
  packages.zipIdx.foldl (fun orders entry => orders.insert entry.1 entry.2) .empty

def entryOf (orders : SortedMap PackageId Nat) (row : PackageId × LayoutRecord) :
    Except LayoutError FrozenLayoutEntry := do
  let order ← okOr (orders.find? row.1) (.unexpectedFrozenLayoutPackage row.1)
  FrozenLayoutEntry.new row.1 row.2 order

def selectEntries (packages : List PackageId) (layouts : List (PackageId × LayoutRecord)) :
    Except LayoutError (List FrozenLayoutEntry) := do
  let entries ← layouts.mapM (entryOf (packageOrders packages))
  (sortEntries entries).foldlM selectEntry []

/-! ### Collisions -/

def pathParent (path : AStr) : Option AStr :=
  if path = ['/'] then none
  else
    match rfind '/' path with
    | some 0 => some ['/']
    | some position => some (path.take position)
    | none => some []

/-- The directories above a path, from its parent up. -/
def parentsOf : Nat → AStr → List AStr
  | 0, _ => []
  | depth + 1, path =>
    match pathParent path with
    | some parent => parent :: parentsOf depth parent
    | none => []

def FrozenLayoutEntry.parents (entry : FrozenLayoutEntry) : List AStr := parentsOf entry.path.length entry.path

structure Directories where
  paths : SortedMap AStr Unit
  bytes : Nat

def Directories.contains (directories : Directories) (path : AStr) : Bool := (directories.paths.find? path).isSome

structure DirectoryLimits where
  maxPaths : Nat
  maxBytes : Nat

def insertFrozenMaterializedDirectory (limits : DirectoryLimits) (directories : Directories)
    (path : AStr) : Except LayoutError Directories :=
  if directories.contains path then .ok directories
  else do
    let actualPaths := saturatingAdd directories.paths.entries.length 1
    refuse (limits.maxPaths < actualPaths) (.frozenExecutableDirectoryLimit limits.maxPaths actualPaths)
    let actualBytes := saturatingAdd directories.bytes (byteLength path)
    refuse (limits.maxBytes < actualBytes) (.frozenExecutableDirectoryByteLimit limits.maxBytes actualBytes)
    return ⟨directories.paths.insert path (), actualBytes⟩

def insertParents (limits : DirectoryLimits) (directories : Directories)
    (entry : FrozenLayoutEntry) : Except LayoutError Directories :=
  entry.parents.foldlM (insertFrozenMaterializedDirectory limits) directories

def insertEntry (limits : DirectoryLimits) (directories : Directories)
    (entry : FrozenLayoutEntry) : Except LayoutError Directories :=
  if entry.isDirectory then insertFrozenMaterializedDirectory limits directories entry.path
  else if directories.contains entry.path then
    .ok ⟨directories.paths.erase entry.path, directories.bytes - byteLength entry.path⟩
  else .ok directories

def frozenDirectories (limits : DirectoryLimits) (entries : List FrozenLayoutEntry) :
    Except LayoutError Directories := do
  let above ← entries.foldlM (insertParents limits) ⟨.empty, 0⟩
  entries.foldlM (insertEntry limits) above

/-- The directory that a symlink points to; a validated path has a parent. -/
def frozenRedirect (directories : Directories) (entry : FrozenLayoutEntry) : Option AStr :=
  match entry.layout.file with
  | .symlink target _ => do
    let target ←
      if target.toList.head? = some '/' then some target.toList
      else (pathParent entry.path).map fun parent => join parent target.toList
    if directories.contains target then some target else none
  | _ => none

def addFrozenRedirect (directories : Directories) (redirects : SortedMap AStr AStr)
    (entry : FrozenLayoutEntry) : SortedMap AStr AStr :=
  match frozenRedirect directories entry with
  | some target => redirects.insert entry.path target
  | none => redirects

def frozenRedirects (directories : Directories) (entries : List FrozenLayoutEntry) : SortedMap AStr AStr :=
  entries.foldl (addFrozenRedirect directories) .empty

def requireNoRedirectAbove (redirects : SortedMap AStr AStr) (entry : FrozenLayoutEntry) : Except LayoutError Unit :=
  entry.parents.forM fun ancestor =>
    refuse ((redirects.find? ancestor).isSome) (.frozenDirectorySymlinkDescendant entry.package entry.path ancestor)

def explicitEntries (entries : List FrozenLayoutEntry) : SortedMap AStr FrozenLayoutEntry :=
  entries.foldl (fun explicit entry => explicit.insert entry.path entry) .empty

def requireDirectoriesAbove (explicit : SortedMap AStr FrozenLayoutEntry)
    (entry : FrozenLayoutEntry) : Except LayoutError Unit :=
  entry.parents.forM fun parent =>
    match explicit.find? parent with
    | some ancestor =>
      if ancestor.isDirectory then .ok () else .error (frozenCollision entry.path ancestor entry)
    | none => .ok ()

def validateFrozenTreeCollisions (limits : DirectoryLimits) (entries : List FrozenLayoutEntry) :
    Except LayoutError Unit := do
  let directories ← frozenDirectories limits entries
  let redirects := frozenRedirects directories entries
  entries.forM (requireNoRedirectAbove redirects)
  entries.forM (requireDirectoriesAbove (explicitEntries entries))

def frozenLimits : DirectoryLimits := ⟨maxFrozenExecutableDirectoryPaths, maxTotalFrozenExecutableDirectoryBytes⟩

/-- The deadline is looked at before every step; here it is late or it is not. -/
def frozenVfsUntil {A N : Type} (arena : TreeArena (Vfs.File PendingFile) A N) (late : Bool)
    (packages : List PackageId) (layouts : List (PackageId × LayoutRecord)) :
    Except LayoutError (Tree A N) := do
  refuse late (.frozenMaterializationTimeout frozenMaterializationTimeout)
  let selected ← selectEntries packages layouts
  validateFrozenTreeCollisions frozenLimits selected
  (build arena (selected.map FrozenLayoutEntry.pending)).mapError .vfs

end Cast.Materialization
