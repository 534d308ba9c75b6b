import Cast.Foundation.Paths
import Cast.Foundation.TreeArena

/-! The tree of the virtual file system, as `crates/vfs/src/tree/mod.rs` keeps it: an arena
of files, a map from paths to nodes, and a count. The arena is a parameter.
Paths are cut and joined as `path.rs` does it, the parent and the file name at the last separator. -/

namespace Cast.Vfs

open Foundation

/-- The characters of a string atom. -/
abbrev AStr := List Char

def join (a b : AStr) : AStr :=
  if b.head? = some '/' then b
  else if a.getLast? = some '/' then a ++ b
  else a ++ '/' :: b

/-- A path that passed the assertions of its constructor. -/
structure VfsPath where
  path : AStr
  absolute : path.head? = some '/'
  trimmed : 1 < path.length → path.getLast? ≠ some '/'
deriving DecidableEq

/-- `none` is a failed assertion. The position of the file name is a number here, where the source
also panics if it is no `u32`. -/
def VfsPath.new (path : AStr) : Option VfsPath :=
  if absolute : path.head? = some '/' then
    if trimmed : 1 < path.length → path.getLast? ≠ some '/' then
      some ⟨path, absolute, trimmed⟩
    else none
  else none

def VfsPath.fileNameStartIdx (path : VfsPath) : Nat :=
  match rfind '/' path.path with
  | some position => position + 1
  | none => 0

def VfsPath.parentEndIdx (path : VfsPath) : Nat :=
  if path.fileNameStartIdx = 1 then 1 else path.fileNameStartIdx - 1

def VfsPath.fileName (path : VfsPath) : AStr := path.path.drop path.fileNameStartIdx

def VfsPath.parent (path : VfsPath) : Option AStr :=
  if 1 < path.path.length then some (path.path.take path.parentEndIdx) else none

/-- The root and then the names of a path. -/
def components (path : AStr) : List AStr :=
  ((if path.head? = some '/' then [['/']] else []) ++ path.splitOn '/').filter (· ≠ [])

inductive Kind where
  | regular
  | directory
  | symlink (target : AStr)
deriving DecidableEq

def Kind.isDirectory : Kind → Bool
  | directory => true
  | _ => false

/-- The interface of the files that a tree holds; `ofPath` is the conversion from a path to
a directory. -/
class BlitFile (T : Type) where
  kind : T → Kind
  path : T → AStr
  clonedTo : T → AStr → T
  ofPath : AStr → T

class LawfulBlitFile (T : Type) [BlitFile T] : Prop where
  kind_ofPath : ∀ path : AStr, BlitFile.kind (BlitFile.ofPath path : T) = .directory
  path_ofPath : ∀ path : AStr, path.head? = some '/' → BlitFile.path (BlitFile.ofPath path : T) = path
  kind_clonedTo : ∀ (file : T) (path : AStr), BlitFile.kind (BlitFile.clonedTo file path) = BlitFile.kind file
  path_clonedTo : ∀ (file : T) (path : AStr), path.head? = some '/' → BlitFile.path (BlitFile.clonedTo file path) = path

structure File (T : Type) where
  path : VfsPath
  kind : Kind
  inner : T

inductive Error where
  | missingParent (parent : AStr)
  /-- A failed assertion or an `unwrap` of nothing. -/
  | panicked
deriving DecidableEq

variable {T : Type}

def File.new [BlitFile T] (inner : T) : Except Error (File T) := do
  let path ← okOr (VfsPath.new (BlitFile.path inner)) .panicked
  return ⟨path, BlitFile.kind inner, inner⟩

def File.fileName (file : File T) : AStr := file.path.fileName

def File.parent (file : File T) : Option AStr := file.path.parent

structure Tree (A N : Type) where
  arena : A
  map : AStr → Option N
  length : Nat

inductive Element (T : Type) where
  | directory (partialName : AStr) (inner : T) (children : List (Element T))
  | child (partialName : AStr) (inner : T)

namespace Tree

variable {T A N : Type} (arena : TreeArena (File T) A N)

def withCapacity : Tree A N := ⟨arena.empty, fun _ => none, 0⟩

def newNode (tree : Tree A N) (data : File T) : N × Tree A N :=
  let (node, state) := arena.newNode tree.arena data
  (node, ⟨state, fun path => if path = data.path.path then some node else tree.map path, tree.length + 1⟩)

/-- The nodes below a parent that bear the name. -/
def others (tree : Tree A N) (parentNode : N) (fileName : AStr) : List (File T) :=
  ((arena.children tree.arena parentNode).filterMap (arena.get? tree.arena)).filter fun file => file.fileName = fileName

/-- A duplicate is reported and skipped: the node stays, but hangs nowhere. -/
def addChildToNode (tree : Tree A N) (nodeId : N) (parent : AStr) : Except Error (Tree A N) := do
  let node ← okOr (arena.get? tree.arena nodeId) .panicked
  let parentNode ← okOr (tree.map parent) (.missingParent parent)
  if (others arena tree parentNode node.fileName).isEmpty then do
    let state ← okOr (arena.append tree.arena parentNode nodeId) .panicked
    return { tree with arena := state }
  else return tree

/-- A node for the file, below its parent. -/
def insertNode (tree : Tree A N) (entry : File T) : Except Error (Tree A N) :=
  let (node, tree) := newNode arena tree entry
  match entry.parent with
  | some parent => addChildToNode arena tree node parent
  | none => .ok tree

/-- What is left of a text after it begins with another. -/
def stripPrefix : AStr → AStr → Option AStr
  | text, [] => some text
  | [], _ :: _ => none
  | first :: text, expected :: leading => if first = expected then stripPrefix text leading else none

/-- The file of a node, at the place below the target that it has below the source. -/
def orphanOf [BlitFile T] (tree : Tree A N) (sourcePath targetPath : AStr) (node : N) : Except Error (File T) := do
  let original ← okOr (arena.get? tree.arena node) .panicked
  let rest ← okOr (stripPrefix original.path.path sourcePath) .panicked
  File.new (BlitFile.clonedTo original.inner (join targetPath rest))

/-- An orphan is put below its parent, with the node that its path has already if it has one. -/
def adopt (tree : Tree A N) (orphan : File T) : Except Error (Tree A N) :=
  let (node, tree) :=
    match tree.map orphan.path.path with
    | some node => (node, tree)
    | none => newNode arena tree orphan
  match orphan.parent with
  | some parent => addChildToNode arena tree node parent
  | none => .ok tree

def reparent [BlitFile T] (tree : Tree A N) (sourcePath targetPath : AStr) : Except Error (Tree A N) :=
  match tree.map sourcePath with
  | none => .ok tree
  | some source => do
    let mutations := if (tree.map targetPath).isSome then
        (arena.descendants tree.arena source).drop 1
      else []
    let orphans ← mutations.mapM (orphanOf arena tree sourcePath targetPath)
    let state := (arena.children tree.arena source).foldl arena.removeSubtree tree.arena
    orphans.foldlM (adopt arena) { tree with arena := state }

/-- What the iterator yields; it ends at the first node that the arena does not have. -/
def collect (state : A) : List N → List T
  | [] => []
  | node :: rest =>
    match arena.get? state node with
    | some file => file.inner :: collect state rest
    | none => []

def iter (tree : Tree A N) : List T :=
  match tree.map ['/'] with
  | some root => collect arena tree.arena (arena.descendants tree.arena root)
  | none => []

/-- `none` once the depth is used up. -/
def structuredChildren (tree : Tree A N) : Nat → N → Option (Element T)
  | 0, _ => none
  | depth + 1, start => do
    let item ← arena.get? tree.arena start
    if item.kind.isDirectory then do
      let children ← (arena.children tree.arena start).mapM (structuredChildren tree depth)
      return .directory item.fileName item.inner children
    else return .child item.fileName item.inner

/-- The structured view, as deep as it is asked for. -/
def structured (tree : Tree A N) (depth : Nat) : Option (Option (Element T)) :=
  match tree.map ['/'] with
  | some root => (structuredChildren arena tree depth root).map some
  | none => some none

end Tree

end Cast.Vfs
