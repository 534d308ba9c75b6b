import Mathlib.Data.List.Sort
import Cast.Vfs.Tree

/-! The builder of a tree, as `crates/vfs/src/tree/builder.rs` has it: pushed files, the
directories above them, and the tree with its symlink redirects. -/

namespace Cast.Vfs

open Foundation

structure TreeBuilder (T : Type) where
  explicit : List (File T)
  implicitDirs : SortedMap AStr (File T)

variable {T : Type}

/-- The number of separators, and then the text. -/
def sortedPaths (a b : File T) : Ordering :=
  if a.path.path.count '/' ≠ b.path.path.count '/' then
    compare (a.path.path.count '/') (b.path.path.count '/')
  else compare a.path.path b.path.path

def sortFiles (files : List (File T)) : List (File T) := files.insertionSort fun a b => (sortedPaths a b).isLE

namespace TreeBuilder

variable {T : Type} [BlitFile T]

def empty : TreeBuilder T := ⟨[], .empty⟩

/-- The paths of the directories that lead to a parent, from the root on. -/
def leadingPaths (leading : Option AStr) : List AStr → List AStr
  | [] => []
  | component :: rest =>
    let fullPath :=
      match leading with
      | some leading => join leading component
      | none => component
    fullPath :: leadingPaths (some fullPath) rest

def insertImplicit (dirs : SortedMap AStr (File T)) (fullPath : AStr) : Except Error (SortedMap AStr (File T)) := do
  let directory ← File.new (BlitFile.ofPath fullPath)
  return dirs.insert fullPath directory

def push (builder : TreeBuilder T) (item : T) : Except Error (TreeBuilder T) := do
  let file ← File.new item
  let implicitDirs ←
    match file.parent with
    | some parent => (leadingPaths none (components parent)).foldlM insertImplicit builder.implicitDirs
    | none => .ok builder.implicitDirs
  return ⟨builder.explicit ++ [file], implicitDirs⟩

/-- Sort the pushed files and forget the directories that one of them replaces. -/
def bake (builder : TreeBuilder T) : TreeBuilder T :=
  let explicit := sortFiles builder.explicit
  ⟨explicit, explicit.foldl (fun dirs file => dirs.erase file.path.path) builder.implicitDirs⟩

def nonDirs (builder : TreeBuilder T) : List (File T) := builder.explicit.filter fun file => !file.kind.isDirectory

/-- Every directory by its path; of several with one path, the last. -/
def allDirs (builder : TreeBuilder T) : SortedMap AStr (File T) :=
  let dirs := builder.explicit.filter fun file => file.kind.isDirectory
  (dirs ++ builder.implicitDirs.entries.map (·.2)).foldl
    (fun all directory => all.insert directory.path.path directory) .empty

def resolveLink (link : File T) (target : AStr) : AStr :=
  if target.head? = some '/' then target
  else
    match link.parent with
    | some parent => join parent target
    | none => target

/-- The directory of the tree that a link points to. -/
def redirectOf (allDirs : SortedMap AStr (File T)) (link : File T) : Option AStr :=
  match link.kind with
  | .symlink target =>
    let target := resolveLink link target
    if (allDirs.find? target).isSome then some target else none
  | _ => none

def addRedirect (allDirs : SortedMap AStr (File T)) (redirects : SortedMap AStr AStr)
    (link : File T) : SortedMap AStr AStr :=
  match redirectOf allDirs link with
  | some target => redirects.insert link.path.path target
  | none => redirects

def redirects (builder : TreeBuilder T) : SortedMap AStr AStr :=
  builder.nonDirs.foldl (addRedirect builder.allDirs) .empty

/-- Everything, directories first and then by depth and path. -/
def fullSet (builder : TreeBuilder T) : List (File T) :=
  sortFiles (builder.allDirs.entries.map (·.2) ++ builder.nonDirs)

variable {A N : Type} (arena : TreeArena (File T) A N)

/-- The tree before any redirect. -/
def plant (builder : TreeBuilder T) : Except Error (Tree A N) :=
  builder.fullSet.foldlM (Tree.insertNode arena) (Tree.withCapacity arena)

def tree (builder : TreeBuilder T) : Except Error (Tree A N) := do
  let planted ← builder.plant arena
  builder.redirects.entries.foldlM (fun tree redirect =>
    Tree.reparent arena tree redirect.1 redirect.2) planted

end TreeBuilder

/-- Push every item, bake, and generate the tree. -/
def build {T A N : Type} [BlitFile T] (arena : TreeArena (File T) A N) (items : List T) : Except Error (Tree A N) := do
  let builder ← items.foldlM TreeBuilder.push TreeBuilder.empty
  builder.bake.tree arena

/-- The file type of the builder's own tests. -/
structure CustomFile where
  path : AStr
  kind : Kind
  id : AStr
deriving DecidableEq

instance : BlitFile CustomFile where
  kind := CustomFile.kind
  path := CustomFile.path
  clonedTo file path := { file with path }
  ofPath path := ⟨path, .directory, "Virtual".toList⟩

instance : LawfulBlitFile CustomFile where
  kind_ofPath _ := rfl
  path_ofPath _ _ := rfl
  kind_clonedTo _ _ := rfl
  path_clonedTo _ _ _ := rfl

end Cast.Vfs
