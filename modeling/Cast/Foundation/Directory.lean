import Mathlib.Data.List.AList
import Cast.Foundation.Checks

/-! One directory of regular files, as a process sees it through system calls.
A name leads to an inode, an inode has permission bits and contents. Every call
is one atomic step; the names after it are described by an association list of
what the directory holds, in any order. -/

namespace Cast.Foundation

open List

abbrev FileName := List UInt8

structure Node where
  mode : UInt32
  bytes : List UInt8
  deriving DecidableEq

structure Metadata where
  mode : UInt32
  size : Nat
  
/-- The kinds of failure a caller can tell apart. `device` is any failure that
does not follow from the contents of the directory. -/
inductive IoError where
  | notFound
  | alreadyExists
  | permissionDenied
  | invalidData
  | device
  
/-- Inode numbers are given out in order and never twice, so a number that is
not yet given out names no file. -/
structure Directory where
  names : AList (fun _ : FileName => Nat)
  nodes : Nat → Node
  next : Nat
  allocated : ∀ name inode, names.lookup name = some inode → inode < next

namespace Directory

def empty : Directory where
  names := ∅
  nodes := fun _ => ⟨0, []⟩
  next := 0
  allocated := by simp

def setNode (directory : Directory) (inode : Nat) (node : Node) : Directory :=
  { directory with nodes := Function.update directory.nodes inode node }

def link (directory : Directory) (name : FileName) (inode : Nat) (known : inode < directory.next) : Directory where
  names := directory.names.insert name inode
  nodes := directory.nodes
  next := directory.next
  allocated := by
    intro other found located
    by_cases same : other = name
    · subst same
      rw [AList.lookup_insert, Option.some.injEq] at located
      exact located ▸ known
    · rw [AList.lookup_insert_ne same] at located
      exact directory.allocated other found located

def forget (directory : Directory) (name : FileName) : Directory where
  names := directory.names.erase name
  nodes := directory.nodes
  next := directory.next
  allocated := by
    intro other found located
    by_cases same : other = name
    · subst same
      rw [AList.lookup_erase] at located
      cases located
    · rw [AList.lookup_erase_ne same] at located
      exact directory.allocated other found located

/-- The next inode is given out for a node that has no name yet. -/
def allocate (directory : Directory) (node : Node) : Directory where
  names := directory.names
  nodes := Function.update directory.nodes directory.next node
  next := directory.next + 1
  allocated := fun name inode located =>
    Nat.lt_succ_of_lt (directory.allocated name inode located)

def addFile (directory : Directory) (name : FileName) (mode : UInt32) : Directory :=
  (directory.allocate ⟨mode, []⟩).link name directory.next (Nat.lt_succ_self directory.next)

end Directory

/-- The system calls. `rename` refuses an existing target, `exchange` swaps two
existing names; a file that is already open is named by its inode. -/
inductive Request where
  | list
  | openAt (name : FileName)
  | metadata (inode : Nat)
  | read (inode : Nat) (limit : Nat)
  | create (name : FileName) (mode : UInt32)
  | write (inode : Nat) (bytes : List UInt8)
  | chmod (inode : Nat) (mode : UInt32)
  | rename (old new : FileName)
  | exchange (left right : FileName)
  | unlink (name : FileName)
  | sync (inode : Nat)
  | syncDirectory
  deriving DecidableEq

namespace Request

@[reducible] def Value : Request → Type
  | list => List FileName
  | openAt _ => Nat
  | metadata _ => Metadata
  | read _ _ => List UInt8
  | create _ _ => Nat
  | write _ _ => Unit
  | chmod _ _ => Unit
  | rename _ _ => Unit
  | exchange _ _ => Unit
  | unlink _ => Unit
  | sync _ => Unit
  | syncDirectory => Unit

def observes : Request → Bool
  | list | openAt _ | metadata _ | read _ _ => true
  | _ => false

/-- Calls on the names of the directory, and the one that makes them durable. -/
def fallible : Request → Bool
  | rename _ _ | exchange _ _ | unlink _ | syncDirectory => true
  | _ => false

def isUnlink : Request → Bool
  | unlink _ => true
  | _ => false

end Request

namespace Directory

def renameEntry (directory : Directory) (old new : FileName) : Except IoError Unit × Directory :=
  match found : directory.names.lookup old with
  | none => (.error .notFound, directory)
  | some inode =>
    if new ∈ directory.names then (.error .alreadyExists, directory)
    else (.ok (), (directory.forget old).link new inode (directory.allocated old inode found))

def exchangeEntries (directory : Directory) (left right : FileName) : Except IoError Unit × Directory :=
  match leftFound : directory.names.lookup left, rightFound : directory.names.lookup right with
  | some leftInode, some rightInode =>
    let detached := (directory.forget left).forget right
    (.ok (), (detached.link left rightInode (directory.allocated right rightInode rightFound)).link
      right leftInode (directory.allocated left leftInode leftFound))
  | _, _ => (.error .notFound, directory)

/-- The answer to one call and the directory after it. -/
def perform (directory : Directory) : (request : Request) → Except IoError request.Value × Directory
  | .list => (.ok directory.names.keys, directory)
  | .openAt name => (okOr (directory.names.lookup name) .notFound, directory)
  | .metadata inode => (.ok ⟨(directory.nodes inode).mode, (directory.nodes inode).bytes.length⟩, directory)
  | .read inode limit => (.ok ((directory.nodes inode).bytes.take limit), directory)
  | .create name mode =>
    if name ∈ directory.names then (.error .alreadyExists, directory)
    else (.ok directory.next, directory.addFile name mode)
  | .write inode bytes =>
    (.ok (), directory.setNode inode ⟨(directory.nodes inode).mode, (directory.nodes inode).bytes ++ bytes⟩)
  | .chmod inode mode => (.ok (), directory.setNode inode ⟨mode, (directory.nodes inode).bytes⟩)
  | .rename old new => directory.renameEntry old new
  | .exchange left right => directory.exchangeEntries left right
  | .unlink name =>
    if name ∈ directory.names then (.ok (), directory.forget name)
    else (.error .notFound, directory)
  | .sync _ => (.ok (), directory)
  | .syncDirectory => (.ok (), directory)

@[simp] theorem setNode_nodes_self (directory : Directory) (inode : Nat) (node : Node) :
    (directory.setNode inode node).nodes inode = node :=
  Function.update_self _ _ _

theorem setNode_nodes_ne (directory : Directory) {inode other : Nat} (node : Node)
    (differs : other ≠ inode) : (directory.setNode inode node).nodes other = directory.nodes other :=
  Function.update_of_ne differs _ _

@[simp] theorem addFile_nodes_self (directory : Directory) (name : FileName) (mode : UInt32) :
    (directory.addFile name mode).nodes directory.next = ⟨mode, []⟩ :=
  Function.update_self _ _ _

theorem addFile_nodes (directory : Directory) (name : FileName) (mode : UInt32) {inode : Nat}
    (old : inode < directory.next) :
    (directory.addFile name mode).nodes inode = directory.nodes inode :=
  Function.update_of_ne (Nat.ne_of_lt old) _ _

/-- The names of the directory and the inodes they lead to, in any order. -/
structure Holds (directory : Directory) (listing : List (FileName × Nat)) : Prop where
  distinct : (listing.map Prod.fst).Nodup
  lookup : ∀ {name inode}, directory.names.lookup name = some inode ↔ (name, inode) ∈ listing

namespace Holds

variable {directory : Directory} {listing : List (FileName × Nat)} {name : FileName} {inode : Nat}

theorem empty : Directory.empty.Holds [] := ⟨nodup_nil, by simp [Directory.empty]⟩

section

variable (held : directory.Holds listing)
include held

theorem mem_names : name ∈ directory.names ↔ name ∈ listing.map Prod.fst := by
  simp [← AList.lookup_isSome, Option.isSome_iff_exists, held.lookup]

theorem lookup_eq_none (fresh : name ∉ listing.map Prod.fst) :
    directory.names.lookup name = none :=
  AList.lookup_eq_none.mpr fun member => fresh (held.mem_names.mp member)

theorem keys_perm : directory.names.keys.Perm (listing.map Prod.fst) :=
  (perm_ext_iff_of_nodup directory.names.keys_nodup held.distinct).mpr fun _ =>
    AList.mem_keys.symm.trans held.mem_names

theorem inode_lt (member : (name, inode) ∈ listing) : inode < directory.next :=
  directory.allocated name inode (held.lookup.mpr member)

theorem perm {other : List (FileName × Nat)} (same : listing.Perm other) : directory.Holds other :=
  ⟨(same.map Prod.fst).nodup held.distinct, held.lookup.trans same.mem_iff⟩

theorem congr {other : Directory} (same : other.names = directory.names) : other.Holds listing :=
  ⟨held.distinct, by rw [same]; exact held.lookup⟩

theorem setNode (node : Node) : (directory.setNode inode node).Holds listing := held.congr rfl

section

variable (fresh : name ∉ listing.map Prod.fst)
include fresh

theorem link (known : inode < directory.next) : (directory.link name inode known).Holds ((name, inode) :: listing) := by
  refine ⟨nodup_cons.mpr ⟨fresh, held.distinct⟩, fun {other found} => ?_⟩
  rw [mem_cons, Prod.mk.injEq]
  by_cases same : other = name
  · subst same
    have absent : (other, found) ∉ listing := fun member => fresh (mem_map_of_mem member)
    simp [Directory.link, absent, eq_comm]
  · simp [Directory.link, AList.lookup_insert_ne same, same, held.lookup]

theorem addFile (mode : UInt32) : (directory.addFile name mode).Holds ((name, directory.next) :: listing) := by
  have allocated : (directory.allocate ⟨mode, []⟩).Holds listing := held.congr rfl
  exact allocated.link fresh _

theorem create (mode : UInt32) :
    directory.perform (.create name mode) = (.ok directory.next, directory.addFile name mode) := by
  have absent : name ∉ directory.names := fun member => fresh (held.mem_names.mp member)
  simp only [perform, if_neg absent]

end

theorem create_taken (member : (name, inode) ∈ listing) (mode : UInt32) :
    directory.perform (.create name mode) = (.error .alreadyExists, directory) := by
  have present : name ∈ directory.names := held.mem_names.mpr (mem_map.mpr ⟨(name, inode), member, rfl⟩)
  simp only [perform, if_pos present]

theorem openAt (member : (name, inode) ∈ listing) : directory.perform (.openAt name) = (.ok inode, directory) := by
  simp only [perform, held.lookup.mpr member, okOr]

theorem openAt_absent (fresh : name ∉ listing.map Prod.fst) :
    directory.perform (.openAt name) = (.error .notFound, directory) := by
  simp only [perform, held.lookup_eq_none fresh, okOr]

end

theorem forget (held : directory.Holds ((name, inode) :: listing)) : (directory.forget name).Holds listing := by
  have distinct := nodup_cons.mp held.distinct
  refine ⟨distinct.2, fun {other found} => ?_⟩
  by_cases same : other = name
  · subst same
    have absent : (other, found) ∉ listing := fun member =>
      distinct.1 (mem_map.mpr ⟨(other, found), member, rfl⟩)
    simp [Directory.forget, absent]
  · simp [Directory.forget, AList.lookup_erase_ne same, held.lookup, same]

theorem rename (held : directory.Holds ((name, inode) :: listing)) {new : FileName}
    (fresh : new ∉ ((name, inode) :: listing).map Prod.fst) :
    ∃ renamed : Directory, directory.perform (.rename name new) = (.ok (), renamed) ∧
      renamed.Holds ((new, inode) :: listing) ∧ renamed.nodes = directory.nodes := by
  have absent : new ∉ directory.names := fun member => fresh (held.mem_names.mp member)
  have located : directory.names.lookup name = some inode := held.lookup.mpr mem_cons_self
  simp only [perform, renameEntry]
  split
  · next missing => rw [located] at missing; cases missing
  · next found foundAt =>
      rw [located, Option.some.injEq] at foundAt
      subst foundAt
      rw [if_neg absent]
      refine ⟨_, rfl, held.forget.link (fun member => fresh (mem_cons_of_mem _ member)) _, rfl⟩

theorem exchange {left right : FileName} {leftInode rightInode : Nat}
    (held : directory.Holds ((left, leftInode) :: (right, rightInode) :: listing)) :
    ∃ exchanged : Directory, directory.perform (.exchange left right) = (.ok (), exchanged) ∧
      exchanged.Holds ((left, rightInode) :: (right, leftInode) :: listing) ∧
      exchanged.nodes = directory.nodes := by
  have leftAt : directory.names.lookup left = some leftInode := held.lookup.mpr mem_cons_self
  have rightAt : directory.names.lookup right = some rightInode := held.lookup.mpr (mem_cons_of_mem _ mem_cons_self)
  simp only [perform, exchangeEntries]
  split
  · next found other foundAt otherAt =>
      rw [leftAt, Option.some.injEq] at foundAt
      rw [rightAt, Option.some.injEq] at otherAt
      subst foundAt otherAt
      have names := nodup_cons.mp held.distinct
      have rightNames := nodup_cons.mp names.2
      have leftLinked := @link _ _ left rightInode held.forget.forget (fun member => names.1 (mem_cons_of_mem _ member))
        (directory.allocated right rightInode rightAt)
      have fresh : right ∉ ((left, rightInode) :: listing).map Prod.fst := by
        rw [map_cons, mem_cons]
        rintro (same | member)
        · exact names.1 (same ▸ mem_cons_self)
        · exact rightNames.1 member
      exact ⟨_, rfl, (leftLinked.link fresh (directory.allocated left leftInode leftAt)).perm
        (List.Perm.swap _ _ _), rfl⟩
  · next missing => exact absurd rightAt (missing _ _ leftAt)

theorem unlink (held : directory.Holds ((name, inode) :: listing)) :
    directory.perform (.unlink name) = (.ok (), directory.forget name) := by
  have member : name ∈ directory.names := held.mem_names.mpr mem_cons_self
  simp only [perform, if_pos member]

end Holds

end Directory

end Cast.Foundation
