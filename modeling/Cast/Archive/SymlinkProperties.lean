import Mathlib.Data.Vector.Defs
import Cast.Archive.Scanning
import Cast.Foundation.PathWalk

/-! Where the links of an extracted tree lead. Each target is held against the directory of its
own link alone, as if no name in it were a link. The kernel follows the links it meets, so a
step to the parent behind another link starts from where that link leads. -/

namespace Cast.Archive

open Foundation Stage
open List hiding Vector

variable {sha256 : List UInt8 → Vector UInt8 32} {limits : ArchiveLimits} {strip index : Nat}
  {budget : ScanBudget} {path original : Path} {archive : TarStream} {result : ScanResult}
  {kind : ManifestKind} {linkTarget : Option (List UInt8)}

/-- An entry with the names that the extensions before it give it. -/
structure Inode where
  entryType : EntryType
  path : Path
  link : Option (List UInt8)

def Entry.bytes (entry : Entry) : List UInt8 := entry.data.toOption.getD []

/-- The last value of a PAX key. -/
def Entry.paxValue (entry : Entry) (key : String) : Option (List UInt8) :=
  ((entry.paxExtensions.toOption.join.getD []).filterMap Except.toOption).reverse.lookup (bytesOf key)

/-- What an extension adds to the names of the next entry. -/
def PendingExtensions.after (pending : PendingExtensions) (entry : Entry) : Option PendingExtensions :=
  match entry.entryType with
  | .gnuLongName => some { pending with path := some (extensionValue entry.bytes) }
  | .gnuLongLink => some { pending with link := some (extensionValue entry.bytes) }
  | .paxLocalExtensions =>
    some ⟨(entry.paxValue "path").or pending.path, (entry.paxValue "linkpath").or pending.link⟩
  | _ => none

def inodeOf (strip : Nat) (pending : PendingExtensions) (entry : Entry) : Inode :=
  let split := components (pending.path.getD entry.pathBytes)
  let raw := if entry.entryType = .directory ∧ split.getLast? = some [] then split.dropLast else split
  ⟨entry.entryType, raw.drop strip, pending.link.or entry.linkNameBytes⟩

def nameEntry (strip : Nat) (state : PendingExtensions × List Inode) (entry : Entry) : PendingExtensions × List Inode :=
  match state.1.after entry with
  | some pending => (pending, state.2)
  | none => ({}, state.2 ++ [inodeOf strip state.1 entry])

def declaredInodes (strip : Nat) (archive : TarStream) : List Inode :=
  ((archive.entries.filterMap Except.toOption).foldl (nameEntry strip) ({}, [])).2

/-- The deepest directory that the inode needs or is. -/
def Inode.holder (inode : Inode) : Path :=
  if inode.entryType = .directory then inode.path else inode.path.dropLast

def Inode.Links (inode : Inode) (path : Path) (target : List UInt8) : Prop :=
  inode.entryType = .symlink ∧ inode.path = path ∧ inode.link = some target

/-- The components of a target as the kernel takes them. -/
def kernelComponent (component : List UInt8) : Segment (List UInt8) :=
  if component = [] ∨ component = dot then .current
  else if component = dotDot then .parent else .name component

def kernelPath (target : List UInt8) : List (Segment (List UInt8)) := (components target).map kernelComponent

/-- The node that an inode declares at a path, unless that is a regular file. -/
def Inode.Declares (inode : Inode) (path : Path) : Node → Prop
  | .directory => path ≠ [] ∧ path <+: inode.holder
  | .symlink target => path ≠ [] ∧ inode.Links path target
  | .regular _ => False

/-- The tree of the directories and links that stand at the paths. -/
def treeOf (stands : Path → Node → Prop) : LinkTree (List UInt8) where
  isDirectory position := stands position.reverse .directory
  linkAt position target := ∃ bytes, stands position.reverse (.symlink bytes) ∧ target = kernelPath bytes

def declaredTree (inodes : List Inode) : LinkTree (List UInt8) :=
  treeOf fun path node => ∃ inode ∈ inodes, inode.Declares path node

def Stage.tree (stage : Stage) : LinkTree (List UInt8) := treeOf fun path node => stage path = some node

variable {stage : Stage} {inode : Inode} {entry : Entry} {pending : PendingExtensions}

variable {next : Stage} {other : Path} {node found : Node} {operation : String}

theorem Stage.ensureDirectory_iff {depth : Nat}
    (made : Stage.ensureDirectory path stage depth = .ok next) : next other = some found ↔
      stage other = some found ∨ found = .directory ∧ other = path.take depth := by
  rw [Stage.ensureDirectory] at made
  cases here : stage (path.take depth) with
  | none =>
    rw [here] at made
    cases made
    rw [Function.update_apply]
    by_cases same : other = path.take depth
    · simp [same, here, eq_comm]
    · simp [same]
  | some node =>
    rw [here] at made
    cases node with
    | directory =>
      cases made
      refine (or_iff_left_of_imp ?_).symm
      rintro ⟨rfl, rfl⟩
      exact here
    | regular | symlink => cases made

/-- Every directory down to the path is there, and nothing else has changed. -/
theorem Stage.ensureDirectories_iff (made : stage.ensureDirectories path = .ok next) :
    next other = some found ↔ stage other = some found ∨ found = .directory ∧ other ≠ [] ∧ other <+: path := by
  have visited := foldlM_processed (fun (before : List Nat) (state : Stage) => state other = some found ↔
    stage other = some found ∨ found = .directory ∧ ∃ depth ∈ before, other = path.take depth)
    (by simp) (by
      intro before depth _ state next _ held made
      rw [ensureDirectory_iff made, held]
      simp only [mem_append, mem_singleton, or_and_right, exists_or, exists_eq_left, and_or_left, or_assoc]) made
  rw [visited]
  refine or_congr_right (and_congr_right fun _ => ?_)
  simp only [mem_range'_1]
  constructor
  · rintro ⟨depth, bounds, rfl⟩
    refine ⟨ne_nil_of_length_pos ?_, take_prefix _ _⟩
    rw [length_take]
    omega
  · rintro ⟨some, below⟩
    have shorter := below.length_le
    have positive := length_pos_iff.mpr some
    exact ⟨other.length, by omega, prefix_iff_eq_take.mp below⟩

theorem Stage.create_iff (created : stage.create path node operation = .ok next) :
    next other = some found ↔ (stage other = some found ∨ found = .directory ∧ other ≠ [] ∧
      other <+: path.dropLast) ∨ other = path ∧ found = node := by
  simp only [Stage.create, bind_eq_ok, exists_check, refuse_eq_ok, pure_eq_ok] at created
  obtain ⟨mid, made, free, rfl⟩ := created
  rw [Function.update_apply, ← ensureDirectories_iff made]
  by_cases same : other = path
  · simp [same, Option.not_isSome_iff_eq_none.mp free, eq_comm]
  · simp [same]

def Node.isRegular : Node → Bool
  | .regular _ => true
  | _ => false

/-- The stage has grown by what the inode declares, and has lost no file. -/
structure Placed (stage after : Stage) (inode : Inode) : Prop where
  grows : ∀ path node, node.isRegular = false →
    (after path = some node ↔ stage path = some node ∨ inode.Declares path node)
  keeps : ∀ path node, stage path = some node → after path = some node

theorem Placed.nothing (empty : inode.path = []) : Placed stage stage inode := by
  refine ⟨fun path node proper => (or_iff_left ?_).symm, fun _ _ stands => stands⟩
  have holder : inode.holder = [] := by rw [Inode.holder, empty, dropLast_nil, ite_self]
  cases node with
  | regular => cases proper
  | directory => simp [Inode.Declares, holder]
  | symlink =>
    rintro ⟨some, _, rfl, _⟩
    exact some empty

theorem Stage.ensureDirectories_placed (isDirectory : inode.entryType = .directory)
    (made : stage.ensureDirectories inode.path = .ok next) : Placed stage next inode := by
  refine ⟨fun path node proper => ?_, fun _ _ stands => (ensureDirectories_iff made).mpr (.inl stands)⟩
  rw [ensureDirectories_iff made]
  cases node with
  | regular => cases proper
  | directory => simp [Inode.Declares, Inode.holder, isDirectory]
  | symlink => simp [Inode.Declares, Inode.Links, isDirectory]

theorem Stage.create_placed (filled : inode.path ≠ []) (plain : inode.entryType ≠ .directory)
    (proper : node ≠ .directory) (links : ∀ target, node = .symlink target ↔ inode.Links inode.path target)
    (created : stage.create inode.path node operation = .ok next) : Placed stage next inode := by
  refine ⟨fun path found isFound => ?_, fun _ _ stands => (create_iff created).mpr (.inl (.inl stands))⟩
  rw [create_iff created, or_assoc]
  refine or_congr_right ?_
  cases found with
  | regular => cases isFound
  | directory => simp [Inode.Declares, Inode.holder, plain, proper.symm]
  | symlink target =>
    simp only [Inode.Declares, reduceCtorEq, false_and, false_or, eq_comm, links]
    constructor
    · rintro ⟨rfl, isLink⟩
      exact ⟨filled, isLink⟩
    · rintro ⟨_, isLink⟩
      obtain rfl := isLink.2.1
      exact ⟨rfl, isLink⟩

variable {target : List UInt8}

theorem lexical_of_resolves {parts resolved final : Path}
    (resolves : parts.foldlM (resolveComponent limits index) resolved = .ok final) :
    lexical resolved.reverse (parts.map kernelComponent) ≠ none := by
  induction parts generalizing resolved with
  | nil => exact Option.some_ne_none _
  | cons component parts ih =>
    rw [foldlM_cons, bind_eq_ok] at resolves
    obtain ⟨next, taken, rest⟩ := resolves
    have further := ih rest
    simp only [resolveComponent, bind_eq_ok, exists_check, pure_eq_ok] at taken
    obtain ⟨_, taken, _, rfl⟩ := taken
    rw [takeComponent] at taken
    rw [map_cons, kernelComponent]
    split_ifs at taken with empty isDot isParent atRoot
    · cases taken
      rwa [if_pos (.inr isDot)]
    · cases taken
      rw [if_neg (by simp [empty, isDot]), if_pos isParent]
      obtain ⟨front, last, rfl⟩ := (eq_nil_or_concat' resolved).resolve_left atRoot
      rw [dropLast_concat] at further
      rwa [reverse_concat]
    · cases taken
      rw [if_neg (by simp [empty, isDot]), if_neg isParent]
      rwa [reverse_concat] at further

theorem lexical_of_validated (valid : validateSymlinkTarget limits index path target = .ok ()) :
    lexical path.dropLast.reverse (kernelPath target) ≠ none := by
  simp only [validateSymlinkTarget, bind_eq_ok, exists_check] at valid
  obtain ⟨_, _, _, resolves, _⟩ := valid
  exact lexical_of_resolves resolves

variable {after : ScanBudget} {next : PendingExtensions}

theorem readExtensionBytes_ok {value : List UInt8}
    (read : readExtensionBytes limits budget entry index = .ok (value, after)) :
    value = extensionValue entry.bytes := by
  simp only [readExtensionBytes, bind_eq_ok, exists_check, mapError_eq_ok, pure_eq_ok, Prod.mk.injEq] at read
  obtain ⟨_, _, data, isData, _, rfl, _⟩ := read
  rw [Entry.bytes, isData]
  rfl

theorem readPaxExtensions_ok (read : readPaxExtensions limits budget entry index pending = .ok (next, after)) :
    next = ⟨(entry.paxValue "path").or pending.path, (entry.paxValue "linkpath").or pending.link⟩ := by
  simp only [readPaxExtensions, bind_eq_ok, mapError_eq_ok, okOr_eq_ok, pure_eq_ok, Prod.mk.injEq] at read
  obtain ⟨_, _, found, isFound, extensions, rfl, ⟨keys, last⟩, folded, rfl, _⟩ := read
  have names := foldlM_processed (fun (before : List (Except String (List UInt8 × List UInt8)))
      (state : List (List UInt8) × PendingExtensions) =>
    state.2 = ⟨((before.filterMap Except.toOption).reverse.lookup (bytesOf "path")).or pending.path,
      ((before.filterMap Except.toOption).reverse.lookup (bytesOf "linkpath")).or pending.link⟩)
    rfl (by
      intro before extension _ state next _ held taken
      obtain ⟨keys, state⟩ := state
      simp only [readPaxExtension, bind_eq_ok, mapError_eq_ok] at taken
      obtain ⟨⟨key, value⟩, rfl, taken⟩ := taken
      subst held
      have apart : bytesOf "linkpath" ≠ bytesOf "path" := by decide
      rw [filterMap_append, reverse_append]
      simp only [Except.toOption, filterMap_cons, filterMap_nil, reverse_singleton, singleton_append, lookup_cons]
      split_ifs at taken with isPath isLink <;>
        simp only [bind_eq_ok, exists_check, pure_eq_ok] at taken <;>
        obtain ⟨_, _, _, rfl⟩ := taken
      · obtain rfl : key = bytesOf "path" := isPath
        simp [beq_false_of_ne apart]
      · obtain rfl : key = bytesOf "linkpath" := isLink
        simp [beq_false_of_ne apart.symm]
      · simp [beq_false_of_ne (Ne.symm isPath), beq_false_of_ne (Ne.symm isLink)]) folded
  rw [names, Entry.paxValue, Entry.paxValue, isFound]
  rfl

/-- After the entries read so far the stage holds what they declare, and every target is
contained in itself. -/
structure Tracks (named : PendingExtensions × List Inode) (scan : Scan) (stage : Stage) : Prop where
  pending : scan.pending = named.1
  staged : scan.stage = some stage
  nodes : ∀ path node, node.isRegular = false → (stage path = some node ↔ ∃ inode ∈ named.2, inode.Declares path node)
  files : ∀ path kind, scan.topology.find? path = some kind → kind = .regular ∨ kind = .hardlink →
    ∃ content, stage path = some (.regular content)
  contained : ∀ inode ∈ named.2, ∀ path target, inode.Declares path (.symlink target) →
    lexical path.dropLast.reverse (kernelPath target) ≠ none

variable {named : PendingExtensions × List Inode} {scan next : Scan}

/-- The header that a manifest kind comes from. -/
def ManifestKind.entryType : ManifestKind → EntryType
  | .regular => .regular
  | .directory => .directory
  | .symlink => .symlink
  | .hardlink => .hardLink

theorem classifyEntry_ok {entryType : EntryType}
    (classified : classifyEntry entryType index = .ok kind) : entryType = kind.entryType := by
  cases entryType <;> cases classified <;> rfl

theorem inodeOf_path (isKind : entry.entryType = kind.entryType)
    (canonical : canonicalRelativeComponents limits index (pending.path.getD entry.pathBytes)
      (kind = .directory) = .ok original) : (inodeOf strip pending entry).path = original.drop strip := by
  simp only [canonicalRelativeComponents, bind_eq_ok, exists_check, pure_eq_ok] at canonical
  obtain ⟨_, _, _, _, rfl⟩ := canonical
  rw [inodeOf, isKind]
  cases kind <;> simp [ManifestKind.entryType]

theorem linkTargetOf_symlink {rawLink : Option (List UInt8)} {size : Nat}
    {after : ScanBudget} (filled : original.drop strip ≠ [])
    (found : linkTargetOf limits strip .symlink original rawLink size budget index =
      .ok (linkTarget, after)) : linkTarget = rawLink ∧ ∃ target, rawLink = some target ∧
        validateSymlinkTarget limits index (original.drop strip) target = .ok () := by
  simp only [linkTargetOf, requireLink, bind_eq_ok, exists_check, okOr_eq_ok, pure_eq_ok,
    Option.filter_eq_some_iff, if_pos filled, Prod.mk.injEq] at found
  obtain ⟨_, target, ⟨rfl, _⟩, _, _, _, valid, rfl, _⟩ := found
  exact ⟨rfl, target, rfl, valid⟩

theorem materialize_placed {data : List UInt8} {after : Stage} (filled : inode.path ≠ [])
    (entryType : inode.entryType = kind.entryType)
    (isLink : kind = .symlink → ∃ target, inode.link = some target ∧ linkTarget = some target)
    (isFile : kind = .hardlink → ∃ content, stage (components (linkTarget.getD [])) = some (.regular content))
    (made : materialize kind inode.path linkTarget data stage = .ok after) :
    Placed stage after inode ∧
      (kind = .regular ∨ kind = .hardlink → ∃ content, after inode.path = some (.regular content)) := by
  cases kind with
  | regular =>
    have placed := create_placed filled (by simp [entryType, ManifestKind.entryType]) (by simp)
      (by simp [Inode.Links, entryType, ManifestKind.entryType]) made
    exact ⟨placed, fun _ => ⟨data, (create_iff made).mpr (.inr ⟨rfl, rfl⟩)⟩⟩
  | directory => exact ⟨ensureDirectories_placed entryType made, by simp⟩
  | symlink =>
    obtain ⟨target, link, rfl⟩ := isLink rfl
    have placed := create_placed filled (by simp [entryType, ManifestKind.entryType]) (by simp)
      (by simp [Inode.Links, entryType, ManifestKind.entryType, link]) made
    exact ⟨placed, by simp⟩
  | hardlink =>
    obtain ⟨content, stands⟩ := isFile rfl
    simp only [materialize, Stage.createHardlinkBeneath, bind_eq_ok, exists_check, okOr_eq_ok] at made
    obtain ⟨_, node, isNode, made⟩ := made
    cases stands.symm.trans isNode
    have placed := create_placed filled (by simp [entryType, ManifestKind.entryType]) (by simp)
      (by simp [Inode.Links, entryType, ManifestKind.entryType]) made
    exact ⟨placed, fun _ => ⟨content, (create_iff made).mpr (.inr ⟨rfl, rfl⟩)⟩⟩

section

variable (tracks : Tracks named scan stage)
include tracks

theorem Tracks.admit {after : Stage} (placed : Placed stage after inode)
    (contained : ∀ path target, inode.Declares path (.symlink target) →
      lexical path.dropLast.reverse (kernelPath target) ≠ none)
    (pending : next.pending = {}) (staged : next.stage = some after)
    (files : ∀ path kind, next.topology.find? path = some kind → kind = .regular ∨ kind = .hardlink →
      scan.topology.find? path = some kind ∨ ∃ content, after path = some (.regular content)) :
    Tracks ({}, named.2 ++ [inode]) next after := by
  refine ⟨pending, staged, ?_, ?_, ?_⟩
  · intro path node proper
    rw [placed.grows path node proper, tracks.nodes path node proper]
    simp only [mem_append, mem_singleton, or_and_right, exists_or, exists_eq_left]
  · intro path kind known file
    rcases files path kind known file with old | new
    · obtain ⟨content, stands⟩ := tracks.files path kind old file
      exact ⟨content, placed.keeps path _ stands⟩
    · exact new
  · intro other member
    rcases mem_concat.mp member with old | rfl
    · exact tracks.contained other old
    · exact contained

theorem Tracks.scanInode (scanned : scanInode sha256 limits strip scan budget index entry = .ok next) :
    ∃ after, Tracks ({}, named.2 ++ [inodeOf strip named.1 entry]) next after := by
  simp only [Archive.scanInode, bind_eq_ok, mapError_eq_ok] at scanned
  obtain ⟨_, _, kind, isKind, original, canonical, _, _, _, _, ⟨linkTarget, _⟩, target, scanned⟩ := scanned
  have isKind := classifyEntry_ok isKind
  have path := @inodeOf_path limits strip index _ _ entry _ isKind canonical
  have link : (inodeOf strip scan.pending entry).link = scan.pending.link.or entry.linkNameBytes := rfl
  have entryType : (inodeOf strip scan.pending entry).entryType = kind.entryType := isKind
  rw [← tracks.pending]
  generalize inodeOf strip scan.pending entry = inode at path link entryType ⊢
  by_cases empty : original.drop strip = []
  · simp only [if_pos empty, bind_eq_ok, pure_eq_ok] at scanned
    obtain ⟨_, _, rfl⟩ := scanned
    rw [← path] at empty
    refine ⟨stage, tracks.admit (.nothing empty) ?_ rfl tracks.staged fun _ _ known _ => .inl known⟩
    rintro _ _ ⟨some, _, rfl, _⟩
    exact absurd empty some
  simp only [if_neg empty, bind_eq_ok, exists_check, pure_eq_ok, tracks.staged, Option.mapM_some,
    map_eq_pure_bind] at scanned
  obtain ⟨_, _, _, hard, data, _, _, ⟨after, made, rfl⟩, rfl⟩ := scanned
  -- A link is what was validated, and the target of a hardlink is a file of the stage.
  have isLink : kind = .symlink → ∃ target, inode.link = some target ∧ linkTarget = some target ∧
      validateSymlinkTarget limits index (original.drop strip) target = .ok () := by
    rintro rfl
    obtain ⟨rfl, content, isContent, valid⟩ := linkTargetOf_symlink empty target
    exact ⟨content, link.trans isContent, isContent, valid⟩
  have isFile : kind = .hardlink → ∃ content, stage (components (linkTarget.getD [])) = some (.regular content) := by
    rintro rfl
    simp only [requireHardlinkTarget, if_pos, bind_eq_ok, okOr_eq_ok, refuse_eq_ok] at hard
    obtain ⟨targetKind, known, file⟩ := hard
    exact tracks.files _ _ known (by tauto)
  rw [← path] at empty isLink made ⊢
  obtain ⟨placed, file⟩ := materialize_placed empty entryType
    (fun same => (isLink same).imp fun _ found => ⟨found.1, found.2.1⟩) isFile made
  refine ⟨after, tracks.admit placed ?_ rfl rfl ?_⟩
  · rintro other content ⟨_, isSymlink, rfl, isContent⟩
    have same : kind = .symlink := by cases kind <;> first | rfl | cases entryType.symm.trans isSymlink
    obtain ⟨found, isFound, _, valid⟩ := isLink same
    cases isFound.symm.trans isContent
    exact lexical_of_validated valid
  · intro other found known isFile
    by_cases same : other = inode.path
    · subst same
      rw [SortedMap.find?_insert_self] at known
      cases known
      exact .inr (file isFile)
    · exact .inl (by rwa [SortedMap.find?_insert_of_ne same] at known)

theorem Tracks.rename (isPending : next.pending = pending) (staged : next.stage = scan.stage)
    (topology : next.topology = scan.topology) : Tracks (pending, named.2) next stage :=
  ⟨isPending, staged.trans tracks.staged, tracks.nodes, topology ▸ tracks.files, tracks.contained⟩

theorem Tracks.scanEntry {read : Except String Entry}
    (scanned : scanEntry sha256 limits strip scan read = .ok next) :
    ∃ entry after, read = .ok entry ∧ Tracks (nameEntry strip named entry) next after := by
  simp only [Archive.scanEntry, bind_eq_ok, mapError_eq_ok] at scanned
  obtain ⟨entry, rfl, ⟨index, budget⟩, _, scanned⟩ := scanned
  refine ⟨entry, ?_⟩
  rw [nameEntry, PendingExtensions.after]
  cases kind : entry.entryType
  all_goals simp only [kind] at scanned ⊢
  case gnuSparse | paxGlobalExtensions => cases scanned
  case gnuLongName | gnuLongLink =>
    simp only [bind_eq_ok, exists_check, pure_eq_ok] at scanned
    obtain ⟨_, ⟨value, after⟩, read, rfl⟩ := scanned
    refine ⟨stage, trivial, tracks.rename ?_ rfl rfl⟩
    rw [readExtensionBytes_ok read, tracks.pending]
  case paxLocalExtensions =>
    simp only [bind_eq_ok, pure_eq_ok] at scanned
    obtain ⟨⟨pending, after⟩, read, rfl⟩ := scanned
    refine ⟨stage, trivial, tracks.rename ?_ rfl rfl⟩
    rw [readPaxExtensions_ok read, tracks.pending]
  all_goals
    obtain ⟨after, reached⟩ := tracks.scanInode scanned
    exact ⟨after, trivial, reached⟩

end

/-- A scan into an empty root ends with what the whole stream declares. -/
theorem scanArchive_tracks (accepted : scanArchive sha256 limits strip archive (some fun _ => none) = .ok result) :
    ∃ named scan stage, named.2 = declaredInodes strip archive ∧ result.stage = some stage ∧
      Tracks named scan stage := by
  simp only [scanArchive, bind_eq_ok, exists_check, mapError_eq_ok, pure_eq_ok] at accepted
  obtain ⟨last, folded, _, _, _, rfl⟩ := accepted
  have reached := foldlM_processed (fun (before : List (Except String Entry)) (scan : Scan) =>
    ∃ stage, Tracks ((before.filterMap Except.toOption).foldl (nameEntry strip) ({}, [])) scan stage)
    ⟨fun _ => none, rfl, rfl, by simp, by simp [SortedMap.find?, SortedMap.empty], by simp⟩ (by
      intro before read _ scan next _ held scanned
      obtain ⟨stage, tracks⟩ := held
      obtain ⟨entry, after, rfl, reached⟩ := tracks.scanEntry scanned
      refine ⟨after, ?_⟩
      rwa [filterMap_append, foldl_append]) folded
  obtain ⟨stage, tracks⟩ := reached
  exact ⟨_, last, stage, rfl, tracks.staged, tracks⟩

/-- Resolving the link's target from its own directory comes to the parent of the root. -/
def Stage.LeadsOut (stage : Stage) (path : Path) (target : List UInt8) : Prop :=
  LeavesTree stage.tree path.dropLast.reverse (kernelPath target)

/-- The target has a step to the parent behind a beginning that other declared links lead to the
root. -/
def Inode.Climbs (inodes : List Inode) (inode : Inode) : Prop :=
  ∃ path target, inode.Declares path (.symlink target) ∧
    ClimbsFromRoot (declaredTree inodes) path.dropLast.reverse (kernelPath target)

theorem exists_link {stands : Path → Node → Prop} {holds : List (List UInt8) → List (Segment (List UInt8)) → Prop}
    (proper : ∀ target, ¬ stands [] (.symlink target)) :
    (∃ name dir target, (treeOf stands).linkAt (name :: dir) target ∧ holds dir target) ↔
      ∃ path target, stands path (.symlink target) ∧ holds path.dropLast.reverse (kernelPath target) := by
  constructor
  · rintro ⟨name, dir, _, ⟨target, link, rfl⟩, held⟩
    rw [reverse_cons] at link
    exact ⟨_, target, link, by rwa [dropLast_concat, reverse_reverse]⟩
  · rintro ⟨path, target, link, held⟩
    rcases eq_nil_or_concat' path with rfl | ⟨above, name, rfl⟩
    · exact absurd link (proper target)
    · rw [dropLast_concat] at held
      exact ⟨name, above.reverse, _, ⟨target, by rwa [reverse_cons, reverse_reverse], rfl⟩, held⟩

/-- In the tree that is extracted from an accepted archive no symbolic link leads out of the root,
exactly when none that the archive declares climbs from it. -/
theorem scanArchive_contained_iff {sha256 : List UInt8 → Vector UInt8 32} {limits : ArchiveLimits} {strip : Nat}
    {archive : TarStream} {result : ScanResult}
    (accepted : scanArchive sha256 limits strip archive (some fun _ => none) = .ok result) :
    ∃ stage, result.stage = some stage ∧
      ((∀ path target, stage path = some (.symlink target) → ¬ stage.LeadsOut path target) ↔
        ∀ inode ∈ declaredInodes strip archive, ¬ inode.Climbs (declaredInodes strip archive)) := by
  obtain ⟨named, scan, stage, isNamed, staged, tracks⟩ := scanArchive_tracks accepted
  refine ⟨stage, staged, ?_⟩
  have isDirectory := fun path => tracks.nodes path .directory rfl
  have isLink := fun path target => tracks.nodes path (.symlink target) rfl
  have tree : stage.tree = declaredTree named.2 := by
    simp only [Stage.tree, declaredTree, treeOf, isDirectory, isLink]
  have proper : ∀ target, ¬ ∃ inode ∈ named.2, inode.Declares [] (.symlink target) := by
    rintro target ⟨inode, _, some, _⟩
    exact some rfl
  have contained : ∀ name dir target, (declaredTree named.2).linkAt (name :: dir) target →
      lexical dir target ≠ none := by
    rintro name dir _ ⟨target, ⟨inode, member, link⟩, rfl⟩
    have own := tracks.contained inode member _ target link
    rwa [reverse_cons, dropLast_concat, reverse_reverse] at own
  have outside := (exists_link proper).symm.trans ((leaves_iff_climbs contained).trans (exists_link proper))
  rw [← isNamed, ← not_iff_not]
  simp only [Stage.LeadsOut, Inode.Climbs, tree, isLink, not_forall, not_not, exists_prop]
  refine outside.trans ?_
  constructor
  · rintro ⟨path, target, ⟨inode, member, link⟩, climbs⟩
    exact ⟨inode, member, path, target, link, climbs⟩
  · rintro ⟨inode, member, path, target, link, climbs⟩
    exact ⟨path, target, ⟨inode, member, link⟩, climbs⟩

def climbingLimits : ArchiveLimits := ⟨9, 99, 9, 99, 99, 99, 99, 99, 99, 99, 99, 9⟩

def linkEntry (path target : String) : Entry :=
  ⟨.symlink, bytesOf path, some (bytesOf target), .ok 0o777, 0, .ok [], .ok none⟩

/-- Two links that each stay inside on their own. -/
def climbingArchive : TarStream := ⟨[.ok (linkEntry "d/e/l" "../.."), .ok (linkEntry "m" "d/e/l/..")], .ok 2048⟩

def climbingScan : Except Error ScanResult :=
  scanArchive (fun _ => Vector.replicate 32 0) climbingLimits 0 climbingArchive (some fun _ => none)

theorem exists_stage {β : Type} {view : Stage → β} {value : β} {scan : Except Error ScanResult}
    (seen : (scan.toOption.bind ScanResult.stage).map view = some value) :
    ∃ result stage, scan = .ok result ∧ result.stage = some stage ∧ view stage = value := by
  cases scan with
  | error error => cases seen
  | ok result =>
    obtain ⟨stage, staged, same⟩ := Option.map_eq_some_iff.mp seen
    exact ⟨result, stage, rfl, staged, same⟩

/-- The same with a second link that leads to the root and no further. -/
def insideArchive : TarStream := ⟨[.ok (linkEntry "d/e/l" "../.."), .ok (linkEntry "m" "d/e/l")], .ok 2048⟩

def insideScan : Except Error ScanResult :=
  scanArchive (fun _ => Vector.replicate 32 0) climbingLimits 0 insideArchive (some fun _ => none)

theorem insideScan_contained : ∃ result stage, insideScan = .ok result ∧ result.stage = some stage ∧
    stage [bytesOf "m"] = some (.symlink (bytesOf "d/e/l")) ∧
    ∀ path target, stage path = some (.symlink target) → ¬ stage.LeadsOut path target := by
  have view : (insideScan.toOption.bind ScanResult.stage).map (· [bytesOf "m"]) =
      some (some (.symlink (bytesOf "d/e/l"))) := by decide +kernel
  obtain ⟨result, stage, accepted, staged, link⟩ := exists_stage view
  obtain ⟨_, alsoStaged, contained⟩ := scanArchive_contained_iff accepted
  cases staged.symm.trans alsoStaged
  refine ⟨result, stage, accepted, staged, link, contained.mpr ?_⟩
  have targets : ∀ inode ∈ declaredInodes 0 insideArchive, ∀ target ∈ inode.link,
      kernelPath target = [.parent, .parent] ∨ .parent ∉ kernelPath target := by decide +kernel
  rintro inode member ⟨path, target, ⟨-, -, -, isTarget⟩, before, left, steps, split, walk⟩
  rcases targets inode member target isTarget with upwards | none
  · obtain ⟨name, named⟩ := walk.exists_name
    have inside : .name name ∈ kernelPath target := split ▸ mem_append_left _ named
    simp [upwards] at inside
  · exact none (split ▸ by simp)

/-- The second link goes through the first to the root and then to its parent. -/
theorem climbingScan_leads_out : ∃ result stage, climbingScan = .ok result ∧
    result.stage = some stage ∧ ∃ path target, stage path = some (.symlink target) ∧ stage.LeadsOut path target := by
  have view : (climbingScan.toOption.bind ScanResult.stage).map (fun stage =>
      (stage [bytesOf "d"], stage [bytesOf "d", bytesOf "e"],
        stage [bytesOf "d", bytesOf "e", bytesOf "l"], stage [bytesOf "m"])) =
      some (some .directory, some .directory, some (.symlink (bytesOf "../..")),
        some (.symlink (bytesOf "d/e/l/.."))) := by decide +kernel
  obtain ⟨result, stage, accepted, staged, nodes⟩ := exists_stage view
  simp only [Prod.mk.injEq] at nodes
  obtain ⟨outer, inner, first, second⟩ := nodes
  refine ⟨result, stage, accepted, staged, _, _, second, 5, true, [], ?_⟩
  have through : kernelPath (bytesOf "d/e/l/..") =
      [.name (bytesOf "d"), .name (bytesOf "e"), .name (bytesOf "l"), .parent] := by rfl
  have link : stage.tree.linkAt [bytesOf "l", bytesOf "e", bytesOf "d"] [.parent, .parent] := ⟨_, first, rfl⟩
  rw [through]
  exact .step (.enter outer) (.step (.enter inner) (.step (.follow link) (.step .parent (.step .parent .stay))))

end Cast.Archive
