import Cast.Foundation.Loops
import Cast.Foundation.Machine
import Cast.Foundation.Pointwise

/-! The collector of an install tree. `enumerate_paths` walks the tree with a stack of tasks;
it is compared with the list of the entries that are to be emitted. Limits, hashes, the first pass
that takes the inventory and the checks that the tree does not change are left out. -/

namespace Cast.Package.Collect

open Foundation List

abbrev Text := List UInt8

abbrev Path := List Text

/-- The part of an inode that is not a directory. -/
inductive FileType where
  | regular (mode : UInt32)
  | symlink (target : Text)
  | special (kind : String)
  | other
deriving DecidableEq

inductive Inode where
  | file (type : FileType)
  | directory (mode : UInt32)
deriving DecidableEq

/-- What a directory holds, in the order of the names. -/
inductive Entries where
  | nil
  | file (name : Text) (type : FileType) (rest : Entries)
  | directory (name : Text) (mode : UInt32) (inside rest : Entries)
deriving DecidableEq

inductive PathRuleKind where
  | any | executable | symlink | special

structure Rule where
  pattern : Text
  package : Text
  kind : PathRuleKind

/-- The patterns of the `glob` crate. -/
structure Glob where
  compiles : Text → Bool
  accepts : Text → Text → Bool

inductive Error where
  | invalidRulePattern (pattern : Text)
  | nonUtf8Path (path : Path)
  | noMatchingRule (path : Path)
  | nonUtf8SymlinkTarget (path : Path)
  | unsupportedFileType (path : Path) (kind : String)
deriving DecidableEq

structure PathInfo where
  path : Path
  inode : Inode
  package : Text
deriving DecidableEq

def Rule.descendant (rule : Rule) : Text :=
  (if rule.pattern.getLast? = some 0x2f then rule.pattern.dropLast else rule.pattern) ++ [0x2f, 0x2a, 0x2a]

def PathRuleKind.admits : PathRuleKind → Inode → Bool
  | any, _ => true
  | executable, .file (.regular mode) => mode &&& 0o111 != 0
  | symlink, .file (.symlink _) => true
  | special, .file (.special _) => true
  | _, _ => false

variable (glob : Glob) (rules : List Rule)

def Rule.matchesPath (rule : Rule) (target : Text) (inode : Inode) : Bool :=
  (rule.pattern == target || glob.accepts rule.pattern target || glob.accepts rule.descendant target) &&
    rule.kind.admits inode

def addRule (rule : Rule) : Except Error (List Rule) := do
  refuse (glob.compiles rule.pattern = false) (.invalidRulePattern rule.pattern)
  refuse (glob.compiles rule.descendant = false) (.invalidRulePattern rule.descendant)
  return rules ++ [rule]

def targetPath (path : Path) : Text := path.flatMap (0x2f :: ·)

def packageFor (path : Path) (inode : Inode) : Except Error Text := do
  refuse (isUtf8 (targetPath path) = false) (.nonUtf8Path path)
  okOr ((rules.reverse.find? fun rule => rule.matchesPath glob (targetPath path) inode).map (·.package))
    (.noMatchingRule path)

/-- A package holds regular files, links and directories. -/
def requireSupported (path : Path) : Inode → Except Error Unit
  | .file (.symlink target) => refuse (isUtf8 target = false) (.nonUtf8SymlinkTarget path)
  | .file (.special kind) => .error (.unsupportedFileType path kind)
  | .file .other => .error (.unsupportedFileType path "unknown special inode")
  | _ => .ok ()

def pathInfo (found : Path × Inode) : Except Error PathInfo := do
  let package ← packageFor glob rules found.1 found.2
  requireSupported found.1 found.2
  return ⟨found.1, found.2, package⟩

inductive Item where
  | file (type : FileType)
  | directory (mode : UInt32) (inside : Entries)

inductive Task where
  | scan (path : Path) (mode : UInt32) (inside : Entries) (includeDirectory : Bool)
  | visit (path : Path) (item : Item)
  | finalize (path : Path) (mode : UInt32) (includeDirectory : Bool) (outputStart : Nat)

def regularDirMode : UInt32 := 0o40755

def Entries.visits (path : Path) : Entries → List Task
  | nil => []
  | file name type rest => .visit (path ++ [name]) (.file type) :: rest.visits path
  | directory name mode inside rest => .visit (path ++ [name]) (.directory mode inside) :: rest.visits path

def Entries.weight : Entries → Nat
  | nil => 0
  | file _ _ rest => 1 + rest.weight
  | directory _ _ inside rest => 3 + inside.weight + rest.weight

def Task.weight : Task → Nat
  | scan _ _ inside _ => 2 + inside.weight
  | visit _ (.file _) => 1
  | visit _ (.directory _ inside) => 3 + inside.weight
  | finalize .. => 1

theorem Entries.weight_visits (path : Path) (entries : Entries) :
    ((entries.visits path).map Task.weight).sum = entries.weight := by
  induction entries with
  | nil => rfl
  | file _ _ _ ih | directory _ _ _ _ _ ih => simp [visits, weight, Task.weight, ih]

/-- The loop over the tasks; the first one of the list is on top of the stack. -/
def run : List Task → List PathInfo → Except Error (List PathInfo)
  | [], output => return output
  | .scan path mode inside includeDirectory :: tasks, output =>
    run (inside.visits path ++ .finalize path mode includeDirectory output.length :: tasks) output
  | .visit path (.file type) :: tasks, output => do
    let info ← pathInfo glob rules (path, .file type)
    run tasks (output ++ [info])
  | .visit path (.directory mode inside) :: tasks, output => run (.scan path mode inside true :: tasks) output
  | .finalize path mode includeDirectory outputStart :: tasks, output =>
    if includeDirectory && (output.length == outputStart || mode != regularDirMode) then do
      let info ← pathInfo glob rules (path, .directory mode)
      run tasks (output ++ [info])
    else run tasks output
termination_by tasks => (tasks.map Task.weight).sum
decreasing_by all_goals simp [Task.weight, Entries.weight_visits] <;> omega

def enumeratePaths (rootMode : UInt32) (tree : Entries) : Except Error (List PathInfo) :=
  run glob rules [.scan [] rootMode tree false] []

/-! ### What is emitted -/

def Entries.items (path : Path) : Entries → List (Path × Item)
  | nil => []
  | file name type rest => (path ++ [name], .file type) :: rest.items path
  | directory name mode inside rest =>
    (path ++ [name], .directory mode inside) :: (inside.items (path ++ [name]) ++ rest.items path)

/-- A directory is emitted when it is empty or has a mode of its own. -/
def emits : Path × Item → Option (Path × Inode)
  | (path, .file type) => some (path, .file type)
  | (path, .directory mode inside) =>
    if inside = .nil ∨ mode ≠ regularDirMode then some (path, .directory mode) else none

/-- The emitted entries in the order of the traversal: a directory after what it holds. -/
def Entries.emitted (path : Path) : Entries → List (Path × Inode)
  | nil => []
  | file name type rest => (path ++ [name], .file type) :: rest.emitted path
  | directory name mode inside rest =>
    inside.emitted (path ++ [name]) ++ (emits (path ++ [name], .directory mode inside)).toList ++ rest.emitted path

theorem Entries.emitted_perm (path : Path) (entries : Entries) :
    (entries.emitted path).Perm ((entries.items path).filterMap emits) := by
  induction entries generalizing path with
  | nil => exact .nil
  | file name type rest ih => exact (ih path).cons _
  | directory name mode inside rest inner ih =>
    rw [emitted, items, filterMap_cons, filterMap_append]
    have both := (inner (path ++ [name])).append (ih path)
    cases emits (path ++ [name], .directory mode inside) with
    | none => simpa using both
    | some found => exact ((perm_append_singleton _ _).append_right _).trans (both.cons found)

/-- Whatever is not empty emits something below its directory. -/
theorem Entries.exists_emitted {entries : Entries} (filled : entries ≠ .nil) (path : Path) :
    ∃ found ∈ entries.emitted path, path <+: found.1 ∧ path ≠ found.1 := by
  induction entries generalizing path with
  | nil => exact absurd rfl filled
  | file name type rest _ => exact ⟨_, .head _, by simp⟩
  | directory name mode inside rest inner _ =>
    by_cases empty : inside = .nil
    · exact ⟨(path ++ [name], .directory mode), by simp [emitted, emits, empty], by simp⟩
    · obtain ⟨found, member, ⟨more, same⟩, _⟩ := inner empty (path ++ [name])
      refine ⟨found, ?_, by simp [← same]⟩
      rw [emitted, append_assoc]
      exact mem_append_left _ member

theorem Entries.emitted_subset {entries inside : Entries} {above path : Path} {mode : UInt32}
    (isItem : (path, .directory mode inside) ∈ entries.items above) : inside.emitted path ⊆ entries.emitted above := by
  induction entries generalizing above with
  | nil => cases isItem
  | file name type rest ih =>
    simp only [items, mem_cons, Prod.mk.injEq, reduceCtorEq, and_false, false_or] at isItem
    exact subset_cons_of_subset _ (ih isItem)
  | directory name otherMode other rest inner ih =>
    simp only [items, mem_cons, mem_append, Prod.mk.injEq, Item.directory.injEq] at isItem
    intro found member
    simp only [emitted, mem_append]
    obtain ⟨rfl, rfl, rfl⟩ | deeper | later := isItem
    · exact .inl (.inl member)
    · exact .inl (.inl (inner deeper member))
    · exact .inr (ih later member)

theorem Entries.emitted_eq_nil {entries : Entries} {path : Path} : entries.emitted path = [] ↔ entries = .nil := by
  constructor
  · intro nothing
    by_contra filled
    obtain ⟨found, member, _⟩ := exists_emitted filled path
    rw [nothing] at member
    cases member
  · rintro rfl
    rfl

/-- The loop does with the entries of a directory what it does with the emitted ones in a row. -/
theorem run_visits (path : Path) (entries : Entries) (tasks : List Task) (output : List PathInfo) :
    run glob rules (entries.visits path ++ tasks) output =
      (entries.emitted path).mapM (pathInfo glob rules) >>= fun infos => run glob rules tasks (output ++ infos) := by
  induction entries generalizing path tasks output with
  | nil => simp [Entries.visits, Entries.emitted]
  | file name type rest ih => simp [Entries.visits, Entries.emitted, run, ih]
  | directory name mode inside rest inner ih =>
    simp only [Entries.visits, cons_append, run, inner, Entries.emitted, mapM_append, bind_assoc]
    cases mapped : (inside.emitted (path ++ [name])).mapM (pathInfo glob rules) with
    | error error => rfl
    | ok infos =>
      have empty : infos = [] ↔ inside = .nil := by
        rw [← length_eq_zero_iff, ← (mapM_eq_ok.mp mapped).length_eq, length_eq_zero_iff]
        exact Entries.emitted_eq_nil
      change pure infos >>= _ = pure infos >>= _
      by_cases special : inside = .nil ∨ mode ≠ regularDirMode
      · simp [emits, special, empty, ih]
      · simp [emits, special, empty, ih]

/-- The package of the rule that was added last among those that match. -/
theorem packageFor_eq_ok {path : Path} {inode : Inode} {package : Text}
    (routed : packageFor glob rules path inode = .ok package) :
    ∃ before rule after, rules = before ++ rule :: after ∧ rule.package = package ∧
      rule.matchesPath glob (targetPath path) inode = true ∧
      ∀ later ∈ after, later.matchesPath glob (targetPath path) inode = false := by
  simp only [packageFor, bind_eq_ok, exists_check, okOr_eq_ok, Option.map_eq_some_iff] at routed
  obtain ⟨_, rule, found, same⟩ := routed
  obtain ⟨isMatch, after, before, split, others⟩ := find?_eq_some_iff_append.mp found
  refine ⟨before.reverse, rule, after.reverse, ?_, same, isMatch, ?_⟩
  · rw [← reverse_reverse rules, split]
    simp
  · intro later member
    simpa using others later (mem_reverse.mp member)

theorem foldlM_addRule {added : List Rule} {first : List Rule}
    (accepted : added.foldlM (addRule glob) rules = .ok first) : first = rules ++ added := by
  induction added generalizing rules with
  | nil =>
    cases accepted
    simp
  | cons rule added ih =>
    simp only [foldlM_cons, addRule, bind_eq_ok, exists_check, pure_eq_ok] at accepted
    obtain ⟨_, ⟨_, _, rfl⟩, later⟩ := accepted
    simpa using ih _ later

theorem enumeratePaths_eq (rootMode : UInt32) (tree : Entries) :
    enumeratePaths glob rules rootMode tree = (tree.emitted []).mapM (pathInfo glob rules) := by
  simp [enumeratePaths, run, run_visits]

theorem pathInfo_eq_ok {found : Path × Inode} {info : PathInfo} (made : pathInfo glob rules found = .ok info) :
    (info.path, info.inode) = found ∧ packageFor glob rules info.path info.inode = .ok info.package := by
  simp only [pathInfo, bind_eq_ok, exists_check, pure_eq_ok] at made
  obtain ⟨package, routed, _, rfl⟩ := made
  exact ⟨rfl, routed⟩

/-- The path is a text, some rule matches it, and a package holds inodes of this kind. -/
def Storable (path : Path) (inode : Inode) : Prop :=
  isUtf8 (targetPath path) = true ∧ (∃ rule ∈ rules, rule.matchesPath glob (targetPath path) inode = true) ∧
    (∀ target, inode = .file (.symlink target) → isUtf8 target = true) ∧
    (∀ kind, inode ≠ .file (.special kind)) ∧ inode ≠ .file .other

theorem exists_pathInfo_iff {path : Path} {inode : Inode} :
    (∃ info, pathInfo glob rules (path, inode) = .ok info) ↔ Storable glob rules path inode := by
  have routed : (∃ package, packageFor glob rules path inode = .ok package) ↔ isUtf8 (targetPath path) = true ∧
      ∃ rule ∈ rules, rule.matchesPath glob (targetPath path) inode = true := by
    simp [packageFor, ← Option.isSome_iff_exists]
  have supported : requireSupported path inode = .ok () ↔ (∀ target, inode = .file (.symlink target) →
      isUtf8 target = true) ∧ (∀ kind, inode ≠ .file (.special kind)) ∧ inode ≠ .file .other := by
    rcases inode with (_ | _ | _ | _) | _ <;> simp [requireSupported]
  rw [Storable, ← and_assoc, ← routed, ← supported]
  simp only [pathInfo, bind_eq_ok, exists_check, pure_eq_ok]
  constructor
  · rintro ⟨_, package, made, stored, -⟩
    exact ⟨⟨package, made⟩, stored⟩
  · rintro ⟨⟨package, made⟩, stored⟩
    exact ⟨_, package, made, stored, rfl⟩

/-- An enumeration that succeeds emits every file below the root once, and every directory below it
that is empty or has a mode of its own; it succeeds when each of them can be stored. -/
theorem enumeratePaths_emits_each_once (rootMode : UInt32) (tree : Entries) :
    (∀ output, enumeratePaths glob rules rootMode tree = .ok output →
      (output.map fun info => (info.path, info.inode)).Perm ((tree.items []).filterMap emits) ∧
      (∀ path mode inside, (path, .directory mode inside) ∈ tree.items [] →
        emits (path, .directory mode inside) = none → ∃ info ∈ output, path <+: info.path ∧ path ≠ info.path) ∧
      ∀ info ∈ output, ∃ before rule after, rules = before ++ rule :: after ∧ rule.package = info.package ∧
        rule.matchesPath glob (targetPath info.path) info.inode = true ∧
        ∀ later ∈ after, later.matchesPath glob (targetPath info.path) info.inode = false) ∧
    ((∃ output, enumeratePaths glob rules rootMode tree = .ok output) ↔
      ∀ path inode, (path, inode) ∈ (tree.items []).filterMap emits → Storable glob rules path inode) ∧
    ∀ added, added.foldlM (addRule glob) [] = .ok rules → rules = added := by
  rw [enumeratePaths_eq]
  simp only [mapM_eq_ok, ← exists_pathInfo_iff, ← (tree.emitted_perm []).mem_iff]
  refine ⟨fun output made => ?_, ⟨?_, fun each => exists_forall₂ fun _ => each _ _⟩, fun added accepted => foldlM_addRule glob [] accepted⟩
  · have same : output.map (fun info => (info.path, info.inode)) = tree.emitted [] := by
      rw [← forall₂_eq_eq_eq, forall₂_map_left_iff]
      exact (made.imp fun _ _ made => (pathInfo_eq_ok glob rules made).1).flip
    refine ⟨same ▸ tree.emitted_perm [], ?_, ?_⟩
    · intro path mode inside isItem kept
      have filled : inside ≠ .nil := by
        rintro rfl
        simp [emits] at kept
      obtain ⟨found, member, below⟩ := Entries.exists_emitted filled path
      obtain ⟨info, isInfo, rfl⟩ := mem_map.mp (same ▸ Entries.emitted_subset isItem member)
      exact ⟨info, isInfo, below⟩
    · intro info member
      obtain ⟨found, _, made⟩ := exists_left_of_mem made member
      exact packageFor_eq_ok glob rules (pathInfo_eq_ok glob rules made).2
  · rintro ⟨output, made⟩ path inode member
    obtain ⟨info, _, made⟩ := exists_right_of_mem made member
    exact ⟨info, made⟩

def anyGlob : Glob := ⟨fun _ => true, fun _ _ => true⟩

/-- Nothing is emitted of a file that no rule matches, nor of a pipe. -/
theorem unroutable_tree_refused :
    enumeratePaths anyGlob [] regularDirMode (.file [0x61] (.regular 0o100644) .nil) = .error (.noMatchingRule [[0x61]]) ∧
    enumeratePaths anyGlob [⟨[0x2a], [0x6f], .any⟩] regularDirMode (.file [0x61] (.special "FIFO") .nil) =
      .error (.unsupportedFileType [[0x61]] "FIFO") := by
  rw [enumeratePaths_eq, enumeratePaths_eq]
  decide +kernel

end Cast.Package.Collect
