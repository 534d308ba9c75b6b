import Cast.Vfs.BuilderProperties

/-! Items that claim one path. A skipped duplicate is counted, and it takes over its path in
the map although it hangs nowhere. So conflicts are harmless exactly when they are between
directories, of which the builder itself keeps one. -/

namespace Cast.Vfs

open Foundation List SortedMap BlitFile TreeBuilder Vfs.Tree

variable {T A N : Type} {files : List (File T)} {builder : TreeBuilder T} {file : File T}
  {kept : List T} {path target : AStr} {tree : Tree A N}

section Placed

variable {arena : TreeArena (File T) A N} {entry : File T}

/-- What holds of a tree even with conflicts: a path has a node of one of its files, and what
hangs below a node belongs there. -/
structure Placed (arena : TreeArena (File T) A N) (files : List (File T)) (tree : Tree A N) :
    Prop where
  found : ∀ file ∈ files, ∃ node, tree.map file.text = some node
  known : ∀ path node, tree.map path = some node → arena.live tree.arena node ∧
    ∃ file ∈ files, file.text = path ∧ arena.get? tree.arena node = some file
  hung : ∀ node, arena.live tree.arena node → ∀ child ∈ arena.children tree.arena node,
    ∃ upper lower, lower ∈ files ∧ arena.get? tree.arena node = some upper ∧
      arena.get? tree.arena child = some lower ∧ lower.parent = some upper.text

variable [DecidableEq N] (lawful : arena.Lawful)
include lawful

theorem Placed.insertNode (placed : Placed arena files tree) (normal : Normalized entry.text)
    (hasParent : ∀ parent, entry.parent = some parent → parent ∈ files.map File.text) :
    ∃ next, insertNode arena tree entry = .ok next ∧ next.length = tree.length + 1 ∧
      Placed arena (files ++ [entry]) next := by
  obtain ⟨node, next, inserted, inserts⟩ := exists_inserts lawful tree entry (by
    intro parent isParent
    obtain ⟨upper, isUpper, rfl⟩ := mem_map.mp (hasParent parent isParent)
    obtain ⟨upperNode, known⟩ := placed.found upper isUpper
    refine ⟨?_, upperNode, known, (placed.known _ upperNode known).1⟩
    intro same
    exact File.parent_ne_text normal (same ▸ isParent))
  refine ⟨next, inserted, inserts.length, ?_, ?_, ?_⟩
  · intro file member
    by_cases same : file.text = entry.text
    · exact ⟨node, same ▸ inserts.isNode⟩
    · rcases mem_concat.mp member with old | rfl
      · obtain ⟨other, isOther⟩ := placed.found file old
        exact ⟨other, (inserts.keepsMap _ same).trans isOther⟩
      · exact absurd rfl same
  · intro path other isOther
    by_cases same : path = entry.text
    · rw [same, inserts.isNode] at isOther
      cases isOther
      exact ⟨(inserts.live_iff node).mpr (.inr rfl), entry, by simp, same.symm, inserts.data⟩
    · rw [inserts.keepsMap path same] at isOther
      obtain ⟨live, file, member, text, data⟩ := placed.known path other isOther
      exact ⟨(inserts.live_iff other).mpr (.inl live), file, mem_append_left _ member, text,
        (inserts.keeps other live).trans data⟩
  · intro other live child isChild
    rcases (inserts.live_iff other).mp live with old | rfl
    · have kept (wasChild : child ∈ arena.children tree.arena other) : ∃ upper lower, lower ∈ files ++ [entry] ∧
          arena.get? next.arena other = some upper ∧ arena.get? next.arena child = some lower ∧
          lower.parent = some upper.text := by
        obtain ⟨upper, lower, member, upperData, lowerData, below⟩ := placed.hung other old child wasChild
        exact ⟨upper, lower, mem_append_left _ member, (inserts.keeps other old).trans upperData,
          (inserts.keeps child (lawful.childrenLive old wasChild)).trans lowerData, below⟩
      by_cases hangs : HangsBelow arena tree entry other
      · rw [inserts.hangs other hangs] at isChild
        rcases mem_concat.mp isChild with wasChild | rfl
        · exact kept wasChild
        · obtain ⟨parent, isParent, isUpper, -⟩ := hangs
          obtain ⟨-, upper, -, text, data⟩ := placed.known parent other isUpper
          exact ⟨upper, entry, by simp, (inserts.keeps other old).trans data, inserts.data, text ▸ isParent⟩
      · exact kept (inserts.keepsChildren other old hangs ▸ isChild)
    · rw [inserts.childless] at isChild
      cases isChild

/-- Sorted files with all their parents are placed, whatever conflicts there are. -/
theorem exists_placed (allNormal : ∀ file ∈ files, Normalized file.text)
    (closed : ∀ file ∈ files, ∀ parent, file.parent = some parent → parent ∈ files.map File.text)
    (sorted : files.Pairwise fun a b => (sortedPaths a b).isLE = true) :
    ∃ tree, files.foldlM (insertNode arena) (withCapacity arena) = .ok tree ∧
      tree.length = files.length ∧ Placed arena files tree := by
  refine exists_planted (Placed arena) allNormal closed sorted ?_ ?_
  · refine ⟨by simp, ?_, fun node live => absurd live (lawful.empty node)⟩
    intro path node isNode
    cases isNode
  · intro before entry after tree split placed hasParent
    have member : entry ∈ files := by rw [split]; simp
    exact placed.insertNode lawful (allNormal entry member) hasParent

end Placed

section Quiet

variable {items : List T}

theorem allDirs_find? (path : AStr) : builder.allDirs.find? path =
    ((directoryFiles builder).filter fun file => file.text = path).getLast? :=
  find?_foldl_insert.trans Option.or_none

theorem mem_allDirs (member : file ∈ builder.allDirs.entries.map (·.2)) : file ∈ directoryFiles builder := by
  obtain ⟨⟨path, known⟩, isEntry, same⟩ := mem_map.mp member
  cases same
  have found := find?_eq_some_iff.mpr isEntry
  rw [allDirs_find?] at found
  exact mem_of_mem_filter (mem_of_getLast? found)

theorem allDirs_covers (member : file ∈ directoryFiles builder) :
    ∃ kept, builder.allDirs.find? file.text = some kept ∧ kept.text = file.text := by
  have filled : file ∈ (directoryFiles builder).filter fun known => known.text = file.text :=
    mem_filter.mpr ⟨member, by simp⟩
  have isLast := getLast?_eq_some_getLast (ne_nil_of_mem filled)
  refine ⟨_, (allDirs_find? _).trans isLast, ?_⟩
  exact of_decide_eq_true (mem_filter.mp (mem_of_getLast? isLast)).2

variable [BlitFile T]

def DirectoryAt (items : List T) (path : AStr) : Prop :=
  (∃ item ∈ items, (kind item).isDirectory = true ∧ BlitFile.path item = path) ∨ Missing items path

instance (items : List T) (path : AStr) : Decidable (Missing items path) := inferInstanceAs (Decidable (_ ∧ _))

instance (items : List T) (path : AStr) : Decidable (DirectoryAt items path) :=
  inferInstanceAs (Decidable ((∃ _ ∈ _, _) ∨ _))

def linkTarget (item : T) : Option AStr := do
  let path ← VfsPath.new (BlitFile.path item)
  match kind item with
  | .symlink target => some (resolveLink ⟨path, kind item, item⟩ target)
  | _ => none

/-- No item lies below a symlink that points to a directory of the tree. -/
def Quiet (items : List T) : Prop :=
  ∀ link ∈ items, ∀ target ∈ linkTarget link, DirectoryAt items target → ¬ AboveSome items (BlitFile.path link)

instance (items : List T) : Decidable (Quiet items) := inferInstanceAs (Decidable (∀ _ ∈ _, ∀ _ ∈ _, _ → _))

theorem redirectOf_eq_some_iff {allDirs : SortedMap AStr (File T)} {item : T} {link : File T}
    (isFile : IsFileOf item link) :
    redirectOf allDirs link = some target ↔
      linkTarget item = some target ∧ (allDirs.find? target).isSome = true := by
  obtain ⟨path, kind, inner⟩ := link
  obtain ⟨text, sameKind, sameInner⟩ := isFile
  change inner = item at sameInner
  change kind = BlitFile.kind item at sameKind
  subst sameInner
  rw [redirectOf, linkTarget, new_eq_some.mpr text, ← sameKind]
  cases kind with
  | regular | directory => simp
  | symlink pointed =>
    simp only [Option.bind_eq_bind, Option.bind_some, Option.ite_none_right_eq_some, Option.some.injEq]
    rw [and_comm]
    refine and_congr_right fun same => ?_
    rw [same]

section

variable (baked : Baked items files builder)
include baked

theorem Baked.mem_explicit : file ∈ builder.explicit ↔ file ∈ files := by
  rw [baked.explicit]
  exact (sortFiles_perm files).mem_iff

theorem Baked.mem_fullSet (member : file ∈ builder.fullSet) : file ∈ files ++ implicitFiles builder := by
  rcases mem_append.mp ((sortFiles_perm _).mem_iff.mp member) with directory | other
  · rcases mem_append.mp (mem_allDirs directory) with pushed | implicit
    · exact mem_append_left _ (baked.mem_explicit.mp (mem_of_mem_filter pushed))
    · exact mem_append_right _ implicit
  · exact mem_append_left _ (baked.mem_explicit.mp (mem_of_mem_filter other))

theorem Baked.fullSet_covers (known : path ∈ (files ++ implicitFiles builder).map File.text) :
    path ∈ builder.fullSet.map File.text := by
  obtain ⟨file, member, text⟩ := mem_map.mp known
  subst text
  have fromDirs : file ∈ directoryFiles builder → file.text ∈ builder.fullSet.map File.text := by
    intro isDir
    obtain ⟨kept, found, text⟩ := allDirs_covers isDir
    refine mem_map.mpr ⟨kept, (sortFiles_perm _).mem_iff.mpr ?_, text⟩
    exact mem_append_left _ (mem_map.mpr ⟨(file.text, kept), find?_eq_some_iff.mp found, rfl⟩)
  rcases mem_append.mp member with pushed | implicit
  · have explicit := baked.mem_explicit.mpr pushed
    cases isDirectory : file.kind.isDirectory with
    | true => exact fromDirs (mem_append_left _ (mem_filter.mpr ⟨explicit, isDirectory⟩))
    | false =>
      refine mem_map_of_mem ((sortFiles_perm _).mem_iff.mpr (mem_append_right _ ?_))
      exact mem_filter.mpr ⟨explicit, by simp [isDirectory]⟩
  · exact fromDirs (mem_append_right _ implicit)

/-- With distinct paths every link that points to a directory has its redirect. -/
theorem Baked.redirects_iff (distinct : (items.map BlitFile.path).Nodup) {source : AStr} :
    builder.redirects.find? source = some target ↔ ∃ link ∈ files,
      link.text = source ∧ redirectOf builder.allDirs link = some target := by
  have explicitPerm : builder.explicit.Perm files := baked.explicit ▸ sortFiles_perm files
  have texts : (builder.nonDirs.map File.text).Nodup :=
    ((explicitPerm.map File.text).nodup_iff.mpr (texts_of_made baked.made ▸ distinct)).sublist (filter_sublist.map _)
  refine ((find?_foldl_choose (addRedirect_chosen _) (addRedirect_skipped _) texts
    (by intros; rfl)).trans (or_iff_right (by rintro ⟨⟩))).trans (exists_congr fun link => ?_)
  rw [nonDirs, mem_filter, baked.mem_explicit, and_assoc]
  refine and_congr_right fun _ => and_iff_right_of_imp ?_
  rintro ⟨_, points⟩
  rw [redirectOf] at points
  cases kind : link.kind with
  | directory =>
    rw [kind] at points
    cases points
  | _ => rfl

variable [LawfulBlitFile T]

theorem Baked.directoryAt (isFile : builder.allDirs.find? path = some file) : DirectoryAt items path := by
  rw [allDirs_find?] at isFile
  obtain ⟨member, text⟩ := mem_filter.mp (mem_of_getLast? isFile)
  have sameText := of_decide_eq_true text
  rcases mem_append.mp member with pushed | implicit
  · obtain ⟨isExplicit, isDirectory⟩ := mem_filter.mp pushed
    obtain ⟨item, isItem, made⟩ := baked.item_of_file (baked.mem_explicit.mp isExplicit)
    exact .inl ⟨item, isItem, made.kind ▸ isDirectory, made.text.symm.trans sameText⟩
  · exact .inr (sameText ▸ (baked.mem_implicitFiles.mp implicit).1)

/-- The keys of the directory map are the paths of the directories of the tree. -/
theorem Baked.directoryAt_iff :
    path ∈ builder.allDirs.entries.map Prod.fst ↔ DirectoryAt items path := by
  constructor
  · intro known
    obtain ⟨entry, member, same⟩ := mem_map.mp known
    subst same
    exact baked.directoryAt (find?_eq_some_iff.mpr member)
  · intro directory
    have isDir : ∃ file ∈ directoryFiles builder, file.text = path := by
      rcases directory with ⟨item, isItem, isDirectory, text⟩ | missing
      · obtain ⟨file, member, made⟩ := baked.file_of_item isItem
        exact ⟨file, mem_append_left _ (mem_filter.mpr
          ⟨baked.mem_explicit.mpr member, made.kind ▸ isDirectory⟩), made.text.trans text⟩
      · obtain ⟨file, member, text⟩ := baked.exists_implicitFile missing
        exact ⟨file, mem_append_right _ member, text⟩
    obtain ⟨file, member, text⟩ := isDir
    obtain ⟨kept, found, _⟩ := allDirs_covers member
    subst text
    exact mem_map.mpr ⟨_, find?_eq_some_iff.mp found, rfl⟩

variable [DecidableEq N] {arena : TreeArena (File T) A N}

/-- When no redirect has anything to move, every file of the full set is counted. -/
theorem Baked.tree_of_quiet (lawful : arena.Lawful) (quiet : Quiet items) :
    ∃ tree, builder.tree arena = .ok tree ∧ builder.plant arena = .ok tree ∧ tree.length = builder.fullSet.length := by
  have closed : ∀ file ∈ builder.fullSet, ∀ parent, file.parent = some parent →
      parent ∈ builder.fullSet.map File.text := by
    intro file member parent isParent
    exact baked.fullSet_covers (baked.mem_of_aboveSome (baked.parent_aboveSome (baked.mem_fullSet member) isParent))
  obtain ⟨tree, planted, length, placed⟩ := exists_placed lawful
    (fun file member => baked.file_normal (baked.mem_fullSet member)) closed (sortFiles_sorted _)
  refine ⟨tree, ?_, planted, length⟩
  rw [TreeBuilder.tree, show builder.plant arena = .ok tree from planted, ok_bind]
  refine foldlM_idle ?_
  intro redirect member
  obtain ⟨link, isLink, text, points⟩ := redirects_sound (find?_eq_some_iff.mpr member)
  have linkFile := baked.mem_explicit.mp (mem_of_mem_filter isLink)
  obtain ⟨item, isItem, made⟩ := baked.item_of_file linkFile
  obtain ⟨pointed, present⟩ := (redirectOf_eq_some_iff made).mp points
  obtain ⟨directory, found⟩ := Option.isSome_iff_exists.mp present
  have nothingBelow := quiet item isItem redirect.2 pointed (baked.directoryAt found)
  have known : link.text ∈ builder.fullSet.map File.text :=
    baked.fullSet_covers (mem_map_of_mem (mem_append_left _ linkFile))
  obtain ⟨same, isSame, sameText⟩ := mem_map.mp known
  obtain ⟨node, isNode⟩ := placed.found same isSame
  rw [sameText, text] at isNode
  obtain ⟨live, file, _, fileText, data⟩ := placed.known _ _ isNode
  refine reparent_childless lawful isNode live ?_ redirect.2
  rw [eq_nil_iff_forall_not_mem]
  intro child isChild
  obtain ⟨upper, lower, lowerMember, upperData, _, below⟩ := placed.hung node live child isChild
  rw [data] at upperData
  cases upperData
  rw [fileText, ← text, made.text] at below
  exact nothingBelow (baked.parent_aboveSome (baked.mem_fullSet lowerMember) below)

end

end Quiet

section Counting

variable [BlitFile T] {items : List T}

/-- Items with one path are directories, all of them. -/
def DirectoriesOnlyRepeat (items : List T) : Prop :=
  items.Pairwise fun first second => BlitFile.path first = BlitFile.path second →
    (kind first).isDirectory = true ∧ (kind second).isDirectory = true

instance (items : List T) : Decidable (DirectoriesOnlyRepeat items) := inferInstanceAs (Decidable (List.Pairwise _ _))

theorem filter_of_made (made : Forall₂ IsFileOf items files) (wanted : Kind → Bool) :
    (files.filter fun file => wanted file.kind).map File.inner =
      items.filter fun item => wanted (kind item) := by
  refine inners_of_made (rel_filter ?_ made)
  intro item file isFile
  simp only [isFile.kind]

/-- The paths of the directories among the items, each once. -/
def directoryPaths (items : List T) : List AStr :=
  ((items.filter fun item => (kind item).isDirectory).map BlitFile.path).dedup

def otherPaths (items : List T) : List AStr :=
  (items.filter fun item => !(kind item).isDirectory).map BlitFile.path

theorem mem_directoryPaths : path ∈ directoryPaths items ↔
    ∃ item ∈ items, (kind item).isDirectory = true ∧ BlitFile.path item = path := by
  simp only [directoryPaths, mem_dedup, mem_map, mem_filter, and_assoc]

theorem mem_otherPaths : path ∈ otherPaths items ↔
    ∃ item ∈ items, (kind item).isDirectory = false ∧ BlitFile.path item = path := by
  simp only [otherPaths, mem_map, mem_filter, and_assoc, Bool.not_eq_true']

/-- Every item that is not a directory is counted, and every directory path once. -/
theorem Baked.fullSet_length [LawfulBlitFile T] (baked : Baked items files builder) : builder.fullSet.length =
      (directoryPaths items).length + (missingPaths items).length + (otherPaths items).length := by
  have others : builder.nonDirs.length = (otherPaths items).length := by
    have permuted : builder.nonDirs.Perm (files.filter fun file => !file.kind.isDirectory) :=
      (baked.explicit ▸ sortFiles_perm files : builder.explicit.Perm files).filter _
    rw [permuted.length_eq, otherPaths, length_map,
      ← filter_of_made baked.made fun kind => !kind.isDirectory, length_map]
  have apart : (directoryPaths items ++ missingPaths items).Nodup := by
    refine nodup_append.mpr ⟨nodup_dedup _, missingPaths_nodup, ?_⟩
    intro path pushed other missing same
    subst same
    obtain ⟨item, isItem, _, text⟩ := mem_directoryPaths.mp pushed
    exact (mem_missingPaths.mp missing).2 (text ▸ mem_map_of_mem isItem)
  have keys : (builder.allDirs.entries.map Prod.fst).Perm (directoryPaths items ++ missingPaths items) := by
    rw [perm_ext_iff_of_nodup (keys_nodup _) apart]
    intro path
    rw [mem_append, mem_directoryPaths, mem_missingPaths]
    exact baked.directoryAt_iff
  have dirs := keys.length_eq
  rw [length_map, length_append] at dirs
  rw [fullSet, (sortFiles_perm _).length_eq, length_append, length_map, others, dirs]

/-- One item for each path. -/
structure KeepsOne (kept items : List T) : Prop where
  part : kept.Sublist items
  distinct : (kept.map BlitFile.path).Nodup
  covers : ∀ item ∈ items, BlitFile.path item ∈ kept.map BlitFile.path

theorem aboveSome_congr {others : List T}
    (same : ∀ path, path ∈ items.map BlitFile.path ↔ path ∈ others.map BlitFile.path) :
    AboveSome items path ↔ AboveSome others path := by
  have by_paths : ∀ list : List T, AboveSome list path ↔
      ∃ lower ∈ list.map BlitFile.path, path ∈ properAncestors lower := by
    intro list
    simp only [AboveSome, mem_map, exists_exists_and_eq_and]
  simp only [by_paths, same]

section

variable (keeps : KeepsOne kept items)
include keeps

theorem KeepsOne.mem_paths :
    path ∈ kept.map BlitFile.path ↔ path ∈ items.map BlitFile.path :=
  ⟨fun known => (keeps.part.map _).subset known, forall_mem_map.mpr keeps.covers path⟩

theorem KeepsOne.missing_iff : Missing kept path ↔ Missing items path := by
  rw [Missing, Missing, keeps.mem_paths, aboveSome_congr fun _ => keeps.mem_paths]

theorem KeepsOne.missingPaths_length : (missingPaths kept).length = (missingPaths items).length := by
  refine List.Perm.length_eq ?_
  rw [perm_ext_iff_of_nodup missingPaths_nodup missingPaths_nodup]
  intro path
  exact (mem_missingPaths.trans keeps.missing_iff).trans mem_missingPaths.symm

theorem KeepsOne.paths_length : (directoryPaths kept).length + (otherPaths kept).length = kept.length := by
  have distinct : ((kept.filter fun item => (kind item).isDirectory).map
      BlitFile.path).Nodup := keeps.distinct.sublist (filter_sublist.map _)
  rw [directoryPaths, dedup_eq_self.mpr distinct, otherPaths, length_map, length_map, ← length_append]
  exact (filter_append_perm _ _).length_eq

/-- If no item is counted beyond the paths, then only directories share one. -/
theorem KeepsOne.directoriesOnlyRepeat
    (counted : (directoryPaths items).length + (otherPaths items).length = kept.length) :
    DirectoriesOnlyRepeat items := by
  have members : ∀ path, path ∈ (otherPaths items ++ directoryPaths items).dedup ↔ path ∈ kept.map BlitFile.path := by
    intro path
    rw [mem_dedup, mem_append, mem_otherPaths, mem_directoryPaths, keeps.mem_paths, mem_map, ← exists_or]
    refine exists_congr fun item => ?_
    cases (kind item).isDirectory <;> simp
  have sameLength := ((perm_ext_iff_of_nodup (nodup_dedup _) keeps.distinct).mpr members).length_eq
  have whole : (otherPaths items ++ directoryPaths items).Nodup := by
    refine dedup_eq_self.mp ((dedup_sublist _).eq_of_length ?_)
    rw [sameLength, length_map, length_append]
    omega
  obtain ⟨othersNodup, _, apart⟩ := nodup_append.mp whole
  -- A pair with one path is neither among the others nor split between the two lists.
  refine pairwise_iff_forall_sublist.mpr ?_
  intro first second pair same
  have firstMember : first ∈ items := pair.subset (by simp)
  have secondMember : second ∈ items := pair.subset (by simp)
  cases firstKind : (kind first).isDirectory with
  | true =>
    cases secondKind : (kind second).isDirectory with
    | true => exact ⟨rfl, rfl⟩
    | false =>
      exact absurd same.symm (apart _ (mem_otherPaths.mpr ⟨second, secondMember, secondKind, rfl⟩)
        _ (mem_directoryPaths.mpr ⟨first, firstMember, firstKind, rfl⟩))
  | false =>
    cases secondKind : (kind second).isDirectory with
    | true =>
      exact absurd same (apart _ (mem_otherPaths.mpr ⟨first, firstMember, firstKind, rfl⟩)
        _ (mem_directoryPaths.mpr ⟨second, secondMember, secondKind, rfl⟩))
    | false =>
      have both := (pair.filter fun item => !(kind item).isDirectory).map BlitFile.path
      simp only [filter_cons, firstKind, secondKind, filter_nil, Bool.not_false,
        if_true, map_cons, map_nil, same] at both
      exact absurd (othersNodup.sublist both) (by simp)

end

end Counting

section Keeping

variable {items : List T} {keptFiles : List (File T)} {keptBuilder : TreeBuilder T}

def keepLastFiles (files : List (File T)) : List (File T) := files.pwFilter fun first second => first.text ≠ second.text

theorem pwFilter_ne_cons {α : Type} (key : α → AStr) {first : α} {rest : List α} :
    (first :: rest).pwFilter (fun a b => key a ≠ key b) =
      if key first ∈ (rest.pwFilter fun a b => key a ≠ key b).map key then
        rest.pwFilter fun a b => key a ≠ key b
      else first :: rest.pwFilter fun a b => key a ≠ key b := by
  split
  · rename_i known
    refine pwFilter_cons_of_neg ?_
    intro apart
    obtain ⟨other, member, same⟩ := mem_map.mp known
    exact apart other member same.symm
  · rename_i unknown
    refine pwFilter_cons_of_pos ?_
    intro other member same
    exact unknown (same ▸ mem_map_of_mem member)

/-- Files with one path are directories, all of them. -/
def DirectoryFilesRepeat (files : List (File T)) : Prop :=
  files.Pairwise fun first second => first.text = second.text →
    first.kind.isDirectory = true ∧ second.kind.isDirectory = true

theorem mem_keepLastFiles (member : file ∈ keepLastFiles files) : file ∈ files := (pwFilter_sublist _).subset member

section

variable (repeats : DirectoryFilesRepeat files)
include repeats

theorem DirectoryFilesRepeat.others_kept :
    (keepLastFiles files).filter (fun file => !file.kind.isDirectory) =
      files.filter fun file => !file.kind.isDirectory := by
  induction files with
  | nil => rfl
  | cons file files ih =>
    obtain ⟨first, rest⟩ := pairwise_cons.mp repeats
    rw [keepLastFiles, pwFilter_ne_cons, ← keepLastFiles]
    by_cases known : file.text ∈ (keepLastFiles files).map File.text
    · obtain ⟨other, member, same⟩ := mem_map.mp known
      have isDirectory := (first other (mem_keepLastFiles member) same.symm).1
      rw [if_pos known, ih rest, filter_cons_of_neg (by simp [isDirectory])]
    · rw [if_neg known, filter_cons, filter_cons, ih rest]

theorem DirectoryFilesRepeat.others_distinct :
    ((files.filter fun file => !file.kind.isDirectory).map File.text).Nodup := by
  refine pairwise_map.mpr ((repeats.filter _).imp_of_mem ?_)
  intro first second firstMember _ both same
  have notDirectory := (mem_filter.mp firstMember).2
  rw [(both same).1] at notDirectory
  cases notDirectory

theorem DirectoryFilesRepeat.last_kept (path : AStr) :
    ((keepLastFiles files).filter fun file => file.text = path && file.kind.isDirectory).getLast? =
      (files.filter fun file => file.text = path && file.kind.isDirectory).getLast? := by
  induction files with
  | nil => rfl
  | cons file files ih =>
    obtain ⟨first, rest⟩ := pairwise_cons.mp repeats
    have later := ih rest
    rw [keepLastFiles, pwFilter_ne_cons, ← keepLastFiles]
    by_cases known : file.text ∈ (keepLastFiles files).map File.text
    · rw [if_pos known, later, filter_cons]
      split
      · rename_i chosen
        -- The later directory of this path comes after it.
        obtain ⟨other, member, same⟩ := mem_map.mp known
        have isDirectory := (first other (mem_keepLastFiles member) same.symm).2
        have ofPath : file.text = path := of_decide_eq_true (Bool.and_eq_true_iff.mp chosen).1
        have filled : other ∈ files.filter fun file =>
            file.text = path && file.kind.isDirectory := by
          refine mem_filter.mpr ⟨mem_keepLastFiles member, ?_⟩
          simp [same, ofPath, isDirectory]
        rw [getLast?_cons, getLast?_eq_some_getLast (ne_nil_of_mem filled)]
        rfl
      · rfl
    · rw [if_neg known, filter_cons, filter_cons]
      split
      · rw [getLast?_cons, getLast?_cons, later]
      · exact later

end

/-- The sort leaves files with one path in their order. -/
theorem sortFiles_filter_text (path : AStr) :
    (sortFiles files).filter (fun file => file.text = path) = files.filter fun file => file.text = path := by
  have alike : (files.filter fun file => file.text = path).Pairwise fun a b =>
      (sortedPaths a b).isLE = true := by
    refine pairwise_of_forall_mem_list ?_
    intro first firstMember second secondMember
    have firstText := of_decide_eq_true (mem_filter.mp firstMember).2
    have secondText := of_decide_eq_true (mem_filter.mp secondMember).2
    have same : sortedPaths first second = .eq := sortedPaths_eq_iff.mpr (firstText.trans secondText.symm)
    rw [same]
    rfl
  have part := (sublist_insertionSort alike filter_sublist).filter fun file => file.text = path
  simp only [filter_filter, Bool.and_self] at part
  refine (part.eq_of_length ?_).symm
  exact (((sortFiles_perm files).filter _).length_eq).symm

theorem allDirs_find?_of_explicit (explicit : builder.explicit = sortFiles files) (path : AStr) :
    builder.allDirs.find? path = (((implicitFiles builder).filter fun file => file.text = path).getLast?).or
        (files.filter fun file => file.text = path && file.kind.isDirectory).getLast? := by
  have inTurn : ∀ list : List (File T), (list.filter fun file =>
      file.text = path && file.kind.isDirectory) =
        (list.filter fun file => file.text = path).filter fun file => file.kind.isDirectory := by
    intro list
    simp only [filter_filter, Bool.and_comm]
  rw [allDirs_find?, directoryFiles, filter_append, getLast?_append, filter_filter, inTurn, inTurn, explicit,
    sortFiles_filter_text]

variable [BlitFile T]

def keepLast (items : List T) : List T := items.pwFilter fun first second => BlitFile.path first ≠ BlitFile.path second

theorem keepsOne_keepLast : KeepsOne (keepLast items) items where
  part := pwFilter_sublist _
  distinct := pairwise_map.mpr (pairwise_pwFilter _)
  covers := by
    intro item member
    by_contra absent
    have differs : ∀ other ∈ keepLast items, BlitFile.path item ≠ BlitFile.path other := by
      intro other isOther same
      exact absent (same ▸ mem_map_of_mem isOther)
    refine (forall_mem_pwFilter ?_ item items).mp differs item member rfl
    intro first second third apart
    by_cases same : BlitFile.path first = BlitFile.path second
    · exact .inr (same ▸ apart)
    · exact .inl same

theorem made_keepLast (made : Forall₂ IsFileOf items files) :
    Forall₂ IsFileOf (keepLast items) (keepLastFiles files) := by
  induction made with
  | nil => exact .nil
  | @cons item file items files isFile _ ih =>
    have texts := texts_of_made ih
    rw [keepLast, keepLastFiles, pwFilter_ne_cons, pwFilter_ne_cons, ← keepLast, ← keepLastFiles, texts, isFile.text]
    split
    · exact ih
    · exact .cons isFile ih

theorem DirectoriesOnlyRepeat.directoryFiles (repeats : DirectoriesOnlyRepeat items)
    (made : Forall₂ IsFileOf items files) : DirectoryFilesRepeat files := by
  refine pairwise_right made repeats ?_
  intro first _ second _ file other isFile isOther both same
  rw [isFile.text, isOther.text] at same
  rw [isFile.kind, isOther.kind]
  exact both same

theorem Baked.tree_keepLast (arena : TreeArena (File T) A N)
    (baked : Baked items files builder) (keptBaked : Baked (keepLast items) keptFiles keptBuilder)
    (repeats : DirectoriesOnlyRepeat items) : keptBuilder.tree arena = builder.tree arena := by
  have isKept : keptFiles = keepLastFiles files :=
    right_unique_forall₂' (fun _ _ _ first second => first.eq_iff.mpr second) keptBaked.made (made_keepLast baked.made)
  subst isKept
  have fileRepeats := repeats.directoryFiles baked.made
  have sameImplicit : keptBuilder.implicitDirs = builder.implicitDirs := by
    refine ext_find? fun path => Option.ext fun file => ?_
    rw [keptBaked.implied path file, baked.implied path file, keepsOne_keepLast.missing_iff]
  have sameDirs : keptBuilder.allDirs = builder.allDirs := by
    refine ext_find? fun path => ?_
    rw [allDirs_find?_of_explicit keptBaked.explicit, allDirs_find?_of_explicit baked.explicit,
      fileRepeats.last_kept, implicitFiles, implicitFiles, sameImplicit]
  have sameOthers : keptBuilder.nonDirs = builder.nonDirs := by
    rw [nonDirs, nonDirs, keptBaked.explicit, baked.explicit]
    have keptPerm := (sortFiles_perm (keepLastFiles files)).filter fun file =>
      !file.kind.isDirectory
    have allPerm := (sortFiles_perm files).filter fun file => !file.kind.isDirectory
    rw [fileRepeats.others_kept] at keptPerm
    exact sorted_eq_of_perm (keptPerm.trans allPerm.symm)
      ((keptPerm.map File.text).nodup_iff.mpr fileRepeats.others_distinct)
      ((sortFiles_sorted _).filter _) ((sortFiles_sorted _).filter _)
  simp only [TreeBuilder.tree, TreeBuilder.plant, fullSet, redirects, sameDirs, sameOthers]

end Keeping

section Skipping

variable [BlitFile T] {arena : TreeArena (File T) A N} {items : List T}

/-- What the structured view of a tree holds, in preorder. -/
def Flattened (arena : TreeArena (File T) A N) (tree : Tree A N) (listing : List T) : Prop :=
  ∃ view depth, (∀ fuel, depth < fuel → Tree.structured arena tree fuel = some view) ∧
    view.elim [] Element.flatten = listing

/-- Some choice of one item for each path has the tree of all of them, and a path with only
directories above it is in that tree once. -/
def SkipsConflicts (arena : TreeArena (File T) A N) (items : List T) : Prop :=
  ∃ kept, KeepsOne kept items ∧ ∃ tree keptTree listing,
    build arena items = .ok tree ∧ build arena kept = .ok keptTree ∧
    Tree.iter arena tree = Tree.iter arena keptTree ∧ tree.length = keptTree.length ∧
    Flattened arena tree listing ∧ Flattened arena keptTree listing ∧
    ∀ item ∈ items, (∀ other ∈ kept, BlitFile.path other ∈ properAncestors (BlitFile.path item) →
        (kind other).isDirectory = true) →
      ((Tree.iter arena tree).map BlitFile.path).count (BlitFile.path item) = 1 ∧
        (listing.map BlitFile.path).count (BlitFile.path item) = 1

theorem KeepsOne.quiet (keeps : KeepsOne kept items) (quiet : Quiet items) : Quiet kept := by
  intro link member target pointed directory above
  refine quiet link (keeps.part.subset member) target pointed ?_ ?_
  · rcases directory with ⟨item, isItem, isDirectory, text⟩ | missing
    · exact .inl ⟨item, keeps.part.subset isItem, isDirectory, text⟩
    · exact .inr (keeps.missing_iff.mp missing)
  · exact (aboveSome_congr fun _ => keeps.mem_paths).mp above

variable [LawfulBlitFile T] [DecidableEq N]

section

variable (lawful : arena.Lawful) (normal : ∀ item ∈ items, Normalized (BlitFile.path item)) (quiet : Quiet items)
include lawful normal quiet

theorem build_length (built : build arena items = .ok tree) : tree.length =
      (directoryPaths items).length + (missingPaths items).length + (otherPaths items).length := by
  obtain ⟨files, pushed, all, baked⟩ := exists_baked normal
  obtain ⟨planted, made, _, length⟩ := baked.tree_of_quiet lawful quiet
  rw [build, all, ok_bind, made] at built
  cases built
  rw [length, baked.fullSet_length]

theorem SkipsConflicts.directoriesOnlyRepeat (skips : SkipsConflicts arena items) : DirectoriesOnlyRepeat items := by
  obtain ⟨kept, keeps, tree, keptTree, _, built, keptBuilt, _, sameLength, _⟩ := skips
  have keptNormal : ∀ item ∈ kept, Normalized (BlitFile.path item) :=
    fun item member => normal item (keeps.part.subset member)
  rw [build_length lawful normal quiet built,
    build_length lawful keptNormal (keeps.quiet quiet) keptBuilt, keeps.missingPaths_length] at sameLength
  have keptLength := keeps.paths_length
  exact keeps.directoriesOnlyRepeat (by omega)

omit [DecidableEq N] lawful normal quiet in
theorem Baked.underDirectories (baked : Baked kept files builder) (member : file ∈ builder.fullSet)
    (only : ∀ other ∈ kept, BlitFile.path other ∈ properAncestors file.text →
      (kind other).isDirectory = true) : UnderDirectories builder.fullSet file := by
  intro upper upperMember above proper
  have normal := baked.file_normal (baked.mem_fullSet member)
  have upperIn := baked.mem_fullSet upperMember
  rcases baked.mem_cases upperIn with ⟨other, isOther, made⟩ | ⟨-, made⟩
  · rw [made.kind]
    refine only other isOther ?_
    rw [← made.text, File.text_eq normal, mem_properAncestors (File.clean_names normal)]
    exact ⟨upper.names, above, proper, File.text_eq (baked.file_normal upperIn)⟩
  · rw [made.kind, LawfulBlitFile.kind_ofPath]
    rfl

theorem DirectoriesOnlyRepeat.skipsConflicts (repeats : DirectoriesOnlyRepeat items) : SkipsConflicts arena items := by
  have keeps : KeepsOne (keepLast items) items := keepsOne_keepLast
  have keptNormal : ∀ item ∈ keepLast items, Normalized (BlitFile.path item) :=
    fun item member => normal item (keeps.part.subset member)
  obtain ⟨files, pushed, all, baked⟩ := exists_baked normal
  obtain ⟨keptFiles, keptPushed, keptAll, keptBaked⟩ := exists_baked keptNormal
  obtain ⟨tree, made, planted, _⟩ := keptBaked.tree_of_quiet lawful (keeps.quiet quiet)
  obtain ⟨same, plantedSame, _, holds⟩ := keptBaked.planted lawful keeps.distinct
  rw [planted] at plantedSame
  cases plantedSame
  have fullPerm := keptBaked.fullSet_perm keeps.distinct
  obtain ⟨listed, seen, listedPerm, _, iterated, part, underSeen, view, depth, viewed, flattened⟩ :=
    holds.views lawful trivial
  have inside := (listedPerm.trans fullPerm).subset
  have distinct : (listed.map File.text).Nodup := (listedPerm.map File.text).nodup_iff.mpr holds.rooted.distinct
  refine ⟨keepLast items, keeps, tree, tree, seen.map File.inner, ?_, ?_, rfl, rfl,
    ⟨view, depth, viewed, flattened⟩, ⟨view, depth, viewed, flattened⟩, ?_⟩
  · rw [build, all, ok_bind, ← baked.tree_keepLast arena keptBaked repeats, made]
  · rw [build, keptAll, ok_bind, made]
  · intro item member only
    have known : BlitFile.path item ∈ (keptFiles ++ implicitFiles keptPushed.bake).map File.text := by
      rw [map_append, mem_append, texts_of_made keptBaked.made]
      exact .inl (keeps.covers item member)
    obtain ⟨file, isFile, text⟩ := mem_map.mp (keptBaked.fullSet_covers known)
    have under := keptBaked.underDirectories isFile (text.symm ▸ only)
    rw [iterated, keptBaked.paths_inner inside, keptBaked.paths_inner (Subset.trans part.subset inside), ← text]
    exact ⟨count_eq_one_of_mem distinct (mem_map_of_mem (listedPerm.mem_iff.mpr isFile)),
      count_eq_one_of_mem (distinct.sublist (part.map _)) (mem_map_of_mem (underSeen file isFile under))⟩

end

/-- Conflicts are skipped without further effect exactly when they are between directories. The paths
are normalized: one such as `//b`, which `VfsPath::new` takes too, is not considered. -/
theorem conflicts_skipped_iff (lawful : arena.Lawful)
    (normal : ∀ item ∈ items, Normalized (BlitFile.path item)) (quiet : Quiet items) :
    SkipsConflicts arena items ↔ DirectoriesOnlyRepeat items :=
  ⟨SkipsConflicts.directoriesOnlyRepeat lawful normal quiet, DirectoriesOnlyRepeat.skipsConflicts lawful normal quiet⟩

end Skipping

def sharedDirectory : List CustomFile :=
  [⟨"/a".toList, .directory, "first".toList⟩, ⟨"/a".toList, .directory, "second".toList⟩,
    ⟨"/a/b".toList, .regular, "first".toList⟩]

theorem shared_directory_skipped : SkipsConflicts (forestArena _) sharedDirectory := by
  have normal : ∀ item ∈ sharedDirectory, Normalized (BlitFile.path item) := by decide
  exact (conflicts_skipped_iff (forestArena_lawful _) normal (by decide)).mpr (by decide)

def clashingFile : List CustomFile :=
  [⟨"/a".toList, .directory, "first".toList⟩, ⟨"/a".toList, .regular, "second".toList⟩,
    ⟨"/a/b".toList, .regular, "first".toList⟩]

/-- The directory hangs in the tree, but what is below it went to the skipped file, and both
are counted. -/
theorem clashing_file_takes_over : (∀ item ∈ clashingFile, Normalized (BlitFile.path item)) ∧ Quiet clashingFile ∧
      (∃ tree, build (forestArena _) clashingFile = .ok tree ∧
        (Tree.iter (forestArena _) tree).map BlitFile.path = ["/".toList, "/a".toList] ∧
        tree.length = 4) ∧
      ¬ SkipsConflicts (forestArena _) clashingFile := by
  have normal : ∀ item ∈ clashingFile, Normalized (BlitFile.path item) := by decide
  have quiet : Quiet clashingFile := by decide
  refine ⟨normal, quiet, ⟨_, rfl, by decide, by decide⟩, ?_⟩
  intro skips
  exact absurd (skips.directoriesOnlyRepeat (forestArena_lawful _) normal quiet) (by decide)

end Cast.Vfs
