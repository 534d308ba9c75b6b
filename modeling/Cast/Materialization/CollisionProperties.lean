import Cast.Materialization.EntryProperties
import Cast.Vfs.ConflictProperties

/-! The collision check of a frozen root against the tree builder. The check finds the
directories and the redirects that the builder will find, and what it accepts the builder
lays out as declared. -/

namespace Cast.Materialization

open Foundation Vfs Stone List SortedMap FrozenLayoutEntry

variable {path : AStr} {limits : DirectoryLimits} {directories : Directories}
  {entry : FrozenLayoutEntry} {packages : List PackageId}

variable {names : List AStr} {name : AStr}

theorem pathParent_concat (clean : Clean (names ++ [name])) :
    pathParent (render (names ++ [name])) = some (render names) := by
  have long := render_ne_root clean (by simp)
  have notRoot : render (names ++ [name]) ≠ ['/'] := by
    intro same
    rw [same] at long
    exact absurd long (by decide)
  rw [pathParent, if_neg notRoot, render_concat, rfind_append_cons (clean name (by simp)).whole]
  cases names with
  | nil => rfl
  | cons first rest =>
    have filled : (renderTail (first :: rest)).length ≠ 0 := by simp
    obtain ⟨position, isPosition⟩ := Nat.exists_eq_succ_of_ne_zero filled
    rw [isPosition, render_of_ne_nil (cons_ne_nil _ _)]
    simp only [Nat.succ_eq_add_one] at isPosition ⊢
    rw [← isPosition, take_left]

theorem mem_parentsOf (clean : Clean names) {depth : Nat} (enough : names.length ≤ depth) :
    path ∈ parentsOf depth (render names) ↔ path ∈ properAncestors (render names) := by
  rw [mem_properAncestors clean]
  induction names using reverseRecOn generalizing depth with
  | nil =>
    have none : parentsOf depth (render []) = [] := by
      cases depth with
      | zero | succ _ => rfl
    rw [none]
    refine iff_of_false not_mem_nil ?_
    rintro ⟨upper, above, proper, _⟩
    exact proper (prefix_nil.mp above)
  | append_singleton names name ih =>
    rw [length_append, length_singleton] at enough
    obtain ⟨depth, rfl⟩ := Nat.exists_eq_add_of_le' enough
    have front := clean.of_leading (prefix_append _ _)
    have further := @ih front (depth + names.length) (by omega)
    have unfolded : parentsOf (depth + (names.length + 1)) (render (names ++ [name])) =
        render names :: parentsOf (depth + names.length) (render names) := by
      rw [← Nat.add_assoc, parentsOf, pathParent_concat clean]
    rw [unfolded, mem_cons, further]
    constructor
    · intro held
      rcases held with same | ⟨upper, above, _, isPath⟩
      · exact ⟨names, prefix_append _ _, by simp, same⟩
      · refine ⟨upper, above.trans (prefix_append _ _), ?_, isPath⟩
        intro whole
        have longer := above.length_le
        rw [whole, length_append, length_singleton] at longer
        omega
    · intro held
      obtain ⟨upper, above, proper, isPath⟩ := held
      have within := (prefix_concat_iff.mp above).resolve_left proper
      by_cases same : upper = names
      · exact .inl (same ▸ isPath)
      · exact .inr ⟨upper, within, same, isPath⟩

theorem length_le_render (clean : Clean names) : names.length ≤ (render names).length := by
  have slashes := count_render clean
  have within := @count_le_length _ _ '/' (render names)
  omega

theorem mem_parents (normal : Normalized entry.path) : path ∈ entry.parents ↔ path ∈ properAncestors entry.path := by
  obtain ⟨names, clean, same⟩ := normal
  rw [parents, same]
  exact mem_parentsOf clean (length_le_render clean)

variable {next : Directories} {entries : List FrozenLayoutEntry}

theorem insert_contains
    (inserted : insertFrozenMaterializedDirectory limits directories path = .ok next) (known : AStr) :
    next.contains known = true ↔ directories.contains known = true ∨ known = path := by
  rw [insertFrozenMaterializedDirectory] at inserted
  by_cases present : directories.contains path = true
  · rw [if_pos present] at inserted
    cases inserted
    exact (or_iff_left_of_imp fun same => same ▸ present).symm
  · rw [if_neg present] at inserted
    simp only [bind_eq_ok, exists_check, refuse_eq_ok, pure_eq_ok] at inserted
    obtain ⟨_, _, same⟩ := inserted
    subst same
    rw [Directories.contains, Directories.contains]
    by_cases isPath : known = path
    · subst isPath
      simp [find?_insert_self]
    · rw [find?_insert_of_ne isPath]
      simp [isPath]

theorem insertAll_contains {paths : List AStr}
    (inserted : paths.foldlM (insertFrozenMaterializedDirectory limits) directories = .ok next) :
    ∀ known, next.contains known = true ↔ directories.contains known = true ∨ known ∈ paths := by
  refine foldlM_processed (fun before (state : Directories) => ∀ known, state.contains known = true ↔
    directories.contains known = true ∨ known ∈ before) (by simp) ?_ inserted
  intro before path after state next _ soFar stepped known
  rw [insert_contains stepped, soFar, mem_append, mem_singleton, or_assoc]

theorem insertParents_contains {above : Directories}
    (inserted : entries.foldlM (insertParents limits) ⟨.empty, 0⟩ = .ok above) :
    ∀ known, above.contains known = true ↔ ∃ entry ∈ entries, known ∈ entry.parents := by
  refine foldlM_processed (fun before (state : Directories) => ∀ known, state.contains known = true ↔
    ∃ entry ∈ before, known ∈ entry.parents) ?_ ?_ inserted
  · intro known
    simp [Directories.contains, SortedMap.find?, SortedMap.empty]
  · intro before entry after state next _ soFar stepped known
    rw [insertAll_contains stepped, soFar]
    simp only [mem_append, mem_singleton, or_and_right, exists_or, exists_eq_left]

theorem insertEntry_contains (inserted : insertEntry limits directories entry = .ok next)
    (known : AStr) : next.contains known = true ↔
      if known = entry.path then entry.isDirectory = true else directories.contains known = true := by
  rw [insertEntry] at inserted
  cases isDirectory : entry.isDirectory with
  | true =>
    rw [if_pos isDirectory] at inserted
    rw [insert_contains inserted]
    by_cases same : known = entry.path
    · simp [same]
    · simp [same]
  | false =>
    rw [if_neg (by simp [isDirectory])] at inserted
    by_cases present : directories.contains entry.path = true
    · rw [if_pos present] at inserted
      cases inserted
      rw [Directories.contains, Directories.contains]
      by_cases same : known = entry.path
      · subst same
        simp [find?_erase_self]
      · rw [find?_erase_of_ne same, if_neg same]
    · rw [if_neg present] at inserted
      cases inserted
      by_cases same : known = entry.path
      · subst same
        simpa using present
      · rw [if_neg same]

theorem insertEntries_contains {above : Directories} (distinct : (entries.map FrozenLayoutEntry.path).Nodup)
    (inserted : entries.foldlM (insertEntry limits) above = .ok directories) :
    ∀ known, directories.contains known = true ↔ (∃ entry ∈ entries, entry.isDirectory = true ∧ entry.path = known) ∨
        above.contains known = true ∧ known ∉ entries.map FrozenLayoutEntry.path := by
  refine foldlM_processed (fun before (state : Directories) => ∀ known, state.contains known = true ↔
    (∃ entry ∈ before, entry.isDirectory = true ∧ entry.path = known) ∨
      above.contains known = true ∧ known ∉ before.map FrozenLayoutEntry.path) (by simp) ?_ inserted
  intro before entry after state next split soFar stepped known
  have fresh : entry.path ∉ before.map FrozenLayoutEntry.path := by
    rw [split, map_append, map_cons, nodup_append] at distinct
    intro earlier
    exact distinct.2.2 _ earlier _ mem_cons_self rfl
  rw [insertEntry_contains stepped]
  by_cases same : known = entry.path
  · subst same
    have unseen : ∀ earlier ∈ before, earlier.path ≠ entry.path := by
      intro earlier member samePath
      exact fresh (mem_map.mpr ⟨earlier, member, samePath⟩)
    rw [if_pos rfl]
    constructor
    · intro isDirectory
      exact .inl ⟨entry, by simp, isDirectory, rfl⟩
    · intro held
      rcases held with ⟨other, member, isDirectory, samePath⟩ | ⟨_, absent⟩
      · rcases mem_concat.mp member with old | rfl
        · exact absurd samePath (unseen other old)
        · exact isDirectory
      · exact absurd (by simp) absent
  · rw [if_neg same, soFar]
    simp only [mem_append, mem_singleton, or_and_right, exists_or, exists_eq_left,
      Ne.symm same, and_false, or_false, map_append, map_cons, map_nil, same]

variable {layouts : List (PackageId × LayoutRecord)} {selected : List FrozenLayoutEntry}

namespace Selection

variable (selection : Selection packages layouts selected)
include selection

theorem normal (member : entry ∈ selected) : Normalized entry.path := by
  obtain ⟨_, _, accepted⟩ := selection.accepted entry member
  exact accepted.normal

theorem pending_path (member : entry ∈ selected) : BlitFile.path entry.pending = entry.path := by
  obtain ⟨_, _, accepted⟩ := selection.accepted entry member
  exact accepted.pending_path

theorem pending_paths : (selected.map pending).map BlitFile.path =
    selected.map FrozenLayoutEntry.path := by
  rw [map_map]
  exact map_congr_left fun entry member => selection.pending_path member

theorem pending_normal : ∀ item ∈ selected.map pending, Normalized (BlitFile.path item) := by
  intro item member
  obtain ⟨entry, isEntry, same⟩ := mem_map.mp member
  subst same
  rw [selection.pending_path isEntry]
  exact selection.normal isEntry

theorem pending_distinct : ((selected.map pending).map BlitFile.path).Nodup := by
  rw [selection.pending_paths]
  exact selection.distinct

theorem aboveSome_iff :
    AboveSome (selected.map pending) path ↔ ∃ entry ∈ selected, path ∈ entry.parents := by
  simp only [AboveSome, mem_map, and_assoc, existsAndEq, true_and]
  refine exists_congr fun entry => and_congr_right fun isEntry => ?_
  rw [selection.pending_path isEntry, mem_parents (selection.normal isEntry)]

theorem contains_iff (found : frozenDirectories limits selected = .ok directories) (path : AStr) :
    directories.contains path = true ↔ DirectoryAt (selected.map pending) path := by
  rw [frozenDirectories, bind_eq_ok] at found
  obtain ⟨above, parents, settled⟩ := found
  rw [insertEntries_contains selection.distinct settled, insertParents_contains parents, DirectoryAt,
    Missing, selection.aboveSome_iff, selection.pending_paths]
  refine or_congr_left ?_
  simp only [mem_map, and_assoc, existsAndEq, true_and]
  refine exists_congr fun entry => and_congr_right fun isEntry => and_congr_right fun _ => ?_
  rw [selection.pending_path isEntry]

end Selection

theorem parent_eq_pathParent {T : Type} {file : Vfs.File T} (normal : Normalized file.text) :
    file.parent = pathParent file.text := by
  have clean := File.clean_names normal
  have text := File.text_eq normal
  rcases eq_nil_or_concat' file.names with isRoot | ⟨names, name, isPath⟩
  · rw [(File.parent_eq_none_iff normal).mpr isRoot, text, isRoot]
    rfl
  · rw [isPath] at clean text
    rw [text, pathParent_concat clean]
    exact parent_concat clean text

section Redirects

variable (selection : Selection packages layouts selected) (found : frozenDirectories limits selected = .ok directories)
  {builder : TreeBuilder PendingFile} {files : List (Vfs.File PendingFile)}
  (baked : Baked (selected.map pending) files builder)
include selection found baked

theorem Selection.redirect_eq (member : entry ∈ selected) {link : Vfs.File PendingFile}
    (isFile : IsFileOf entry.pending link) :
    TreeBuilder.redirectOf builder.allDirs link = frozenRedirect directories entry := by
  have sameDirectories : ∀ path, (builder.allDirs.find? path).isSome = directories.contains path := by
    intro path
    rw [Bool.eq_iff_iff, selection.contains_iff found, ← baked.directoryAt_iff, SortedMap.isSome_find?]
  have text : link.text = entry.path := isFile.text.trans (selection.pending_path member)
  have normal : Normalized link.text := text ▸ selection.normal member
  have kind : link.kind = kindOf entry.layout.file := isFile.kind
  rw [TreeBuilder.redirectOf, frozenRedirect, kind]
  cases entry.layout.file with
  | symlink source target =>
    have parent := parent_eq_pathParent normal
    obtain ⟨_, _, accepted⟩ := selection.accepted entry member
    have notRoot : link.parent ≠ none := by
      rw [ne_eq, File.parent_eq_none_iff normal, File.names, text, accepted.path_eq,
        namesOf_render accepted.target.clean]
      exact cons_ne_nil _ _
    obtain ⟨upper, isUpper⟩ := Option.ne_none_iff_exists'.mp notRoot
    rw [isUpper, text] at parent
    simp only [kindOf, TreeBuilder.resolveLink, isUpper, ← parent, sameDirectories, Option.map_some]
    split <;> rfl
  | _ => rfl

theorem Selection.redirects_eq : frozenRedirects directories selected = builder.redirects := by
  refine ext_find? fun source => Option.ext fun target => ?_
  have checked : (frozenRedirects directories selected).find? source = some target ↔
      SortedMap.empty.find? source = some target ∨
        ∃ entry ∈ selected, entry.path = source ∧ frozenRedirect directories entry = some target := by
    refine find?_foldl_choose ?_ ?_ selection.distinct (by intros; rfl)
    · intro map entry value chosen
      rw [addFrozenRedirect, chosen]
    · intro map entry skipped
      rw [addFrozenRedirect, skipped]
  rw [checked, baked.redirects_iff selection.pending_distinct]
  refine (or_iff_right (by intro nothing; cases nothing)).trans ?_
  constructor
  · intro held
    obtain ⟨entry, member, path, redirect⟩ := held
    obtain ⟨link, isLink, made⟩ := baked.file_of_item (mem_map_of_mem member)
    rw [← selection.redirect_eq found baked member made] at redirect
    exact ⟨link, isLink, (made.text.trans (selection.pending_path member)).trans path, redirect⟩
  · intro held
    obtain ⟨link, member, text, redirect⟩ := held
    obtain ⟨item, isItem, made⟩ := baked.item_of_file member
    obtain ⟨entry, isEntry, same⟩ := mem_map.mp isItem
    subst same
    rw [selection.redirect_eq found baked isEntry made] at redirect
    exact ⟨entry, isEntry, ((selection.pending_path isEntry).symm.trans made.text.symm).trans text, redirect⟩

end Redirects

theorem explicitEntries_find? (distinct : (selected.map FrozenLayoutEntry.path).Nodup)
    (member : entry ∈ selected) : (explicitEntries selected).find? entry.path = some entry := by
  refine find?_eq_some_iff.mpr ?_
  exact (mem_foldl_insert distinct (by simp [SortedMap.empty])).mpr (.inr ⟨entry, member, rfl⟩)

/-- What passes the check has only directories above other entries. -/
theorem Selection.onlyDirectoriesAbove (selection : Selection packages layouts selected)
    (checked : ∀ entry ∈ selected, requireDirectoriesAbove (explicitEntries selected) entry = .ok ()) :
    OnlyDirectoriesAbove (selected.map pending) := by
  intro item member notDirectory above
  obtain ⟨ancestor, isAncestor, same⟩ := mem_map.mp member
  subst same
  rw [selection.pending_path isAncestor] at above
  obtain ⟨entry, isEntry, isParent⟩ := selection.aboveSome_iff.mp above
  have passed := forM_eq_ok.mp (checked entry isEntry) ancestor.path isParent
  rw [explicitEntries_find? selection.distinct isAncestor] at passed
  have refused : ancestor.isDirectory = false := notDirectory
  simp only [refused] at passed
  cases passed

section Planning

variable {A N : Type} [DecidableEq N] {arena : TreeArena (Vfs.File PendingFile) A N}
  {layouts others : List (PackageId × LayoutRecord)} {tree : Tree A N}

def declaredPath (layout : LayoutRecord) : AStr := "/usr/".toList ++ layout.file.target.toList

/-- The tree has every record where it was declared, below directories, and no redirect of
the builder changed it. A directory may be that of another package with the same record. -/
structure LaidOut (arena : TreeArena (Vfs.File PendingFile) A N) (packages : List PackageId)
    (layouts : List (PackageId × LayoutRecord)) (tree : Tree A N) : Prop where
  declared : ∀ row ∈ layouts, ((Tree.iter arena tree).map BlitFile.path).count (declaredPath row.2) = 1 ∧
      ∃ item ∈ Tree.iter arena tree, BlitFile.path item = declaredPath row.2 ∧ item.layout = row.2 ∧
        (item.id = row.1 ∨ (BlitFile.kind item).isDirectory = true)
  ancestors : ∀ item ∈ Tree.iter arena tree, ∀ upper ∈ properAncestors (BlitFile.path item),
    ∃ above ∈ Tree.iter arena tree, BlitFile.path above = upper
  directories : ∀ item ∈ Tree.iter arena tree, ∀ above ∈ Tree.iter arena tree,
    BlitFile.path above ∈ properAncestors (BlitFile.path item) → (BlitFile.kind above).isDirectory = true
  viewed : Flattened arena tree (Tree.iter arena tree)
  unmoved : ∃ selected directories builder, selectEntries packages layouts = .ok selected ∧
    frozenDirectories frozenLimits selected = .ok directories ∧
    (selected.map pending).foldlM TreeBuilder.push TreeBuilder.empty = .ok builder ∧
    builder.bake.plant arena = .ok tree ∧ builder.bake.tree arena = .ok tree ∧
    frozenRedirects directories selected = builder.bake.redirects

omit [DecidableEq N] in
theorem frozenVfsUntil_of_perm (permuted : layouts.Perm others)
    (planned : frozenVfsUntil arena false packages layouts = .ok tree) :
    frozenVfsUntil arena false packages others = .ok tree := by
  simp only [frozenVfsUntil, bind_eq_ok, exists_check] at planned ⊢
  obtain ⟨inTime, selected, chosen, checked, built⟩ := planned
  exact ⟨inTime, selected, selectEntries_of_perm permuted chosen, checked, built⟩

theorem laidOut_of_planned (lawful : arena.Lawful) (planned : frozenVfsUntil arena false packages layouts = .ok tree) :
    LaidOut arena packages layouts tree := by
  simp only [frozenVfsUntil, validateFrozenTreeCollisions, bind_eq_ok, exists_check, forM_eq_ok,
    mapError_eq_ok] at planned
  obtain ⟨_, selected, chosen, ⟨directories, found, _, checked⟩, built⟩ := planned
  have selection := selection_of_selectEntries chosen
  have only := selection.onlyDirectoriesAbove checked
  obtain ⟨files, pushed, all, baked⟩ := exists_baked selection.pending_normal
  obtain ⟨same, made, planted, listed, nodup, _, _, view⟩ := baked.tree_lists lawful selection.pending_distinct only
  rw [build, all, ok_bind, made] at built
  cases built
  refine ⟨?_, ?_, ?_, view, selected, directories, pushed, chosen, found, all, planted, made,
    selection.redirects_eq found baked⟩
  · intro row member
    obtain ⟨entry, isEntry, sameLayout, samePackage⟩ := selection.covers row member
    have inTree : entry.pending ∈ Tree.iter arena tree :=
      listed.mem_iff.mpr (mem_append_left _ (mem_map_of_mem isEntry))
    have path : BlitFile.path entry.pending = declaredPath row.2 := by
      obtain ⟨own, _, accepted⟩ := selection.accepted entry isEntry
      rw [accepted.pending_path, accepted.path, ← accepted.layout, sameLayout]
      rfl
    refine ⟨count_eq_one_of_mem nodup (path ▸ mem_map_of_mem inTree), entry.pending,
      inTree, path, sameLayout, samePackage⟩
  · intro item member upper isUpper
    obtain ⟨above, isAbove, path⟩ := baked.listed_closed (listed.mem_iff.mp member) isUpper
    exact ⟨above, listed.mem_iff.mpr isAbove, path⟩
  · intro item member above isAbove isUpper
    exact baked.listed_directory (listed.mem_iff.mp member) only (listed.mem_iff.mp isAbove) isUpper

/-- The order of the layout records does not matter: planning fails for every order, or it
lays out the same tree for all. -/
theorem frozen_vfs_deterministic (lawful : arena.Lawful) (packages : List PackageId) (permuted : layouts.Perm others) :
    (∃ error otherError, frozenVfsUntil arena false packages layouts = .error error ∧
      frozenVfsUntil arena false packages others = .error otherError) ∨
    ∃ tree, frozenVfsUntil arena false packages layouts = .ok tree ∧
      frozenVfsUntil arena false packages others = .ok tree ∧
      LaidOut arena packages layouts tree := by
  cases planned : frozenVfsUntil arena false packages layouts with
  | ok tree =>
    exact .inr ⟨tree, rfl, frozenVfsUntil_of_perm permuted planned, laidOut_of_planned lawful planned⟩
  | error error =>
    cases otherPlanned : frozenVfsUntil arena false packages others with
    | ok tree =>
      rw [frozenVfsUntil_of_perm permuted.symm otherPlanned] at planned
      cases planned
    | error otherError => exact .inl ⟨error, otherError, rfl, rfl⟩

end Planning

def samplePackages : List PackageId := ["base".toList, "nano".toList]

def sampleLayouts : List (PackageId × LayoutRecord) :=
  [("nano".toList, ⟨0, 0, 0o40755, 0, .directory "share"⟩), ("base".toList, ⟨0, 0, 0o40755, 0, .directory "share"⟩),
    ("base".toList, ⟨0, 0, 0o120777, 0, .symlink "lib" "lib64"⟩),
    ("nano".toList, ⟨0, 0, 0o100644, 0, .regular 0x68 "lib/nano"⟩)]

theorem sample_layouts_laid_out : ∃ tree, frozenVfsUntil (forestArena _) false samplePackages sampleLayouts = .ok tree ∧
      frozenVfsUntil (forestArena _) false samplePackages sampleLayouts.reverse = .ok tree ∧
      LaidOut (forestArena _) samplePackages sampleLayouts tree := by
  have planned : (frozenVfsUntil (forestArena _) false samplePackages sampleLayouts).isOk = true := by
    decide +kernel
  rcases frozen_vfs_deterministic (forestArena_lawful (Vfs.File PendingFile)) samplePackages
    (reverse_perm sampleLayouts).symm with ⟨error, _, failed, _⟩ | laidOut
  · rw [failed] at planned
    cases planned
  · exact laidOut

end Cast.Materialization
