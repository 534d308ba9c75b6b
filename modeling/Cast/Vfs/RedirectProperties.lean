import Cast.Vfs.ReparentProperties

/-! Symlink redirects of a built tree. What the iterator yields after all redirects, and when
that is what a redirect is for. -/

namespace Cast.Vfs

open Foundation List BlitFile

section Redirecting

variable {T : Type} [BlitFile T] {items all present : List T} {path link : AStr} {item : T} {done removed : List AStr}

/-- The links that point to a directory of the tree, with the directory. -/
def redirections (items : List T) : List (AStr × AStr) :=
  items.filterMap fun link =>
    (linkTarget link).bind fun target =>
      if DirectoryAt items target then some (BlitFile.path link, target) else none

/-- No redirected link lies above the path. -/
def Unredirected (items : List T) (path : AStr) : Prop :=
  ∀ redirect ∈ redirections items, redirect.1 ∉ properAncestors path

instance (items : List T) (path : AStr) : Decidable (Unredirected items path) :=
  inferInstanceAs (Decidable (∀ _ ∈ _, _))

/-- Everything that a tree has before any redirect. -/
def allItems (items : List T) : List T := items ++ (missingPaths items).map ofPath

/-- The place below the target that a path has below the source. -/
def retargeted (redirect : AStr × AStr) (path : AStr) : AStr := render (namesOf redirect.2 ++ remainder redirect.1 path)

/-! ### What redirects leave

A redirect moves what lies below a link, and its target does not enter. -/

def links (items : List T) : List AStr :=
  ((redirections items).map Prod.fst).dedup.insertionSort fun first second => (compare first second).isLE

def below (link : AStr) (present : List T) : List T :=
  present.filter fun item => link ∈ properAncestors (BlitFile.path item)

def beside (link : AStr) (present : List T) : List T :=
  present.filter fun item => link ∉ properAncestors (BlitFile.path item)

/-- What lies below a link, where the rest of each path leads. -/
def movedFrom (link : AStr) (present : List T) : List T :=
  (below link present).map fun item => clonedTo item (render (remainder link (BlitFile.path item)))

/-- Where something is already, nothing is moved to. -/
def redirected (present : List T) (link : AStr) : List T :=
  beside link present ++ (movedFrom link present).filter fun item =>
    BlitFile.path item ∉ (beside link present).map BlitFile.path

def remaining (items : List T) : List T := (links items).foldl redirected (allItems items)

/-- No node is looked up after it was removed: a link was not removed itself, and nothing is moved
to a path that was. The target of a link at the root is removed with everything below it. -/
def Untouched : (removed : List AStr) → (present : List T) → (links : List AStr) → Prop
  | _, _, [] => True
  | removed, present, link :: later =>
    let gone := removed ++ (below link present).map BlitFile.path
    link ≠ ['/'] ∧ link ∉ removed ∧ (∀ item ∈ movedFrom link present, BlitFile.path item ∉ gone) ∧
      Untouched gone (redirected present link) later

def decideUntouched : (removed : List AStr) → (present : List T) → (links : List AStr) →
    Decidable (Untouched removed present links)
  | _, _, [] => isTrue trivial
  | removed, present, link :: later =>
    have := decideUntouched (removed ++ (below link present).map BlitFile.path) (redirected present link) later
    inferInstanceAs (Decidable (_ ∧ _ ∧ _ ∧ _))

instance (removed : List AStr) (present : List T) (links : List AStr) : Decidable (Untouched removed present links) :=
  decideUntouched removed present links

/-- What a redirect is for: everything below the link is found below its target, nothing is
left below the link, and everything else stays. -/
structure LandsUnderTarget {A N : Type} (arena : TreeArena (File T) A N) (items : List T)
    (tree : Tree A N) : Prop where
  lands : ∀ redirect ∈ redirections items, redirect.1 ∉ properAncestors redirect.2 →
    ∀ item ∈ items, redirect.1 ∈ properAncestors (BlitFile.path item) →
    ∃ landed ∈ Tree.iter arena tree, BlitFile.path landed = retargeted redirect (BlitFile.path item) ∧
      (landed ∈ items ∨ retargeted redirect (BlitFile.path item) ∉ items.map BlitFile.path ∧
        landed = clonedTo item (retargeted redirect (BlitFile.path item)))
  emptied : ∀ redirect ∈ redirections items, redirect.1 ∉ properAncestors redirect.2 →
    ∀ item ∈ Tree.iter arena tree, redirect.1 ∉ properAncestors (BlitFile.path item)
  kept : ∀ item ∈ items, Unredirected items (BlitFile.path item) → item ∈ Tree.iter arena tree

/-- There is an item at the place below the target anyway, or the moves lead there by themselves; and
none of them leads below a link. -/
structure ReachesTarget (items : List T) : Prop where
  reached : ∀ redirect ∈ redirections items, redirect.1 ∉ properAncestors redirect.2 →
    ∀ item ∈ items, redirect.1 ∈ properAncestors (BlitFile.path item) →
    let place := retargeted redirect (BlitFile.path item)
    (place ∈ items.map BlitFile.path ∧ Unredirected items place) ∨
      place ∉ items.map BlitFile.path ∧ clonedTo item place ∈ remaining items
  clear : ∀ redirect ∈ redirections items, redirect.1 ∉ properAncestors redirect.2 →
    ∀ item ∈ remaining items, BlitFile.path item ∉ (allItems items).map BlitFile.path →
    redirect.1 ∉ properAncestors (BlitFile.path item)

theorem mem_redirections {source target : AStr} : (source, target) ∈ redirections items ↔
    ∃ link ∈ items, BlitFile.path link = source ∧ linkTarget link = some target ∧ DirectoryAt items target := by
  simp only [redirections, mem_filterMap, Option.bind_eq_some_iff,
    Option.ite_none_right_eq_some, Option.some.injEq, Prod.mk.injEq, existsAndEq, and_true]
  refine exists_congr fun link => and_congr_right fun _ => ?_
  exact and_assoc.symm.trans and_comm

theorem mem_links : link ∈ links items ↔ ∃ redirect ∈ redirections items, redirect.1 = link := by
  rw [links, (perm_insertionSort _ _).mem_iff, mem_dedup, mem_map]

theorem mem_below : item ∈ below link present ↔ item ∈ present ∧ link ∈ properAncestors (BlitFile.path item) := by
  simp [below]

theorem mem_beside : item ∈ beside link present ↔ item ∈ present ∧ link ∉ properAncestors (BlitFile.path item) := by
  simp [beside]

theorem mem_redirected : item ∈ redirected present link ↔ item ∈ beside link present ∨
    item ∈ movedFrom link present ∧ BlitFile.path item ∉ (beside link present).map BlitFile.path := by
  simp only [redirected, mem_append, mem_filter, decide_eq_true_eq]

/-- What was there at first is where it was unless a link above it was redirected, and no path of
it is taken by something else. -/
structure After (all : List T) (done removed : List AStr) (present : List T) : Prop where
  standing : ∀ item ∈ present, BlitFile.path item ∈ all.map BlitFile.path →
    item ∈ all ∧ ∀ link ∈ done, link ∉ properAncestors (BlitFile.path item)
  kept : ∀ item ∈ all, (∀ link ∈ done, link ∉ properAncestors (BlitFile.path item)) → item ∈ present
  covered : ∀ path ∈ all.map BlitFile.path, path ∈ present.map BlitFile.path ∨ path ∈ removed

theorem After.step (after : After all done removed present)
    (fresh : ∀ item ∈ movedFrom link present, BlitFile.path item ∉ removed ++ (below link present).map BlitFile.path) :
    After all (done ++ [link]) (removed ++ (below link present).map BlitFile.path) (redirected present link) := by
  have covered : ∀ path ∈ all.map BlitFile.path, path ∈ (beside link present).map BlitFile.path ∨
      path ∈ removed ++ (below link present).map BlitFile.path := by
    intro path known
    rcases after.covered path known with here | gone
    · obtain ⟨item, isItem, rfl⟩ := mem_map.mp here
      by_cases isBelow : link ∈ properAncestors (BlitFile.path item)
      · exact .inr (mem_append_right _ (mem_map_of_mem (mem_below.mpr ⟨isItem, isBelow⟩)))
      · exact .inl (mem_map_of_mem (mem_beside.mpr ⟨isItem, isBelow⟩))
    · exact .inr (mem_append_left _ gone)
  refine ⟨?_, ?_, ?_⟩
  · intro item member known
    rcases mem_redirected.mp member with isBeside | ⟨isMoved, free⟩
    · obtain ⟨isItem, outside⟩ := mem_beside.mp isBeside
      obtain ⟨isOld, clear⟩ := after.standing item isItem known
      refine ⟨isOld, fun other isOther => ?_⟩
      rcases mem_append.mp isOther with isDone | isLink
      · exact clear other isDone
      · exact mem_singleton.mp isLink ▸ outside
    · exact ((covered _ known).elim free (fresh item isMoved)).elim
  · intro item isOld clear
    have isItem := after.kept item isOld fun other isDone => clear other (mem_append_left _ isDone)
    exact mem_redirected.mpr (.inl (mem_beside.mpr ⟨isItem, clear link (by simp)⟩))
  · intro path known
    refine (covered path known).imp_left fun here => ?_
    obtain ⟨item, isBeside, rfl⟩ := mem_map.mp here
    exact mem_map_of_mem (mem_redirected.mpr (.inl isBeside))

/-! ### Redirects of a tree -/

variable {source file : File T} {files later : List (File T)} {builder : TreeBuilder T}

omit [BlitFile T] in
theorem File.text_mem_properAncestors (normal : Normalized source.text)
    (lowerNormal : Normalized file.text) : source.text ∈ properAncestors file.text ↔ StrictlyBelow source file := by
  rw [File.text_eq lowerNormal, mem_properAncestors (File.clean_names lowerNormal)]
  constructor
  · intro held
    obtain ⟨upper, leading, proper, text⟩ := held
    have sameNames : source.names = upper := by
      rw [File.names, text, namesOf_render ((File.clean_names lowerNormal).of_leading leading)]
    exact ⟨sameNames ▸ leading, sameNames ▸ proper⟩
  · intro held
    exact ⟨source.names, held.1, held.2, File.text_eq normal⟩

/-- The files are those of the items. -/
structure Mirrors (files : List (File T)) (present : List T) : Prop where
  mem_iff : ∀ file, file ∈ files ↔ ∃ item ∈ present, IsFileOf item file
  made : ∀ item ∈ present, ∃ file, IsFileOf item file

theorem Mirrors.file_of_item (mirrors : Mirrors files present) (member : item ∈ present) :
    ∃ file ∈ files, IsFileOf item file := by
  obtain ⟨file, isFile⟩ := mirrors.made item member
  exact ⟨file, (mirrors.mem_iff file).mpr ⟨item, member, isFile⟩, isFile⟩

variable [LawfulBlitFile T]

section

variable (mirrors : Mirrors files present) (rooted : Rooted files) (member : source ∈ files)
include mirrors rooted member

omit [LawfulBlitFile T] in
theorem Mirrors.above_iff (isItem : item ∈ present) (isFile : IsFileOf item file) :
    source.text ∈ properAncestors (BlitFile.path item) ↔ StrictlyBelow source file := by
  rw [← isFile.text]
  refine File.text_mem_properAncestors (rooted.normal source member) (rooted.normal file ?_)
  exact (mirrors.mem_iff file).mpr ⟨item, isItem, isFile⟩

omit [LawfulBlitFile T] in
theorem Mirrors.landing_iff {landed : File T} : (∃ moved ∈ files, IsLanding source moved landed) ↔
    ∃ item ∈ movedFrom source.text present, IsFileOf item landed := by
  constructor
  · intro held
    obtain ⟨moved, isMoved, isBelow, isFile⟩ := held
    obtain ⟨item, isItem, made⟩ := (mirrors.mem_iff moved).mp isMoved
    have above := (mirrors.above_iff rooted member isItem made).mpr isBelow
    rw [made.inner, made.text] at isFile
    exact ⟨_, mem_map_of_mem (mem_below.mpr ⟨isItem, above⟩), isFile⟩
  · intro held
    obtain ⟨_, isMoved, isFile⟩ := held
    obtain ⟨item, isBelow, rfl⟩ := mem_map.mp isMoved
    obtain ⟨isItem, above⟩ := mem_below.mp isBelow
    obtain ⟨moved, isFileMoved, made⟩ := mirrors.file_of_item isItem
    refine ⟨moved, isFileMoved, (mirrors.above_iff rooted member isItem made).mp above, ?_⟩
    rw [made.inner, made.text]
    exact isFile

theorem Mirrors.redirected (moves : ∀ file, file ∈ later ↔ (file ∈ files ∧ ¬ StrictlyBelow source file) ∨
      (∃ moved ∈ files, IsLanding source moved file) ∧
        file.text ∉ (files.filter fun file => ¬ StrictlyBelow source file).map File.text) :
    Mirrors later (redirected present source.text) := by
  have keptIff : ∀ file, file ∈ files ∧ ¬ StrictlyBelow source file ↔
      ∃ item ∈ beside source.text present, IsFileOf item file := by
    intro file
    simp only [mirrors.mem_iff, mem_beside]
    constructor
    · rintro ⟨⟨item, isItem, made⟩, outside⟩
      exact ⟨item, ⟨isItem, mt (mirrors.above_iff rooted member isItem made).mp outside⟩, made⟩
    · rintro ⟨item, ⟨isItem, outside⟩, made⟩
      exact ⟨⟨item, isItem, made⟩, mt (mirrors.above_iff rooted member isItem made).mpr outside⟩
  have texts : ∀ path, path ∈ (files.filter fun file => ¬ StrictlyBelow source file).map File.text ↔
      path ∈ (beside source.text present).map BlitFile.path := by
    intro path
    simp only [mem_map, mem_filter, decide_eq_true_eq, keptIff]
    constructor
    · rintro ⟨file, ⟨item, isBeside, made⟩, rfl⟩
      exact ⟨item, isBeside, made.text.symm⟩
    · rintro ⟨item, isBeside, rfl⟩
      obtain ⟨file, made⟩ := mirrors.made item (mem_beside.mp isBeside).1
      exact ⟨file, ⟨item, isBeside, made⟩, made.text⟩
  refine ⟨?_, ?_⟩
  · intro file
    rw [moves, keptIff, mirrors.landing_iff rooted member, texts, ← exists_and_right, ← exists_or]
    refine exists_congr fun item => ?_
    rw [mem_redirected]
    constructor
    · rintro (⟨isBeside, made⟩ | ⟨⟨isMoved, made⟩, fresh⟩)
      · exact ⟨.inl isBeside, made⟩
      · exact ⟨.inr ⟨isMoved, made.text ▸ fresh⟩, made⟩
    · rintro ⟨isBeside | ⟨isMoved, fresh⟩, made⟩
      · exact .inl ⟨isBeside, made⟩
      · exact .inr ⟨⟨isMoved, made⟩, made.text.symm ▸ fresh⟩
  · intro item isItem
    rcases mem_redirected.mp isItem with isBeside | ⟨isMoved, _⟩
    · exact mirrors.made item (mem_beside.mp isBeside).1
    · obtain ⟨old, isBelow, rfl⟩ := mem_map.mp isMoved
      obtain ⟨isOld, above⟩ := mem_below.mp isBelow
      obtain ⟨moved, isFileMoved, made⟩ := mirrors.file_of_item isOld
      obtain ⟨landed, _, isFile⟩ := exists_landing (rooted.normal moved isFileMoved)
        ((mirrors.above_iff rooted member isOld made).mp above)
      rw [made.inner, made.text] at isFile
      exact ⟨landed, isFile⟩

end

variable {A N : Type} [DecidableEq N] {arena : TreeArena (File T) A N} {tree : Tree A N}

/-- The redirects of a tree leave what they leave of its items. -/
theorem Holds.reparentAll (lawful : arena.Lawful) {redirects : List (AStr × AStr)}
    (holds : Holds arena (· ∉ removed) files tree) (mirrors : Mirrors files present)
    (after : After all done removed present) (root : ['/'] ∉ removed)
    (untouched : Untouched removed present (redirects.map Prod.fst))
    (known : ∀ redirect ∈ redirects, redirect.1 ∈ all.map BlitFile.path)
    (targets : ∀ redirect ∈ redirects, (tree.map redirect.2).isSome = true) :
    ∃ next files removed, redirects.foldlM (fun tree redirect =>
        Tree.reparent arena tree redirect.1 redirect.2) tree = .ok next ∧
      Holds arena (· ∉ removed) files next ∧ ['/'] ∉ removed ∧
      Mirrors files ((redirects.map Prod.fst).foldl Vfs.redirected present) ∧
      After all (done ++ redirects.map Prod.fst) removed ((redirects.map Prod.fst).foldl Vfs.redirected present) := by
  induction redirects generalizing done removed files tree present with
  | nil => exact ⟨tree, files, removed, rfl, holds, root, mirrors, by simpa using after⟩
  | cons redirect redirects ih =>
    obtain ⟨notRoot, unremoved, fresh, rest⟩ := untouched
    obtain ⟨firstKnown, restKnown⟩ := forall_mem_cons.mp known
    obtain ⟨firstTarget, restTargets⟩ := forall_mem_cons.mp targets
    obtain ⟨item, isItem, isLink⟩ := mem_map.mp ((after.covered _ firstKnown).resolve_right unremoved)
    obtain ⟨source, member, made⟩ := mirrors.file_of_item isItem
    have text : source.text = redirect.1 := made.text.trans isLink
    rw [← text] at notRoot fresh rest
    have weaker : Holds arena (· ∉ removed ++ (below source.text present).map BlitFile.path) files tree :=
      ⟨holds.rooted, holds.found, fun path absent => holds.absent path (mt (mem_append_left _) absent),
        holds.inhabited, holds.children⟩
    obtain ⟨middle, between, moved, holdsNext, moves⟩ := weaker.reparent lawful member
      (by
        intro none
        exact notRoot (by rw [File.text_eq (holds.rooted.normal source member), none, render_nil]))
      firstTarget
      (by
        intro lower isLower isBelow trusted
        obtain ⟨other, isOther, otherMade⟩ := (mirrors.mem_iff lower).mp isLower
        have above := (mirrors.above_iff holds.rooted member isOther otherMade).mpr isBelow
        refine trusted (mem_append_right _ (mem_map.mpr ⟨other, mem_below.mpr ⟨isOther, above⟩, ?_⟩))
        exact otherMade.text.symm)
      (by
        intro lower isLower landed landing
        obtain ⟨other, isMoved, otherMade⟩ := (mirrors.landing_iff holds.rooted member).mp ⟨lower, isLower, landing⟩
        rw [otherMade.text]
        exact fresh other isMoved)
    have rootLeft : ['/'] ∉ removed ++ (below source.text present).map BlitFile.path := by
      rw [mem_append, not_or]
      refine ⟨root, fun gone => ?_⟩
      obtain ⟨other, isBelow, isRoot⟩ := mem_map.mp gone
      have above := (mem_below.mp isBelow).2
      rw [isRoot, ← render_nil, mem_properAncestors (by simp [Clean])] at above
      obtain ⟨upper, leading, proper, _⟩ := above
      exact proper (prefix_nil.mp leading)
    obtain ⟨last, lastFiles, lastRemoved, ran, found⟩ := ih holdsNext
      (mirrors.redirected holds.rooted member moves) (after.step fresh) rootLeft rest restKnown
      (fun other isOther => reparent_keeps moved (restTargets other isOther))
    refine ⟨last, lastFiles, lastRemoved, ?_, ?_⟩
    · rw [foldlM_cons, ← text, moved]
      exact ran
    · rw [map_cons, foldl_cons, ← text, append_cons]
      exact found

section

variable (baked : Baked items files builder)
include baked

theorem Baked.find?_allDirs_isSome : (builder.allDirs.find? path).isSome = true ↔ DirectoryAt items path := by
  rw [← baked.directoryAt_iff, Option.isSome_iff_exists]
  simp only [SortedMap.find?_eq_some_iff, mem_map, Prod.exists, exists_and_right, exists_eq_right]

theorem Baked.mem_paths : path ∈ (allItems items).map BlitFile.path ↔
    path ∈ items.map BlitFile.path ∨ Missing items path := by
  rw [allItems, map_append, mem_append, map_map]
  refine or_congr_right ⟨?_, ?_⟩
  · intro listed
    obtain ⟨missing, isMissing, same⟩ := mem_map.mp listed
    rw [mem_missingPaths] at isMissing
    rw [Function.comp_apply, baked.path_ofPath isMissing] at same
    exact same ▸ isMissing
  · intro missing
    exact mem_map.mpr ⟨path, mem_missingPaths.mpr missing, baked.path_ofPath missing⟩

variable (distinct : (items.map BlitFile.path).Nodup)
include distinct

theorem Baked.mirrors : Mirrors builder.fullSet (allItems items) := by
  refine ⟨?_, ?_⟩
  · intro file
    rw [(baked.fullSet_perm distinct).mem_iff, mem_append, baked.mem_implicitFiles]
    simp only [allItems, mem_append, or_and_right, exists_or]
    refine or_congr ⟨baked.item_of_file, ?_⟩ ⟨?_, ?_⟩
    · rintro ⟨item, isItem, made⟩
      obtain ⟨other, isOther, otherMade⟩ := baked.file_of_item isItem
      exact made.eq_iff.mpr otherMade ▸ isOther
    · rintro ⟨missing, made⟩
      exact ⟨_, mem_map_of_mem (mem_missingPaths.mpr missing), made⟩
    · rintro ⟨item, implicit, made⟩
      obtain ⟨path, isMissing, rfl⟩ := mem_map.mp implicit
      rw [mem_missingPaths] at isMissing
      have text : file.text = path := made.text.trans (baked.path_ofPath isMissing)
      rw [text]
      exact ⟨isMissing, made⟩
  · intro item member
    rcases mem_append.mp member with isItem | implicit
    · obtain ⟨file, _, made⟩ := baked.file_of_item isItem
      exact ⟨file, made⟩
    · obtain ⟨path, isMissing, rfl⟩ := mem_map.mp implicit
      rw [mem_missingPaths] at isMissing
      exact exists_isFileOf ((baked.path_ofPath isMissing).symm ▸ baked.missing_normal isMissing)

theorem Baked.mem_redirects {redirect : AStr × AStr} :
    redirect ∈ builder.redirects.entries ↔ redirect ∈ redirections items := by
  obtain ⟨path, target⟩ := redirect
  rw [← SortedMap.find?_eq_some_iff, baked.redirects_iff distinct, mem_redirections]
  constructor
  · intro held
    obtain ⟨link, isLink, text, redirects⟩ := held
    obtain ⟨item, isItem, made⟩ := baked.item_of_file isLink
    obtain ⟨points, directory⟩ := (redirectOf_eq_some_iff made).mp redirects
    exact ⟨item, isItem, made.text.symm.trans text, points, baked.find?_allDirs_isSome.mp directory⟩
  · intro held
    obtain ⟨item, isItem, samePath, points, directory⟩ := held
    obtain ⟨link, isLink, made⟩ := baked.file_of_item isItem
    have redirects := (redirectOf_eq_some_iff made).mpr ⟨points, baked.find?_allDirs_isSome.mpr directory⟩
    exact ⟨link, isLink, made.text.trans samePath, redirects⟩

theorem Baked.redirects_links : builder.redirects.entries.map Prod.fst = links items := by
  have nodup : (links items).Nodup := (perm_insertionSort _ _).nodup_iff.mpr (nodup_dedup _)
  have sameMembers : (builder.redirects.entries.map Prod.fst).Perm (links items) := by
    rw [perm_ext_iff_of_nodup builder.redirects.keys_nodup nodup]
    intro link
    simp only [mem_links, mem_map, baked.mem_redirects distinct]
  refine eq_of_perm_of_sorted sameMembers (fun _ _ _ _ same => Std.LawfulEqOrd.eq_of_compare same) ?_
    (sorted_insertionSort _)
  exact pairwise_map.mpr (builder.redirects.sorted.imp fun before => by rw [before]; rfl)

theorem Baked.remaining_iter (lawful : arena.Lawful) (untouched : Untouched [] (allItems items) (links items)) :
    ∃ tree, builder.tree arena = .ok tree ∧ (∀ item, item ∈ Tree.iter arena tree ↔ item ∈ remaining items) ∧
      ∃ removed, After (allItems items) (links items) removed (remaining items) := by
  obtain ⟨planted, isPlanted, _, holds⟩ := baked.planted lawful distinct
  have mirrors := baked.mirrors distinct
  have known : ∀ redirect ∈ builder.redirects.entries, redirect.1 ∈ (allItems items).map BlitFile.path ∧
      redirect.2 ∈ (allItems items).map BlitFile.path := by
    intro redirect isRedirect
    obtain ⟨link, isLink, samePath, _, directory⟩ := mem_redirections.mp ((baked.mem_redirects distinct).mp isRedirect)
    refine ⟨samePath ▸ mem_map_of_mem (mem_append_left _ isLink), baked.mem_paths.mpr ?_⟩
    rcases directory with ⟨item, isItem, _, same⟩ | missing
    · exact .inl (same ▸ mem_map_of_mem isItem)
    · exact .inr missing
  have targets : ∀ redirect ∈ builder.redirects.entries, (planted.map redirect.2).isSome = true := by
    intro redirect isRedirect
    obtain ⟨item, isItem, same⟩ := mem_map.mp (known redirect isRedirect).2
    obtain ⟨file, member, made⟩ := mirrors.file_of_item isItem
    obtain ⟨node, isNode, _⟩ := holds.found file member
    rw [← same, ← made.text, isNode]
    rfl
  have atFirst : Holds arena (· ∉ []) builder.fullSet planted :=
    ⟨holds.rooted, holds.found, fun path _ => holds.absent path trivial, holds.inhabited, holds.children⟩
  have nothingYet : After (allItems items) [] [] (allItems items) :=
    ⟨fun item member _ => ⟨member, by simp⟩, fun _ member _ => member, fun _ member => .inl member⟩
  rw [← baked.redirects_links distinct] at untouched
  obtain ⟨tree, left, removed, ran, holdsLast, root, mirrorsLast, after⟩ := atFirst.reparentAll lawful mirrors
    nothingYet not_mem_nil untouched (fun redirect isRedirect => (known redirect isRedirect).1) targets
  obtain ⟨listed, _, permuted, _, iterated, _⟩ := holdsLast.views lawful root
  rw [baked.redirects_links distinct] at mirrorsLast after
  refine ⟨tree, ?_, ?_, removed, after⟩
  · rw [TreeBuilder.tree, isPlanted, ok_bind]
    exact ran
  · intro item
    rw [iterated, mem_map]
    constructor
    · rintro ⟨file, isListed, rfl⟩
      obtain ⟨item, isItem, made⟩ := (mirrorsLast.mem_iff file).mp (permuted.mem_iff.mp isListed)
      exact made.inner ▸ isItem
    · intro isItem
      obtain ⟨file, member, made⟩ := mirrorsLast.file_of_item isItem
      exact ⟨file, permuted.mem_iff.mpr member, made.inner⟩

end

omit [DecidableEq N] in
theorem After.lands_iff (after : After (allItems items) (links items) removed (remaining items))
    (iterated : ∀ item, item ∈ Tree.iter arena tree ↔ item ∈ remaining items) :
    LandsUnderTarget arena items tree ↔ ReachesTarget items := by
  have standing : ∀ item ∈ remaining items, BlitFile.path item ∈ (allItems items).map BlitFile.path →
      Unredirected items (BlitFile.path item) := by
    intro item isLeft known redirect isRedirect
    exact (after.standing item isLeft known).2 _ (mem_links.mpr ⟨redirect, isRedirect, rfl⟩)
  have kept : ∀ item ∈ items, Unredirected items (BlitFile.path item) → item ∈ remaining items := by
    intro item isItem unredirected
    refine after.kept item (mem_append_left _ isItem) fun link isLink => ?_
    obtain ⟨redirect, isRedirect, rfl⟩ := mem_links.mp isLink
    exact unredirected redirect isRedirect
  constructor
  · intro under
    refine ⟨?_, ?_⟩
    · intro redirect isRedirect outside item isItem above
      obtain ⟨landed, isLanded, path, found⟩ := under.lands redirect isRedirect outside item isItem above
      have isLeft := (iterated landed).mp isLanded
      rcases found with isPushed | ⟨unpushed, rfl⟩
      · have known : BlitFile.path landed ∈ (allItems items).map BlitFile.path :=
          mem_map_of_mem (mem_append_left _ isPushed)
        exact .inl (path ▸ ⟨mem_map_of_mem isPushed, standing landed isLeft known⟩)
      · exact .inr ⟨unpushed, isLeft⟩
    · intro redirect isRedirect outside item isLeft _
      exact under.emptied redirect isRedirect outside item ((iterated item).mpr isLeft)
  · intro reaches
    refine ⟨?_, ?_, fun item isItem unredirected => (iterated item).mpr (kept item isItem unredirected)⟩
    · intro redirect isRedirect outside item isItem above
      rcases reaches.reached redirect isRedirect outside item isItem above with ⟨isPushed, unredirected⟩ | ⟨unpushed, isLeft⟩
      · obtain ⟨landed, isLanded, path⟩ := mem_map.mp isPushed
        refine ⟨landed, (iterated landed).mpr (kept landed isLanded ?_), path, .inl isLanded⟩
        rw [path]
        exact unredirected
      · exact ⟨_, (iterated _).mpr isLeft, LawfulBlitFile.path_clonedTo _ _ head?_render, .inr ⟨unpushed, rfl⟩⟩
    · intro redirect isRedirect outside item isListed
      have isLeft := (iterated item).mp isListed
      by_cases known : BlitFile.path item ∈ (allItems items).map BlitFile.path
      · exact standing item isLeft known redirect isRedirect
      · exact reaches.clear redirect isRedirect outside item isLeft known

end Redirecting

def mergedLinks : List CustomFile :=
  [⟨"/usr".toList, .directory, "first".toList⟩, ⟨"/usr".toList, .directory, "second".toList⟩,
    ⟨"/usr/bin".toList, .directory, "target".toList⟩, ⟨"/bin".toList, .symlink "usr/bin".toList, "link".toList⟩,
    ⟨"/sbin".toList, .symlink "usr/bin".toList, "link".toList⟩, ⟨"/bin/x".toList, .regular, "x".toList⟩,
    ⟨"/sbin/x".toList, .regular, "x".toList⟩, ⟨"/usr/bin/x".toList, .regular, "x".toList⟩]

def directoryLink : List CustomFile :=
  [⟨"/t".toList, .directory, "target".toList⟩, ⟨"/s".toList, .symlink "/t".toList, "link".toList⟩,
    ⟨"/s/x".toList, .regular, "x".toList⟩]

end Cast.Vfs
