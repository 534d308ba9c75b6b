import Mathlib.Data.List.Dedup
import Cast.Foundation.ForestArena
import Cast.Vfs.ViewProperties

/-! What a builder makes of the items that are pushed. The implicit directories are the
missing directories above the items, the full set is the items and these, and with
distinct paths it does not depend on the order of the pushes. -/

namespace Cast.Vfs

open Foundation List SortedMap BlitFile File

variable {T : Type} {item : T} {file : File T} {items : List T} {files others : List (File T)}
  {builder : TreeBuilder T} {path upper parent source : AStr}

section Files

variable [BlitFile T]

structure IsFileOf (item : T) (file : File T) : Prop where
  text : file.text = BlitFile.path item
  kind : file.kind = BlitFile.kind item
  inner : file.inner = item

theorem new_eq_some {text : AStr} {path : VfsPath} :
    VfsPath.new text = some path ↔ path.path = text := by
  simp only [VfsPath.new, Option.dite_none_right_eq_some, Option.some.injEq]
  constructor
  · rintro ⟨_, _, rfl⟩
    rfl
  · rintro rfl
    exact ⟨path.absolute, path.trimmed, rfl⟩

theorem File.new_eq_ok : File.new item = .ok file ↔ IsFileOf item file := by
  simp only [File.new, bind_eq_ok, okOr_eq_ok, pure_eq_ok, new_eq_some]
  constructor
  · intro made
    obtain ⟨path, text, same⟩ := made
    subst same
    exact ⟨text, rfl, rfl⟩
  · intro isFile
    obtain ⟨path, kind, inner⟩ := file
    obtain ⟨text, sameKind, sameInner⟩ := isFile
    change inner = item at sameInner
    subst sameInner
    change kind = BlitFile.kind inner at sameKind
    subst sameKind
    exact ⟨path, text, rfl⟩

theorem IsFileOf.eq_iff {other : File T} (isFile : IsFileOf item file) : file = other ↔ IsFileOf item other := by
  rw [← new_eq_ok, File.new_eq_ok.mpr isFile, Except.ok.injEq]

theorem exists_isFileOf (normal : Normalized (BlitFile.path item)) : ∃ file, IsFileOf item file := by
  obtain ⟨names, clean, same⟩ := normal
  obtain ⟨path, _, text⟩ := new_render clean
  exact ⟨⟨path, kind item, item⟩, text.trans same.symm, rfl, rfl⟩

end Files

section Implicit

/-- The directories above a path, from the root on. -/
def properAncestors (path : AStr) : List AStr :=
  if namesOf path = [] then [] else (namesOf path).dropLast.inits.map render

theorem mem_properAncestors {names : List AStr} (clean : Clean names) :
    path ∈ properAncestors (render names) ↔ ∃ upper, upper <+: names ∧ upper ≠ names ∧ path = render upper := by
  rw [properAncestors, namesOf_render clean]
  rcases eq_nil_or_concat' names with isRoot | ⟨leading, last, isPath⟩
  · subst isRoot
    rw [if_pos rfl]
    simp only [not_mem_nil, prefix_nil, false_iff, not_exists]
    intro upper held
    exact held.2.1 held.1
  · subst isPath
    rw [if_neg (by simp), dropLast_concat, mem_map]
    simp only [mem_inits, prefix_concat_iff]
    refine exists_congr fun upper => ?_
    have shorter : upper <+: leading → upper ≠ leading ++ [last] := by
      rintro above rfl
      simpa [Nat.succ_le_iff] using above.length_le
    grind

theorem parent_mem_properAncestors (normal : Normalized file.text)
    (isParent : file.parent = some parent) : parent ∈ properAncestors file.text := by
  obtain ⟨leading, _, isLeading, isNames⟩ := names_of_parent normal isParent
  have clean := clean_names normal
  rw [text_eq normal, mem_properAncestors clean]
  refine ⟨leading, ?_, ?_, isLeading⟩
  · rw [isNames]
    exact prefix_append _ _
  · intro same
    rw [← same] at isNames
    exact absurd (congrArg List.length isNames) (by simp)

theorem properAncestors_trans {middle lower : AStr} (normal : Normalized lower)
    (first : upper ∈ properAncestors middle) (second : middle ∈ properAncestors lower) :
    upper ∈ properAncestors lower := by
  obtain ⟨names, clean, same⟩ := normal
  rw [same, mem_properAncestors clean] at second ⊢
  obtain ⟨between, ⟨rest, extended⟩, proper, isMiddle⟩ := second
  have betweenClean := clean.of_leading ⟨rest, extended⟩
  rw [isMiddle, mem_properAncestors betweenClean] at first
  obtain ⟨above, isAbove, aboveProper, isUpper⟩ := first
  refine ⟨above, isAbove.trans ⟨rest, extended⟩, ?_, isUpper⟩
  intro whole
  have longer := isAbove.length_le
  have shorter := IsPrefix.length_le ⟨rest, extended⟩
  rw [whole] at longer
  exact proper (IsPrefix.eq_of_length ⟨rest, extended⟩ (by omega))

theorem normalized_of_mem_properAncestors {lower : AStr} (normal : Normalized lower)
    (above : path ∈ properAncestors lower) : Normalized path := by
  obtain ⟨names, clean, same⟩ := normal
  rw [same, mem_properAncestors clean] at above
  obtain ⟨upper, isUpper, _, isPath⟩ := above
  exact ⟨upper, clean.of_leading isUpper, isPath⟩

variable [BlitFile T] [LawfulBlitFile T]

/-- The map holds a directory for each of the paths, and nothing else. -/
def Implied (dirs : SortedMap AStr (File T)) (paths : AStr → Prop) : Prop :=
  ∀ path file, dirs.find? path = some file ↔ paths path ∧ IsFileOf (ofPath path) file

variable {dirs : SortedMap AStr (File T)} {paths : AStr → Prop}

theorem Implied.insertImplicit (implied : Implied dirs paths) (normal : Normalized path) :
    ∃ next, TreeBuilder.insertImplicit dirs path = .ok next ∧ Implied next fun known => paths known ∨ known = path := by
  have absolute : path.head? = some '/' := by
    obtain ⟨names, _, same⟩ := normal
    rw [same]
    exact head?_render
  have samePath := @LawfulBlitFile.path_ofPath T _ _ path absolute
  obtain ⟨directory, isDirectory⟩ := exists_isFileOf (samePath.symm ▸ normal)
  refine ⟨dirs.insert path directory, ?_, ?_⟩
  · rw [TreeBuilder.insertImplicit, File.new_eq_ok.mpr isDirectory]
    rfl
  · intro known file
    by_cases same : known = path
    · subst same
      rw [find?_insert_self, Option.some.injEq, isDirectory.eq_iff]
      simp
    · rw [find?_insert_of_ne same, implied known file]
      simp only [same, or_false]

theorem Implied.insertAll (implied : Implied dirs paths) {more : List AStr} (normal : ∀ path ∈ more, Normalized path) :
    ∃ next, more.foldlM TreeBuilder.insertImplicit dirs = .ok next ∧
      Implied next fun known => paths known ∨ known ∈ more := by
  refine foldlM_progress (fun before next => Implied next fun known => paths known ∨ known ∈ before)
    (by simpa using implied) ?_
  intro before path after next split held
  obtain ⟨later, inserted, implies⟩ := held.insertImplicit (normal path (by simp [split]))
  exact ⟨later, inserted, by simpa [or_assoc] using implies⟩

theorem Implied.push (implied : Implied builder.implicitDirs paths) (normal : Normalized (BlitFile.path item))
    (isFile : IsFileOf item file) :
    ∃ next, builder.push item = .ok next ∧ next.explicit = builder.explicit ++ [file] ∧
      Implied next.implicitDirs fun known =>
        paths known ∨ known ∈ properAncestors (BlitFile.path item) := by
  have fileNormal : Normalized file.text := isFile.text ▸ normal
  rw [TreeBuilder.push, File.new_eq_ok.mpr isFile, ok_bind]
  cases isParent : file.parent with
  | none =>
    refine ⟨⟨builder.explicit ++ [file], builder.implicitDirs⟩, rfl, rfl, ?_⟩
    have isRoot := (File.parent_eq_none_iff fileNormal).mp isParent
    rw [File.names, isFile.text] at isRoot
    rw [properAncestors, if_pos isRoot]
    simpa using implied
  | some parent =>
    obtain ⟨leading, leadingClean, isLeading, isNames⟩ := names_of_parent fileNormal isParent
    rw [File.names, isFile.text] at isNames
    have above : TreeBuilder.leadingPaths none (components parent) = properAncestors (BlitFile.path item) := by
      rw [properAncestors, isNames, if_neg (by simp), dropLast_concat, isLeading, leadingPaths_components leadingClean]
    obtain ⟨next, inserted, after⟩ := implied.insertAll fun _ => normalized_of_mem_properAncestors normal
    refine ⟨⟨builder.explicit ++ [file], next⟩, ?_, rfl, after⟩
    simp only [above, inserted, ok_bind]
    rfl

def AboveSome (items : List T) (path : AStr) : Prop := ∃ item ∈ items, path ∈ properAncestors (BlitFile.path item)

instance (items : List T) (path : AStr) : Decidable (AboveSome items path) := inferInstanceAs (Decidable (∃ _ ∈ _, _))

theorem Implied.pushAll (implied : Implied builder.implicitDirs paths) (made : Forall₂ IsFileOf items files)
    (normal : ∀ item ∈ items, Normalized (BlitFile.path item)) :
    ∃ next, items.foldlM TreeBuilder.push builder = .ok next ∧ next.explicit = builder.explicit ++ files ∧
      Implied next.implicitDirs fun known => paths known ∨ AboveSome items known := by
  induction made generalizing builder paths with
  | nil => exact ⟨builder, rfl, by simp, by simpa [AboveSome] using implied⟩
  | cons isFile _ ih =>
    obtain ⟨middle, pushed, explicit, after⟩ := implied.push (normal _ mem_cons_self) isFile
    obtain ⟨next, rested, all, afterAll⟩ := ih after fun item member => normal item (mem_cons_of_mem _ member)
    refine ⟨next, ?_, ?_, ?_⟩
    · rw [foldlM_cons, pushed]
      exact rested
    · rw [all, explicit, append_assoc, singleton_append]
    · simpa [AboveSome, or_assoc] using afterAll

omit [LawfulBlitFile T] in
theorem Implied.eraseAll (implied : Implied dirs paths) (files : List (File T)) :
    Implied (files.foldl (fun dirs file => dirs.erase file.path.path) dirs)
      fun known => paths known ∧ known ∉ files.map text := by
  induction files generalizing dirs paths with
  | nil => simpa using implied
  | cons first rest ih =>
    have erased : Implied (dirs.erase first.path.path) fun known =>
        paths known ∧ known ≠ first.text := by
      intro known file
      by_cases same : known = first.path.path
      · subst same
        rw [find?_erase_self]
        simp [text]
      · rw [find?_erase_of_ne same, implied known file]
        simp [text, same]
    simpa [and_assoc] using ih erased

end Implicit

section Baked

theorem Rooted.perm (rooted : Rooted files) (permuted : others.Perm files) : Rooted others where
  normal file member := rooted.normal file (permuted.mem_iff.mp member)
  distinct := (permuted.map text).nodup_iff.mpr rooted.distinct
  closed file member parent isParent := (permuted.map text).mem_iff.mpr
    (rooted.closed file (permuted.mem_iff.mp member) parent isParent)

variable [BlitFile T]

/-- A directory above one of the items that is not an item itself. -/
def Missing (items : List T) (path : AStr) : Prop := AboveSome items path ∧ path ∉ items.map BlitFile.path

/-- What a builder holds after the items were pushed and baked. -/
structure Baked (items : List T) (files : List (File T)) (builder : TreeBuilder T) : Prop where
  normal : ∀ item ∈ items, Normalized (BlitFile.path item)
  made : Forall₂ IsFileOf items files
  explicit : builder.explicit = sortFiles files
  implied : Implied builder.implicitDirs (Missing items)

theorem texts_of_made (made : Forall₂ IsFileOf items files) : files.map text = items.map BlitFile.path :=
  map_eq_map_of_forall₂ made.flip fun _ _ _ _ isFile => isFile.text

theorem inners_of_made (made : Forall₂ IsFileOf items files) : files.map File.inner = items :=
  (map_eq_map_of_forall₂ made.flip fun _ _ _ _ isFile => isFile.inner).trans (map_id _)

theorem exists_made (normal : ∀ item ∈ items, Normalized (BlitFile.path item)) :
    ∃ files, Forall₂ IsFileOf items files :=
  exists_forall₂ fun item member => exists_isFileOf (normal item member)

theorem exists_baked [LawfulBlitFile T] (normal : ∀ item ∈ items, Normalized (BlitFile.path item)) :
    ∃ files pushed, items.foldlM TreeBuilder.push TreeBuilder.empty = .ok pushed ∧ Baked items files pushed.bake := by
  obtain ⟨files, made⟩ := exists_made normal
  have nothing : Implied (TreeBuilder.empty : TreeBuilder T).implicitDirs fun _ => False := by
    intro path file
    exact iff_of_false (by rintro ⟨⟩) fun held => held.1
  obtain ⟨pushed, all, explicit, implied⟩ := nothing.pushAll made normal
  refine ⟨files, pushed, all, normal, made, ?_, ?_⟩
  · rw [TreeBuilder.bake, explicit]
    rfl
  · have baked := implied.eraseAll (sortFiles pushed.explicit)
    have sameTexts : ∀ path, path ∈ (sortFiles pushed.explicit).map text ↔ path ∈ items.map BlitFile.path := by
      intro path
      rw [((sortFiles_perm pushed.explicit).map text).mem_iff, explicit, ← texts_of_made made]
      rfl
    have same : (fun known => (False ∨ AboveSome items known) ∧
        known ∉ (sortFiles pushed.explicit).map text) = Missing items := by
      funext path
      rw [false_or, sameTexts]
      rfl
    rw [same] at baked
    exact baked

def implicitFiles (builder : TreeBuilder T) : List (File T) := builder.implicitDirs.entries.map (·.2)

def directoryFiles (builder : TreeBuilder T) : List (File T) :=
  (builder.explicit.filter fun file => file.kind.isDirectory) ++ implicitFiles builder

/-- No item that is not a directory lies above another. -/
def OnlyDirectoriesAbove (items : List T) : Prop :=
  ∀ item ∈ items, (kind item).isDirectory = false → ¬ AboveSome items (BlitFile.path item)

instance (items : List T) : Decidable (OnlyDirectoriesAbove items) := inferInstanceAs (Decidable (∀ _ ∈ _, _ → _))

section

variable (baked : Baked items files builder)
include baked

theorem Baked.item_of_file (member : file ∈ files) : ∃ item ∈ items, IsFileOf item file :=
  exists_left_of_mem baked.made member

theorem Baked.file_of_item (member : item ∈ items) : ∃ file ∈ files, IsFileOf item file :=
  exists_right_of_mem baked.made member

theorem Baked.missing_normal (missing : Missing items path) : Normalized path := by
  obtain ⟨⟨item, member, above⟩, _⟩ := missing
  exact normalized_of_mem_properAncestors (baked.normal item member) above

variable [LawfulBlitFile T]

theorem Baked.path_ofPath (missing : Missing items path) : BlitFile.path (ofPath path : T) = path := by
  obtain ⟨names, _, same⟩ := baked.missing_normal missing
  exact LawfulBlitFile.path_ofPath path (by rw [same]; exact head?_render)

theorem Baked.mem_implicitFiles :
    file ∈ implicitFiles builder ↔ Missing items file.text ∧ IsFileOf (ofPath file.text) file := by
  rw [implicitFiles, mem_map]
  constructor
  · intro held
    obtain ⟨⟨path, known⟩, member, same⟩ := held
    cases same
    obtain ⟨missing, isFile⟩ := (baked.implied path known).mp (find?_eq_some_iff.mpr member)
    have text : known.text = path := isFile.text.trans (baked.path_ofPath missing)
    rw [text]
    exact ⟨missing, isFile⟩
  · intro held
    exact ⟨(file.text, file), find?_eq_some_iff.mp ((baked.implied _ _).mpr held), rfl⟩

theorem Baked.mem_cases (member : file ∈ files ++ implicitFiles builder) :
    (∃ item ∈ items, IsFileOf item file) ∨ Missing items file.text ∧ IsFileOf (ofPath file.text) file :=
  (mem_append.mp member).imp baked.item_of_file baked.mem_implicitFiles.mp

theorem Baked.exists_implicitFile (missing : Missing items path) : ∃ file ∈ implicitFiles builder, file.text = path := by
  have samePath := baked.path_ofPath missing
  obtain ⟨file, isFile⟩ := exists_isFileOf (samePath.symm ▸ baked.missing_normal missing)
  have text : file.text = path := isFile.text.trans samePath
  refine ⟨file, baked.mem_implicitFiles.mpr ?_, text⟩
  rw [text]
  exact ⟨missing, isFile⟩

theorem Baked.implicitFiles_distinct : ((implicitFiles builder).map text).Nodup := by
  have same : (implicitFiles builder).map text = builder.implicitDirs.entries.map Prod.fst := by
    rw [implicitFiles, map_map]
    refine map_congr_left ?_
    intro entry member
    obtain ⟨path, known⟩ := entry
    obtain ⟨missing, isFile⟩ := (baked.implied path known).mp (find?_eq_some_iff.mpr member)
    exact isFile.text.trans (baked.path_ofPath missing)
  rw [same]
  exact keys_nodup _

theorem Baked.mem_of_aboveSome (above : AboveSome items path) :
    path ∈ (files ++ implicitFiles builder).map text := by
  rw [map_append, mem_append, texts_of_made baked.made]
  by_cases pushed : path ∈ items.map BlitFile.path
  · exact .inl pushed
  · exact .inr (mem_map.mpr (baked.exists_implicitFile ⟨above, pushed⟩))

theorem Baked.file_normal (member : file ∈ files ++ implicitFiles builder) : Normalized file.text := by
  rcases baked.mem_cases member with ⟨item, isItem, isFile⟩ | ⟨missing, -⟩
  · exact isFile.text ▸ baked.normal item isItem
  · exact baked.missing_normal missing

theorem Baked.parent_aboveSome (member : file ∈ files ++ implicitFiles builder)
    (isParent : file.parent = some parent) : AboveSome items parent := by
  have above := parent_mem_properAncestors (baked.file_normal member) isParent
  rcases baked.mem_cases member with ⟨item, isItem, isFile⟩ | ⟨⟨⟨item, isItem, further⟩, -⟩, -⟩
  · exact ⟨item, isItem, isFile.text ▸ above⟩
  · exact ⟨item, isItem, properAncestors_trans (baked.normal item isItem) above further⟩

variable (distinct : (items.map BlitFile.path).Nodup)
include distinct

theorem Baked.all_distinct : ((files ++ implicitFiles builder).map File.text).Nodup := by
  rw [map_append, texts_of_made baked.made, nodup_append]
  refine ⟨distinct, baked.implicitFiles_distinct, ?_⟩
  intro path pushed other implicit same
  subst same
  obtain ⟨file, member, text⟩ := mem_map.mp implicit
  have missing := (baked.mem_implicitFiles.mp member).1
  rw [text] at missing
  exact missing.2 pushed

theorem Baked.fullSet_perm : builder.fullSet.Perm (files ++ implicitFiles builder) := by
  have explicitPerm : builder.explicit.Perm files := baked.explicit ▸ sortFiles_perm files
  have split : (builder.explicit.filter fun file => file.kind.isDirectory) ++ builder.nonDirs |>.Perm
      builder.explicit := filter_append_perm _ _
  have dirsDistinct : ((directoryFiles builder).map text).Nodup := by
    refine Nodup.sublist ?_ (((explicitPerm.append_right _).map text).nodup_iff.mpr
      (baked.all_distinct distinct))
    exact (filter_sublist.append_right _).map _
  have dirsPerm : (builder.allDirs.entries.map Prod.snd).Perm (directoryFiles builder) :=
    values_foldl_insert dirsDistinct
  refine (sortFiles_perm _).trans ?_
  refine (dirsPerm.append_right _).trans ?_
  rw [directoryFiles, append_assoc]
  refine (perm_append_comm.append_left _).trans ?_
  rw [← append_assoc]
  exact (split.trans explicitPerm).append_right _

theorem Baked.rooted : Rooted (files ++ implicitFiles builder) where
  normal _ member := baked.file_normal member
  distinct := baked.all_distinct distinct
  closed _ member _ isParent := baked.mem_of_aboveSome (baked.parent_aboveSome member isParent)

theorem Baked.onlyDirectoriesHold (only : OnlyDirectoriesAbove items) :
    OnlyDirectoriesHold builder.fullSet := by
  have permuted := baked.fullSet_perm distinct
  intro file member notDirectory
  rw [kidsOf, filter_eq_nil_iff]
  intro kid kidMember below
  have isParent := of_decide_eq_true below
  rcases baked.mem_cases (permuted.mem_iff.mp member) with ⟨item, isItem, isFile⟩ | ⟨-, isFile⟩
  · refine only item isItem (isFile.kind ▸ notDirectory) ?_
    rw [← isFile.text]
    exact baked.parent_aboveSome (permuted.mem_iff.mp kidMember) isParent
  · rw [isFile.kind, LawfulBlitFile.kind_ofPath] at notDirectory
    cases notDirectory

end

end Baked

section Redirects

open TreeBuilder

theorem addRedirect_chosen (allDirs : SortedMap AStr (File T)) (redirects : SortedMap AStr AStr) (link : File T)
    (target : AStr) (points : redirectOf allDirs link = some target) :
    addRedirect allDirs redirects link = redirects.insert link.text target := by
  rw [addRedirect, points]
  rfl

theorem addRedirect_skipped (allDirs : SortedMap AStr (File T)) (redirects : SortedMap AStr AStr) (link : File T)
    (idle : redirectOf allDirs link = none) : addRedirect allDirs redirects link = redirects := by
  rw [addRedirect, idle]

/-- A redirect comes from a link that is not a directory. -/
theorem redirects_sound {target : AStr} (found : builder.redirects.find? source = some target) :
    ∃ link ∈ builder.nonDirs, link.text = source ∧ redirectOf builder.allDirs link = some target := by
  rcases find?_foldl_sound (addRedirect_chosen _) (addRedirect_skipped _) found with nothing | held
  · cases nothing
  · exact held

variable {A N : Type} {arena : TreeArena (File T) A N} {trusted : AStr → Prop} {tree : Tree A N}

theorem foldlM_idle {β : Type} {step : Tree A N → β → Except Error (Tree A N)} {steps : List β}
    (idle : ∀ value ∈ steps, step tree value = .ok tree) : steps.foldlM step tree = .ok tree := by
  induction steps with
  | nil => rfl
  | cons first rest ih =>
    rw [foldlM_cons, idle first mem_cons_self]
    exact ih fun value member => idle value (mem_cons_of_mem _ member)

variable [BlitFile T]

theorem reparent_childless [DecidableEq N] (lawful : arena.Lawful) {node : N}
    (known : tree.map source = some node) (live : arena.live tree.arena node)
    (childless : arena.children tree.arena node = []) (target : AStr) :
    Tree.reparent arena tree source target = .ok tree := by
  have alone : arena.descendants tree.arena node = [node] := by
    rw [lawful.preorder live, childless]
    rfl
  rw [Tree.reparent, known]
  simp only [alone, childless, drop_succ_cons, drop_nil, ite_self, mapM_nil, foldl_nil]
  rfl

theorem Holds.reparent_idle [DecidableEq N] (lawful : arena.Lawful)
    (holds : Holds arena trusted files tree) (member : file ∈ files)
    (kidless : kidsOf files file = []) (target : AStr) :
    Tree.reparent arena tree file.text target = .ok tree := by
  obtain ⟨node, known, live, _⟩ := holds.found file member
  have children := holds.children file member node known
  rw [kidless, map_nil, map_eq_nil_iff] at children
  exact reparent_childless lawful known live children target

end Redirects

section Building

theorem sorted_eq_of_perm (permuted : files.Perm others) (distinct : (files.map text).Nodup)
    (sorted : files.Pairwise fun a b => (sortedPaths a b).isLE = true)
    (othersSorted : others.Pairwise fun a b => (sortedPaths a b).isLE = true) : files = others := by
  refine eq_of_perm_of_sorted permuted ?_ sorted othersSorted
  intro left leftMember right rightMember same
  exact inj_on_of_nodup_map distinct leftMember rightMember (sortedPaths_eq_iff.mp same)

theorem sortFiles_eq_of_perm (permuted : files.Perm others)
    (distinct : (files.map text).Nodup) : sortFiles files = sortFiles others :=
  sorted_eq_of_perm ((sortFiles_perm files).trans (permuted.trans (sortFiles_perm others).symm))
    (((sortFiles_perm files).map text).nodup_iff.mpr distinct) (sortFiles_sorted files)
    (sortFiles_sorted others)

variable [BlitFile T]

/-- The directories above the items that are not items themselves, each once. -/
def missingPaths (items : List T) : List AStr :=
  ((items.flatMap fun item => properAncestors (BlitFile.path item)).dedup).filter
    fun path => path ∉ items.map BlitFile.path

theorem mem_missingPaths : path ∈ missingPaths items ↔ Missing items path := by
  simp only [missingPaths, mem_filter, mem_dedup, mem_flatMap, decide_eq_true_eq]
  rfl

theorem missingPaths_nodup : (missingPaths items).Nodup := (nodup_dedup _).filter _

/-- Baking forgets the order of the pushes. -/
theorem Baked.unique {others : List T} {otherFiles : List (File T)} {otherBuilder : TreeBuilder T}
    (baked : Baked items files builder) (otherBaked : Baked others otherFiles otherBuilder)
    (distinct : (items.map BlitFile.path).Nodup) (permuted : items.Perm others) :
    builder = otherBuilder := by
  have biUnique : Relator.BiUnique (@IsFileOf T _) :=
    ⟨fun _ _ _ first second => first.inner.symm.trans second.inner, fun _ _ _ first second => first.eq_iff.mpr second⟩
  have filesPerm := (rel_perm biUnique baked.made otherBaked.made).mp permuted
  have sameExplicit : builder.explicit = otherBuilder.explicit := by
    rw [baked.explicit, otherBaked.explicit]
    exact sortFiles_eq_of_perm filesPerm (texts_of_made baked.made ▸ distinct)
  have sameMissing : ∀ path, Missing items path ↔ Missing others path := by
    intro path
    simp only [Missing, AboveSome, permuted.mem_iff, (permuted.map BlitFile.path).mem_iff]
  have sameImplicit : builder.implicitDirs = otherBuilder.implicitDirs := by
    refine ext_find? fun path => Option.ext fun file => ?_
    rw [baked.implied path file, otherBaked.implied path file, sameMissing path]
  obtain ⟨explicit, implicitDirs⟩ := builder
  cases sameExplicit
  cases sameImplicit
  rfl

variable [LawfulBlitFile T]

section

variable (baked : Baked items files builder)
include baked

theorem Baked.implicit_inners :
    ((implicitFiles builder).map File.inner).Perm ((missingPaths items).map ofPath) := by
  have sameInner : (implicitFiles builder).map File.inner =
      ((implicitFiles builder).map File.text).map ofPath := by
    rw [map_map]
    refine map_congr_left ?_
    intro file member
    exact (baked.mem_implicitFiles.mp member).2.inner
  rw [sameInner]
  refine List.Perm.map _ ?_
  rw [perm_ext_iff_of_nodup baked.implicitFiles_distinct missingPaths_nodup]
  intro path
  rw [mem_missingPaths, mem_map]
  constructor
  · intro held
    obtain ⟨file, member, text⟩ := held
    exact text ▸ (baked.mem_implicitFiles.mp member).1
  · exact baked.exists_implicitFile

theorem Baked.path_inner (member : file ∈ files ++ implicitFiles builder) : BlitFile.path file.inner = file.text := by
  rcases baked.mem_cases member with ⟨item, -, isFile⟩ | ⟨missing, isFile⟩
  · rw [isFile.inner, isFile.text]
  · rw [isFile.inner, baked.path_ofPath missing]

theorem Baked.paths_inner (inside : others ⊆ files ++ implicitFiles builder) :
    (others.map File.inner).map BlitFile.path = others.map text := by
  rw [map_map]
  exact map_congr_left fun file member => baked.path_inner (inside member)

section Listed

variable {above : T} (member : item ∈ items ++ (missingPaths items).map ofPath)
include member

theorem Baked.listed_aboveSome (isUpper : upper ∈ properAncestors (BlitFile.path item)) :
    AboveSome items upper := by
  rcases mem_append.mp member with pushed | implicit
  · exact ⟨item, pushed, isUpper⟩
  · obtain ⟨path, isMissing, same⟩ := mem_map.mp implicit
    subst same
    have missing := mem_missingPaths.mp isMissing
    rw [baked.path_ofPath missing] at isUpper
    obtain ⟨⟨lower, isLower, further⟩, _⟩ := missing
    exact ⟨lower, isLower, properAncestors_trans (baked.normal lower isLower) isUpper further⟩

theorem Baked.listed_closed (isUpper : upper ∈ properAncestors (BlitFile.path item)) :
    ∃ above ∈ items ++ (missingPaths items).map ofPath, BlitFile.path above = upper := by
  have isAbove := baked.listed_aboveSome member isUpper
  by_cases pushed : upper ∈ items.map BlitFile.path
  · obtain ⟨above, isItem, path⟩ := mem_map.mp pushed
    exact ⟨above, mem_append_left _ isItem, path⟩
  · have missing : Missing items upper := ⟨isAbove, pushed⟩
    exact ⟨ofPath upper, mem_append_right _
      (mem_map_of_mem (mem_missingPaths.mpr missing)), baked.path_ofPath missing⟩

theorem Baked.listed_directory (only : OnlyDirectoriesAbove items)
    (aboveMember : above ∈ items ++ (missingPaths items).map ofPath)
    (isAbove : BlitFile.path above ∈ properAncestors (BlitFile.path item)) :
    (kind above).isDirectory = true := by
  rcases mem_append.mp aboveMember with pushed | implicit
  · by_contra notDirectory
    exact only above pushed (by simpa using notDirectory) (baked.listed_aboveSome member isAbove)
  · obtain ⟨path, _, same⟩ := mem_map.mp implicit
    subst same
    rw [LawfulBlitFile.kind_ofPath]
    rfl

end Listed

variable {A N : Type} [DecidableEq N] {arena : TreeArena (File T) A N} (lawful : arena.Lawful)
  (distinct : (items.map BlitFile.path).Nodup)
include lawful distinct

theorem Baked.planted : ∃ tree, builder.plant arena = .ok tree ∧ tree.length = builder.fullSet.length ∧
      Holds arena (fun _ => True) builder.fullSet tree :=
  ((baked.rooted distinct).perm (baked.fullSet_perm distinct)).planted lawful (sortFiles_sorted _)

/-- When no link has anything below it, redirects change nothing. -/
theorem Baked.tree_of_only (only : OnlyDirectoriesAbove items) :
    ∃ tree, builder.tree arena = .ok tree ∧ builder.plant arena = .ok tree ∧ tree.length = builder.fullSet.length ∧
      Holds arena (fun _ => True) builder.fullSet tree := by
  obtain ⟨tree, planted, length, holds⟩ := baked.planted lawful distinct
  refine ⟨tree, ?_, planted, length, holds⟩
  rw [TreeBuilder.tree, planted, ok_bind]
  refine foldlM_idle ?_
  intro redirect member
  obtain ⟨link, isLink, text, _⟩ := redirects_sound (find?_eq_some_iff.mpr member)
  obtain ⟨linkMember, notDirectory⟩ := mem_filter.mp isLink
  have inFull : link ∈ builder.fullSet := by
    rw [(baked.fullSet_perm distinct).mem_iff]
    refine mem_append_left _ ?_
    rw [baked.explicit] at linkMember
    exact (sortFiles_perm files).mem_iff.mp linkMember
  have kidless := baked.onlyDirectoriesHold distinct only link inFull (by simpa using notDirectory)
  rw [← text]
  exact holds.reparent_idle lawful inFull kidless redirect.2

/-- What the tree of items with distinct paths lists, when only directories lie above others. -/
theorem Baked.tree_lists (only : OnlyDirectoriesAbove items) :
    ∃ tree, builder.tree arena = .ok tree ∧ builder.plant arena = .ok tree ∧
      (Tree.iter arena tree).Perm (items ++ (missingPaths items).map ofPath) ∧
      ((Tree.iter arena tree).map BlitFile.path).Nodup ∧
      ((Tree.iter arena tree).Pairwise fun earlier later =>
        BlitFile.path later ∉ properAncestors (BlitFile.path earlier)) ∧
      tree.length = (Tree.iter arena tree).length ∧
      ∃ view depth, (∀ fuel, depth < fuel → Tree.structured arena tree fuel = some view) ∧
        view.elim [] Element.flatten = Tree.iter arena tree := by
  obtain ⟨tree, made, planted, length, holds⟩ := baked.tree_of_only lawful distinct only
  have fullPerm := baked.fullSet_perm distinct
  obtain ⟨listed, seen, listedPerm, topDown, iterated, part, underSeen, view, depth, viewed,
    flattened⟩ := holds.views lawful trivial
  have whole := (baked.onlyDirectoriesHold distinct only).seen_eq holds.rooted listedPerm part underSeen
  rw [whole] at flattened
  have listedFiles := listedPerm.trans fullPerm
  have paths := baked.paths_inner listedFiles.subset
  refine ⟨tree, made, planted, ?_, ?_, ?_, ?_, view, depth, viewed, flattened.trans iterated.symm⟩
  · rw [iterated]
    refine (listedFiles.map File.inner).trans ?_
    rw [map_append, inners_of_made baked.made]
    exact baked.implicit_inners.append_left _
  · rw [iterated, paths, (listedFiles.map text).nodup_iff]
    exact baked.all_distinct distinct
  · rw [iterated, pairwise_map]
    refine topDown.imp_of_mem ?_
    intro earlier later earlierMember laterMember ordered above
    have earlierIn := listedFiles.mem_iff.mp earlierMember
    have laterIn := listedFiles.mem_iff.mp laterMember
    have earlierNormal := baked.file_normal earlierIn
    rw [baked.path_inner laterIn, baked.path_inner earlierIn, text_eq earlierNormal,
      mem_properAncestors (clean_names earlierNormal)] at above
    obtain ⟨upper, isUpper, _, same⟩ := above
    refine ordered ?_
    rw [File.names, same, namesOf_render]
    · exact isUpper
    · exact (clean_names earlierNormal).of_leading isUpper
  · rw [iterated, length_map, listedPerm.length_eq, length]

end

variable {A N : Type} [DecidableEq N] {arena : TreeArena (File T) A N}

/-- Items with distinct paths of which only directories lie above others are built into a
tree of exactly these items and the directories that they lack, in whatever order they are
pushed. -/
theorem distinct_items_build (lawful : arena.Lawful) (normal : ∀ item ∈ items, Normalized (BlitFile.path item))
    (distinct : (items.map BlitFile.path).Nodup) (only : OnlyDirectoriesAbove items) :
    ∃ tree, build arena items = .ok tree ∧
      (Tree.iter arena tree).Perm (items ++ (missingPaths items).map ofPath) ∧
      ((Tree.iter arena tree).map BlitFile.path).Nodup ∧
      ((Tree.iter arena tree).Pairwise fun earlier later =>
        BlitFile.path later ∉ properAncestors (BlitFile.path earlier)) ∧
      tree.length = (Tree.iter arena tree).length ∧
      (∃ view depth, (∀ fuel, depth < fuel → Tree.structured arena tree fuel = some view) ∧
        view.elim [] Element.flatten = Tree.iter arena tree) ∧
      ∀ others, items.Perm others → build arena others = .ok tree := by
  obtain ⟨files, pushed, all, baked⟩ := exists_baked normal
  obtain ⟨tree, made, _, listed, nodup, topDown, length, viewed⟩ := baked.tree_lists lawful distinct only
  refine ⟨tree, ?_, listed, nodup, topDown, length, viewed, ?_⟩
  · rw [build, all, ok_bind, made]
  · intro others permuted
    obtain ⟨otherFiles, otherPushed, otherAll, otherBaked⟩ :=
      exists_baked fun item member => normal item (permuted.mem_iff.mpr member)
    rw [build, otherAll, ok_bind, ← baked.unique otherBaked distinct permuted, made]

end Building

def nanoItems : List CustomFile :=
  [⟨"/usr/bin/nano".toList, .regular, "nano".toList⟩, ⟨"/usr/bin/rnano".toList, .symlink "nano".toList, "nano".toList⟩,
    ⟨"/usr/share/nano".toList, .directory, "nano".toList⟩]

theorem nano_items_build : ∃ tree, build (forestArena _) nanoItems = .ok tree ∧ (Tree.iter (forestArena _) tree).Perm
        (nanoItems ++ ["/", "/usr", "/usr/bin", "/usr/share"].map (ofPath ·.toList)) := by
  have normal : ∀ item ∈ nanoItems, Normalized (BlitFile.path item) := by decide
  obtain ⟨tree, built, listed, _⟩ :=
    distinct_items_build (forestArena_lawful (File CustomFile)) normal (by decide) (by decide)
  refine ⟨tree, built, listed.trans ?_⟩
  decide

end Cast.Vfs
