import Cast.Vfs.ConflictProperties

/-! Moving subtrees of a tree. What lies below the source is taken out of the tree and put
back, but not below the target: the path that is left of it begins with a separator, so
joining it to the target gives it back as it is. -/

namespace Cast.Vfs

open Foundation List Vfs.Tree File

variable {T A N : Type} {arena : TreeArena (File T) A N} {trusted : AStr → Prop}
  {files later : List (File T)} {tree : Tree A N} {file source moved landed entry : File T} {node : N}
  {path parent : AStr} {nodes : List N}

section Removal

variable {kids : List (File T)} {get : N → Option (File T)} {kid lower : File T}

theorem mem_of_map_eq (same : nodes.map get = kids.map some) (member : node ∈ nodes) (data : get node = some kid) :
    kid ∈ kids := by
  have listed : some kid ∈ kids.map some := same ▸ mem_map.mpr ⟨node, member, data⟩
  simpa using listed

theorem filter_map_of_map_eq {keepNode : N → Bool} {keepFile : File T → Bool} (same : nodes.map get = kids.map some)
    (agree : ∀ node ∈ nodes, ∀ kid ∈ kids, get node = some kid → keepNode node = keepFile kid) :
    (nodes.filter keepNode).map get = (kids.filter keepFile).map some := by
  have agreed : Forall₂ (fun node kid => get node = some kid ∧ keepNode node = keepFile kid) nodes kids :=
    forall₂_imp_mem (forall₂_iff_map_eq.mpr same) fun node isNode kid isKid data =>
      ⟨data, agree node isNode kid isKid data⟩
  refine forall₂_iff_map_eq.mp ((rel_filter ?_ agreed).imp fun _ _ both => both.1)
  intro node kid both
  simp only [both.2]

theorem Rooted.filter_not_below (rooted : Rooted files) (kid : File T) :
    Rooted (files.filter fun file => ¬ kid.names <+: file.names) where
  normal file member := rooted.normal file (mem_of_mem_filter member)
  distinct := rooted.distinct.sublist (filter_sublist.map _)
  closed file member parent isParent := by
    obtain ⟨isFile, notBelow⟩ := mem_filter.mp member
    obtain ⟨upper, isUpper, text, name, longer⟩ := rooted.exists_parent isFile isParent
    refine mem_map.mpr ⟨upper, mem_filter.mpr ⟨isUpper, ?_⟩, text⟩
    have outside := of_decide_eq_true notBelow
    refine decide_eq_true ?_
    intro below
    exact outside (below.trans (longer ▸ prefix_append _ _))

theorem path_eq_of_text {first second : File T} (same : first.text = second.text) :
    first.path = second.path := by
  obtain ⟨⟨_, _, _⟩, _, _⟩ := first
  obtain ⟨⟨_, _, _⟩, _, _⟩ := second
  cases same
  rfl

theorem Holds.adopt_known (holds : Holds arena trusted files tree)
    (known : entry.text ∈ files.map File.text) : Tree.adopt arena tree entry = .ok tree := by
  obtain ⟨file, isFile, text⟩ := mem_map.mp known
  have samePath := path_eq_of_text text
  obtain ⟨node, isNode, _, data⟩ := holds.found file isFile
  have isEntry : tree.map entry.path.path = some node := samePath ▸ isNode
  rw [Tree.adopt, isEntry]
  cases isParent : entry.parent with
  | none => rfl
  | some parent =>
    have fileParent : file.parent = some parent := by rw [← isParent, File.parent, File.parent, samePath]
    obtain ⟨upper, isUpper, upperText⟩ := mem_map.mp (holds.rooted.closed file isFile parent fileParent)
    obtain ⟨upperNode, upperKnown, _, _⟩ := holds.found upper isUpper
    have kept : file ∈ Tree.others arena tree upperNode file.fileName := by
      rw [holds.others isUpper upperKnown]
      refine mem_filter.mpr ⟨mem_filter.mpr ⟨isFile, ?_⟩, by simp⟩
      rw [upperText]
      exact decide_eq_true fileParent
    have occupied := isEmpty_eq_false_iff.mpr (ne_nil_of_mem kept)
    rw [upperText] at upperKnown
    simp only [addChildToNode, data, upperKnown, okOr, ok_bind, occupied]
    rfl

variable [DecidableEq N] (lawful : arena.Lawful)
include lawful

section

variable (holds : Holds arena trusted files tree)
include holds

theorem Holds.mem_descendants (member : file ∈ files)
    (known : tree.map file.text = some node) (lowerMember : lower ∈ files) {other : N}
    (isOther : tree.map lower.text = some other) :
    other ∈ arena.descendants tree.arena node ↔ file.names <+: lower.names := by
  obtain ⟨depth, within⟩ := exists_depthWithin files file
  have listed := holds.descendants lawful member known within
  have below := holds.rooted.mem_preorder member within lower
  constructor
  · intro isBelow
    have data := (holds.node_of_map lowerMember isOther).2
    exact (below.mp (mem_of_map_eq listed isBelow data)).2
  · intro isBelow
    have inNodes : some lower ∈ (arena.descendants tree.arena node).map (arena.get? tree.arena) :=
      listed ▸ mem_map_of_mem (below.mpr ⟨lowerMember, isBelow⟩)
    obtain ⟨found, isFound, data⟩ := mem_map.mp inNodes
    have live := lawful.descendants_live (holds.node_of_map member known).1 found isFound
    have again := (holds.map_of_get? live data).2
    rw [isOther] at again
    cases again
    exact isFound

theorem Holds.removeSubtree (member : kid ∈ files) (known : tree.map kid.text = some node)
    (unseen : ∀ lower ∈ files, kid.names <+: lower.names → ¬ trusted lower.text) :
    Holds arena trusted (files.filter fun file => ¬ kid.names <+: file.names)
      { tree with arena := arena.removeSubtree tree.arena node } := by
  obtain ⟨live, kidData⟩ := holds.node_of_map member known
  have removes := lawful.removes live
  have survives : ∀ file ∈ files, ∀ other, tree.map file.text = some other →
      (arena.live (arena.removeSubtree tree.arena node) other ↔ ¬ kid.names <+: file.names) := by
    intro file isFile other isOther
    rw [removes.live_iff, holds.mem_descendants lawful member known isFile isOther]
    exact and_iff_right (holds.node_of_map isFile isOther).1
  refine ⟨holds.rooted.filter_not_below kid, ?_, ?_, ?_, ?_⟩
  · intro file isMember
    obtain ⟨isFile, notBelow⟩ := mem_filter.mp isMember
    obtain ⟨other, isOther, _, data⟩ := holds.found file isFile
    have stillLive := (survives file isFile other isOther).mpr (of_decide_eq_true notBelow)
    exact ⟨other, isOther, stillLive, (removes.keeps other stillLive).trans data⟩
  · intro path isTrusted absent
    refine holds.absent path isTrusted ?_
    intro present
    obtain ⟨file, isFile, text⟩ := mem_map.mp present
    subst text
    refine absent (mem_map_of_mem (mem_filter.mpr ⟨isFile, decide_eq_true ?_⟩))
    intro below
    exact unseen file isFile below isTrusted
  · intro other otherLive
    obtain ⟨file, isFile, isOther⟩ := holds.inhabited other ((removes.live_iff other).mp otherLive).1
    exact ⟨file, mem_filter.mpr ⟨isFile, decide_eq_true ((survives file isFile other isOther).mp otherLive)⟩, isOther⟩
  · intro file isMember other isOther
    obtain ⟨isFile, notBelow⟩ := mem_filter.mp isMember
    have outside := of_decide_eq_true notBelow
    have otherLive := (holds.node_of_map isFile isOther).1
    have stillLive := (survives file isFile other isOther).mpr outside
    -- Of the children only the removed node itself goes.
    have agree : ∀ child ∈ arena.children tree.arena other, ∀ lower ∈ kidsOf files file,
        arena.get? tree.arena child = some lower →
        decide (child ≠ node) = decide (¬ kid.names <+: lower.names) := by
      intro child isChild lower isLower data
      have childLive := lawful.childrenLive otherLive isChild
      obtain ⟨lowerMember, isNode⟩ := holds.map_of_get? childLive data
      obtain ⟨_, name, longer⟩ := (holds.rooted.mem_kidsOf isFile).mp isLower
      rw [decide_eq_decide, not_iff_not]
      constructor
      · intro same
        rw [same, kidData] at data
        cases data
        exact prefix_rfl
      · intro below
        rw [longer, prefix_concat_iff] at below
        have sameNames := below.resolve_right outside
        rw [← longer] at sameNames
        have same := holds.rooted.eq_of_names member lowerMember sameNames
        subst same
        rw [known] at isNode
        exact (Option.some.inj isNode).symm
    have kept := filter_map_of_map_eq (holds.children file isFile other isOther) agree
    have sameKids : kidsOf (files.filter fun file => ¬ kid.names <+: file.names) file =
        (kidsOf files file).filter fun lower => ¬ kid.names <+: lower.names := by
      rw [kidsOf, kidsOf, filter_filter, filter_filter]
      simp only [Bool.and_comm]
    have sameChildren : arena.children (arena.removeSubtree tree.arena node) other =
        (arena.children tree.arena other).filter (· ≠ node) := removes.keepsChildren other stillLive
    rw [sameChildren, sameKids, ← kept]
    refine map_congr_left ?_
    intro child isChild
    obtain ⟨wasChild, differs⟩ := mem_filter.mp isChild
    have childLive := lawful.childrenLive otherLive wasChild
    obtain ⟨lower, lowerMember, isNode⟩ := holds.inhabited child childLive
    have data := (holds.node_of_map lowerMember isNode).2
    have isLower := mem_of_map_eq (holds.children file isFile other isOther) wasChild data
    rw [agree child wasChild lower isLower data] at differs
    exact removes.keeps child ((survives lower lowerMember child isNode).mpr (of_decide_eq_true differs))

theorem Holds.removeSubtrees (paired : Forall₂ (fun node kid => tree.map kid.text = some node) nodes kids)
    (members : ∀ kid ∈ kids, kid ∈ files)
    (apart : kids.Pairwise fun first second => ¬ first.names <+: second.names)
    (unseen : ∀ kid ∈ kids, ∀ lower ∈ files, kid.names <+: lower.names → ¬ trusted lower.text) :
    Holds arena trusted (files.filter fun file => ∀ kid ∈ kids, ¬ kid.names <+: file.names)
      { tree with arena := nodes.foldl arena.removeSubtree tree.arena } := by
  generalize isMap : tree.map = map at paired
  induction paired generalizing files tree with
  | nil =>
    have all : (files.filter fun file =>
        ∀ kid ∈ ([] : List (File T)), ¬ kid.names <+: file.names) =
        files := filter_eq_self.mpr (by simp)
    rw [all]
    subst isMap
    exact holds
  | @cons node kid nodes kids known paired ih =>
    obtain ⟨firstApart, restApart⟩ := pairwise_cons.mp apart
    have after := holds.removeSubtree lawful (members kid mem_cons_self) (isMap ▸ known) (unseen kid mem_cons_self)
    have restMembers : ∀ other ∈ kids, other ∈ files.filter fun file => ¬ kid.names <+: file.names := by
      intro other isOther
      exact mem_filter.mpr ⟨members other (mem_cons_of_mem _ isOther), decide_eq_true (firstApart other isOther)⟩
    have restUnseen : ∀ other ∈ kids, ∀ lower ∈ files.filter fun file => ¬ kid.names <+: file.names,
        other.names <+: lower.names → ¬ trusted lower.text := by
      intro other isOther lower isLower
      exact unseen other (mem_cons_of_mem _ isOther) lower (mem_of_mem_filter isLower)
    have done := ih after restMembers restApart restUnseen isMap
    rw [filter_filter] at done
    have sameFilter : (files.filter fun file =>
        ∀ other ∈ kid :: kids, ¬ other.names <+: file.names) =
        files.filter fun file => decide (∀ other ∈ kids, ¬ other.names <+: file.names) &&
          decide (¬ kid.names <+: file.names) := by
      simp only [forall_mem_cons, Bool.decide_and, Bool.and_comm]
    rw [sameFilter]
    exact done

theorem Holds.removeChildren (member : source ∈ files) (known : tree.map source.text = some node)
    (unseen : ∀ lower ∈ files, StrictlyBelow source lower → ¬ trusted lower.text) :
    Holds arena trusted (files.filter fun file => ¬ StrictlyBelow source file) { tree with
        arena := (arena.children tree.arena node).foldl arena.removeSubtree tree.arena } := by
  obtain ⟨live, _⟩ := holds.node_of_map member known
  have paired : Forall₂ (fun child kid => tree.map kid.text = some child)
      (arena.children tree.arena node) (kidsOf files source) := by
    refine forall₂_imp_mem (forall₂_iff_map_eq.mpr (holds.children source member node known)) ?_
    intro child isChild kid _ data
    exact (holds.map_of_get? (lawful.childrenLive live isChild) data).2
  have kidsMember : ∀ kid ∈ kidsOf files source, kid ∈ files := fun kid isKid => mem_of_mem_filter isKid
  have apart : (kidsOf files source).Pairwise fun first second => ¬ first.names <+: second.names := by
    refine (holds.rooted.nodup.filter _ : (kidsOf files source).Nodup).pairwise_of_forall_ne ?_
    intro first isFirst second isSecond differs above
    exact differs (holds.rooted.kids_apart member isFirst isSecond above prefix_rfl)
  have done := holds.removeSubtrees lawful paired kidsMember apart (by
    intro kid isKid lower isLower below
    exact unseen lower isLower ((holds.rooted.strictlyBelow_iff member isLower).mpr ⟨kid, isKid, below⟩))
  have sameFilter : (files.filter fun file => ¬ StrictlyBelow source file) =
      files.filter fun file => ∀ kid ∈ kidsOf files source, ¬ kid.names <+: file.names := by
    refine filter_congr ?_
    intro lower isLower
    rw [decide_eq_decide, holds.rooted.strictlyBelow_iff member isLower]
    simp only [not_exists, not_and]
  rw [sameFilter]
  exact done

end

theorem Holds.adopt_new (holds : Holds arena trusted files tree) (normal : Normalized entry.text)
    (isTrusted : trusted entry.text) (fresh : entry.text ∉ files.map text)
    (hasParent : ∀ parent, entry.parent = some parent → parent ∈ files.map text) :
    ∃ next, Tree.adopt arena tree entry = .ok next ∧ Holds arena trusted (files ++ [entry]) next := by
  obtain ⟨next, inserted, _, after⟩ := holds.insertNode lawful normal fresh hasParent
  refine ⟨next, ?_, after⟩
  have absent : tree.map entry.path.path = none := holds.absent entry.text isTrusted fresh
  rw [Tree.adopt, absent]
  exact inserted

/-- Of several files those with a new path are placed, and nothing else changes. -/
theorem Holds.adoptAll (holds : Holds arena trusted files tree) {orphans : List (File T)}
    (distinct : (orphans.map text).Nodup)
    (placeable : ∀ before entry after, orphans = before ++ entry :: after → Normalized entry.text ∧ trusted entry.text ∧
      ∀ parent, entry.parent = some parent → parent ∈ (files ++ before).map text) :
    ∃ next, orphans.foldlM (Tree.adopt arena) tree = .ok next ∧
      Holds arena trusted (files ++ orphans.filter fun file => file.text ∉ files.map text) next := by
  induction orphans generalizing files tree with
  | nil => exact ⟨tree, rfl, by rw [filter_nil, append_nil]; exact holds⟩
  | cons entry rest ih =>
    obtain ⟨normal, isTrusted, hasParent⟩ := placeable [] entry rest rfl
    rw [append_nil] at hasParent
    rw [map_cons, nodup_cons] at distinct
    obtain ⟨apart, restDistinct⟩ := distinct
    by_cases known : entry.text ∈ files.map text
    · obtain ⟨next, adopted, after⟩ := ih holds restDistinct (by
        intro before later further split
        obtain ⟨laterNormal, laterTrusted, laterParent⟩ :=
          placeable (entry :: before) later further (by rw [split]; rfl)
        refine ⟨laterNormal, laterTrusted, ?_⟩
        intro parent isParent
        have there := laterParent parent isParent
        simp only [map_append, map_cons, mem_append, mem_cons] at there ⊢
        rcases there with isFile | same | isBefore
        · exact .inl isFile
        · exact .inl (same ▸ known)
        · exact .inr isBefore)
      refine ⟨next, ?_, ?_⟩
      · rw [foldlM_cons, holds.adopt_known known]
        exact adopted
      · rw [filter_cons_of_neg (by simpa using known)]
        exact after
    · obtain ⟨middle, first, between⟩ := holds.adopt_new lawful normal isTrusted known hasParent
      obtain ⟨next, adopted, after⟩ := ih between restDistinct (by
        intro before later further split
        rw [append_assoc]
        exact placeable (entry :: before) later further (by rw [split]; rfl))
      refine ⟨next, ?_, ?_⟩
      · rw [foldlM_cons, first]
        exact adopted
      · have sameRest : (rest.filter fun file => file.text ∉ (files ++ [entry]).map text) =
            rest.filter fun file => file.text ∉ files.map text := by
          refine filter_congr ?_
          intro file member
          have differs : file.text ≠ entry.text := fun same => apart (same ▸ mem_map_of_mem member)
          simp only [map_append, map_cons, map_nil, mem_append, mem_singleton, differs, or_false]
        rw [filter_cons_of_pos (by simpa using known), ← sameRest]
        rw [append_assoc] at after
        exact after

end Removal

section Landing

variable [BlitFile T] [LawfulBlitFile T]

theorem stripPrefix_append (leading rest : AStr) : stripPrefix (leading ++ rest) leading = some rest := by
  induction leading with
  | nil => cases rest <;> rfl
  | cons first leading ih => rw [cons_append, stripPrefix, if_pos rfl, ih]

/-- The names of a path below a source. -/
def remainder (source path : AStr) : List AStr := (namesOf path).drop (namesOf source).length

/-- What a moved file becomes: it is put where its names after those of the source lead. -/
structure IsLanding (source moved landed : File T) : Prop where
  strictlyBelow : StrictlyBelow source moved
  isFile : IsFileOf (BlitFile.clonedTo moved.inner (render (remainder source.text moved.text))) landed

omit [BlitFile T] [LawfulBlitFile T] in
theorem exists_remainder (below : StrictlyBelow source moved) :
    remainder source.text moved.text ≠ [] ∧ moved.names = source.names ++ remainder source.text moved.text := by
  obtain ⟨rest, filled, extended⟩ := strictlyBelow_iff_append.mp below
  have same : remainder source.text moved.text = rest := by
    change moved.names.drop source.names.length = rest
    rw [extended, drop_left]
  rw [same]
  exact ⟨filled, extended⟩

theorem path_clonedTo_render (inner : T) (names : List AStr) :
    BlitFile.path (BlitFile.clonedTo inner (render names)) = render names :=
  LawfulBlitFile.path_clonedTo inner (render names) head?_render

theorem IsLanding.names_eq (landing : IsLanding source moved landed) (normal : Normalized moved.text) :
    moved.names = source.names ++ landed.names ∧ landed.names ≠ [] ∧ Normalized landed.text := by
  obtain ⟨below, isFile⟩ := landing
  obtain ⟨filled, extended⟩ := exists_remainder below
  have clean := clean_names normal
  rw [extended] at clean
  have restClean : Clean (remainder source.text moved.text) := fun name member => clean name (mem_append_right _ member)
  have text : landed.text = render _ := isFile.text.trans (path_clonedTo_render _ _)
  have names : landed.names = remainder source.text moved.text := by rw [File.names, text, namesOf_render restClean]
  rw [names]
  exact ⟨extended, filled, _, restClean, text⟩

theorem exists_landing (normal : Normalized moved.text) (below : StrictlyBelow source moved) :
    ∃ landed, IsLanding source moved landed := by
  have clean := clean_names normal
  rw [(exists_remainder below).2] at clean
  have isNormal : Normalized (BlitFile.path
      (BlitFile.clonedTo moved.inner (render (remainder source.text moved.text)))) := by
    rw [path_clonedTo_render]
    exact ⟨_, fun name member => clean name (mem_append_right _ member), rfl⟩
  obtain ⟨landed, isFile⟩ := exists_isFileOf isNormal
  exact ⟨landed, below, isFile⟩

/-- The target of a redirect does not enter into where a moved file is put. -/
theorem exists_orphanOf (normal : Normalized moved.text) (sourceNormal : Normalized source.text)
    (notRoot : source.names ≠ []) (below : StrictlyBelow source moved)
    (data : arena.get? tree.arena node = some moved) (target : AStr) :
    ∃ landed, orphanOf arena tree source.text target node = .ok landed ∧ IsLanding source moved landed := by
  obtain ⟨landed, landing⟩ := exists_landing normal below
  refine ⟨landed, ?_, landing⟩
  have isFile := landing.isFile
  obtain ⟨filled, extended⟩ := exists_remainder below
  generalize remainder source.text moved.text = rest at filled extended isFile
  have text : moved.path.path = source.text ++ renderTail rest := by
    have whole := text_eq normal
    rw [extended, render_of_ne_nil (by simp [notRoot]), renderTail_append,
      ← render_of_ne_nil notRoot, ← text_eq sourceNormal] at whole
    exact whole
  have absolute : (renderTail rest).head? = some '/' := by
    rw [← render_of_ne_nil filled]
    exact head?_render
  have joined : join target (renderTail rest) = render rest := by
    rw [join, if_pos absolute, render_of_ne_nil filled]
  rw [orphanOf, data, okOr, ok_bind, text, stripPrefix_append, okOr, ok_bind, joined]
  exact File.new_eq_ok.mpr isFile

theorem exists_orphans (sourceNormal : Normalized source.text) (notRoot : source.names ≠ []) {below : List (File T)}
    (same : nodes.map (arena.get? tree.arena) = below.map some)
    (allBelow : ∀ moved ∈ below, Normalized moved.text ∧ StrictlyBelow source moved)
    (target : AStr) :
    ∃ orphans, nodes.mapM (orphanOf arena tree source.text target) = .ok orphans ∧
      Forall₂ (IsLanding source) below orphans := by
  simp only [mapM_eq_ok]
  induction forall₂_iff_map_eq.mpr same with
  | nil => exact ⟨[], .nil, .nil⟩
  | @cons node moved nodes below first rest ih =>
    obtain ⟨normal, isBelow⟩ := allBelow moved mem_cons_self
    obtain ⟨landed, made, landing⟩ := exists_orphanOf normal sourceNormal notRoot isBelow first target
    obtain ⟨orphans, madeAll, landings⟩ := ih (forall₂_iff_map_eq.mp rest)
      fun other isOther => allBelow other (mem_cons_of_mem _ isOther)
    exact ⟨landed :: orphans, .cons made madeAll, .cons landing landings⟩

end Landing

section Reparenting

variable {next : Tree A N} {depth : Nat}

theorem preorder_eq_cons (files : List (File T)) (depth : Nat) (file : File T) :
    preorder files depth file = file :: (preorder files depth file).drop 1 := by
  cases depth <;> rfl

theorem Rooted.mem_below (rooted : Rooted files) (member : source ∈ files) (within : DepthWithin files source depth)
    (moved : File T) : moved ∈ (preorder files depth source).drop 1 ↔ moved ∈ files ∧ StrictlyBelow source moved := by
  have listed := rooted.mem_preorder member within moved
  have ordered := rooted.preorder_ordered member within
  rw [preorder_eq_cons] at listed ordered
  obtain ⟨first, _⟩ := pairwise_cons.mp ordered
  have proper (isBelow : moved ∈ (preorder files depth source).drop 1) : source.names ≠ moved.names :=
    fun same => first moved isBelow (same ▸ prefix_rfl)
  grind [StrictlyBelow]

theorem map_addChildToNode (added : addChildToNode arena tree node parent = .ok next) : next.map = tree.map := by
  simp only [addChildToNode, bind_eq_ok] at added
  obtain ⟨_, _, _, _, rest⟩ := added
  split at rest
  · obtain ⟨state, _, made⟩ := bind_eq_ok.mp rest
    cases made
    rfl
  · cases rest
    rfl

theorem adopt_keeps (adopted : Tree.adopt arena tree entry = .ok next) (known : (tree.map path).isSome = true) :
    (next.map path).isSome = true := by
  have fresh : ((newNode arena tree entry).2.map path).isSome = true := by
    simp only [newNode]
    split
    · rfl
    · exact known
  cases isNode : tree.map entry.path.path <;> cases isParent : entry.parent <;>
    simp only [Tree.adopt, isNode, isParent] at adopted
  · cases adopted
    exact fresh
  · rw [map_addChildToNode adopted]
    exact fresh
  · cases adopted
    exact known
  · rw [map_addChildToNode adopted]
    exact known

variable [BlitFile T]

theorem reparent_keeps {sourcePath targetPath : AStr}
    (moves : Tree.reparent arena tree sourcePath targetPath = .ok next)
    (known : (tree.map path).isSome = true) : (next.map path).isSome = true := by
  rw [Tree.reparent] at moves
  cases isNode : tree.map sourcePath with
  | none =>
    rw [isNode] at moves
    cases moves
    exact known
  | some node =>
    rw [isNode] at moves
    obtain ⟨orphans, _, adopted⟩ := bind_eq_ok.mp moves
    refine foldlM_processed (fun _ state => (state.map path).isSome = true) known ?_ adopted
    intro _ entry _ state after _ still stepped
    exact adopt_keeps stepped still

variable {below orphans : List (File T)} (memBelow : ∀ moved, moved ∈ below ↔ moved ∈ files ∧ StrictlyBelow source moved)
  (landings : Forall₂ (IsLanding source) below orphans)

include memBelow landings in
theorem mem_landings : landed ∈ orphans ↔ ∃ moved ∈ files, IsLanding source moved landed := by
  constructor
  · intro isLanded
    obtain ⟨moved, isBelow, landing⟩ := exists_left_of_mem landings isLanded
    exact ⟨moved, ((memBelow moved).mp isBelow).1, landing⟩
  · intro held
    obtain ⟨moved, isFile, landing⟩ := held
    obtain ⟨again, isLanded, same⟩ := exists_right_of_mem landings
      ((memBelow moved).mpr ⟨isFile, landing.strictlyBelow⟩)
    rw [← same.isFile.eq_iff.mpr landing.isFile]
    exact isLanded

variable [LawfulBlitFile T]

/-- A moved file lands below what its parent has become, or below the root. -/
theorem Rooted.landing_parent (rooted : Rooted files) (member : moved ∈ files)
    (notRoot : source.names ≠ []) (landing : IsLanding source moved landed)
    (isParent : landed.parent = some parent) :
    (∃ root ∈ files, root.text = parent ∧ ¬ StrictlyBelow source root) ∨
      ∃ upper ∈ files, StrictlyBelow source upper ∧ StrictlyBelow upper moved ∧
        parent = render (upper.names.drop source.names.length) := by
  obtain ⟨names, _, normal⟩ := landing.names_eq (rooted.normal moved member)
  obtain ⟨leading, name, isLeading, isNames⟩ := names_of_parent normal isParent
  by_cases isTop : leading = []
  · obtain ⟨root, isRoot, rootNames⟩ := rooted.ancestor member ( nil_prefix)
    refine .inl ⟨root, isRoot, ?_, ?_⟩
    · rw [text_eq (rooted.normal root isRoot), rootNames, isLeading, isTop]
    · intro below
      exact notRoot (prefix_nil.mp (rootNames ▸ below.1))
  · have between : source.names ++ leading <+: moved.names := by
      rw [names, isNames, ← append_assoc]
      exact prefix_append _ _
    obtain ⟨upper, isUpper, upperNames⟩ := rooted.ancestor member between
    refine .inr ⟨upper, isUpper, strictlyBelow_iff_append.mpr ⟨leading, isTop, upperNames⟩,
      strictlyBelow_iff_append.mpr ⟨[landed.fileName], by simp, ?_⟩, ?_⟩
    · rw [names, isNames, ← append_assoc, upperNames]
    · rw [upperNames, drop_left, isLeading]

section

variable (rooted : Rooted files) (ordered : TopDown below)
include memBelow landings rooted ordered

theorem landings_distinct : (orphans.map File.text).Nodup := by
  have normal : ∀ moved ∈ below, Normalized moved.text :=
    fun moved isBelow => rooted.normal moved ((memBelow moved).mp isBelow).1
  rw [Nodup, pairwise_map]
  refine pairwise_right landings ordered ?_
  intro first isFirst second isSecond value other isValue isOther apart sameText
  have sameNames : value.names = other.names := congrArg namesOf sameText
  have firstNames := (isValue.names_eq (normal first isFirst)).1
  have secondNames := (isOther.names_eq (normal second isSecond)).1
  rw [firstNames, secondNames, sameNames] at apart
  exact apart prefix_rfl

theorem parent_of_landing (notRoot : source.names ≠ []) {before after : List (File T)}
    (split : orphans = before ++ landed :: after) (isParent : landed.parent = some parent) :
    parent ∈ (files.filter (fun file => ¬ StrictlyBelow source file) ++ before).map File.text := by
  obtain ⟨belowBefore, moved, belowAfter, rfl, earlier, landing⟩ := exists_split_left (split ▸ landings)
  have isFile := ((memBelow moved).mp (by simp)).1
  rw [map_append, mem_append]
  rcases rooted.landing_parent isFile notRoot landing isParent with
    ⟨root, isRoot, text, outside⟩ | ⟨upper, isUpper, inside, above, text⟩
  · refine .inl (mem_map.mpr ⟨root, mem_filter.mpr ⟨isRoot, ?_⟩, text⟩)
    exact decide_eq_true outside
  · -- What lies above the moved file was listed, and so has landed, before it.
    have upperBelow := (memBelow upper).mpr ⟨isUpper, inside⟩
    rw [TopDown, pairwise_append, pairwise_cons] at ordered
    rw [mem_append, mem_cons] at upperBelow
    rcases upperBelow with isBefore | same | isAfter
    · obtain ⟨again, isLanded, upperLanding⟩ := exists_right_of_mem earlier isBefore
      obtain ⟨names, _, normal⟩ := upperLanding.names_eq (rooted.normal upper isUpper)
      refine .inr (mem_map.mpr ⟨again, isLanded, ?_⟩)
      rw [text, names, drop_left, text_eq normal]
    · exact absurd (congrArg File.names same) above.2
    · exact absurd above.1 (ordered.2.1.1 upper isAfter)

end

variable [DecidableEq N] (lawful : arena.Lawful)
include lawful

/-- One redirect takes out what lies below its source, and puts it where the rest of each path
leads unless something is there. -/
theorem Holds.reparent (holds : Holds arena trusted files tree) (member : source ∈ files)
    (notRoot : source.names ≠ []) {target : AStr} (known : (tree.map target).isSome = true)
    (unseen : ∀ lower ∈ files, StrictlyBelow source lower → ¬ trusted lower.text)
    (clear : ∀ moved ∈ files, ∀ landed, IsLanding source moved landed → trusted landed.text) :
    ∃ next after, Tree.reparent arena tree source.text target = .ok next ∧ Holds arena trusted after next ∧
      ∀ file, file ∈ after ↔ (file ∈ files ∧ ¬ StrictlyBelow source file) ∨
        (∃ moved ∈ files, IsLanding source moved file) ∧
          file.text ∉ (files.filter fun file => ¬ StrictlyBelow source file).map File.text := by
  have rooted := holds.rooted
  obtain ⟨node, isNode, _, _⟩ := holds.found source member
  obtain ⟨depth, within⟩ := exists_depthWithin files source
  have memBelow := rooted.mem_below member within
  have ordered : TopDown ((preorder files depth source).drop 1) := (rooted.preorder_ordered member within).drop
  have listed : ((arena.descendants tree.arena node).drop 1).map (arena.get? tree.arena) =
      ((preorder files depth source).drop 1).map some := by
    rw [map_drop, holds.descendants lawful member isNode within, ← map_drop]
  generalize (preorder files depth source).drop 1 = below at memBelow ordered listed
  obtain ⟨orphans, made, landings⟩ := exists_orphans (rooted.normal source member) notRoot listed
    (fun moved isBelow => ((memBelow moved).mp isBelow).imp_left (rooted.normal moved)) target
  have removed := holds.removeChildren lawful member isNode unseen
  have distinct := landings_distinct memBelow landings rooted ordered
  obtain ⟨next, adopted, after⟩ := removed.adoptAll lawful distinct (by
    intro before entry later split
    have isEntry : entry ∈ orphans := by simp [split]
    obtain ⟨moved, isFile, landing⟩ := (mem_landings memBelow landings).mp isEntry
    refine ⟨(landing.names_eq (rooted.normal moved isFile)).2.2, clear moved isFile entry landing, ?_⟩
    intro parent isParent
    exact parent_of_landing memBelow landings rooted ordered notRoot split isParent)
  refine ⟨next, _, ?_, after, ?_⟩
  · rw [Tree.reparent, isNode]
    simp only [known, if_true, made, ok_bind]
    exact adopted
  · intro file
    rw [mem_append, mem_filter, mem_filter, mem_landings memBelow landings]
    simp only [decide_eq_true_eq]

end Reparenting

end Cast.Vfs
