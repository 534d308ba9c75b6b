import Cast.Foundation.Pointwise
import Cast.Vfs.PathProperties

/-! What a tree holds. The files of a tree with distinct paths determine its arena up to the
identifiers of nodes: the children of a node are the files whose parent it is, and walking
down from a node lists the files below it in preorder. -/

namespace Cast.Vfs

open Foundation List Vfs.Tree File

variable {T : Type} {files after : List (File T)} {file : File T} {depth : Nat} {parent : AStr}

/-- Files with distinct normalized paths, each with its parent. -/
structure Rooted (files : List (File T)) : Prop where
  normal : ∀ file ∈ files, Normalized file.text
  distinct : (files.map text).Nodup
  closed : ∀ file ∈ files, ∀ parent, file.parent = some parent → parent ∈ files.map text

def kidsOf (files : List (File T)) (file : File T) : List (File T) :=
  files.filter fun kid => kid.parent = some file.text

/-- A file and the files below it, as deep as it is asked for. -/
def preorder (files : List (File T)) : Nat → File T → List (File T)
  | 0, file => [file]
  | depth + 1, file => file :: (kidsOf files file).flatMap (preorder files depth)

variable {kid lower : File T}

/-- No file is deeper below the given one. -/
def DepthWithin (files : List (File T)) (file : File T) (depth : Nat) : Prop :=
  ∀ lower ∈ files, file.names <+: lower.names → lower.names.length ≤ file.names.length + depth

/-- One file lies below another, and not in the same place. -/
def StrictlyBelow (upper lower : File T) : Prop := upper.names <+: lower.names ∧ upper.names ≠ lower.names

instance (upper lower : File T) : Decidable (StrictlyBelow upper lower) := inferInstanceAs (Decidable (_ ∧ _))

theorem strictlyBelow_iff_append : StrictlyBelow file lower ↔ ∃ rest, rest ≠ [] ∧ lower.names = file.names ++ rest := by
  constructor
  · rintro ⟨⟨rest, extended⟩, proper⟩
    refine ⟨rest, ?_, extended.symm⟩
    rintro rfl
    exact proper (by rw [← extended, append_nil])
  · rintro ⟨rest, filled, extended⟩
    exact ⟨⟨rest, extended.symm⟩, by simpa [extended] using filled⟩

section

variable (rooted : Rooted files)
include rooted

theorem Rooted.nodup : files.Nodup := Nodup.of_map _ rooted.distinct

variable (member : file ∈ files)
include member

theorem Rooted.eq_of_names (lowerMember : lower ∈ files) (same : file.names = lower.names) : file = lower := by
  have sameText := (text_inj (rooted.normal _ member) (rooted.normal _ lowerMember)).mpr same
  exact inj_on_of_nodup_map rooted.distinct member lowerMember sameText

theorem Rooted.mem_kidsOf :
    kid ∈ kidsOf files file ↔ kid ∈ files ∧ ∃ name, kid.names = file.names ++ [name] := by
  rw [kidsOf, mem_filter, decide_eq_true_eq]
  exact and_congr_right fun isFile => parent_eq_some_iff (rooted.normal _ member) (rooted.normal _ isFile)

theorem Rooted.exists_parent (isParent : file.parent = some parent) :
    ∃ upper ∈ files, upper.text = parent ∧ ∃ name, file.names = upper.names ++ [name] := by
  obtain ⟨upper, isUpper, rfl⟩ := mem_map.mp (rooted.closed file member parent isParent)
  exact ⟨upper, isUpper, rfl, (parent_eq_some_iff (rooted.normal _ isUpper) (rooted.normal _ member)).mp isParent⟩

omit member in
theorem Rooted.ancestor (member : lower ∈ files) {names : List AStr}
    (above : names <+: lower.names) : ∃ file ∈ files, file.names = names := by
  obtain ⟨rest, extends_⟩ := above
  induction rest using reverseRecOn generalizing lower with
  | nil => exact ⟨lower, member, by rw [← extends_, append_nil]⟩
  | append_singleton rest last ih =>
    have isLower : lower.names = (names ++ rest) ++ [last] := by rw [← extends_, append_assoc]
    have hasParent : lower.parent ≠ none := by
      rw [ne_eq, parent_eq_none_iff (rooted.normal _ member), isLower]
      simp
    obtain ⟨parent, isParent⟩ := Option.ne_none_iff_exists'.mp hasParent
    obtain ⟨upper, upperMember, _, name, upperNames⟩ := rooted.exists_parent member isParent
    rw [isLower] at upperNames
    exact ih upperMember (append_inj' upperNames rfl).1

theorem Rooted.strictlyBelow_iff (lowerMember : lower ∈ files) :
    StrictlyBelow file lower ↔ ∃ kid ∈ kidsOf files file, kid.names <+: lower.names := by
  constructor
  · intro below
    obtain ⟨rest, filled, extended⟩ := strictlyBelow_iff_append.mp below
    cases rest with
    | nil => exact absurd rfl filled
    | cons name rest =>
      have between : file.names ++ [name] <+: lower.names := ⟨rest, by rw [extended]; simp⟩
      obtain ⟨kid, isKid, names⟩ := rooted.ancestor lowerMember between
      exact ⟨kid, (rooted.mem_kidsOf member).mpr ⟨isKid, name, names⟩, names ▸ between⟩
  · intro held
    obtain ⟨kid, isKid, below⟩ := held
    obtain ⟨_, name, names⟩ := (rooted.mem_kidsOf member).mp isKid
    refine ⟨(names ▸ prefix_append _ _ : file.names <+: kid.names).trans below, ?_⟩
    intro same
    have longer := below.length_le
    rw [names, same, length_append, length_singleton] at longer
    omega

theorem DepthWithin.of_kid (within : DepthWithin files file (depth + 1)) (isKid : kid ∈ kidsOf files file) :
    DepthWithin files kid depth := by
  obtain ⟨_, name, isKidNames⟩ := (rooted.mem_kidsOf member).mp isKid
  intro lower lowerMember below
  have bound := within lower lowerMember (by
    rw [isKidNames] at below
    exact (prefix_append _ _).trans below)
  rw [isKidNames, length_append, length_singleton]
  omega

theorem DepthWithin.kidless (within : DepthWithin files file 0) : kidsOf files file = [] := by
  rw [eq_nil_iff_forall_not_mem]
  intro kid isKid
  obtain ⟨kidMember, name, isKidNames⟩ := (rooted.mem_kidsOf member).mp isKid
  have bound := within kid kidMember (by rw [isKidNames]; exact prefix_append _ _)
  rw [isKidNames, length_append, length_singleton] at bound
  omega

theorem Rooted.kids_apart {other : File T}
    (isKid : kid ∈ kidsOf files file) (isOther : other ∈ kidsOf files file)
    (belowKid : kid.names <+: lower.names) (belowOther : other.names <+: lower.names) :
    kid = other := by
  obtain ⟨kidMember, name, isKidNames⟩ := (rooted.mem_kidsOf member).mp isKid
  obtain ⟨otherMember, otherName, isOtherNames⟩ := (rooted.mem_kidsOf member).mp isOther
  have sameLength : kid.names.length = other.names.length := by simp [isKidNames, isOtherNames]
  have sameNames := (prefix_of_prefix_length_le belowKid belowOther sameLength.le).eq_of_length sameLength
  exact rooted.eq_of_names kidMember otherMember sameNames

variable (within : DepthWithin files file depth)
include within

theorem Rooted.mem_preorder (lower : File T) :
    lower ∈ preorder files depth file ↔ lower ∈ files ∧ file.names <+: lower.names := by
  induction depth generalizing file with
  | zero =>
    rw [preorder, mem_singleton]
    constructor
    · intro same
      subst same
      exact ⟨member, prefix_rfl⟩
    · intro held
      obtain ⟨lowerMember, below⟩ := held
      have bound := within lower lowerMember below
      exact rooted.eq_of_names lowerMember member (below.eq_of_length_le (by omega)).symm
  | succ depth ih =>
    have further (kid : File T) (isKid : kid ∈ kidsOf files file) :=
      ih ((rooted.mem_kidsOf member).mp isKid).1 (within.of_kid rooted member isKid)
    rw [preorder, mem_cons, mem_flatMap]
    constructor
    · intro held
      rcases held with same | ⟨kid, isKid, below⟩
      · subst same
        exact ⟨member, prefix_rfl⟩
      · obtain ⟨lowerMember, above⟩ := (further kid isKid).mp below
        exact ⟨lowerMember, ((rooted.strictlyBelow_iff member lowerMember).mpr ⟨kid, isKid, above⟩).1⟩
    · intro held
      obtain ⟨lowerMember, above⟩ := held
      by_cases same : file.names = lower.names
      · exact .inl (rooted.eq_of_names lowerMember member same.symm)
      · obtain ⟨kid, isKid, below⟩ := (rooted.strictlyBelow_iff member lowerMember).mp ⟨above, same⟩
        exact .inr ⟨kid, isKid, (further kid isKid).mpr ⟨lowerMember, below⟩⟩

/-- Everything above comes first, and nothing twice. -/
def TopDown (listed : List (File T)) : Prop := listed.Pairwise fun earlier later => ¬ later.names <+: earlier.names

theorem Rooted.preorder_ordered : TopDown (preorder files depth file) := by
  induction depth generalizing file with
  | zero => exact pairwise_singleton _ _
  | succ depth ih =>
    rw [TopDown, preorder, pairwise_cons, pairwise_flatMap]
    refine ⟨?_, ?_, ?_⟩
    · intro lower listed above
      obtain ⟨kid, isKid, below⟩ := mem_flatMap.mp listed
      obtain ⟨kidMember, name, isKidNames⟩ := (rooted.mem_kidsOf member).mp isKid
      obtain ⟨_, further⟩ := (rooted.mem_preorder kidMember (within.of_kid rooted member isKid) _).mp below
      have longer := (further.trans above).length_le
      rw [isKidNames, length_append, length_singleton] at longer
      omega
    · intro kid isKid
      exact ih ((rooted.mem_kidsOf member).mp isKid).1 (within.of_kid rooted member isKid)
    · have kidsNodup : (kidsOf files file).Nodup := rooted.nodup.filter _
      refine kidsNodup.pairwise_of_forall_ne ?_
      intro kid isKid other isOther differs earlier belowKid later belowOther above
      have kidMember := ((rooted.mem_kidsOf member).mp isKid).1
      have otherMember := ((rooted.mem_kidsOf member).mp isOther).1
      obtain ⟨_, first⟩ := (rooted.mem_preorder kidMember (within.of_kid rooted member isKid) _).mp belowKid
      obtain ⟨_, second⟩ := (rooted.mem_preorder otherMember (within.of_kid rooted member isOther) _).mp belowOther
      exact differs (rooted.kids_apart member isKid isOther first (second.trans above))

theorem Rooted.preorder_nodup : (preorder files depth file).Nodup := by
  refine (rooted.preorder_ordered member within).imp ?_
  intro earlier later ordered same
  exact ordered (same ▸ prefix_rfl)

theorem Rooted.preorder_perm (isRoot : file.names = []) : (preorder files depth file).Perm files := by
  rw [perm_ext_iff_of_nodup (rooted.preorder_nodup member within) rooted.nodup]
  intro lower
  rw [rooted.mem_preorder member within, isRoot]
  simp

end

variable {A N : Type}

/-- The tree holds exactly the files. Only for trusted paths does it say that a path without
a file has no node. -/
structure Holds (arena : TreeArena (File T) A N) (trusted : AStr → Prop) (files : List (File T))
    (tree : Tree A N) : Prop where
  rooted : Rooted files
  found : ∀ file ∈ files, ∃ node, tree.map file.text = some node ∧
    arena.live tree.arena node ∧ arena.get? tree.arena node = some file
  absent : ∀ path, trusted path → path ∉ files.map text → tree.map path = none
  inhabited : ∀ node, arena.live tree.arena node → ∃ file ∈ files, tree.map file.text = some node
  children : ∀ file ∈ files, ∀ node, tree.map file.text = some node →
    (arena.children tree.arena node).map (arena.get? tree.arena) = (kidsOf files file).map some

variable {arena : TreeArena (File T) A N} {trusted : AStr → Prop} {tree : Tree A N} {entry : File T} {node : N}

theorem Holds.node_of_map (holds : Holds arena trusted files tree) (member : file ∈ files)
    (known : tree.map file.text = some node) :
    arena.live tree.arena node ∧ arena.get? tree.arena node = some file := by
  simpa [known] using holds.found file member

theorem Holds.map_of_get? (holds : Holds arena trusted files tree)
    (live : arena.live tree.arena node) (data : arena.get? tree.arena node = some file) :
    file ∈ files ∧ tree.map file.text = some node := by
  obtain ⟨other, member, known⟩ := holds.inhabited node live
  have same := (holds.node_of_map member known).2
  rw [data] at same
  cases same
  exact ⟨member, known⟩

theorem filterMap_of_map_eq {xs : List N} {get : N → Option (File T)} {kids : List (File T)}
    (same : xs.map get = kids.map some) : xs.filterMap get = kids := by
  have composed : xs.filterMap get = (xs.map get).filterMap id := by simp [filterMap_map]
  rw [composed, same]
  simp [filterMap_map]

theorem Holds.others (holds : Holds arena trusted files tree) (member : file ∈ files)
    (known : tree.map file.text = some node) (name : AStr) :
    Tree.others arena tree node name = (kidsOf files file).filter fun kid => kid.fileName = name := by
  rw [Tree.others, filterMap_of_map_eq (holds.children file member node known)]

theorem kidsOf_concat : kidsOf (files ++ [entry]) file =
    kidsOf files file ++ if entry.parent = some file.text then [entry] else [] := by
  rw [kidsOf, filter_append]
  by_cases below : entry.parent = some file.text <;> simp [kidsOf, below]

section Insertion

/-- The node that a file is hung below: that of its parent, if nothing there bears its name. -/
def HangsBelow (arena : TreeArena (File T) A N) (tree : Tree A N) (entry : File T) (node : N) : Prop :=
  ∃ parent, entry.parent = some parent ∧ tree.map parent = some node ∧ Tree.others arena tree node entry.fileName = []

/-- What the insertion of a file does to a tree. -/
structure Inserts (arena : TreeArena (File T) A N) (tree : Tree A N) (entry : File T) (node : N)
    (next : Tree A N) : Prop where
  length : next.length = tree.length + 1
  fresh : ¬ arena.live tree.arena node
  isNode : next.map entry.text = some node
  keepsMap : ∀ path, path ≠ entry.text → next.map path = tree.map path
  live_iff : ∀ other, arena.live next.arena other ↔ arena.live tree.arena other ∨ other = node
  data : arena.get? next.arena node = some entry
  keeps : ∀ other, arena.live tree.arena other → arena.get? next.arena other = arena.get? tree.arena other
  childless : arena.children next.arena node = []
  hangs : ∀ other, HangsBelow arena tree entry other →
    arena.children next.arena other = arena.children tree.arena other ++ [node]
  keepsChildren : ∀ other, arena.live tree.arena other → ¬ HangsBelow arena tree entry other →
    arena.children next.arena other = arena.children tree.arena other

theorem newNode_map_self :
    (newNode arena tree entry).2.map entry.text = some (newNode arena tree entry).1 := if_pos rfl

theorem newNode_map_of_ne {path : AStr} (differs : path ≠ entry.text) :
    (newNode arena tree entry).2.map path = tree.map path := if_neg differs

section

variable (rooted : Rooted files) (normal : Normalized entry.text) (fresh : entry.text ∉ files.map text)
include rooted normal fresh

theorem Rooted.concat (hasParent : ∀ parent, entry.parent = some parent → parent ∈ files.map text) :
    Rooted (files ++ [entry]) where
  normal known member := by
    rcases mem_concat.mp member with old | rfl
    · exact rooted.normal known old
    · exact normal
  distinct := by
    rw [map_append, map_singleton, nodup_append_comm, singleton_append, nodup_cons]
    exact ⟨fresh, rooted.distinct⟩
  closed known member parent isParent := by
    rw [map_append]
    refine mem_append_left _ ?_
    rcases mem_concat.mp member with old | rfl
    · exact rooted.closed known old parent isParent
    · exact hasParent parent isParent

theorem Rooted.kidsOf_fresh : kidsOf (files ++ [entry]) entry = [] := by
  rw [kidsOf_concat, if_neg (File.parent_ne_text normal), append_nil, kidsOf, filter_eq_nil_iff]
  intro kid member below
  exact fresh (rooted.closed kid member _ (of_decide_eq_true below))

end

theorem parent_earlier (allNormal : ∀ file ∈ files, Normalized file.text)
    (closed : ∀ file ∈ files, ∀ parent, file.parent = some parent → parent ∈ files.map File.text)
    (sorted : files.Pairwise fun a b => (sortedPaths a b).isLE = true) {before : List (File T)}
    (split : files = before ++ entry :: after)
    (isParent : entry.parent = some parent) : parent ∈ before.map File.text := by
  have member : entry ∈ files := by rw [split]; simp
  obtain ⟨upper, upperMember, rfl⟩ := mem_map.mp (closed entry member parent isParent)
  have upperNormal := allNormal upper upperMember
  have normal := allNormal entry member
  obtain ⟨name, extended⟩ := (parent_eq_some_iff upperNormal normal).mp isParent
  have clean := clean_names normal
  have text := text_eq normal
  rw [extended] at clean text
  have above : sortedPaths upper entry = .lt :=
    sortedPaths_below (clean_names upperNormal) clean (cons_ne_nil _ _) (text_eq upperNormal) text
  rw [split, mem_append, mem_cons] at upperMember
  rcases upperMember with earlier | same | later
  · exact mem_map_of_mem earlier
  · subst same
    rw [sortedPaths_eq_iff.mpr rfl] at above
    cases above
  · rw [split, pairwise_append, pairwise_cons] at sorted
    have ordered := sorted.2.1.1 upper later
    exact absurd ordered (Std.OrientedCmp.not_isLE_of_lt above)

theorem Rooted.fresh_of_split (rooted : Rooted files) {before : List (File T)}
    (split : files = before ++ entry :: after) : entry.text ∉ before.map text := by
  have distinct := rooted.distinct
  rw [split, map_append, map_cons, nodup_append] at distinct
  intro earlier
  exact distinct.2.2 _ earlier _ mem_cons_self rfl

/-- Sorted files with all their parents are inserted one after the other, each after its parent. -/
theorem exists_planted (keeps : List (File T) → Tree A N → Prop) (allNormal : ∀ file ∈ files, Normalized file.text)
    (closed : ∀ file ∈ files, ∀ parent, file.parent = some parent → parent ∈ files.map text)
    (sorted : files.Pairwise fun a b => (sortedPaths a b).isLE = true)
    (initially : keeps [] (withCapacity arena))
    (insert : ∀ before entry after tree, files = before ++ entry :: after → keeps before tree →
      (∀ parent, entry.parent = some parent → parent ∈ before.map text) →
      ∃ next, insertNode arena tree entry = .ok next ∧ next.length = tree.length + 1 ∧
        keeps (before ++ [entry]) next) :
    ∃ tree, files.foldlM (insertNode arena) (withCapacity arena) = .ok tree ∧
      tree.length = files.length ∧ keeps files tree := by
  refine foldlM_progress (fun before tree => tree.length = before.length ∧ keeps before tree) ⟨rfl, initially⟩ ?_
  intro before entry after tree split held
  obtain ⟨next, inserted, length, kept⟩ := insert before entry after tree split held.2
    fun _ => parent_earlier allNormal closed sorted split
  exact ⟨next, inserted, by rw [length, held.1, length_append]; rfl, kept⟩

variable [DecidableEq N] (lawful : arena.Lawful)
include lawful

omit [DecidableEq N] lawful in
/-- A sibling with the name of a file would have its path. -/
theorem Holds.others_fresh (holds : Holds arena trusted files tree) (normal : Normalized entry.text)
    (fresh : entry.text ∉ files.map text) (member : file ∈ files) (known : tree.map file.text = some node)
    (isParent : entry.parent = some file.text) : Tree.others arena tree node entry.fileName = [] := by
  rw [holds.others member known, filter_eq_nil_iff]
  intro kid isKid sameName
  obtain ⟨kidMember, below⟩ := mem_filter.mp isKid
  have sameText := File.text_eq_of_siblings normal (holds.rooted.normal kid kidMember) isParent
    (of_decide_eq_true below) (of_decide_eq_true sameName).symm
  exact fresh (sameText ▸ mem_map_of_mem kidMember)

theorem exists_inserts (tree : Tree A N) (entry : File T) (located : ∀ parent, entry.parent = some parent →
      parent ≠ entry.text ∧ ∃ upper, tree.map parent = some upper ∧ arena.live tree.arena upper) :
    ∃ node next, insertNode arena tree entry = .ok next ∧ Inserts arena tree entry node next := by
  have allocates := lawful.allocates tree.arena entry
  have keepsMap : ∀ path, path ≠ entry.text → (newNode arena tree entry).2.map path = tree.map path :=
    fun _ differs => newNode_map_of_ne differs
  refine ⟨(newNode arena tree entry).1, ?_⟩
  cases isParent : entry.parent with
  | none =>
    refine ⟨(newNode arena tree entry).2, by simp only [Tree.insertNode, isParent], rfl, allocates.fresh,
      newNode_map_self, keepsMap, allocates.live_iff, allocates.holds, allocates.keeps, allocates.childless,
      ?_, fun other live _ => allocates.keepsChildren other live⟩
    rintro other ⟨parent, known, -⟩
    rw [isParent] at known
    cases known
  | some parent =>
    obtain ⟨differs, upper, isUpper, upperLive⟩ := located parent isParent
    have isNow := (keepsMap parent differs).trans isUpper
    have hangs : ∀ other, HangsBelow arena tree entry other ↔
        other = upper ∧ Tree.others arena tree upper entry.fileName = [] := by
      intro other
      simp only [HangsBelow, isParent, Option.some.injEq, existsAndEq, true_and, isUpper]
      grind
    have sameOthers : Tree.others arena (newNode arena tree entry).2 upper entry.fileName =
        Tree.others arena tree upper entry.fileName := by
      unfold Tree.others
      rw [show arena.children (newNode arena tree entry).2.arena upper = arena.children tree.arena upper from
        allocates.keepsChildren upper upperLive]
      refine congrArg _ (filterMap_congr ?_)
      intro child isChild
      exact allocates.keeps child (lawful.childrenLive upperLive isChild)
    have loose : arena.Loose (newNode arena tree entry).2.arena (newNode arena tree entry).1 :=
      lawful.newNode_loose tree.arena entry
    have data : arena.get? (newNode arena tree entry).2.arena (newNode arena tree entry).1 = some entry :=
      allocates.holds
    by_cases free : Tree.others arena tree upper entry.fileName = []
    · have apart : upper ≠ (newNode arena tree entry).1 := fun same => allocates.fresh (same ▸ upperLive)
      have stillLive : arena.live (newNode arena tree entry).2.arena upper :=
        (allocates.live_iff upper).mpr (.inl upperLive)
      obtain ⟨state, appended, appends⟩ := lawful.appends stillLive loose apart
      refine ⟨{ (newNode arena tree entry).2 with arena := state }, ?_, rfl, allocates.fresh, newNode_map_self,
        keepsMap, ?_, ?_, ?_, ?_, ?_, ?_⟩
      · simp only [Tree.insertNode, isParent, addChildToNode, data, isNow, okOr, ok_bind, sameOthers, free,
          isEmpty_nil, if_true, appended]
        rfl
      · exact fun other => (appends.live_iff other).trans (allocates.live_iff other)
      · exact (appends.keeps _ loose.live).trans data
      · exact fun other live =>
          (appends.keeps other ((allocates.live_iff other).mpr (.inl live))).trans (allocates.keeps other live)
      · exact (appends.keepsChildren _ loose.live apart.symm).trans allocates.childless
      · intro other hung
        obtain ⟨rfl, -⟩ := (hangs other).mp hung
        exact appends.parentChildren.trans (congrArg (· ++ _) (allocates.keepsChildren other upperLive))
      · intro other live notHung
        have elsewhere : other ≠ upper := fun same => notHung ((hangs other).mpr ⟨same, free⟩)
        exact (appends.keepsChildren other ((allocates.live_iff other).mpr (.inl live)) elsewhere).trans
          (allocates.keepsChildren other live)
    · refine ⟨(newNode arena tree entry).2, ?_, rfl, allocates.fresh, newNode_map_self, keepsMap,
        allocates.live_iff, allocates.holds, allocates.keeps, allocates.childless,
        fun other hung => absurd ((hangs other).mp hung).2 free, fun other live _ => allocates.keepsChildren other live⟩
      simp only [Tree.insertNode, isParent, addChildToNode, data, isNow, okOr, ok_bind, sameOthers,
        isEmpty_eq_false_iff.mpr free]
      rfl

theorem Holds.insertNode (holds : Holds arena trusted files tree) (normal : Normalized entry.text)
    (fresh : entry.text ∉ files.map text)
    (hasParent : ∀ parent, entry.parent = some parent → parent ∈ files.map text) :
    ∃ next, insertNode arena tree entry = .ok next ∧ next.length = tree.length + 1 ∧
      Holds arena trusted (files ++ [entry]) next := by
  obtain ⟨node, next, inserted, inserts⟩ := exists_inserts lawful tree entry (by
    intro parent isParent
    obtain ⟨upper, member, rfl⟩ := mem_map.mp (hasParent parent isParent)
    obtain ⟨upperNode, isUpper, live, _⟩ := holds.found upper member
    exact ⟨fun same => fresh (same ▸ mem_map_of_mem member), upperNode, isUpper, live⟩)
  have keepsMap : ∀ known ∈ files, next.map known.text = tree.map known.text := by
    intro known member
    exact inserts.keepsMap known.text fun same => fresh (same ▸ mem_map_of_mem member)
  refine ⟨next, inserted, inserts.length, holds.rooted.concat normal fresh hasParent, ?_, ?_, ?_, ?_⟩
  · intro known member
    rcases mem_concat.mp member with old | rfl
    · obtain ⟨other, isOther, live, data⟩ := holds.found known old
      exact ⟨other, (keepsMap known old).trans isOther, (inserts.live_iff other).mpr (.inl live),
        (inserts.keeps other live).trans data⟩
    · exact ⟨node, inserts.isNode, (inserts.live_iff node).mpr (.inr rfl), inserts.data⟩
  · intro path isTrusted unknown
    rw [map_append, mem_append, not_or] at unknown
    rw [inserts.keepsMap path (by simpa using unknown.2)]
    exact holds.absent path isTrusted unknown.1
  · intro other live
    rcases (inserts.live_iff other).mp live with old | rfl
    · obtain ⟨known, member, isOther⟩ := holds.inhabited other old
      exact ⟨known, mem_append_left _ member, (keepsMap known member).trans isOther⟩
    · exact ⟨entry, by simp, inserts.isNode⟩
  · intro known member other isOther
    rcases mem_concat.mp member with old | rfl
    · rw [keepsMap known old] at isOther
      obtain ⟨live, data⟩ := holds.node_of_map old isOther
      have keepsFiles : (arena.children tree.arena other).map (arena.get? next.arena) =
          (kidsOf files known).map some := by
        rw [← holds.children known old other isOther]
        exact map_congr_left fun child isChild => inserts.keeps child (lawful.childrenLive live isChild)
      by_cases below : entry.parent = some known.text
      · have hangs : HangsBelow arena tree entry other :=
          ⟨known.text, below, isOther, holds.others_fresh normal fresh old isOther below⟩
        rw [inserts.hangs other hangs, kidsOf_concat, if_pos below, map_append, map_append, keepsFiles]
        simp [inserts.data]
      · have elsewhere : ¬ HangsBelow arena tree entry other := by
          rintro ⟨parent, isParent, isUpper, -⟩
          obtain ⟨upper, isFile, rfl⟩ := mem_map.mp (hasParent parent isParent)
          rw [(holds.node_of_map isFile isUpper).2] at data
          exact below (Option.some.inj data ▸ isParent)
        rw [inserts.keepsChildren other live elsewhere, kidsOf_concat, if_neg below, append_nil, keepsFiles]
    · rw [inserts.isNode] at isOther
      cases isOther
      rw [inserts.childless, holds.rooted.kidsOf_fresh normal fresh]
      rfl

theorem Rooted.planted (rooted : Rooted files) (sorted : files.Pairwise fun a b => (sortedPaths a b).isLE = true) :
    ∃ tree, files.foldlM (insertNode arena) (withCapacity arena) = .ok tree ∧
      tree.length = files.length ∧ Holds arena (fun _ => True) files tree := by
  refine exists_planted (Holds arena fun _ => True) rooted.normal rooted.closed sorted ?_ ?_
  · exact ⟨⟨by simp, by simp, by simp⟩, by simp, fun _ _ _ => rfl,
      fun node live => absurd live (lawful.empty node), by simp⟩
  · intro before entry after tree split holds hasParent
    have member : entry ∈ files := by rw [split]; simp
    exact holds.insertNode lawful (rooted.normal entry member) (rooted.fresh_of_split split) hasParent

end Insertion

section Walking

variable [DecidableEq N] (lawful : arena.Lawful)
include lawful

theorem Holds.descendants (holds : Holds arena trusted files tree) (member : file ∈ files)
    (known : tree.map file.text = some node) (within : DepthWithin files file depth) :
    (arena.descendants tree.arena node).map (arena.get? tree.arena) = (preorder files depth file).map some := by
  obtain ⟨live, data⟩ := holds.node_of_map member known
  have children := holds.children file member node known
  induction depth generalizing file node with
  | zero =>
    rw [DepthWithin.kidless holds.rooted member within, map_nil, map_eq_nil_iff] at children
    rw [lawful.preorder live, children, preorder]
    simp [data]
  | succ depth ih =>
    rw [lawful.preorder live, preorder, map_cons, map_cons, data, map_flatMap, map_flatMap, flatMap_def, flatMap_def]
    refine congrArg (_ :: ·.flatten) (map_eq_map_of_forall₂ (forall₂_iff_map_eq.mpr children) ?_)
    intro child isChild kid isKid childData
    have childLive := lawful.childrenLive live isChild
    obtain ⟨kidMember, isNode⟩ := holds.map_of_get? childLive childData
    exact ih kidMember isNode (within.of_kid holds.rooted member isKid) childLive childData
      (holds.children kid kidMember child isNode)

end Walking

end Cast.Vfs
