import Mathlib.Data.List.Flatten
import Cast.Vfs.PlacementProperties

/-! The two views of a tree. What its iterator yields and what its structured view holds are
functions of the files in it. -/

namespace Cast.Vfs

open Foundation List Vfs.Tree

variable {T : Type} {files : List (File T)} {file : File T} {depth : Nat}

mutual

def Element.flatten : Element T → List T
  | .directory _ inner children => inner :: flattenAll children
  | .child _ inner => [inner]

def Element.flattenAll : List (Element T) → List T
  | [] => []
  | element :: rest => element.flatten ++ flattenAll rest

end

theorem Element.flattenAll_eq_flatMap (elements : List (Element T)) :
    flattenAll elements = elements.flatMap Element.flatten := by
  induction elements with
  | nil => rfl
  | cons first rest ih => rw [flattenAll, ih, flatMap_cons]

/-- The element of a file, with the kids of directories as deep as it is asked for. -/
def elementOf (files : List (File T)) : Nat → File T → Element T
  | 0, file =>
    if file.kind.isDirectory then .directory file.fileName file.inner []
    else .child file.fileName file.inner
  | depth + 1, file =>
    if file.kind.isDirectory then
      .directory file.fileName file.inner ((kidsOf files file).map (elementOf files depth))
    else .child file.fileName file.inner

/-- A file and the files below it that a walk through directories reaches. -/
def shown (files : List (File T)) : Nat → File T → List (File T)
  | 0, file => [file]
  | depth + 1, file =>
    file :: if file.kind.isDirectory then (kidsOf files file).flatMap (shown files depth) else []

variable {lower : File T}

theorem flatten_elementOf : (elementOf files depth file).flatten = (shown files depth file).map File.inner := by
  induction depth generalizing file with
  | zero =>
    rw [elementOf, shown]
    cases file.kind.isDirectory <;> rfl
  | succ depth ih =>
    rw [elementOf, shown]
    cases file.kind.isDirectory with
    | true =>
      rw [if_pos rfl, if_pos rfl, Element.flatten, Element.flattenAll_eq_flatMap, map_cons, flatMap_map, map_flatMap]
      refine congrArg (List.cons _) (flatMap_congr ?_)
      intro kid isKid
      exact ih
    | false => rfl

theorem shown_sublist : (shown files depth file).Sublist (preorder files depth file) := by
  induction depth generalizing file with
  | zero => exact Sublist.refl _
  | succ depth ih =>
    rw [shown, preorder]
    refine Sublist.cons_cons file ?_
    cases file.kind.isDirectory with
    | true =>
      rw [if_pos rfl]
      exact Sublist.flatMap_right _ fun kid _ => ih
    | false => exact nil_sublist _

/-- Every file above is a directory. -/
def UnderDirectories (files : List (File T)) (lower : File T) : Prop :=
  ∀ upper ∈ files, upper.names <+: lower.names → upper.names ≠ lower.names → upper.kind.isDirectory = true

theorem Rooted.mem_shown (rooted : Rooted files) (member : file ∈ files)
    (within : DepthWithin files file depth) (lowerMember : lower ∈ files)
    (below : file.names <+: lower.names) (under : UnderDirectories files lower) :
    lower ∈ shown files depth file := by
  have listed := (rooted.mem_preorder member within _).mpr ⟨lowerMember, below⟩
  induction depth generalizing file with
  | zero => exact listed
  | succ depth ih =>
    rw [preorder, mem_cons, mem_flatMap] at listed
    rw [shown, mem_cons]
    rcases listed with same | ⟨kid, isKid, further⟩
    · exact .inl same
    · have kidMember := ((rooted.mem_kidsOf member).mp isKid).1
      have kidWithin := within.of_kid rooted member isKid
      have belowKid := ((rooted.mem_preorder kidMember kidWithin _).mp further).2
      have proper := ((rooted.strictlyBelow_iff member lowerMember).mpr ⟨kid, isKid, belowKid⟩).2
      rw [if_pos (under file member below proper), mem_flatMap]
      exact .inr ⟨kid, isKid, ih kidMember kidWithin belowKid further⟩

/-- Nothing hangs below a file that is not a directory. -/
def OnlyDirectoriesHold (files : List (File T)) : Prop :=
  ∀ file ∈ files, file.kind.isDirectory = false → kidsOf files file = []

theorem OnlyDirectoriesHold.under (only : OnlyDirectoriesHold files) (rooted : Rooted files)
    (member : lower ∈ files) : UnderDirectories files lower := by
  intro upper upperMember above proper
  obtain ⟨kid, isKid, _⟩ := (rooted.strictlyBelow_iff upperMember member).mp ⟨above, proper⟩
  cases isDirectory : upper.kind.isDirectory with
  | true => rfl
  | false =>
    rw [only upper upperMember isDirectory] at isKid
    cases isKid

section Views

variable {A N : Type} {arena : TreeArena (File T) A N} {trusted : AStr → Prop} {tree : Tree A N} {node : N}

theorem collect_of_map_eq {state : A} {nodes : List N} (same : nodes.map (arena.get? state) = files.map some) :
    Tree.collect arena state nodes = files.map File.inner := by
  induction forall₂_iff_map_eq.mpr same with
  | nil => rfl
  | cons first rest ih => simp only [Tree.collect, first, ih (forall₂_iff_map_eq.mp rest), map_cons]

theorem exists_depthWithin (files : List (File T)) (file : File T) : ∃ depth, DepthWithin files file depth := by
  refine ⟨(files.map fun lower => lower.names.length).sum, ?_⟩
  intro lower member _
  have listed : lower.names.length ∈ files.map fun lower => lower.names.length := mem_map_of_mem member
  exact (le_sum_of_mem listed).trans (Nat.le_add_left _ _)

theorem Rooted.root (rooted : Rooted files) (filled : files ≠ []) :
    ∃ root ∈ files, root.names = [] ∧ root.text = ['/'] := by
  obtain ⟨file, rest, rfl⟩ := exists_cons_of_ne_nil filled
  obtain ⟨root, member, isRoot⟩ := rooted.ancestor mem_cons_self ( nil_prefix)
  refine ⟨root, member, isRoot, ?_⟩
  rw [File.text_eq (rooted.normal root member), isRoot, render_nil]

/-- When only directories hold anything, the structured view holds everything. -/
theorem OnlyDirectoriesHold.seen_eq (only : OnlyDirectoriesHold files) (rooted : Rooted files)
    {listed seen : List (File T)} (permuted : listed.Perm files) (part : seen.Sublist listed)
    (all : ∀ lower ∈ files, UnderDirectories files lower → lower ∈ seen) : seen = listed := by
  have covers : listed ⊆ seen := by
    intro lower member
    have isFile := permuted.mem_iff.mp member
    exact all lower isFile (only.under rooted isFile)
  exact part.eq_of_length_le (subperm_of_subset (permuted.nodup_iff.mpr rooted.nodup) covers).length_le

variable [DecidableEq N] (lawful : arena.Lawful)
include lawful

/-- The structured view below a node, once it may go as deep as the files do. -/
theorem Holds.structuredChildren (holds : Holds arena trusted files tree) (member : file ∈ files)
    (known : tree.map file.text = some node) (within : DepthWithin files file depth) {fuel : Nat}
    (enough : depth < fuel) :
    structuredChildren arena tree fuel node = some (elementOf files depth file) := by
  obtain ⟨live, data⟩ := holds.node_of_map member known
  have children := holds.children file member node known
  induction depth generalizing file node fuel with
  | zero =>
    obtain ⟨fuel, rfl⟩ := Nat.exists_eq_add_of_lt enough
    rw [DepthWithin.kidless holds.rooted member within, map_nil, map_eq_nil_iff] at children
    rw [Nat.zero_add, structuredChildren, data, elementOf, children]
    cases isDirectory : file.kind.isDirectory <;> simp [isDirectory]
  | succ depth ih =>
    obtain ⟨fuel, rfl⟩ := Nat.exists_eq_add_of_lt (Nat.zero_lt_of_lt enough)
    rw [Nat.zero_add] at enough ⊢
    have agree : ∀ child ∈ arena.children tree.arena node, ∀ kid ∈ kidsOf files file,
        arena.get? tree.arena child = some kid →
        structuredChildren arena tree fuel child = some (elementOf files depth kid) := by
      intro child isChild kid isKid childData
      have childLive := lawful.childrenLive live isChild
      obtain ⟨kidMember, isNode⟩ := holds.map_of_get? childLive childData
      exact ih kidMember isNode (within.of_kid holds.rooted member isKid) (by omega) childLive
        childData (holds.children kid kidMember child isNode)
    have listed : (arena.children tree.arena node).mapM (structuredChildren arena tree fuel) =
        some ((kidsOf files file).map (elementOf files depth)) := by
      rw [← Function.id_comp (structuredChildren arena tree fuel), ← mapM_map,
        map_eq_map_of_forall₂ (forall₂_iff_map_eq.mpr children) agree, mapM_map]
      exact mapM_pure
    rw [structuredChildren, data, elementOf]
    cases isDirectory : file.kind.isDirectory with
    | true => simp [isDirectory, listed]
    | false => simp [isDirectory]

/-- The iterator yields every file once, from the top down; the structured view holds of
these the ones that have only directories above them, in the same order. -/
theorem Holds.views (holds : Holds arena trusted files tree) (rootTrusted : trusted ['/']) :
    ∃ listed seen : List (File T), listed.Perm files ∧ TopDown listed ∧
      Tree.iter arena tree = listed.map File.inner ∧ seen.Sublist listed ∧
      (∀ lower ∈ files, UnderDirectories files lower → lower ∈ seen) ∧
      ∃ view depth, (∀ fuel, depth < fuel → Tree.structured arena tree fuel = some view) ∧
        view.elim [] Element.flatten = seen.map File.inner := by
  by_cases filled : files = []
  · subst filled
    have absent := holds.absent ['/'] rootTrusted (by simp)
    refine ⟨[], [], List.Perm.refl _, List.Pairwise.nil, ?_, Sublist.refl _, by simp, none, 0, ?_, rfl⟩
    · simp only [Tree.iter, absent, map_nil]
    · intro fuel _
      simp only [Tree.structured, absent]
  · obtain ⟨root, member, isRoot, text⟩ := holds.rooted.root filled
    obtain ⟨depth, within⟩ := exists_depthWithin files root
    obtain ⟨node, known, live, data⟩ := holds.found root member
    have isNode : tree.map ['/'] = some node := text ▸ known
    refine ⟨preorder files depth root, shown files depth root, holds.rooted.preorder_perm member within isRoot,
      holds.rooted.preorder_ordered member within, ?_, shown_sublist, ?_,
      some (elementOf files depth root), depth, ?_, flatten_elementOf⟩
    · simp only [Tree.iter, isNode]
      exact collect_of_map_eq (holds.descendants lawful member known within)
    · intro lower lowerMember under
      refine holds.rooted.mem_shown member within lowerMember ?_ under
      rw [isRoot]
      exact nil_prefix
    · intro fuel enough
      simp only [Tree.structured, isNode, holds.structuredChildren lawful member known within enough, Option.map_some]

end Views

end Cast.Vfs
