import Cast.Foundation.TreeArena

/-! An arena that is a table of values and children. It shows that the laws of an arena can be met,
and it computes. -/

namespace Cast.Foundation

open List

variable {α : Type}

/-- Values and children by node. Children lie deeper than the nodes they hang below, and a node
hangs below one other at most. -/
structure ForestState (α : Type) where
  next : Nat
  value : Nat → Option α
  children : Nat → List Nat
  depth : Nat → Nat
  deepest : Nat
  fresh : value next = none ∧ ∀ node, next < node → value node = none
  living : ∀ {node child}, child ∈ children node → (value node).isSome = true ∧ (value child).isSome = true
  deeper : ∀ {node child}, child ∈ children node → depth node < depth child
  within : ∀ node, depth node ≤ deepest
  oneParent : ∀ {node other child}, child ∈ children node → child ∈ children other → node = other

/-- A node and what is below it, as far as the fuel lasts. -/
def preorderOf (children : Nat → List Nat) : Nat → Nat → List Nat
  | 0, node => [node]
  | fuel + 1, node => node :: (children node).flatMap (preorderOf children fuel)

namespace ForestState

variable {state : ForestState α} {node parent child other fuel more : Nat}

def descendants (state : ForestState α) : Nat → List Nat := preorderOf state.children state.deepest

def empty : ForestState α where
  next := 0
  value _ := none
  children _ := []
  depth _ := 0
  deepest := 0
  fresh := ⟨rfl, fun _ _ => rfl⟩
  living member := absurd member not_mem_nil
  deeper member := absurd member not_mem_nil
  within _ := Nat.le_refl _
  oneParent member := absurd member not_mem_nil

def newNode (state : ForestState α) (value : α) : ForestState α where
  next := state.next + 1
  value node := if node = state.next then some value else state.value node
  children := state.children
  depth := state.depth
  deepest := state.deepest
  fresh := by
    have later : ∀ node, state.next < node → (if node = state.next then some value else state.value node) = none := by
      intro node above
      rw [if_neg (Nat.ne_of_gt above), state.fresh.2 node above]
    exact ⟨later _ (Nat.lt_succ_self _), fun node above => later node (Nat.lt_of_succ_lt above)⟩
  living := by
    intro node child member
    obtain ⟨isNode, isChild⟩ := state.living member
    constructor <;> split <;> simp_all
  deeper := state.deeper
  within := state.within
  oneParent := state.oneParent

/-- A leaf is hung below another node, after its children. -/
def append (state : ForestState α) (parent node : Nat) : Option (ForestState α) :=
  if fits : parent ≠ node ∧ (state.value parent).isSome = true ∧ (state.value node).isSome = true ∧
      state.children node = [] then
    have mem_iff : ∀ {other child}, child ∈ (state.children other).filter (· ≠ node) ++
        (if other = parent then [node] else []) ↔
        child ∈ state.children other ∧ child ≠ node ∨ other = parent ∧ child = node := by
      intro other child
      by_cases isParent : other = parent <;> simp [isParent]
    some { state with
      children := fun other => (state.children other).filter (· ≠ node) ++ (if other = parent then [node] else [])
      depth := fun other => if other = node then state.depth parent + 1 else state.depth other
      deepest := state.deepest + 1
      living := by
        intro other child member
        rcases mem_iff.mp member with ⟨old, _⟩ | ⟨rfl, rfl⟩
        · exact state.living old
        · exact ⟨fits.2.1, fits.2.2.1⟩
      deeper := by
        intro other child member
        rcases mem_iff.mp member with ⟨old, isOther⟩ | ⟨rfl, rfl⟩
        · have upper : other ≠ node := by
            rintro rfl
            simp [fits.2.2.2] at old
          rw [if_neg upper, if_neg isOther]
          exact state.deeper old
        · rw [if_neg fits.1, if_pos rfl]
          exact Nat.lt_succ_self _
      within := by
        intro other
        split
        · exact Nat.succ_le_succ (state.within parent)
        · exact Nat.le_succ_of_le (state.within other)
      oneParent := by
        intro first second child member again
        rcases mem_iff.mp member with ⟨old, isOther⟩ | ⟨rfl, rfl⟩ <;>
          rcases mem_iff.mp again with ⟨alsoOld, alsoOther⟩ | ⟨rfl, same⟩
        · exact state.oneParent old alsoOld
        · exact absurd same isOther
        · exact absurd rfl alsoOther
        · rfl }
  else none

theorem leaf (deep : state.deepest ≤ state.depth node) : state.children node = [] := by
  refine eq_nil_iff_forall_not_mem.mpr fun child member => ?_
  have below := state.deeper member
  have within := state.within child
  omega

theorem preorderOf_eq (enough : state.deepest ≤ fuel + state.depth node)
    (alsoEnough : state.deepest ≤ more + state.depth node) :
    preorderOf state.children fuel node = preorderOf state.children more node := by
  induction fuel generalizing more node with
  | zero =>
    have bare : state.children node = [] := leaf (by omega)
    cases more <;> simp [preorderOf, bare]
  | succ fuel ih =>
    cases more with
    | zero =>
      have bare : state.children node = [] := leaf (by omega)
      simp [preorderOf, bare]
    | succ more =>
      refine congrArg (node :: ·) (flatMap_congr ?_)
      intro child member
      have below := state.deeper member
      exact ih (by omega) (by omega)

theorem descendants_eq (state : ForestState α) (node : Nat) :
    state.descendants node = node :: (state.children node).flatMap state.descendants :=
  preorderOf_eq (Nat.le_add_right _ _) (by omega : state.deepest ≤ state.deepest + 1 + state.depth node)

theorem mem_preorderOf {children : Nat → List Nat} (member : other ∈ preorderOf children fuel node) :
    other = node ∨ ∃ upper ∈ preorderOf children fuel node, other ∈ children upper := by
  induction fuel generalizing node with
  | zero => exact .inl (mem_singleton.mp member)
  | succ fuel ih =>
    rcases mem_cons.mp member with same | further
    · exact .inl same
    · obtain ⟨child, isChild, below⟩ := mem_flatMap.mp further
      rcases ih below with rfl | ⟨upper, isUpper, hung⟩
      · exact .inr ⟨node, mem_cons_self, isChild⟩
      · exact .inr ⟨upper, mem_cons_of_mem _ (mem_flatMap.mpr ⟨child, isChild, isUpper⟩), hung⟩

def removeSubtree (state : ForestState α) (unwanted : Nat) : ForestState α :=
  have mem_iff : ∀ {node child}, child ∈ (if node ∈ state.descendants unwanted then []
      else (state.children node).filter (· ≠ unwanted)) ↔
      node ∉ state.descendants unwanted ∧ child ∈ state.children node ∧ child ≠ unwanted := by
    intro node child
    by_cases gone : node ∈ state.descendants unwanted <;> simp [gone]
  { state with
    value := fun node => if node ∈ state.descendants unwanted then none else state.value node
    children := fun node => if node ∈ state.descendants unwanted then []
      else (state.children node).filter (· ≠ unwanted)
    fresh := by
      refine ⟨?_, fun node above => ?_⟩ <;> split <;> simp [state.fresh.1, state.fresh.2, *]
    living := by
      intro node child member
      obtain ⟨left, isChild, differs⟩ := mem_iff.mp member
      have childLeft : child ∉ state.descendants unwanted := by
        intro gone
        -- what hangs below a removed node hangs nowhere else
        rcases mem_preorderOf gone with same | ⟨upper, isUpper, hung⟩
        · exact differs same
        · exact left (state.oneParent isChild hung ▸ isUpper)
      rw [if_neg left, if_neg childLeft]
      exact state.living isChild
    deeper := fun member => state.deeper (mem_iff.mp member).2.1
    oneParent := fun member again => state.oneParent (mem_iff.mp member).2.1 (mem_iff.mp again).2.1 }

end ForestState

open ForestState in
def forestArena (α : Type) : TreeArena α (ForestState α) Nat where
  empty := ForestState.empty
  live state node := (state.value node).isSome = true
  newNode state value := (state.next, state.newNode value)
  get? := ForestState.value
  children := ForestState.children
  descendants := ForestState.descendants
  append := ForestState.append
  removeSubtree := ForestState.removeSubtree

theorem forestArena_lawful (α : Type) : (forestArena α).Lawful where
  empty _ live := by cases live
  value live := live
  childrenLive _ member := (ForestState.living _ member).2
  preorder _ := ForestState.descendants_eq _ _
  allocates state value := by
    have older : ∀ node, (state.value node).isSome = true → node ≠ state.next := by
      rintro node live rfl
      rw [state.fresh.1] at live
      cases live
    refine ⟨fun live => older _ live rfl, ?_, if_pos rfl, ?_, ?_, fun _ _ => rfl⟩
    · intro node
      change (if node = state.next then some value else state.value node).isSome = true ↔ _ ∨ node = state.next
      by_cases same : node = state.next <;> simp [same, forestArena]
    · exact fun node live => if_neg (older node live)
    · refine eq_nil_iff_forall_not_mem.mpr fun child member => ?_
      exact older _ (state.living member).1 rfl
  appends := by
    intro state parent node live loose apart
    have unhung : ∀ other, (state.children other).filter (· ≠ node) = state.children other := by
      intro other
      refine filter_eq_self.mpr fun child member => decide_eq_true ?_
      rintro rfl
      exact loose.unhung other (state.living member).1 member
    refine ⟨_, dif_pos ⟨apart, live, loose.live, loose.childless⟩, fun _ => Iff.rfl, fun _ _ => rfl, ?_, ?_⟩
    · change (state.children parent).filter (· ≠ node) ++ (if parent = parent then [node] else []) = _
      rw [unhung, if_pos rfl]
      rfl
    · intro other _ differs
      change (state.children other).filter (· ≠ node) ++ (if other = parent then [node] else []) = _
      rw [unhung, if_neg differs, append_nil]
      rfl
  removes := by
    intro state node _
    have left : ∀ other, (forestArena α).live ((forestArena α).removeSubtree state node) other ↔
        (forestArena α).live state other ∧ other ∉ state.descendants node := by
      intro other
      change (if other ∈ state.descendants node then none else state.value other).isSome = true ↔ _
      by_cases gone : other ∈ state.descendants node <;> simp [gone, forestArena]
    exact ⟨left, fun other live => if_neg ((left other).mp live).2, fun other live => if_neg ((left other).mp live).2⟩

end Cast.Foundation
