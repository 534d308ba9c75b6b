import Mathlib.Data.List.Basic

/-! Arenas of trees. Nodes are allocated one at a time, hung below another node as its last
child, and removed together with everything below them. What is known about an identifier
is said of live nodes only: an identifier that outlives its node stands for nothing. -/

namespace Cast.Foundation

variable {α A N : Type}

structure TreeArena (α A N : Type) where
  empty : A
  /-- The identifier belongs to a node that is in the arena. -/
  live : A → N → Prop
  newNode : A → α → N × A
  get? : A → N → Option α
  children : A → N → List N
  /-- A node and everything below it, in preorder. -/
  descendants : A → N → List N
  /-- Hang a node below another, after the children that are there; `none` is a panic. -/
  append : A → N → N → Option A
  removeSubtree : A → N → A

namespace TreeArena

variable (arena : TreeArena α A N)

structure Allocates (state : A) (value : α) : Prop where
  fresh : ¬ arena.live state (arena.newNode state value).1
  live_iff : ∀ node, arena.live (arena.newNode state value).2 node ↔
    arena.live state node ∨ node = (arena.newNode state value).1
  holds : arena.get? (arena.newNode state value).2 (arena.newNode state value).1 = some value
  keeps : ∀ node, arena.live state node → arena.get? (arena.newNode state value).2 node = arena.get? state node
  childless : arena.children (arena.newNode state value).2 (arena.newNode state value).1 = []
  keepsChildren : ∀ node, arena.live state node →
    arena.children (arena.newNode state value).2 node = arena.children state node

/-- A node that hangs nowhere and has nothing below it. -/
structure Loose (state : A) (node : N) : Prop where
  live : arena.live state node
  childless : arena.children state node = []
  unhung : ∀ other, arena.live state other → node ∉ arena.children state other

structure Appends (state : A) (parent node : N) (next : A) : Prop where
  live_iff : ∀ other, arena.live next other ↔ arena.live state other
  keeps : ∀ other, arena.live state other → arena.get? next other = arena.get? state other
  parentChildren : arena.children next parent = arena.children state parent ++ [node]
  keepsChildren : ∀ other, arena.live state other → other ≠ parent →
    arena.children next other = arena.children state other

structure Removes [DecidableEq N] (state : A) (node : N) : Prop where
  live_iff : ∀ other, arena.live (arena.removeSubtree state node) other ↔
    arena.live state other ∧ other ∉ arena.descendants state node
  keeps : ∀ other, arena.live (arena.removeSubtree state node) other →
    arena.get? (arena.removeSubtree state node) other = arena.get? state other
  keepsChildren : ∀ other, arena.live (arena.removeSubtree state node) other →
    arena.children (arena.removeSubtree state node) other = (arena.children state other).filter (· ≠ node)

structure Lawful [DecidableEq N] : Prop where
  empty : ∀ node, ¬ arena.live arena.empty node
  value : ∀ {state node}, arena.live state node → (arena.get? state node).isSome = true
  childrenLive : ∀ {state node child}, arena.live state node →
    child ∈ arena.children state node → arena.live state child
  preorder : ∀ {state node}, arena.live state node → arena.descendants state node =
    node :: (arena.children state node).flatMap (arena.descendants state)
  allocates : ∀ state value, arena.Allocates state value
  appends : ∀ {state parent node}, arena.live state parent → arena.Loose state node →
    parent ≠ node → ∃ next, arena.append state parent node = some next ∧ arena.Appends state parent node next
  removes : ∀ {state node}, arena.live state node → arena.Removes state node

variable {arena}

theorem Lawful.newNode_loose [DecidableEq N] (lawful : arena.Lawful) (state : A) (value : α) :
    arena.Loose (arena.newNode state value).2 (arena.newNode state value).1 := by
  have allocates := lawful.allocates state value
  refine ⟨(allocates.live_iff _).mpr (.inr rfl), allocates.childless, ?_⟩
  intro other live hung
  rcases (allocates.live_iff other).mp live with old | same
  · rw [allocates.keepsChildren other old] at hung
    exact allocates.fresh (lawful.childrenLive old hung)
  · subst same
    rw [allocates.childless] at hung
    cases hung

theorem Lawful.descendants_live [DecidableEq N] (lawful : arena.Lawful) {state : A} {node : N}
    (live : arena.live state node) : ∀ other ∈ arena.descendants state node, arena.live state other := by
  generalize isLength : (arena.descendants state node).length = length
  induction length using Nat.strongRecOn generalizing node with
  | ind length ih =>
    rw [lawful.preorder live] at isLength ⊢
    intro other isOther
    rcases List.mem_cons.mp isOther with same | further
    · exact same ▸ live
    · obtain ⟨child, isChild, below⟩ := List.mem_flatMap.mp further
      have part := (List.sublist_flatten_of_mem
        (List.mem_map_of_mem isChild : arena.descendants state child ∈ _)).length_le
      rw [← List.flatMap_def] at part
      rw [List.length_cons] at isLength
      exact ih _ (by omega) (lawful.childrenLive live isChild) rfl other below

end TreeArena

end Cast.Foundation
