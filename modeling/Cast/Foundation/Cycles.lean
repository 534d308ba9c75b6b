import Mathlib.Data.List.Chain

/-! Cycles of a relation. A search for cycles finishes nodes one after another, each after all
the nodes its edges lead to; the nodes it has finished are then free of cycles. A node that it
meets again on its current path closes a cycle. -/

namespace Cast.Foundation

open Relation

variable {α β : Type} {edge : α → α → Prop}

def Acyclic (edge : α → α → Prop) : Prop := ∀ node, ¬ TransGen edge node node

/-- A walk along at least one edge that ends where it starts. -/
structure IsCycle (edge : α → α → Prop) (walk : List α) : Prop where
  linked : walk.IsChain edge
  closes : ∃ node inner, walk = node :: inner ++ [node]

theorem transGen_of_isChain {first last : α} {inner : List α}
    (linked : (first :: inner ++ [last]).IsChain edge) : TransGen edge first last := by
  induction inner generalizing first with
  | nil => exact .single (List.isChain_cons_cons.mp linked).1
  | cons next inner ih =>
    obtain ⟨here, further⟩ := List.isChain_cons_cons.mp linked
    exact .head here (ih further)

theorem IsCycle.not_acyclic {walk : List α} (cycle : IsCycle edge walk) : ¬ Acyclic edge := by
  obtain ⟨node, inner, rfl⟩ := cycle.closes
  exact fun free => free node (transGen_of_isChain cycle.linked)

/-- An edge from the end of a path back onto it closes a cycle. -/
theorem isCycle_of_back_edge [DecidableEq α] {path : List α} {next : α} (onPath : next ∈ path)
    (linked : (path ++ [next]).IsChain edge) :
    IsCycle edge (path.dropWhile (fun node => node ≠ next) ++ [next]) := by
  induction path with
  | nil => exact absurd onPath List.not_mem_nil
  | cons first path ih =>
    by_cases reached : first = next
    · subst reached
      rw [List.dropWhile_cons_of_neg (by simp)]
      exact ⟨linked, first, path, rfl⟩
    · rw [List.dropWhile_cons_of_pos (by simpa using reached)]
      have later : next ∈ path := (List.mem_cons.mp onPath).resolve_left (Ne.symm reached)
      exact ih later (List.isChain_of_isChain_cons linked)

/-- A relation that another one follows along a map is acyclic with it. -/
theorem Acyclic.of_map {other : β → β → Prop} (free : Acyclic other) (image : α → β)
    (follows : ∀ node next, edge node next → other (image node) (image next)) : Acyclic edge := by
  intro node around
  exact free (image node) (around.lift image follows)

/-- The nodes a search has finished: their edges lead to finished nodes, and none of them lies
on a cycle. -/
structure Settled (edge : α → α → Prop) (finished : α → Prop) : Prop where
  closed : ∀ node next, finished node → edge node next → finished next
  free : ∀ node, finished node → ¬ TransGen edge node node

namespace Settled

variable {finished : α → Prop} {node : α}

theorem none : Settled edge fun _ => False := ⟨fun _ _ absent _ => absent, fun _ absent => absent.elim⟩

variable (settled : Settled edge finished)
include settled

theorem reaches {next : α} (start : finished node) (path : ReflTransGen edge node next) : finished next := by
  induction path with
  | refl => exact start
  | tail _ step ih => exact settled.closed _ _ ih step

theorem finish (fresh : ¬ finished node) (nexts : ∀ next, edge node next → finished next) :
    Settled edge fun other => other = node ∨ finished other := by
  constructor
  · intro other next done step
    obtain rfl | done := done
    · exact .inr (nexts next step)
    · exact .inr (settled.closed other next done step)
  · intro other done around
    obtain rfl | done := done
    · obtain ⟨next, step, back⟩ := TransGen.head'_iff.mp around
      exact fresh (settled.reaches (nexts next step) back)
    · exact settled.free other done around

theorem congr {others : α → Prop} (same : ∀ other, finished other ↔ others other) : Settled edge others := by
  rwa [show others = finished from funext fun other => propext (same other).symm]

/-- When every node with an edge is finished there are no cycles at all. -/
theorem acyclic (covered : ∀ other next, edge other next → finished other) : Acyclic edge := by
  intro other around
  obtain ⟨next, step, -⟩ := TransGen.head'_iff.mp around
  exact settled.free other (covered other next step) around

end Settled

end Cast.Foundation
