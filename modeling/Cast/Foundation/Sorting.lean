import Mathlib.Data.List.Sort

/-! Sorting by a comparison. A sorted list is determined by its elements as soon as the
comparison tells them apart. -/

namespace Cast.Foundation

variable {α : Type} {compared : α → α → Ordering} [Std.TransCmp compared]

theorem sorted_insertionSort (list : List α) :
    (list.insertionSort fun left right => (compared left right).isLE).Pairwise fun left right =>
      (compared left right).isLE = true := by
  have transitive : IsTrans α fun left right => (compared left right).isLE = true :=
    ⟨fun _ _ _ first second => Std.TransCmp.isLE_trans first second⟩
  have total : Std.Total fun left right : α => (compared left right).isLE = true := by
    refine ⟨fun left right => ?_⟩
    cases ordered : (compared left right).isLE with
    | true => exact .inl rfl
    | false =>
      have above := Std.OrientedCmp.lt_of_not_isLE (by simp [ordered] : ¬ (compared left right).isLE)
      exact .inr (by rw [above]; rfl)
  exact List.pairwise_insertionSort _ list

theorem eq_of_perm_of_sorted {first second : List α} (permuted : first.Perm second)
    (apart : ∀ left ∈ first, ∀ right ∈ first, compared left right = .eq → left = right)
    (sorted : first.Pairwise fun left right => (compared left right).isLE = true)
    (otherSorted : second.Pairwise fun left right => (compared left right).isLE = true) :
    first = second := by
  refine permuted.eq_of_pairwise ?_ sorted otherSorted
  intro left right leftMember rightMember before after
  exact apart left leftMember right (permuted.mem_iff.mpr rightMember) (Std.OrientedCmp.isLE_antisymm before after)

end Cast.Foundation
