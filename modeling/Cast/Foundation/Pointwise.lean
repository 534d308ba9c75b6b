import Mathlib.Data.List.Forall2

/-! Lists related element by element. -/

namespace Cast.Foundation

open List

variable {α β : Type} {related : α → β → Prop} {left : List α} {right : List β}

theorem forall₂_iff_map_eq {get : α → Option β} :
    Forall₂ (fun element value => get element = some value) left right ↔ left.map get = right.map some := by
  rw [← forall₂_eq_eq_eq, forall₂_map_left_iff, forall₂_map_right_iff]

theorem exists_forall₂ (total : ∀ element ∈ left, ∃ value, related element value) :
    ∃ right, Forall₂ related left right := by
  induction left with
  | nil => exact ⟨[], .nil⟩
  | cons element left ih =>
    obtain ⟨value, relates⟩ := total element mem_cons_self
    obtain ⟨right, rest⟩ := ih fun other isOther => total other (mem_cons_of_mem _ isOther)
    exact ⟨value :: right, .cons relates rest⟩

section

variable (pointwise : Forall₂ related left right)
include pointwise

theorem forall₂_getElem? {position : Nat} {element : α}
    (found : left[position]? = some element) : ∃ value, right[position]? = some value ∧ related element value := by
  induction pointwise generalizing position with
  | nil => cases found
  | cons here _ ih =>
    cases position with
    | zero =>
      cases found
      exact ⟨_, rfl, here⟩
    | succ position => exact ih found

theorem exists_right_of_mem {element : α} (member : element ∈ left) : ∃ value ∈ right, related element value := by
  obtain ⟨position, found⟩ := mem_iff_getElem?.mp member
  obtain ⟨value, isValue, relates⟩ := forall₂_getElem? pointwise found
  exact ⟨value, mem_of_getElem? isValue, relates⟩

theorem exists_left_of_mem {value : β} (member : value ∈ right) : ∃ element ∈ left, related element value :=
  exists_right_of_mem pointwise.flip member

theorem forall₂_imp_mem {implied : α → β → Prop}
    (implies : ∀ element ∈ left, ∀ value ∈ right, related element value → implied element value) :
    Forall₂ implied left right := by
  obtain ⟨sameLength, relates⟩ := forall₂_iff_zip.mp pointwise
  refine forall₂_iff_zip.mpr ⟨sameLength, fun paired => ?_⟩
  obtain ⟨isElement, isValue⟩ := of_mem_zip paired
  exact implies _ isElement _ isValue (relates paired)

theorem map_eq_map_of_forall₂ {γ : Type} {first : α → γ} {second : β → γ}
    (agree : ∀ element ∈ left, ∀ value ∈ right, related element value → first element = second value) :
    left.map first = right.map second := by
  rw [← forall₂_eq_eq_eq, forall₂_map_left_iff, forall₂_map_right_iff]
  exact forall₂_imp_mem pointwise agree

end

theorem exists_split_left {before after : List β} {value : β}
    (pointwise : Forall₂ related left (before ++ value :: after)) :
    ∃ leftBefore element leftAfter, left = leftBefore ++ element :: leftAfter ∧
      Forall₂ related leftBefore before ∧ related element value := by
  obtain ⟨element, leftAfter, relates, _, rest⟩ :=
    forall₂_cons_right_iff.mp (forall₂_drop_append _ _ _ pointwise)
  exact ⟨_, element, leftAfter, by rw [← rest, take_append_drop], forall₂_take_append _ _ _ pointwise, relates⟩

theorem pairwise_right {ordered : α → α → Prop} {otherOrdered : β → β → Prop}
    (pointwise : Forall₂ related left right) (pairwise : left.Pairwise ordered)
    (carries : ∀ first ∈ left, ∀ second ∈ left, ∀ value other, related first value →
      related second other → ordered first second → otherOrdered value other) :
    right.Pairwise otherOrdered := by
  obtain ⟨sameLength, relates⟩ := forall₂_iff_get.mp pointwise
  refine pairwise_iff_getElem.mpr fun one two oneBound twoBound before => ?_
  rw [← sameLength] at oneBound twoBound
  exact carries _ (getElem_mem _) _ (getElem_mem _) _ _ (relates one oneBound _) (relates two twoBound _)
    (pairwise_iff_getElem.mp pairwise one two oneBound twoBound before)

end Cast.Foundation
