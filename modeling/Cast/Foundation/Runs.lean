import Mathlib.Data.List.Chain

/-! Finite runs of a step relation, as lists whose consecutive states are
related. What one step establishes is carried here to any two positions of a
run, and a measure that every step decreases bounds its length. -/

namespace Cast.Foundation

variable {State : Type} {step : State → State → Prop} {states : List State} {before after : State}
  {index : Nat} {measure : State → Nat}

section

variable (run : states.IsChain step)
include run

theorem run_step (atBefore : states[index]? = some before) (atAfter : states[index + 1]? = some after) : step before after := by
  obtain ⟨_, rfl⟩ := List.getElem?_eq_some_iff.mp atBefore
  obtain ⟨bound, rfl⟩ := List.getElem?_eq_some_iff.mp atAfter
  exact List.isChain_iff_getElem.mp run index bound

theorem run_step_into (atAfter : states[index + 1]? = some after) :
    ∃ before, states[index]? = some before ∧ step before after := by
  obtain ⟨bound, _⟩ := List.getElem?_eq_some_iff.mp atAfter
  have atBefore := List.getElem?_eq_getElem (Nat.lt_of_succ_lt bound)
  exact ⟨_, atBefore, run_step run atBefore atAfter⟩

/-- A transitive relation established by every step holds between any two
positions of a run. -/
theorem run_related (relation : State → State → Prop)
    (establishes : ∀ {before after}, step before after → relation before after)
    (composes : ∀ {first second third}, relation first second → relation second third → relation first third)
    {earlier later : Nat} (order : earlier < later)
    (atBefore : states[earlier]? = some before) (atAfter : states[later]? = some after) :
    relation before after := by
  induction later generalizing after with
  | zero => omega
  | succ later ih =>
    obtain ⟨middle, atMiddle, stepped⟩ := run_step_into run atAfter
    have last := establishes stepped
    rcases Nat.lt_succ_iff_lt_or_eq.mp order with before | rfl
    · exact composes (ih before atMiddle) last
    · rw [atBefore] at atMiddle
      cases atMiddle
      exact last

/-- A property that every step preserves holds from its first position on. -/
theorem run_preserves {property : State → Prop}
    (preserved : ∀ {before after}, step before after → property before → property after)
    {earlier later : Nat} (order : earlier ≤ later)
    (atBefore : states[earlier]? = some before) (atAfter : states[later]? = some after)
    (held : property before) : property after := by
  rcases Nat.lt_or_eq_of_le order with strict | rfl
  · exact run_related run (fun left right => property left → property right)
      preserved (fun first second known => second (first known)) strict atBefore atAfter held
  · rw [atBefore] at atAfter
    cases atAfter
    exact held

variable (decreases : ∀ {before after}, step before after → measure after < measure before)
include decreases

theorem run_measure_add_le {first state : State} (atFirst : states[0]? = some first)
    (atIndex : states[index]? = some state) : measure state + index ≤ measure first := by
  induction index generalizing state with
  | zero =>
    rw [atFirst] at atIndex
    cases atIndex
    exact Nat.le_refl _
  | succ index ih =>
    obtain ⟨_, atPrevious, stepped⟩ := run_step_into run atIndex
    have smaller := decreases stepped
    have previous := ih atPrevious
    omega

theorem run_length_le {bound : Nat} (bounded : ∀ state, measure state ≤ bound) : states.length ≤ bound + 1 := by
  cases states with
  | nil => exact Nat.zero_le _
  | cons first rest =>
    have bound : rest.length < (first :: rest).length := Nat.lt_succ_self _
    have atLast := List.getElem?_eq_getElem bound
    have total := run_measure_add_le run decreases rfl atLast
    have limit := bounded first
    simp only [List.length_cons]
    omega

end

theorem not_infinite_run (decreases : ∀ {before after}, step before after → measure after < measure before) :
    ¬ ∃ sequence : Nat → State, ∀ index, step (sequence index) (sequence (index + 1)) := by
  rintro ⟨sequence, steps⟩
  have descends : ∀ index, measure (sequence index) + index ≤ measure (sequence 0) := by
    intro index
    induction index with
    | zero => exact Nat.le_refl _
    | succ index ih =>
      have smaller := decreases (steps index)
      omega
  have contradiction := descends (measure (sequence 0) + 1)
  omega

end Cast.Foundation
