import Mathlib.Tactic.Common

/-! Sequenced checks in `Except`. A validator is a row of checks, each of which
either refuses with its own error or lets the row continue. The laws below turn
acceptance of a row into the conjunction of its conditions, so that no proof
about a validator unfolds the monad. -/

namespace Cast.Foundation

variable {ε α β : Type} {result : α} {next : α → Except ε β}

/-- One early return: refuse with `error` exactly when `bad` holds. -/
def refuse (bad : Prop) [Decidable bad] (error : ε) : Except ε Unit := if bad then .error error else .ok ()

/-- An absent value is refused, a present one is handed on. -/
def okOr (value : Option α) (error : ε) : Except ε α :=
  match value with
  | some value => .ok value
  | none => .error error

@[simp] theorem refuse_eq_ok {bad : Prop} [Decidable bad] {error : ε} {result : Unit} :
    refuse bad error = .ok result ↔ ¬ bad := by
  by_cases held : bad <;> simp [refuse, held]

@[simp] theorem okOr_eq_ok {value : Option α} {error : ε} :
    okOr value error = .ok result ↔ value = some result := by
  cases value <;> simp [okOr]

@[simp] theorem bind_eq_ok {computation : Except ε α} {result : β} :
    (computation >>= next) = .ok result ↔ ∃ value, computation = .ok value ∧ next value = .ok result := by
  cases computation with
  | error _ | ok _ => simp [bind, Except.bind]

/-- A check carries no data, so the row after it does not depend on its value. -/
theorem ok_bind {value : α} : Except.ok value >>= next = next value := rfl

@[simp] theorem exists_check {property : Unit → Prop} : (∃ value, property value) ↔ property () :=
  ⟨fun ⟨(), held⟩ => held, fun held => ⟨(), held⟩⟩

/-- A check that is made only in one case, and the row after it. -/
theorem check_if_eq_ok {only : Prop} [Decidable only] {check : Except ε Unit}
    {next : Unit → Except ε α} : (if only then check >>= next else next ()) = .ok result ↔
      (only → check = .ok ()) ∧ next () = .ok result := by
  by_cases held : only <;> simp [held]

/-- A computation with one possible outcome, followed by what is said of that outcome. -/
theorem exists_outcome {succeeds : Prop} {outcome : α} {property : α → Prop} :
    (∃ value, (succeeds ∧ outcome = value) ∧ property value) ↔ succeeds ∧ property outcome := by
  simp only [and_assoc, exists_and_left, exists_eq_left']

@[simp] theorem pure_eq_ok {value : α} : (pure value : Except ε α) = .ok result ↔ value = result := by
  simp [pure, Except.pure]

@[simp] theorem mapError_eq_ok {η : Type} {computation : Except ε α} {convert : ε → η} :
    computation.mapError convert = .ok result ↔ computation = .ok result := by
  cases computation <;> simp [Except.mapError]

/-- The second computation succeeds wherever the first does, with the same result. -/
def SucceedsWith (first second : Except ε α) : Prop := ∀ result, first = .ok result → second = .ok result

theorem SucceedsWith.refl (computation : Except ε α) : SucceedsWith computation computation :=
  fun _ succeeded => succeeded

theorem SucceedsWith.bind {first second : Except ε α} {after : α → Except ε β}
    (front : SucceedsWith first second) (behind : ∀ value, SucceedsWith (next value) (after value)) :
    SucceedsWith (first >>= next) (second >>= after) := by
  intro result succeeded
  obtain ⟨value, here, there⟩ := bind_eq_ok.mp succeeded
  exact bind_eq_ok.mpr ⟨value, front value here, behind value result there⟩

theorem SucceedsWith.bind_left {first second : Except ε α} (front : SucceedsWith first second) :
    SucceedsWith (first >>= next) (second >>= next) :=
  front.bind fun value => .refl (next value)

theorem SucceedsWith.bind_right {first : Except ε α} {after : α → Except ε β}
    (behind : ∀ value, SucceedsWith (next value) (after value)) :
    SucceedsWith (first >>= next) (first >>= after) :=
  (SucceedsWith.refl first).bind behind

section Judged

variable {reported : ε → Prop} {good : α → Prop} {accepted : β → Prop}

/-- What holds of the error that is reported, or of the result. -/
def Judged (reported : ε → Prop) (good : α → Prop) : Except ε α → Prop
  | .ok value => good value
  | .error error => reported error

theorem Judged.refuse {bad : Prop} [Decidable bad] {error : ε} {next : Unit → Except ε β} (named : bad → reported error)
    (passes : ¬ bad → Judged reported accepted (next ())) : Judged reported accepted (refuse bad error >>= next) := by
  by_cases held : bad
  · rw [Foundation.refuse, if_pos held]
    exact named held
  · rw [Foundation.refuse, if_neg held]
    exact passes held

theorem Judged.bind {computation : Except ε α} (front : Judged reported good computation)
    (behind : ∀ value, good value → Judged reported accepted (next value)) :
    Judged reported accepted (computation >>= next) := by
  cases computation with
  | error error => exact front
  | ok value => exact behind value front

end Judged

end Cast.Foundation
