import Mathlib.Algebra.Order.BigOperators.Group.List
import Mathlib.Algebra.Order.Ring.Nat
import Cast.Foundation.Checks

/-! Loops in `Except`. A loop of checks accepts when every check does, a loop that converts
its elements succeeds pointwise, and a loop with an accumulator keeps what each of its steps
keeps.
A loop that runs until it leaves has fuel as a bound only: more of it never changes a result, and
a measure that every round lowers says how much is enough. -/

namespace Cast.Foundation

variable {ε α β σ : Type} {list : List α}

@[simp] theorem forM_eq_ok {check : α → Except ε Unit} {result : Unit} :
    list.forM check = .ok result ↔ ∀ element ∈ list, check element = .ok () := by
  induction list with
  | nil => simp [List.forM, pure, Except.pure]
  | cons first rest ih =>
    change (check first >>= fun _ => rest.forM check) = .ok result ↔ _
    rw [bind_eq_ok, exists_check, ih, List.forall_mem_cons]

theorem mapM_eq_ok {convert : α → Except ε β} {results : List β} : list.mapM convert = .ok results ↔
      List.Forall₂ (fun element result => convert element = .ok result) list results := by
  induction list generalizing results with
  | nil =>
    rw [List.mapM_nil, pure_eq_ok, List.forall₂_nil_left_iff]
    exact eq_comm
  | cons first rest ih =>
    simp only [List.mapM_cons, bind_eq_ok, pure_eq_ok, List.forall₂_cons_left_iff, ih, exists_and_left,
      @eq_comm _ results]

/-- What holds at the start and is kept by each step, for the elements before it and itself,
holds at the end for all of them. -/
theorem foldlM_processed {step : σ → α → Except ε σ} (holds : List α → σ → Prop)
    {start finish : σ} (initially : holds [] start)
    (kept : ∀ before element after state next, list = before ++ element :: after →
      holds before state → step state element = .ok next → holds (before ++ [element]) next)
    (ran : list.foldlM step start = .ok finish) : holds list finish := by
  -- Behind the first element the loop starts over, with that element before everything else.
  induction list generalizing holds start with
  | nil =>
    cases ran
    exact initially
  | cons first rest ih =>
    rw [List.foldlM_cons, bind_eq_ok] at ran
    obtain ⟨next, stepped, further⟩ := ran
    refine ih (fun before => holds (first :: before)) (kept [] first rest start next rfl initially stepped) ?_ further
    intro before element after state next split
    exact kept (first :: before) element after state next (by rw [split]; rfl)

/-- A loop whose every step succeeds from what the steps before it keep succeeds. -/
theorem foldlM_progress {step : σ → α → Except ε σ} (holds : List α → σ → Prop) {start : σ} (initially : holds [] start)
    (kept : ∀ before element after state, list = before ++ element :: after → holds before state →
      ∃ next, step state element = .ok next ∧ holds (before ++ [element]) next) :
    ∃ finish, list.foldlM step start = .ok finish ∧ holds list finish := by
  induction list generalizing holds start with
  | nil => exact ⟨start, rfl, initially⟩
  | cons first rest ih =>
    obtain ⟨next, stepped, later⟩ := kept [] first rest start rfl initially
    obtain ⟨finish, ran, atEnd⟩ := ih (fun before => holds (first :: before)) later (by
      intro before element after state split
      exact kept (first :: before) element after state (by rw [split]; rfl))
    exact ⟨finish, by rw [List.foldlM_cons, stepped]; exact ran, atEnd⟩

theorem mem_concat {element last : α} : element ∈ list ++ [last] ↔ element ∈ list ∨ element = last := by
  rw [List.mem_append, List.mem_singleton]

/-- What each step either adds or keeps is in the end added by some step or there from the start. -/
theorem foldl_iff (step : σ → α → σ) (holds : σ → Prop) (adds : α → Prop) {start : σ}
    (stepped : ∀ state element, holds (step state element) ↔ adds element ∨ holds state) :
    holds (list.foldl step start) ↔ (∃ element ∈ list, adds element) ∨ holds start := by
  induction list generalizing start with
  | nil => simp
  | cons first rest ih => rw [List.foldl_cons, ih, stepped, List.exists_mem_cons_iff, or_assoc, or_left_comm]

inductive Round (σ ρ : Type) where
  | again (state : σ)
  | leave (result : ρ)

variable {σ ρ : Type}

def loop (round : σ → Round σ ρ) : Nat → σ → Option ρ
  | 0, _ => none
  | fuel + 1, state =>
    match round state with
    | .again next => loop round fuel next
    | .leave result => some result

variable {round : σ → Round σ ρ} {state : σ} {result : ρ} {fuel : Nat}

theorem loop_of_again {next : σ} (goesOn : round state = .again next) :
    loop round (fuel + 1) state = loop round fuel next := by
  simp only [loop, goesOn]

theorem loop_of_leave (leaves : round state = .leave result) : loop round (fuel + 1) state = some result := by
  simp only [loop, leaves]

theorem loop_of_le {more : Nat} (enough : fuel ≤ more) (returned : loop round fuel state = some result) :
    loop round more state = some result := by
  induction fuel generalizing state more with
  | zero => cases returned
  | succ fuel ih =>
    obtain ⟨more, rfl⟩ : ∃ less, more = less + 1 := ⟨more - 1, by omega⟩
    cases stepped : round state with
    | again next =>
      rw [loop_of_again stepped] at returned ⊢
      exact ih (by omega) returned
    | leave value =>
      rw [loop_of_leave stepped] at returned ⊢
      exact returned

theorem loop_unique {other : Nat} {second : ρ} (first : loop round fuel state = some result)
    (again : loop round other state = some second) : result = second := by
  have firstLonger := loop_of_le (Nat.le_max_left fuel other) first
  have secondLonger := loop_of_le (Nat.le_max_right fuel other) again
  exact Option.some.inj (firstLonger.symm.trans secondLonger)

/-- What every round keeps holds when the loop leaves. -/
theorem loop_rule (holds : σ → Prop) (afterwards : ρ → Prop) (initially : holds state)
    (kept : ∀ current next, holds current → round current = .again next → holds next)
    (left : ∀ current value, holds current → round current = .leave value → afterwards value)
    (returned : loop round fuel state = some result) : afterwards result := by
  induction fuel generalizing state with
  | zero => cases returned
  | succ fuel ih =>
    cases stepped : round state with
    | again next =>
      rw [loop_of_again stepped] at returned
      exact ih (kept state next initially stepped) returned
    | leave value =>
      rw [loop_of_leave stepped] at returned
      exact Option.some.inj returned ▸ left state value initially stepped

/-- A measure that every round lowers bounds the fuel that is needed. -/
theorem loop_returns (holds : σ → Prop) (measure : σ → Nat) (initially : holds state)
    (kept : ∀ current next, holds current → round current = .again next → holds next)
    (lowered : ∀ current next, holds current → round current = .again next → measure next < measure current)
    (enough : measure state < fuel) : ∃ result, loop round fuel state = some result := by
  induction fuel generalizing state with
  | zero => exact absurd enough (Nat.not_lt_zero _)
  | succ fuel ih =>
    cases stepped : round state with
    | again next =>
      rw [loop_of_again stepped]
      have lower := lowered state next initially stepped
      exact ih (kept state next initially stepped) (by omega)
    | leave value => exact ⟨value, loop_of_leave stepped⟩

/-- A loop that is kept from leaving does not return. -/
theorem loop_never (holds : σ → Prop) (initially : holds state)
    (stuck : ∀ current, holds current → ∃ next, round current = .again next ∧ holds next) :
    loop round fuel state = none := by
  induction fuel generalizing state with
  | zero => rfl
  | succ fuel ih =>
    obtain ⟨next, stepped, held⟩ := stuck state initially
    rw [loop_of_again stepped]
    exact ih held

/-- A sum falls by as much as one of its summands does when no other one grows. -/
theorem sum_map_add_le {α : Type} {list : List α} {lower upper : α → Nat} {element : α} {fall : Nat}
    (member : element ∈ list) (below : ∀ other, lower other ≤ upper other)
    (falls : lower element + fall ≤ upper element) :
    (list.map lower).sum + fall ≤ (list.map upper).sum := by
  induction list with
  | nil => exact absurd member List.not_mem_nil
  | cons first rest ih =>
    simp only [List.map_cons, List.sum_cons]
    obtain rfl | later := List.mem_cons.mp member
    · have others := List.sum_le_sum (fun other (_ : other ∈ rest) => below other)
      omega
    · have here := below first
      have there := ih later
      omega

end Cast.Foundation
