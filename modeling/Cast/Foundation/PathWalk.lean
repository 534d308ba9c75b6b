import Mathlib.Tactic.Common

/-! Path resolution in a tree with symbolic links. A position is the names from the root to a
directory, the innermost first. A walk takes one component of a path after the other and puts
the target of a link it meets in front of what is left, as the kernel does. It leaves the tree
when it has to take the parent of the root. -/

namespace Cast.Foundation

variable {α : Type}

inductive Segment (α : Type) where
  | current
  | parent
  | name (value : α)
deriving DecidableEq

structure LinkTree (α : Type) where
  isDirectory : List α → Prop
  linkAt : List α → List (Segment α) → Prop

variable {tree : LinkTree α}

/-- One component is taken; the flag tells that it was a link. -/
inductive Step {α : Type} (tree : LinkTree α) :
    List α → List (Segment α) → Bool → List α → List (Segment α) → Prop where
  | current {dir path} : Step tree dir (.current :: path) false dir path
  | parent {name dir path} : Step tree (name :: dir) (.parent :: path) false dir path
  | enter {name dir path} (directory : tree.isDirectory (name :: dir)) :
      Step tree dir (.name name :: path) false (name :: dir) path
  | follow {name dir path target} (link : tree.linkAt (name :: dir) target) :
      Step tree dir (.name name :: path) true dir (target ++ path)

/-- A walk with its number of steps and whether it has followed a link. It may follow any number of
them; the kernel's limit is left out. -/
inductive Walk {α : Type} (tree : LinkTree α) :
    Nat → List α → List (Segment α) → Bool → List α → List (Segment α) → Prop where
  | stay {dir path} : Walk tree 0 dir path false dir path
  | step {steps dir path linked mid between again final left} (first : Step tree dir path linked mid between)
      (behind : Walk tree steps mid between again final left) :
      Walk tree (steps + 1) dir path (linked || again) final left

/-- The walk comes to the parent of the root. -/
def LeavesTree {α : Type} (tree : LinkTree α) (dir : List α) (path : List (Segment α)) : Prop :=
  ∃ steps linked left, Walk tree steps dir path linked [] (.parent :: left)

/-- Where a path leads when no name in it is a link, unless that is above the root. -/
def lexical {α : Type} : List α → List (Segment α) → Option (List α)
  | dir, [] => some dir
  | dir, .current :: path => lexical dir path
  | [], .parent :: _ => none
  | _ :: dir, .parent :: path => lexical dir path
  | dir, .name name :: path => lexical (name :: dir) path

/-- The link's target has a step to the parent where its beginning, through another link, has
already come to the root. -/
def ClimbsFromRoot {α : Type} (tree : LinkTree α) (dir : List α) (target : List (Segment α)) : Prop :=
  ∃ before left steps, target = before ++ .parent :: left ∧ Walk tree steps dir before true [] []

variable {steps more : Nat} {dir mid final : List α} {component : Segment α}
  {path between left behind : List (Segment α)} {linked again : Bool}

theorem Walk.exists_name (walk : Walk tree steps dir path true final left) : ∃ name, .name name ∈ path := by
  generalize isLinked : true = linked at walk
  induction walk with
  | stay => cases isLinked
  | step first _ ih =>
    cases first with
    | follow => exact ⟨_, List.mem_cons_self⟩
    | current | parent | enter =>
      obtain ⟨name, member⟩ := ih (by simpa using isLinked)
      exact ⟨name, List.mem_cons_of_mem _ member⟩

theorem Step.append (step : Step tree dir path linked mid between) :
    Step tree dir (path ++ behind) linked mid (between ++ behind) := by
  cases step with
  | current => exact .current
  | parent => exact .parent
  | enter directory => exact .enter directory
  | follow link =>
    rw [List.append_assoc]
    exact .follow link

/-- A step takes its component alone, or follows it as a link. -/
theorem Step.taken (step : Step tree dir (component :: path) linked mid between) :
    (linked = false ∧ between = path ∧ Step tree dir [component] false mid []) ∨
      ∃ name target, component = .name name ∧ linked = true ∧ tree.linkAt (name :: dir) target ∧
        dir = mid ∧ between = target ++ path := by
  cases step with
  | current => exact .inl ⟨rfl, rfl, .current⟩
  | parent => exact .inl ⟨rfl, rfl, .parent⟩
  | enter directory => exact .inl ⟨rfl, rfl, .enter directory⟩
  | @follow name _ _ target link => exact .inr ⟨name, target, rfl, rfl, link, rfl, rfl⟩

theorem Walk.append (walk : Walk tree steps dir path linked final left) :
    Walk tree steps dir (path ++ behind) linked final (left ++ behind) := by
  induction walk with
  | stay => exact .stay
  | step first _ ih => exact .step first.append ih

theorem Walk.trans (first : Walk tree steps dir path linked mid between)
    (second : Walk tree more mid between again final left) :
    ∃ total, Walk tree total dir path (linked || again) final left := by
  induction first with
  | stay => exact ⟨more, second⟩
  | step first _ ih =>
    obtain ⟨total, walk⟩ := ih second
    rw [Bool.or_assoc]
    exact ⟨total + 1, .step first walk⟩

theorem Walk.extend (first : Walk tree steps dir path linked mid [])
    (second : Walk tree more mid [component] again final []) :
    ∃ total, Walk tree total dir (path ++ [component]) (linked || again) final [] :=
  first.append.trans second

/-- A walk over two paths ends within the first or goes on to the second. -/
theorem Walk.split (walk : Walk tree steps dir (path ++ behind) linked final left) :
    (∃ count through rest, count ≤ steps ∧ rest ≠ [] ∧ left = rest ++ behind ∧
      Walk tree count dir path through final rest) ∨
    ∃ count through mid more again, count + more = steps ∧ Walk tree count dir path through mid [] ∧
      Walk tree more mid behind again final left := by
  generalize whole : path ++ behind = all at walk
  induction walk generalizing path with
  | @stay dir =>
    cases path with
    | nil => exact .inr ⟨0, false, dir, 0, false, rfl, .stay, whole ▸ .stay⟩
    | cons component path =>
      exact .inl ⟨0, false, component :: path, Nat.le_refl _, by simp, whole.symm, .stay⟩
  | @step steps dir all linked mid between again final left first walk ih =>
    cases path with
    | nil =>
      cases whole
      exact .inr ⟨0, false, dir, steps + 1, _, Nat.zero_add _, .stay, .step first walk⟩
    | cons component path =>
      subst whole
      -- What the step leaves still ends with the second path.
      obtain ⟨rest, same, first⟩ : ∃ rest, rest ++ behind = between ∧
          Step tree dir (component :: path) linked mid rest := by
        rcases first.taken with ⟨rfl, rfl, alone⟩ | ⟨name, target, rfl, rfl, link, rfl, rfl⟩
        · exact ⟨path, rfl, alone.append⟩
        · exact ⟨target ++ path, List.append_assoc .., .follow link⟩
      rcases ih same with ⟨count, through, rest, within, some, ends, front⟩ |
        ⟨count, through, mid, more, again, total, front, back⟩
      · exact .inl ⟨count + 1, _, rest, Nat.succ_le_succ within, some, ends, .step first front⟩
      · exact .inr ⟨count + 1, _, mid, more, again, by omega, .step first front, back⟩

/-- Without a link the walk is the lexical one. -/
theorem Walk.lexical_eq (walk : Walk tree steps dir path linked final left)
    (linkless : linked = false) : lexical dir path = lexical final left := by
  induction walk with
  | stay => rfl
  | step first _ ih =>
    obtain ⟨here, there⟩ := Bool.or_eq_false_iff.mp linkless
    rw [← ih there]
    cases first with
    | current | parent | enter => rfl
    | follow => cases here

section

variable (contained : ∀ name dir target, tree.linkAt (name :: dir) target → lexical dir target ≠ none)
include contained

/-- When every target is contained lexically, a walk out of the tree climbs from the root behind
some other link. -/
theorem climbs_of_leaves {steps count : Nat} {name : α} {dir here : List α} {before path left : List (Segment α)}
    {linked again : Bool} (link : tree.linkAt (name :: dir) (before ++ path))
    (consumed : Walk tree count dir before linked here [])
    (walk : Walk tree steps here path again [] (.parent :: left)) :
    ∃ name dir target, tree.linkAt (name :: dir) target ∧ ClimbsFromRoot tree dir target := by
  induction steps using Nat.strongRecOn generalizing name dir here before path left linked again count with
  | _ steps ih =>
    cases walk with
    | stay =>
      cases linked with
      | true => exact ⟨name, dir, _, link, before, left, count, rfl, consumed⟩
      | false => exact absurd (consumed.append.lexical_eq rfl) (contained name dir _ link)
    | @step steps _ _ _ mid between again _ _ first walk =>
      cases path with
      | nil => cases first
      | cons component path =>
        have link : tree.linkAt (name :: dir) ((before ++ [component]) ++ path) := by rwa [List.append_assoc]
        rcases first.taken with ⟨rfl, rfl, alone⟩ | ⟨inner, target, rfl, rfl, met, rfl, rfl⟩
        · obtain ⟨total, consumed⟩ := consumed.extend (.step alone .stay)
          exact ih steps (Nat.lt_succ_self _) link consumed walk
        · rcases walk.split with ⟨count, through, rest, within, some, ends, inside⟩ |
            ⟨count, through, mid, more, again, total, inside, behind⟩
          · cases rest with
            | nil => exact absurd rfl some
            | cons component rest =>
              obtain ⟨rfl, _⟩ := List.cons_eq_cons.mp ends
              exact ih count (by omega) met .stay inside
          · have alone : Walk tree count here (target ++ []) through mid [] := by
              rwa [List.append_nil]
            obtain ⟨total, consumed⟩ := consumed.extend (.step (.follow met) alone)
            rw [Bool.true_or, Bool.or_true] at consumed
            exact ih more (by omega) link consumed behind

/-- No link leads out of the tree exactly when none climbs from the root. -/
theorem leaves_iff_climbs :
    (∃ name dir target, tree.linkAt (name :: dir) target ∧ LeavesTree tree dir target) ↔
      ∃ name dir target, tree.linkAt (name :: dir) target ∧ ClimbsFromRoot tree dir target := by
  constructor
  · rintro ⟨name, dir, target, link, steps, linked, left, walk⟩
    have start : tree.linkAt (name :: dir) ([] ++ target) := link
    exact climbs_of_leaves contained start .stay walk
  · rintro ⟨name, dir, target, link, before, left, steps, rfl, walk⟩
    exact ⟨name, dir, _, link, steps, true, left, walk.append⟩

end

end Cast.Foundation
