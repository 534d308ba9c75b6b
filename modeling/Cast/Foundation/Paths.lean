import Mathlib.Data.List.Infix
import Cast.Foundation.SortedMap
import Cast.Foundation.Texts

/-! Texts cut into components by a separator. A path lies below an ancestor when
it continues the ancestor with a separator; the two readings, by components and
by text, agree. The texts that begin with a given one are an interval of the
lexicographic order.
Among the components of a Unix path a dot only stands where it begins the path. -/

namespace Cast.Foundation

open Std List

inductive Component where
  | rootDir
  | curDir
  | parentDir
  | normal (name : List Char)
deriving DecidableEq

def segmentComponent (segment : List Char) : Option Component :=
  if segment = [] ∨ segment = ['.'] then none
  else if segment = ['.', '.'] then some .parentDir
  else some (.normal segment)

def pathComponents (path : List Char) : List Component :=
  let segments := path.splitOn '/'
  let start := if path.head? = some '/' then [.rootDir]
    else if segments.head? = some ['.'] then [.curDir]
    else []
  start ++ segments.filterMap segmentComponent

/-- The path without its last component; the root and the empty path have none. -/
def parentPath (path : List Component) : Option (List Component) :=
  match path.getLast? with
  | none => none
  | some .rootDir => none
  | some _ => some path.dropLast

/-- An absolute path replaces what it is joined to. -/
def joinPath (base path : List Component) : List Component :=
  if path.head? = some .rootDir then path
  else if base = [] then path
  else if path.head? = some .curDir then base ++ path.tail
  else base ++ path

def Component.text : Component → List Char
  | rootDir => []
  | curDir => ['.']
  | parentDir => ['.', '.']
  | normal name => name

def displayPath (path : List Component) : List Char :=
  if path = [.rootDir] then ['/'] else ['/'].intercalate (path.map Component.text)

variable {α : Type} {path : List α} {separator : α} {position : Nat}

section Components

variable [BEq α] [LawfulBEq α]

def rfind (separator : α) : List α → Option Nat
  | [] => none
  | first :: rest =>
    match rfind separator rest with
    | some position => some (position + 1)
    | none => if first == separator then some 0 else none

/-- The path continues the ancestor with a separator. -/
def Below (separator : α) (ancestor path : List α) : Prop := ancestor ++ [separator] <+: path

/-- The components of the ancestor are the first of the path's, and not all of
them. -/
def ComponentsBelow (separator : α) (ancestor path : List α) : Prop :=
  ancestor.splitOn separator <+: path.splitOn separator ∧ ancestor.splitOn separator ≠ path.splitOn separator

variable {ancestor : List α}

omit [BEq α] [LawfulBEq α] in
theorem below_cons {first : α} : Below separator ancestor (first :: path) ↔
      (ancestor = [] ∧ first = separator) ∨ ∃ rest, ancestor = first :: rest ∧ Below separator rest path := by
  cases ancestor with
  | nil => simp [Below, eq_comm]
  | cons head rest =>
    simp only [Below, cons_append, cons_prefix_cons, List.cons.injEq, reduceCtorEq, false_and, false_or,
      and_assoc, existsAndEq, true_and]

omit [BEq α] [LawfulBEq α] in
theorem forall_below_cons {first : α} {property : List α → Prop} :
    (∀ ancestor, Below separator ancestor (first :: path) → property ancestor) ↔
      (first = separator → property []) ∧ ∀ rest, Below separator rest path → property (first :: rest) := by
  simp only [below_cons, or_imp, forall_and, and_imp, forall_exists_index, forall_eq]
  refine and_congr_right fun _ => forall_comm.trans ?_
  simp only [forall_eq]

theorem rfind_eq_none : rfind separator path = none ↔ separator ∉ path := by
  induction path with
  | nil => simp [rfind]
  | cons first rest ih =>
    rw [rfind]
    cases found : rfind separator rest with
    | none =>
      have absent := ih.mp found
      by_cases same : first = separator
      · simp [same]
      · simp [same, Ne.symm same, absent]
    | some position =>
      have present : separator ∈ rest := by
        by_contra absent
        rw [ih.mpr absent] at found
        cases found
      simp [present]

theorem rfind_eq_some (found : rfind separator path = some position) :
    ∃ after, path = path.take position ++ separator :: after ∧ separator ∉ after := by
  induction path generalizing position with
  | nil => cases found
  | cons first rest ih =>
    rw [rfind] at found
    cases later : rfind separator rest with
    | some inner =>
      simp only [later, Option.some.injEq] at found
      subst found
      obtain ⟨after, split, absent⟩ := ih later
      refine ⟨after, ?_, absent⟩
      rw [take_succ_cons, cons_append, ← split]
    | none =>
      rw [later] at found
      by_cases same : first = separator
      · simp only [same, BEq.rfl, if_true, Option.some.injEq] at found
        subst found
        exact ⟨rest, by simp [same], rfind_eq_none.mp later⟩
      · simp [same] at found

theorem rfind_lt (found : rfind separator path = some position) : (path.take position).length < path.length := by
  obtain ⟨after, split, _⟩ := rfind_eq_some found
  have total := congrArg List.length split
  simp only [length_append, length_cons] at total
  omega

theorem not_below_of_rfind_eq_none (unfound : rfind separator path = none) : ¬ Below separator ancestor path := by
  intro below
  obtain ⟨after, rfl⟩ := below
  exact rfind_eq_none.mp unfound (by simp)

/-- What lies above a path: the path up to its last separator, and what lies
above that. -/
theorem below_of_rfind_eq_some (found : rfind separator path = some position) : Below separator ancestor path ↔
      ancestor = path.take position ∨ Below separator ancestor (path.take position) := by
  obtain ⟨after, split, absent⟩ := rfind_eq_some found
  generalize path.take position = before at split ⊢
  subst split
  constructor
  · intro below
    obtain ⟨rest, same⟩ := below
    rw [append_assoc, singleton_append, append_eq_append_iff] at same
    obtain ⟨middle, rfl, tail⟩ | ⟨middle, rfl, tail⟩ := same
    · cases middle with
      | nil => exact .inl (append_nil _).symm
      | cons head middle =>
        obtain ⟨rfl, _⟩ := cons.inj tail
        exact .inr ⟨middle, by simp⟩
    · cases middle with
      | nil => exact .inl (append_nil _)
      | cons head middle =>
        obtain ⟨_, rfl⟩ := cons.inj tail
        exact absurd (by simp) absent
  · intro above
    obtain rfl | ⟨rest, rfl⟩ := above
    · exact ⟨after, by simp⟩
    · exact ⟨rest ++ separator :: after, by simp⟩

/-- Whether a path above this one is taken. The walk goes from one separator to the one
before it. -/
def hasTakenAncestor {β : Type} [BEq β] [LawfulBEq β] (separator : β) (taken : List β → Bool) (path : List β) : Bool :=
  match _found : rfind separator path with
  | none => false
  | some position => taken (path.take position) || hasTakenAncestor separator taken (path.take position)
termination_by path.length
decreasing_by exact rfind_lt _found

theorem hasTakenAncestor_eq_true {taken : List α → Bool} :
    hasTakenAncestor separator taken path = true ↔
      ∃ ancestor, Below separator ancestor path ∧ taken ancestor = true := by
  induction path using hasTakenAncestor.induct separator with
  | case1 path unfound =>
    rw [hasTakenAncestor, unfound]
    simp [not_below_of_rfind_eq_none unfound]
  | case2 path position found ih =>
    rw [hasTakenAncestor, found]
    simp only [Bool.or_eq_true, ih, below_of_rfind_eq_some found, or_and_right, exists_or, exists_eq_left]

omit [BEq α] [LawfulBEq α] in
theorem intercalate_append {separator : List α} {left right : List (List α)} (leftFilled : left ≠ [])
    (rightFilled : right ≠ []) :
    separator.intercalate (left ++ right) = separator.intercalate left ++ separator ++ separator.intercalate right := by
  obtain ⟨first, rest, rfl⟩ := exists_cons_of_ne_nil leftFilled
  obtain ⟨next, others, rfl⟩ := exists_cons_of_ne_nil rightFilled
  simp only [cons_append, intercalate_cons, flatMap_append, flatMap_cons, append_assoc]

theorem below_iff_componentsBelow : Below separator ancestor path ↔ ComponentsBelow separator ancestor path := by
  constructor
  · intro below
    obtain ⟨rest, rfl⟩ := below
    have split : (ancestor ++ [separator] ++ rest).splitOn separator =
        ancestor.splitOn separator ++ rest.splitOn separator := by
      rw [append_assoc, singleton_append]
      exact splitOn_append_cons_self _ _
    refine ⟨⟨_, split.symm⟩, ?_⟩
    intro same
    rw [split, self_eq_append_right] at same
    exact splitOn_ne_nil _ _ same
  · intro below
    obtain ⟨⟨rest, split⟩, proper⟩ := below
    have remaining : rest ≠ [] := by
      intro same
      rw [same, append_nil] at split
      exact proper split
    refine ⟨[separator].intercalate rest, ?_⟩
    calc
      ancestor ++ [separator] ++ [separator].intercalate rest
        = [separator].intercalate (ancestor.splitOn separator) ++ [separator] ++
            [separator].intercalate rest := by rw [intercalate_splitOn]
      _ = [separator].intercalate (path.splitOn separator) := by
            rw [← split, intercalate_append (splitOn_ne_nil _ _) remaining]
      _ = path := intercalate_splitOn _

theorem mem_component_of_mem {element : α} (member : element ∈ path) :
    element = separator ∨ ∃ component ∈ path.splitOn separator, element ∈ component := by
  obtain ⟨first, rest, split⟩ := exists_cons_of_ne_nil (splitOn_ne_nil separator path)
  have whole : [separator].intercalate (path.splitOn separator) = path := intercalate_splitOn _
  rw [split, intercalate_cons] at whole
  rw [← whole, mem_append, mem_flatMap] at member
  rw [split]
  rcases member with inFirst | ⟨component, inRest, inside⟩
  · exact .inr ⟨first, mem_cons_self, inFirst⟩
  · refine (mem_cons.mp inside).imp_right fun inComponent => ?_
    exact ⟨component, mem_cons_of_mem _ inRest, inComponent⟩

theorem notMem_of_mem_splitOn {component : List α}
    (member : component ∈ path.splitOn separator) : separator ∉ component := by
  induction size : path.length using Nat.strongRecOn generalizing path with
  | ind size ih =>
    by_cases inside : separator ∈ path
    · obtain ⟨front, rest, split, whole⟩ := eq_append_cons_of_mem inside
      subst split
      rw [splitOn_append_cons_self_of_not_mem whole, mem_cons] at member
      rcases member with same | later
      · exact same ▸ whole
      · refine ih rest.length ?_ later rfl
        rw [← size, length_append, length_cons]
        omega
    · rw [splitOn_eq_singleton inside, mem_singleton] at member
      exact member ▸ inside

/-- Without separators at the ends or next to each other, no component is empty. -/
theorem filled_of_mem_splitOn {component : List α} (filled : path ≠ [])
    (relative : path.head? ≠ some separator) (trimmed : path.getLast? ≠ some separator)
    (single : ¬ [separator, separator] <:+: path) (member : component ∈ path.splitOn separator) :
    component ≠ [] := by
  intro isEmpty
  subst isEmpty
  obtain ⟨left, right, split⟩ := append_of_mem member
  have joined : [separator].intercalate (left ++ [] :: right) = path := split ▸ intercalate_splitOn separator
  by_cases leftFilled : left = []
  · subst leftFilled
    cases right with
    | nil => exact filled joined.symm
    | cons next right =>
      rw [nil_append, intercalate_cons_cons] at joined
      exact relative (joined ▸ rfl)
  · rw [intercalate_append leftFilled (cons_ne_nil _ _)] at joined
    cases right with
    | nil =>
      refine trimmed ?_
      rw [← joined]
      simp
    | cons next right =>
      refine single ⟨[separator].intercalate left, [separator].intercalate (next :: right), ?_⟩
      rw [← joined, intercalate_cons_cons]
      simp

end Components

section Order

variable [Ord α] [TransOrd α] [LawfulEqOrd α]

/-- Two values not after each other are equal, and the rest of a lexicographic
comparison decides both ways. -/
theorem eq_of_then_isLE {left right : α} {forward backward : Ordering}
    (notAfter : ((compare left right).then forward).isLE = true)
    (notBefore : ((compare right left).then backward).isLE = true) :
    left = right ∧ forward.isLE = true ∧ backward.isLE = true := by
  cases ordering : compare left right with
  | lt =>
    rw [OrientedCmp.gt_of_lt ordering] at notBefore
    cases notBefore
  | eq =>
    have same := LawfulEqCmp.eq_of_compare ordering
    subst same
    rw [ordering] at notAfter notBefore
    exact ⟨rfl, notAfter, notBefore⟩
  | gt =>
    rw [ordering] at notAfter
    cases notAfter

theorem startsWith_interval (first : List α) : IntervalFrom first (first <+: ·) := by
  refine ⟨?_, ?_⟩
  · intro text starts
    obtain ⟨rest, rfl⟩ := starts
    induction first with
    | nil => exact List.isLE_compare_nil_left
    | cons head tail ih =>
      rw [cons_append, List.compare_cons_cons, ReflOrd.compare_self]
      exact ih
  · intro text between starts notBefore notAfter
    obtain ⟨rest, rfl⟩ := starts
    induction first generalizing between with
    | nil => exact ⟨between, rfl⟩
    | cons head tail ih =>
      cases between with
      | nil => cases notBefore
      | cons other between =>
        rw [List.compare_cons_cons] at notBefore
        rw [cons_append, List.compare_cons_cons] at notAfter
        obtain ⟨rfl, tailNotBefore, tailNotAfter⟩ := eq_of_then_isLE notBefore notAfter
        obtain ⟨after, rfl⟩ := ih between tailNotBefore tailNotAfter
        exact ⟨after, rfl⟩

end Order

end Cast.Foundation
