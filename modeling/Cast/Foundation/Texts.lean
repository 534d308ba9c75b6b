import Mathlib.Data.List.Basic

/-! Cutting and joining texts, which are lists of characters here. -/

namespace Cast.Foundation

open List

/-- The parts before and after the first separator. -/
def splitOnce (separator : Char) : List Char → Option (List Char × List Char)
  | [] => none
  | character :: rest =>
    if character = separator then some ([], rest)
    else (splitOnce separator rest).map fun parts => (character :: parts.1, parts.2)

variable {separator : Char} {text before after : List Char}

theorem splitOnce_eq_some :
    splitOnce separator text = some (before, after) ↔ text = before ++ separator :: after ∧ separator ∉ before := by
  fun_induction splitOnce separator text generalizing before with
  | case1 => simp
  | case2 rest =>
    cases before with
    | nil => simp [eq_comm]
    | cons first before => grind
  | case3 character rest other ih =>
    cases before with
    | nil => simp [other]
    | cons first before => grind [Option.map_eq_some_iff]

theorem splitOnce_append (absent : separator ∉ before) (rest : List Char) :
    splitOnce separator (before ++ rest) = (splitOnce separator rest).map fun parts => (before ++ parts.1, parts.2) := by
  induction before with
  | nil => simp
  | cons first before ih =>
    simp only [mem_cons, not_or] at absent
    simp [splitOnce, Ne.symm absent.1, ih absent.2, Function.comp_def]

theorem length_of_splitOnce (split : splitOnce separator text = some (before, after)) :
    text.length = before.length + after.length + 1 := by
  obtain ⟨rfl, _⟩ := splitOnce_eq_some.mp split
  simp
  omega

theorem intercalate_cons {α : Type} {joint first : List α} {rest : List (List α)} :
    joint.intercalate (first :: rest) = first ++ rest.flatMap (joint ++ ·) := by
  induction rest generalizing first with
  | nil => simp
  | cons second rest ih => rw [intercalate_cons_cons, ih, flatMap_cons, append_assoc, append_assoc]

end Cast.Foundation
