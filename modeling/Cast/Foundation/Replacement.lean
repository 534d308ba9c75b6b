import Mathlib.Data.List.Basic

/-! Replacing patterns in a text. Several rules are applied at once, without looking at what was put
in, or one after the other. The patterns are such that their occurrences do not overlap; then a
text and what one rule makes of it are two fillings of the holes where its pattern stood. -/

namespace Cast.Foundation

open List

/-- Every occurrence of a rule's pattern gives way to the rule's text, from left to right and without
looking at what was put in. The count says how much of the last occurrence is still ahead. -/
def replaceMany (rules : List (List Char × List Char)) : (skip : Nat) → List Char → List Char
  | _, [] => []
  | skip + 1, _ :: rest => replaceMany rules skip rest
  | 0, character :: rest =>
    match rules.find? fun rule => rule.1.isPrefixOf (character :: rest) with
    | some rule => rule.2 ++ replaceMany rules (rule.1.length - 1) rest
    | none => character :: replaceMany rules 0 rest

def replace (pattern value text : List Char) : List Char := replaceMany [(pattern, value)] 0 text

/-- The number of positions at which a pattern occurs. -/
def occurrences (pattern : List Char) : List Char → Nat
  | [] => 0
  | character :: rest => (if pattern.isPrefixOf (character :: rest) then 1 else 0) + occurrences pattern rest

/-- A text with holes, and a value in each of them. -/
def fill (value : List Char) (marked : List (Option Char)) : List Char :=
  marked.flatMap fun mark => mark.elim value fun character => [character]

variable {rules : List (List Char × List Char)} {first : Char} {text pattern tail value other rest : List Char}
  {marked again : List (Option Char)} {rule : List Char × List Char}

theorem fill_map (value text : List Char) : fill value (text.map some) = text := by
  simp [fill, flatMap_map]

theorem fill_append : fill value (marked ++ again) = fill value marked ++ fill value again := flatMap_append

theorem replaceMany_skip (passed rest : List Char) :
    replaceMany rules passed.length (passed ++ rest) = replaceMany rules 0 rest := by
  induction passed with
  | nil => rfl
  | cons first passed ih => exact ih

theorem replaceMany_cons {character : Char} (nowhere : ∀ rule ∈ rules, ¬ rule.1 <+: character :: rest) :
    replaceMany rules 0 (character :: rest) = character :: replaceMany rules 0 rest := by
  have nothing : rules.find? (fun rule => rule.1.isPrefixOf (character :: rest)) = none := by
    simpa only [find?_eq_none, isPrefixOf_iff_prefix] using nowhere
  rw [replaceMany, nothing]

theorem occurrences_append_le (before : List Char) : occurrences pattern rest ≤ occurrences pattern (before ++ rest) := by
  induction before with
  | nil => exact Nat.le_refl _
  | cons character before ih => exact Nat.le_trans ih (Nat.le_add_left _ _)

/-- A pattern does not occur in a text without its first character. -/
theorem occurrences_append (absent : first ∉ text) (rest : List Char) :
    occurrences (first :: tail) (text ++ rest) = occurrences (first :: tail) rest := by
  induction text with
  | nil => rfl
  | cons character text ih =>
    simp only [mem_cons, not_or] at absent
    simp [occurrences, absent.1, ih absent.2]

theorem occurrences_self (absent : first ∉ tail) (rest : List Char) :
    occurrences (first :: tail) (first :: tail ++ rest) = occurrences (first :: tail) rest + 1 := by
  rw [cons_append, occurrences, occurrences_append absent, if_pos (by simp), Nat.add_comm]

/-- Patterns that begin with one character, which they do not have again, and of which none
begins with another. -/
structure Markers (first : Char) (rules : List (List Char × List Char)) : Prop where
  starts : ∀ rule ∈ rules, ∃ tail, rule.1 = first :: tail ∧ first ∉ tail
  apart : ∀ rule ∈ rules, ∀ other ∈ rules, rule.1 <+: other.1 → rule = other

namespace Markers

section

variable (markers : Markers first rules)
include markers

theorem subset {some : List (List Char × List Char)} (part : some ⊆ rules) :
    Markers first some where
  starts rule member := markers.starts rule (part member)
  apart rule member other isOther := markers.apart rule (part member) other (part isOther)

theorem unique (member : rule ∈ rules) (here : rule.1 <+: text)
    {also : List Char × List Char} (isAlso : also ∈ rules) (alsoHere : also.1 <+: text) : also = rule := by
  rcases prefix_or_prefix_of_prefix alsoHere here with shorter | longer
  · exact markers.apart also isAlso rule member shorter
  · exact (markers.apart rule member also isAlso longer).symm

theorem find?_eq_some :
    rules.find? (fun rule => rule.1.isPrefixOf text) = some rule ↔ rule ∈ rules ∧ rule.1 <+: text := by
  constructor
  · intro found
    have here := find?_some found
    exact ⟨mem_of_find?_eq_some found, isPrefixOf_iff_prefix.mp here⟩
  · rintro ⟨member, here⟩
    cases found : rules.find? fun rule => rule.1.isPrefixOf text with
    | none => exact absurd ( isPrefixOf_iff_prefix.mpr here) (find?_eq_none.mp found rule member)
    | some also =>
      have alsoHere := find?_some found
      rw [markers.unique member here (mem_of_find?_eq_some found) ( isPrefixOf_iff_prefix.mp alsoHere)]

theorem replaceMany_perm {order : List (List Char × List Char)}
    (permuted : order.Perm rules) (skip : Nat) : replaceMany order skip text = replaceMany rules skip text := by
  have same : ∀ text, (order.find? fun rule => rule.1.isPrefixOf text) = rules.find? fun rule =>
      rule.1.isPrefixOf text := by
    intro text
    refine Option.ext fun rule => ?_
    rw [(markers.subset permuted.subset).find?_eq_some, markers.find?_eq_some, permuted.mem_iff]
  fun_induction replaceMany rules skip text with
  | case1 => simp [replaceMany]
  | case2 skip character rest ih => rw [replaceMany, ih]
  | case3 character rest rule found ih | case4 character rest found ih =>
    rw [replaceMany, same, found]
    simp only [ih]

theorem replaceMany_rule (member : rule ∈ rules) (rest : List Char) :
    replaceMany rules 0 (rule.1 ++ rest) = rule.2 ++ replaceMany rules 0 rest := by
  have found := markers.find?_eq_some.mpr ⟨member, prefix_append rule.1 rest⟩
  obtain ⟨tail, same, _⟩ := markers.starts rule member
  rw [same, cons_append] at found ⊢
  rw [replaceMany, found]
  simp only [same, length_cons, Nat.add_sub_cancel]
  rw [replaceMany_skip]

theorem replaceMany_append (absent : first ∉ text) (rest : List Char) :
    replaceMany rules 0 (text ++ rest) = text ++ replaceMany rules 0 rest := by
  induction text with
  | nil => rfl
  | cons character text ih =>
    simp only [mem_cons, not_or] at absent
    rw [cons_append, replaceMany_cons, ih absent.2, cons_append]
    intro rule member here
    obtain ⟨tail, same, _⟩ := markers.starts rule member
    rw [same, cons_prefix_cons] at here
    exact absent.1 here.1

end

/-- One rule more fills the holes that its pattern leaves in what the others make of a text. -/
theorem exists_marked (markers : Markers first ((pattern, value) :: rules)) (fresh : (pattern, value) ∉ rules)
    (text : List Char) :
    ∃ marked, fill pattern marked = replaceMany rules 0 text ∧
      fill value marked = replaceMany ((pattern, value) :: rules) 0 text ∧
      marked.count none = occurrences pattern text := by
  have others := markers.subset (subset_cons_self (pattern, value) rules)
  obtain ⟨tail, same, absent⟩ := markers.starts _ mem_cons_self
  induction size : text.length using Nat.strongRecOn generalizing text with
  | _ size ih =>
    subst size
    cases text with
    | nil => exact ⟨[], rfl, rfl, rfl⟩
    | cons character text =>
      by_cases found : ∃ rule ∈ (pattern, value) :: rules, rule.1 <+: character :: text
      · obtain ⟨rule, member, rest, whole⟩ := found
        obtain ⟨ruleTail, ruleSame, ruleAbsent⟩ := markers.starts rule member
        have shorter : rest.length < (character :: text).length := by
          rw [← whole, ruleSame, length_append, length_cons]
          omega
        obtain ⟨marked, left, right, count⟩ := ih rest.length shorter rest rfl
        have replaced := markers.replaceMany_rule member rest
        rw [← whole, replaced, ← right]
        rcases mem_cons.mp member with rfl | isOther
        · -- the pattern itself: the other rules leave it as it stands
          have nowhere : ∀ other ∈ rules, ¬ other.1 <+: pattern ++ rest := by
            intro other isOther here
            have isRule := markers.unique member (prefix_append pattern rest) (mem_cons_of_mem _ isOther) here
            exact fresh (isRule ▸ isOther)
          dsimp only at same
          subst same
          rw [cons_append] at nowhere
          refine ⟨none :: marked, ?_, rfl, ?_⟩
          · rw [cons_append, replaceMany_cons nowhere, others.replaceMany_append absent, ← left]
            rfl
          · rw [occurrences_self absent, count_cons_self, count]
        · refine ⟨rule.2.map some ++ marked, ?_, ?_, ?_⟩
          · rw [others.replaceMany_rule isOther, ← left, fill_append, fill_map]
          · rw [fill_append, fill_map]
          · have elsewhere : ¬ pattern <+: rule.1 ++ rest := by
              intro here
              have isRule := markers.unique member (prefix_append rule.1 rest) mem_cons_self here
              exact fresh (isRule ▸ isOther)
            dsimp only at same
            subst same
            rw [ruleSame, cons_append] at elsewhere ⊢
            rw [occurrences, if_neg (by simpa using elsewhere), occurrences_append ruleAbsent, ← count]
            simp [count_append, count_eq_zero]
      · simp only [not_exists, not_and] at found
        obtain ⟨marked, left, right, count⟩ := ih text.length (by simp) text rfl
        refine ⟨some character :: marked, ?_, ?_, ?_⟩
        · rw [replaceMany_cons fun rule member => found rule (mem_cons_of_mem _ member), ← left]
          rfl
        · rw [replaceMany_cons found, ← right]
          rfl
        · have elsewhere := found _ mem_cons_self
          rw [occurrences, if_neg (by simpa using elsewhere), Nat.zero_add, ← count]
          simp

end Markers

/-! ### Filling holes -/

section Holes

theorem length_fill (value pattern : List Char) (marked : List (Option Char)) :
    (fill value marked).length + marked.count none * pattern.length =
      (fill pattern marked).length + marked.count none * value.length := by
  induction marked with
  | nil => simp [fill]
  | cons mark marked ih =>
    cases mark with
    | none =>
      simp only [fill, flatMap_cons, Option.elim_none, length_append, count_cons_self, Nat.add_mul] at ih ⊢
      omega
    | some character =>
      simp only [fill, flatMap_cons, Option.elim_some, length_append, length_singleton] at ih ⊢
      rw [count_cons_of_ne (by simp)]
      omega

/-- What reads without the first character of a pattern has no hole in it. -/
theorem marked_of_prefix (absent : first ∉ text) (starts : text <+: fill (first :: tail) marked) :
    ∃ behind, marked = text.map some ++ behind := by
  induction text generalizing marked with
  | nil => exact ⟨marked, rfl⟩
  | cons character text ih =>
    simp only [mem_cons, not_or] at absent
    cases marked with
    | nil => simp [fill] at starts
    | cons mark marked =>
      cases mark with
      | none =>
        rw [fill, flatMap_cons, Option.elim_none, cons_append, cons_prefix_cons] at starts
        exact absurd starts.1.symm absent.1
      | some here =>
        rw [fill, flatMap_cons, Option.elim_some, singleton_append, cons_prefix_cons] at starts
        obtain ⟨behind, rfl⟩ := ih absent.2 starts.2
        exact ⟨behind, by rw [starts.1]; rfl⟩

theorem replaceMany_nil (text : List Char) : replaceMany [] 0 text = text := by
  induction text with
  | nil => rfl
  | cons character text ih => rw [replaceMany_cons (by simp), ih]

theorem replace_cons {character : Char} (elsewhere : ¬ pattern <+: character :: rest) :
    replace pattern value (character :: rest) = character :: replace pattern value rest :=
  replaceMany_cons (by simpa using elsewhere)

theorem fill_congr (whole : marked.count none = 0) : fill value marked = fill pattern marked := by
  refine flatMap_congr ?_
  intro mark member
  cases mark with
  | none => exact absurd member (count_eq_zero.mp whole)
  | some character => rfl

variable (absent : first ∉ tail)
include absent

theorem count_le_occurrences (marked : List (Option Char)) :
    marked.count none ≤ occurrences (first :: tail) (fill (first :: tail) marked) := by
  induction marked with
  | nil => exact Nat.le_refl _
  | cons mark marked ih =>
    cases mark with
    | none =>
      rw [fill, flatMap_cons, Option.elim_none, occurrences_self absent, count_cons_self]
      exact Nat.succ_le_succ ih
    | some character =>
      rw [count_cons_of_ne (by simp)]
      exact Nat.le_trans ih (occurrences_append_le [character])

theorem Markers.singleton (value : List Char) : Markers first [(first :: tail, value)] :=
  ⟨by simpa using absent, by simp⟩

theorem replace_self (value rest : List Char) :
    replace (first :: tail) value (first :: tail ++ rest) = value ++ replace (first :: tail) value rest :=
  (Markers.singleton absent value).replaceMany_rule mem_cons_self rest

theorem exists_holes (value text : List Char) :
    ∃ marked, fill (first :: tail) marked = text ∧ fill value marked = replace (first :: tail) value text ∧
      marked.count none = occurrences (first :: tail) text := by
  obtain ⟨marked, left, held⟩ := (Markers.singleton absent value).exists_marked (by simp) text
  exact ⟨marked, left.trans (replaceMany_nil text), held⟩

theorem replace_pattern (text : List Char) : replace (first :: tail) (first :: tail) text = text := by
  obtain ⟨marked, left, right, _⟩ := exists_holes absent (first :: tail) text
  exact right.symm.trans left

/-- An occurrence that is no hole is replaced by something else, unless the value is the pattern. -/
theorem value_eq_of_stray (same : value ++ replace (first :: tail) value (fill (first :: tail) marked) = first :: tail ++ fill value marked) :
    value = first :: tail := by
  obtain ⟨again, left, right, count⟩ := exists_holes absent value (fill (first :: tail) marked)
  have replacedLength := length_fill value (first :: tail) again
  have filledLength := length_fill value (first :: tail) marked
  have fewer := count_le_occurrences absent marked
  rw [← count] at fewer
  obtain ⟨more, sum⟩ := Nat.exists_eq_add_of_le fewer
  have lengths := congrArg length same
  rw [← right, length_append, length_append] at lengths
  rw [left, sum, Nat.add_mul, Nat.add_mul] at replacedLength
  -- both sides grow by one amount for each hole, and the left one has more of them
  have sameLength : value.length = (first :: tail).length := by
    rcases Nat.lt_trichotomy value.length (first :: tail).length with shorter | equal | longer
    · have := Nat.mul_le_mul_left more (Nat.le_of_lt shorter)
      omega
    · exact equal
    · have := Nat.mul_le_mul_left more (Nat.le_of_lt longer)
      omega
  exact (append_inj same sameLength).1

/-- Replacing a pattern fills the holes and nothing else exactly when it occurs nowhere else. -/
theorem replace_fill_iff :
    replace (first :: tail) value (fill (first :: tail) marked) = fill value marked ↔
      occurrences (first :: tail) (fill (first :: tail) marked) = marked.count none ∨ value = first :: tail := by
  induction marked with
  | nil => exact iff_of_true rfl (.inl rfl)
  | cons mark marked ih =>
    cases mark with
    | none =>
      change replace _ _ (first :: tail ++ fill _ marked) = value ++ fill value marked ↔
        occurrences _ (first :: tail ++ fill _ marked) = _ ∨ _
      rw [replace_self absent, append_cancel_left_eq, ih, occurrences_self absent, count_cons_self, Nat.add_right_cancel_iff]
    | some character =>
      change replace _ _ (character :: fill _ marked) = character :: fill value marked ↔
        occurrences _ (character :: fill _ marked) = _ ∨ _
      rw [count_cons_of_ne (by simp)]
      by_cases here : first :: tail <+: character :: fill (first :: tail) marked
      · obtain ⟨rfl, starts⟩ := cons_prefix_cons.mp here
        obtain ⟨behind, rfl⟩ := marked_of_prefix absent starts
        simp only [fill_append, fill_map, ← cons_append, replace_self absent, occurrences_self absent]
        have fewer := count_le_occurrences absent behind
        constructor
        · exact fun same => .inr (value_eq_of_stray absent same)
        · rintro (same | rfl)
          · simp only [count_append, count_eq_zero.mpr (by simp : none ∉ tail.map some)] at same
            omega
          · rw [replace_pattern absent]
      · rw [replace_cons here, cons_inj_right, ih, occurrences, if_neg (by simpa using here), Nat.zero_add]

theorem replace_eq_self_iff :
    replace (first :: tail) value text = text ↔ occurrences (first :: tail) text = 0 ∨ value = first :: tail := by
  have unmarked : (text.map some).count none = 0 := by simp [count_eq_zero]
  have filled := @replace_fill_iff first tail value (text.map some) absent
  rwa [fill_map, fill_map, unmarked] at filled

theorem occurrences_fill_le (otherAbsent : first ∉ other)
    (apart : ∀ rest, ¬ first :: tail <+: first :: other ++ rest) (value : List Char) (marked : List (Option Char)) :
    occurrences (first :: tail) (fill (first :: other) marked) ≤ occurrences (first :: tail) (fill value marked) := by
  induction marked with
  | nil => exact Nat.le_refl _
  | cons mark marked ih =>
    cases mark with
    | none =>
      change occurrences _ (first :: other ++ fill _ marked) ≤ occurrences _ (value ++ fill value marked)
      rw [cons_append, occurrences, if_neg (by simpa using apart _), occurrences_append otherAbsent, Nat.zero_add]
      exact Nat.le_trans ih (occurrences_append_le value)
    | some character =>
      change occurrences _ (character :: fill _ marked) ≤ occurrences _ (character :: fill value marked)
      refine Nat.add_le_add ?_ ih
      by_cases here : first :: tail <+: character :: fill (first :: other) marked
      · obtain ⟨rfl, starts⟩ := cons_prefix_cons.mp here
        obtain ⟨behind, rfl⟩ := marked_of_prefix absent starts
        have still : first :: tail <+: first :: fill value (tail.map some ++ behind) := by
          rw [fill_append, fill_map]
          exact prefix_append (first :: tail) _
        simp only [ isPrefixOf_iff_prefix.mpr still, if_true]
        split <;> decide
      · simp [here]

end Holes

end Cast.Foundation
