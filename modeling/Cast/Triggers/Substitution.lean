import Mathlib.Data.List.Induction
import Mathlib.Data.List.Nodup
import Cast.Foundation.Replacement
import Cast.Foundation.Texts

/-! Filling captured variables into the handlers of a trigger, as `triggers/src/format.rs` does it.
Each variable is replaced in what the ones before it have made of the text, so a value that was put
in may be searched again. -/

namespace Cast.Triggers

open Foundation List

inductive Handler where
  | run (run : List Char) (args : List (List Char))
  | delete (delete : List (List Char))
deriving DecidableEq

/-- The variables of a match, in the order of their map. -/
abbrev Variables := List (List Char × List Char)

def placeholder (name : List Char) : List Char := '$' :: '(' :: name ++ [')']

/-- The variables are replaced one after the other. -/
def substitute (captured : Variables) (template : List Char) : List Char :=
  captured.foldl (fun text entry => replace (placeholder entry.1) entry.2 text) template

def Handler.compiled (captured : Variables) : Handler → Handler
  | .run command args => .run (substitute captured command) (args.map (substitute captured))
  | .delete paths => .delete paths

/-! ### Replacing all variables at once -/

def placeholders (captured : Variables) : List (List Char × List Char) :=
  captured.map fun entry => (placeholder entry.1, entry.2)

/-- Each occurrence of a variable gives way to its value, and values are not expanded. -/
def expand (captured : Variables) (template : List Char) : List Char := replaceMany (placeholders captured) 0 template

def Handler.expanded (captured : Variables) : Handler → Handler
  | .run command args => .run (expand captured command) (args.map (expand captured))
  | .delete paths => .delete (paths.map (expand captured))

/-- The variables are the groups of a regular expression: their names are distinct, and have no
character that begins or ends a placeholder. -/
structure Captures (captured : Variables) : Prop where
  distinct : (captured.map Prod.fst).Nodup
  named : ∀ entry ∈ captured, '$' ∉ entry.1 ∧ ')' ∉ entry.1

/-- Filling in the other variables completes no placeholder of a variable that would change it. -/
def Literal (captured : Variables) (text : List Char) : Prop :=
  ∀ entry ∈ captured, entry.2 = placeholder entry.1 ∨
    occurrences (placeholder entry.1) (expand (captured.filter fun other => other.1 ≠ entry.1) text) =
      occurrences (placeholder entry.1) text

/-- No values complete a placeholder in a command, and there is none in a path. -/
def Handler.Literal (captured : Variables) : Handler → Prop
  | .run command args => ∀ text ∈ command :: args, Triggers.Literal captured text
  | .delete paths => ∀ path ∈ paths, ∀ entry ∈ captured, entry.2 = placeholder entry.1 ∨
      occurrences (placeholder entry.1) path = 0

instance (captured : Variables) (text : List Char) : Decidable (Literal captured text) :=
  inferInstanceAs (Decidable (∀ _ ∈ _, _))

variable {captured filled left others more : Variables} {entry : List Char × List Char} {name other text : List Char}

theorem placeholder_prefix_iff (ends : ')' ∉ name) (otherEnds : ')' ∉ other) (rest : List Char) :
    placeholder other <+: placeholder name ++ rest ↔ other = name := by
  constructor
  · rintro ⟨behind, same⟩
    have texts : other ++ ')' :: behind = name ++ ')' :: rest := by simpa [placeholder] using same
    have parts := splitOnce_eq_some.mpr ⟨texts, ends⟩
    rw [splitOnce_eq_some.mpr ⟨rfl, otherEnds⟩] at parts
    cases parts
    rfl
  · rintro rfl
    exact prefix_append _ _

theorem absent_tail (plain : '$' ∉ name) : '$' ∉ '(' :: name ++ [')'] := by
  simp [plain]

namespace Captures

section

variable (captures : Captures captured)
include captures

theorem perm (permuted : others.Perm captured) : Captures others where
  distinct := (permuted.map Prod.fst).nodup_iff.mpr captures.distinct
  named entry member := captures.named entry (permuted.mem_iff.mp member)

theorem sublist (part : others <+ captured) : Captures others where
  distinct := captures.distinct.sublist (part.map _)
  named entry member := captures.named entry (part.subset member)

theorem markers : Markers '$' (placeholders captured) where
  starts := by
    intro rule member
    obtain ⟨entry, isEntry, rfl⟩ := mem_map.mp member
    exact ⟨_, rfl, absent_tail (captures.named entry isEntry).1⟩
  apart := by
    intro rule member other isOther here
    obtain ⟨entry, isEntry, rfl⟩ := mem_map.mp member
    obtain ⟨again, isAgain, rfl⟩ := mem_map.mp isOther
    rw [← append_nil (placeholder again.1, again.2).1,
      placeholder_prefix_iff (captures.named again isAgain).2 (captures.named entry isEntry).2 []] at here
    rw [inj_on_of_nodup_map captures.distinct isEntry isAgain here]

theorem expand_perm (permuted : others.Perm captured) :
    expand others text = expand captured text :=
  captures.markers.replaceMany_perm (permuted.map _) 0

end

theorem exists_marked (captures : Captures (entry :: others)) (text : List Char) :
    ∃ marked, fill (placeholder entry.1) marked = expand others text ∧
      fill entry.2 marked = expand (entry :: others) text ∧
      marked.count none = occurrences (placeholder entry.1) text := by
  refine captures.markers.exists_marked ?_ text
  intro known
  obtain ⟨again, isAgain, same⟩ := mem_map.mp known
  have sameName : again.1 = entry.1 := by simpa [placeholder] using (Prod.mk.inj same).1
  exact (nodup_cons.mp captures.distinct).1 (sameName ▸ mem_map_of_mem isAgain)

/-- Replacing one more variable in what the others have made of a text. -/
theorem replace_expand_iff (captures : Captures (entry :: others)) :
    replace (placeholder entry.1) entry.2 (expand others text) = expand (entry :: others) text ↔
      entry.2 = placeholder entry.1 ∨
        occurrences (placeholder entry.1) (expand others text) = occurrences (placeholder entry.1) text := by
  obtain ⟨marked, before, after, count⟩ := captures.exists_marked text
  have absent := absent_tail (captures.named entry mem_cons_self).1
  rw [← before, ← after, ← count, or_comm]
  exact replace_fill_iff absent

theorem occurrences_le (captures : Captures (entry :: (more ++ others))) (text : List Char) :
    occurrences (placeholder entry.1) (expand others text) ≤
      occurrences (placeholder entry.1) (expand (more ++ others) text) := by
  induction more with
  | nil => exact Nat.le_refl _
  | cons extra more ih =>
    have without := captures.sublist ((sublist_cons_self extra (more ++ others)).cons_cons entry)
    have last : Captures (extra :: (more ++ others)) := captures.sublist (sublist_cons_self _ _)
    obtain ⟨marked, before, after, _⟩ := last.exists_marked text
    have named := captures.named entry mem_cons_self
    have extraNamed := captures.named extra (by simp)
    have apart : entry.1 ≠ extra.1 := by
      intro same
      exact (nodup_cons.mp captures.distinct).1 (by simp [same])
    refine Nat.le_trans (ih without) ?_
    change occurrences _ (expand (more ++ others) text) ≤ occurrences _ (expand (extra :: (more ++ others)) text)
    rw [← before, ← after]
    refine occurrences_fill_le (absent_tail named.1) (absent_tail extraNamed.1) ?_ _ _
    intro behind here
    exact apart ((placeholder_prefix_iff extraNamed.2 named.2 behind).mp here)

theorem filter_perm (captures : Captures captured) (permuted : (entry :: others).Perm captured) :
    others.Perm (captured.filter fun other => other.1 ≠ entry.1) := by
  have apart := (nodup_cons.mp (captures.perm permuted).distinct).1
  have kept := permuted.filter fun other => other.1 ≠ entry.1
  rw [filter_cons_of_neg (by simp), filter_eq_self.mpr] at kept
  · exact kept
  · intro other member
    exact decide_eq_true fun same => apart (same ▸ mem_map_of_mem member)

/-- The variables that are filled in make of a text what they make of it at once, at every stage and
in whatever order, exactly when no values complete a placeholder. -/
theorem substitute_iff (captures : Captures captured) :
    (∀ filled left, (filled ++ left).Perm captured → substitute filled text = expand filled text) ↔
      Literal captured text := by
  constructor
  · intro stages entry member
    have permuted := (perm_cons_erase member).symm
    have rest := captures.filter_perm permuted
    have whole := captures.perm permuted
    have before := stages (captured.erase entry) [entry] ((perm_append_singleton _ _).trans permuted)
    have last := perm_append_singleton entry (captured.erase entry)
    have after := stages (captured.erase entry ++ [entry]) [] (by rw [append_nil]; exact last.trans permuted)
    rw [substitute, foldl_append, foldl_cons, foldl_nil, ← substitute, before, whole.expand_perm last] at after
    rw [(whole.sublist (sublist_cons_self _ _)).expand_perm rest.symm]
    exact whole.replace_expand_iff.mp after
  · intro literal filled
    induction filled using List.reverseRecOn with
    | nil => exact fun _ _ => (replaceMany_nil text).symm
    | append_singleton filled entry ih =>
      intro left permuted
      have cycled : (entry :: (left ++ filled)).Perm captured := by
        rw [append_assoc] at permuted
        exact perm_append_comm.trans permuted
      have whole := captures.perm cycled
      have here := whole.sublist ((sublist_append_right left filled).cons_cons entry)
      have first : occurrences (placeholder entry.1) text ≤ occurrences (placeholder entry.1) (expand filled text) := by
        have least := @occurrences_le [] filled entry (by rwa [append_nil]) text
        rwa [append_nil, expand, placeholders, map_nil, replaceMany_nil] at least
      have last := whole.occurrences_le text
      have complete := literal entry (cycled.subset mem_cons_self)
      rw [(whole.sublist (sublist_cons_self _ _)).expand_perm (captures.filter_perm cycled).symm] at complete
      have now : entry.2 = placeholder entry.1 ∨ occurrences (placeholder entry.1) (expand filled text) =
          occurrences (placeholder entry.1) text := complete.imp_right fun same => by omega
      rw [substitute, foldl_append, foldl_cons, foldl_nil, ← substitute,
        ih (entry :: left) (by rwa [append_assoc] at permuted), here.replace_expand_iff.mpr now]
      exact (here.expand_perm (perm_append_singleton _ _)).symm

theorem expand_eq_self (captures : Captures filled)
    (free : ∀ entry ∈ filled, entry.2 = placeholder entry.1 ∨ occurrences (placeholder entry.1) text = 0) :
    expand filled text = text := by
  induction filled with
  | nil => exact replaceMany_nil text
  | cons entry filled ih =>
    obtain ⟨here, later⟩ := forall_mem_cons.mp free
    obtain ⟨marked, before, after, count⟩ := captures.exists_marked text
    rw [ih (captures.sublist (sublist_cons_self _ _)) later] at before
    rw [← after]
    refine Eq.trans ?_ before
    rcases here with same | none
    · rw [same]
    · exact fill_congr (count.trans none)

/-- Nothing is left to fill in where there is no placeholder that would change. -/
theorem expand_eq_self_iff (captures : Captures captured) :
    (∀ filled left, (filled ++ left).Perm captured → expand filled text = text) ↔
      ∀ entry ∈ captured, entry.2 = placeholder entry.1 ∨ occurrences (placeholder entry.1) text = 0 := by
  constructor
  · intro stages entry member
    have single := stages [entry] (captured.erase entry) (perm_cons_erase member).symm
    exact ((replace_eq_self_iff (absent_tail (captures.named entry member).1)).mp single).symm
  · intro free filled left permuted
    refine ((captures.perm permuted).sublist (sublist_append_left _ _)).expand_eq_self ?_
    intro entry member
    exact free entry (permuted.subset (mem_append_left _ member))

end Captures

end Cast.Triggers
