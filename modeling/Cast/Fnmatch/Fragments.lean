import Mathlib.Data.List.TakeWhile
import Cast.Foundation.Checks
import Cast.Foundation.Texts

/-! Glob patterns with groups, split into fragments as `fnmatch/src/lib.rs` does it. The walker goes
by bytes and ends at the first character that has more than one. -/

namespace Cast.Fnmatch

open Foundation List

variable {character : Char} {rest : List Char}

inductive Fragment where
  | matchOne
  | matchAnyExceptForwardSlash
  | matchAny
  | backSlash
  | dot
  | forwardSlash
  | text (content : List Char)
  | group (name : List Char) (elements : List Fragment)

inductive PatternError where
  | group

/-- The characters that are a fragment of their own. -/
def token? : Char → Option Fragment
  | '?' => some .matchOne
  | '*' => some .matchAnyExceptForwardSlash
  | '\\' => some .backSlash
  | '/' => some .forwardSlash
  | '.' => some .dot
  | _ => none

def flush (text : List Char) : List Fragment := if text = [] then [] else [.text text]

/-- The loop, given the text that is pending. A group is pushed without flushing it. -/
def scan (text input : List Char) : Except PatternError (List Fragment) :=
  match input with
  | [] => .ok (flush text)
  | '*' :: '*' :: rest => do return flush text ++ .matchAny :: (← scan [] rest)
  | '(' :: rest =>
    match _found : splitOnce ')' rest with
    | none => .error .group
    | some (inner, after) =>
      match _parts : splitOnce ':' inner with
      | none => .error .group
      | some (key, value) =>
        if ':' ∈ value then .error .group
        else do
          let elements ← scan [] value
          return .group key elements :: (← scan text after)
  | ')' :: rest => scan text rest
  | character :: rest =>
    match token? character with
    | some token => do return flush text ++ token :: (← scan [] rest)
    | none => scan (text ++ [character]) rest
termination_by input.length
decreasing_by
  all_goals simp only [length_cons]
  · omega
  · have := length_of_splitOnce _found
    have := length_of_splitOnce _parts
    omega
  · have := length_of_splitOnce _found
    omega
  · omega
  · omega
  · omega

def isAscii (character : Char) : Bool := character.toNat < 128

def fragmentsFromString (pattern : List Char) : Except PatternError (List Fragment) :=
  scan [] (pattern.takeWhile isAscii)

/-! ### What patterns mean -/

mutual
def Fragment.render : Fragment → List Char
  | .matchOne => ['?']
  | .matchAnyExceptForwardSlash => ['*']
  | .matchAny => ['*', '*']
  | .backSlash => ['\\']
  | .dot => ['.']
  | .forwardSlash => ['/']
  | .text content => content
  | .group name elements => '(' :: name ++ ':' :: renderAll elements ++ [')']
def renderAll : List Fragment → List Char
  | [] => []
  | fragment :: rest => fragment.render ++ renderAll rest
end

/-- A pattern in which parentheses only delimit groups. -/
inductive Glob where
  | done
  | literal (character : Char) (rest : Glob)
  | group (name : List Char) (subpattern rest : Glob)

namespace Glob

def pattern : Glob → List Char
  | done => []
  | literal character rest => character :: rest.pattern
  | group name subpattern rest => '(' :: name ++ ':' :: subpattern.pattern ++ ')' :: rest.pattern

def WellFormed : Glob → Prop
  | done => True
  | literal character rest => isAscii character = true ∧ character ∉ ['(', ')'] ∧ rest.WellFormed
  | group name subpattern rest =>
    (∀ character ∈ name, isAscii character = true ∧ character ∉ ['(', ')', ':']) ∧
      subpattern.WellFormed ∧ rest.WellFormed

/-- No group follows pending text, and no subpattern has a colon. -/
def Regular (pending : Bool) : Glob → Prop
  | done => True
  | literal character rest => rest.Regular (token? character).isNone
  | group _ subpattern rest => pending = false ∧ ':' ∉ subpattern.pattern ∧ rest.Regular false

end Glob

/-! ### Rendering fragments -/

variable {first second : List Fragment} {text value after : List Char} {glob : Glob}

theorem renderAll_append : renderAll (first ++ second) = renderAll first ++ renderAll second := by
  induction first with
  | nil => rfl
  | cons fragment rest ih => simp [renderAll, ih]

theorem renderAll_flush : renderAll (flush text) = text := by
  by_cases empty : text = []
  · simp [flush, empty, renderAll]
  · simp [flush, empty, renderAll, Fragment.render]

theorem render_token {token : Fragment} (isToken : token? character = some token) :
    token.render = [character] := by
  unfold token? at isToken
  split at isToken <;> cases isToken <;> rfl

namespace Glob

theorem regular_of_noColon {pending : Bool} (noColon : ':' ∉ glob.pattern) : glob.Regular pending := by
  induction glob generalizing pending with
  | done => trivial
  | literal character rest ih =>
    simp only [pattern, mem_cons, not_or] at noColon
    exact ih noColon.2
  | group name subpattern rest _ _ => simp [pattern] at noColon

theorem eq_literal (other : character ≠ '(')
    (same : glob.pattern = character :: rest) : ∃ tail, glob = literal character tail ∧ tail.pattern = rest := by
  cases glob with
  | done => cases same
  | literal first tail =>
    cases same
    exact ⟨tail, rfl, rfl⟩
  | group name subpattern tail => exact absurd (cons.inj same).1.symm other

/-- The first closing parenthesis after a subpattern: without a colon there is no nested group, and
otherwise the part before it has a colon, too. -/
theorem splitOnce_subpattern (wellFormed : glob.WellFormed) (rest : List Char) :
    ∃ value after, splitOnce ')' (glob.pattern ++ ')' :: rest) = some (value, after) ∧
      (':' ∈ glob.pattern → ':' ∈ value) ∧ (':' ∉ glob.pattern → value = glob.pattern ∧ after = rest) := by
  induction glob generalizing rest with
  | done => exact ⟨[], rest, rfl, by simp [pattern], fun _ => ⟨rfl, rfl⟩⟩
  | literal character tail ih =>
    obtain ⟨_, plain, tailFormed⟩ := wellFormed
    simp only [mem_cons, not_or] at plain
    obtain ⟨value, after, split, colon, whole⟩ := ih tailFormed rest
    refine ⟨character :: value, after, ?_, by grind [pattern], by grind [pattern]⟩
    simp [pattern, splitOnce, plain.2.1, split]
  | group name subpattern tail ih _ =>
    obtain ⟨plain, subFormed, _⟩ := wellFormed
    obtain ⟨value, after, split, _⟩ := ih subFormed (tail.pattern ++ ')' :: rest)
    have opened : splitOnce ')' (('(' :: name ++ [':']) ++ (subpattern.pattern ++ ')' :: (tail.pattern ++ ')' :: rest))) =
        some ('(' :: name ++ [':'] ++ value, after) := by
      rw [splitOnce_append (by grind), split]
      rfl
    exact ⟨'(' :: name ++ [':'] ++ value, after, by simpa [pattern] using opened, by simp, by simp [pattern]⟩

theorem eq_group (wellFormed : glob.WellFormed) (same : glob.pattern = '(' :: rest) :
    ∃ name subpattern tail value after, glob = group name subpattern tail ∧
      splitOnce ')' rest = some (name ++ ':' :: value, after) ∧
      splitOnce ':' (name ++ ':' :: value) = some (name, value) ∧
      (':' ∈ subpattern.pattern → ':' ∈ value) ∧
      (':' ∉ subpattern.pattern → value = subpattern.pattern ∧ after = tail.pattern) := by
  cases glob with
  | done => cases same
  | literal character tail =>
    cases same
    exact absurd wellFormed.2.1 (by decide)
  | group name subpattern tail =>
    cases same
    obtain ⟨plain, subFormed, _⟩ := wellFormed
    obtain ⟨value, after, split, colon, whole⟩ := splitOnce_subpattern subFormed tail.pattern
    have opened : splitOnce ')' ((name ++ [':']) ++ (subpattern.pattern ++ ')' :: tail.pattern)) =
        some (name ++ [':'] ++ value, after) := by
      rw [splitOnce_append (by grind), split]
      rfl
    refine ⟨name, subpattern, tail, value, after, rfl, by simpa using opened, ?_, colon, whole⟩
    exact splitOnce_eq_some.mpr ⟨rfl, by grind⟩

end Glob

theorem Glob.WellFormed.isAscii (wellFormed : glob.WellFormed) :
    ∀ character ∈ glob.pattern, isAscii character = true := by
  induction glob with
  | done => simp [Glob.pattern]
  | literal character tail ih =>
    simpa [Glob.pattern, wellFormed.1] using ih wellFormed.2.2
  | group name subpattern tail ihSub ih =>
    obtain ⟨plain, subFormed, tailFormed⟩ := wellFormed
    simp only [Glob.pattern, forall_mem_append, forall_mem_cons]
    exact ⟨⟨⟨rfl, fun character member => (plain character member).1⟩, rfl, ihSub subFormed⟩, rfl, ih tailFormed⟩

theorem exists_pushed {result : Except PatternError (List Fragment)} (text : List Char)
    (token : Fragment) :
    (∃ fragments, (do return flush text ++ token :: (← result)) = .ok fragments ∧
      renderAll fragments = text ++ (token.render ++ rest)) ↔
      ∃ fragments, result = .ok fragments ∧ renderAll fragments = rest := by
  cases result with
  | error error => simp
  | ok fragments => simp [renderAll_append, renderAll_flush, renderAll]

theorem scan_renders_iff (wellFormed : glob.WellFormed) (noGroup : '(' ∉ text) :
    (∃ fragments, scan text glob.pattern = .ok fragments ∧ renderAll fragments = text ++ glob.pattern) ↔
      glob.Regular (text ≠ []) := by
  generalize same : glob.pattern = input
  fun_induction scan text input generalizing glob with
  | case1 text =>
    cases glob with
    | done => simp [renderAll_flush, Glob.Regular]
    | _ => cases same
  | case2 text rest ih =>
    obtain ⟨tail, rfl, sameTail⟩ := Glob.eq_literal (by decide) same
    obtain ⟨tail, rfl, sameRest⟩ := Glob.eq_literal (by decide) sameTail
    have later := ih wellFormed.2.2.2.2 not_mem_nil sameRest
    exact (exists_pushed text .matchAny).trans later
  | case3 text rest found =>
    obtain ⟨_, _, _, _, _, _, split, _⟩ := Glob.eq_group wellFormed same
    rw [split] at found
    cases found
  | case4 text rest inner after found parts =>
    obtain ⟨_, _, _, _, _, _, split, splitName, _⟩ := Glob.eq_group wellFormed same
    rw [split] at found
    cases found
    rw [splitName] at parts
    cases parts
  | case5 text rest inner after found key value parts isColon =>
    obtain ⟨name, subpattern, tail, _, _, rfl, split, splitName, _, whole⟩ := Glob.eq_group wellFormed same
    rw [split] at found
    cases found
    rw [splitName] at parts
    cases parts
    have colon : ':' ∈ subpattern.pattern := by
      by_contra noColon
      exact noColon ((whole noColon).1 ▸ isColon)
    simp [Glob.Regular, colon]
  | case6 text rest inner after found key value parts isColon ihValue ihAfter =>
    obtain ⟨name, subpattern, tail, _, _, rfl, split, splitName, colon, whole⟩ := Glob.eq_group wellFormed same
    rw [split] at found
    cases found
    rw [splitName] at parts
    cases parts
    have noColon : ':' ∉ subpattern.pattern := fun held => isColon (colon held)
    obtain ⟨rfl, rfl⟩ := whole noColon
    obtain ⟨elements, scanned, rendered⟩ := (ihValue wellFormed.2.1 not_mem_nil rfl).mpr (Glob.regular_of_noColon noColon)
    cases same
    cases text with
    | nil =>
      have later := (exists_pushed [] (.group key elements)).trans (ihAfter wellFormed.2.2 noGroup rfl)
      simpa [scanned, flush, Fragment.render, rendered, Glob.Regular, noColon] using later
    | cons first text =>
      -- The pending text is rendered after the group it stands before.
      simp only [mem_cons, not_or] at noGroup
      simp only [scanned, ok_bind, bind_eq_ok, pure_eq_ok]
      simp [renderAll, Fragment.render, noGroup.1, Glob.Regular]
  | case7 text rest ih =>
    obtain ⟨tail, rfl, same⟩ := Glob.eq_literal (by decide) same
    exact absurd wellFormed.2.1 (by decide)
  | case8 text character rest a b c token isToken ih =>
    obtain ⟨tail, rfl, sameTail⟩ := Glob.eq_literal b same
    have later := (exists_pushed text token).trans (ih wellFormed.2.2 not_mem_nil sameTail)
    simpa [render_token isToken, Glob.Regular, isToken] using later
  | case9 text character rest a b c isToken ih =>
    obtain ⟨tail, rfl, sameTail⟩ := Glob.eq_literal b same
    simpa [Glob.Regular, isToken] using ih wellFormed.2.2 (by simp [noGroup, Ne.symm b]) sameTail

/-- A pattern whose parentheses delimit groups is given back by its fragments exactly when no text
is pending where a group starts and no subpattern has a colon, as that of a nested group has. -/
theorem fragments_render_iff {glob : Glob} (wellFormed : glob.WellFormed) :
    (∃ fragments, fragmentsFromString glob.pattern = .ok fragments ∧ renderAll fragments = glob.pattern) ↔
      glob.Regular false := by
  rw [fragmentsFromString, takeWhile_eq_self_iff.mpr wellFormed.isAscii]
  exact scan_renders_iff wellFormed not_mem_nil

/-- The pattern `/(v:*)`. -/
theorem slash_before_group_renders : ∃ fragments,
    fragmentsFromString "/(v:*)".toList = .ok fragments ∧ renderAll fragments = "/(v:*)".toList := by
  have formed : (Glob.literal '/' (.group ['v'] (.literal '*' .done) .done)).WellFormed := by
    simp [Glob.WellFormed, isAscii]
  exact (fragments_render_iff formed).mpr (by simp [Glob.Regular, Glob.pattern, token?])

/-- The text before a group comes out after it. -/
theorem text_before_group_is_moved : ∃ fragments,
    fragmentsFromString "a(v:*)".toList = .ok fragments ∧ renderAll fragments = "(v:*)a".toList := by
  refine ⟨[.group ['v'] [.matchAnyExceptForwardSlash], .text ['a']], ?_, ?_⟩
  · simp [fragmentsFromString, takeWhile, isAscii, scan, splitOnce, token?, flush]
  · simp [renderAll, Fragment.render]

end Cast.Fnmatch
