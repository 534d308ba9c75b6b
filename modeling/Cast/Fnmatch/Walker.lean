import Cast.Fnmatch.Fragments
import Cast.Foundation.Machine

/-! The walker over a pattern. It counts bytes, and finds a character only where the next byte is all
of it. -/

namespace Cast.Fnmatch

open Foundation List

variable {text before middle rest after : List Char} {character : Char}

/-- The text before and after a byte index, if a character starts there or the text ends. -/
def splitAtByte (index : Nat) : List Char → Option (List Char × List Char)
  | [] => if index = 0 then some ([], []) else none
  | first :: rest =>
    if index = 0 then some ([], first :: rest)
    else if index < first.utf8Size then none
    else (splitAtByte (index - first.utf8Size) rest).map fun parts => (first :: parts.1, parts.2)

/-- The text from one byte index to another, as `str::get` gives it. -/
def slice (text : List Char) (start stop : Nat) : Option (List Char) :=
  if stop < start then none
  else (splitAtByte start text).bind fun parts => (splitAtByte (stop - start) parts.2).map Prod.fst

structure StringWalker where
  data : List Char
  index : Nat
  length : Nat

namespace StringWalker

def new (data : List Char) : StringWalker := ⟨data, 0, byteLength data⟩

def eat (walker : StringWalker) (much : Nat) : StringWalker := { walker with index := walker.index + much }

def peek (walker : StringWalker) : Option Char :=
  (slice walker.data walker.index (walker.index + 1)).bind head?

def next (walker : StringWalker) : Option Char × StringWalker :=
  if walker.index ≥ walker.length then (none, walker) else (walker.peek, walker.eat 1)

/-- What iterating yields. -/
def characters (walker : StringWalker) : List Char :=
  match _found : walker.next.1 with
  | none => []
  | some character => character :: walker.next.2.characters
termination_by walker.length - walker.index
decreasing_by
  unfold next at _found ⊢
  split_ifs at _found ⊢
  simp only [eat]
  omega

def substringTo (walker : StringWalker) (character : Char) : Option (List Char) :=
  (walker.characters.findIdx? (· == character)).bind fun found =>
    slice walker.data walker.index (walker.index + found)

/-- The walker between two parts of its text. -/
def standing (before rest : List Char) : StringWalker :=
  ⟨before ++ rest, byteLength before, byteLength (before ++ rest)⟩

end StringWalker

open StringWalker

/-- What the loop over a pattern has passed, and its walker then. The second star of `**` is eaten as
`next` takes it. -/
inductive Reached (text : List Char) : List Char → StringWalker → Prop
  | start : Reached text [] (new text)
  | next {seen : List Char} {walker moved : StringWalker} {character : Char} (reached : Reached text seen walker)
      (found : walker.next = (some character, moved)) : Reached text (seen ++ [character]) moved
  | eat {seen middle : List Char} {walker : StringWalker} {character : Char} (reached : Reached text seen walker)
      (found : walker.substringTo character = some middle) :
      Reached text (seen ++ (middle ++ [character])) (walker.eat (byteLength middle + 1))

/-- Iterating yields every character, the walker always stands behind what it has passed and finds
the next occurrence of a character from there, and nothing ends before the text does. -/
structure WalksThrough (text : List Char) : Prop where
  yields : (new text).characters = text
  stands : ∀ seen walker, Reached text seen walker → seen <+: text ∧ walker.index = byteLength seen
  finds : ∀ seen walker, Reached text seen walker → ∀ middle character after,
    text = seen ++ (middle ++ character :: after) → character ∉ middle → walker.substringTo character = some middle
  ends : ∀ seen walker, Reached text seen walker → walker.next.1 = none → seen = text

def Ascii (text : List Char) : Prop := ∀ character ∈ text, isAscii character = true

@[simp] theorem byteLength_append : byteLength (before ++ rest) = byteLength before + byteLength rest := by
  simp [byteLength]

theorem isAscii_iff : isAscii character = true ↔ byteLength [character] = 1 := by
  rw [isAscii, decide_eq_true_iff, byteLength, map_singleton, sum_singleton, Char.utf8Size_eq_one_iff,
    UInt32.le_iff_toNat_le]
  exact Nat.lt_succ_iff

theorem splitAtByte_append (before rest : List Char) :
    splitAtByte (byteLength before) (before ++ rest) = some (before, rest) := by
  induction before with
  | nil => cases rest <;> rfl
  | cons first before ih =>
    have positive := first.utf8Size_pos
    have split : byteLength (first :: before) = first.utf8Size + byteLength before := by simp [byteLength]
    rw [split, cons_append, splitAtByte, if_neg (by omega), if_neg (by omega), Nat.add_sub_cancel_left, ih]
    rfl

theorem slice_append (before rest : List Char) (length : Nat) :
    slice (before ++ rest) (byteLength before) (byteLength before + length) = (splitAtByte length rest).map Prod.fst := by
  rw [slice, if_neg (by omega), splitAtByte_append, Nat.add_sub_cancel_left]
  rfl

namespace StringWalker

theorem next_standing_nil : (standing before []).next = (none, standing before []) := by simp [next, standing]

theorem peek_standing_nil : (standing before []).peek = none := by
  rw [peek, standing, slice_append]
  rfl

theorem peek_standing_cons : (standing before (character :: rest)).peek =
    if isAscii character then some character else none := by
  have positive := character.utf8Size_pos
  have split := splitAtByte_append [character] rest
  rw [peek, standing, slice_append]
  by_cases ascii : isAscii character = true
  · rw [isAscii_iff.mp ascii] at split
    rw [if_pos ascii, ← singleton_append, split]
    rfl
  · have wide : 1 < character.utf8Size := by
      simp only [isAscii_iff, byteLength, map_singleton, sum_singleton] at ascii
      omega
    rw [if_neg ascii, splitAtByte, if_neg (by decide), if_pos wide]
    rfl

theorem next_standing_cons : (standing before (character :: rest)).next =
    (if isAscii character then some character else none, (standing before (character :: rest)).eat 1) := by
  have positive := character.utf8Size_pos
  rw [next, if_neg (by simp [standing, byteLength]; omega), peek_standing_cons]

theorem eat_standing (before middle rest : List Char) :
    (standing before (middle ++ rest)).eat (byteLength middle) = standing (before ++ middle) rest := by
  simp [eat, standing]

/-- Past a text and the one-byte character that follows it. -/
theorem eat_past (ascii : isAscii character = true) (before middle rest : List Char) :
    (standing before (middle ++ character :: rest)).eat (byteLength middle + 1) =
      standing (before ++ (middle ++ [character])) rest := by
  have moved := eat_standing before (middle ++ [character]) rest
  rwa [byteLength_append, isAscii_iff.mp ascii, append_assoc, singleton_append] at moved

theorem next_standing_ascii (ascii : isAscii character = true) :
    (standing before (character :: rest)).next = (some character, standing (before ++ [character]) rest) := by
  rw [next_standing_cons, if_pos ascii]
  exact congrArg _ (eat_past ascii before [] rest)

theorem characters_eq (walker : StringWalker) : walker.characters =
    walker.next.1.elim [] fun character => character :: walker.next.2.characters := by
  rw [characters]
  split <;> simp [*]

theorem characters_standing (before rest : List Char) :
    (standing before rest).characters = rest.takeWhile isAscii := by
  induction rest generalizing before with
  | nil =>
    rw [characters_eq, next_standing_nil]
    rfl
  | cons character rest ih =>
    rw [characters_eq]
    by_cases ascii : isAscii character = true
    · simp [next_standing_ascii ascii, ascii, ih]
    · simp [next_standing_cons, ascii]

end StringWalker

theorem fragmentsFromString_eq (pattern : List Char) :
    fragmentsFromString pattern = scan [] (new pattern).characters :=
  congrArg (scan []) (characters_standing [] pattern).symm

theorem substringTo_standing (ascii : Ascii rest) :
    (standing before rest).substringTo character = (splitOnce character rest).map Prod.fst := by
  rw [substringTo, characters_standing, takeWhile_eq_self_iff.mpr ascii]
  cases split : splitOnce character rest with
  | none =>
    have absent : character ∉ rest := by
      intro member
      obtain ⟨middle, after, same, first⟩ := eq_append_cons_of_mem member
      cases split.symm.trans (splitOnce_eq_some.mpr ⟨same, first⟩)
    rw [findIdx?_eq_none_iff.mpr fun other member => by grind]
    rfl
  | some parts =>
    obtain ⟨middle, after⟩ := parts
    obtain ⟨rfl, first⟩ := splitOnce_eq_some.mp split
    have single : byteLength middle = middle.length := by
      have sizes : middle.map Char.utf8Size = middle.map fun _ => 1 := by
        refine map_congr_left fun other member => ?_
        simpa [byteLength] using isAscii_iff.mp (ascii other (mem_append_left _ member))
      simp [byteLength, sizes]
    have index : findIdx? (· == character) (middle ++ character :: after) = some (byteLength middle) := by
      rw [findIdx?_append, findIdx?_eq_none_iff.mpr fun other member => by grind]
      simp [single, findIdx?_cons]
    rw [index, Option.bind_some, standing, slice_append, splitAtByte_append]
    rfl

/-- On a text of one-byte characters the loop keeps its walker between characters. -/
theorem Reached.standing {seen : List Char} {walker : StringWalker} (ascii : Ascii text)
    (reached : Reached text seen walker) : ∃ rest, text = seen ++ rest ∧ walker = .standing seen rest := by
  induction reached with
  | start => exact ⟨text, rfl, rfl⟩
  | @next seen _ _ character _ found ih =>
    obtain ⟨rest, rfl, rfl⟩ := ih
    cases rest with
    | nil => simp [next_standing_nil] at found
    | cons first rest =>
      rw [next_standing_ascii (ascii first (by simp))] at found
      cases found
      exact ⟨rest, by simp, rfl⟩
  | @eat seen middle _ character _ found ih =>
    obtain ⟨rest, rfl, rfl⟩ := ih
    rw [substringTo_standing fun _ member => ascii _ (mem_append_right _ member)] at found
    obtain ⟨⟨_, after⟩, split, rfl⟩ := Option.map_eq_some_iff.mp found
    obtain ⟨rfl, -⟩ := splitOnce_eq_some.mp split
    exact ⟨after, by simp, eat_past (ascii character (by simp)) ..⟩

/-- What the loop asks of its walker is what `scan` asks of the characters that are left. -/
theorem Reached.reads {seen : List Char} {walker : StringWalker} (ascii : Ascii text) (reached : Reached text seen walker) :
    ∃ rest, text = seen ++ rest ∧ walker.characters = rest ∧ walker.peek = rest.head? ∧ ∀ character,
      walker.substringTo character = (splitOnce character rest).map Prod.fst ∧ ∀ middle after,
        rest = middle ++ character :: after → (walker.eat (byteLength middle + 1)).characters = after := by
  obtain ⟨rest, rfl, rfl⟩ := reached.standing ascii
  have others : Ascii rest := fun _ member => ascii _ (mem_append_right _ member)
  refine ⟨rest, rfl, ?_, ?_, fun character => ⟨substringTo_standing others, ?_⟩⟩
  · rw [characters_standing, takeWhile_eq_self_iff.mpr others]
  · cases rest with
    | nil => exact peek_standing_nil
    | cons first rest => simp [peek_standing_cons, others first mem_cons_self]
  · rintro middle after rfl
    rw [eat_past (others character (by simp)), characters_standing, takeWhile_eq_self_iff]
    exact fun _ member => others _ (by simp [member])

/-- The walker goes through a text exactly when every character has one byte. -/
theorem walksThrough_iff (text : List Char) : WalksThrough text ↔ Ascii text := by
  have yields := characters_standing [] text
  constructor
  · intro walks
    rw [Ascii, ← takeWhile_eq_self_iff, ← yields]
    exact walks.yields
  · intro ascii
    refine ⟨yields.trans (takeWhile_eq_self_iff.mpr ascii), ?_, ?_, ?_⟩ <;> intro seen walker reached <;>
      obtain ⟨rest, rfl, rfl⟩ := reached.standing ascii
    · exact ⟨prefix_append _ _, rfl⟩
    · intro middle character after same first
      obtain rfl := append_cancel_left same
      rw [substringTo_standing fun _ member => ascii _ (mem_append_right _ member),
        splitOnce_eq_some.mpr ⟨rfl, first⟩]
      rfl
    · intro stopped
      cases rest with
      | nil => simp
      | cons first rest => simp [next_standing_cons, ascii first (by simp)] at stopped

/-- The parenthesis of `é)` is not found, and the pattern is read as the empty one. -/
theorem wide_character_ends_pattern : (new "é)".toList).characters = [] ∧
    (new "é)".toList).substringTo ')' = none ∧ ¬ WalksThrough "é)".toList ∧
    fragmentsFromString "é)".toList = .ok [] := by
  have yieldsNone : (new "é)".toList).characters = [] := characters_standing [] _
  refine ⟨yieldsNone, ?_, fun walks => ?_, ?_⟩
  · rw [substringTo, yieldsNone]
    rfl
  · cases yieldsNone.symm.trans walks.yields
  · rw [fragmentsFromString_eq, yieldsNone, scan]
    rfl

end Cast.Fnmatch
