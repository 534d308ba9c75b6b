import Mathlib.Data.List.Forall2

/-! Token recognition of the POSIX shell, for texts that are a row of words. Each character of a word
is kept with whether a quotation made it literal, which is what patterns go by after quote removal.
A text that has an operator, a comment, an expansion or an open quotation is not such a row. -/

namespace Cast.Foundation.Shell

open List

structure Part where
  character : Char
  quoted : Bool

abbrev Word := List Part

/-- Where the recognition is, and the word that it is in. -/
inductive Place where
  | plain (word : Option Word)
  | escaped (word : Option Word)
  | single (word : Word)
  | double (word : Word)
  | doubleEscaped (word : Word)

/-- Unquoted characters that start an operator, an expansion or a substitution. -/
def active : List Char := ['|', '&', ';', '<', '>', '(', ')', '\n', '$', '\x60', '~']

/-- The words of a text, from the given place on. -/
def scan : Place → List Char → Option (List Word)
  | .plain word, [] => some word.toList
  | .escaped _, [] | .single _, [] | .double _, [] | .doubleEscaped _, [] => none
  | .plain word, character :: rest =>
    if character = '\'' then scan (.single (word.getD [])) rest
    else if character = '"' then scan (.double (word.getD [])) rest
    else if character = '\\' then scan (.escaped word) rest
    else if character = ' ' ∨ character = '\t' then (scan (.plain none) rest).map (word.toList ++ ·)
    else if character ∈ active ∨ word = none ∧ character = '#' then none
    else scan (.plain (some (word.getD [] ++ [⟨character, false⟩]))) rest
  | .escaped word, character :: rest =>
    if character = '\n' then scan (.plain word) rest
    else scan (.plain (some (word.getD [] ++ [⟨character, true⟩]))) rest
  | .single word, character :: rest =>
    if character = '\'' then scan (.plain (some word)) rest else scan (.single (word ++ [⟨character, true⟩])) rest
  | .double word, character :: rest =>
    if character = '"' then scan (.plain (some word)) rest
    else if character = '\\' then scan (.doubleEscaped word) rest
    else if character = '$' ∨ character = '\x60' then none
    else scan (.double (word ++ [⟨character, true⟩])) rest
  | .doubleEscaped word, character :: rest =>
    if character = '\n' then scan (.double word) rest
    else if character ∈ ['$', '\x60', '"', '\\'] then scan (.double (word ++ [⟨character, true⟩])) rest
    else scan (.double (word ++ [⟨'\\', true⟩, ⟨character, true⟩])) rest

def tokenize (text : List Char) : Option (List Word) := scan (.plain none) text

def quoteRemoval (word : Word) : List Char := word.map Part.character

/-- The part means more than itself when its word is a pattern. -/
def Part.isSpecial (part : Part) : Prop := part.quoted = false ∧ part.character ∈ ['*', '?', '[']

/-- Reading the text outside of quotations appends the parts to the word, or starts one with them. -/
def Reads (text : List Char) (parts : Word) : Prop :=
  ∀ (word : Option Word) (rest : List Char),
    scan (.plain word) (text ++ rest) = scan (.plain (some (word.getD [] ++ parts))) rest

variable {text other : List Char} {parts more : Word} {texts : List (List Char)} {words : List Word}

theorem Reads.append (first : Reads text parts) (second : Reads other more) :
    Reads (text ++ other) (parts ++ more) := by
  intro word rest
  rw [append_assoc, first, second, Option.getD_some, append_assoc]

/-- An unquoted character that starts nothing else is part of a word. -/
theorem reads_character {character : Char}
    (literal : character ∉ active ++ ['\'', '"', '\\', ' ', '\t', '#']) : Reads [character] [⟨character, false⟩] := by
  intro word rest
  simp only [mem_append, mem_cons, not_mem_nil, or_false, not_or] at literal
  simp [scan, literal]

theorem reads_characters (filled : text ≠ [])
    (literal : ∀ character ∈ text, character ∉ active ++ ['\'', '"', '\\', ' ', '\t', '#']) :
    Reads text (text.map (⟨·, false⟩)) := by
  induction text with
  | nil => exact absurd rfl filled
  | cons first rest ih =>
    obtain ⟨here, later⟩ := forall_mem_cons.mp literal
    cases rest with
    | nil => exact reads_character here
    | cons second rest => exact (reads_character here).append (ih (cons_ne_nil _ _) later)

/-- Texts that each read as one word, with a space between any two, are a row of these words. -/
theorem tokenize_intercalate (each : Forall₂ Reads texts words) : tokenize ([' '].intercalate texts) = some words := by
  induction each with
  | nil => rfl
  | cons reads others ih =>
    cases others with
    | nil => simpa [tokenize, scan] using reads none []
    | cons =>
      rw [tokenize] at ih
      rw [tokenize, intercalate_cons_cons, append_assoc, reads none]
      simp [scan, ih]

theorem forall₂_reads {render : List Char → List Char} {word : List Char → Word}
    (reads : ∀ text, Reads (render text) (word text)) (texts : List (List Char)) :
    Forall₂ Reads (texts.map render) (texts.map word) := by
  rw [forall₂_map_left_iff, forall₂_map_right_iff, forall₂_same]
  exact fun text _ => reads text

end Cast.Foundation.Shell
