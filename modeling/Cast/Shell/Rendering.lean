import Cast.Foundation.ShellWords
import Cast.Foundation.Texts

/-! The texts in which the build hands commands to a shell: the command lines of compilers and tools that
build systems take from the environment, and the script that merges profiles. -/

namespace Cast.ShellRendering

open Foundation.Shell List

structure BuildProgramSpec where
  path : List Char

structure BuildCommandSpec where
  program : BuildProgramSpec
  args : List (List Char)

/-- A quotation has to be left for a single quote. -/
def quoteCharacter (character : Char) : List Char :=
  if character = '\'' then "'\"'\"'".toList else [character]

def shellQuote (value : List Char) : List Char := '\'' :: value.flatMap quoteCharacter ++ ['\'']

def isBare (word : List Char) : Bool :=
  !word.isEmpty && word.all fun character => character.isAlphanum || "/._+,-:=@%".toList.contains character

def pushShellWord (rendered word : List Char) : List Char :=
  let rendered := if rendered.isEmpty then rendered else rendered ++ [' ']
  rendered ++ if isBare word then word else shellQuote word

def renderBuildCommand (command : BuildCommandSpec) (wrapper : Option BuildProgramSpec) : List Char :=
  let rendered := wrapper.elim [] fun wrapper => pushShellWord [] wrapper.path
  let rendered := pushShellWord rendered command.program.path
  command.args.foldl pushShellWord rendered

def isWildcard (character : Char) : Bool := character = '*' || character = '?'

/-- What is rendered, and the literal text that still has to be. -/
def globCharacter (state : List Char × List Char) (character : Char) : List Char × List Char :=
  if isWildcard character then
    ((if state.2.isEmpty then state.1 else state.1 ++ shellQuote state.2) ++ [character], [])
  else (state.1, state.2 ++ [character])

def shellGlob (value : List Char) : List Char :=
  let (rendered, literal) := value.foldl globCharacter ([], [])
  if !literal.isEmpty || rendered.isEmpty then rendered ++ shellQuote literal else rendered

def mergeCommand (program : BuildProgramSpec) (mergeArgs : List (List Char)) (output : List Char)
    (inputs : List (List Char)) : List Char :=
  [' '].intercalate (shellQuote program.path :: mergeArgs.map shellQuote ++
    [shellQuote ("-output=".toList ++ output)] ++ inputs.map shellGlob)

def mergeScript (program : BuildProgramSpec) (mergeArgs : List (List Char)) (output : List Char)
    (inputs : List (List Char)) : List Char :=
  "set -euo pipefail\n".toList ++ mergeCommand program mergeArgs output inputs

variable {text value : List Char}

def literalWord (text : List Char) : Word := text.map (⟨·, true⟩)

/-- The word whose wildcards are all that it has besides literal text. -/
def globWord (text : List Char) : Word := text.map fun character => ⟨character, !isWildcard character⟩

theorem scan_single (word : Word) (rest : List Char) :
    scan (.single word) (text.flatMap quoteCharacter ++ '\'' :: rest) =
      scan (.plain (some (word ++ literalWord text))) rest := by
  induction text generalizing word with
  | nil => simp [scan, literalWord]
  | cons character text ih =>
    by_cases quote : character = '\''
    · subst quote
      simp [quoteCharacter, scan, ih, literalWord]
    · simp [quoteCharacter, quote, scan, ih, literalWord]

theorem reads_shellQuote (text : List Char) : Reads (shellQuote text) (literalWord text) := by
  intro word rest
  have single := @scan_single text (word.getD []) rest
  simpa [shellQuote, scan] using single

theorem literalWord_not_special : ∀ part ∈ literalWord text, ¬ part.isSpecial := by
  simp [literalWord, Part.isSpecial]

def renderWord (word : List Char) : List Char := if isBare word then word else shellQuote word

theorem renderWord_ne_nil : renderWord text ≠ [] := by
  unfold renderWord
  by_cases bare : isBare text = true
  · rw [if_pos bare]
    intro empty
    rw [empty] at bare
    cases bare
  · rw [if_neg bare]
    exact cons_ne_nil _ _

/-- A bare word has no character that the shell looks at. -/
theorem reads_renderWord (text : List Char) : ∃ word : Word, Reads (renderWord text) word ∧ quoteRemoval word = text ∧
    ∀ part ∈ word, ¬ part.isSpecial := by
  unfold renderWord
  by_cases bare : isBare text = true
  · rw [if_pos bare]
    simp only [isBare, Bool.and_eq_true, Bool.not_eq_true', isEmpty_eq_false_iff, all_eq_true] at bare
    have harmless : ∀ character ∈ text, character ∉ active ++ ['\'', '"', '\\', ' ', '\t', '#'] ++ ['*', '?', '['] := by
      intro character member isBad
      have refused : (active ++ ['\'', '"', '\\', ' ', '\t', '#'] ++ ['*', '?', '[']).all
          fun bad => !(bad.isAlphanum || "/._+,-:=@%".toList.contains bad) := by decide
      have refusedHere := all_eq_true.mp refused character isBad
      rw [bare.2 character member] at refusedHere
      cases refusedHere
    refine ⟨_, reads_characters bare.1 fun character member => ?_, ?_, ?_⟩
    · exact fun isActive => harmless character member (mem_append_left _ isActive)
    · simp [quoteRemoval, Function.comp_def]
    · simp only [forall_mem_map]
      intro character member special
      exact harmless character member (mem_append_right _ special.2)
  · rw [if_neg bare]
    exact ⟨literalWord text, reads_shellQuote text, by simp [quoteRemoval, literalWord, Function.comp_def],
      literalWord_not_special⟩

theorem foldl_pushShellWord {words : List (List Char)} {rendered : List Char} (started : rendered ≠ []) :
    words.foldl pushShellWord rendered = rendered ++ words.flatMap fun word => ' ' :: renderWord word := by
  induction words generalizing rendered with
  | nil => simp
  | cons word words ih =>
    have pushed : pushShellWord rendered word = rendered ++ ' ' :: renderWord word := by
      simp [pushShellWord, renderWord, started]
    rw [foldl_cons, pushed, ih (by simp), flatMap_cons, append_assoc]

def commandWords (command : BuildCommandSpec) (wrapper : Option BuildProgramSpec) : List (List Char) :=
  (wrapper.map BuildProgramSpec.path).toList ++ command.program.path :: command.args

theorem renderBuildCommand_eq (command : BuildCommandSpec) (wrapper : Option BuildProgramSpec) :
    renderBuildCommand command wrapper = [' '].intercalate ((commandWords command wrapper).map renderWord) := by
  have all : ∀ first words, (first :: words).foldl pushShellWord [] =
      [' '].intercalate ((first :: words).map renderWord) := by
    intro first words
    have pushed : pushShellWord [] first = renderWord first := rfl
    rw [foldl_cons, pushed, foldl_pushShellWord renderWord_ne_nil, map_cons, Foundation.intercalate_cons,
      flatMap_map]
    rfl
  cases wrapper with
  | none => exact all _ _
  | some wrapper => exact all wrapper.path (command.program.path :: command.args)

theorem literalWord_eq_globWord (plain : ∀ character ∈ text, isWildcard character = false) :
    literalWord text = globWord text :=
  map_congr_left fun character member => by simp [plain character member]

/-- What is rendered of a glob reads as the front of it, and the rest is literal. -/
structure GlobRendered (seen : List Char) (state : List Char × List Char) (front : List Char) : Prop where
  split : seen = front ++ state.2
  literal : ∀ character ∈ state.2, isWildcard character = false
  reads : state.1 = [] ∧ front = [] ∨ Reads state.1 (globWord front)

variable {seen front : List Char} {state : List Char × List Char}

section

variable (held : GlobRendered seen state front)
include held

theorem GlobRendered.append (reads : Reads text (globWord value)) :
    Reads (state.1 ++ text) (globWord (front ++ value)) := by
  obtain ⟨empty, rfl⟩ | before := held.reads
  · rw [empty]
    exact reads
  · rw [globWord, map_append]
    exact before.append reads

theorem GlobRendered.quote :
    Reads (state.1 ++ shellQuote state.2) (globWord seen) := by
  rw [held.split]
  refine held.append ?_
  rw [← literalWord_eq_globWord held.literal]
  exact reads_shellQuote _

theorem GlobRendered.step (character : Char) :
    ∃ front, GlobRendered (seen ++ [character]) (globCharacter state character) front := by
  unfold globCharacter
  by_cases wild : isWildcard character = true
  · have reads : Reads [character] (globWord [character]) := by
      simp only [isWildcard, Bool.or_eq_true, decide_eq_true_eq] at wild
      obtain rfl | rfl := wild <;> exact reads_character (by decide)
    rw [if_pos wild]
    refine ⟨seen ++ [character], (append_nil _).symm, forall_mem_nil _, .inr ?_⟩
    by_cases empty : state.2.isEmpty = true
    · have whole : seen = front := by
        rw [held.split, List.isEmpty_iff.mp empty, append_nil]
      rw [if_pos empty, whole]
      exact held.append reads
    · rw [if_neg empty, globWord, map_append]
      exact held.quote.append reads
  · rw [if_neg wild]
    refine ⟨front, ?_, ?_, held.reads⟩
    · rw [held.split, append_assoc]
    · exact forall_mem_append.mpr ⟨held.literal, forall_mem_singleton.mpr (Bool.not_eq_true _ ▸ wild)⟩

theorem GlobRendered.run (rest : List Char) :
    ∃ front, GlobRendered (seen ++ rest) (rest.foldl globCharacter state) front := by
  induction rest generalizing seen state front with
  | nil => exact ⟨front, by rwa [append_nil]⟩
  | cons character rest ih =>
    obtain ⟨front, stepped⟩ := held.step character
    obtain ⟨front, ran⟩ := ih stepped
    exact ⟨front, by simpa using ran⟩

end

theorem reads_shellGlob (text : List Char) : Reads (shellGlob text) (globWord text) := by
  have start : GlobRendered [] ([], []) [] := ⟨rfl, forall_mem_nil _, .inl ⟨rfl, rfl⟩⟩
  obtain ⟨front, held⟩ := start.run text
  rw [nil_append] at held
  simp only [shellGlob]
  split
  · exact held.quote
  · rename_i finished
    simp only [Bool.or_eq_true, Bool.not_eq_true', isEmpty_eq_false_iff, List.isEmpty_iff, not_or, not_not] at finished
    have whole : front = text := by rw [held.split, finished.1, append_nil]
    rw [whole] at held
    exact held.reads.resolve_left fun empty => finished.2 empty.1

/-- The shell reads a build command as the words it was made of, all of them literal; a merge command
too, except that the wildcards of its inputs, and nothing else in them, are special in a pattern. -/
theorem rendered_words (command : BuildCommandSpec) (wrapper : Option BuildProgramSpec)
    (program : BuildProgramSpec) (mergeArgs : List (List Char)) (output : List Char) (inputs : List (List Char)) :
    (∃ words, tokenize (renderBuildCommand command wrapper) = some words ∧
      words.map quoteRemoval = commandWords command wrapper ∧ ∀ word ∈ words, ∀ part ∈ word, ¬ part.isSpecial) ∧
    ∃ line words globs, mergeScript program mergeArgs output inputs = "set -euo pipefail\n".toList ++ line ∧
      tokenize line = some (words ++ globs) ∧
      words.map quoteRemoval = program.path :: mergeArgs ++ ["-output=".toList ++ output] ∧
      (∀ word ∈ words, ∀ part ∈ word, ¬ part.isSpecial) ∧ globs.map quoteRemoval = inputs ∧
      ∀ glob ∈ globs, ∀ part ∈ glob, part.isSpecial ↔ part.character = '*' ∨ part.character = '?' := by
  refine ⟨?_, ?_⟩
  · choose word reads intact literal using reads_renderWord
    refine ⟨(commandWords command wrapper).map word, ?_, by simp [Function.comp_def, intact],
      forall_mem_map.mpr fun text _ => literal text⟩
    rw [renderBuildCommand_eq]
    exact tokenize_intercalate (forall₂_reads reads _)
  · refine ⟨mergeCommand program mergeArgs output inputs,
      (program.path :: mergeArgs ++ ["-output=".toList ++ output]).map literalWord, inputs.map globWord, rfl, ?_,
      by simp [quoteRemoval, literalWord, Function.comp_def], ?_, by simp [quoteRemoval, globWord, Function.comp_def], ?_⟩
    · have quoted := forall₂_reads reads_shellQuote (program.path :: mergeArgs ++ ["-output=".toList ++ output])
      rw [map_append] at quoted
      exact tokenize_intercalate (rel_append quoted (forall₂_reads reads_shellGlob inputs))
    · exact forall_mem_map.mpr fun _ _ => literalWord_not_special
    · simp only [forall_mem_map, globWord, Part.isSpecial, isWildcard]
      intro text _ character _
      grind

end Cast.ShellRendering
