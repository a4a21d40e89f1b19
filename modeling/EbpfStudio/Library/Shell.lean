/-
This file is about how a POSIX shell reads a command line.

The lexer reads one character at a time and splits the line into words. Quotes and backslashes
change how the next characters are read, and what would be an operator, an expansion or a pattern
has no result, so that a result means plain words. Words are independent of each other
(`run_intercalate`), so it is enough to read each argument on its own.
-/

import Mathlib

namespace Shell

open List

abbrev singleQuote : Char := '\x27'

abbrev doubleQuote : Char := '\x22'

abbrev backslash : Char := '\x5c'

abbrev backquote : Char := '\x60'

abbrev nul : Char := '\x00'

abbrev Word := List (Char × Bool)

def Word.of (quoted : Bool) (text : String) : Word := text.toList.map fun character =>
  (character, quoted)

def Word.field (word : Word) : String := String.ofList (word.map Prod.fst)

inductive Quoting where
  | unquoted | escaped | single | double | doubleEscaped
  deriving DecidableEq

structure Lexer where
  quoting : Quoting := .unquoted
  word : Option Word := none
  words : List Word := []

/-- Characters that, when they are not quoted, are or start an operator, an expansion or a
pattern, or are read as such by some shells. -/
def special (character : Char) : Bool :=
  character ∈ ['\n', '|', '&', ';', '<', '>', '(', ')', '$', backquote, '*', '?', '[', '{', '}']

def escapable (character : Char) : Bool := character ∈ ['$', backquote, doubleQuote, backslash]

namespace Lexer

def enter (lexer : Lexer) (quoting : Quoting) : Lexer := { lexer with quoting := quoting }

def openWord (lexer : Lexer) : Lexer := { lexer with word := some (lexer.word.getD []) }

def push (lexer : Lexer) (character : Char) (quoted : Bool) : Lexer :=
  { lexer with word := some (lexer.word.getD [] ++ [(character, quoted)]) }

def finish (lexer : Lexer) : Lexer :=
  { lexer with word := none, words := lexer.words ++ lexer.word.toList }

/-- Read one character. There is no result where the line is more than plain words. -/
def step (lexer : Lexer) (character : Char) : Option Lexer :=
  match lexer.quoting with
  | .unquoted =>
    if character = singleQuote then some (lexer.openWord.enter .single)
    else if character = doubleQuote then some (lexer.openWord.enter .double)
    else if character = backslash then some (lexer.enter .escaped)
    else if character = ' ' ∨ character = '\t' then some lexer.finish
    -- a comment starts only between words
    else if special character ∨ character = '#' ∧ lexer.word = none then none
    else some (lexer.push character false)
  | .escaped =>
    -- a line that is continued
    if character = '\n' then some (lexer.enter .unquoted)
    else some ((lexer.enter .unquoted).push character true)
  | .single =>
    if character = singleQuote then some (lexer.enter .unquoted)
    else some (lexer.push character true)
  | .double =>
    if character = doubleQuote then some (lexer.enter .unquoted)
    else if character = backslash then some (lexer.enter .doubleEscaped)
    else if character = '$' ∨ character = backquote then none
    else some (lexer.push character true)
  | .doubleEscaped =>
    if character = '\n' then some (lexer.enter .double)
    else if escapable character then some ((lexer.enter .double).push character true)
    else some (((lexer.enter .double).push backslash true).push character true)

def run (lexer : Lexer) (text : List Char) : Option Lexer := text.foldlM step lexer

theorem run_append {lexer next : Lexer} {first : List Char} (second : List Char)
    (reads : lexer.run first = some next) : lexer.run (first ++ second) = next.run second := by
  unfold run at reads ⊢
  rw [foldlM_append, reads]
  rfl

theorem run_cons {lexer next : Lexer} {character : Char} (rest : List Char)
    (reads : lexer.step character = some next) :
    lexer.run (character :: rest) = next.run rest := by
  unfold run
  rw [foldlM_cons, reads]
  rfl

theorem step_single (word : Option Word) (words : List Word) {character : Char}
    (other : character ≠ singleQuote) :
    (⟨.single, word, words⟩ : Lexer).step character =
      some ((⟨.single, word, words⟩ : Lexer).push character true) := if_neg other

end Lexer

def lex (text : List Char) : Option (List Word) := do
  let lexer ← ({} : Lexer).run text
  if lexer.quoting = .unquoted then some lexer.finish.words else none

def reservedWords : List String :=
  ["!", "case", "do", "done", "elif", "else", "esac", "fi", "for", "function", "if", "in",
    "select", "then", "time", "until", "while"]

def Word.reserved (word : Word) : Bool :=
  word.all (fun mark => !mark.2) && word.field ∈ reservedWords

def Word.assigns (word : Word) : Bool := word.any fun mark => mark = ('=', false)

def Word.expandsTilde (word : Word) : Bool := word.head? = some ('~', false)

/-- The fields of a line that is one simple command without expansions. A line is passed to a
shell up to its first NUL, so it must not have one. -/
def simpleCommand (text : String) : Option (List String) :=
  if nul ∈ text.toList then none
  else do
    let words ← lex text.toList
    if words.any Word.expandsTilde ||
        words.head?.any fun word => word.assigns || word.reserved then none
    else some (words.map Word.field)

example : simpleCommand "a\t'b c'\"d\"\\ e" = some ["a", "b cd e"] := by decide +kernel

example : simpleCommand "a; b" = none := by decide +kernel

example : simpleCommand "a \"$(b)\"" = none := by decide +kernel

def ReadsAs (text : List Char) (word : Word) : Prop :=
  ∀ words, (⟨.unquoted, none, words⟩ : Lexer).run text = some ⟨.unquoted, some word, words⟩

theorem run_intercalate {texts : List (List Char)} {read : List Word}
    (reads : Forall₂ ReadsAs texts read) (words : List Word) :
    ∃ lexer, (⟨.unquoted, none, words⟩ : Lexer).run ([' '].intercalate texts) = some lexer ∧
      lexer.quoting = .unquoted ∧ lexer.finish.words = words ++ read := by
  induction reads generalizing words with
  | nil => exact ⟨_, rfl, rfl, rfl⟩
  | @cons text word texts read reads rest hypothesis =>
    cases rest with
    | nil => exact ⟨_, by simpa using reads words, rfl, rfl⟩
    | @cons second next texts read secondReads rest =>
      obtain ⟨lexer, runs, unquoted, finished⟩ := hypothesis (words ++ [word])
      refine ⟨lexer, ?_, unquoted, by rw [finished, append_assoc]; rfl⟩
      rw [intercalate_cons_cons, append_assoc, Lexer.run_append _ (reads words),
        singleton_append]
      exact (Lexer.run_cons _ rfl).trans runs

theorem lex_intercalate {texts : List (List Char)} {read : List Word}
    (reads : Forall₂ ReadsAs texts read) : lex ([' '].intercalate texts) = some read := by
  obtain ⟨lexer, runs, unquoted, finished⟩ := run_intercalate reads []
  show (({} : Lexer).run ([' '].intercalate texts)).bind _ = _
  rw [show ({} : Lexer).run _ = some lexer from runs, Option.bind_some, if_pos unquoted, finished,
    nil_append]

theorem field_of (quoted : Bool) (text : String) : (Word.of quoted text).field = text := by
  unfold Word.field Word.of
  rw [map_map, show Prod.fst ∘ (fun character => (character, quoted)) = id from rfl,
    map_id, String.ofList_toList]

theorem quoted_is_literal (text : String) :
    (Word.of true text).expandsTilde = false ∧ (Word.of true text).assigns = false ∧
      (Word.of true text).reserved = false := by
  refine ⟨?_, ?_, ?_⟩
  · unfold Word.expandsTilde Word.of
    rw [head?_map]
    cases text.toList.head? <;> simp
  · unfold Word.assigns Word.of
    simp
  · unfold Word.reserved
    rw [field_of, Word.of]
    cases characters : text.toList with
    | nil =>
      rw [String.toList_eq_nil_iff.mp characters]
      rfl
    | cons first rest => rfl

theorem simpleCommand_of_lex {text : String} {words : List Word} (nulFree : nul ∉ text.toList)
    (reads : lex text.toList = some words) (tildes : ∀ word ∈ words, word.expandsTilde = false)
    (command : ∀ word ∈ words.head?, word.assigns = false ∧ word.reserved = false) :
    simpleCommand text = some (words.map Word.field) := by
  have literal : (words.any Word.expandsTilde ||
      words.head?.any fun word => word.assigns || word.reserved) = false := by
    rw [Bool.or_eq_false_iff]
    constructor
    · rw [any_eq_false]
      intro word member
      rw [tildes word member]
      exact Bool.false_ne_true
    · cases first : words.head? with
      | none => rfl
      | some word =>
        obtain ⟨assigns, reserved⟩ := command word first
        rw [Option.any_some, assigns, reserved]
        rfl
  unfold simpleCommand
  rw [if_neg nulFree, reads]
  exact if_neg (by rw [literal]; exact Bool.false_ne_true)

theorem nul_not_mem_join {texts : List String} (nulFree : ∀ text ∈ texts, nul ∉ text.toList) :
    nul ∉ (" ".intercalate texts).toList := by
  rw [String.toList_intercalate]
  induction texts with
  | nil => exact not_mem_nil
  | cons text rest hypothesis =>
    have first := nulFree text mem_cons_self
    have others := hypothesis fun other member =>
      nulFree other (mem_cons_of_mem _ member)
    cases rest with
    | nil => simpa using first
    | cons second rest =>
      rw [map_cons, map_cons, intercalate_cons_cons]
      rw [map_cons] at others
      simp only [mem_append, not_or]
      exact ⟨⟨first, by decide⟩, others⟩

theorem simpleCommand_join {texts : List String} {words : List Word}
    (reads : Forall₂ (fun text word => ReadsAs text.toList word) texts words)
    (nulFree : ∀ text ∈ texts, nul ∉ text.toList)
    (tildes : ∀ word ∈ words, word.expandsTilde = false)
    (command : ∀ word ∈ words.head?, word.assigns = false ∧ word.reserved = false) :
    simpleCommand (" ".intercalate texts) = some (words.map Word.field) := by
  refine simpleCommand_of_lex (nul_not_mem_join nulFree) ?_ tildes command
  rw [String.toList_intercalate]
  exact lex_intercalate (forall₂_map_left_iff.mpr reads)

end Shell
