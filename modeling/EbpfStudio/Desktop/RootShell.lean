/-
This file models how a command for the device is built from its arguments, and proves that the
shells on the device read exactly these arguments.

Every argument is put in single quotes, with a quote inside written in double quotes, and where a
shell starts another one the whole line is quoted once more. The lexer of `Library/Shell` reads a
quoted text as one literal word.
-/

import EbpfStudio.Library.Shell

namespace EbpfStudio

open Shell List Word

def isValidSerial (value : String) : Bool :=
  !value.isEmpty && value.toList.head? ≠ some '-' &&
    value.toList.all fun character =>
      character.isAlphanum || character ∈ ['.', '_', ':', '-']

structure CommandSpec where
  program : String
  args : List String
  deriving DecidableEq

inductive AdbError where
  | invalidSerial
  deriving DecidableEq

def AdbError.message : AdbError → String
  | invalidSerial => "invalid ADB serial"

inductive RootMethod where
  | shell | suCommand | suUid
  deriving DecidableEq

structure AdbCommandBuilder where
  adbPath : String
  serial : String
  valid : isValidSerial serial = true

def replaceChar (text : String) (old : Char) (new : String) : String :=
  String.ofList (text.toList.flatMap fun character =>
    if character = old then new.toList else [character])

def shellQuote (value : String) : String :=
  "'" ++ replaceChar value singleQuote "'\"'\"'" ++ "'"

namespace AdbCommandBuilder

def withAdb (adbPath serial : String) : Except AdbError AdbCommandBuilder :=
  if valid : isValidSerial serial = true then .ok ⟨adbPath, serial, valid⟩
  else .error .invalidSerial

def new (serial : String) : Except AdbError AdbCommandBuilder := withAdb "adb" serial

def shell (builder : AdbCommandBuilder) (remoteArgs : List String) : CommandSpec where
  program := builder.adbPath
  args := ["-s", builder.serial, "shell"] ++ remoteArgs

def rootShell (builder : AdbCommandBuilder) (method : RootMethod) (args : List String) :
    CommandSpec :=
  let command := " ".intercalate (args.map shellQuote)
  let command := match method with
    | .shell => command
    | .suCommand => "su -c " ++ shellQuote command
    | .suUid => "su 0 sh -c " ++ shellQuote command
  builder.shell [command]

end AdbCommandBuilder

def escaped (value : List Char) : List Char :=
  value.flatMap fun character =>
    if character = singleQuote then "'\"'\"'".toList else [character]

theorem toList_shellQuote (value : String) :
    (shellQuote value).toList = singleQuote :: (escaped value.toList ++ [singleQuote]) := by
  have mark : "'".toList = [singleQuote] := by decide
  unfold shellQuote replaceChar escaped
  rw [String.toList_append, String.toList_append, mark, String.toList_ofList,
    singleton_append, cons_append]

theorem run_escape (word : Word) (words : List Word) :
    (⟨.single, some word, words⟩ : Lexer).run "'\"'\"'".toList =
      some ⟨.single, some (word ++ [(singleQuote, true)]), words⟩ := rfl

theorem run_escaped (value : List Char) (word : Word) (words : List Word) :
    (⟨.single, some word, words⟩ : Lexer).run (escaped value) =
      some ⟨.single, some (word ++ value.map fun character => (character, true)), words⟩ := by
  unfold escaped
  induction value generalizing word with
  | nil =>
    rw [map_nil, append_nil]
    rfl
  | cons character rest hypothesis =>
    rw [flatMap_cons, map_cons, append_cons]
    by_cases quote : character = singleQuote
    · subst quote
      rw [if_pos rfl, Lexer.run_append _ (run_escape word words)]
      exact hypothesis _
    · rw [if_neg quote, singleton_append,
        Lexer.run_cons _ (Lexer.step_single _ _ quote)]
      exact hypothesis _

theorem readsAs_shellQuote (value : String) :
    ReadsAs (shellQuote value).toList (Word.of true value) := by
  intro words
  rw [toList_shellQuote]
  refine (Lexer.run_cons _ rfl).trans ?_
  exact (Lexer.run_append _ (run_escaped value.toList [] words)).trans rfl

theorem nul_not_mem_shellQuote {value : String} (nulFree : nul ∉ value.toList) :
    nul ∉ (shellQuote value).toList := by
  rw [toList_shellQuote, escaped]
  simp only [mem_cons, mem_append, mem_flatMap, not_or, not_exists, not_and]
  refine ⟨by decide, fun character member => ?_, by decide⟩
  split
  · decide
  · intro same
    rw [← mem_singleton.mp same] at member
    exact nulFree member

theorem simpleCommand_quoted {args : List String} (nulFree : ∀ arg ∈ args, nul ∉ arg.toList) :
    simpleCommand (" ".intercalate (args.map shellQuote)) = some args := by
  have reads : List.Forall₂ (fun text word => ReadsAs text.toList word) (args.map shellQuote)
      (args.map (of true)) := by
    rw [forall₂_map_left_iff, forall₂_map_right_iff, forall₂_same]
    exact fun arg _ => readsAs_shellQuote arg
  have fields : (args.map (of true)).map field = args := by
    rw [map_map]
    exact (map_congr_left fun arg _ => field_of true arg).trans (map_id _)
  rw [simpleCommand_join reads ?_ ?_ ?_, fields]
  · intro quoted member
    obtain ⟨arg, listed, rfl⟩ := mem_map.mp member
    exact nul_not_mem_shellQuote (nulFree arg listed)
  · intro word member
    obtain ⟨arg, -, rfl⟩ := mem_map.mp member
    exact (quoted_is_literal arg).1
  · intro word first
    rw [head?_map] at first
    obtain ⟨arg, -, rfl⟩ := Option.map_eq_some_iff.mp first
    exact (quoted_is_literal arg).2

theorem simpleCommand_outer {command : String} {outer : List String} {inner : String}
    (reads : ∀ word ∈ command :: outer, ReadsAs word.toList (Word.of false word))
    (literal : ∀ word ∈ command :: outer,
      nul ∉ word.toList ∧ (Word.of false word).expandsTilde = false)
    (plain : (Word.of false command).assigns = false ∧ (Word.of false command).reserved = false)
    (nulFree : nul ∉ inner.toList) :
    simpleCommand (" ".intercalate (command :: outer ++ [shellQuote inner])) =
      some (command :: outer ++ [inner]) := by
  have readsAll : List.Forall₂ (fun text word => ReadsAs text.toList word)
      (command :: outer ++ [shellQuote inner])
      ((command :: outer).map (of false) ++ [of true inner]) := by
    refine rel_append ?_ (.cons (readsAs_shellQuote inner) .nil)
    rw [forall₂_map_right_iff, forall₂_same]
    exact reads
  have fields : ((command :: outer).map (of false) ++ [of true inner]).map field =
      command :: outer ++ [inner] := by
    rw [map_append, map_map, map_singleton, field_of]
    refine congrArg (· ++ [inner]) ?_
    exact (map_congr_left fun word _ => field_of false word).trans (map_id _)
  rw [simpleCommand_join readsAll ?_ ?_ ?_, fields]
  · intro text member
    rcases mem_append.mp member with plainText | quoted
    · exact (literal text plainText).1
    · rw [mem_singleton.mp quoted]
      exact nul_not_mem_shellQuote nulFree
  · intro word member
    rcases mem_append.mp member with plainWord | quoted
    · obtain ⟨text, listed, rfl⟩ := mem_map.mp plainWord
      exact (literal text listed).2
    · rw [mem_singleton.mp quoted]
      exact (quoted_is_literal inner).1
  · intro word first
    cases first
    exact plain

/-- For every device, every root method and all arguments without a NUL, the device's shell reads
one simple command without expansions. -/
theorem rootShell_reads_arguments (builder : AdbCommandBuilder) (method : RootMethod)
    (args : List String) (nulFree : ∀ arg ∈ args, nul ∉ arg.toList) :
    ∃ device, (builder.rootShell method args).args = ["-s", builder.serial, "shell", device] ∧
      match method with
      | .shell => simpleCommand device = some args
      | .suCommand => ∃ inner, simpleCommand device = some ["su", "-c", inner] ∧
          simpleCommand inner = some args
      | .suUid => ∃ inner, simpleCommand device = some ["su", "0", "sh", "-c", inner] ∧
          simpleCommand inner = some args := by
  let inner := " ".intercalate (args.map shellQuote)
  have reads : simpleCommand inner = some args := simpleCommand_quoted nulFree
  have clean : nul ∉ inner.toList := by
    refine nul_not_mem_join fun quoted member => ?_
    obtain ⟨arg, listed, rfl⟩ := mem_map.mp member
    exact nul_not_mem_shellQuote (nulFree arg listed)
  refine ⟨_, rfl, ?_⟩
  cases method with
  | shell => exact reads
  | suCommand =>
    have line : "su -c " ++ shellQuote inner =
        " ".intercalate ("su" :: ["-c"] ++ [shellQuote inner]) := by
      rw [← String.toList_inj, String.toList_intercalate]
      simp
    refine ⟨inner, ?_, reads⟩
    show simpleCommand ("su -c " ++ shellQuote inner) = _
    rw [line]
    refine simpleCommand_outer ?_ (by decide) ⟨by decide, by decide⟩ clean
    simp only [forall_mem_cons]
    exact ⟨fun _ => rfl, fun _ => rfl, forall_mem_nil _⟩
  | suUid =>
    have line : "su 0 sh -c " ++ shellQuote inner =
        " ".intercalate ("su" :: ["0", "sh", "-c"] ++ [shellQuote inner]) := by
      rw [← String.toList_inj, String.toList_intercalate]
      simp
    refine ⟨inner, ?_, reads⟩
    show simpleCommand ("su 0 sh -c " ++ shellQuote inner) = _
    rw [line]
    refine simpleCommand_outer ?_ (by decide) ⟨by decide, by decide⟩ clean
    simp only [forall_mem_cons]
    exact ⟨fun _ => rfl, fun _ => rfl, fun _ => rfl, fun _ => rfl, forall_mem_nil _⟩

theorem rootShell_reads_arguments_printf :
    let builder : AdbCommandBuilder := ⟨"adb", "second-phone", by decide⟩
    ∃ device, (builder.rootShell .suCommand ["printf", "a'$(id); b"]).args =
        ["-s", "second-phone", "shell", device] ∧
      ∃ inner, simpleCommand device = some ["su", "-c", inner] ∧
        simpleCommand inner = some ["printf", "a'$(id); b"] :=
  rootShell_reads_arguments ⟨"adb", "second-phone", by decide⟩ .suCommand
    ["printf", "a'$(id); b"] (by decide)

end EbpfStudio
