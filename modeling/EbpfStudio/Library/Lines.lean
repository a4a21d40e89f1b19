/-
This file cuts a text into lines, with a reader that bounds how much of a line it holds.

A line keeps its newline; only the last one may have none. Splitting at newlines and joining are
inverse to each other. A bounded reader takes one symbol more than the limit to see that a line is
too long, and skips the rest of it. What it returns is determined line by line (`boundedLines_eq`).
-/

import Mathlib

namespace Lines

open List

variable {Symbol : Type} [DecidableEq Symbol] (newline : Symbol)

def firstLine : List Symbol → List Symbol
  | [] => []
  | symbol :: rest => if symbol = newline then [symbol] else symbol :: firstLine rest

def afterLine : List Symbol → List Symbol
  | [] => []
  | symbol :: rest => if symbol = newline then rest else afterLine rest

def lines : List Symbol → List (List Symbol)
  | [] => []
  | symbol :: rest =>
    if symbol = newline then [symbol] :: lines rest
    else
      match lines rest with
      | [] => [[symbol]]
      | line :: others => (symbol :: line) :: others

def unlines (bodies : List (List Symbol)) : List Symbol :=
  bodies.flatMap fun body => body ++ [newline]

section Lines

variable {newline}

theorem lines_of_ne_nil {text : List Symbol} (nonempty : text ≠ []) :
    lines newline text = firstLine newline text :: lines newline (afterLine newline text) := by
  induction text with
  | nil => exact absurd rfl nonempty
  | cons symbol rest hypothesis =>
    by_cases isNewline : symbol = newline
    · simp [lines, firstLine, afterLine, isNewline]
    · cases rest with
      | nil => simp [lines, firstLine, afterLine, isNewline]
      | cons next others =>
        rw [lines, if_neg isNewline, hypothesis (cons_ne_nil _ _)]
        simp [firstLine, afterLine, isNewline]

section

variable {line : List Symbol} (unbroken : newline ∉ line) (rest : List Symbol)

include unbroken

theorem firstLine_append :
    firstLine newline (line ++ rest) = line ++ firstLine newline rest ∧
      afterLine newline (line ++ rest) = afterLine newline rest := by
  induction line with
  | nil => exact ⟨rfl, rfl⟩
  | cons symbol others hypothesis =>
    obtain ⟨first, later⟩ := ne_and_not_mem_of_not_mem_cons unbroken
    obtain ⟨begins, ends⟩ := hypothesis later
    simp [firstLine, afterLine, first.symm, begins, ends]

theorem firstLine_append_newline :
    firstLine newline (line ++ newline :: rest) = line ++ [newline] ∧
      afterLine newline (line ++ newline :: rest) = rest := by
  obtain ⟨begins, ends⟩ := firstLine_append unbroken (newline :: rest)
  exact ⟨by simpa [firstLine] using begins, by simpa [afterLine] using ends⟩

theorem lines_append :
    lines newline (line ++ newline :: rest) = (line ++ [newline]) :: lines newline rest := by
  obtain ⟨begins, ends⟩ := firstLine_append_newline unbroken rest
  rw [lines_of_ne_nil (by simp), begins, ends]

end

omit [DecidableEq Symbol] in
theorem unlines_cons (body : List Symbol) (others : List (List Symbol)) :
    unlines newline (body :: others) = body ++ newline :: unlines newline others := by
  simp [unlines]

theorem lines_unlines {bodies : List (List Symbol)}
    (unbroken : ∀ body ∈ bodies, newline ∉ body) :
    lines newline (unlines newline bodies) = bodies.map (· ++ [newline]) := by
  induction bodies with
  | nil => rfl
  | cons body others hypothesis =>
    obtain ⟨first, later⟩ := forall_mem_cons.mp unbroken
    rw [unlines_cons, lines_append first, map_cons, hypothesis later]

theorem eq_of_mem_lines {text line : List Symbol} (unbroken : newline ∉ text)
    (member : line ∈ lines newline text) : line = text := by
  by_cases empty : text = []
  · subst empty
    cases member
  · obtain ⟨begins, ends⟩ := firstLine_append unbroken []
    rw [append_nil] at begins ends
    rw [lines_of_ne_nil empty, begins, ends] at member
    simpa [firstLine, afterLine, lines] using member

theorem mem_lines_take {bodies : List (List Symbol)} {rest line : List Symbol} {count : Nat}
    (unbroken : ∀ body ∈ bodies, newline ∉ body) (unfinished : newline ∉ rest)
    (member : line ∈ lines newline ((unlines newline bodies ++ rest).take count)) :
    (∃ body ∈ bodies, line = body ++ [newline] ∨ line <+: body) ∨
      line = rest.take (count - (unlines newline bodies).length) := by
  induction bodies generalizing count with
  | nil =>
    refine .inr (eq_of_mem_lines (fun among => ?_) member)
    exact unfinished (mem_of_mem_take among)
  | cons body others hypothesis =>
    obtain ⟨first, later⟩ := forall_mem_cons.mp unbroken
    rw [unlines_cons, append_assoc, cons_append] at member
    rw [unlines_cons, length_append, length_cons]
    rcases Nat.lt_or_ge body.length count with beyond | within
    · obtain ⟨more, rfl⟩ := Nat.exists_eq_add_of_lt beyond
      rw [Nat.add_assoc, take_length_add_append, take_succ_cons,
        lines_append first] at member
      rcases mem_cons.mp member with rfl | among
      · exact .inl ⟨body, mem_cons_self, .inl rfl⟩
      · rcases hypothesis later among with ⟨other, isOther, form⟩ | tail
        · exact .inl ⟨other, mem_cons_of_mem _ isOther, form⟩
        · refine .inr (tail.trans (congrArg rest.take ?_))
          omega
    · rw [take_append_of_le_length within] at member
      have cut : line = body.take count :=
        eq_of_mem_lines (fun among => first (mem_of_mem_take among)) member
      exact .inl ⟨body, mem_cons_self, .inr (cut ▸ ⟨_, take_append_drop count body⟩)⟩

end Lines

inductive BoundedLine (Symbol : Type) where
  | tooLong
  | line (symbols : List Symbol)
  deriving DecidableEq

def BoundedLine.of (limit : Nat) (line : List Symbol) : BoundedLine Symbol :=
  if limit < line.length then .tooLong else .line line

/-- Read until a newline, but no more than the limit and one symbol. What remains of a line that
is too long is skipped. -/
def boundedLines (limit : Nat) : Nat → List Symbol → List (BoundedLine Symbol)
  | 0, _ => []
  | fuel + 1, text =>
    let line := firstLine newline (text.take (limit + 1))
    let rest := text.drop line.length
    if line.isEmpty then []
    else if limit < line.length then
      .tooLong :: boundedLines limit fuel
        (if line.getLast? = some newline then rest else afterLine newline rest)
    else .line line :: boundedLines limit fuel rest

section Reader

variable {newline} {text : List Symbol}

theorem boundedLines_succ (limit fuel : Nat) (nonempty : text ≠ []) :
    boundedLines newline limit (fuel + 1) text =
      BoundedLine.of limit (firstLine newline text) ::
        boundedLines newline limit fuel (afterLine newline text) := by
  have parts : text.take (limit + 1) ++ text.drop (limit + 1) = text := take_append_drop ..
  by_cases ended : newline ∈ text.take (limit + 1)
  · obtain ⟨line, more, taken, unbroken⟩ := eq_append_cons_of_mem ended
    rw [taken, append_assoc, cons_append] at parts
    generalize more ++ text.drop (limit + 1) = rest at parts
    have dropped : text.drop (line ++ [newline]).length = rest := by
      rw [← parts, append_cons line newline rest, drop_left]
    rw [boundedLines, taken, (firstLine_append_newline unbroken more).1, dropped, ← parts,
      (firstLine_append_newline unbroken rest).1, (firstLine_append_newline unbroken rest).2]
    by_cases long : limit < line.length + 1 <;> simp [BoundedLine.of, long]
  · obtain ⟨begins, -⟩ := firstLine_append ended []
    obtain ⟨whole, after⟩ := firstLine_append ended (text.drop (limit + 1))
    rw [parts] at whole after
    have notLast : (text.take (limit + 1)).getLast? ≠ some newline :=
      fun last => ended (mem_of_getLast? last)
    have isFirst : firstLine newline (text.take (limit + 1)) = text.take (limit + 1) := by
      simpa [firstLine] using begins
    rw [boundedLines, isFirst, after, whole]
    by_cases long : limit < text.length
    · have length : (text.take (limit + 1)).length = limit + 1 :=
        length_take_of_le (Nat.succ_le_of_lt long)
      have tooLong : limit < (text.take (limit + 1) ++
          firstLine newline (text.drop (limit + 1))).length := by
        rw [length_append]
        omega
      rw [BoundedLine.of, if_pos tooLong]
      simp [length, notLast, nonempty]
    · have short : text.length ≤ limit + 1 := by omega
      rw [take_of_length_le short, drop_of_length_le short, drop_length]
      simp [BoundedLine.of, long, nonempty, firstLine, afterLine]

theorem length_afterLine_lt (nonempty : text ≠ []) :
    (afterLine newline text).length < text.length := by
  induction text with
  | nil => exact absurd rfl nonempty
  | cons symbol rest hypothesis =>
    by_cases isNewline : symbol = newline
    · simp [afterLine, isNewline]
    · rw [afterLine, if_neg isNewline, length_cons]
      cases rest with
      | nil => exact Nat.zero_lt_one
      | cons next others =>
        exact Nat.lt_succ_of_lt (hypothesis (cons_ne_nil _ _))

theorem boundedLines_eq (limit : Nat) {fuel : Nat} (enough : text.length ≤ fuel) :
    boundedLines newline limit fuel text = (lines newline text).map (BoundedLine.of limit) := by
  induction fuel generalizing text with
  | zero =>
    rw [eq_nil_of_length_eq_zero (Nat.le_zero.mp enough)]
    rfl
  | succ fuel hypothesis =>
    by_cases empty : text = []
    · subst empty
      rfl
    · have shorter : (afterLine newline text).length < text.length := length_afterLine_lt empty
      rw [boundedLines_succ limit fuel empty, lines_of_ne_nil empty, map_cons,
        hypothesis (by omega)]

end Reader

end Lines
