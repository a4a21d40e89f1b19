/-
This file is about reading lines from a reader that delivers a text in chunks.

A buffered reader shows a chunk of what remains and is told how much of it was used. How the text is
cut into chunks must not matter. `readUntil` reads a bounded line chunk by chunk, and it is proved
to give the front of the first line of the text that remains, whatever the chunks are.
-/

import EbpfStudio.Library.Lines

namespace BufferedReading

open Lines List

structure BufferedReader (Symbol : Type) where
  State : Type
  remaining : State → List Symbol
  fillBuf : State → State × List Symbol
  consume : State → Nat → State
  remaining_fillBuf : ∀ state, remaining (fillBuf state).1 = remaining state
  begins : ∀ state, (fillBuf state).2 <+: remaining state
  ended : ∀ state, (fillBuf state).2 = [] → remaining state = []
  remaining_consume : ∀ state count, count ≤ (fillBuf state).2.length →
    remaining (consume (fillBuf state).1 count) = (remaining state).drop count
  remaining_consume_zero : ∀ state, remaining (consume state 0) = remaining state

def inChunks {Symbol : Type} (size : Nat) (positive : 0 < size) : BufferedReader Symbol where
  State := List Symbol
  remaining := id
  fillBuf text := (text, text.take size)
  consume text count := text.drop count
  remaining_fillBuf _ := rfl
  begins text := List.take_prefix size text
  ended _ empty := (List.take_eq_nil_iff.mp empty).resolve_left positive.ne'
  remaining_consume _ _ _ := rfl
  remaining_consume_zero _ := rfl

variable {Symbol : Type} [DecidableEq Symbol] (newline : Symbol)

section FirstLine

variable {newline}

theorem firstLine_append_of_mem {beginning : List Symbol} (ended : newline ∈ beginning)
    (rest : List Symbol) :
    firstLine newline (beginning ++ rest) = firstLine newline beginning := by
  obtain ⟨line, more, rfl, unbroken⟩ := eq_append_cons_of_mem ended
  rw [append_assoc, cons_append, (firstLine_append_newline unbroken _).1,
    (firstLine_append_newline unbroken _).1]

theorem afterLine_append_of_mem {beginning : List Symbol} (ended : newline ∈ beginning)
    (rest : List Symbol) :
    afterLine newline (beginning ++ rest) =
      (beginning ++ rest).drop (firstLine newline beginning).length := by
  obtain ⟨line, more, rfl, unbroken⟩ := eq_append_cons_of_mem ended
  rw [append_assoc, cons_append, (firstLine_append_newline unbroken _).1,
    (firstLine_append_newline unbroken _).2, append_cons line newline (more ++ rest),
    drop_left]

theorem length_firstLine_le (text : List Symbol) :
    (firstLine newline text).length ≤ text.length := by
  induction text with
  | nil => exact le_refl _
  | cons symbol rest hypothesis =>
    unfold firstLine
    split
    · exact Nat.succ_le_succ (Nat.zero_le _)
    · exact Nat.succ_le_succ hypothesis

theorem firstLine_eq_nil_iff {text : List Symbol} : firstLine newline text = [] ↔ text = [] := by
  cases text with
  | nil => exact ⟨fun _ => rfl, fun _ => rfl⟩
  | cons symbol rest =>
    refine ⟨fun empty => ?_, fun empty => nomatch empty⟩
    unfold firstLine at empty
    split at empty <;> cases empty

end FirstLine

namespace BufferedReader

variable (reader : BufferedReader Symbol)

/-- Read up to a newline through a view of the reader that ends at the limit. The view shows
nothing more at its limit, which ends the loop like the end of the text. -/
def readUntil (limit : Nat) (state : reader.State) : reader.State × List Symbol :=
  if limit = 0 then (reader.consume state 0, [])
  else
    let filled := reader.fillBuf state
    let available := filled.2.take limit
    if newline ∈ available then
      let line := firstLine newline available
      (reader.consume filled.1 line.length, line)
    else if available = [] then (reader.consume filled.1 0, [])
    else
      let next := readUntil (limit - available.length)
        (reader.consume filled.1 available.length)
      (next.1, available ++ next.2)
termination_by limit
decreasing_by
  rename_i positive _ nonempty
  exact Nat.sub_lt (Nat.pos_of_ne_zero positive) (List.length_pos_iff.mpr nonempty)

def skipLine (state : reader.State) : reader.State :=
  let filled := reader.fillBuf state
  if filled.2 = [] then filled.1
  else if newline ∈ filled.2 then
    reader.consume filled.1 (firstLine newline filled.2).length
  else skipLine (reader.consume filled.1 filled.2.length)
termination_by (reader.remaining state).length
decreasing_by
  rename_i nonempty _
  rw [reader.remaining_consume state _ le_rfl, List.length_drop]
  have shown := List.length_pos_iff.mpr nonempty
  exact Nat.sub_lt (shown.trans_le (reader.begins state).length_le) shown

variable {newline} {reader}

theorem readUntil_spec (limit : Nat) (state : reader.State) :
    (reader.readUntil newline limit state).2 =
        firstLine newline ((reader.remaining state).take limit) ∧
      reader.remaining (reader.readUntil newline limit state).1 =
        (reader.remaining state).drop (reader.readUntil newline limit state).2.length := by
  induction limit using Nat.strongRecOn generalizing state with
  | ind limit hypothesis =>
    unfold readUntil
    by_cases none_ : limit = 0
    · rw [if_pos none_, none_]
      exact ⟨rfl, reader.remaining_consume_zero state⟩
    rw [if_neg none_]
    dsimp only
    have begins : (reader.fillBuf state).2.take limit <+: reader.remaining state :=
      (List.take_prefix _ _).trans (reader.begins state)
    have shown : ((reader.fillBuf state).2.take limit).length ≤ (reader.fillBuf state).2.length :=
      (List.take_prefix _ _).length_le
    have inLimit : ((reader.fillBuf state).2.take limit).length ≤ limit :=
      length_take_le _ _
    have atEnd : (reader.fillBuf state).2.take limit = [] → reader.remaining state = [] :=
      fun empty => reader.ended state ((take_eq_nil_iff.mp empty).resolve_left none_)
    have rest := reader.remaining_consume state
    generalize (reader.fillBuf state).2.take limit = available at begins shown inLimit atEnd
    -- The text within the limit is the chunk and what is read after it.
    have parts : (reader.remaining state).take limit = available ++
        ((reader.remaining state).drop available.length).take (limit - available.length) := by
      conv_lhs => rw [← Nat.add_sub_cancel' inLimit, take_add]
      rw [← prefix_iff_eq_take.mp begins]
    by_cases ended : newline ∈ available
    · rw [if_pos ended, parts, firstLine_append_of_mem ended]
      exact ⟨rfl, rest _ ((length_firstLine_le available).trans shown)⟩
    rw [if_neg ended]
    by_cases empty : available = []
    · rw [if_pos empty, atEnd empty, rest 0 (Nat.zero_le _), atEnd empty, take_nil]
      exact ⟨rfl, rfl⟩
    · have shorter : limit - available.length < limit :=
        Nat.sub_lt (Nat.pos_of_ne_zero none_) (length_pos_iff.mpr empty)
      obtain ⟨read, left⟩ := hypothesis _ shorter
        (reader.consume (reader.fillBuf state).1 available.length)
      rw [rest _ shown] at read left
      rw [if_neg empty, parts, (firstLine_append ended _).1]
      refine ⟨congrArg (available ++ ·) read, ?_⟩
      rw [left, drop_drop, length_append]

theorem remaining_skipLine (state : reader.State) :
    reader.remaining (reader.skipLine newline state) =
      afterLine newline (reader.remaining state) := by
  induction length : (reader.remaining state).length using Nat.strongRecOn
    generalizing state with
  | ind count hypothesis =>
    unfold skipLine
    obtain ⟨more, whole⟩ := reader.begins state
    by_cases empty : (reader.fillBuf state).2 = []
    · rw [if_pos empty, reader.remaining_fillBuf, reader.ended state empty]
      rfl
    rw [if_neg empty]
    by_cases ended : newline ∈ (reader.fillBuf state).2
    · rw [if_pos ended, reader.remaining_consume state _ (length_firstLine_le _), ← whole,
        afterLine_append_of_mem ended]
    · have left : reader.remaining (reader.consume (reader.fillBuf state).1
          (reader.fillBuf state).2.length) = more := by
        rw [reader.remaining_consume state _ le_rfl, ← whole, drop_left]
      have shorter : more.length < count := by
        rw [← length, ← whole, length_append]
        exact Nat.lt_add_of_pos_left (List.length_pos_iff.mpr empty)
      rw [if_neg ended, hypothesis more.length shorter _ (congrArg List.length left),
        left, ← whole, (firstLine_append ended more).2]

end BufferedReader

end BufferedReading
