/-
This file relates the session reader, on an input that comes in chunks, to splitting at newlines.

The limit is increased by one to see whether a line is too long, and the lines are counted. Both
additions may overflow, and then a debug build panics and a release build wraps. Apart from that the
chunks do not matter, and the reader is the fold of one step over the lines.
-/

import EbpfStudio.Library.BufferedReading
import EbpfStudio.Protocol.SessionReader

namespace EbpfStudio

open BufferedReading Lines List BufferedReader Option Word

/-- What an overflowing addition does, which the profile of a build decides. -/
inductive OverflowMode where
  | panics | wraps
  deriving DecidableEq

def OverflowMode.succ (mode : OverflowMode) (value : U64) : Option U64 :=
  match mode with
  | panics => value.checkedAdd 1
  | wraps => some (Word.ofNat 64 (value.val + 1))

structure CountedVisit (Record : Type) where
  records : List Record := []
  total : U64 := 0
  rejected : U64 := 0
  deriving DecidableEq

section Reader

variable {Record : Type} (mode : OverflowMode) (parse : List UInt8 → Option Record)
variable (maxLineBytes : U64) (reader : BufferedReader UInt8)

/-- What becomes of a line that was read, of a long one at least so much that it is too long. -/
def countLine (seen : CountedVisit Record) (line : List UInt8) : Option (CountedVisit Record) :=
  if maxLineBytes.val < line.length then do
    let total ← mode.succ seen.total
    let rejected ← mode.succ seen.rejected
    some { seen with total := total, rejected := rejected }
  else if line.all isAsciiWhitespace then some seen
  else do
    let total ← mode.succ seen.total
    match parse line with
    | some record => some { seen with total := total, records := seen.records ++ [record] }
    | none => do
      let rejected ← mode.succ seen.rejected
      some { seen with total := total, rejected := rejected }

/-- The reader after a line was taken: the rest of a line that is too long is skipped. -/
def afterRead (read : reader.State × List UInt8) : reader.State :=
  if maxLineBytes.val < read.2.length ∧ read.2.getLast? ≠ some lineFeed then
    reader.skipLine lineFeed read.1
  else read.1

theorem length_afterLine_le (text : List UInt8) :
    (afterLine lineFeed text).length ≤ text.length := by
  by_cases empty : text = []
  · rw [empty]
    exact le_refl _
  · exact (length_afterLine_lt empty).le

theorem length_afterRead_lt {limit : Nat} {state : reader.State}
    (some_ : (reader.readUntil lineFeed limit state).2 ≠ []) :
    (reader.remaining (afterRead maxLineBytes reader
      (reader.readUntil lineFeed limit state))).length < (reader.remaining state).length := by
  obtain ⟨read, left⟩ := @readUntil_spec _ _ lineFeed reader limit state
  have nonempty : reader.remaining state ≠ [] := by
    intro empty
    rw [empty, take_nil] at read
    exact some_ read
  have shorter : (reader.remaining (reader.readUntil lineFeed limit state).1).length <
      (reader.remaining state).length := by
    rw [left, length_drop]
    exact Nat.sub_lt (length_pos_iff.mpr nonempty) (length_pos_iff.mpr some_)
  unfold afterRead
  split
  · rw [remaining_skipLine]
    exact (length_afterLine_le _).trans_lt shorter
  · exact shorter

def visitFrom (state : reader.State) (seen : CountedVisit Record) :
    Option (CountedVisit Record) :=
  match mode.succ maxLineBytes with
  | none => none
  | some limit =>
    if (reader.readUntil lineFeed limit.val state).2 = [] then some seen
    else
      match countLine mode parse maxLineBytes seen
          (reader.readUntil lineFeed limit.val state).2 with
      | none => none
      | some next =>
        visitFrom (afterRead maxLineBytes reader (reader.readUntil lineFeed limit.val state)) next
termination_by (reader.remaining state).length
decreasing_by
  exact length_afterRead_lt maxLineBytes reader (by assumption)

end Reader

section Naive

variable {Record : Type} (parse : List UInt8 → Option Record) (maxLineBytes : U64)

def counts (line : List UInt8) : Bool :=
  maxLineBytes.val < line.length || !line.all isAsciiWhitespace

def seenAfter (read : List (List UInt8)) : CountedVisit Record where
  records := read.filterMap (delivered parse maxLineBytes.val)
  total := Word.ofNat 64 (read.countP (counts maxLineBytes))
  rejected := Word.ofNat 64 (read.countP (rejects parse maxLineBytes.val))

end Naive

section Lines

variable {Record : Type} {mode : OverflowMode} {parse : List UInt8 → Option Record}
variable {maxLineBytes : U64} {reader : BufferedReader UInt8}

variable (seen : CountedVisit Record)

theorem countLine_of_long {first second : List UInt8}
    (firstLong : maxLineBytes.val < first.length) (secondLong : maxLineBytes.val < second.length) :
    countLine mode parse maxLineBytes seen first =
      countLine mode parse maxLineBytes seen second := by
  unfold countLine
  rw [if_pos firstLong, if_pos secondLong]

theorem getLast?_firstLine {text : List UInt8} (ended : lineFeed ∈ text) :
    (firstLine lineFeed text).getLast? = some lineFeed := by
  obtain ⟨line, more, rfl, unbroken⟩ := eq_append_cons_of_mem ended
  rw [(firstLine_append_newline unbroken more).1, getLast?_concat]

theorem turn_takes_line {limit : Nat} (bound : limit = maxLineBytes.val + 1)
    (state : reader.State) :
    reader.remaining (afterRead maxLineBytes reader (reader.readUntil lineFeed limit state)) =
        afterLine lineFeed (reader.remaining state) ∧
      countLine mode parse maxLineBytes seen (reader.readUntil lineFeed limit state).2 =
        countLine mode parse maxLineBytes seen
          (firstLine lineFeed (reader.remaining state)) := by
  obtain ⟨read, left⟩ := @readUntil_spec _ _ lineFeed reader limit state
  have parts : (reader.remaining state).take limit ++ (reader.remaining state).drop limit =
      reader.remaining state := take_append_drop ..
  by_cases ended : lineFeed ∈ (reader.remaining state).take limit
  · have whole : firstLine lineFeed (reader.remaining state) =
        (reader.readUntil lineFeed limit state).2 := by
      rw [← parts, firstLine_append_of_mem ended, read]
    unfold afterRead
    rw [if_neg (fun long => long.2 (read ▸ getLast?_firstLine ended)), left, whole]
    refine ⟨?_, rfl⟩
    have after := afterLine_append_of_mem ended ((reader.remaining state).drop limit)
    rw [parts, ← read] at after
    exact after.symm
  · have unbroken : firstLine lineFeed ((reader.remaining state).take limit) =
        (reader.remaining state).take limit := by
      have begins := (firstLine_append ended []).1
      rw [append_nil] at begins
      exact begins.trans (append_nil _)
    obtain ⟨begins, ends⟩ := firstLine_append ended ((reader.remaining state).drop limit)
    rw [parts] at begins ends
    rw [unbroken] at read
    rcases lt_or_ge maxLineBytes.val (reader.remaining state).length with long | short
    · -- The line goes on after the limit, and the reader has to skip the rest of it.
      have length : (reader.readUntil lineFeed limit state).2.length = limit := by
        rw [read, length_take_of_le (bound ▸ long)]
      have taken : maxLineBytes.val < (reader.readUntil lineFeed limit state).2.length := by
        rw [length, bound]
        exact Nat.lt_succ_self _
      unfold afterRead
      rw [if_pos ⟨taken, fun last => ended (read ▸ mem_of_getLast? last)⟩,
        remaining_skipLine, left, length, ends]
      refine ⟨rfl, countLine_of_long seen taken ?_⟩
      rw [begins, length_append, ← read]
      exact taken.trans_le (Nat.le_add_right _ _)
    · have all : (reader.remaining state).take limit = reader.remaining state :=
        take_of_length_le (short.trans (bound ▸ Nat.le_succ _))
      have none_ : (reader.remaining state).drop limit = [] :=
        drop_of_length_le (short.trans (bound ▸ Nat.le_succ _))
      rw [all] at read
      unfold afterRead
      rw [if_neg (fun long => absurd long.1 (not_lt.mpr (read ▸ short))), left, begins, ends,
        none_, read, drop_length, all]
      exact ⟨rfl, congrArg _ (append_nil _).symm⟩

theorem visitFrom_eq_foldlM {limit : U64} (next : mode.succ maxLineBytes = some limit)
    (bound : limit.val = maxLineBytes.val + 1) (state : reader.State)
    (seen : CountedVisit Record) :
    visitFrom mode parse maxLineBytes reader state seen =
      (lines lineFeed (reader.remaining state)).foldlM (countLine mode parse maxLineBytes)
        seen := by
  induction length : (reader.remaining state).length using Nat.strongRecOn
    generalizing state seen with
  | ind count hypothesis =>
    obtain ⟨read, -⟩ := @readUntil_spec _ _ lineFeed reader limit.val state
    unfold visitFrom
    rw [next]
    dsimp only
    by_cases empty : reader.remaining state = []
    · have nothing : (reader.readUntil lineFeed limit.val state).2 = [] := by
        rw [read, empty, take_nil]
        rfl
      rw [if_pos nothing, empty]
      rfl
    · have some_ : (reader.readUntil lineFeed limit.val state).2 ≠ [] := by
        rw [read, Ne, firstLine_eq_nil_iff, take_eq_nil_iff, not_or]
        exact ⟨bound ▸ Nat.succ_ne_zero _, empty⟩
      obtain ⟨rest, counted⟩ := @turn_takes_line _ mode parse _ reader seen _ bound state
      have shorter := length_afterRead_lt maxLineBytes reader some_
      rw [if_neg some_, counted, lines_of_ne_nil empty, foldlM_cons]
      cases countLine mode parse maxLineBytes seen
          (firstLine lineFeed (reader.remaining state)) with
      | none => rfl
      | some after =>
        exact (hypothesis _ (length ▸ shorter) _ after rfl).trans (by rw [rest]; rfl)

theorem succ_ofNat {count : Nat} (unnoticed : mode = .wraps ∨ count + 1 < 2 ^ 64) :
    mode.succ (ofNat 64 count) = some (ofNat 64 (count + 1)) := by
  cases mode with
  | wraps => exact congrArg some (Fin.ext (Nat.mod_add_mod _ _ _))
  | panics =>
    have small := unnoticed.resolve_left nofun
    have same : (ofNat 64 count).val = count := Nat.mod_eq_of_lt (Nat.lt_of_succ_lt small)
    unfold OverflowMode.succ checkedAdd
    rw [dif_pos (same.symm ▸ small)]
    refine congrArg some (Fin.ext ?_)
    show (ofNat 64 count).val + 1 = (count + 1) % 2 ^ 64
    rw [same, Nat.mod_eq_of_lt small]

theorem succ_ofNat_eq_none {count : Nat} (last : count + 1 = 2 ^ 64) :
    OverflowMode.panics.succ (ofNat 64 count) = none := by
  have same : (ofNat 64 count).val = count :=
    Nat.mod_eq_of_lt (last ▸ Nat.lt_succ_self count)
  refine dif_neg fun small => ?_
  rw [same, last] at small
  exact absurd small (lt_irrefl _)

theorem rejects_le_counts (read : List (List UInt8)) :
    read.countP (rejects parse maxLineBytes.val) ≤ read.countP (counts maxLineBytes) := by
  refine countP_mono_left fun line _ rejected => ?_
  unfold rejects at rejected
  unfold counts
  rw [Bool.or_eq_true, Bool.and_eq_true] at rejected
  rw [Bool.or_eq_true]
  exact rejected.imp_right And.left

variable {read : List (List UInt8)}

theorem countLine_seenAfter {line : List UInt8}
    (unnoticed : mode = .wraps ∨ (read ++ [line]).countP (counts maxLineBytes) < 2 ^ 64) :
    countLine mode parse maxLineBytes (seenAfter parse maxLineBytes read) line =
      some (seenAfter parse maxLineBytes (read ++ [line])) := by
  have fewer := @rejects_le_counts _ parse maxLineBytes read
  unfold seenAfter countLine
  simp only [Run.filterMap_snoc, countP_append, countP_singleton] at unnoticed ⊢
  by_cases long : maxLineBytes.val < line.length
  · simp only [counts, rejects, delivered, long, decide_true, Bool.true_or, if_true] at unnoticed ⊢
    rw [succ_ofNat unnoticed, succ_ofNat (unnoticed.imp_right fun small => by omega)]
    simp
  · cases blank : line.all isAsciiWhitespace with
    | true => simp [counts, rejects, delivered, long, blank]
    | false =>
      simp only [counts, rejects, delivered, long, blank, decide_false, Bool.false_or,
        Bool.not_false, if_true, if_false, Bool.true_and, Bool.false_eq_true] at unnoticed ⊢
      rw [succ_ofNat unnoticed]
      cases parse line with
      | some record => simp
      | none =>
        rw [isNone_none, if_pos rfl]
        show (do
          let rejected ← mode.succ (ofNat 64 _)
          some _) = _
        rw [succ_ofNat (unnoticed.imp_right fun small => by omega)]
        simp

theorem countLine_eq_none {line : List UInt8}
    (full : read.countP (counts maxLineBytes) + 1 = 2 ^ 64)
    (counted : counts maxLineBytes line = true) :
    countLine .panics parse maxLineBytes (seenAfter parse maxLineBytes read) line = none := by
  have stops := succ_ofNat_eq_none full
  unfold countLine seenAfter
  by_cases long : maxLineBytes.val < line.length
  · simp only [long, if_true, stops, bind_eq_bind, bind_none]
  · have visible : line.all isAsciiWhitespace = false := by
      simpa [counts, long] using counted
    simp only [long, visible, if_false, Bool.false_eq_true, stops, bind_eq_bind,
      bind_none]

theorem foldlM_countLine (text : List (List UInt8)) :
    text.foldlM (countLine mode parse maxLineBytes) {} =
      if mode = .wraps ∨ text.countP (counts maxLineBytes) < 2 ^ 64 then
        some (seenAfter parse maxLineBytes text)
      else none := by
  induction text using reverseRecOn with
  | nil => exact (if_pos (Or.inr (Nat.two_pow_pos 64))).symm
  | append_singleton read line hypothesis =>
    rw [Run.foldlM_snoc, hypothesis]
    have longer : (read ++ [line]).countP (counts maxLineBytes) =
        read.countP (counts maxLineBytes) + [line].countP (counts maxLineBytes) :=
      countP_append
    have one : [line].countP (counts maxLineBytes) ≤ 1 := countP_le_length
    by_cases unnoticed : mode = .wraps ∨ (read ++ [line]).countP (counts maxLineBytes) < 2 ^ 64
    · rw [if_pos (unnoticed.imp_right fun small => by omega), if_pos unnoticed]
      exact countLine_seenAfter unnoticed
    · rw [if_neg unnoticed]
      obtain ⟨stops, many⟩ := not_or.mp unnoticed
      have panics : mode = .panics := by
        cases mode with
        | wraps => exact absurd rfl stops
        | panics => rfl
      subst panics
      by_cases before : read.countP (counts maxLineBytes) < 2 ^ 64
      · rw [if_pos (.inr before)]
        have counted : counts maxLineBytes line = true := by
          by_contra blank
          rw [countP_singleton, if_neg blank] at longer
          omega
        exact countLine_eq_none (by omega) counted
      · rw [if_neg (not_or.mpr ⟨stops, before⟩)]
        rfl

/-- What splitting a text at newlines gives: the records of the lines within the limit, the
lines that are too long or not blank, and those of them that give no record. -/
structure IsNaive (parse : List UInt8 → Option Record) (maxLineBytes : U64) (text : List UInt8)
    (visited : CountedVisit Record) : Prop where
  records : visited.records =
    ((lines lineFeed text).filter (·.length ≤ maxLineBytes.val)).filterMap parse
  total : visited.total.val = (lines lineFeed text).countP (counts maxLineBytes)
  rejected : visited.rejected.val = (lines lineFeed text).countP fun line =>
    counts maxLineBytes line && (decide (maxLineBytes.val < line.length) || (parse line).isNone)

/-- A format that reads no record from a blank line, as a value has to begin somewhere. -/
def SkipsBlank (parse : List UInt8 → Option Record) : Prop :=
  ∀ line, line.all isAsciiWhitespace = true → parse line = none

theorem filterMap_delivered (skips : SkipsBlank parse) (text : List (List UInt8)) :
    text.filterMap (delivered parse maxLineBytes.val) =
      (text.filter (·.length ≤ maxLineBytes.val)).filterMap parse := by
  rw [filterMap_filter]
  refine filterMap_congr fun line _ => ?_
  unfold delivered
  by_cases long : maxLineBytes.val < line.length
  · simp [long, not_le.mpr long]
  · cases blank : line.all isAsciiWhitespace with
    | true => simp [long, not_lt.mp long, skips line blank]
    | false => simp [long, not_lt.mp long]

theorem rejects_eq (line : List UInt8) :
    rejects parse maxLineBytes.val line = (counts maxLineBytes line &&
      (decide (maxLineBytes.val < line.length) || (parse line).isNone)) := by
  unfold rejects counts
  rw [Bool.or_and_distrib_left]

theorem isNaive_seenAfter_iff (skips : SkipsBlank parse) (text : List UInt8) :
    IsNaive parse maxLineBytes text (seenAfter parse maxLineBytes (lines lineFeed text)) ↔
      (lines lineFeed text).countP (counts maxLineBytes) < 2 ^ 64 := by
  refine ⟨fun naive => ?_, fun few => ⟨filterMap_delivered skips _, Nat.mod_eq_of_lt few, ?_⟩⟩
  · rw [← naive.total]
    exact Fin.isLt _
  · rw [← funext rejects_eq]
    exact Nat.mod_eq_of_lt ((rejects_le_counts _).trans_lt few)

theorem isNaive_empty_iff (skips : SkipsBlank parse) (text : List UInt8) :
    IsNaive parse maxLineBytes text {} ↔
      (lines lineFeed text).countP (counts maxLineBytes) = 0 := by
  refine ⟨fun naive => naive.total.symm, fun none_ => ?_⟩
  have rejected := Nat.le_zero.mp ((@rejects_le_counts _ parse maxLineBytes _).trans none_.le)
  refine ⟨?_, none_.symm, ?_⟩
  · rw [← filterMap_delivered skips, eq_comm, filterMap_eq_nil_iff]
    intro line member
    have uncounted : counts maxLineBytes line = false :=
      Bool.eq_false_iff.mpr (countP_eq_zero.mp none_ line member)
    unfold counts at uncounted
    unfold delivered
    rw [Bool.or_eq_false_iff, Bool.not_eq_false'] at uncounted
    rw [uncounted.1, uncounted.2]
    rfl
  · rw [← funext rejects_eq, rejected]
    rfl

theorem visitFrom_of_full (full : maxLineBytes.val + 1 = 2 ^ 64) (state : reader.State) :
    visitFrom mode parse maxLineBytes reader state {} =
      if mode = .wraps then some {} else none := by
  unfold visitFrom
  cases mode with
  | panics =>
    have stops : OverflowMode.panics.succ maxLineBytes = none := dif_neg (not_lt.mpr full.ge)
    rw [stops]
    rfl
  | wraps =>
    have next : OverflowMode.wraps.succ maxLineBytes = some 0 := by
      refine congrArg some (Fin.ext ?_)
      show (maxLineBytes.val + 1) % 2 ^ 64 = 0
      rw [full, Nat.mod_self]
    obtain ⟨read, -⟩ := @readUntil_spec _ _ lineFeed reader 0 state
    have nothing : (reader.readUntil lineFeed (0 : U64).val state).2 = [] := read
    rw [next]
    dsimp only
    rw [if_pos nothing]
    rfl

/-- For every text, every way in which it comes in chunks and every limit, the reader gives what
splitting at newlines gives exactly when the limit has a successor and the lines can be counted;
a release build with the largest limit is right about a text without a line that counts. -/
theorem chunked_visit_is_naive_iff {Record : Type} (mode : OverflowMode)
    (parse : List UInt8 → Option Record) (skips : SkipsBlank parse) (maxLineBytes : U64)
    (reader : BufferedReader UInt8) (state : reader.State) :
    (∃ visited, visitFrom mode parse maxLineBytes reader state {} = some visited ∧
      IsNaive parse maxLineBytes (reader.remaining state) visited) ↔
      (maxLineBytes.val + 1 < 2 ^ 64 ∧
        (lines lineFeed (reader.remaining state)).countP (counts maxLineBytes) < 2 ^ 64) ∨
      (mode = .wraps ∧ maxLineBytes.val + 1 = 2 ^ 64 ∧
        (lines lineFeed (reader.remaining state)).countP (counts maxLineBytes) = 0) := by
  rcases lt_or_ge (maxLineBytes.val + 1) (2 ^ 64) with small | large
  · have next : mode.succ maxLineBytes = some ⟨maxLineBytes.val + 1, small⟩ := by
      cases mode with
      | panics => exact dif_pos small
      | wraps => exact congrArg some (Fin.ext (Nat.mod_eq_of_lt small))
    rw [visitFrom_eq_foldlM next rfl, foldlM_countLine]
    constructor
    · rintro ⟨visited, seen, naive⟩
      rw [ite_none_right_eq_some] at seen
      obtain ⟨-, same⟩ := seen
      rw [← some.inj same, isNaive_seenAfter_iff skips] at naive
      exact .inl ⟨small, naive⟩
    · rintro (⟨-, few⟩ | ⟨-, full, -⟩)
      · exact ⟨_, if_pos (.inr few), (isNaive_seenAfter_iff skips _).mpr few⟩
      · exact absurd full small.ne
  · have full : maxLineBytes.val + 1 = 2 ^ 64 := le_antisymm maxLineBytes.isLt large
    rw [visitFrom_of_full full]
    constructor
    · rintro ⟨visited, seen, naive⟩
      rw [ite_none_right_eq_some] at seen
      obtain ⟨wraps, same⟩ := seen
      rw [← some.inj same, isNaive_empty_iff skips] at naive
      exact .inr ⟨wraps, full, naive⟩
    · rintro (⟨small, -⟩ | ⟨wraps, -, none_⟩)
      · exact absurd full small.ne
      · exact ⟨{}, if_pos wraps, (isNaive_empty_iff skips _).mpr none_⟩

end Lines

def parseX (line : List UInt8) : Option Unit :=
  if line = [120, lineFeed] then some () else none

theorem skipsBlank_parseX : SkipsBlank parseX := by
  intro line blank
  refine if_neg fun isX => ?_
  rw [isX] at blank
  revert blank
  decide

/-- A line of two bytes that comes in two chunks and is as long as the limit. -/
theorem chunked_visit_of_x :
    ∃ visited, visitFrom .panics parseX 2 (inChunks 1 Nat.one_pos) [120, lineFeed] {} =
        some visited ∧ IsNaive parseX 2 [120, lineFeed] visited :=
  (chunked_visit_is_naive_iff .panics parseX skipsBlank_parseX 2 (inChunks 1 one_pos)
    [120, lineFeed]).mpr (.inl (by decide +kernel))

/-- With the largest limit a debug build panics, and a release build reads nothing. -/
theorem largest_limit_reads_nothing :
    visitFrom .panics parseX (Word.maximum 64) (inChunks 1 Nat.one_pos) [120, lineFeed] {} =
        none ∧
      visitFrom .wraps parseX (Word.maximum 64) (inChunks 1 Nat.one_pos) [120, lineFeed] {} =
        some {} ∧
      ¬ IsNaive parseX (Word.maximum 64) [120, lineFeed] {} := by
  refine ⟨visitFrom_of_full rfl _, visitFrom_of_full rfl _, fun naive => ?_⟩
  have counted := naive.total
  revert counted
  decide +kernel

end EbpfStudio
