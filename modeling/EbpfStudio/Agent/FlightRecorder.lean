/-
This file models the flight recorder of the agent and proves that its books are right.

The recorder keeps the newest records within a budget of bytes and a window of time. A call adds
the new record and then drops records from the front while the byte counter exceeds the budget or
the front is too old. `Evicted` says what this loop does: what it drops, what is left, and why the
last dropped record had to go. From it follow the books after every sequence of calls: the byte
counter is the sum of the retained sizes as long as no addition overflows, it never exceeds the
budget, and every call is either retained or counted as evicted.
-/

import EbpfStudio.Library.Packing
import EbpfStudio.Library.Run
import EbpfStudio.Protocol.Event

namespace EbpfStudio

open Packing Run List Word Bool

/-- A record with its time and the bytes of its encoding. -/
structure BufferedRecord (Record : Type) where
  tsNs : U64
  encodedBytes : U64
  record : Record

/-- The recorder: its budget and window, its two counters, and the records from the oldest on. -/
structure FlightRecorder (Record : Type) where
  maxBytes : U64
  windowNs : U64
  bytes : U64 := 0
  evictedRecords : U64 := 0
  records : List (BufferedRecord Record) := []

/-- The bytes of a record with its line end, where the length of the encoding is known. No
buffer is longer than the signed sizes reach, so the end of the line fits. -/
def encodedSize {Record : Type} (encodedLength : Record → Option (Word 63)) (record : Record) :
    U64 :=
  match encodedLength record with
  | some length => ⟨length.val + 1, by have := length.isLt; omega⟩
  | none => 0

namespace FlightRecorder

variable {Record : Type}

def size (record : BufferedRecord Record) : Nat := record.encodedBytes.val

/-- The condition of the eviction loop. -/
def mustEvict (recorder : FlightRecorder Record) (minimumTs : U64)
    (front : BufferedRecord Record) : Bool :=
  recorder.maxBytes < recorder.bytes || front.tsNs < minimumTs

/-- Drop the front from the books. -/
def evictOne (recorder : FlightRecorder Record) (front : BufferedRecord Record) :
    FlightRecorder Record :=
  { recorder with
    bytes := recorder.bytes.saturatingSub front.encodedBytes.val
    evictedRecords := recorder.evictedRecords.saturatingAdd 1 }

/-- The eviction loop over the records that are left. -/
def evictFrom (recorder : FlightRecorder Record) (minimumTs : U64) :
    List (BufferedRecord Record) → FlightRecorder Record
  | [] => { recorder with records := [] }
  | front :: rest =>
    if recorder.mustEvict minimumTs front then
      (recorder.evictOne front).evictFrom minimumTs rest
    else { recorder with records := front :: rest }

/-- A call of `observe`: a time and a record. -/
abbrev Call (Record : Type) := U64 × Record

section Observe

variable (encodedLength : Record → Option (Word 63))

def buffered (call : Call Record) : BufferedRecord Record :=
  ⟨call.1, encodedSize encodedLength call.2, call.2⟩

/-- The recorder with the new record at the end, before the eviction. -/
def pushed (recorder : FlightRecorder Record) (call : Call Record) : FlightRecorder Record :=
  { recorder with
    bytes := recorder.bytes.saturatingAdd (encodedSize encodedLength call.2).val
    records := recorder.records ++ [buffered encodedLength call] }

/-- Refuse a record that exceeds the budget alone, else add it and evict. -/
def observe (recorder : FlightRecorder Record) (call : Call Record) : FlightRecorder Record :=
  if recorder.maxBytes < encodedSize encodedLength call.2 then
    { recorder with evictedRecords := recorder.evictedRecords.saturatingAdd 1 }
  else
    (recorder.pushed encodedLength call).evictFrom
      (call.1.saturatingSub recorder.windowNs.val) (recorder.pushed encodedLength call).records

end Observe

/-- The time from which on records are retained. -/
def retainedStart (recorder : FlightRecorder Record) (requestedStartTsNs : U64) : U64 :=
  (recorder.records.find? (requestedStartTsNs ≤ ·.tsNs)).elim requestedStartTsNs (·.tsNs)

/-- What the eviction loop leaves of a list of records and of the counters. -/
structure Evicted (recorder : FlightRecorder Record) (minimumTs : U64)
    (records dropped : List (BufferedRecord Record)) (after : FlightRecorder Record) :
    Prop where
  split : records = dropped ++ after.records
  maxBytes : after.maxBytes = recorder.maxBytes
  windowNs : after.windowNs = recorder.windowNs
  counted : after.evictedRecords.val =
    min (recorder.evictedRecords.val + dropped.length) (2 ^ 64 - 1)
  atMost : recorder.bytes.val ≤ load size records → after.bytes.val ≤ load size after.records
  exact : recorder.bytes.val = load size records → after.bytes.val = load size after.records
  within : recorder.bytes.val ≤ load size records → after.bytes ≤ recorder.maxBytes
  young : ∀ front ∈ after.records.head?, minimumTs ≤ front.tsNs
  reason : recorder.bytes.val = load size records → ∀ before last, dropped = before ++ [last] →
    recorder.maxBytes.val < load size (last :: after.records) ∨ last.tsNs < minimumTs

theorem load_cons (first : BufferedRecord Record) (rest : List (BufferedRecord Record)) :
    load size (first :: rest) = first.encodedBytes.val + load size rest :=
  sum_cons

theorem evicted_evictFrom (recorder : FlightRecorder Record) (minimumTs : U64)
    (records : List (BufferedRecord Record)) :
    ∃ dropped, Evicted recorder minimumTs records dropped
      (recorder.evictFrom minimumTs records) := by
  induction records generalizing recorder with
  | nil =>
    refine ⟨[], rfl, rfl, rfl, ?_, id, id, fun empty => ?_, fun front found => (nomatch found),
      fun _ before last none_ => ?_⟩
    · have few := recorder.evictedRecords.isLt
      show recorder.evictedRecords.val = min (recorder.evictedRecords.val + 0) _
      omega
    · exact (Nat.le_zero.mp empty).trans_le (Nat.zero_le _)
    · cases before <;> cases none_
  | cons front rest hypothesis =>
    unfold evictFrom
    split
    · rename_i evicts
      obtain ⟨dropped, after⟩ := hypothesis (recorder.evictOne front)
      have fewer : (recorder.evictOne front).bytes.val =
          recorder.bytes.val - front.encodedBytes.val := rfl
      have more := saturatingAdd_val recorder.evictedRecords 1
      refine ⟨front :: dropped, ?_, after.maxBytes, after.windowNs, ?_, fun atMost => ?_,
        fun exact_ => ?_, fun atMost => ?_, after.young, fun exact_ before last ends => ?_⟩
      · rw [cons_append, ← after.split]
      · rw [after.counted, length_cons]
        show min (min _ _ + dropped.length) _ = _
        omega
      · refine after.atMost ?_
        rw [load_cons] at atMost
        omega
      · refine after.exact ?_
        rw [load_cons] at exact_
        omega
      · refine after.within ?_
        rw [load_cons] at atMost
        omega
      · cases before with
        | nil =>
          obtain ⟨rfl, rfl⟩ := cons.inj ends
          -- The first record was dropped last, for one of the two reasons.
          have rest_ : rest = (evictFrom (recorder.evictOne front) minimumTs rest).records :=
            after.split
          rw [← rest_, ← exact_]
          rcases or_eq_true_iff.mp evicts with tooMany | tooOld
          · exact .inl (of_decide_eq_true tooMany)
          · exact .inr (of_decide_eq_true tooOld)
        | cons first before =>
          refine after.reason ?_ before last (cons.inj ends).2
          rw [load_cons] at exact_
          omega
    · rename_i stays
      obtain ⟨enough, young⟩ := or_eq_false_iff.mp (eq_false_iff.mpr stays)
      have few := recorder.evictedRecords.isLt
      refine ⟨[], rfl, rfl, rfl, ?_, id, id, fun _ => ?_, fun first found => ?_,
        fun _ before last none_ => ?_⟩
      · show recorder.evictedRecords.val = min (recorder.evictedRecords.val + 0) _
        omega
      · exact Fin.not_lt.mp (of_decide_eq_false enough)
      · rw [← Option.some.inj found]
        exact Fin.not_lt.mp (of_decide_eq_false young)
      · cases before <;> cases none_

section Runs

variable {encodedLength : Record → Option (Word 63)} {maxBytes windowNs : U64}

/-- The books after some calls. The counter of dropped records stops at its end, and the byte
counter never exceeds the sum of the sizes nor the budget. -/
structure Bookkept (maxBytes windowNs : U64) (calls : List (Call Record))
    (recorder : FlightRecorder Record) : Prop where
  sameMax : recorder.maxBytes = maxBytes
  sameWindow : recorder.windowNs = windowNs
  counted : ∃ lost, recorder.records.length + lost = calls.length ∧
    recorder.evictedRecords.val = min lost (2 ^ 64 - 1)
  atMost : recorder.bytes.val ≤ load size recorder.records
  within : recorder.bytes ≤ maxBytes

variable {recorder : FlightRecorder Record}

theorem evicted_observe {call : Call Record}
    (fits : encodedSize encodedLength call.2 ≤ recorder.maxBytes) :
    ∃ dropped, Evicted (recorder.pushed encodedLength call)
      (call.1.saturatingSub recorder.windowNs.val)
      (recorder.records ++ [buffered encodedLength call]) dropped
      (recorder.observe encodedLength call) := by
  unfold FlightRecorder.observe
  rw [if_neg (Fin.not_lt.mpr fits)]
  exact evicted_evictFrom _ _ _

theorem load_snoc (records : List (BufferedRecord Record)) (call : Call Record) :
    load size (records ++ [buffered encodedLength call]) =
      load size records + (encodedSize encodedLength call.2).val := by
  rw [load_append]
  rfl

variable {calls : List (Call Record)}

theorem bytes_pushed_le (encodedLength : Record → Option (Word 63)) (call : Call Record)
    (atMost : recorder.bytes.val ≤ load size recorder.records) :
    (recorder.pushed encodedLength call).bytes.val ≤
      load size (recorder.records ++ [buffered encodedLength call]) := by
  unfold FlightRecorder.pushed
  rw [load_snoc, saturatingAdd_val]
  omega

theorem bytes_pushed {call : Call Record}
    (exact_ : recorder.bytes.val = load size recorder.records)
    (adds : recorder.bytes.val + (encodedSize encodedLength call.2).val < 2 ^ 64) :
    (recorder.pushed encodedLength call).bytes.val =
      load size (recorder.records ++ [buffered encodedLength call]) := by
  unfold FlightRecorder.pushed
  rw [load_snoc, saturatingAdd_val, ← exact_]
  omega

theorem Bookkept.observe (kept : Bookkept maxBytes windowNs calls recorder) (call : Call Record) :
    Bookkept maxBytes windowNs (calls ++ [call]) (recorder.observe encodedLength call) := by
  obtain ⟨lost, all, evicted⟩ := kept.counted
  rcases Fin.lt_or_le recorder.maxBytes (encodedSize encodedLength call.2) with large | fits
  · unfold FlightRecorder.observe
    rw [if_pos large]
    refine ⟨kept.sameMax, kept.sameWindow, ⟨lost + 1, ?_, ?_⟩, kept.atMost, kept.within⟩
    · rw [length_append, length_singleton, ← all, add_assoc]
    · rw [saturatingAdd_val]
      omega
  · have atMost := bytes_pushed_le encodedLength call kept.atMost
    obtain ⟨dropped, after⟩ := evicted_observe fits
    refine ⟨after.maxBytes.trans kept.sameMax, after.windowNs.trans kept.sameWindow,
      ⟨lost + dropped.length, ?_, ?_⟩, after.atMost atMost, kept.sameMax ▸ after.within atMost⟩
    · have lengths := congrArg length after.split
      rw [length_append, length_append, length_singleton] at lengths
      rw [length_append, length_singleton]
      omega
    · rw [after.counted]
      show min (recorder.evictedRecords.val + _) _ = _
      omega

theorem bookkept_run (calls : List (Call Record)) :
    Bookkept maxBytes windowNs calls
      (run (observe encodedLength) { maxBytes := maxBytes, windowNs := windowNs } calls) :=
  run_induction (Bookkept maxBytes windowNs)
    ⟨rfl, rfl, ⟨0, rfl, rfl⟩, le_refl _, Fin.zero_le _⟩ (fun _ call kept => kept.observe call) calls

/-- The addition that a call makes to the byte counter does not overflow. -/
def AddsFit (encodedLength : Record → Option (Word 63)) (maxBytes windowNs : U64)
    (history : List (Call Record)) (call : Call Record) : Prop :=
  encodedSize encodedLength call.2 ≤ maxBytes →
    (run (observe encodedLength) { maxBytes := maxBytes, windowNs := windowNs } history).bytes.val +
      (encodedSize encodedLength call.2).val < 2 ^ 64

theorem bytes_run (calls : List (Call Record))
    (adds : StepsMeet (AddsFit encodedLength maxBytes windowNs) calls) :
    (run (observe encodedLength) { maxBytes := maxBytes, windowNs := windowNs } calls).bytes.val =
      load size (run (observe encodedLength) { maxBytes := maxBytes, windowNs := windowNs }
        calls).records := by
  refine run_induction_of_stepsMeet (fun _ (recorder : FlightRecorder Record) =>
    recorder.bytes.val = load size recorder.records) rfl (fun history call fits exact_ => ?_) calls
    adds
  have same : (run (observe encodedLength) { maxBytes := maxBytes, windowNs := windowNs }
      history).maxBytes = maxBytes := (bookkept_run history).sameMax
  rcases Fin.lt_or_le maxBytes (encodedSize encodedLength call.2) with large | small
  · unfold observe
    rw [if_pos (same.symm ▸ large)]
    exact exact_
  · obtain ⟨dropped, after⟩ := evicted_observe (same.symm ▸ small)
    exact after.exact (bytes_pushed exact_ (fits small))

/-- No addition overflows if the budget is below half the range. -/
theorem addsFit_of_small (room : 2 * maxBytes.val < 2 ^ 64) (calls : List (Call Record)) :
    StepsMeet (AddsFit encodedLength maxBytes windowNs) calls := by
  intro history call _ _ fits
  have within : (run (observe encodedLength) { maxBytes := maxBytes, windowNs := windowNs }
      history).bytes ≤ maxBytes := (bookkept_run history).within
  rw [Fin.le_def] at within fits
  omega

/-- After every sequence of calls in which no counter overflows, the byte counter is the sum of the
sizes of the retained records and at most the budget, and every call is retained or counted as
evicted. The eviction loop ends with its condition false. -/
theorem flight_recorder_books_are_exact (encodedLength : Record → Option (Word 63))
    (maxBytes windowNs : U64) (calls : List (Call Record)) (countable : calls.length < 2 ^ 64)
    (adds : StepsMeet (AddsFit encodedLength maxBytes windowNs) calls) :
    let recorder :=
      run (observe encodedLength) { maxBytes := maxBytes, windowNs := windowNs } calls
    recorder.bytes.val = load size recorder.records ∧ recorder.bytes ≤ maxBytes ∧
      recorder.records.length + recorder.evictedRecords.val = calls.length ∧
      ∀ call, encodedSize encodedLength call.2 ≤ maxBytes →
        let next := recorder.observe encodedLength call
        next.records.length ≤ recorder.records.length + 1 ∧
          ∀ front ∈ next.records.head?,
            next.mustEvict (call.1.saturatingSub windowNs.val) front = false := by
  intro recorder
  have kept : Bookkept maxBytes windowNs calls recorder := bookkept_run calls
  refine ⟨bytes_run calls adds, kept.within, ?_, fun call fits => ?_⟩
  · obtain ⟨lost, all, evicted⟩ := kept.counted
    omega
  · rw [← kept.sameMax] at fits
    obtain ⟨dropped, after⟩ := evicted_observe fits
    have next : Bookkept maxBytes windowNs (calls ++ [call])
        (recorder.observe encodedLength call) := kept.observe call
    refine ⟨?_, fun front found => or_eq_false_iff.mpr ⟨?_, ?_⟩⟩
    · have lengths := congrArg length after.split
      rw [length_append, length_append, length_singleton] at lengths
      omega
    · rw [next.sameMax]
      exact decide_eq_false (Fin.not_lt.mpr next.within)
    · rw [← kept.sameWindow]
      exact decide_eq_false (Fin.not_lt.mpr (after.young front found))

end Runs

/-- A budget of ten bytes and three records of five: the oldest is evicted. -/
theorem flight_recorder_books_are_exact_three :
    let recorder := run (observe fun _ : Unit => some 4) { maxBytes := 10, windowNs := 9 }
      [(1, ()), (2, ()), (3, ())]
    recorder.bytes.val = load size recorder.records ∧
      recorder.records.length + recorder.evictedRecords.val = 3 ∧
      (recorder.records.length, recorder.evictedRecords) = (2, 1) := by
  obtain ⟨bytes, -, counted, -⟩ := flight_recorder_books_are_exact (fun _ : Unit => some 4) 10 9
    [(1, ()), (2, ()), (3, ())] (by decide) (addsFit_of_small (by decide) _)
  exact ⟨bytes, counted, by decide +kernel⟩

end FlightRecorder

end EbpfStudio
