/-
This file is about what the retained records of the flight recorder tell of the past.

A segment says from which time on the recorder has every record. A recorder tells the truth if every
record that it has dropped, though it fits in the budget, is earlier than that time. `Whole` says
this of the retained records alone, `Moved` what one record does to them, and `LeavesWhole` when the
recorder stays whole.
-/

import EbpfStudio.Agent.FlightRecorder
import EbpfStudio.Kernel.Capture
import EbpfStudio.Protocol.Pipeline

namespace EbpfStudio

open Packing Run List

/-! ### The records of the agent -/

def storageEventTimestamp : StorageEvent → U64
  | .blockInsert value => value.tsNs
  | .blockIssue value => value.tsNs
  | .blockComplete value => value.tsNs
  | .observedBlockCompletion value => value.completion.tsNs
  | .schedulerIoWait value => value.tsNs
  | .fileIo value => value.endTsNs
  | .pipeline value => value.endOrStart
  | .requestOrigin value => value.tsNs
  | .node value => value.endOrStart
  | .edge _ => 0

inductive FedRecord where
  | event (sequence : U64) (event : StorageEvent)
  | aggregate (snapshot : AggregateSnapshot)

def FedRecord.timestamp : FedRecord → U64
  | .event _ observed => storageEventTimestamp observed
  | .aggregate snapshot => snapshot.endTsNs

namespace FlightRecorder

def fed (record : FedRecord) : Call FedRecord := (record.timestamp, record)

section Calls

variable {Record : Type} (encodedLength : Record → Option (Word 63)) (maxBytes windowNs : U64)

def accepted (calls : List (Call Record)) : List (BufferedRecord Record) :=
  (calls.filter (encodedSize encodedLength ·.2 ≤ maxBytes)).map (buffered encodedLength)

def after (calls : List (Call Record)) : FlightRecorder Record :=
  run (observe encodedLength) { maxBytes := maxBytes, windowNs := windowNs } calls

/-- No retained record is older than the window, seen from any observed time, and every record
within the budget that is not retained is earlier than the start that is told. -/
structure Truthful (calls : List (Call Record)) : Prop where
  recent : ∀ record ∈ (after encodedLength maxBytes windowNs calls).records, ∀ call ∈ calls,
    call.1.val ≤ record.tsNs.val + windowNs.val
  retained : ∃ dropped, accepted encodedLength maxBytes calls =
      dropped ++ (after encodedLength maxBytes windowNs calls).records ∧
    ∀ requested, ∀ record ∈ dropped,
      record.tsNs < (after encodedLength maxBytes windowNs calls).retainedStart requested

/-- A record that exceeds the budget is within the window of every retained record, and the
budget does not end between two records of one time that is within the window. -/
structure LeavesWhole (history : List (Call Record)) (call : Call Record) : Prop where
  large : maxBytes < encodedSize encodedLength call.2 →
    ∀ record ∈ (after encodedLength maxBytes windowNs history).records,
      call.1.val ≤ record.tsNs.val + windowNs.val
  apart : encodedSize encodedLength call.2 ≤ maxBytes → ∀ before first second rest,
    (after encodedLength maxBytes windowNs history).records ++ [buffered encodedLength call] =
      before ++ first :: second :: rest →
    first.tsNs = second.tsNs → call.1.val ≤ second.tsNs.val + windowNs.val →
    load size (second :: rest) ≤ maxBytes.val →
    load size (first :: second :: rest) ≤ maxBytes.val

def TimesOrdered (calls : List (Call Record)) : Prop :=
  calls.Pairwise fun first second => first.1 ≤ second.1

end Calls

/-! ### The start that is told -/

section Start

variable {Record : Type} {recorder : FlightRecorder Record}

theorem front_le_retainedStart {front : BufferedRecord Record}
    (first : front ∈ recorder.records.head?) (requested : U64) :
    front.tsNs ≤ recorder.retainedStart requested := by
  obtain ⟨rest, split⟩ := head?_eq_some_iff.mp first
  unfold retainedStart
  rw [split, find?_cons]
  split
  · exact le_refl _
  · rename_i earlier
    have before : front.tsNs < requested := Fin.not_le.mp (of_decide_eq_false earlier)
    cases found : rest.find? (requested ≤ ·.tsNs) with
    | none => exact before.le
    | some record =>
      have reached := find?_some found
      exact before.le.trans (of_decide_eq_true reached)

theorem retainedStart_zero {front : BufferedRecord Record}
    (first : front ∈ recorder.records.head?) : recorder.retainedStart 0 = front.tsNs := by
  obtain ⟨rest, split⟩ := head?_eq_some_iff.mp first
  unfold retainedStart
  rw [split, find?_cons]
  split
  · rfl
  · rename_i never
    exact absurd (Fin.zero_le front.tsNs) (of_decide_eq_false never)

end Start

/-! ### Records in the order of time -/

section Ordered

variable {Record : Type} {encodedLength : Record → Option (Word 63)} {maxBytes windowNs : U64}
variable {history : List (Call Record)} {call : Call Record}

theorem accepted_snoc_of_fits (fits : encodedSize encodedLength call.2 ≤ maxBytes) :
    accepted encodedLength maxBytes (history ++ [call]) =
      accepted encodedLength maxBytes history ++ [buffered encodedLength call] := by
  have keeps : [call].filter (encodedSize encodedLength ·.2 ≤ maxBytes) = [call] := by
    simp [fits]
  unfold accepted
  rw [filter_append, keeps, map_append]
  rfl

theorem accepted_snoc_of_large (large : maxBytes < encodedSize encodedLength call.2) :
    accepted encodedLength maxBytes (history ++ [call]) =
      accepted encodedLength maxBytes history := by
  have skips : [call].filter (encodedSize encodedLength ·.2 ≤ maxBytes) = [] := by
    simp [large]
  unfold accepted
  rw [filter_append, skips, append_nil]

theorem sorted_accepted (encodedLength : Record → Option (Word 63)) (maxBytes : U64)
    (ordered : TimesOrdered history) :
    (accepted encodedLength maxBytes history).Pairwise
      fun first second => first.tsNs ≤ second.tsNs :=
  (ordered.sublist filter_sublist).map _ fun _ _ earlier => earlier

theorem after_snoc (history : List (Call Record)) (call : Call Record) :
    after encodedLength maxBytes windowNs (history ++ [call]) =
      (after encodedLength maxBytes windowNs history).observe encodedLength call :=
  run_snoc _ _ _ _

theorem bookkept_after (history : List (Call Record)) :
    Bookkept maxBytes windowNs history (after encodedLength maxBytes windowNs history) :=
  bookkept_run history

theorem earlier_of_last {dropped rest : List (BufferedRecord Record)}
    {front : BufferedRecord Record}
    (sorted : (dropped ++ front :: rest).Pairwise fun first second => first.tsNs ≤ second.tsNs)
    (strict : ∀ before last, dropped = before ++ [last] → last.tsNs < front.tsNs) :
    ∀ record ∈ dropped, record.tsNs < front.tsNs := by
  intro record member
  rcases eq_nil_or_concat dropped with rfl | ⟨before, last, rfl⟩
  · cases member
  · rw [concat_eq_append] at sorted member strict
    have less := strict before last rfl
    rcases mem_append.mp member with old | isLast
    · obtain ⟨sortedDropped, -, -⟩ := pairwise_append.mp sorted
      obtain ⟨-, -, across⟩ := pairwise_append.mp sortedDropped
      exact (across record old last (mem_singleton_self last)).trans_lt less
    · rw [mem_singleton.mp isLast]
      exact less

structure Whole (encodedLength : Record → Option (Word 63)) (maxBytes windowNs : U64)
    (calls : List (Call Record)) : Prop where
  recent : ∀ record ∈ (after encodedLength maxBytes windowNs calls).records, ∀ call ∈ calls,
    call.1.val ≤ record.tsNs.val + windowNs.val
  retained : ∃ dropped, accepted encodedLength maxBytes calls =
      dropped ++ (after encodedLength maxBytes windowNs calls).records ∧
    ∀ record ∈ dropped, ∃ front ∈ (after encodedLength maxBytes windowNs calls).records.head?,
      record.tsNs < front.tsNs

theorem truthful_iff_whole :
    Truthful encodedLength maxBytes windowNs history ↔
      Whole encodedLength maxBytes windowNs history := by
  constructor
  · rintro ⟨recent, dropped, split, earlier⟩
    refine ⟨recent, dropped, split, fun record member => ?_⟩
    have less := earlier 0 record member
    cases first : (after encodedLength maxBytes windowNs history).records.head? with
    | none =>
      unfold retainedStart at less
      rw [head?_eq_none_iff.mp first] at less
      exact absurd less (Fin.not_lt_zero _)
    | some front =>
      rw [retainedStart_zero first] at less
      exact ⟨front, rfl, less⟩
  · rintro ⟨recent, dropped, split, earlier⟩
    refine ⟨recent, dropped, split, fun requested record member => ?_⟩
    obtain ⟨front, first, less⟩ := earlier record member
    exact less.trans_le (front_le_retainedStart first requested)

theorem whole_nil : Whole encodedLength maxBytes windowNs ([] : List (Call Record)) :=
  ⟨fun _ member => (nomatch member), [], rfl, fun _ member => (nomatch member)⟩

/-! ### One record more -/

theorem Whole.snoc_of_large (whole : Whole encodedLength maxBytes windowNs history)
    (large : maxBytes < encodedSize encodedLength call.2) :
    Whole encodedLength maxBytes windowNs (history ++ [call]) ↔
      ∀ record ∈ (after encodedLength maxBytes windowNs history).records,
        call.1.val ≤ record.tsNs.val + windowNs.val := by
  have same : (after encodedLength maxBytes windowNs (history ++ [call])).records =
      (after encodedLength maxBytes windowNs history).records := by
    rw [after_snoc]
    unfold observe
    rw [if_pos ((bookkept_after history).sameMax.trans_lt large)]
  constructor
  · intro next record member
    exact next.recent record (same ▸ member) call (by simp)
  · intro inWindow
    refine ⟨fun record member other fedBefore => ?_, ?_⟩
    · rw [same] at member
      rcases mem_append.mp fedBefore with earlier | last
      · exact whole.recent record member other earlier
      · rw [mem_singleton.mp last]
        exact inWindow record member
    · rw [same, accepted_snoc_of_large large]
      exact whole.retained

structure Moved (encodedLength : Record → Option (Word 63)) (maxBytes windowNs : U64)
    (history : List (Call Record)) (call : Call Record)
    (gone : List (BufferedRecord Record)) (front : BufferedRecord Record)
    (rest : List (BufferedRecord Record)) : Prop where
  left : (after encodedLength maxBytes windowNs (history ++ [call])).records = front :: rest
  split : (after encodedLength maxBytes windowNs history).records ++
    [buffered encodedLength call] = gone ++ front :: rest
  fits : load size (front :: rest) ≤ maxBytes.val
  young : call.1.val ≤ front.tsNs.val + windowNs.val
  reason : ∀ before last, gone = before ++ [last] →
    maxBytes.val < load size (last :: front :: rest) ∨
      last.tsNs.val + windowNs.val < call.1.val

theorem exists_moved (room : 2 * maxBytes.val < 2 ^ 64)
    (fits : encodedSize encodedLength call.2 ≤ maxBytes) :
    ∃ gone front rest, Moved encodedLength maxBytes windowNs history call gone front rest := by
  have kept : Bookkept maxBytes windowNs history (after encodedLength maxBytes windowNs history) :=
    bookkept_after history
  have next : Bookkept maxBytes windowNs (history ++ [call])
    (after encodedLength maxBytes windowNs (history ++ [call])) := bookkept_after _
  obtain ⟨gone, evicted⟩ := evicted_observe (kept.sameMax.symm ▸ fits)
  have reason := evicted.reason (bytes_pushed (bytes_run history (addsFit_of_small room _))
    (addsFit_of_small room (history ++ [call]) history call [] rfl fits))
  rw [← after_snoc] at evicted reason
  have minimum : (call.1.saturatingSub
      (after encodedLength maxBytes windowNs history).windowNs.val).val =
        call.1.val - windowNs.val := by
    rw [kept.sameWindow, Word.saturatingSub_val]
  have budget : (pushed encodedLength (after encodedLength maxBytes windowNs history) call).maxBytes
      = maxBytes := kept.sameMax
  cases left : (after encodedLength maxBytes windowNs (history ++ [call])).records with
  | nil =>
    have all := evicted.split
    rw [left, append_nil] at all
    rcases reason _ _ all.symm with tooLarge | tooOld
    · rw [left, budget, load_cons] at tooLarge
      exact absurd tooLarge (not_lt.mpr fits)
    · have less : call.1.val < call.1.val - windowNs.val := minimum ▸ tooOld
      exact absurd less (Nat.not_lt.mpr (Nat.sub_le _ _))
  | cons front rest =>
    refine ⟨gone, front, rest, left, left ▸ evicted.split, ?_, ?_, fun before last ends => ?_⟩
    · have books : (after encodedLength maxBytes windowNs (history ++ [call])).bytes.val = _ :=
        bytes_run _ (addsFit_of_small room _)
      rw [← left]
      exact books.symm.trans_le next.within
    · have reached : call.1.val - windowNs.val ≤ front.tsNs.val :=
        minimum ▸ evicted.young front (left ▸ rfl)
      exact Nat.sub_le_iff_le_add.mp reached
    · rcases reason before last ends with tooLarge | tooOld
      · rw [left, budget] at tooLarge
        exact .inl tooLarge
      · have less : last.tsNs.val < call.1.val - windowNs.val := minimum ▸ tooOld
        exact Or.inr (Nat.add_lt_of_lt_sub less)

section Fits

variable {gone rest : List (BufferedRecord Record)} {front : BufferedRecord Record}
  (moved : Moved encodedLength maxBytes windowNs history call gone front rest)
  (fits : encodedSize encodedLength call.2 ≤ maxBytes)

include moved fits

theorem Moved.accepted_eq {dropped : List (BufferedRecord Record)}
    (split : accepted encodedLength maxBytes history =
      dropped ++ (after encodedLength maxBytes windowNs history).records) :
    accepted encodedLength maxBytes (history ++ [call]) = (dropped ++ gone) ++ front :: rest := by
  rw [accepted_snoc_of_fits fits, split, append_assoc, moved.split, append_assoc]

variable (whole : Whole encodedLength maxBytes windowNs history)
  (ordered : TimesOrdered (history ++ [call]))

include whole ordered

theorem Moved.sorted :
    (gone ++ front :: rest).Pairwise fun first second => first.tsNs ≤ second.tsNs := by
  obtain ⟨dropped, split, -⟩ := whole.retained
  have sorted := sorted_accepted encodedLength maxBytes ordered
  rw [moved.accepted_eq fits split, append_assoc] at sorted
  exact sorted.sublist (sublist_append_right _ _)

theorem Moved.whole_next
    (apart : ∀ before last, gone = before ++ [last] → last.tsNs = front.tsNs →
      load size (last :: front :: rest) ≤ maxBytes.val) :
    Whole encodedLength maxBytes windowNs (history ++ [call]) := by
  obtain ⟨dropped, split, earlier⟩ := whole.retained
  have sorted := moved.sorted fits whole ordered
  obtain ⟨-, sortedLeft, across⟩ := pairwise_append.mp sorted
  refine ⟨fun record member other fedBefore => ?_, dropped ++ gone, ?_, fun record member => ?_⟩
  · have notLater : other.1 ≤ call.1 := by
      rcases mem_append.mp fedBefore with old | last
      · exact (pairwise_append.mp ordered).2.2 other old call (mem_singleton_self call)
      · rw [mem_singleton.mp last]
    have notEarlier : front.tsNs ≤ record.tsNs := by
      rw [moved.left] at member
      rcases mem_cons.mp member with rfl | later
      · exact le_refl _
      · exact (pairwise_cons.mp sortedLeft).1 record later
    calc other.1.val ≤ call.1.val := notLater
      _ ≤ front.tsNs.val + windowNs.val := moved.young
      _ ≤ record.tsNs.val + windowNs.val := Nat.add_le_add_right notEarlier _
  · rw [moved.left]
    exact moved.accepted_eq fits split
  · refine ⟨front, by rw [moved.left]; rfl, ?_⟩
    have goneEarlier : ∀ record ∈ gone, record.tsNs < front.tsNs := by
      refine earlier_of_last sorted fun before last ends => lt_of_le_of_ne ?_ fun same => ?_
      · exact across last (ends ▸ mem_append_right _ (mem_singleton_self last)) front
          mem_cons_self
      · rcases moved.reason before last ends with tooLarge | tooOld
        · exact absurd tooLarge (not_lt.mpr (apart before last ends same))
        · have young := moved.young
          rw [same] at tooOld
          exact absurd tooOld (not_lt.mpr young)
    rcases mem_append.mp member with old | new
    · obtain ⟨oldFront, first, less⟩ := earlier record old
      obtain ⟨others, starts⟩ := head?_eq_some_iff.mp first
      -- The former first record is dropped now, or it is still the first one.
      have whole_ := moved.split
      rw [starts, cons_append] at whole_
      cases gone with
      | nil => exact less.trans_eq (congrArg _ (cons.inj whole_).1)
      | cons head tail =>
        refine less.trans (goneEarlier oldFront ?_)
        rw [(cons.inj whole_).1]
        exact mem_cons_self
    · exact goneEarlier record new

theorem Moved.apart (next : Whole encodedLength maxBytes windowNs (history ++ [call]))
    {before later : List (BufferedRecord Record)} {first second : BufferedRecord Record}
    (place : gone ++ front :: rest = before ++ first :: second :: later)
    (same : first.tsNs = second.tsNs) (young : call.1.val ≤ second.tsNs.val + windowNs.val)
    (enough : load size (second :: later) ≤ maxBytes.val) :
    load size (first :: second :: later) ≤ maxBytes.val := by
  have goneEarlier : ∀ record ∈ gone, record.tsNs < front.tsNs := by
    obtain ⟨dropped, split, -⟩ := whole.retained
    obtain ⟨allDropped, nextSplit, earlier⟩ := next.retained
    rw [moved.accepted_eq fits split, moved.left] at nextSplit
    intro record member
    have among : record ∈ allDropped := by
      rw [← append_cancel_right nextSplit]
      exact mem_append_right _ member
    obtain ⟨nextFront, isFirst, less⟩ := earlier record among
    rw [moved.left] at isFirst
    exact (Option.some.inj isFirst) ▸ less
  have sorted := moved.sorted fits whole ordered
  have kept := moved.fits
  rcases append_eq_append_iff.mp place with ⟨middle, prefix_, suffix⟩ |
    ⟨middle, prefix_, suffix⟩
  · -- Both records stay.
    rw [suffix, load_append] at kept
    exact (Nat.le_add_left _ _).trans kept
  · rcases middle with _ | ⟨head, _ | ⟨next_, tail⟩⟩
    · rw [nil_append] at suffix
      exact suffix ▸ kept
    · -- The budget ends between them.
      obtain ⟨rfl, starts⟩ := cons.inj suffix
      have less := goneEarlier first (by rw [prefix_]; simp)
      rw [← (cons.inj starts).1, same] at less
      exact absurd less (lt_irrefl _)
    · -- Both are dropped, and so is a record behind them that is neither too old nor too large.
      obtain ⟨rfl, starts⟩ := cons.inj suffix
      obtain rfl := (cons.inj starts).1
      have behind : later = tail ++ front :: rest := (cons.inj starts).2
      obtain ⟨others, last, ends⟩ : ∃ others last, second :: tail = others ++ [last] :=
        ⟨_, _, (dropLast_append_getLast (cons_ne_nil second tail)).symm⟩
      have goneEnds : gone = (before ++ first :: others) ++ [last] := by
        rw [prefix_, ends, append_assoc, cons_append]
      have whole_ : second :: later = others ++ last :: front :: rest := by
        rw [behind, ← cons_append, ends, append_assoc, singleton_append]
      rcases moved.reason _ last goneEnds with tooLarge | tooOld
      · rw [whole_, load_append] at enough
        exact absurd ((Nat.le_add_left _ _).trans enough) (Nat.not_le.mpr tooLarge)
      · have notEarlier : second.tsNs ≤ last.tsNs := by
          have isLast : last ∈ second :: tail := ends ▸ mem_append_right _ (by simp)
          rcases mem_cons.mp isLast with rfl | after_
          · exact le_refl _
          · rw [place] at sorted
            have sortedFrom := (pairwise_append.mp sorted).2.1
            refine (pairwise_cons.mp (pairwise_cons.mp sortedFrom).2).1 last ?_
            rw [behind]
            exact mem_append_left _ after_
        have reached := young.trans (Nat.add_le_add_right notEarlier windowNs.val)
        exact absurd tooOld (Nat.not_lt.mpr reached)

end Fits

theorem whole_snoc_iff (room : 2 * maxBytes.val < 2 ^ 64)
    (ordered : TimesOrdered (history ++ [call]))
    (whole : Whole encodedLength maxBytes windowNs history) :
    Whole encodedLength maxBytes windowNs (history ++ [call]) ↔
      LeavesWhole encodedLength maxBytes windowNs history call := by
  rcases Fin.lt_or_le maxBytes (encodedSize encodedLength call.2) with large | fits
  · rw [whole.snoc_of_large large]
    exact ⟨fun inWindow => ⟨fun _ => inWindow, fun fits => absurd large (Fin.not_lt.mpr fits)⟩,
      fun leaves => leaves.large large⟩
  · obtain ⟨gone, front, rest, moved⟩ : ∃ gone front rest,
        Moved encodedLength maxBytes windowNs history call gone front rest :=
      exists_moved room fits
    constructor
    · intro next
      refine ⟨fun large => absurd large (Fin.not_lt.mpr fits),
        fun _ before first second later place => ?_⟩
      exact moved.apart fits whole ordered next (moved.split.symm.trans place)
    · intro leaves
      refine moved.whole_next fits whole ordered fun before last ends same => ?_
      refine leaves.apart fits before last front rest ?_ same moved.young moved.fits
      rw [moved.split, ends, append_assoc, singleton_append]

end Ordered

/-! ### The records as the agent feeds them -/

/-- If the agent feeds its records in the order of the times it gives to them, the recorder
tells the truth at every moment exactly when no record that exceeds the budget moves the window
past a retained one, and the budget never ends between two records of one time. -/
theorem pre_window_is_truthful_iff (encodedLength : FedRecord → Option (Word 63))
    (maxBytes windowNs : U64) (room : 2 * maxBytes.val < 2 ^ 64) (records : List FedRecord)
    (ordered : TimesOrdered (records.map fed)) :
    (∀ before rest, records.map fed = before ++ rest →
      Truthful encodedLength maxBytes windowNs before) ↔
      StepsMeet (LeavesWhole encodedLength maxBytes windowNs) (records.map fed) := by
  generalize records.map fed = calls at ordered
  constructor
  · intro truthful history call rest place
    have now : Whole encodedLength maxBytes windowNs history :=
      truthful_iff_whole.mp (truthful history (call :: rest) place)
    have next : Whole encodedLength maxBytes windowNs (history ++ [call]) :=
      truthful_iff_whole.mp (truthful (history ++ [call]) rest (by rw [place, append_cons]))
    rw [place, append_cons] at ordered
    exact (whole_snoc_iff room (pairwise_append.mp ordered).1 now).mp next
  · rintro meets before rest rfl
    rw [truthful_iff_whole]
    have earlier := (pairwise_append.mp ordered).1
    have meetsBefore := meets.of_append
    clear ordered meets
    induction before using reverseRecOn with
    | nil => exact whole_nil
    | append_singleton history call hypothesis =>
      have whole := hypothesis (pairwise_append.mp earlier).1 meetsBefore.of_append
      exact (whole_snoc_iff room earlier whole).mpr meetsBefore.last

/-- The records of one request, in the recorder of the agent. -/
theorem pre_window_of_one_request :
    let records : List FedRecord :=
      [.event 1 (.blockIssue (readIssue 1000 7)), .event 2 (.blockComplete (readComplete 2000 7))]
    ∀ before rest, records.map fed = before ++ rest →
      Truthful (fun _ => some 99) (32 * 1024 * 1024) 5_000_000_000 before := by
  intro records
  refine (pre_window_is_truthful_iff (fun _ => some 99) (32 * 1024 * 1024) 5_000_000_000
    (by decide) records ?_).mpr ?_
  · unfold TimesOrdered
    decide +kernel
  · have small : ∀ history call, load size
        ((after (fun _ => some 99) (32 * 1024 * 1024) 5_000_000_000 history).records ++
          [buffered (fun _ => some 99) call]) ≤ 200 →
        LeavesWhole (fun _ => some 99) (32 * 1024 * 1024) 5_000_000_000 history
          (call : Call FedRecord) := by
      have fits : (100 : U64) ≤ 32 * 1024 * 1024 := by decide
      refine fun history call few => ⟨fun large => absurd large (Fin.not_lt.mpr fits), ?_⟩
      intro _ before first second rest place _ _ _
      rw [place, load_append] at few
      exact ((Nat.le_add_left _ _).trans few).trans (by decide)
    refine StepsMeet.snoc (StepsMeet.snoc (stepsMeet_nil _) (small [] _ ?_)) (small [_] _ ?_)
    · decide +kernel
    · decide +kernel

/-- In the balanced mode the issue of a slow request is reported when the request completes,
after the records of a faster one. It is retained although it is almost six seconds older than
the newest record, for it does not stand in front. -/
theorem stale_record_is_retained :
    let records : List FedRecord :=
      [.event 1 (.blockIssue (readIssue 9_900_000_000 1)),
        .event 2 (.blockComplete (readComplete 10_000_000_000 1)),
        .event 3 (.blockIssue (readIssue 4_100_000_000 2)),
        .event 4 (.blockComplete (readComplete 10_000_000_001 2))]
    ¬ Truthful (fun _ => some 99) (32 * 1024 * 1024) 5_000_000_000 (records.map fed) := by
  intro records truthful
  have stale : ∃ record ∈ (after (fun _ => some 99) (32 * 1024 * 1024) 5_000_000_000
      (records.map fed)).records, ∃ call ∈ records.map fed,
        record.tsNs.val + (5_000_000_000 : U64).val < call.1.val := by
    decide +kernel
  obtain ⟨record, retained, call, observed, older⟩ := stale
  exact absurd (truthful.recent record retained call observed) (not_le.mpr older)

end FlightRecorder

end EbpfStudio
