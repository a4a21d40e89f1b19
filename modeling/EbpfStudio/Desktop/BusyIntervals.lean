/-
This file proves what the unions of intervals are, and that the bandwidth of a range accounts for
all of its time.

One insertion keeps the intervals apart and adds exactly what it inserts, so the union covers what
was inserted, and separated intervals that cover the same instants are the same intervals. Cut to a
range they stay apart, and their lengths add up to at most the length of the range.
-/

import EbpfStudio.Desktop.HostBandwidth

namespace EbpfStudio

open IntervalSet Run List

namespace IntervalUnion

def ofIntervals (intervals : List (U64 × U64)) : IntervalUnion :=
  run (fun union interval => union.insert interval.1 interval.2) empty intervals

theorem covers_ofIntervals (intervals : List (U64 × U64)) (instant : U64) :
    (ofIntervals intervals).Covers instant ↔ IntervalSet.Covers intervals instant := by
  refine run_induction (fun intervals (union : IntervalUnion) =>
    union.Covers instant ↔ IntervalSet.Covers intervals instant) Iff.rfl
    (fun history interval covers => ?_) intervals
  rw [covers_insert, covers, covers_append, covers_cons]
  simp [IntervalSet.Covers]

theorem ofIntervals_congr {intervals others : List (U64 × U64)}
    (same : ∀ instant, IntervalSet.Covers intervals instant ↔ IntervalSet.Covers others instant) :
    ofIntervals intervals = ofIntervals others := by
  have entries : (ofIntervals intervals).entries = (ofIntervals others).entries := by
    refine (ofIntervals intervals).separated.ext (ofIntervals others).separated fun instant => ?_
    exact (covers_ofIntervals intervals instant).trans
      ((same instant).trans (covers_ofIntervals others instant).symm)
  cases first : ofIntervals intervals
  cases second : ofIntervals others
  rw [first, second] at entries
  cases entries
  rfl

section Clipped

variable (union : IntervalUnion) (start finish : U64)

def firstStart : U64 :=
  ((union.entries.takeWhile fun entry => entry.1 ≤ start).getLast?).elim start (·.1)

variable {union start}

theorem firstStart_le {entry : U64 × U64} (member : entry ∈ union.entries)
    (reaches : start < entry.2) : union.firstStart start ≤ entry.1 := by
  have parts := @takeWhile_append_dropWhile _ (fun entry : U64 × U64 => entry.1 ≤ start)
    union.entries
  have separated := union.separated
  unfold firstStart
  rw [← parts] at member separated
  rcases mem_append.mp member with before | beyond
  · obtain ⟨others, last, split⟩ := (eq_nil_or_concat (union.entries.takeWhile
      fun entry => entry.1 ≤ start)).resolve_left (ne_nil_of_mem before)
    rw [concat_eq_append] at split
    rw [split] at before separated ⊢
    rw [getLast?_concat, Option.elim_some]
    rcases mem_append.mp before with earlier | own
    · have apart := (pairwise_append.mp (separated.sublist
        (sublist_append_left _ _)).apart).2.2 entry earlier last mem_cons_self
      have begins : last.1 ≤ start := le_of_mem_takeWhile
        (split ▸ mem_concat_self)
      exact absurd (reaches.trans (apart.trans_le begins)) (lt_irrefl _)
    · rw [mem_singleton.mp own]
  · have late := lt_of_mem_dropWhile union.separated beyond
    cases last : (union.entries.takeWhile fun entry => entry.1 ≤ start).getLast? with
    | none => exact late.le
    | some entry => exact (le_of_mem_takeWhile (mem_of_getLast? last)).trans late.le

theorem clipped_eq : union.clipped start finish =
    (union.entries.filter fun entry => union.firstStart start ≤ entry.1 &&
      entry.1 < max finish (union.firstStart start)).filterMap (partBetween start finish) := rfl

theorem covers_clipped {instant : U64} :
    IntervalSet.Covers (union.clipped start finish) instant ↔
      union.Covers instant ∧ start ≤ instant ∧ instant < finish := by
  rw [clipped_eq, covers_parts]
  refine and_congr_left fun inside => ⟨?_, ?_⟩
  · rintro ⟨entry, member, covers⟩
    exact ⟨entry, mem_of_mem_filter member, covers⟩
  · rintro ⟨entry, member, begins, ends⟩
    refine ⟨entry, mem_filter.mpr ⟨member, Bool.and_eq_true_iff.mpr ⟨?_, ?_⟩⟩, begins, ends⟩
    · exact decide_eq_true (firstStart_le member (inside.1.trans_lt ends))
    · exact decide_eq_true (lt_max_of_lt_left (begins.trans_lt inside.2))

theorem separated_clipped : Separated (union.clipped start finish) := by
  rw [clipped_eq]
  exact (union.separated.sublist filter_sublist).parts

end Clipped

theorem sum_lengths_le {intervals : List (U64 × U64)} {start finish : U64}
    (separated : Separated intervals)
    (inside : ∀ interval ∈ intervals, start ≤ interval.1 ∧ interval.2 ≤ finish) :
    (intervals.map fun interval => interval.2.val - interval.1.val).sum ≤
      finish.val - start.val := by
  induction intervals generalizing start with
  | nil => exact Nat.zero_le _
  | cons interval rest hypothesis =>
    obtain ⟨begins, ends⟩ := inside interval mem_cons_self
    have proper := separated.proper interval mem_cons_self
    have others := @hypothesis interval.2
      (separated.sublist (sublist_cons_self _ _)) fun other member =>
        ⟨(rel_of_pairwise_cons separated.apart member).le,
          (inside other (mem_cons_of_mem _ member)).2⟩
    rw [map_cons, sum_cons]
    rw [Fin.le_def] at begins ends
    rw [Fin.lt_def] at proper
    omega

theorem duration_le (union : IntervalUnion) (start finish : U64) :
    union.duration start finish ≤ finish.val - start.val := by
  unfold duration
  split
  · exact Nat.zero_le _
  · refine sum_lengths_le (separated_clipped finish) fun part member => ?_
    rw [clipped_eq] at member
    obtain ⟨entry, -, made⟩ := mem_filterMap.mp member
    rw [(partBetween_eq_some.mp made).1]
    exact ⟨le_max_right _ _, min_le_right _ _⟩

end IntervalUnion

def ActivityTimeline.exact (activity : ActivityTimeline) : Bool :=
  activity.verifiedComplete && activity.missingIssue = 0 && activity.limitation.isNone

structure HostBandwidth where
  estimated : Bool
  startNs : U64
  endNs : U64
  durationNs : U64
  observedBusyNs : Nat
  busyNs : Option Nat
  idleNs : Option Nat

def combinedActivity (activity : ActivityTimeline) (range : U64 × U64) (devices : List Device) :
    IntervalUnion :=
  devices.foldl (fun combined device => (activity.devices.lookup device).elim combined
    fun union => (union.clipped range.1 range.2).foldl
      (fun combined part => combined.insert part.1 part.2) combined) .empty

def calculate (activity : ActivityTimeline) (range : U64 × U64) (devices : List Device) :
    HostBandwidth :=
  let durationNs := range.2.saturatingSub range.1.val
  let combined := if 0 < durationNs then combinedActivity activity range devices else .empty
  let observedBusyNs := combined.duration range.1 range.2
  let estimated := activity.reconstructedFor devices
  let busyNs := if activity.exact || estimated then some observedBusyNs else none
  { estimated := estimated
    startNs := range.1
    endNs := range.2
    durationNs := durationNs
    observedBusyNs := observedBusyNs
    busyNs := busyNs
    idleNs := busyNs.map (durationNs.val - ·) }

/-- After every sequence of insertions the intervals are in order, not empty and apart from each
other. They cover what was inserted, in whatever order that was, and their parts in a range cover
what they cover there. -/
theorem interval_union_is_canonical (intervals : List (U64 × U64)) :
    Separated (IntervalUnion.ofIntervals intervals).entries ∧
      (∀ instant, (IntervalUnion.ofIntervals intervals).Covers instant ↔
        Covers intervals instant) ∧
      (∀ others, intervals.Perm others →
        IntervalUnion.ofIntervals intervals = IntervalUnion.ofIntervals others) ∧
      (∀ start finish instant,
        Covers ((IntervalUnion.ofIntervals intervals).clipped start finish) instant ↔
          (IntervalUnion.ofIntervals intervals).Covers instant ∧
            start ≤ instant ∧ instant < finish) ∧
      ∀ activity range devices, let bandwidth := calculate activity range devices
        bandwidth.observedBusyNs ≤ bandwidth.durationNs.val ∧
          ∀ busy, bandwidth.busyNs = some busy → ∃ idle, bandwidth.idleNs = some idle ∧
            busy + idle = bandwidth.durationNs.val := by
  refine ⟨IntervalUnion.separated _, IntervalUnion.covers_ofIntervals intervals,
    fun others order => IntervalUnion.ofIntervals_congr fun instant => ?_,
    fun start finish instant => IntervalUnion.covers_clipped finish,
    fun activity range devices => ?_⟩
  · unfold Covers
    simp only [order.mem_iff]
  · intro bandwidth
    have short : bandwidth.observedBusyNs ≤ bandwidth.durationNs.val :=
      IntervalUnion.duration_le _ _ _
    refine ⟨short, fun busy known => ⟨bandwidth.durationNs.val - busy, ?_, ?_⟩⟩
    · show bandwidth.busyNs.map _ = _
      rw [known]
      rfl
    · have same : busy = bandwidth.observedBusyNs := by
        have known : (if activity.exact || activity.reconstructedFor devices then
          some bandwidth.observedBusyNs else none) = some busy := known
        split at known
        · exact (Option.some.inj known).symm
        · cases known
      rw [same]
      exact Nat.add_sub_cancel' short

end EbpfStudio
