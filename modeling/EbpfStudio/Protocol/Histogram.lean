/-
This file models histograms and what their percentiles mean.

A histogram keeps only how many values fell between its boundaries. The percentile of a histogram is
the bucket that the count reaches at the nearest rank. If the counts are those of some values
(`Recorded`), this bucket holds the value with this rank among them.
-/

import EbpfStudio.Protocol.Statistics
import EbpfStudio.Library.Tally

namespace EbpfStudio

open Tally List Word

inductive HistogramError where
  | emptyBoundaries | nonIncreasingBoundaries
  deriving DecidableEq

def HistogramError.message : HistogramError → String
  | emptyBoundaries => "histogram boundaries must not be empty"
  | nonIncreasingBoundaries => "histogram boundaries must be strictly increasing"

namespace Histogram

def new (boundaries : List U64) : Except HistogramError Histogram :=
  if boundaries.isEmpty then .error .emptyBoundaries
  else if (boundaries.zip boundaries.tail).any fun window => window.2 ≤ window.1 then
    .error .nonIncreasingBoundaries
  else .ok { boundaries := boundaries, counts := List.replicate (boundaries.length + 1) 0 }

def totalCount (histogram : Histogram) : U64 :=
  Word.ofNat 64 (histogram.counts.map Fin.val).sum

def reach (rank : Nat) : U64 → Nat → List U64 → Option Nat
  | _, _, [] => none
  | cumulative, index, count :: rest =>
    let cumulative := cumulative.saturatingAdd count.val
    if cumulative.val < rank then reach rank cumulative (index + 1) rest else some index

def percentileRange (histogram : Histogram) (percentile : U8) : Option (U64 × Option U64) :=
  let total := histogram.totalCount
  if total = 0 || percentile = 0 || 100 < percentile then none
  else
    let rank := ((total.saturatingMul percentile.val).saturatingAdd 99).val / 100
    (reach rank 0 0 histogram.counts).map fun index =>
      (if index = 0 then 0 else (histogram.boundaries.getD (index - 1) 0).saturatingAdd 1,
        histogram.boundaries[index]?)

def bucket (boundaries : List U64) (value : U64) : Nat :=
  (boundaries.takeWhile fun boundary => boundary < value).length

theorem counts_record (histogram : Histogram) (value : U64) :
    (histogram.record value).counts = histogram.counts.modify
      (bucket histogram.boundaries value) fun count => count.saturatingAdd 1 := rfl

theorem below_closed (value : U64) (first second : U64) (ordered : first ≤ second)
    (below : decide (second < value) = true) : decide (first < value) = true :=
  decide_eq_true (ordered.trans_lt (of_decide_eq_true below))

section Bucket

variable {boundaries : List U64}

theorem bucket_eq_countP (increasing : boundaries.Pairwise (· ≤ ·)) (value : U64) :
    bucket boundaries value = boundaries.countP (· < value) :=
  length_takeWhile_eq_countP increasing (below_closed value)

theorem bucket_le_length (boundaries : List U64) (value : U64) :
    bucket boundaries value ≤ boundaries.length :=
  (takeWhile_sublist _).length_le

theorem bucket_mono (increasing : boundaries.Pairwise (· ≤ ·)) {first second : U64}
    (ordered : first ≤ second) : bucket boundaries first ≤ bucket boundaries second := by
  rw [bucket_eq_countP increasing, bucket_eq_countP increasing]
  refine countP_mono_left fun boundary _ below => ?_
  exact decide_eq_true ((of_decide_eq_true below).trans_le ordered)

theorem within_bucket (increasing : boundaries.Pairwise (· ≤ ·)) (value : U64) :
    (if bucket boundaries value = 0 then 0
        else (boundaries.getD (bucket boundaries value - 1) 0).saturatingAdd 1) ≤ value ∧
      ∀ upper ∈ boundaries[bucket boundaries value]?, value ≤ upper := by
  have below (place : Nat) (within : place < boundaries.length) :
      boundaries[place] < value ↔ place < bucket boundaries value := by
    rw [bucket_eq_countP increasing, ← getElem_iff_lt_countP increasing (below_closed value) within,
      decide_eq_true_eq]
  constructor
  · split
    · exact Fin.zero_le value
    · rename_i positive
      have within : bucket boundaries value - 1 < boundaries.length := by
        have bound := bucket_le_length boundaries value
        omega
      have less := (below _ within).mpr (by omega)
      rw [getD_eq_getElem?_getD, getElem?_eq_getElem within, Option.getD_some, Fin.le_def,
        saturatingAdd_val]
      rw [Fin.lt_def] at less
      omega
  · intro upper found
    obtain ⟨within, rfl⟩ := List.getElem?_eq_some_iff.mp found
    refine not_lt.mp fun less => ?_
    exact absurd ((below _ within).mp less) (lt_irrefl _)

end Bucket

structure Recorded (histogram : Histogram) (values : List U64) : Prop where
  increasing : histogram.boundaries.Pairwise (· ≤ ·)
  length : histogram.counts.length = histogram.boundaries.length + 1
  counted : Counts histogram.counts (values.map (bucket histogram.boundaries))

variable {boundaries : List U64}

theorem pairwise_of_windows
    (windows : ¬ (boundaries.zip boundaries.tail).any (fun window => window.2 ≤ window.1) = true) :
    boundaries.Pairwise (· ≤ ·) := by
  refine isChain_iff_pairwise.mp ?_
  induction boundaries with
  | nil => exact .nil
  | cons first rest hypothesis =>
    cases rest with
    | nil => exact .singleton first
    | cons second rest =>
      rw [tail_cons, zip_cons_cons, any_cons, Bool.or_eq_true, not_or,
        decide_eq_true_eq] at windows
      exact isChain_cons_cons.mpr
        ⟨(not_le.mp windows.1).le, hypothesis windows.2⟩

theorem recorded_of_new {histogram : Histogram} (created : new boundaries = .ok histogram) :
    histogram.boundaries = boundaries ∧ Recorded histogram [] := by
  unfold new at created
  split at created
  · cases created
  · split at created
    · cases created
    · rename_i windows
      cases created
      exact ⟨rfl, pairwise_of_windows windows, length_replicate, counts_replicate _⟩

section Recorded

variable {histogram : Histogram} {values : List U64}

section

variable (recorded : Recorded histogram values)

include recorded

theorem Recorded.record (few : values.length + 1 < 2 ^ 64) (value : U64) :
    Recorded (histogram.record value) (value :: values) where
  increasing := recorded.increasing
  length := by
    rw [counts_record, length_modify]
    exact recorded.length
  counted := by
    rw [counts_record]
    exact recorded.counted.modify (by rw [length_map]; exact few) _

theorem Recorded.foldl (more : List U64) (few : values.length + more.length < 2 ^ 64) :
    Recorded (more.foldl Histogram.record histogram) (more.reverse ++ values) ∧
      (more.foldl Histogram.record histogram).boundaries = histogram.boundaries := by
  induction more generalizing histogram values with
  | nil => exact ⟨recorded, rfl⟩
  | cons value rest hypothesis =>
    rw [length_cons] at few
    have next := hypothesis (recorded.record (by omega) value)
      (by rw [length_cons]; omega)
    rw [foldl_cons, reverse_cons, append_assoc]
    exact next

theorem Recorded.perm {others : List U64} (same : values.Perm others) :
    Recorded histogram others where
  increasing := recorded.increasing
  length := recorded.length
  counted index count found := by
    rw [recorded.counted index count found]
    exact (same.map _).count_eq index

theorem Recorded.sum : (histogram.counts.map Fin.val).sum = values.length := by
  rw [recorded.counted.sum, length_map]
  intro index member
  obtain ⟨value, -, rfl⟩ := mem_map.mp member
  rw [recorded.length]
  exact Nat.lt_succ_of_le (bucket_le_length _ value)

theorem Recorded.totalCount (few : values.length < 2 ^ 64) :
    histogram.totalCount.val = values.length := by
  unfold Histogram.totalCount
  rw [recorded.sum]
  exact Nat.mod_eq_of_lt few

theorem Recorded.sum_take {place : Nat} (within : place ≤ histogram.counts.length) :
    ((histogram.counts.take place).map Fin.val).sum =
      values.countP (bucket histogram.boundaries · < place) := by
  rw [recorded.counted.sum_take within, countP_map]
  rfl

end

end Recorded

theorem reach_spec {rank : Nat} {cumulative : U64} {counts : List U64}
    (few : cumulative.val + (counts.map Fin.val).sum < 2 ^ 64) (above : cumulative.val < rank)
    (enough : rank ≤ cumulative.val + (counts.map Fin.val).sum) (index : Nat) :
    ∃ place, reach rank cumulative index counts = some (index + place) ∧
      place < counts.length ∧
      cumulative.val + ((counts.take place).map Fin.val).sum < rank ∧
      rank ≤ cumulative.val + ((counts.take (place + 1)).map Fin.val).sum := by
  induction counts generalizing cumulative index with
  | nil =>
    have below : rank ≤ cumulative.val := enough
    omega
  | cons count rest hypothesis =>
    rw [map_cons, sum_cons] at few enough
    have added : (cumulative.saturatingAdd count.val).val = cumulative.val + count.val :=
      saturatingAdd_of_lt _ _ (by omega)
    unfold reach
    dsimp only
    split
    · rename_i before
      rw [added] at before
      obtain ⟨place, found, within, low, high⟩ := hypothesis (by rw [added]; omega)
        (by rw [added]; exact before) (by rw [added]; omega) (index + 1)
      rw [added] at low high
      refine ⟨place + 1, ?_, Nat.succ_lt_succ within, ?_, ?_⟩
      · rw [found]
        exact congrArg some (by omega)
      · rw [take_succ_cons, map_cons, sum_cons]
        omega
      · rw [take_succ_cons, map_cons, sum_cons]
        omega
    · rename_i reached
      rw [added] at reached
      refine ⟨0, rfl, Nat.succ_pos _, above, ?_⟩
      rw [take_succ_cons, map_cons, sum_cons]
      omega

theorem reach_of_rank {rank : Nat} {counts : List U64} (few : (counts.map Fin.val).sum < 2 ^ 64)
    (positive : 0 < rank) (enough : rank ≤ (counts.map Fin.val).sum) :
    ∃ place, reach rank 0 0 counts = some place ∧ place < counts.length ∧
      ((counts.take place).map Fin.val).sum < rank ∧
      rank ≤ ((counts.take (place + 1)).map Fin.val).sum := by
  have zero : (0 : U64).val = 0 := rfl
  obtain ⟨place, found, within, low, high⟩ := reach_spec (by rw [zero, zero_add]; exact few)
    (by rw [zero]; exact positive) (by rw [zero, zero_add]; exact enough) 0
  rw [zero, zero_add] at low high
  rw [zero_add] at found
  exact ⟨place, found, within, low, high⟩

end Histogram

def nearestRank (values : List U64) (percent : Nat) : Option U64 :=
  (values.insertionSort (· ≤ ·))[(values.length * percent + 99) / 100 - 1]?

namespace Histogram

section Percentile

variable {histogram : Histogram} {values : List U64}

theorem Recorded.bucket_getElem (recorded : Recorded histogram values) {place index : Nat}
    (within : index < histogram.counts.length)
    (here : place < (values.insertionSort (· ≤ ·)).length)
    (low : ((histogram.counts.take index).map Fin.val).sum ≤ place)
    (high : place < ((histogram.counts.take (index + 1)).map Fin.val).sum) :
    bucket histogram.boundaries (values.insertionSort (· ≤ ·))[place] = index := by
  have ordered := pairwise_insertionSort (· ≤ ·) values
  have before (limit : Nat) :
      bucket histogram.boundaries (values.insertionSort (· ≤ ·))[place] < limit ↔
        place < values.countP (bucket histogram.boundaries · < limit) := by
    rw [← (perm_insertionSort (· ≤ ·) values).countP_eq,
      ← getElem_iff_lt_countP ordered ?_ here, decide_eq_true_eq]
    intro first second least below
    exact decide_eq_true ((bucket_mono recorded.increasing least).trans_lt
      (of_decide_eq_true below))
  rw [recorded.sum_take (le_of_lt within)] at low
  rw [recorded.sum_take within] at high
  have notBelow := mt (before index).mp (not_lt.mpr low)
  have below := (before (index + 1)).mpr high
  omega

theorem rank_spec {count percent : Nat} (few : count < 2 ^ 57) (several : 0 < count)
    (positive : 0 < percent) (most : percent ≤ 100) :
    min (min (count * percent) (2 ^ 64 - 1) + 99) (2 ^ 64 - 1) / 100 =
        (count * percent + 99) / 100 ∧
      0 < (count * percent + 99) / 100 ∧ (count * percent + 99) / 100 ≤ count := by
  have least : count ≤ count * percent := Nat.le_mul_of_pos_right count positive
  have greatest : count * percent ≤ count * 100 := Nat.mul_le_mul_left count most
  omega

section

variable (recorded : Recorded histogram values) (few : values.length < 2 ^ 57)
  (nonempty : values ≠ []) {percentile : U8} (positive : 0 < percentile) (most : percentile ≤ 100)

include recorded few nonempty positive most

theorem Recorded.percentileRange_eq :
    ∃ value, nearestRank values percentile.val = some value ∧
      histogram.percentileRange percentile = some (
        if bucket histogram.boundaries value = 0 then 0
        else (histogram.boundaries.getD (bucket histogram.boundaries value - 1) 0).saturatingAdd 1,
        histogram.boundaries[bucket histogram.boundaries value]?) := by
  have several := length_pos_of_ne_nil nonempty
  have total : histogram.totalCount.val = values.length := recorded.totalCount (by omega)
  obtain ⟨same, first, last⟩ := rank_spec few several positive (Fin.le_def.mp most)
  obtain ⟨index, reached, within, low, high⟩ := reach_of_rank
    (by rw [recorded.sum]; omega) first (by rw [recorded.sum]; exact last)
  have here : (values.length * percentile.val + 99) / 100 - 1 <
      (values.insertionSort (· ≤ ·)).length := by
    rw [length_insertionSort]
    omega
  have placed := recorded.bucket_getElem within here (by omega) (by omega)
  refine ⟨_, getElem?_eq_getElem here, ?_⟩
  rw [placed]
  have counted : ¬ (histogram.totalCount = 0 || percentile = 0 || 100 < percentile) = true := by
    have someCounted : histogram.totalCount ≠ 0 := by
      intro none
      rw [none] at total
      have zero : 0 = values.length := total
      omega
    simp [someCounted, positive.ne', most]
  simp only [percentileRange]
  rw [if_neg counted, saturatingAdd_val, saturatingMul_val, total, same, reached]
  rfl

theorem Recorded.percentileRange_contains :
    ∃ value lower upper, nearestRank values percentile.val = some value ∧
      histogram.percentileRange percentile = some (lower, upper) ∧ lower ≤ value ∧
      ∀ bound ∈ upper, value ≤ bound := by
  obtain ⟨value, ranked, range⟩ := recorded.percentileRange_eq few nonempty positive most
  have between := within_bucket recorded.increasing value
  exact ⟨value, _, _, ranked, range, between.1, between.2⟩

end

theorem Recorded.percentileRange_nil (recorded : Recorded histogram []) (percentile : U8) :
    histogram.percentileRange percentile = none := by
  have total : histogram.totalCount = 0 := Fin.ext (recorded.totalCount (by decide))
  simp only [percentileRange]
  exact if_pos (by simp [total])

end Percentile

end Histogram

end EbpfStudio
