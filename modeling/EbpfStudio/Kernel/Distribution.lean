/-
This file proves that the histograms of the processors, merged by the agent, are what one histogram
would have recorded.

The kernel takes the bucket of a value by its highest bit and the agent gives the buckets powers of
two as bounds. Merging adds the counts of each bucket, so the sum is what a histogram with these
bounds counts for all values in any order (`Recorded`).
-/

import EbpfStudio.Kernel.Conservation
import EbpfStudio.Protocol.Histogram

namespace EbpfStudio

open Tally List Word Finset AggregateCounter

theorem pairwise_log2HistogramBoundaries : log2HistogramBoundaries.Pairwise (· ≤ ·) := by
  decide +kernel

theorem new_log2HistogramBoundaries :
    Histogram.new log2HistogramBoundaries =
      .ok ⟨log2HistogramBoundaries, replicate histogramBuckets 0⟩ := by
  unfold Histogram.new
  rw [if_neg (by decide +kernel), if_neg (by decide +kernel)]
  rfl

theorem bucket_log2HistogramBoundaries (value : U64) :
    Histogram.bucket log2HistogramBoundaries value = histogramIndex value := by
  have below (index : Nat) (within : index ∈ List.range (histogramBuckets - 1)) :
      (((fun boundary : U64 => decide (boundary < value)) ∘
        fun index => Word.ofNat 64 (2 ^ (index + 1) - 1)) index = true ↔
          decide (index < Nat.log2 value.val) = true) := by
    have small : 2 ^ (index + 1) ≤ 2 ^ 31 := by
      refine Nat.pow_le_pow_right Nat.two_pos ?_
      have bound := List.mem_range.mp within
      unfold histogramBuckets at bound
      omega
    have reduced : (ofNat 64 (2 ^ (index + 1) - 1)).val = 2 ^ (index + 1) - 1 :=
      Nat.mod_eq_of_lt (by omega)
    have positive : 0 < 2 ^ (index + 1) := Nat.two_pow_pos _
    rw [Function.comp_apply, decide_eq_true_eq, decide_eq_true_eq, Fin.lt_def, reduced]
    by_cases zero : value.val = 0
    · rw [zero, Nat.log2_zero]
      omega
    · have bits : index + 1 ≤ Nat.log2 value.val ↔ 2 ^ (index + 1) ≤ value.val :=
        Nat.le_log2 zero
      omega
  rw [Histogram.bucket_eq_countP pairwise_log2HistogramBoundaries, log2HistogramBoundaries,
    countP_map, countP_congr below, countP_lt_range]
  rfl

theorem bucket_amounts (metric : HistogramMetric) (index : Fin histogramBuckets)
    (updates : List AggregateUpdate) :
    (bucket metric index).amounts updates =
      ((updates.filterMap (·.value? metric)).map histogramIndex).count index.val := by
  induction updates with
  | nil => rfl
  | cons update rest hypothesis =>
    have split : (bucket metric index).amounts (update :: rest) =
        (update.value? metric).elim 0 (fun value => if histogramIndex value = index then 1 else 0) +
          (bucket metric index).amounts rest := sum_cons
    rw [split, hypothesis, filterMap_cons]
    cases update.value? metric with
    | none => exact zero_add _
    | some value =>
      rw [List.map_cons, List.count_cons, add_comm]
      simp only [Option.elim_some, beq_iff_eq]

def Ledger.updatesIn (generation : U64) (ledger : Ledger) : List AggregateUpdate :=
  if ledger.generation = generation then ledger.updates else []

theorem Ledger.countIn_aggregate (counter : AggregateCounter) (ledger : Ledger)
    (generation : U64) :
    counter.countIn generation ledger.aggregate =
      (0 : U64).saturatingAdd (counter.amounts (ledger.updatesIn generation)) := by
  unfold countIn updatesIn
  rw [generation_aggregate]
  split
  · exact read_aggregate counter ledger
  · exact (saturatingAdd_zero 0).symm

variable {cpus : Nat} {kernel : BlockKernel cpus} {metric : HistogramMetric}

section

variable (wellFormed : kernel.WellFormed) {generation : U64} {updates : List AggregateUpdate}
  (counted : ∀ index, kernel.countIn (AggregateCounter.bucket metric index) generation =
      (AggregateCounter.bucket metric index).amounts updates)
  (few : updates.countP AggregateUpdate.isCompletion < 2 ^ 64)

include wellFormed counted few

theorem BlockKernel.counts_merged :
    Counts ((kernel.merged generation).counts metric)
      ((updates.filterMap (·.value? metric)).map histogramIndex) := by
  intro index count found
  obtain ⟨within, here⟩ := List.getElem?_eq_some_iff.mp found
  rw [(wellFormed.merged generation) metric] at within
  have amounts := bucket_amounts metric ⟨index, within⟩ updates
  have total := counted ⟨index, within⟩
  have bound : kernel.countIn (bucket metric ⟨index, within⟩) generation <
      2 ^ 64 := by
    rw [total]
    exact (bucket_amounts_le metric ⟨index, within⟩ updates).trans_lt few
  have isRead := BlockKernel.read_merged wellFormed
    (bucket metric ⟨index, within⟩) bound
  have word : (bucket metric ⟨index, within⟩).read (kernel.merged generation) =
      count := by
    unfold bucket
    dsimp only
    rw [getD_eq_getElem?_getD, found, Option.getD_some]
  rw [← word, isRead, total, amounts]

theorem BlockKernel.recorded_merged :
    Histogram.Recorded ⟨log2HistogramBoundaries, (kernel.merged generation).counts metric⟩
      (updates.filterMap (·.value? metric)) where
  increasing := pairwise_log2HistogramBoundaries
  length := wellFormed.merged generation metric
  counted := by
    rw [funext bucket_log2HistogramBoundaries]
    exact counts_merged wellFormed counted few

end

section Processors

variable {cpus : Nat}

def updatesIn (generation : U64) (ledgers : Fin cpus → Ledger) : List AggregateUpdate :=
  (List.ofFn ledgers).flatMap (Ledger.updatesIn generation)

def valuesIn (generation : U64) (ledgers : Fin cpus → Ledger) (metric : HistogramMetric) :
    List U64 :=
  (updatesIn generation ledgers).filterMap (·.value? metric)

def kernelWith (ledgers : Fin cpus → Ledger) : BlockKernel cpus :=
  { aggregates := fun cpu => (ledgers cpu).aggregate }

variable {ledgers : Fin cpus → Ledger} {generation : U64}

theorem wellFormed_kernelWith (ledgers : Fin cpus → Ledger) :
    (kernelWith ledgers).WellFormed := fun cpu => (ledgers cpu).wellFormed_aggregate

theorem length_valuesIn (generation : U64) (ledgers : Fin cpus → Ledger)
    (metric : HistogramMetric) :
    (valuesIn generation ledgers metric).length =
      (updatesIn generation ledgers).countP AggregateUpdate.isCompletion := by
  unfold valuesIn
  rw [length_filterMap_eq_countP]
  simp only [AggregateUpdate.isSome_value?]

theorem amounts_updatesIn (counter : AggregateCounter) (generation : U64)
    (ledgers : Fin cpus → Ledger) :
    counter.amounts (updatesIn generation ledgers) =
      ∑ cpu, counter.amounts ((ledgers cpu).updatesIn generation) := by
  have flat (parts : List Ledger) :
      counter.amounts (parts.flatMap (Ledger.updatesIn generation)) =
        (parts.map fun ledger => counter.amounts (ledger.updatesIn generation)).sum := by
    induction parts with
    | nil => rfl
    | cons ledger rest hypothesis =>
      rw [List.flatMap_cons, counter.amounts_append, hypothesis, List.map_cons,
        List.sum_cons]
  rw [updatesIn, flat, List.map_ofFn, List.sum_ofFn]
  rfl

theorem countIn_kernelWith (counter : AggregateCounter)
    (few : counter.amounts (updatesIn generation ledgers) < 2 ^ 64) :
    (kernelWith ledgers).countIn counter generation =
      counter.amounts (updatesIn generation ledgers) := by
  have zero : (0 : U64).val = 0 := rfl
  rw [amounts_updatesIn] at few ⊢
  refine sum_congr rfl fun cpu _ => ?_
  have part : counter.amounts ((ledgers cpu).updatesIn generation) ≤
      ∑ cpu, counter.amounts ((ledgers cpu).updatesIn generation) :=
    single_le_sum_of_canonicallyOrdered (f := fun cpu =>
      counter.amounts ((ledgers cpu).updatesIn generation)) (mem_univ cpu)
  show (counter.countIn generation (ledgers cpu).aggregate).val = _
  rw [Ledger.countIn_aggregate, saturatingAdd_of_lt _ _ (by rw [zero]; omega), zero,
    zero_add]

theorem recorded_merged (metric : HistogramMetric)
    (few : (updatesIn generation ledgers).countP AggregateUpdate.isCompletion < 2 ^ 64) :
    Histogram.Recorded ⟨log2HistogramBoundaries,
      ((kernelWith ledgers).merged generation).counts metric⟩
      (valuesIn generation ledgers metric) :=
  BlockKernel.recorded_merged (wellFormed_kernelWith ledgers)
    (fun index => countIn_kernelWith _
      ((bucket_amounts_le metric index _).trans_lt few)) few

end Processors

theorem Histogram.Recorded.eq_of_perm {first second : Histogram} {values others : List U64}
    (recorded : first.Recorded values) (recorded' : second.Recorded others)
    (boundaries : first.boundaries = second.boundaries) (same : values.Perm others) :
    first = second := by
  obtain ⟨bounds, counts⟩ := first
  obtain ⟨bounds', counts'⟩ := second
  cases boundaries
  have lengths : counts.length = counts'.length := recorded.length.trans recorded'.length.symm
  have sameCounts : counts = counts' :=
    recorded.counted.eq_of_perm recorded'.counted (same.map _) lengths
  rw [sameCounts]

/-- Whatever updates the processors have taken, every histogram in the snapshot of a generation is
the one with the same boundaries that recorded the values of all its completions, in any order, and
its percentiles are in the buckets that it gives for them. -/
theorem merged_histogram_is_central {cpus : Nat} (sessionId : String) (epoch generation : U64)
    (ledgers : Fin cpus → Ledger) (metric : HistogramMetric)
    (few : (updatesIn generation ledgers).countP AggregateUpdate.isCompletion < 2 ^ 57) :
    ∃ histogram fresh,
      (readAggregateSnapshot sessionId epoch generation
        (List.ofFn fun cpu => (ledgers cpu).aggregate)).histograms.lookup metric =
          some histogram ∧
      Histogram.new histogram.boundaries = .ok fresh ∧
      (∀ values : List U64, values.Perm (valuesIn generation ledgers metric) →
        values.foldl Histogram.record fresh = histogram) ∧
      ∀ percentile : U8, 1 ≤ percentile → percentile ≤ 100 →
        valuesIn generation ledgers metric ≠ [] →
        ∃ value lower upper,
          nearestRank (valuesIn generation ledgers metric) percentile.val = some value ∧
          histogram.percentileRange percentile = some (lower, upper) ∧
          lower ≤ value ∧ ∀ bound ∈ upper, value ≤ bound := by
  have recorded := recorded_merged metric (few.trans (by decide))
  have length := length_valuesIn generation ledgers metric
  refine ⟨⟨log2HistogramBoundaries, ((kernelWith ledgers).merged generation).counts metric⟩, _,
    ?_, new_log2HistogramBoundaries, ?_, ?_⟩
  · cases metric <;> rfl
  · intro values same
    obtain ⟨-, empty⟩ := Histogram.recorded_of_new new_log2HistogramBoundaries
    have sameLength := same.length_eq
    obtain ⟨central, boundaries⟩ := empty.foldl values (by simp only [length_nil]; omega)
    refine central.eq_of_perm recorded boundaries ?_
    rw [append_nil]
    exact (reverse_perm values).trans same
  · intro percentile positive most nonempty
    exact recorded.percentileRange_contains (length.trans_lt few) nonempty positive most

/-- Two processors have seen three completions of generation 1, which took 900 ns, 3 ns and 5 ns.
The median is in the bucket of the last one. -/
theorem merged_histogram_is_central_median :
    let ledgers : Fin 2 → Ledger := fun cpu =>
      if cpu = 0 then ⟨1, [.completion 10 4096 0 900 0 900]⟩
      else ⟨1, [.completion 20 4096 0 3 0 3, .completion 30 512 5 5 0 5]⟩
    ∃ histogram lower upper,
      (readAggregateSnapshot "s" 1 1
        (List.ofFn fun cpu => (ledgers cpu).aggregate)).histograms.lookup .deviceLatency =
          some histogram ∧
      histogram.percentileRange 50 = some (lower, upper) ∧ lower ≤ 5 ∧
      ∀ bound ∈ upper, 5 ≤ bound := by
  intro ledgers
  obtain ⟨histogram, -, listed, -, -, percentiles⟩ :=
    merged_histogram_is_central "s" 1 1 ledgers .deviceLatency (by decide +kernel)
  obtain ⟨value, lower, upper, median, found, least, most⟩ :=
    percentiles 50 (by decide) (by decide) (by decide +kernel)
  have five : nearestRank (valuesIn 1 ledgers .deviceLatency) 50 = some 5 := by decide +kernel
  cases five.symm.trans median
  exact ⟨histogram, lower, upper, listed, found, least, most⟩

end EbpfStudio
