/-
This file proves how far the percentiles of the live summary are from the exact ones.

The exact percentile of some latencies is the one with its rank among them. The live summary has
only a histogram with powers of two as bounds. It records the same latencies in the same categories
as the retained requests (`Books`), so its percentile is the bound of the bucket that holds the
exact one.
-/

import EbpfStudio.Protocol.LiveSummary

namespace EbpfStudio

open AnalysisEngine Run List Table

def bucketLower (boundaries : List U64) (index : Nat) : U64 :=
  if index = 0 then 0 else (boundaries.getD (index - 1) 0).saturatingAdd 1

/-- What is reported for a value is the upper bound of the bucket that holds it, or the lower
bound of the last bucket, if that one holds it. Without values there is neither. -/
inductive Brackets (boundaries : List U64) : Option U64 → Option U64 → Prop
  | empty : Brackets boundaries none none
  | bounded {index : Nat} {value upper : U64} :
    boundaries[index]? = some upper → bucketLower boundaries index ≤ value → value ≤ upper →
    Brackets boundaries (some value) (some upper)
  | overflow {value : U64} : bucketLower boundaries boundaries.length ≤ value →
    Brackets boundaries (some value) (some (bucketLower boundaries boundaries.length))

theorem Histogram.Recorded.brackets {histogram : Histogram} {values : List U64}
    (recorded : Recorded histogram values) (few : values.length < 2 ^ 57) {percentile : U8}
    (positive : 0 < percentile) (most : percentile ≤ 100) :
    Brackets histogram.boundaries (nearestRank values percentile.val)
      (histogramPercentileUpper histogram percentile) := by
  by_cases empty : values = []
  · subst empty
    unfold histogramPercentileUpper
    rw [recorded.percentileRange_nil percentile]
    exact .empty
  · obtain ⟨value, ranked, range⟩ := recorded.percentileRange_eq few empty positive most
    obtain ⟨lower, upper⟩ := within_bucket recorded.increasing value
    unfold histogramPercentileUpper
    rw [ranked, range, Option.map_some]
    cases bound : histogram.boundaries[bucket histogram.boundaries value]? with
    | some greatest => exact .bounded bound lower (upper greatest bound)
    | none =>
      have last : bucket histogram.boundaries value = histogram.boundaries.length :=
        le_antisymm (bucket_le_length _ value) (getElem?_eq_none_iff.mp bound)
      rw [last] at lower ⊢
      exact .overflow lower

theorem percentile_insertionSort (values : List U64) (percent : Nat) :
    percentile (values.insertionSort (· ≤ ·)) percent = nearestRank values percent := by
  have place : max ((percent * values.length + 99) / 100) 1 - 1 =
      (values.length * percent + 99) / 100 - 1 := by
    rw [Nat.mul_comm percent]
    omega
  unfold percentile nearestRank
  rw [length_insertionSort, place]
  split
  · rename_i empty
    rw [isEmpty_iff.mp empty, getElem?_nil]
  · rfl

structure PercentileOf (latencies : List U64) (percent : Nat) (exact live : Option U64) :
    Prop where
  ranked : exact = nearestRank latencies percent
  brackets : Brackets latencyHistogram.boundaries exact live

theorem percentileOf_histogram {latencies : List U64} (few : latencies.length < 2 ^ 57)
    {percent : U8} (positive : 0 < percent) (most : percent ≤ 100) :
    PercentileOf latencies percent.val
      (percentile (latencies.insertionSort (· ≤ ·)) percent.val)
      (histogramPercentileUpper (latencies.foldl Histogram.record latencyHistogram) percent) := by
  obtain ⟨recorded, boundaries⟩ := recorded_latencyHistogram.foldl latencies
    (by rw [length_nil]; omega)
  rw [append_nil] at recorded
  refine ⟨percentile_insertionSort latencies _, ?_⟩
  rw [percentile_insertionSort, ← boundaries]
  exact (recorded.perm (reverse_perm latencies)).brackets few positive most

namespace AnalysisEngine

def latenciesOf (ios : List CompletedIo) (key : CategoryKey) : List U64 :=
  (ios.filter fun io => categoryKey io = key).filterMap CompletedIo.totalLatencyNs

theorem length_latenciesOf_le (ios : List CompletedIo) (key : CategoryKey) :
    (latenciesOf ios key).length ≤ ios.length :=
  (length_filterMap_le _ _).trans (length_filter_le _ _)

theorem foldl_recordIn (ios : List CompletedIo) (category : MutableCategory) :
    let result := ios.foldl (fun category io => recordIn io category) category
    result.latencies = category.latencies ++ ios.filterMap CompletedIo.totalLatencyNs ∧
      result.histogram =
        (ios.filterMap CompletedIo.totalLatencyNs).foldl Histogram.record category.histogram := by
  induction ios generalizing category with
  | nil => exact ⟨(append_nil _).symm, rfl⟩
  | cons io rest hypothesis =>
    obtain ⟨latencies, histogram⟩ := hypothesis (recordIn io category)
    dsimp only at latencies histogram ⊢
    rw [foldl_cons, latencies, histogram]
    cases measured : io.totalLatencyNs with
    | none =>
      rw [filterMap_cons_none measured]
      simp [recordIn, measured]
    | some latency =>
      rw [filterMap_cons_some measured]
      simp [recordIn, measured]

def categoriesOf (ios : List CompletedIo) : Table CategoryKey MutableCategory :=
  Table.alterEach categoryKey (fun _ => {}) recordIn ∅ ios

theorem categories_run {start : AnalysisEngine} (empty : start.categories = ∅)
    (events : List StorageEvent) :
    (run step start events).categories = categoriesOf (start.recorded events) := by
  refine books_run_induction (fun ios books => books.categories = categoriesOf ios) empty
    (fun ios io books known => ?_) events
  unfold categoriesOf alterEach at known ⊢
  rw [foldl_append, ← known]
  rfl

theorem category_of_mem {ios : List CompletedIo} {key : CategoryKey} {category : MutableCategory}
    (member : (key, category) ∈ (categoriesOf ios).toPairs) :
    category.latencies = latenciesOf ios key ∧
      category.histogram = (latenciesOf ios key).foldl Histogram.record latencyHistogram := by
  have entry := getD_lookup_alterEach categoryKey (fun _ => ({} : MutableCategory)) recordIn
    ∅ ios key
  have found : (categoriesOf ios).lookup key = some category := mem_toPairs.mp member
  rw [← categoriesOf, found, Option.getD_some] at entry
  rw [entry]
  exact foldl_recordIn (ios.filter fun io => categoryKey io = key) {}

end AnalysisEngine

/-- A live line and an exact line of the same category, with the percentiles of its requests. -/
structure LineOf (ios : List CompletedIo) (live exact : CategorySummary) : Prop where
  same : (live.operation, live.accessPattern, live.sizeClass) =
    (exact.operation, exact.accessPattern, exact.sizeClass)
  p50 : PercentileOf (latenciesOf ios (exact.operation, exact.accessPattern, exact.sizeClass)) 50
    exact.p50LatencyNs live.p50LatencyNs
  p95 : PercentileOf (latenciesOf ios (exact.operation, exact.accessPattern, exact.sizeClass)) 95
    exact.p95LatencyNs live.p95LatencyNs
  p99 : PercentileOf (latenciesOf ios (exact.operation, exact.accessPattern, exact.sizeClass)) 99
    exact.p99LatencyNs live.p99LatencyNs

namespace AnalysisEngine

theorem lineOf_of_mem {ios : List CompletedIo} (few : ios.length < 2 ^ 57)
    {entry : CategoryKey × MutableCategory} (member : entry ∈ (categoriesOf ios).toPairs) :
    LineOf ios (summarizeLiveCategory entry.1 entry.2) (summarizeCategory entry.1 entry.2) := by
  obtain ⟨own, counted⟩ := category_of_mem member
  have within : (latenciesOf ios entry.1).length < 2 ^ 57 :=
    (length_latenciesOf_le _ _).trans_lt few
  have line : ∀ {percent : U8}, 0 < percent → percent ≤ 100 →
      PercentileOf (latenciesOf ios entry.1) percent.val
        (percentile (entry.2.latencies.insertionSort (· ≤ ·)) percent.val)
        (histogramPercentileUpper entry.2.histogram percent) := by
    intro percent positive most
    rw [counted, own]
    exact percentileOf_histogram within positive most
  exact ⟨rfl, @line 50 (by decide) (by decide), @line 95 (by decide) (by decide),
    @line 99 (by decide) (by decide)⟩

end AnalysisEngine

/-- In a run with fewer than `2 ^ 57` completions, every percentile of the final summary is the
one with its rank among the measured latencies, and it lies in the bucket by which the live
summary reports it, over all requests and in every category. -/
theorem live_percentiles_bracket (retainAll : Bool) (correlationTtlNs : U64)
    (ttlPositive : 0 < correlationTtlNs) (completionWindow : Option (U64 × U64))
    (events : List StorageEvent) (caches : QueriedEngine) :
    let start := freshRetaining retainAll correlationTtlNs ttlPositive completionWindow
    let engine := run step start events
    let live := engine.liveSummary
    let final := ({ caches with engine := engine } : QueriedEngine).summary.2
    let latencies := (start.recorded events).filterMap CompletedIo.totalLatencyNs
    final.completedIos < 2 ^ 57 →
      PercentileOf latencies 50 final.p50LatencyNs live.p50LatencyNs ∧
      PercentileOf latencies 95 final.p95LatencyNs live.p95LatencyNs ∧
      PercentileOf latencies 99 final.p99LatencyNs live.p99LatencyNs ∧
      List.Forall₂ (LineOf (start.recorded events)) live.categorySummaries
        final.categorySummaries := by
  intro start engine live final latencies few
  have accounts : Accounts (start.recorded events) engine.totals :=
    accounts_run
      (accounts_freshRetaining retainAll correlationTtlNs ttlPositive completionWindow) events
  have completed : final.completedIos = (start.recorded events).length := accounts.completed
  have measured : engine.latenciesNs = latencies := accounts.latencies
  have histogram : engine.liveLatencyHistogram =
      engine.latenciesNs.foldl Histogram.record latencyHistogram := accounts.histogram
  have fewer : latencies.length < 2 ^ 57 :=
    (length_filterMap_le _ _).trans_lt (completed ▸ few)
  have overall : ∀ {percent : U8}, 0 < percent → percent ≤ 100 →
      PercentileOf latencies percent.val
        (percentile (engine.latenciesNs.insertionSort (· ≤ ·)) percent.val)
        (histogramPercentileUpper engine.liveLatencyHistogram percent) := by
    intro percent positive most
    rw [histogram, measured]
    exact percentileOf_histogram fewer positive most
  refine ⟨@overall 50 (by decide) (by decide), @overall 95 (by decide) (by decide),
    @overall 99 (by decide) (by decide), ?_⟩
  show List.Forall₂ _ engine.liveCategorySummaries engine.categorySummaries
  unfold liveCategorySummaries categorySummaries
  rw [forall₂_map_left_iff, forall₂_map_right_iff, forall₂_same]
  intro entry member
  rw [mem_insertionSort, categories_run rfl events] at member
  exact lineOf_of_mem (completed ▸ few) member

theorem live_percentiles_bracket_reads :
    let events := [StorageEvent.blockIssue (readIssue 1000 7), .blockIssue (readIssue 1500 8),
      .blockComplete (readComplete 3500 8), .blockComplete (readComplete 2500 7)]
    let start := freshRetaining false 30_000_000_000 (by decide) none
    let engine := run step start events
    let final := ({ engine := engine } : QueriedEngine).summary.2
    final.p50LatencyNs = some 1500 ∧ engine.liveSummary.p50LatencyNs = some 2000 ∧
      PercentileOf ((start.recorded events).filterMap CompletedIo.totalLatencyNs) 50
        final.p50LatencyNs engine.liveSummary.p50LatencyNs := by
  intro events start engine final
  have few : final.completedIos < 2 ^ 57 := by decide +kernel
  obtain ⟨half, -⟩ := live_percentiles_bracket false 30_000_000_000 (by decide) none events
    { engine := engine } few
  exact ⟨by decide +kernel, by decide +kernel, half⟩

end EbpfStudio
