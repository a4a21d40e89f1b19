/-
This file proves that the metrics of a graph divide its time without overlap.

The loop over the sorted intervals lists the gaps between the times that were covered so far and the
next interval. `LeftBy` says that the gaps and what is covered make up the time between the two
bounds, so that their lengths add up to the total.
-/

import EbpfStudio.Protocol.Metrics

namespace EbpfStudio

open Coverage List Finset Fin

def UnaccountedInterval.range (gap : UnaccountedInterval) : Nat × Nat :=
  (gap.startTsNs.val, gap.endTsNs.val)

structure LeftBy (start finish : Nat) (intervals : List (Nat × Nat))
    (gaps : List UnaccountedInterval) : Prop where
  proper : ∀ gap ∈ gaps, start ≤ gap.startTsNs.val ∧ gap.startTsNs < gap.endTsNs ∧
    gap.endTsNs.val ≤ finish
  apart : gaps.Pairwise fun first second => first.endTsNs ≤ second.startTsNs
  exact : ∀ instant, instant ∈ covered (gaps.map (·.range)) ↔
    start ≤ instant ∧ instant < finish ∧ instant ∉ covered intervals

theorem LeftBy.last {cursor boundsEnd : U64} (before : cursor < boundsEnd) :
    LeftBy cursor boundsEnd [] [⟨cursor, boundsEnd, .unknown⟩] := by
  refine ⟨fun gap member => ?_, List.pairwise_singleton _ _, fun instant => ?_⟩
  · rw [List.mem_singleton.mp member]
    exact ⟨le_rfl, before, le_rfl⟩
  · simp [covered, UnaccountedInterval.range]

variable {cursor start finish boundsEnd : U64}

theorem LeftBy.cons {rest : List (Nat × Nat)} {gaps : List UnaccountedInterval}
    (before : cursor < start) (proper : start < finish) (inside : finish ≤ boundsEnd)
    (sorted : ∀ interval ∈ rest, start.val ≤ interval.1)
    (left : LeftBy (max cursor finish) boundsEnd rest gaps) :
    LeftBy cursor boundsEnd ((start.val, finish.val) :: rest)
      (⟨cursor, start, .unknown⟩ :: gaps) := by
  rw [Fin.lt_def] at before proper
  rw [Fin.le_def] at inside
  have later : ∀ gap ∈ gaps, start.val ≤ gap.startTsNs.val := by
    intro gap member
    have beyond := (left.proper gap member).1
    omega
  refine ⟨fun gap member => ?_, pairwise_cons.mpr ⟨later, left.apart⟩, fun instant => ?_⟩
  · rcases mem_cons.mp member with rfl | member
    · exact ⟨le_rfl, before, by dsimp only; omega⟩
    · obtain ⟨beyond, nonempty, within⟩ := left.proper gap member
      exact ⟨by omega, nonempty, within⟩
  · have after : instant ∈ covered rest → start.val ≤ instant := by
      intro member
      obtain ⟨interval, listed, early, -⟩ := mem_covered.mp member
      exact le_trans (sorted interval listed) early
    rw [List.map_cons, covered, covered, Finset.mem_union, Finset.mem_union, Finset.mem_Ico,
      Finset.mem_Ico, left.exact]
    dsimp only [UnaccountedInterval.range]
    by_cases held : instant ∈ covered rest
    · have := after held
      simp only [held, not_true_eq_false, and_false, or_false, or_true, iff_false]
      omega
    · simp only [held, not_false_eq_true, and_true, or_false]
      omega

variable {gaps : List UnaccountedInterval}

theorem LeftBy.skip {rest : List (Nat × Nat)} (covers : start ≤ cursor)
    (left : LeftBy (max cursor finish) boundsEnd rest gaps) :
    LeftBy cursor boundsEnd ((start.val, finish.val) :: rest) gaps := by
  rw [le_def] at covers
  refine ⟨fun gap member => ?_, left.apart, fun instant => ?_⟩
  · obtain ⟨beyond, within⟩ := left.proper gap member
    exact ⟨by omega, within⟩
  · rw [left.exact, covered, mem_union, mem_Ico]
    by_cases held : instant ∈ covered rest
    · simp [held]
    · simp only [held, not_false_eq_true, and_true, or_false]
      omega

theorem leftBy_uncoveredLoop {boundsEnd cursor : U64} {values : List (U64 × U64)}
    (sorted : values.Pairwise pairLe) (proper : ∀ value ∈ values, value.1 < value.2)
    (inside : ∀ value ∈ values, value.2 ≤ boundsEnd) :
    LeftBy cursor boundsEnd (instants values) (uncoveredLoop boundsEnd cursor values) := by
  induction values generalizing cursor with
  | nil =>
    unfold uncoveredLoop
    split
    · rename_i before
      exact .last before
    · rename_i reached
      rw [lt_def] at reached
      refine ⟨fun gap member => (by cases member), Pairwise.nil, fun instant => ?_⟩
      simp only [map_nil, covered, notMem_empty, false_iff]
      omega
  | cons value rest hypothesis =>
    obtain ⟨start, finish⟩ := value
    obtain ⟨first, sortedRest⟩ := pairwise_cons.mp sorted
    have left := @hypothesis (max cursor finish) sortedRest
      (fun value member => proper value (mem_cons_of_mem _ member))
      (fun value member => inside value (mem_cons_of_mem _ member))
    rw [coe_max] at left
    unfold uncoveredLoop
    split
    · rename_i before
      refine left.cons before (proper _ mem_cons_self) (inside _ mem_cons_self) ?_
      intro interval member
      obtain ⟨value, listed, rfl⟩ := mem_map.mp member
      exact (first value listed).starts
    · rename_i covers
      exact left.skip (not_lt.mp covers)

theorem leftBy_uncoveredIntervals (boundsStart boundsEnd : U64) (intervals : List (U64 × U64)) :
    LeftBy boundsStart boundsEnd (instants intervals)
      (uncoveredIntervals boundsStart boundsEnd intervals) := by
  let values := (intervals.map fun interval =>
    (max interval.1 boundsStart, min interval.2 boundsEnd)).filter fun interval =>
      interval.1 < interval.2
  have cut : ∀ value ∈ values.insertionSort pairLe, ∃ interval ∈ intervals,
      value = (max interval.1 boundsStart, min interval.2 boundsEnd) ∧ value.1 < value.2 := by
    intro value member
    rw [mem_insertionSort] at member
    obtain ⟨listed, nonempty⟩ := mem_filter.mp member
    obtain ⟨interval, source, rfl⟩ := mem_map.mp listed
    exact ⟨interval, source, rfl, of_decide_eq_true nonempty⟩
  have left : LeftBy boundsStart boundsEnd (instants (values.insertionSort pairLe))
      (uncoveredIntervals boundsStart boundsEnd intervals) := by
    refine leftBy_uncoveredLoop (pairwise_insertionSort pairLe _) ?_ ?_
    · intro value member
      obtain ⟨-, -, -, nonempty⟩ := cut value member
      exact nonempty
    · intro value member
      obtain ⟨interval, -, rfl, -⟩ := cut value member
      exact min_le_right _ _
  refine ⟨left.proper, left.apart, fun instant => ?_⟩
  rw [left.exact, mem_covered_instants, mem_covered_instants]
  refine and_congr_right fun after => and_congr_right fun before => not_congr ⟨?_, ?_⟩
  · rintro ⟨value, member, early, late⟩
    obtain ⟨interval, listed, rfl, -⟩ := cut value member
    rw [coe_max] at early
    rw [coe_min] at late
    exact ⟨interval, listed, by omega, by omega⟩
  · rintro ⟨interval, listed, early, late⟩
    refine ⟨(max interval.1 boundsStart, min interval.2 boundsEnd), ?_, ?_⟩
    · rw [mem_insertionSort]
      refine mem_filter.mpr ⟨mem_map_of_mem listed, decide_eq_true ?_⟩
      rw [lt_def, coe_max, coe_min]
      omega
    · rw [coe_max, coe_min]
      omega

theorem LeftBy.lengths {start finish : Nat} {intervals : List (Nat × Nat)}
    (left : LeftBy start finish intervals gaps) :
    (gaps.map fun gap => gap.endTsNs.val - gap.startTsNs.val).sum =
      (Finset.Ico start finish \ covered intervals).card := by
  have remaining : covered (gaps.map (·.range)) = Finset.Ico start finish \ covered intervals := by
    ext instant
    rw [left.exact, mem_sdiff, mem_Ico, and_assoc]
  have lengths := sum_lengths_eq_card (pairwise_map.mpr left.apart :
    (gaps.map (·.range)).Pairwise fun first second => first.2 ≤ second.1)
  rw [← remaining, ← lengths, List.map_map]
  rfl

namespace IoTransactionGraph

theorem metrics_divides {graph : IoTransactionGraph} {order : IterationOrder}
    {metrics : GraphMetrics} (computed : graph.metrics order = metrics) :
    metrics.accountedNs.val = (covered (instants graph.additiveIntervals)).card ∧
      metrics.totalNs.val = metrics.endTsNs.val - metrics.startTsNs.val ∧
      metrics.unaccountedNs.val = metrics.totalNs.val - metrics.accountedNs.val ∧
      metrics.unaccounted = uncoveredIntervals metrics.startTsNs metrics.endTsNs
        graph.additiveIntervals := by
  subst computed
  by_cases empty : graph.nodes = []
  · have default : graph.metrics order = .default := if_pos (by rw [empty]; rfl)
    have none : graph.additiveIntervals = [] := by
      unfold additiveIntervals
      rw [empty]
      rfl
    rw [default, none]
    exact ⟨rfl, rfl, rfl, rfl⟩
  · have within := unionDuration_le_total order empty
    rw [← unionDuration_val]
    unfold metrics at within ⊢
    rw [if_neg (by simpa using empty)] at within ⊢
    exact ⟨congrArg Fin.val (min_eq_left within), rfl, rfl, rfl⟩

/-- For every graph built by the two calls and every iteration order, the accounted and the
unaccounted time add up to the total time. -/
theorem metrics_partitions_time (transactionId : U64) (calls : List Call)
    (order : IterationOrder) :
    let graph := build transactionId calls
    let metrics := graph.metrics order
    metrics.accountedNs.val + metrics.unaccountedNs.val = metrics.totalNs.val ∧
      (metrics.unaccounted.Pairwise fun first second => first.endTsNs ≤ second.startTsNs) ∧
      (∀ gap ∈ metrics.unaccounted, metrics.startTsNs ≤ gap.startTsNs ∧
        gap.startTsNs < gap.endTsNs ∧ gap.endTsNs ≤ metrics.endTsNs) ∧
      (∀ gap ∈ metrics.unaccounted, ∀ node ∈ graph.nodes, node.additive →
        Disjoint (Finset.Ico gap.startTsNs.val gap.endTsNs.val)
          (Finset.Ico node.startTsNs.val node.endOrStart.val)) ∧
      (∀ instant, metrics.startTsNs.val ≤ instant → instant < metrics.endTsNs.val →
        (∃ gap ∈ metrics.unaccounted, gap.startTsNs.val ≤ instant ∧ instant < gap.endTsNs.val) ∨
        ∃ node ∈ graph.nodes, node.additive ∧
          node.startTsNs.val ≤ instant ∧ instant < node.endOrStart.val) ∧
      (metrics.unaccounted.map fun gap => gap.endTsNs.val - gap.startTsNs.val).sum =
        metrics.unaccountedNs.val := by
  intro graph metrics
  obtain ⟨accounted, total, unaccounted, gaps⟩ :=
    @metrics_divides graph order metrics rfl
  have inside := graph.covered_additive_subset order
  have left := leftBy_uncoveredIntervals metrics.startTsNs metrics.endTsNs graph.additiveIntervals
  rw [← gaps] at left
  have within : metrics.accountedNs.val ≤ metrics.totalNs.val := by
    rw [accounted, total, ← Nat.card_Ico]
    exact card_le_card inside
  refine ⟨by omega, left.apart, left.proper, ?_, ?_, ?_⟩
  · intro gap member node listed additive
    rw [Finset.disjoint_left]
    intro instant inGap inNode
    have held : instant ∈ covered (metrics.unaccounted.map (·.range)) :=
      mem_covered.mpr ⟨gap.range, mem_map_of_mem member, mem_Ico.mp inGap⟩
    refine ((left.exact instant).mp held).2.2 (mem_covered_instants.mpr
      ⟨(node.startTsNs, node.endOrStart), ?_, mem_Ico.mp inNode⟩)
    exact mem_map.mpr ⟨node, mem_filter.mpr ⟨listed, additive⟩, rfl⟩
  · intro instant after before
    by_cases held : instant ∈ covered (instants graph.additiveIntervals)
    · obtain ⟨interval, listed, own⟩ := mem_covered_instants.mp held
      obtain ⟨node, member, rfl⟩ := mem_map.mp listed
      obtain ⟨member, additive⟩ := mem_filter.mp member
      exact Or.inr ⟨node, member, additive, own⟩
    · obtain ⟨range, listed, own⟩ := mem_covered.mp ((left.exact instant).mpr ⟨after, before, held⟩)
      obtain ⟨gap, member, rfl⟩ := mem_map.mp listed
      exact Or.inl ⟨gap, member, own⟩
  · rw [left.lengths, card_sdiff_of_subset inside, Nat.card_Ico, ← accounted, ← total,
      ← unaccounted]

end IoTransactionGraph

end EbpfStudio
