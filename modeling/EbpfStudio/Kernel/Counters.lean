/-
This file proves what the counters of the aggregates count.

A counter is a word of the aggregate to which every update adds an amount. The words saturate, so a
counter is the sum of its amounts or the largest word, for one processor and, after merging, for all
of them. An `AggregateCounter` has its amount in every update and the laws of a counter as fields,
so that one lemma serves them all.
-/

import EbpfStudio.Kernel.Capture
import EbpfStudio.Library.Tally

namespace EbpfStudio

open Run Tally List Option Word Finset KernelAggregate

def KernelAggregate.counts (aggregate : KernelAggregate) : HistogramMetric → List U64
  | .totalLatency => aggregate.totalLatency
  | .queueLatency => aggregate.queueLatency
  | .deviceLatency => aggregate.deviceLatency
  | .ioSize => aggregate.ioSize

def AggregateUpdate.value? : AggregateUpdate → HistogramMetric → Option U64
  | .completion _ _ _ totalLatency _ _, .totalLatency => some totalLatency
  | .completion _ _ _ _ queueLatency _, .queueLatency => some queueLatency
  | .completion _ _ _ _ _ deviceLatency, .deviceLatency => some deviceLatency
  | .completion _ bytes _ _ _ _, .ioSize => some (widen bytes)
  | _, _ => none

theorem AggregateUpdate.isSome_value? (update : AggregateUpdate) (metric : HistogramMetric) :
    (update.value? metric).isSome = update.isCompletion := by
  cases update <;> cases metric <;> rfl

theorem histogramIndex_lt (value : U64) : histogramIndex value < histogramBuckets := by
  unfold histogramIndex histogramBuckets
  omega

namespace KernelAggregate

variable {aggregate merged value : KernelAggregate}

def WellFormed (aggregate : KernelAggregate) : Prop :=
  ∀ metric, (aggregate.counts metric).length = histogramBuckets

variable (generation : U64)

theorem wellFormed_fresh :
    WellFormed { generation := generation } := by
  intro metric
  cases metric <;> exact length_replicate

section

variable (update : AggregateUpdate) (aggregate : KernelAggregate)

theorem counts_onto (metric : HistogramMetric) :
    (update.onto aggregate).counts metric =
      (update.value? metric).elim (aggregate.counts metric) (bump (aggregate.counts metric)) := by
  cases update <;> cases metric <;> rfl

theorem counters_onto : (update.onto aggregate).counters = update.count aggregate.counters := by
  cases update <;> rfl

theorem generation_onto : (update.onto aggregate).generation = aggregate.generation := by
  cases update <;> rfl

end

theorem generation_aggregateMut (aggregate : KernelAggregate) :
    (aggregateMut generation aggregate).generation = generation := by
  unfold aggregateMut
  split
  · rfl
  · rename_i same
    exact not_not.mp same

theorem generation_aggregateUpdate (aggregate : KernelAggregate) (update : AggregateUpdate) :
    (aggregateUpdate generation aggregate update).generation = generation :=
  (generation_onto update _).trans (generation_aggregateMut generation aggregate)

theorem generation_mergeAggregate (merged value : KernelAggregate) :
    (mergeAggregate merged value).generation = merged.generation := by
  unfold mergeAggregate
  split <;> rfl

theorem counts_mergeAggregate (same : value.generation = merged.generation)
    (metric : HistogramMetric) :
    (mergeAggregate merged value).counts metric =
      addCounts (merged.counts metric) (value.counts metric) := by
  unfold mergeAggregate
  rw [if_neg (not_not.mpr same)]
  cases metric <;> rfl

theorem WellFormed.onto (wellFormed : aggregate.WellFormed) (update : AggregateUpdate) :
    (update.onto aggregate).WellFormed := by
  intro metric
  rw [counts_onto]
  cases update.value? metric with
  | none => exact wellFormed metric
  | some value => exact (length_modify ..).trans (wellFormed metric)

section

variable (wellFormed : aggregate.WellFormed) (generation : U64)

include wellFormed

theorem WellFormed.restart : (aggregateMut generation aggregate).WellFormed := by
  unfold aggregateMut
  split
  · exact wellFormed_fresh generation
  · exact wellFormed

theorem WellFormed.update (update : AggregateUpdate) :
    (aggregateUpdate generation aggregate update).WellFormed :=
  (wellFormed.restart generation).onto update

theorem WellFormed.foldl (updates : List AggregateUpdate) :
    (updates.foldl (aggregateUpdate generation) aggregate).WellFormed := by
  induction updates generalizing aggregate with
  | nil => exact wellFormed
  | cons update rest hypothesis =>
    exact hypothesis (wellFormed.update generation update)

end

theorem WellFormed.merge (wellFormed : merged.WellFormed) (other : value.WellFormed) :
    (mergeAggregate merged value).WellFormed := by
  by_cases same : value.generation = merged.generation
  · intro metric
    rw [counts_mergeAggregate same]
    unfold addCounts
    rw [length_zipWith, wellFormed metric, other metric]
    exact min_self _
  · unfold mergeAggregate
    rw [if_pos same]
    exact wellFormed

end KernelAggregate

structure AggregateCounter where
  read : KernelAggregate → U64
  amount : AggregateUpdate → Nat
  read_fresh : ∀ generation, read { generation := generation } = 0
  read_onto : ∀ update aggregate, aggregate.WellFormed →
    read (update.onto aggregate) = (read aggregate).saturatingAdd (amount update)
  read_merge : ∀ merged value, merged.WellFormed → value.WellFormed →
    value.generation = merged.generation →
    read (mergeAggregate merged value) = (read merged).saturatingAdd (read value).val

inductive CounterName where
  | observed | bytes | failed | filterPassed | filterSuppressed | detailEmitted | suppressedFast
  | sampled | forcedError | ringReserveFailures | mapInsertFailures | expired | keyReused

namespace CounterName

def field : CounterName → AggregateCounters → U64
  | observed => (·.observed)
  | bytes => (·.bytes)
  | failed => (·.failed)
  | filterPassed => (·.filterPassed)
  | filterSuppressed => (·.filterSuppressed)
  | detailEmitted => (·.detailEmitted)
  | suppressedFast => (·.suppressedFast)
  | sampled => (·.sampled)
  | forcedError => (·.forcedError)
  | ringReserveFailures => (·.ringReserveFailures)
  | mapInsertFailures => (·.mapInsertFailures)
  | expired => (·.expired)
  | keyReused => (·.keyReused)

def amount : CounterName → AggregateUpdate → Nat
  | observed, .completion .. => 1
  | bytes, .completion _ size _ _ _ _ => size.val
  | failed, .completion _ _ status _ _ _ => (decide (status ≠ 0)).toNat
  | filterPassed, .filterPassed => 1
  | filterSuppressed, .filterSuppressed => 1
  | detailEmitted, .detail _ _ => 1
  | suppressedFast, .suppressedFast => 1
  | sampled, .detail isSampled _ => isSampled.toNat
  | forcedError, .detail _ isForced => isForced.toNat
  | ringReserveFailures, .reserveFailure => 1
  | mapInsertFailures, .mapFailure => 1
  | expired, .expired => 1
  | keyReused, .keyReused => 1
  | _, _ => 0

theorem field_count (name : CounterName) (update : AggregateUpdate)
    (counters : AggregateCounters) :
    name.field (update.count counters) =
      (name.field counters).saturatingAdd (name.amount update) := by
  cases name <;> cases update <;> first | rfl | exact (saturatingAdd_zero _).symm

def counter (name : CounterName) : AggregateCounter where
  read := fun aggregate => name.field aggregate.counters
  amount := name.amount
  read_fresh := fun _ => by cases name <;> rfl
  read_onto := by
    intro update aggregate _
    rw [KernelAggregate.counters_onto, field_count]
  read_merge := by
    intro merged value _ _ same
    unfold mergeAggregate
    rw [if_neg (not_not.mpr same)]
    cases name <;> rfl

end CounterName

theorem getD_bump {counts : List U64} {index : Nat} (within : index < counts.length)
    (value : U64) :
    (bump counts value).getD index 0 =
      (counts.getD index 0).saturatingAdd (if histogramIndex value = index then 1 else 0) := by
  unfold bump
  rw [getD_eq_getElem?_getD, getD_eq_getElem?_getD, getElem?_modify,
    getElem?_eq_getElem within]
  by_cases here : histogramIndex value = index
  · simp [here]
  · simp [here, saturatingAdd_zero]

theorem getD_addCounts {first second : List U64} {index : Nat} (within : index < first.length)
    (same : first.length = second.length) :
    (addCounts first second).getD index 0 =
      (first.getD index 0).saturatingAdd (second.getD index 0).val := by
  unfold addCounts
  rw [getD_eq_getElem?_getD, getD_eq_getElem?_getD, getD_eq_getElem?_getD,
    getElem?_zipWith, getElem?_eq_getElem within,
    getElem?_eq_getElem (same ▸ within)]
  rfl

namespace AggregateCounter

def bucket (metric : HistogramMetric) (index : Fin histogramBuckets) : AggregateCounter where
  read := fun aggregate => (aggregate.counts metric).getD index.val 0
  amount := fun update =>
    (update.value? metric).elim 0 fun value => if histogramIndex value = index then 1 else 0
  read_fresh := by
    intro generation
    have zeros : ({ generation := generation } : KernelAggregate).counts metric =
        List.replicate histogramBuckets 0 := by cases metric <;> rfl
    rw [zeros, List.getD_eq_getElem?_getD, List.getElem?_replicate, if_pos index.isLt]
    rfl
  read_onto := by
    intro update aggregate wellFormed
    rw [KernelAggregate.counts_onto]
    cases update.value? metric with
    | none => exact (Word.saturatingAdd_zero _).symm
    | some value => exact getD_bump ((wellFormed metric).symm ▸ index.isLt) value
  read_merge := by
    intro merged value wellFormed other same
    rw [KernelAggregate.counts_mergeAggregate same]
    exact getD_addCounts ((wellFormed metric).symm ▸ index.isLt)
      ((wellFormed metric).trans (other metric).symm)

variable (counter : AggregateCounter)

def amounts (updates : List AggregateUpdate) : Nat := (updates.map counter.amount).sum

theorem amounts_append (first second : List AggregateUpdate) :
    counter.amounts (first ++ second) = counter.amounts first + counter.amounts second := by
  unfold amounts
  rw [map_append, sum_append]

def countIn (generation : U64) (aggregate : KernelAggregate) : U64 :=
  if aggregate.generation = generation then counter.read aggregate else 0

theorem read_aggregateMut (generation : U64) (aggregate : KernelAggregate) :
    counter.read (aggregateMut generation aggregate) = counter.countIn generation aggregate := by
  unfold aggregateMut countIn
  by_cases same : aggregate.generation = generation
  · rw [if_neg (not_not.mpr same), if_pos same]
  · rw [if_pos same, if_neg same, counter.read_fresh]

theorem countIn_aggregateUpdate {aggregate : KernelAggregate} (wellFormed : aggregate.WellFormed)
    (generation : U64) (update : AggregateUpdate) :
    counter.countIn generation (aggregateUpdate generation aggregate update) =
      (counter.countIn generation aggregate).saturatingAdd (counter.amount update) := by
  rw [countIn, if_pos (generation_aggregateUpdate ..), aggregateUpdate,
    counter.read_onto _ _ (wellFormed.restart generation), read_aggregateMut]

theorem countIn_foldl {aggregate : KernelAggregate} (wellFormed : aggregate.WellFormed)
    (generation : U64) (updates : List AggregateUpdate) :
    counter.countIn generation (updates.foldl (aggregateUpdate generation) aggregate) =
      (counter.countIn generation aggregate).saturatingAdd (counter.amounts updates) := by
  induction updates generalizing aggregate with
  | nil => exact (saturatingAdd_zero _).symm
  | cons update rest hypothesis =>
    rw [foldl_cons, hypothesis (wellFormed.update generation update),
      countIn_aggregateUpdate counter wellFormed, saturatingAdd_saturatingAdd]
    rfl

theorem read_mergeAggregate {merged value : KernelAggregate} (wellFormed : merged.WellFormed)
    (other : value.WellFormed) :
    counter.read (mergeAggregate merged value) =
      (counter.read merged).saturatingAdd (counter.countIn merged.generation value).val := by
  unfold countIn
  by_cases same : value.generation = merged.generation
  · rw [if_pos same]
    exact counter.read_merge merged value wellFormed other same
  · unfold mergeAggregate
    rw [if_pos same, if_neg same]
    exact (saturatingAdd_zero _).symm

theorem read_foldl_merge {merged : KernelAggregate} (wellFormed : merged.WellFormed)
    {values : List KernelAggregate} (others : ∀ value ∈ values, value.WellFormed) :
    counter.read (values.foldl mergeAggregate merged) =
      (counter.read merged).saturatingAdd
        (values.map fun value => (counter.countIn merged.generation value).val).sum := by
  induction values generalizing merged with
  | nil => exact (saturatingAdd_zero _).symm
  | cons value rest hypothesis =>
    have here := others value mem_cons_self
    rw [foldl_cons, hypothesis (wellFormed.merge here)
      fun other member => others other (mem_cons_of_mem value member),
      generation_mergeAggregate, counter.read_mergeAggregate wellFormed here,
      saturatingAdd_saturatingAdd]
    rfl

theorem sum_bucket_amounts (metric : HistogramMetric) (updates : List AggregateUpdate) :
    ∑ index, (bucket metric index).amounts updates =
      updates.countP AggregateUpdate.isCompletion := by
  induction updates with
  | nil => exact sum_eq_zero fun _ _ => rfl
  | cons update rest hypothesis =>
    have split (index : Fin histogramBuckets) : (bucket metric index).amounts (update :: rest) =
        (bucket metric index).amount update + (bucket metric index).amounts rest :=
      sum_cons
    have one : ∑ index, (bucket metric index).amount update =
        if update.isCompletion = true then 1 else 0 := by
      rw [← update.isSome_value? metric]
      unfold bucket
      dsimp only
      cases update.value? metric with
      | none => exact sum_eq_zero fun _ _ => rfl
      | some value =>
        have place (index : Fin histogramBuckets) : histogramIndex value = index ↔
            (⟨histogramIndex value, histogramIndex_lt value⟩ : Fin histogramBuckets) = index := by
          rw [Fin.ext_iff]
        simp only [elim_some, place, sum_ite_eq, mem_univ, if_true,
          isSome_some]
    rw [sum_congr rfl fun index _ => split index, sum_add_distrib, one,
      hypothesis, countP_cons, Nat.add_comm]

theorem bucket_amounts_le (metric : HistogramMetric) (index : Fin histogramBuckets)
    (updates : List AggregateUpdate) :
    (bucket metric index).amounts updates ≤ updates.countP AggregateUpdate.isCompletion := by
  rw [← sum_bucket_amounts metric]
  exact single_le_sum_of_canonicallyOrdered
    (f := fun index => (bucket metric index).amounts updates) (mem_univ index)

theorem observed_amounts (updates : List AggregateUpdate) :
    CounterName.observed.counter.amounts updates =
      updates.countP AggregateUpdate.isCompletion := by
  induction updates with
  | nil => rfl
  | cons update rest hypothesis =>
    have split : CounterName.observed.counter.amounts (update :: rest) =
        CounterName.observed.amount update + CounterName.observed.counter.amounts rest :=
      sum_cons
    rw [split, hypothesis, countP_cons, Nat.add_comm]
    cases update <;> rfl

end AggregateCounter

theorem KernelAggregate.WellFormed.sum_counts {aggregate : KernelAggregate}
    (wellFormed : aggregate.WellFormed) (metric : HistogramMetric) :
    ((aggregate.counts metric).map Fin.val).sum =
      ∑ index, ((AggregateCounter.bucket metric index).read aggregate).val := by
  have listed : (aggregate.counts metric).map Fin.val = ofFn fun index =>
      ((AggregateCounter.bucket metric index).read aggregate).val := by
    refine ext_getElem ?_ fun place here _ => ?_
    · rw [length_map, length_ofFn]
      exact wellFormed metric
    · rw [List.length_map] at here
      rw [List.getElem_map, List.getElem_ofFn]
      unfold AggregateCounter.bucket
      dsimp only
      rw [getD_eq_getElem?_getD, getElem?_eq_getElem here, getD_some]
  rw [listed, sum_ofFn]

namespace BlockKernel

variable {cpus : Nat} {kernel : BlockKernel cpus}

def WellFormed (kernel : BlockKernel cpus) : Prop :=
  ∀ cpu, (kernel.aggregates cpu).WellFormed

theorem WellFormed.afterProbe (wellFormed : kernel.WellFormed) (probe : BlockProbe cpus) :
    (kernel.afterProbe probe).WellFormed := by
  intro cpu
  unfold BlockKernel.afterProbe
  dsimp only
  by_cases same : cpu = probe.cpu
  · subst same
    rw [Function.update_self]
    exact (wellFormed probe.cpu).foldl _ _
  · rw [Function.update_of_ne same]
    exact wellFormed cpu

def countIn (kernel : BlockKernel cpus) (counter : AggregateCounter) (generation : U64) : Nat :=
  ∑ cpu, (counter.countIn generation (kernel.aggregates cpu)).val

theorem countIn_afterProbe (wellFormed : kernel.WellFormed) (counter : AggregateCounter)
    {probe : BlockProbe cpus}
    (few : kernel.countIn counter kernel.config.generation +
      counter.amounts (kernel.processBlock probe).updates < 2 ^ 64) :
    (kernel.afterProbe probe).countIn counter kernel.config.generation =
      kernel.countIn counter kernel.config.generation +
        counter.amounts (kernel.processBlock probe).updates := by
  have part : (counter.countIn kernel.config.generation (kernel.aggregates probe.cpu)).val ≤
      kernel.countIn counter kernel.config.generation :=
    single_le_sum_of_canonicallyOrdered (f := fun cpu =>
      (counter.countIn kernel.config.generation (kernel.aggregates cpu)).val)
      (mem_univ probe.cpu)
  have changed : (counter.countIn kernel.config.generation
      ((kernel.afterProbe probe).aggregates probe.cpu)).val =
        (counter.countIn kernel.config.generation (kernel.aggregates probe.cpu)).val +
          counter.amounts (kernel.processBlock probe).updates := by
    unfold afterProbe
    dsimp only
    rw [Function.update_self, counter.countIn_foldl (wellFormed probe.cpu)]
    exact saturatingAdd_of_lt _ _ (by omega)
  have sums : (kernel.afterProbe probe).countIn counter kernel.config.generation +
      (counter.countIn kernel.config.generation (kernel.aggregates probe.cpu)).val =
        kernel.countIn counter kernel.config.generation +
          (counter.countIn kernel.config.generation
            ((kernel.afterProbe probe).aggregates probe.cpu)).val := by
    refine sum_add_eq_of_agree (f := fun cpu =>
      (counter.countIn kernel.config.generation (kernel.aggregates cpu)).val) (g := fun cpu =>
      (counter.countIn kernel.config.generation ((kernel.afterProbe probe).aggregates cpu)).val)
      (mem_univ probe.cpu) fun cpu other => ?_
    unfold afterProbe
    dsimp only
    rw [Function.update_of_ne other]
  omega

def merged (kernel : BlockKernel cpus) (generation : U64) : KernelAggregate :=
  (List.ofFn kernel.aggregates).foldl mergeAggregate { generation := generation }

theorem WellFormed.merged (wellFormed : kernel.WellFormed) (generation : U64) :
    (kernel.merged generation).WellFormed := by
  have all : ∀ value ∈ ofFn kernel.aggregates, value.WellFormed := by
    intro value member
    obtain ⟨cpu, rfl⟩ := mem_ofFn.mp member
    exact wellFormed cpu
  unfold BlockKernel.merged
  generalize ofFn kernel.aggregates = values at all ⊢
  have fresh := wellFormed_fresh generation
  generalize ({ generation := generation } : KernelAggregate) = merged at fresh ⊢
  induction values generalizing merged with
  | nil => exact fresh
  | cons value rest hypothesis =>
    exact hypothesis (fun other member => all other (mem_cons_of_mem value member))
      _ (fresh.merge (all value mem_cons_self))

theorem read_merged (wellFormed : kernel.WellFormed) (counter : AggregateCounter)
    {generation : U64} (few : kernel.countIn counter generation < 2 ^ 64) :
    (counter.read (kernel.merged generation)).val = kernel.countIn counter generation := by
  have listed : ((ofFn kernel.aggregates).map
      fun value => (counter.countIn generation value).val).sum =
        kernel.countIn counter generation := by
    rw [map_ofFn, sum_ofFn]
    rfl
  unfold merged
  rw [counter.read_foldl_merge (wellFormed_fresh generation) ?_,
    counter.read_fresh]
  · show ((0 : U64).saturatingAdd ((ofFn kernel.aggregates).map
      fun value => (counter.countIn generation value).val).sum).val = _
    have zero : (0 : U64).val = 0 := rfl
    rw [listed, saturatingAdd_of_lt _ _ (by rw [zero]; omega), zero, Nat.zero_add]
  · intro value member
    obtain ⟨cpu, rfl⟩ := mem_ofFn.mp member
    exact wellFormed cpu

end BlockKernel

theorem wellFormed_run {cpus : Nat} (collectorPid : U32) (sessionId : String)
    (history : List (CaptureStep cpus)) :
    (run (Capture.step collectorPid sessionId) {} history).kernel.WellFormed := by
  refine run_induction (fun _ (capture : Capture cpus) => capture.kernel.WellFormed) ?_ ?_ history
  · exact fun _ => wellFormed_fresh 0
  · intro history step wellFormed
    cases step with
    | apply config fails => exact wellFormed
    | probe probe => exact wellFormed.afterProbe probe
    | read => exact wellFormed

end EbpfStudio
