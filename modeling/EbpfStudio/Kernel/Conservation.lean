/-
This file proves that the counters of a processor agree with each other.

A ledger is the list of updates that a processor has taken. Each probe adds updates that are
balanced: a completion comes with exactly one of a report and a suppression, and with one value for
each histogram. Counting the ledger gives the equations between the counters, which saturate only
after `2 ^ 64` completions.
-/

import EbpfStudio.Kernel.Counters
import EbpfStudio.Kernel.Isolation

namespace EbpfStudio

open Run AggregateCounter List KernelAggregate

/-- The updates of a processor in one generation. -/
structure Ledger where
  generation : U64 := 0
  updates : List AggregateUpdate := []

namespace Ledger

def take (ledger : Ledger) (generation : U64) (updates : List AggregateUpdate) : Ledger :=
  if updates.isEmpty then ledger
  else if ledger.generation = generation then
    { ledger with updates := ledger.updates ++ updates }
  else { generation := generation, updates := updates }

def aggregate (ledger : Ledger) : KernelAggregate :=
  ledger.updates.foldl (aggregateUpdate ledger.generation) { generation := ledger.generation }

variable (ledger : Ledger)

theorem generation_aggregate :
    ledger.aggregate.generation = ledger.generation := by
  unfold aggregate
  rcases eq_nil_or_concat ledger.updates with empty | ⟨earlier, last, split⟩
  · rw [empty]
    rfl
  · rw [split, concat_eq_append, foldl_append]
    exact generation_aggregateUpdate ..

theorem wellFormed_aggregate : ledger.aggregate.WellFormed :=
  (wellFormed_fresh _).foldl _ _

theorem foldl_aggregate (generation : U64) (updates : List AggregateUpdate) :
    updates.foldl (aggregateUpdate generation) ledger.aggregate =
      (ledger.take generation updates).aggregate := by
  unfold take
  cases updates with
  | nil => rfl
  | cons update rest =>
    rw [if_neg (by simp)]
    split
    · rename_i same
      subst same
      unfold aggregate
      rw [foldl_append]
    · rename_i other
      have restarts : aggregateMut generation ledger.aggregate = { generation := generation } :=
        if_pos (by rw [generation_aggregate]; exact other)
      have fresh : aggregateMut generation { generation := generation } =
          { generation := generation } := if_neg (not_not.mpr rfl)
      unfold aggregate at restarts ⊢
      rw [foldl_cons, foldl_cons, aggregateUpdate, aggregateUpdate, restarts, fresh]

variable (counter : AggregateCounter)

theorem read_aggregate (ledger : Ledger) :
    counter.read ledger.aggregate =
      (0 : U64).saturatingAdd (counter.amounts ledger.updates) := by
  have counted := counter.countIn_foldl (wellFormed_fresh ledger.generation)
    ledger.generation ledger.updates
  have fresh : counter.countIn ledger.generation { generation := ledger.generation } = 0 :=
    (if_pos rfl).trans (counter.read_fresh ledger.generation)
  have whole : counter.countIn ledger.generation ledger.aggregate =
      counter.read ledger.aggregate := if_pos ledger.generation_aggregate
  rw [fresh] at counted
  exact whole.symm.trans counted

theorem read_aggregate_of_lt {ledger : Ledger} (few : counter.amounts ledger.updates < 2 ^ 64) :
    (counter.read ledger.aggregate).val = counter.amounts ledger.updates := by
  have zero : (0 : U64).val = 0 := rfl
  rw [read_aggregate, Word.saturatingAdd_of_lt _ _ (by rw [zero]; omega), zero, Nat.zero_add]

end Ledger

/-- Updates that keep the counters in agreement. -/
structure Balanced (updates : List AggregateUpdate) : Prop where
  outcome : CounterName.detailEmitted.counter.amounts updates +
    CounterName.suppressedFast.counter.amounts updates =
      CounterName.observed.counter.amounts updates
  failed : CounterName.failed.counter.amounts updates ≤
    CounterName.observed.counter.amounts updates
  sampled : CounterName.sampled.counter.amounts updates ≤
    CounterName.detailEmitted.counter.amounts updates
  forcedError : CounterName.forcedError.counter.amounts updates ≤
    CounterName.detailEmitted.counter.amounts updates

theorem Balanced.append {first second : List AggregateUpdate} (balanced : Balanced first)
    (other : Balanced second) : Balanced (first ++ second) := by
  obtain ⟨outcome, failed, sampled, forcedError⟩ := balanced
  obtain ⟨outcome', failed', sampled', forcedError'⟩ := other
  refine ⟨?_, ?_, ?_, ?_⟩
  all_goals
    simp only [amounts_append]
    omega

theorem balanced_nil : Balanced [] := ⟨rfl, le_refl _, le_refl _, le_refl _⟩

theorem balanced_detail (tsNs : U64) (bytes : U32) (status : Int)
    (totalLatency queueLatency deviceLatency : U64) (sampled forcedError : Bool) :
    Balanced [.completion tsNs bytes status totalLatency queueLatency deviceLatency,
      .detail sampled forcedError] where
  outcome := rfl
  failed := Bool.toNat_le _
  sampled := (Nat.zero_add _).trans_le (Bool.toNat_le _)
  forcedError := (Nat.zero_add _).trans_le (Bool.toNat_le _)

theorem BlockKernel.Aside.balanced {updates : List AggregateUpdate} (aside : Aside updates) :
    Balanced updates := by
  induction updates with
  | nil => exact balanced_nil
  | cons update rest hypothesis =>
    have alone : Balanced [update] := by
      have apart := aside update mem_cons_self
      cases update with
      | completion => cases apart
      | detail => cases apart
      | suppressedFast => cases apart
      | _ => exact ⟨rfl, le_refl _, le_refl _, le_refl _⟩
    refine alone.append (hypothesis fun other member => ?_)
    exact aside other (mem_cons_of_mem _ member)

namespace BlockKernel

variable {cpus : Nat} (kernel : BlockKernel cpus)

theorem balanced_onComplete {probe : BlockProbe cpus} (completes : probe.decoded.kind = .complete) :
    Balanced (kernel.onComplete probe).updates := by
  rcases onComplete_cases kernel completes with ⟨-, updates, -⟩ | ⟨start, -, effect⟩
  · rw [updates]
    exact (aside_single rfl).balanced
  · rcases effect with ⟨updates, -⟩ | ⟨_, _, updates, -⟩
    · rw [updates]
      exact ⟨rfl, Bool.toNat_le _, le_refl _, le_refl _⟩
    · rw [updates]
      exact (balanced_detail ..).append (aside_submitEvents _ _).balanced

theorem balanced_processBlock (probe : BlockProbe cpus) :
    Balanced (kernel.processBlock probe).updates := by
  unfold processBlock
  cases kind : probe.decoded.kind with
  | insert => exact (aside_onInsert kernel probe).balanced
  | issue => exact (aside_onIssue kernel probe).balanced
  | complete => exact balanced_onComplete kernel kind

end BlockKernel

/-- A probe with the kernel that it finds. -/
structure ProbeRun (cpus : Nat) where
  kernel : BlockKernel cpus
  probe : BlockProbe cpus

section Runs

variable {cpus : Nat}

def ProbeRun.generation (probeRun : ProbeRun cpus) : U64 := probeRun.kernel.config.generation

def ProbeRun.updates (probeRun : ProbeRun cpus) : List AggregateUpdate :=
  (probeRun.kernel.processBlock probeRun.probe).updates

/-- The aggregate of a processor after probes that run on it. Between them the configuration and
the maps may have changed in any way. -/
def aggregateAfter (runs : List (ProbeRun cpus)) : KernelAggregate :=
  run (fun aggregate probeRun =>
    probeRun.updates.foldl (aggregateUpdate probeRun.generation) aggregate) {} runs

def ledgerAfter (runs : List (ProbeRun cpus)) : Ledger :=
  run (fun ledger probeRun => ledger.take probeRun.generation probeRun.updates) {} runs

variable (runs : List (ProbeRun cpus))

theorem aggregateAfter_eq :
    aggregateAfter runs = (ledgerAfter runs).aggregate := by
  have fresh : ({} : KernelAggregate) = Ledger.aggregate {} := rfl
  refine run_lockstep (fun _ (aggregate : KernelAggregate) (ledger : Ledger) =>
    aggregate = ledger.aggregate) fresh (fun history probeRun same => ?_) runs
  rw [same]
  exact Ledger.foldl_aggregate ..

theorem balanced_ledgerAfter :
    Balanced (ledgerAfter runs).updates := by
  refine run_induction (fun _ (ledger : Ledger) => Balanced ledger.updates) balanced_nil
    (fun history probeRun balanced => ?_) runs
  have probeBalanced := BlockKernel.balanced_processBlock probeRun.kernel probeRun.probe
  dsimp only [Ledger.take]
  split
  · exact balanced
  · split
    · exact balanced.append probeBalanced
    · exact probeBalanced

end Runs

/-- The counters of an aggregate agree. -/
structure KernelAggregate.Conserves (aggregate : KernelAggregate) : Prop where
  outcome : aggregate.counters.detailEmitted.val + aggregate.counters.suppressedFast.val =
    aggregate.counters.observed.val
  histograms : ∀ metric, ((aggregate.counts metric).map Fin.val).sum =
    aggregate.counters.observed.val
  failed : aggregate.counters.failed ≤ aggregate.counters.observed
  sampled : aggregate.counters.sampled ≤ aggregate.counters.detailEmitted
  forcedError : aggregate.counters.forcedError ≤ aggregate.counters.detailEmitted

theorem Ledger.conserves {ledger : Ledger} (balanced : Balanced ledger.updates)
    (few : ledger.updates.countP AggregateUpdate.isCompletion < 2 ^ 64) :
    ledger.aggregate.Conserves := by
  obtain ⟨outcome, failed, sampled, forcedError⟩ := balanced
  rw [← observed_amounts] at few
  -- Every counter of the account is at most the number of completions, so none is full.
  have exactly (name : CounterName) (most : name.counter.amounts ledger.updates ≤
      CounterName.observed.counter.amounts ledger.updates) :
      (name.field ledger.aggregate.counters).val = name.counter.amounts ledger.updates :=
    read_aggregate_of_lt name.counter (most.trans_lt few)
  have observedIs := exactly .observed (le_refl _)
  have failedIs := exactly .failed failed
  have detailIs := exactly .detailEmitted (by omega)
  have suppressedIs := exactly .suppressedFast (by omega)
  have sampledIs := exactly .sampled (by omega)
  have forcedIs := exactly .forcedError (by omega)
  unfold CounterName.field at observedIs failedIs detailIs suppressedIs sampledIs forcedIs
  dsimp only at observedIs failedIs detailIs suppressedIs sampledIs forcedIs
  refine ⟨by omega, fun metric => ?_, Fin.le_def.mpr (by omega), Fin.le_def.mpr (by omega),
    Fin.le_def.mpr (by omega)⟩
  rw [ledger.wellFormed_aggregate.sum_counts metric, observedIs,
    observed_amounts, ← sum_bucket_amounts metric]
  refine Finset.sum_congr rfl fun index _ => read_aggregate_of_lt _ ?_
  rw [observed_amounts] at few
  exact (bucket_amounts_le metric index _).trans_lt few

section Captures

variable {cpus : Nat}

def probesOn (collectorPid : U32) (sessionId : String) (cpu : Fin cpus)
    (steps : List (CaptureStep cpus)) : List (ProbeRun cpus) :=
  collect (Capture.step collectorPid sessionId) (fun capture step =>
    match step with
    | .probe probe => if probe.cpu = cpu then some ⟨capture.kernel, probe⟩ else none
    | _ => none) {} steps

/-- What a processor has counted in a run of the kernel is what the probes that ran on it count. -/
theorem aggregateAfter_probesOn (collectorPid : U32) (sessionId : String) (cpu : Fin cpus)
    (steps : List (CaptureStep cpus)) :
    aggregateAfter (probesOn collectorPid sessionId cpu steps) =
      (run (Capture.step collectorPid sessionId) {} steps).kernel.aggregates cpu := by
  refine run_induction (fun history (capture : Capture cpus) =>
    aggregateAfter (probesOn collectorPid sessionId cpu history) = capture.kernel.aggregates cpu)
    rfl (fun history step counted => ?_) steps
  unfold probesOn at counted ⊢
  rw [collect_snoc]
  generalize run (Capture.step collectorPid sessionId) {} history = capture at counted ⊢
  cases step with
  | apply config fails => exact (congrArg aggregateAfter (append_nil _)).trans counted
  | read => exact (congrArg aggregateAfter (append_nil _)).trans counted
  | probe probe =>
    dsimp only [Capture.step, BlockKernel.afterProbe]
    by_cases here : probe.cpu = cpu
    · subst here
      rw [if_pos rfl, Option.toList_some, aggregateAfter, run_snoc, Function.update_self]
      exact congrArg (foldl (aggregateUpdate capture.kernel.config.generation) ·
        (capture.kernel.processBlock probe).updates) counted
    · rw [if_neg here, Option.toList_none, append_nil, Function.update_of_ne (Ne.symm here)]
      exact counted

end Captures

/-- Whatever probes run on a processor, with any configurations, filters and maps that they find
and any failures, the completions that it has counted are those that it reported in detail and
those that it suppressed, and every histogram has counted each of them once. -/
theorem aggregate_conserves {cpus : Nat} (runs : List (ProbeRun cpus))
    (few : (ledgerAfter runs).updates.countP AggregateUpdate.isCompletion < 2 ^ 64) :
    (aggregateAfter runs).Conserves := by
  rw [aggregateAfter_eq]
  exact Ledger.conserves (balanced_ledgerAfter runs) few

/-- A request is issued and completes twice, and the configuration changes in between. -/
theorem aggregate_conserves_switched :
    let runs : List (ProbeRun 1) := probesOn 7 "s" 0
      [.probe (probeBy .issue 10 100), .probe (probeBy .complete 0 200),
        .apply (pidConfig 1 [10]) fun _ => false, .probe (probeBy .issue 10 300),
        .probe (probeBy .complete 0 400)]
    runs.length = 4 ∧ (aggregateAfter runs).counters.observed = 1 ∧
      (aggregateAfter runs).Conserves := by
  intro runs
  refine ⟨by decide +kernel, by decide +kernel, aggregate_conserves runs ?_⟩
  have one : (ledgerAfter runs).updates.countP AggregateUpdate.isCompletion = 1 := by
    decide +kernel
  rw [one]
  decide

end EbpfStudio
