/-
This file models the summary of an engine and proves that its parts add up.

The counters, the categories, the seconds and the histogram are each updated once for a recorded
request (`Accounts`). So their sums are the same number, up to those requests that have no time or
no latency.
-/

import EbpfStudio.Protocol.Queries
import EbpfStudio.Protocol.Totals

namespace EbpfStudio

open AnalysisEngine Run

structure CategorySummary where
  operation : IoOperation
  accessPattern : AccessPattern
  sizeClass : IoSizeClass
  completedIos : Nat
  bytes : Nat
  averageChunkBytes : Nat
  p50LatencyNs : Option U64
  p95LatencyNs : Option U64
  p99LatencyNs : Option U64
  deriving DecidableEq

structure AttributionSummary where
  exact : Nat := 0
  probable : Nat := 0
  probableAsync : Nat := 0
  unattributed : Nat := 0
  multiOrigin : Nat := 0
  deriving DecidableEq

/-- The counters of an engine, and what is computed from its collections when it is asked. -/
structure EngineSummary extends AnalysisSummary where
  p50LatencyNs : Option U64
  p95LatencyNs : Option U64
  p99LatencyNs : Option U64
  loggingNs : Option U64
  busyNs : Option U64
  idleNs : Option U64
  attribution : AttributionSummary
  categorySummaries : List CategorySummary

def CategoryKey.rank (key : CategoryKey) : Nat :=
  6 * key.1.ctorIdx + 2 * key.2.1.ctorIdx + key.2.2.ctorIdx

def summarizeCategory (key : CategoryKey) (category : MutableCategory) : CategorySummary :=
  let latencies := category.latencies.insertionSort (· ≤ ·)
  { operation := key.1
    accessPattern := key.2.1
    sizeClass := key.2.2
    completedIos := category.completedIos
    bytes := category.bytes
    averageChunkBytes := category.bytes / max category.completedIos 1
    p50LatencyNs := percentile latencies 50
    p95LatencyNs := percentile latencies 95
    p99LatencyNs := percentile latencies 99 }

namespace AnalysisEngine

def knownTimeSpanNs (engine : AnalysisEngine) : Option U64 := do
  let first ← engine.firstTsNs
  let last ← engine.lastTsNs
  some (last.saturatingSub first)

def categorySummaries (engine : AnalysisEngine) : List CategorySummary :=
  (engine.categories.toPairs.insertionSort fun first second =>
    CategoryKey.rank first.1 ≤ CategoryKey.rank second.1).map
      fun entry => summarizeCategory entry.1 entry.2

def loggingNs (engine : AnalysisEngine) : Option U64 :=
  engine.knownTimeSpanNs.filter fun _ => engine.summary.unplacedTimeIos = 0

def busyNs (engine : AnalysisEngine) : Option U64 :=
  if engine.summary.unmeasuredLatencyIos = 0 ∧ 0 < engine.summary.completedIos then
    engine.loggingNs.map fun span => min (unionDuration engine.busyIntervals) span
  else none

end AnalysisEngine

/-- One retained request, by the strongest confidence of its origins. Confidences of the same
rank are the same, so it does not matter which of several is taken. -/
def AttributionSummary.observe (attribution : AttributionSummary)
    (graph : IoTransactionGraph) : AttributionSummary :=
  match graph.nodes.find? fun node => node.kind = .blockRequest with
  | none => { attribution with unattributed := attribution.unattributed + 1 }
  | some request =>
    let origins := graph.fileOriginsFor request.nodeId
    let attribution := { attribution with
      multiOrigin := attribution.multiOrigin + if 1 < origins.length then 1 else 0 }
    match (origins.map (·.confidence)).argmax EdgeConfidence.rank with
    | some .exact => { attribution with exact := attribution.exact + 1 }
    | some .probable => { attribution with probable := attribution.probable + 1 }
    | some .probableAsync => { attribution with probableAsync := attribution.probableAsync + 1 }
    | some .contextOnly | none => { attribution with unattributed := attribution.unattributed + 1 }

namespace QueriedEngine

def completedAttribution (state : QueriedEngine) : QueriedEngine × AttributionSummary :=
  let graphs := state.transactionsFor state.engine.completed
  (graphs.1, graphs.2.foldl AttributionSummary.observe {})

def summary (state : QueriedEngine) : QueriedEngine × EngineSummary :=
  let engine := state.engine
  let latencies := engine.latenciesNs.insertionSort (· ≤ ·)
  let attributed := state.completedAttribution
  (attributed.1,
    { engine.summary with
      p50LatencyNs := percentile latencies 50
      p95LatencyNs := percentile latencies 95
      p99LatencyNs := percentile latencies 99
      loggingNs := engine.loggingNs
      busyNs := engine.busyNs
      idleNs := do
        let busy ← engine.busyNs
        let span ← engine.loggingNs
        some (span.saturatingSub busy)
      attribution := attributed.2
      categorySummaries := engine.categorySummaries })

end QueriedEngine

structure TimeBucket where
  second : U64
  completedIos : Nat
  bytes : Nat
  averageLatencyNs : Option Rat
  maxQueueDepth : Option Nat
  deriving DecidableEq

/-- The average is the exact quotient, where the source rounds to a floating-point number. -/
def TimeBucket.ofEntry (second : U64) (bucket : MutableBucket) : TimeBucket where
  second := second
  completedIos := bucket.completedIos
  bytes := bucket.bytes
  averageLatencyNs :=
    if 0 < bucket.latencySamples then some (bucket.latencySumNs / bucket.latencySamples) else none
  maxQueueDepth := bucket.maxQueueDepth

def AnalysisEngine.timeBuckets (engine : AnalysisEngine) : List TimeBucket :=
  (engine.buckets.toPairs.insertionSort fun first second => first.1 ≤ second.1).map
    fun entry => .ofEntry entry.1 entry.2

theorem sum_insertionSort_entries {Key Value Line : Type} (table : Table Key Value)
    (before : Key × Value → Key × Value → Prop) [DecidableRel before]
    (line : Key × Value → Line) (measure : Line → Nat) :
    (((table.toPairs.insertionSort before).map line).map measure).sum =
      (table.toPairs.map fun entry => measure (line entry)).sum := by
  rw [List.map_map]
  exact ((List.perm_insertionSort before table.toPairs).map (measure ∘ line)).sum_nat

namespace AnalysisEngine

variable (engine : AnalysisEngine)

theorem sum_categorySummaries_completedIos :
    (engine.categorySummaries.map (·.completedIos)).sum = engine.totals.categoryIos := by
  refine (sum_insertionSort_entries _ _ _ _).trans ?_
  simp [totals, Table.sum, Table.values, summarizeCategory, Function.comp_def]

theorem sum_categorySummaries_bytes :
    (engine.categorySummaries.map (·.bytes)).sum = engine.totals.categoryBytes := by
  refine (sum_insertionSort_entries _ _ _ _).trans ?_
  simp [totals, Table.sum, Table.values, summarizeCategory, Function.comp_def]

theorem sum_timeBuckets_completedIos :
    (engine.timeBuckets.map (·.completedIos)).sum = engine.totals.bucketIos := by
  refine (sum_insertionSort_entries _ _ _ _).trans ?_
  simp [totals, Table.sum, Table.values, TimeBucket.ofEntry, Function.comp_def]

theorem accounts_freshRetaining (retainAll : Bool) (correlationTtlNs : U64)
    (ttlPositive : 0 < correlationTtlNs) (completionWindow : Option (U64 × U64)) :
    Accounts [] (freshRetaining retainAll correlationTtlNs ttlPositive completionWindow).totals :=
  ⟨rfl, rfl, rfl, rfl, rfl, rfl, rfl, rfl, rfl⟩

end AnalysisEngine

/-- The summary of an engine after any events, and its lists of categories, seconds and
latencies, account for the same requests: those that were recorded. -/
theorem summary_adds_up (retainAll : Bool) (correlationTtlNs : U64)
    (ttlPositive : 0 < correlationTtlNs) (completionWindow : Option (U64 × U64))
    (events : List StorageEvent) (caches : QueriedEngine) :
    let start := freshRetaining retainAll correlationTtlNs ttlPositive completionWindow
    let engine := run step start events
    let summary := ({ caches with engine := engine } : QueriedEngine).summary.2
    summary.completedIos < 2 ^ 64 →
      (summary.categorySummaries.map (·.completedIos)).sum = summary.completedIos ∧
      (summary.categorySummaries.map (·.bytes)).sum =
        summary.readBytes + summary.writeBytes + summary.otherBytes ∧
      (engine.timeBuckets.map (·.completedIos)).sum + summary.unplacedTimeIos =
        summary.completedIos ∧
      engine.liveLatencyHistogram.totalCount.val = engine.latenciesNs.length ∧
      engine.latenciesNs.length + summary.unmeasuredLatencyIos = summary.completedIos ∧
      summary.completedIos = (start.recorded events).length ∧
      summary.unplacedTimeIos =
        (start.recorded events).countP (fun io => io.completionTimestamp.isNone) ∧
      summary.unmeasuredLatencyIos =
        (start.recorded events).countP fun io => io.totalLatencyNs.isNone := by
  intro start engine summary few
  have accounts : Accounts (start.recorded events) engine.totals :=
    accounts_run
      (accounts_freshRetaining retainAll correlationTtlNs ttlPositive completionWindow) events
  have completed : summary.completedIos = (start.recorded events).length := accounts.completed
  have bytes : summary.readBytes + summary.writeBytes + summary.otherBytes =
      ((start.recorded events).map fun io => io.issue.bytes.val).sum := accounts.bytes
  refine ⟨?_, ?_, ?_, accounts.totalCount (completed ▸ few), ?_, completed, accounts.unplaced,
    accounts.unmeasured⟩
  · rw [completed]
    exact engine.sum_categorySummaries_completedIos.trans accounts.categoryIos
  · rw [bytes]
    exact engine.sum_categorySummaries_bytes.trans accounts.categoryBytes
  · rw [sum_timeBuckets_completedIos, completed]
    exact accounts.bucketIos_add_unplaced
  · rw [completed]
    exact accounts.latencies_add_unmeasured

theorem summary_adds_up_reads :
    let events := [StorageEvent.blockIssue (readIssue 1000 7),
      .blockComplete (readComplete 2000 7), .observedBlockCompletion (readDone 1000 2000 8),
      .blockComplete (readComplete 3000 9)]
    let engine := run step (freshRetaining false 30_000_000_000 (by decide) none) events
    let summary := ({ engine := engine } : QueriedEngine).summary.2
    summary.completedIos = 2 ∧ summary.unmeasuredLatencyIos = 1 ∧
      (summary.categorySummaries.map (·.completedIos)).sum = summary.completedIos ∧
      engine.latenciesNs.length + summary.unmeasuredLatencyIos = summary.completedIos := by
  intro events engine summary
  have few : summary.completedIos < 2 ^ 64 := by decide +kernel
  obtain ⟨categories, -, -, -, latencies, -⟩ := summary_adds_up false 30_000_000_000 (by decide)
    none events { engine := engine } few
  exact ⟨by decide +kernel, by decide +kernel, categories, latencies⟩

end EbpfStudio
