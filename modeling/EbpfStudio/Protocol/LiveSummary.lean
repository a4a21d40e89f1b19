/-
This file models the summary for live rendering and compares its times with those of the final
summary.

The live summary has no list of requests: it keeps books of what it recorded (`Books`), among them a
list of busy intervals. The final summary measures the union of the intervals of all retained
requests. Both are the number of instants at which a request was in flight.
-/

import EbpfStudio.Protocol.BusyTime
import EbpfStudio.Protocol.Summary

namespace EbpfStudio

open AnalysisEngine Coverage Run List Option

def histogramPercentileUpper (histogram : Histogram) (percentile : U8) : Option U64 :=
  (histogram.percentileRange percentile).map fun range => range.2.getD range.1

def summarizeLiveCategory (key : CategoryKey) (category : MutableCategory) : CategorySummary where
  operation := key.1
  accessPattern := key.2.1
  sizeClass := key.2.2
  completedIos := category.completedIos
  bytes := category.bytes
  averageChunkBytes := category.bytes / max category.completedIos 1
  p50LatencyNs := histogramPercentileUpper category.histogram 50
  p95LatencyNs := histogramPercentileUpper category.histogram 95
  p99LatencyNs := histogramPercentileUpper category.histogram 99

namespace AnalysisEngine

def liveCategorySummaries (engine : AnalysisEngine) : List CategorySummary :=
  (engine.categories.toPairs.insertionSort fun first second =>
    CategoryKey.rank first.1 ≤ CategoryKey.rank second.1).map
      fun entry => summarizeLiveCategory entry.1 entry.2

def liveBusyNs (engine : AnalysisEngine) : Option U64 :=
  if engine.summary.unmeasuredLatencyIos = 0 ∧ 0 < engine.summary.completedIos then
    engine.loggingNs.map fun span => min (Word.ofNat 64 (engine.busyIntervals.map
      fun interval => (interval.2.saturatingSub interval.1).val).sum) span
  else none

def liveSummary (engine : AnalysisEngine) : EngineSummary :=
  { engine.summary with
    p50LatencyNs := histogramPercentileUpper engine.liveLatencyHistogram 50
    p95LatencyNs := histogramPercentileUpper engine.liveLatencyHistogram 95
    p99LatencyNs := histogramPercentileUpper engine.liveLatencyHistogram 99
    loggingNs := engine.loggingNs
    busyNs := engine.liveBusyNs
    idleNs := do
      let busy ← engine.liveBusyNs
      let span ← engine.loggingNs
      some (span.saturatingSub busy)
    attribution := {}
    categorySummaries := engine.liveCategorySummaries }

/-- The interval in which a request was measured, where it has a latency and both times. -/
def measuredInterval (io : CompletedIo) : Option (U64 × U64) := do
  let _ ← io.totalLatencyNs
  let start ← io.startTimestamp
  let finish ← io.completionTimestamp
  some (start, finish)

structure Books where
  busyIntervals : List (U64 × U64)
  categories : Table CategoryKey MutableCategory

def books (engine : AnalysisEngine) : Books where
  busyIntervals := engine.busyIntervals
  categories := engine.categories

def categoryKey (io : CompletedIo) : CategoryKey :=
  (io.issue.operation, io.accessPattern, io.sizeClass)

def recordIn (io : CompletedIo) (category : MutableCategory) : MutableCategory where
  completedIos := category.completedIos + 1
  bytes := category.bytes + io.issue.bytes
  latencies := category.latencies ++ io.totalLatencyNs.toList
  histogram := io.totalLatencyNs.elim category.histogram category.histogram.record

def Books.record (books : Books) (io : CompletedIo) : Books where
  busyIntervals :=
    (measuredInterval io).elim books.busyIntervals (mergeInterval books.busyIntervals)
  categories := books.categories.alter (categoryKey io) {} (recordIn io)

section Books

variable (engine : AnalysisEngine) (io : CompletedIo)

@[simp] theorem books_withSummary (summary : AnalysisSummary) :
    (engine.withSummary summary).books = engine.books := rfl

@[simp] theorem books_countFile (file : FileIo) : (engine.countFile file).books = engine.books :=
  rfl

@[simp] theorem books_observeRequestTime : (engine.observeRequestTime io).books = engine.books := by
  unfold observeRequestTime
  split <;> rfl

@[simp] theorem books_recordDepth : (engine.recordDepth io).books = engine.books := by
  unfold recordDepth
  split
  · rfl
  · dsimp only
    split <;> rfl

@[simp] theorem books_recordBucket : (engine.recordBucket io).books = engine.books := by
  unfold recordBucket
  split <;> rfl

@[simp] theorem books_recordLatency :
    (engine.recordLatency io).books =
      { engine.books with
        busyIntervals := (measuredInterval io).elim engine.books.busyIntervals
          (mergeInterval engine.books.busyIntervals) } := by
  unfold recordLatency measuredInterval
  cases io.totalLatencyNs with
  | none => rfl
  | some latency =>
    cases io.startTimestamp with
    | none => rfl
    | some start => cases io.completionTimestamp <;> rfl

theorem books_recordCategory :
    (engine.recordCategory io).books =
      { engine.books with
        categories := engine.books.categories.alter (categoryKey io) {} (recordIn io) } := rfl

theorem books_recordCompleted : (engine.recordCompleted io).books = engine.books.record io := by
  simp only [recordCompleted, books_recordCategory, books_recordBucket, books_recordLatency,
    books_withSummary, books_recordDepth]
  rfl

theorem books_acceptCompleted :
    (engine.acceptCompleted io).books =
      if inWindow engine.completionWindow io.completion.tsNs then engine.books.record io
      else engine.books := by
  rw [acceptCompleted, apply_ite books]
  exact if_congr Iff.rfl (books_recordCompleted (engine.rememberCompletion io) io) rfl

theorem books_ingestBlockComplete (completion : BlockComplete) :
    (engine.ingestBlockComplete completion).1.books =
      (engine.accepted (.blockComplete completion)).elim engine.books engine.books.record := by
  unfold accepted answered
  dsimp only
  rw [ingestBlockComplete_fst]
  cases (engine.correlator.onComplete completion).2 with
  | none => rfl
  | some io =>
    rw [elim_some, books_acceptCompleted, filter_some, apply_ite (Option.elim · _ _)]
    rfl

theorem books_ingestObservedBlockCompletion :
    (engine.ingestObservedBlockCompletion io).books =
      (engine.projected (.observedBlockCompletion io)).elim engine.books engine.books.record := by
  have counted : (engine.countObserved io).books = engine.books :=
    engine.books_observeRequestTime io
  have sameWindow : (engine.countObserved io).completionWindow = engine.completionWindow :=
    congrArg Evidence.completionWindow (engine.evidence_countObserved io)
  unfold ingestObservedBlockCompletion projected
  dsimp only
  rw [sameWindow]
  split
  · exact (books_recordCompleted _ io).trans (congrArg (Books.record · io) counted)
  · exact counted

end Books

theorem books_step (engine : AnalysisEngine) (event : StorageEvent) :
    (engine.step event).books =
      (engine.kept event).elim engine.books engine.books.record := by
  cases event with
  | schedulerIoWait wait =>
    show (engine.ingestSchedulerIoWait wait).books = _
    unfold ingestSchedulerIoWait
    dsimp only
    split
    · split <;> rfl
    · rfl
  | blockComplete completion =>
    rw [show engine.kept (.blockComplete completion) =
      engine.accepted (.blockComplete completion) from or_none]
    exact engine.books_ingestBlockComplete completion
  | observedBlockCompletion io => exact engine.books_ingestObservedBlockCompletion io
  | pipeline observation =>
    show (engine.clocked observation).books = engine.books
    unfold clocked
    cases observation.endTsNs <;> rfl
  | fileIo file => exact engine.books_countFile file
  | blockInsert _ | blockIssue _ | requestOrigin _ | node _ | edge _ => rfl

theorem books_run_induction {start : AnalysisEngine} (holds : List CompletedIo → Books → Prop)
    (initial : holds [] start.books)
    (recorded : ∀ ios io books, holds ios books → holds (ios ++ [io]) (books.record io))
    (events : List StorageEvent) :
    holds (start.recorded events) (run step start events).books := by
  refine run_induction (fun history (engine : AnalysisEngine) =>
    holds (start.recorded history) engine.books) initial (fun history event known => ?_) events
  rw [books_step, AnalysisEngine.recorded, collect_snoc]
  cases (run step start history).kept event with
  | none =>
    rw [toList_none, append_nil]
    exact known
  | some io => exact recorded _ io _ known

/-- The busy intervals after some requests: spaced, and covering what was measured. -/
structure Books.Busy (ios : List CompletedIo) (books : Books) : Prop where
  spaced : Spaced books.busyIntervals
  covers : covered (instants books.busyIntervals) =
    covered (instants (ios.filterMap measuredInterval))

variable {ios : List CompletedIo}

theorem Books.Busy.record {books : Books} (busy : Books.Busy ios books) (io : CompletedIo) :
    Books.Busy (ios ++ [io]) (books.record io) := by
  cases measured : measuredInterval io with
  | none =>
    have same : (books.record io).busyIntervals = books.busyIntervals := by
      rw [Books.record, measured, elim_none]
    refine ⟨same ▸ busy.spaced, ?_⟩
    rw [same, filterMap_snoc, measured, toList_none, append_nil]
    exact busy.covers
  | some interval =>
    have merged : (books.record io).busyIntervals =
        mergeInterval books.busyIntervals interval := by
      rw [Books.record, measured, elim_some]
    refine ⟨merged ▸ busy.spaced.mergeInterval interval, ?_⟩
    rw [merged, busy.spaced.covered_mergeInterval, busy.covers, filterMap_snoc, measured,
      toList_some, instants, instants, map_append, covered_append, map_singleton,
      covered, covered, Finset.union_empty]

variable {engine : AnalysisEngine}

theorem liveBusyNs_eq (spaced : Spaced engine.busyIntervals) :
    engine.liveBusyNs = engine.busyNs := by
  unfold liveBusyNs busyNs
  rw [spaced.sum_lengths]
  have same : Word.ofNat 64 (unionDuration engine.busyIntervals).val =
      unionDuration engine.busyIntervals := Fin.ext (Nat.mod_eq_of_lt (Fin.isLt _))
  rw [same]

theorem busyNs_val (accounts : Accounts ios engine.totals) (busy : Books.Busy ios engine.books) :
    engine.busyNs.map Fin.val =
      if ios ≠ [] ∧ ∀ io ∈ ios, io.totalLatencyNs.isSome then
        engine.loggingNs.map fun span =>
          min (covered (instants (ios.filterMap measuredInterval))).card span.val
      else none := by
  have unmeasured : engine.summary.unmeasuredLatencyIos =
      ios.countP fun io => io.totalLatencyNs.isNone := accounts.unmeasured
  have completed : engine.summary.completedIos = ios.length := accounts.completed
  have condition : engine.summary.unmeasuredLatencyIos = 0 ∧ 0 < engine.summary.completedIos ↔
      ios ≠ [] ∧ ∀ io ∈ ios, io.totalLatencyNs.isSome := by
    rw [unmeasured, completed, countP_eq_zero, length_pos_iff, and_comm]
    simp [isSome_iff_ne_none]
  have covers : covered (instants engine.busyIntervals) = _ := busy.covers
  unfold busyNs
  rw [if_congr condition rfl rfl, ← covers, ← unionDuration_val]
  split
  · rw [Option.map_map]
    exact congrArg (engine.loggingNs.map ·) (funext fun span => Fin.coe_min _ _)
  · rfl

theorem busyNs_val_of_perm {ios recorded : List CompletedIo}
    (accounts : Accounts recorded engine.totals) (busy : Books.Busy recorded engine.books)
    (order : ios.Perm recorded) :
    engine.busyNs.map Fin.val =
      if ios ≠ [] ∧ ∀ io ∈ ios, io.totalLatencyNs.isSome then
        engine.loggingNs.map fun span =>
          min (covered (instants (ios.filterMap measuredInterval))).card span.val
      else none := by
  have condition : (ios ≠ [] ∧ ∀ io ∈ ios, io.totalLatencyNs.isSome) ↔
      recorded ≠ [] ∧ ∀ io ∈ recorded, io.totalLatencyNs.isSome := by
    rw [← length_pos_iff, ← length_pos_iff, order.length_eq]
    simp only [order.mem_iff]
  have covers : covered (instants (ios.filterMap measuredInterval)) =
      covered (instants (recorded.filterMap measuredInterval)) := by
    ext instant
    rw [mem_covered_instants, mem_covered_instants]
    simp only [(order.filterMap measuredInterval).mem_iff]
  rw [busyNs_val accounts busy, if_congr condition rfl rfl, covers]

end AnalysisEngine

/-- After any events the live and the final summary report the same logging, busy and idle time. -/
theorem live_summary_agrees_on_time (retainAll : Bool) (correlationTtlNs : U64)
    (ttlPositive : 0 < correlationTtlNs) (completionWindow : Option (U64 × U64))
    (events : List StorageEvent) (caches : QueriedEngine) :
    let start := freshRetaining retainAll correlationTtlNs ttlPositive completionWindow
    let engine := run step start events
    let live := engine.liveSummary
    let final := ({ caches with engine := engine } : QueriedEngine).summary.2
    live.loggingNs = final.loggingNs ∧ live.busyNs = final.busyNs ∧ live.idleNs = final.idleNs ∧
      (∀ ios, ios.Perm (start.recorded events) →
        final.busyNs.map Fin.val =
          if ios ≠ [] ∧ ∀ io ∈ ios, io.totalLatencyNs.isSome then
            final.loggingNs.map fun span =>
              min (covered (instants (ios.filterMap measuredInterval))).card span.val
          else none) ∧
      ∀ others, (start.recorded others).Perm (start.recorded events) →
        (run step start others).loggingNs = engine.loggingNs →
        (run step start others).busyNs = final.busyNs := by
  intro start engine live final
  have busy : ∀ history, Books.Busy (start.recorded history) (run step start history).books :=
    books_run_induction Books.Busy ⟨spaced_nil, rfl⟩ fun _ io _ known => known.record io
  have accounts : ∀ history,
      Accounts (start.recorded history) (run step start history).totals :=
    accounts_run
      (accounts_freshRetaining retainAll correlationTtlNs ttlPositive completionWindow)
  have same : engine.liveBusyNs = engine.busyNs := liveBusyNs_eq (busy events).spaced
  refine ⟨rfl, same, ?_, fun ios order => busyNs_val_of_perm (accounts events) (busy events) order,
    fun others order logging => ?_⟩
  · show (do
      let busy ← engine.liveBusyNs
      let span ← engine.loggingNs
      some (span.saturatingSub busy)) = _
    rw [same]
    rfl
  · refine map_injective Fin.val_injective ?_
    rw [busyNs_val (accounts others) (busy others), logging]
    exact (busyNs_val_of_perm (accounts events) (busy events) order).symm

theorem live_summary_agrees_on_time_reads :
    let events := [StorageEvent.blockIssue (readIssue 1000 7), .blockIssue (readIssue 1500 8),
      .blockComplete (readComplete 3000 8), .blockComplete (readComplete 2000 7)]
    let engine := run step (freshRetaining false 30_000_000_000 (by decide) none) events
    engine.liveSummary.busyNs = some 2000 ∧
      engine.liveSummary.busyNs = ({ engine := engine } : QueriedEngine).summary.2.busyNs := by
  intro events engine
  obtain ⟨-, busy, -⟩ := live_summary_agrees_on_time false 30_000_000_000 (by decide) none events
    { engine := engine }
  exact ⟨by decide +kernel, busy⟩

end EbpfStudio
