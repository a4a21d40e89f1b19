/-
This file says what one event does to the totals that an engine keeps.

An event records at most one request, and apart from this it changes only the counters of issues and
of completions without an issue. `Accounts` follows what was recorded in a run through each of the
totals.
-/

import EbpfStudio.Protocol.EngineLaws
import EbpfStudio.Protocol.Histogram

namespace EbpfStudio

open Run List Option Table

namespace AnalysisEngine

structure Totals where
  issued : Nat
  completed : Nat
  uncorrelated : Nat
  bytes : Nat
  unmeasured : Nat
  unplaced : Nat
  latencies : List U64
  histogram : Histogram
  categoryIos : Nat
  categoryBytes : Nat
  bucketIos : Nat

def totals (engine : AnalysisEngine) : Totals where
  issued := engine.summary.issuedIos
  completed := engine.summary.completedIos
  uncorrelated := engine.summary.uncorrelatedCompletions
  bytes := engine.summary.readBytes + engine.summary.writeBytes + engine.summary.otherBytes
  unmeasured := engine.summary.unmeasuredLatencyIos
  unplaced := engine.summary.unplacedTimeIos
  latencies := engine.latenciesNs
  histogram := engine.liveLatencyHistogram
  categoryIos := engine.categories.sum (·.completedIos)
  categoryBytes := engine.categories.sum (·.bytes)
  bucketIos := engine.buckets.sum (·.completedIos)

def Totals.record (totals : Totals) (io : CompletedIo) : Totals :=
  { totals with
    completed := totals.completed + 1
    bytes := totals.bytes + io.issue.bytes
    unmeasured := totals.unmeasured + io.totalLatencyNs.isNone.toNat
    unplaced := totals.unplaced + io.completionTimestamp.isNone.toNat
    latencies := totals.latencies ++ io.totalLatencyNs.toList
    histogram := io.totalLatencyNs.elim totals.histogram totals.histogram.record
    categoryIos := totals.categoryIos + 1
    categoryBytes := totals.categoryBytes + io.issue.bytes
    bucketIos := totals.bucketIos + io.completionTimestamp.isSome.toNat }

section

variable (engine : AnalysisEngine)

@[simp] theorem totals_countFile (file : FileIo) :
    (engine.countFile file).totals = engine.totals := by
  simp only [countFile, totals, withSummary, observeTs, bumpGeneration]

@[simp] theorem totals_observeRequestTime (io : CompletedIo) :
    (engine.observeRequestTime io).totals = engine.totals := by
  unfold observeRequestTime
  split <;> rfl

@[simp] theorem totals_clocked (observation : PipelineObservation) :
    (engine.clocked observation).totals = engine.totals := by
  unfold clocked
  cases observation.endTsNs <;> rfl

@[simp] theorem totals_observeDepth (tsNs : U64) (depth : Nat) :
    (engine.observeDepth tsNs depth).totals = engine.totals := by
  have same : (engine.observeDepth tsNs depth).buckets.sum (·.completedIos) =
      engine.buckets.sum (·.completedIos) + 0 :=
    sum_alter _ _ _ (by rfl) (fun _ => by rfl)
  simp only [totals, same]
  rfl

theorem totals_recordDepth : (engine.recordDepth io).totals = engine.totals := by
  unfold recordDepth
  cases io.queueDepthAtIssue with
  | none => rfl
  | some depth =>
    cases io.issueTimestamp with
    | none => rfl
    | some tsNs => exact totals_observeDepth _ tsNs depth

theorem totals_recordLatency :
    (engine.recordLatency io).totals =
      { engine.totals with
        unmeasured := engine.totals.unmeasured + io.totalLatencyNs.isNone.toNat
        latencies := engine.totals.latencies ++ io.totalLatencyNs.toList
        histogram := io.totalLatencyNs.elim engine.totals.histogram
          engine.totals.histogram.record } := by
  unfold recordLatency
  cases io.totalLatencyNs with
  | none => simp [totals, withSummary]
  | some latency => rfl

theorem totals_recordBucket :
    (engine.recordBucket io).totals =
      { engine.totals with
        unplaced := engine.totals.unplaced + io.completionTimestamp.isNone.toNat
        bucketIos := engine.totals.bucketIos + io.completionTimestamp.isSome.toNat } := by
  unfold recordBucket
  cases io.completionTimestamp with
  | none => rfl
  | some tsNs =>
    refine congrArg (fun ios => { engine.totals with bucketIos := ios }) ?_
    exact sum_alter _ _ _ (by rfl) (fun _ => by rfl)

theorem totals_recordCategory :
    (engine.recordCategory io).totals =
      { engine.totals with
        categoryIos := engine.totals.categoryIos + 1
        categoryBytes := engine.totals.categoryBytes + io.issue.bytes } := by
  have ios : (engine.recordCategory io).categories.sum (·.completedIos) =
      engine.categories.sum (·.completedIos) + 1 :=
    sum_alter _ _ _ (by rfl) (fun _ => by rfl)
  have bytes : (engine.recordCategory io).categories.sum (·.bytes) =
      engine.categories.sum (·.bytes) + io.issue.bytes :=
    sum_alter _ _ _ (by rfl) (fun _ => by rfl)
  simp only [totals, ios, bytes]
  rfl

end

theorem bytes_countBytes (summary : AnalysisSummary) (operation : IoOperation) (bytes : Nat) :
    (summary.countBytes operation bytes).readBytes +
        (summary.countBytes operation bytes).writeBytes +
        (summary.countBytes operation bytes).otherBytes =
      summary.readBytes + summary.writeBytes + summary.otherBytes + bytes := by
  cases operation <;> simp only [AnalysisSummary.countBytes] <;> omega

theorem totals_countBytes (engine : AnalysisEngine) (operation : IoOperation) (bytes : Nat) :
    (engine.withSummary (engine.summary.countBytes operation bytes)).totals =
      { engine.totals with bytes := engine.totals.bytes + bytes } := by
  have sum := bytes_countBytes engine.summary operation bytes
  simp only [totals, withSummary, sum]
  cases operation <;> rfl

theorem totals_recordCompleted (engine : AnalysisEngine) (io : CompletedIo) :
    (engine.recordCompleted io).totals = engine.totals.record io := by
  simp only [recordCompleted, totals_recordCategory, totals_recordBucket, totals_recordLatency,
    totals_countBytes, totals_recordDepth]
  rfl

def issues : StorageEvent → Nat
  | .blockIssue _ => 1
  | .observedBlockCompletion io => io.issueTimestamp.isSome.toNat
  | _ => 0

def unanswered (engine : AnalysisEngine) : StorageEvent → Bool
  | .blockComplete completion => (engine.correlator.onComplete completion).2.isNone
  | _ => false

/-- The totals before an event, with what it counts apart from the request it records. -/
def counted (engine : AnalysisEngine) (event : StorageEvent) : Totals :=
  { engine.totals with
    issued := engine.totals.issued + issues event
    uncorrelated := engine.totals.uncorrelated + (engine.unanswered event).toNat }

section

variable (engine : AnalysisEngine) (io : CompletedIo)

theorem totals_acceptCompleted :
    (engine.acceptCompleted io).totals =
      if inWindow engine.completionWindow io.completion.tsNs then engine.totals.record io
      else engine.totals := by
  rw [acceptCompleted, apply_ite totals]
  exact if_congr Iff.rfl (totals_recordCompleted (engine.rememberCompletion io) io) rfl

theorem totals_ingestBlockComplete (completion : BlockComplete) :
    (engine.ingestBlockComplete completion).1.totals =
      (engine.accepted (.blockComplete completion)).elim
        (engine.counted (.blockComplete completion))
        (engine.counted (.blockComplete completion)).record := by
  unfold accepted answered counted unanswered issues
  dsimp only
  rw [ingestBlockComplete_fst]
  cases (engine.correlator.onComplete completion).2 with
  | none => rfl
  | some io =>
    rw [elim_some, totals_acceptCompleted, filter_some, apply_ite (Option.elim · _ _)]
    rfl

theorem totals_countClasses (summary : AnalysisSummary) (pattern : AccessPattern)
    (size : IoSizeClass) :
    (engine.withSummary ((summary.countPattern pattern).countSize size)).totals =
      (engine.withSummary summary).totals := by
  cases pattern <;> cases size <;> rfl

theorem totals_countObserved :
    (engine.countObserved io).totals = engine.counted (.observedBlockCompletion io) := by
  have issued : (if io.issueTimestamp.isSome then 1 else 0) = io.issueTimestamp.isSome.toNat := by
    cases io.issueTimestamp <;> rfl
  unfold countObserved
  rw [totals_countClasses, issued]
  exact congrArg (fun totals : Totals => { totals with
    issued := totals.issued + io.issueTimestamp.isSome.toNat })
    (engine.totals_observeRequestTime io)

theorem totals_ingestObservedBlockCompletion :
    (engine.ingestObservedBlockCompletion io).totals =
      (engine.projected (.observedBlockCompletion io)).elim
        (engine.counted (.observedBlockCompletion io))
        (engine.counted (.observedBlockCompletion io)).record := by
  have sameWindow : (engine.countObserved io).completionWindow = engine.completionWindow :=
    congrArg Evidence.completionWindow (engine.evidence_countObserved io)
  unfold ingestObservedBlockCompletion projected
  dsimp only
  rw [sameWindow]
  split
  · exact (totals_recordCompleted _ io).trans
      (congrArg (Totals.record · io) (engine.totals_countObserved io))
  · exact engine.totals_countObserved io

theorem totals_ingestBlockIssue (issue : BlockIssue) :
    (engine.ingestBlockIssue issue).totals = engine.counted (.blockIssue issue) := by
  unfold ingestBlockIssue
  rw [totals_observeDepth]
  exact engine.totals_countClasses
    { engine.summary with issuedIos := engine.summary.issuedIos + 1 }
    (engine.classifier.classify issue).2 (IoSizeClass.classify issue.bytes)


theorem totals_step (event : StorageEvent) :
    (engine.step event).totals =
      (engine.kept event).elim (engine.counted event) (engine.counted event).record := by
  cases event with
  | schedulerIoWait wait =>
    show (engine.ingestSchedulerIoWait wait).totals = _
    unfold ingestSchedulerIoWait
    dsimp only
    split
    · split <;> rfl
    · rfl
  | blockInsert insert => rfl
  | blockIssue issue => exact engine.totals_ingestBlockIssue issue
  | blockComplete completion =>
    rw [show engine.kept (.blockComplete completion) =
      engine.accepted (.blockComplete completion) from or_none]
    exact engine.totals_ingestBlockComplete completion
  | observedBlockCompletion io => exact engine.totals_ingestObservedBlockCompletion io
  | fileIo file => exact engine.totals_countFile file
  | pipeline observation => exact engine.totals_clocked observation
  | requestOrigin _ | node _ | edge _ => rfl

end

def recorded (start : AnalysisEngine) (events : List StorageEvent) : List CompletedIo :=
  collect step kept start events

structure Accounts (ios : List CompletedIo) (totals : Totals) : Prop where
  completed : totals.completed = ios.length
  bytes : totals.bytes = (ios.map fun io => io.issue.bytes.val).sum
  unmeasured : totals.unmeasured = ios.countP fun io => io.totalLatencyNs.isNone
  unplaced : totals.unplaced = ios.countP fun io => io.completionTimestamp.isNone
  latencies : totals.latencies = ios.filterMap CompletedIo.totalLatencyNs
  histogram : totals.histogram = totals.latencies.foldl Histogram.record latencyHistogram
  categoryIos : totals.categoryIos = ios.length
  categoryBytes : totals.categoryBytes = (ios.map fun io => io.issue.bytes.val).sum
  bucketIos : totals.bucketIos = ios.countP fun io => io.completionTimestamp.isSome

theorem Accounts.record {ios : List CompletedIo} {totals : Totals}
    (accounts : Accounts ios totals) (io : CompletedIo) :
    Accounts (ios ++ [io]) (totals.record io) where
  completed := by simp [Totals.record, accounts.completed]
  bytes := by simp [Totals.record, accounts.bytes]
  unmeasured := by
    cases known : io.totalLatencyNs <;>
      simp [Totals.record, accounts.unmeasured, countP_append, known]
  unplaced := by
    cases known : io.completionTimestamp <;>
      simp [Totals.record, accounts.unplaced, countP_append, known]
  latencies := by rw [filterMap_snoc, ← accounts.latencies]; rfl
  histogram := by
    cases known : io.totalLatencyNs <;>
      simp [Totals.record, accounts.histogram, known, foldl_append]
  categoryIos := by simp [Totals.record, accounts.categoryIos]
  categoryBytes := by simp [Totals.record, accounts.categoryBytes]
  bucketIos := by
    cases known : io.completionTimestamp <;>
      simp [Totals.record, accounts.bucketIos, countP_append, known]

theorem accounts_run {start : AnalysisEngine} (empty : Accounts [] start.totals)
    (events : List StorageEvent) :
    Accounts (recorded start events) (run step start events).totals := by
  refine run_induction (fun history (engine : AnalysisEngine) =>
    Accounts (recorded start history) engine.totals) empty (fun history event accounts => ?_) events
  have counted : Accounts (recorded start history) ((run step start history).counted event) :=
    { accounts with }
  rw [totals_step, recorded, collect_snoc]
  cases (run step start history).kept event with
  | none =>
    rw [toList_none, append_nil]
    exact counted
  | some io => exact counted.record io

theorem recorded_latencyHistogram : Histogram.Recorded latencyHistogram [] where
  increasing := by decide
  length := rfl
  counted := Tally.counts_replicate _

theorem countP_isSome_add_isNone {Input Output : Type} (read : Input → Option Output)
    (inputs : List Input) :
    inputs.countP (fun input => (read input).isSome) +
      inputs.countP (fun input => (read input).isNone) = inputs.length := by
  induction inputs with
  | nil => rfl
  | cons input rest hypothesis =>
    rw [countP_cons, countP_cons, length_cons]
    cases read input <;> simp <;> omega

section Balance

variable {ios : List CompletedIo} {totals : Totals}

theorem Accounts.bucketIos_add_unplaced (accounts : Accounts ios totals) :
    totals.bucketIos + totals.unplaced = ios.length := by
  rw [accounts.bucketIos, accounts.unplaced]
  exact countP_isSome_add_isNone CompletedIo.completionTimestamp ios

theorem Accounts.latencies_add_unmeasured (accounts : Accounts ios totals) :
    totals.latencies.length + totals.unmeasured = ios.length := by
  rw [accounts.latencies, accounts.unmeasured, length_filterMap_eq_countP]
  exact countP_isSome_add_isNone CompletedIo.totalLatencyNs ios

theorem Accounts.totalCount (accounts : Accounts ios totals) (few : ios.length < 2 ^ 64) :
    totals.histogram.totalCount.val = totals.latencies.length := by
  have fewer : totals.latencies.length < 2 ^ 64 :=
    (Nat.le.intro accounts.latencies_add_unmeasured).trans_lt few
  have counted := (recorded_latencyHistogram.foldl totals.latencies (by simpa using fewer)).1
  rw [append_nil] at counted
  rw [accounts.histogram, counted.totalCount (by simpa using fewer), length_reverse]

end Balance

end AnalysisEngine

end EbpfStudio
