/-
This file models a capture as a whole: the kernel with its probes, and the agent that applies
configurations and reads the aggregates.

The steps may come in any order. A probe works on the aggregate of the processor it runs on, and an
applied configuration changes the maps that later probes read. Reading merges the aggregates of all
processors for one generation into a snapshot.
-/

import EbpfStudio.Kernel.Block
import EbpfStudio.Library.Run

namespace EbpfStudio

inductive HistogramMetric where
  | totalLatency | queueLatency | deviceLatency | ioSize
  deriving DecidableEq

/-- The merged aggregates of a generation. -/
structure AggregateSnapshot where
  sessionId : String
  epoch : U64
  configGeneration : U64
  startTsNs : U64
  endTsNs : U64
  counters : AggregateCounters
  histograms : List (HistogramMetric × Histogram)

def AggregateCounters.add (first second : AggregateCounters) : AggregateCounters where
  observed := first.observed.saturatingAdd second.observed.val
  bytes := first.bytes.saturatingAdd second.bytes.val
  failed := first.failed.saturatingAdd second.failed.val
  filterPassed := first.filterPassed.saturatingAdd second.filterPassed.val
  filterSuppressed := first.filterSuppressed.saturatingAdd second.filterSuppressed.val
  detailEmitted := first.detailEmitted.saturatingAdd second.detailEmitted.val
  suppressedFast := first.suppressedFast.saturatingAdd second.suppressedFast.val
  sampled := first.sampled.saturatingAdd second.sampled.val
  forcedError := first.forcedError.saturatingAdd second.forcedError.val
  ringReserveFailures := first.ringReserveFailures.saturatingAdd second.ringReserveFailures.val
  mapInsertFailures := first.mapInsertFailures.saturatingAdd second.mapInsertFailures.val
  expired := first.expired.saturatingAdd second.expired.val
  keyReused := first.keyReused.saturatingAdd second.keyReused.val

def addCounts (first second : List U64) : List U64 :=
  List.zipWith (fun sum count => sum.saturatingAdd count.val) first second

/-- Add the aggregate of a processor. -/
def mergeAggregate (merged value : KernelAggregate) : KernelAggregate :=
  if value.generation ≠ merged.generation then merged
  else
    { merged with
      firstTsNs :=
        if value.firstTsNs = 0 then merged.firstTsNs
        else if merged.firstTsNs = 0 then value.firstTsNs
        else min merged.firstTsNs value.firstTsNs
      lastTsNs := max merged.lastTsNs value.lastTsNs
      counters := merged.counters.add value.counters
      totalLatency := addCounts merged.totalLatency value.totalLatency
      queueLatency := addCounts merged.queueLatency value.queueLatency
      deviceLatency := addCounts merged.deviceLatency value.deviceLatency
      ioSize := addCounts merged.ioSize value.ioSize }

def log2HistogramBoundaries : List U64 :=
  (List.range (histogramBuckets - 1)).map fun index => Word.ofNat 64 (2 ^ (index + 1) - 1)

def readAggregateSnapshot (sessionId : String) (epoch generation : U64)
    (values : List KernelAggregate) : AggregateSnapshot :=
  let merged := values.foldl mergeAggregate { generation := generation }
  { sessionId := sessionId
    epoch := epoch
    configGeneration := generation
    startTsNs := merged.firstTsNs
    endTsNs := merged.lastTsNs
    counters := merged.counters
    histograms := [
      (.totalLatency, ⟨log2HistogramBoundaries, merged.totalLatency⟩),
      (.queueLatency, ⟨log2HistogramBoundaries, merged.queueLatency⟩),
      (.deviceLatency, ⟨log2HistogramBoundaries, merged.deviceLatency⟩),
      (.ioSize, ⟨log2HistogramBoundaries, merged.ioSize⟩)] }

/-- The kernel, and what the agent has read of it. -/
structure Capture (cpus : Nat) where
  kernel : BlockKernel cpus := {}
  generation : U64 := 0
  epoch : U64 := 0
  snapshots : List AggregateSnapshot := []

/-- What happens in a capture. -/
inductive CaptureStep (cpus : Nat) where
  | apply (config : CaptureConfig) (fails : Nat → Bool)
  | probe (probe : BlockProbe cpus)
  | read

def CaptureStep.triedGeneration {cpus : Nat} : CaptureStep cpus → Option U64
  | .apply config _ => some config.generation
  | _ => none

namespace Capture

variable {cpus : Nat}

/-- A configuration that cannot be applied leaves the previous one in the agent's mind. -/
def apply (collectorPid : U32) (capture : Capture cpus) (config : CaptureConfig)
    (fails : Nat → Bool) : Capture cpus :=
  let applied := capture.kernel.maps.apply collectorPid fails config
  { capture with
    kernel := { capture.kernel with maps := applied.1 }
    generation := match applied.2 with
      | .ok _ => config.generation
      | .error _ => capture.generation }

/-- The agent reads the aggregates. -/
def read (sessionId : String) (capture : Capture cpus) : Capture cpus :=
  let epoch := capture.epoch.saturatingAdd 1
  { capture with
    epoch := epoch
    snapshots := capture.snapshots ++ [readAggregateSnapshot sessionId epoch capture.generation
      (List.ofFn capture.kernel.aggregates)] }

/-- The capture after a step. -/
def step (collectorPid : U32) (sessionId : String) (capture : Capture cpus) :
    CaptureStep cpus → Capture cpus
  | .apply config fails => capture.apply collectorPid config fails
  | .probe probe => { capture with kernel := capture.kernel.afterProbe probe }
  | .read => capture.read sessionId

end Capture

end EbpfStudio
