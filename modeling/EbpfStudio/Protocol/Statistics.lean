/-
This file models the running statistics an analysis keeps beside the records it retains: the spatial
classifier of issued requests, latency histograms, the per second and per category accumulators, and
the counters of the summary.

The classifier remembers where the last access of each stream ended, and the histogram files a value
by the number of boundaries below it.
-/

import EbpfStudio.Library.Table
import EbpfStudio.Protocol.Event

namespace EbpfStudio

structure StreamKey where
  deviceMajor : U32
  deviceMinor : U32
  operation : IoOperation
  deriving DecidableEq

structure LastAccess where
  sector : U64
  sectors : U32
  deriving DecidableEq

structure SequentialClassifier where
  streams : Table StreamKey LastAccess := ∅

/-- An issue is sequential when it starts where the last one of its stream ended. -/
def SequentialClassifier.classify (classifier : SequentialClassifier) (issue : BlockIssue) :
    SequentialClassifier × AccessPattern :=
  let key : StreamKey := ⟨issue.deviceMajor, issue.deviceMinor, issue.operation⟩
  let pattern := match classifier.streams.lookup key with
    | none => .unknown
    | some previous =>
      if previous.sector.checkedAdd previous.sectors = some issue.sector then .sequential
      else .random
  (⟨classifier.streams.insert key ⟨issue.sector, issue.sectors⟩⟩, pattern)

/-- Counts of values by inclusive upper bounds, with one more count for what lies above. -/
structure Histogram where
  boundaries : List U64
  counts : List U64

/-- The boundaries are increasing, so the bucket of a value is the number of those below it. -/
def Histogram.record (histogram : Histogram) (value : U64) : Histogram :=
  let index := (histogram.boundaries.takeWhile fun boundary => boundary < value).length
  { histogram with counts := histogram.counts.modify index fun count => count.saturatingAdd 1 }

def latencyHistogram : Histogram :=
  let boundaries := (List.range 32).map fun power => Word.ofNat 64 (1000 * 2 ^ power)
  { boundaries := boundaries, counts := List.replicate (boundaries.length + 1) 0 }

structure MutableBucket where
  completedIos : Nat := 0
  bytes : Nat := 0
  latencySumNs : Nat := 0
  latencySamples : Nat := 0
  maxQueueDepth : Option Nat := none

structure MutableCategory where
  completedIos : Nat := 0
  bytes : Nat := 0
  latencies : List U64 := []
  histogram : Histogram := latencyHistogram

abbrev CategoryKey := IoOperation × AccessPattern × IoSizeClass

structure AnalysisSummary where
  issuedIos : Nat := 0
  completedIos : Nat := 0
  uncorrelatedCompletions : Nat := 0
  readBytes : Nat := 0
  writeBytes : Nat := 0
  otherBytes : Nat := 0
  sequentialIos : Nat := 0
  randomIos : Nat := 0
  smallIos : Nat := 0
  largeIos : Nat := 0
  maxQueueDepth : Option Nat := none
  measuredQueueDepthIos : Nat := 0
  unmeasuredLatencyIos : Nat := 0
  unplacedTimeIos : Nat := 0
  fileIos : Nat := 0
  attributedFileIos : Nat := 0

def maxDepth (known : Option Nat) (depth : Nat) : Option Nat :=
  some (known.elim depth fun value => max value depth)

namespace AnalysisSummary

def countPattern (summary : AnalysisSummary) : AccessPattern → AnalysisSummary
  | .sequential => { summary with sequentialIos := summary.sequentialIos + 1 }
  | .random => { summary with randomIos := summary.randomIos + 1 }
  | .unknown => summary

def countSize (summary : AnalysisSummary) : IoSizeClass → AnalysisSummary
  | .small => { summary with smallIos := summary.smallIos + 1 }
  | .large => { summary with largeIos := summary.largeIos + 1 }

def countBytes (summary : AnalysisSummary) (operation : IoOperation) (bytes : Nat) :
    AnalysisSummary :=
  match operation with
  | .read => { summary with readBytes := summary.readBytes + bytes }
  | .write => { summary with writeBytes := summary.writeBytes + bytes }
  | _ => { summary with otherBytes := summary.otherBytes + bytes }

end AnalysisSummary

end EbpfStudio
