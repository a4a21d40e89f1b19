/-
This file models the analysis engine and the ingestion of every kind of event.

Block events go through the correlator, and a completed request is counted and retained with the
window in which evidence belongs to it. Pipeline observations are paired into spans, and files,
nodes and edges are kept for the graphs. A full list drops its oldest tenth, unless the engine
retains all evidence.
-/

import EbpfStudio.Protocol.Correlator
import EbpfStudio.Protocol.Intervals
import EbpfStudio.Protocol.Stages
import EbpfStudio.Protocol.Statistics

namespace EbpfStudio

/-- How many records of a kind are retained. -/
def maxAnalysisSamples : Nat := 100_000

def evidenceReachNs : Nat := 30_000_000_000

def syntheticNodeId (tag : Nat) (requestId : U64) : U64 :=
  ((requestId.rotateLeft 17).xor (Word.ofNat 64 (tag * 2 ^ 56))).xor
    (Word.ofNat 64 0x9e3779b97f4a7c15)

def blockRequestNodeId (requestId : U64) : U64 := syntheticNodeId 9 requestId

def requestOriginNodeId (requestId originId : U64) : U64 :=
  syntheticNodeId 10 (requestId.xor (originId.rotateLeft 7))

def requestOriginEdgeId (requestId originId : U64) : U64 :=
  syntheticNodeId 20 (requestId.xor (originId.rotateLeft 13))

def evict {Record : Type} (retainAll : Bool) (values : List Record) : List Record :=
  if !retainAll && values.length = maxAnalysisSamples then
    values.drop (maxAnalysisSamples / 10)
  else values

def boundedPush {Record : Type} (retainAll : Bool) (values : List Record) (value : Record) :
    List Record :=
  evict retainAll values ++ [value]

/-- The request id and the timestamps under which derived views of a request are kept. -/
abbrev RequestCacheKey := U64 × U64 × U64

def requestCacheKey (io : CompletedIo) : RequestCacheKey :=
  (io.issue.requestId, io.issue.tsNs, io.completion.tsNs)

/-- The engine, with all that it retains and counts. -/
structure AnalysisEngine where
  retainAllEvidence : Bool := false
  correlator : RequestCorrelator
  classifier : SequentialClassifier := {}
  summary : AnalysisSummary := {}
  latenciesNs : List U64 := []
  liveLatencyHistogram : Histogram := latencyHistogram
  buckets : Table U64 MutableBucket := ∅
  categories : Table CategoryKey MutableCategory := ∅
  busyIntervals : List (U64 × U64) := []
  firstTsNs : Option U64 := none
  lastTsNs : Option U64 := none
  completed : List CompletedIo := []
  schedulerWaits : List SchedulerIoWait := []
  schedulerWaitsDropped : Nat := 0
  schedulerStartNs : Option U64 := none
  fileIos : List FileIo := []
  pipelineObservations : List PipelineObservation := []
  stages : StagePairing := {}
  graphNodes : List IoNode := []
  graphEdges : List IoEdge := []
  attributionGeneration : U64 := 0
  completionWindow : Option (U64 × U64) := none
  lastRequestCompletion : Table U64 U64 := ∅
  evidenceWindows : Table RequestCacheKey (U64 × U64) := ∅

namespace AnalysisEngine

def withWindows (correlationTtlNs : U64) (ttlPositive : 0 < correlationTtlNs) : AnalysisEngine where
  correlator := .new correlationTtlNs ttlPositive

def new : AnalysisEngine := withWindows 30_000_000_000 (by decide)

def setCompletionWindow (engine : AnalysisEngine) (startNs endNs : U64) : AnalysisEngine :=
  { engine with completionWindow := some (startNs, endNs) }

def observeTs (engine : AnalysisEngine) (tsNs : U64) : AnalysisEngine :=
  { engine with
    firstTsNs := some (engine.firstTsNs.elim tsNs fun value => min value tsNs)
    lastTsNs := some (engine.lastTsNs.elim tsNs fun value => max value tsNs) }

def observeRequestTime (engine : AnalysisEngine) (io : CompletedIo) : AnalysisEngine :=
  match io.startTimestamp, io.completionTimestamp with
  | some start, some finish => (engine.observeTs start).observeTs finish
  | _, _ => engine

def withSummary (engine : AnalysisEngine) (summary : AnalysisSummary) : AnalysisEngine :=
  { engine with summary := summary }

def second (tsNs : U64) : U64 := Word.ofNat 64 (tsNs / 1_000_000_000)

def observeDepth (engine : AnalysisEngine) (tsNs : U64) (depth : Nat) : AnalysisEngine :=
  { engine with
    buckets := engine.buckets.alter (second tsNs) {} fun bucket =>
      { bucket with maxQueueDepth := maxDepth bucket.maxQueueDepth depth } }

def recordDepth (engine : AnalysisEngine) (completed : CompletedIo) : AnalysisEngine :=
  match completed.queueDepthAtIssue with
  | none => engine
  | some depth =>
    let engine := engine.withSummary { engine.summary with
      measuredQueueDepthIos := engine.summary.measuredQueueDepthIos + 1
      maxQueueDepth := maxDepth engine.summary.maxQueueDepth depth }
    match completed.issueTimestamp with
    | some tsNs => engine.observeDepth tsNs depth
    | none => engine

def recordLatency (engine : AnalysisEngine) (completed : CompletedIo) : AnalysisEngine :=
  match completed.totalLatencyNs with
  | none =>
    engine.withSummary { engine.summary with
      unmeasuredLatencyIos := engine.summary.unmeasuredLatencyIos + 1 }
  | some latency =>
    { engine with
      latenciesNs := engine.latenciesNs ++ [latency]
      liveLatencyHistogram := engine.liveLatencyHistogram.record latency
      busyIntervals := match completed.startTimestamp, completed.completionTimestamp with
        | some start, some finish => mergeInterval engine.busyIntervals (start, finish)
        | _, _ => engine.busyIntervals }

def recordBucket (engine : AnalysisEngine) (completed : CompletedIo) : AnalysisEngine :=
  match completed.completionTimestamp with
  | none =>
    engine.withSummary { engine.summary with
      unplacedTimeIos := engine.summary.unplacedTimeIos + 1 }
  | some timestamp =>
    { engine with
      buckets := engine.buckets.alter (second timestamp) {} fun bucket =>
        { bucket with
          completedIos := bucket.completedIos + 1
          bytes := bucket.bytes + completed.issue.bytes
          latencySumNs := bucket.latencySumNs + completed.totalLatencyNs.elim 0 (·.val)
          latencySamples := bucket.latencySamples + completed.totalLatencyNs.elim 0 fun _ => 1 } }

def recordCategory (engine : AnalysisEngine) (completed : CompletedIo) : AnalysisEngine :=
  let key := (completed.issue.operation, completed.accessPattern, completed.sizeClass)
  { engine with
    categories := engine.categories.alter key {} fun category =>
      { completedIos := category.completedIos + 1
        bytes := category.bytes + completed.issue.bytes
        latencies := category.latencies ++ completed.totalLatencyNs.toList
        histogram := completed.totalLatencyNs.elim category.histogram category.histogram.record } }

def recordCompleted (engine : AnalysisEngine) (completed : CompletedIo) : AnalysisEngine :=
  let engine := engine.withSummary { engine.summary with
    completedIos := engine.summary.completedIos + 1 }
  let engine := engine.recordDepth completed
  let engine := engine.withSummary
    (engine.summary.countBytes completed.issue.operation completed.issue.bytes)
  ((engine.recordLatency completed).recordBucket completed).recordCategory completed

/-- Whether a timestamp lies in the completion window, which is everything without one. -/
def inWindow (completionWindow : Option (U64 × U64)) (tsNs : U64) : Bool :=
  completionWindow.all fun window => window.1 ≤ tsNs && tsNs ≤ window.2

def ingestSchedulerIoWait (engine : AnalysisEngine) (wait : SchedulerIoWait) : AnalysisEngine :=
  let engine := { engine with
    schedulerStartNs := some (engine.schedulerStartNs.elim wait.tsNs fun ts => min ts wait.tsNs) }
  if inWindow engine.completionWindow wait.tsNs then
    if maxAnalysisSamples ≤ engine.schedulerWaits.length then
      { engine with
        schedulerWaits := engine.schedulerWaits.drop (maxAnalysisSamples / 10) ++ [wait]
        schedulerWaitsDropped := engine.schedulerWaitsDropped + maxAnalysisSamples / 10 }
    else { engine with schedulerWaits := engine.schedulerWaits ++ [wait] }
  else engine

def ingestBlockInsert (engine : AnalysisEngine) (insert : BlockInsert) : AnalysisEngine :=
  let engine := engine.observeTs insert.tsNs
  { engine with correlator := engine.correlator.onInsert insert }

def ingestBlockIssue (engine : AnalysisEngine) (issue : BlockIssue) : AnalysisEngine :=
  let engine := engine.observeTs issue.tsNs
  let classified := engine.classifier.classify issue
  let issued := engine.correlator.onIssueClassified issue classified.2
  let summary := { engine.summary with issuedIos := engine.summary.issuedIos + 1 }
  let summary := (summary.countPattern classified.2).countSize (IoSizeClass.classify issue.bytes)
  let engine := { engine with
    classifier := classified.1
    correlator := issued.1
    summary := { summary with maxQueueDepth := maxDepth summary.maxQueueDepth issued.2 } }
  engine.observeDepth issue.tsNs issued.2

/-- The window in which evidence belongs to a completed request: from its reach before the first
block event, but after the previous completion of the same id, to its completion. -/
def evidenceWindow (previous : Option U64) (completed : CompletedIo) : U64 × U64 :=
  let earliest := completed.blockStart.saturatingSub evidenceReachNs
  (previous.elim earliest fun ts => max earliest (ts.saturatingAdd 1), completed.completion.tsNs)

def evidenceTimeMatches (engine : AnalysisEngine) (io : CompletedIo) (ts : U64) : Bool :=
  let window := (engine.evidenceWindows.lookup (requestCacheKey io)).getD
    (io.issue.tsNs.saturatingSub evidenceReachNs, io.completion.tsNs)
  window.1 ≤ ts && ts ≤ window.2

/-- The evidence windows once a request is retained; the windows of evicted requests go. -/
def retainWindow (retainAll : Bool) (retained : List CompletedIo)
    (windows : Table RequestCacheKey (U64 × U64)) (completed : CompletedIo)
    (window : U64 × U64) : Table RequestCacheKey (U64 × U64) :=
  let evicted := if !retainAll && retained.length = maxAnalysisSamples then
    retained.take (maxAnalysisSamples / 10) else []
  evicted.foldl (fun windows old => windows.erase (requestCacheKey old))
    (windows.insert (requestCacheKey completed) window)

def retainCompleted (engine : AnalysisEngine) (completed : CompletedIo) (window : U64 × U64) :
    AnalysisEngine :=
  { engine with
    evidenceWindows := retainWindow engine.retainAllEvidence engine.completed
      engine.evidenceWindows completed window
    completed := boundedPush engine.retainAllEvidence engine.completed completed }

def rememberCompletion (engine : AnalysisEngine) (completed : CompletedIo) : AnalysisEngine :=
  { engine with
    lastRequestCompletion := engine.lastRequestCompletion.insert completed.issue.requestId
      completed.completion.tsNs }

def withCorrelator (engine : AnalysisEngine) (correlator : RequestCorrelator) : AnalysisEngine :=
  { engine with correlator := correlator }

def acceptCompleted (engine : AnalysisEngine) (completed : CompletedIo) : AnalysisEngine :=
  let previous := engine.lastRequestCompletion.lookup completed.issue.requestId
  let engine := engine.rememberCompletion completed
  if inWindow engine.completionWindow completed.completion.tsNs then
    (engine.recordCompleted completed).retainCompleted completed
      (evidenceWindow previous completed)
  else engine

def ingestBlockComplete (engine : AnalysisEngine) (completion : BlockComplete) :
    AnalysisEngine × Option CompletedIo :=
  let engine := engine.observeTs completion.tsNs
  let answered := engine.correlator.onComplete completion
  let engine := engine.withCorrelator answered.1
  match answered.2 with
  | none =>
    (engine.withSummary { engine.summary with
      uncorrelatedCompletions := engine.summary.uncorrelatedCompletions + 1 }, none)
  | some completed => (engine.acceptCompleted completed, some completed)

def placedIn (completionWindow : Option (U64 × U64)) (completed : CompletedIo) : Bool :=
  completionWindow.all fun window =>
    completed.completionTimestamp.any fun ts => window.1 ≤ ts && ts ≤ window.2

def countObserved (engine : AnalysisEngine) (completed : CompletedIo) : AnalysisEngine :=
  let engine := engine.observeRequestTime completed
  let summary := { engine.summary with
    issuedIos := engine.summary.issuedIos + if completed.issueTimestamp.isSome then 1 else 0 }
  engine.withSummary
    ((summary.countPattern completed.accessPattern).countSize completed.sizeClass)

def pushCompleted (engine : AnalysisEngine) (completed : CompletedIo) : AnalysisEngine :=
  { engine with completed := boundedPush engine.retainAllEvidence engine.completed completed }

def ingestObservedBlockCompletion (engine : AnalysisEngine) (completed : CompletedIo) :
    AnalysisEngine :=
  let engine := engine.countObserved completed
  if placedIn engine.completionWindow completed then
    (engine.recordCompleted completed).pushCompleted completed
  else engine

def bumpGeneration (engine : AnalysisEngine) : AnalysisEngine :=
  { engine with attributionGeneration := engine.attributionGeneration.saturatingAdd 1 }

def operationName : IoOperation → String
  | .read => "Read"
  | .write => "Write"
  | .flush => "Flush"
  | .discard => "Discard"
  | .other => "Other"

def fileObservation (file : FileIo) : PipelineObservation where
  tsNs := file.startTsNs
  operation := some file.operation
  endTsNs := some file.endTsNs
  phase := .span
  layer := .syscall
  correlationId := none
  stageKey := none
  sector := none
  bytes := Word.tryFrom 32 file.requestedBytes
  opcode := none
  status := none
  pid := file.pid
  tid := file.tid
  name := operationName file.operation ++ " fd " ++ toString file.fd
  confidence := .probable

def countFile (engine : AnalysisEngine) (file : FileIo) : AnalysisEngine :=
  let engine := (engine.bumpGeneration.observeTs file.startTsNs).observeTs file.endTsNs
  let attributed := file.confidence = .attributed ∨ file.confidence = .exact
  engine.withSummary { engine.summary with
    fileIos := engine.summary.fileIos + 1
    attributedFileIos := engine.summary.attributedFileIos + if attributed then 1 else 0 }

def ingestFileIo (engine : AnalysisEngine) (file : FileIo) : AnalysisEngine :=
  let engine := engine.countFile file
  { engine with
    pipelineObservations :=
      if file.startTsNs ≤ file.endTsNs then engine.pipelineObservations ++ [fileObservation file]
      else engine.pipelineObservations
    fileIos := boundedPush engine.retainAllEvidence engine.fileIos file }

/-- The engine in which an observation is paired: its generation and its clock have moved. -/
def clocked (engine : AnalysisEngine) (observation : PipelineObservation) : AnalysisEngine :=
  let engine := engine.bumpGeneration.observeTs observation.tsNs
  observation.endTsNs.elim engine engine.observeTs

def ingestPipeline (engine : AnalysisEngine) (observation : PipelineObservation) :
    AnalysisEngine :=
  let engine := engine.clocked observation
  let taken := engine.stages.take (engine.lastTsNs.getD 0) observation
  { engine with
    stages := taken.1
    pipelineObservations := taken.2.elim engine.pipelineObservations
      (boundedPush engine.retainAllEvidence engine.pipelineObservations) }

def pushNode (engine : AnalysisEngine) (node : IoNode) : AnalysisEngine :=
  { engine with graphNodes := boundedPush engine.retainAllEvidence engine.graphNodes node }

def pushEdge (engine : AnalysisEngine) (edge : IoEdge) : AnalysisEngine :=
  { engine with graphEdges := boundedPush engine.retainAllEvidence engine.graphEdges edge }

def ingestNode (engine : AnalysisEngine) (node : IoNode) : AnalysisEngine :=
  ((engine.bumpGeneration.observeTs node.startTsNs).observeTs node.endOrStart).pushNode node

def originNode (origin : RequestOrigin) : IoNode where
  nodeId := requestOriginNodeId origin.requestId origin.originId
  transactionId := some origin.requestId
  kind := .bio
  startTsNs := origin.tsNs
  endTsNs := some origin.tsNs
  origin := origin.origin
  file := some origin.file
  path := origin.path
  operation := some origin.operation
  bytes := origin.bytes
  pid := origin.pid
  tid := origin.tid
  name := if origin.requestLifetimeConfidence = .exact then "direct bio file origin"
    else "filesystem extent file origin"

def originEdge (origin : RequestOrigin) : IoEdge where
  edgeId := requestOriginEdgeId origin.requestId origin.originId
  transactionId := some origin.requestId
  fromNodeId := requestOriginNodeId origin.requestId origin.originId
  toNodeId := blockRequestNodeId origin.requestId
  relation := .mergedInto
  confidence := origin.fileOriginConfidence.weakest origin.requestLifetimeConfidence
  evidence :=
    [{ matchType :=
        if origin.requestLifetimeConfidence ≠ .exact then "f2fs_extent_block_overlap"
        else if origin.incomplete then "direct_bio_request_incomplete"
        else "direct_bio_request"
       opaqueKey := some origin.originId
       deltaNs := none
       candidateCount := 1
       sectorMatch := origin.requestLifetimeConfidence ≠ .exact
       bytesMatch := origin.bytes.isSome
       taskMatch := origin.pid ≠ 0 }]

def ingestRequestOrigin (engine : AnalysisEngine) (origin : RequestOrigin) : AnalysisEngine :=
  let engine := engine.bumpGeneration.observeTs origin.tsNs
  (engine.pushNode (originNode origin)).pushEdge (originEdge origin)

def ingestEdge (engine : AnalysisEngine) (edge : IoEdge) : AnalysisEngine :=
  engine.bumpGeneration.pushEdge edge

/-- Take in an event. -/
def ingest (engine : AnalysisEngine) : StorageEvent → AnalysisEngine × Option CompletedIo
  | .schedulerIoWait wait => (engine.ingestSchedulerIoWait wait, none)
  | .blockInsert insert => (engine.ingestBlockInsert insert, none)
  | .blockIssue issue => (engine.ingestBlockIssue issue, none)
  | .blockComplete completion => engine.ingestBlockComplete completion
  | .observedBlockCompletion completed =>
    (engine.ingestObservedBlockCompletion completed, some completed)
  | .fileIo file => (engine.ingestFileIo file, none)
  | .pipeline observation => (engine.ingestPipeline observation, none)
  | .requestOrigin origin => (engine.ingestRequestOrigin origin, none)
  | .node node => (engine.ingestNode node, none)
  | .edge edge => (engine.ingestEdge edge, none)

def step (engine : AnalysisEngine) (event : StorageEvent) : AnalysisEngine :=
  (engine.ingest event).1

end AnalysisEngine

end EbpfStudio
