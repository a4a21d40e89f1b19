/-
This file models the pipeline view of one completed block request.

Observations are selected by the id of the request, or else by a time around it and its task or
device. They become spans, beside those for the queue and the device, with a confidence for each.
The view reaches over the exact spans and the block interval, and says how much of this time is
accounted for.
-/

import EbpfStudio.Protocol.Intervals
import EbpfStudio.Protocol.Event

namespace EbpfStudio

structure PipelineSpan where
  layer : PipelineLayer
  operation : Option IoOperation
  bytes : Option U32
  pid : U32
  tid : U32
  startTsNs : U64
  endTsNs : U64
  durationObserved : Bool
  name : String
  confidence : CorrelationConfidence
  source : String
  opcode : Option U32
  status : Option Int
  deriving DecidableEq

def PipelineSpan.additive (span : PipelineSpan) : Bool := span.confidence ≠ .contextOnly

/-- The pipeline view of a request. -/
structure IoPipeline where
  requestId : U64
  startTsNs : U64
  endTsNs : U64
  accountedNs : U64
  unaccountedNs : U64
  spans : List PipelineSpan
  deriving DecidableEq

/-- How far around its block interval context and file evidence of a request may lie. -/
def probableReachNs : Nat := 10_000_000

def CompletedIo.probableWindowStart (io : CompletedIo) : U64 :=
  io.blockStart.saturatingSub probableReachNs

def CompletedIo.probableWindowEnd (io : CompletedIo) : U64 :=
  io.completion.tsNs.saturatingAdd probableReachNs

namespace PipelineObservation

def endOrStart (value : PipelineObservation) : U64 := value.endTsNs.getD value.tsNs

def correlatedWith (requestId : U64) (value : PipelineObservation) : Bool :=
  value.correlationId = some requestId

def overlaps (io : CompletedIo) (value : PipelineObservation) : Bool :=
  if value.confidence = .contextOnly then
    value.tsNs ≤ io.probableWindowEnd && io.probableWindowStart ≤ value.endOrStart
  else value.tsNs ≤ io.completion.tsNs && io.blockStart ≤ value.endOrStart

def storageMatch (io : CompletedIo) (value : PipelineObservation) : Bool :=
  value.sector = some io.issue.sector && value.bytes = some io.issue.bytes

def threadMatch (io : CompletedIo) (value : PipelineObservation) : Bool :=
  value.pid = io.issue.pid && (value.tid = 0 || value.tid = io.issue.tid)

/-- An observation is of a request. -/
def selectedFor (io : CompletedIo) (value : PipelineObservation) : Bool :=
  if io.evidence.isSome then false
  else if value.endOrStart < value.tsNs then false
  else if value.operation.any (· ≠ io.issue.operation) ||
      value.correlationId.any (· ≠ io.issue.requestId) then false
  else if value.correlatedWith io.issue.requestId then true
  else value.overlaps io &&
    (value.confidence = .contextOnly || value.storageMatch io || value.threadMatch io)

/-- A correlated observation is exact evidence; a lower layer that was only paired exactly with
itself is probable evidence of the request. -/
def spanConfidence (requestId : U64) (value : PipelineObservation) : CorrelationConfidence :=
  if value.correlatedWith requestId && value.confidence ≠ .contextOnly then .exact
  else if value.confidence = .exact then .probable
  else value.confidence

def spanSource (value : PipelineObservation) : String :=
  match value.phase with
  | .span => "measured span"
  | .beginPhase | .endPhase => "paired boundary"
  | .instant => "context marker"

def toSpan (requestId : U64) (value : PipelineObservation) : Option PipelineSpan :=
  if value.tsNs ≤ value.endOrStart then
    some
      { layer := value.layer
        operation := value.operation
        bytes := value.bytes
        pid := value.pid
        tid := value.tid
        startTsNs := value.tsNs
        endTsNs := value.endOrStart
        durationObserved := value.endTsNs.isSome && value.phase ≠ .instant
        name := value.name
        confidence := value.spanConfidence requestId
        source := value.spanSource
        opcode := value.opcode
        status := value.status }
  else none

end PipelineObservation

namespace CompletedIo

def queueSpan (io : CompletedIo) (insert : BlockInsert) : PipelineSpan where
  layer := .blockQueue
  operation := some io.issue.operation
  bytes := some io.issue.bytes
  pid := io.issue.pid
  tid := io.issue.tid
  startTsNs := insert.tsNs
  endTsNs := io.issue.tsNs
  durationObserved := true
  name := "block queue"
  confidence := io.timingConfidence
  source := "block_rq_insert → block_rq_issue"
  opcode := none
  status := none

def deviceSpan (io : CompletedIo) : PipelineSpan where
  layer := .blockDevice
  operation := some io.issue.operation
  bytes := some io.issue.bytes
  pid := io.issue.pid
  tid := io.issue.tid
  startTsNs := io.issue.tsNs
  endTsNs := io.completion.tsNs
  durationObserved := io.deviceLatencyNs.isSome
  name := "block device"
  confidence := io.timingConfidence
  source := "block_rq_issue → block_rq_complete"
  opcode := none
  status := some io.completion.status

end CompletedIo

/-- Observations of a layer that has a correlated one are kept only if they are correlated. -/
def preferCorrelated (requestId : U64) (candidates : List PipelineObservation) :
    List PipelineObservation :=
  let exactLayers := (candidates.filter (·.correlatedWith requestId)).map (·.layer)
  candidates.filter fun value => value.correlatedWith requestId || value.layer ∉ exactLayers

def requestSpans (io : CompletedIo) (candidates : List PipelineObservation) :
    List PipelineSpan :=
  (preferCorrelated io.issue.requestId candidates).filterMap
      (PipelineObservation.toSpan io.issue.requestId) ++
    (io.insert.map io.queueSpan).toList ++ [io.deviceSpan]

def spanLe (first second : PipelineSpan) : Prop :=
  first.layer.ordinal < second.layer.ordinal ∨
    first.layer.ordinal = second.layer.ordinal ∧
      pairLe (first.startTsNs, first.endTsNs) (second.startTsNs, second.endTsNs)

instance : DecidableRel spanLe := fun _ _ =>
  inferInstanceAs (Decidable (_ ∨ _ ∧ _))

def clipSpan (startTsNs endTsNs : U64) (span : PipelineSpan) : Option (U64 × U64) :=
  let start := max span.startTsNs startTsNs
  let finish := min span.endTsNs endTsNs
  if start ≤ finish then some (start, finish) else none

def pipelineOfSelected (io : CompletedIo) (candidates : List PipelineObservation) : IoPipeline :=
  let spans := requestSpans io candidates
  let exact := spans.filter fun span => span.confidence = .exact
  let startTsNs := min (((exact.map (·.startTsNs)).min?).getD io.blockStart) io.blockStart
  let endTsNs :=
    max (((exact.map (·.endTsNs)).max?).getD io.completion.tsNs) io.completion.tsNs
  let sorted := spans.insertionSort spanLe
  let additive := (sorted.filter (·.additive)).filterMap (clipSpan startTsNs endTsNs)
  let totalNs := endTsNs.saturatingSub startTsNs
  let accountedNs := min (unionDuration additive) totalNs
  { requestId := io.issue.requestId
    startTsNs := startTsNs
    endTsNs := endTsNs
    accountedNs := accountedNs
    unaccountedNs := totalNs.saturatingSub accountedNs
    spans := sorted }

/-- The view from all observations. -/
def buildIoPipeline (io : CompletedIo) (observations : List PipelineObservation) : IoPipeline :=
  pipelineOfSelected io (observations.filter (·.selectedFor io))

theorem buildIoPipeline_of_evidence {io : CompletedIo} (projected : io.evidence.isSome)
    (observations : List PipelineObservation) :
    buildIoPipeline io observations = buildIoPipeline io [] := by
  have nothing : observations.filter (·.selectedFor io) = [] := by
    rw [List.filter_eq_nil_iff]
    intro value _
    simp [PipelineObservation.selectedFor, projected]
  unfold buildIoPipeline
  rw [nothing, List.filter_nil]

end EbpfStudio
