/-
This file models how the begin and the end of a pipeline stage are paired.

A stage is named by its layer, its correlation or stage id, and its name. A begin waits under its
stage, and a second begin of a stage that waits makes it ambiguous until its end. An end makes a
span of the begin that waits. What has waited too long is swept, but only after an observation was
processed.
-/

import EbpfStudio.Library.Table
import EbpfStudio.Protocol.Event

namespace EbpfStudio

def stageTtlNs : Nat := 30_000_000_000

/-- The stage of a pipeline observation: its layer, its correlation or stage id, its name. -/
abbrev StageKey := PipelineLayer × U64 × String

def stageOf (observation : PipelineObservation) : Option StageKey :=
  (observation.correlationId.or observation.stageKey).map fun id =>
    (observation.layer, id, observation.name)

def pairedSpan (start finish : PipelineObservation) : PipelineObservation where
  tsNs := start.tsNs
  operation := start.operation.or finish.operation
  endTsNs := some finish.tsNs
  phase := .span
  layer := start.layer
  correlationId := start.correlationId
  stageKey := start.stageKey
  sector := start.sector.or finish.sector
  bytes := start.bytes.or finish.bytes
  opcode := start.opcode.or finish.opcode
  status := finish.status.or start.status
  pid := start.pid
  tid := start.tid
  name := start.name
  confidence := start.confidence

/-- The begins that wait for their end, and the stages that two begins made ambiguous. -/
structure StagePairing where
  pendingPipeline : Table StageKey PipelineObservation := ∅
  ambiguousPipeline : Table StageKey U64 := ∅

namespace StagePairing

/-- A begin waits for its end, unless its stage is waiting or ambiguous already. -/
def start (stages : StagePairing) (key : StageKey) (observation : PipelineObservation) :
    StagePairing :=
  if stages.pendingPipeline.containsKey key then
    { pendingPipeline := stages.pendingPipeline.erase key
      ambiguousPipeline := stages.ambiguousPipeline.insert key observation.tsNs }
  else if stages.ambiguousPipeline.containsKey key then stages
  else { stages with pendingPipeline := stages.pendingPipeline.insert key observation }

def pairedBegin (stages : StagePairing) (key : StageKey) (finish : PipelineObservation) :
    Option PipelineObservation :=
  (stages.pendingPipeline.lookup key).filter fun start => start.tsNs ≤ finish.tsNs

def finish (stages : StagePairing) (key : StageKey) : StagePairing :=
  { stages with pendingPipeline := stages.pendingPipeline.erase key }

def clear (stages : StagePairing) (key : StageKey) : StagePairing where
  pendingPipeline := stages.pendingPipeline.erase key
  ambiguousPipeline := stages.ambiguousPipeline.erase key

def sweep (stages : StagePairing) (newest : U64) : StagePairing where
  pendingPipeline := stages.pendingPipeline.retain fun _ start =>
    newest.saturatingSub start.tsNs ≤ stageTtlNs
  ambiguousPipeline := stages.ambiguousPipeline.retain fun _ observedTsNs =>
    newest.saturatingSub observedTsNs ≤ stageTtlNs

/-- Process an observation; the result is the observation to retain, if there is one. The sweep
comes after the pairing, and the end of an ambiguous stage returns before it. -/
def take (stages : StagePairing) (newest : U64) (observation : PipelineObservation) :
    StagePairing × Option PipelineObservation :=
  match observation.phase, stageOf observation with
  | .beginPhase, some key => ((stages.start key observation).sweep newest, none)
  | .endPhase, some key =>
    if stages.ambiguousPipeline.containsKey key then (stages.clear key, none)
    else ((stages.finish key).sweep newest,
      (stages.pairedBegin key observation).map fun start => pairedSpan start observation)
  | _, _ => (stages.sweep newest, some observation)

end StagePairing

end EbpfStudio
