/-
This file compares two engines that take the same events.

What an engine does with a block event depends on its correlator and its clock only, and what it
does with a pipeline observation on its pairing. Two engines that agree on these answer alike and
agree again, whatever they retain.
-/

import EbpfStudio.Protocol.EngineLaws

namespace EbpfStudio

open Run

namespace AnalysisEngine

variable {engine other : AnalysisEngine}

/-- Two engines that will answer the same block events with the same requests. -/
structure SameRequests (engine other : AnalysisEngine) : Prop where
  correlator : engine.correlator = other.correlator
  classifier : engine.classifier = other.classifier
  lastCompletion : engine.lastRequestCompletion = other.lastRequestCompletion

theorem SameRequests.answered_eq (same : SameRequests engine other) (event : StorageEvent) :
    engine.answered event = other.answered event := by
  unfold answered
  rw [same.correlator]

theorem SameRequests.step (same : SameRequests engine other) (event : StorageEvent) :
    SameRequests (engine.step event) (other.step event) where
  correlator := by
    rw [correlator_step, correlator_step]
    unfold correlatorAfter
    rw [same.correlator, same.classifier]
  classifier := by
    rw [classifier_step, classifier_step]
    unfold classifierAfter
    rw [same.classifier]
  lastCompletion := by
    rw [lastRequestCompletion_step, lastRequestCompletion_step]
    unfold lastRequestCompletionAfter
    rw [same.answered_eq, same.lastCompletion]

structure SameStages (engine other : AnalysisEngine) : Prop where
  clock : engine.lastTsNs = other.lastTsNs
  stages : engine.stages = other.stages

theorem SameStages.taken_eq (same : SameStages engine other) (observation : PipelineObservation) :
    engine.taken observation = other.taken observation := by
  have clock : (engine.clocked observation).lastTsNs = (other.clocked observation).lastTsNs := by
    have moved := other.lastTsNs_step (.pipeline observation)
    rw [← same.clock] at moved
    exact (engine.lastTsNs_step (.pipeline observation)).trans moved.symm
  unfold taken
  rw [clock, same.stages]

theorem SameStages.step (same : SameStages engine other) (event : StorageEvent) :
    SameStages (engine.step event) (other.step event) where
  clock := by
    rw [lastTsNs_step, lastTsNs_step, same.clock]
  stages := by
    rw [stages_step, stages_step]
    cases event with
    | pipeline observation => exact congrArg Prod.fst (same.taken_eq observation)
    | _ => exact same.stages

end AnalysisEngine

end EbpfStudio
