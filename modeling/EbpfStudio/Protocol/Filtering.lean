/-
This file proves that a selection of requests keeps their attribution, and that one selection after
another is a single selection.

A selection makes a new engine that takes over the evidence and observes only the chosen requests. A
graph depends on the evidence and on the window of its own request, and both are taken over. So a
second selection finds what it finds in the original.
-/

import EbpfStudio.Protocol.Selection
import EbpfStudio.Protocol.Summary

namespace EbpfStudio

open Run

namespace AnalysisEngine

variable {first second : AnalysisEngine} {requests : List CompletedIo}

section

variable {source result : AnalysisEngine} {io : CompletedIo}
  (took : TookOver source requests result) (member : io ∈ requests)

include took member

theorem TookOver.evidenceTimeMatches_eq :
    result.evidenceTimeMatches io = source.evidenceTimeMatches io := by
  unfold evidenceTimeMatches
  rw [took.windows, if_pos (List.mem_map_of_mem member)]

theorem TookOver.transactionFor_eq :
    (({ engine := result } : QueriedEngine).transactionFor io).2 =
      (({ engine := source } : QueriedEngine).transactionFor io).2 := by
  rw [QueriedEngine.transactionFor_of_empty, QueriedEngine.transactionFor_of_empty]
  have index : AnalysisIndex.build result = AnalysisIndex.build source := by
    unfold AnalysisIndex.build
    rw [took.fileIos, took.pipelineObservations, took.graphNodes, took.graphEdges]
  have observationAllowed : result.observationAllowed io = source.observationAllowed io := by
    unfold AnalysisEngine.observationAllowed
    rw [took.evidenceTimeMatches_eq member]
  have nodeAllowed : result.nodeAllowed io = source.nodeAllowed io := by
    unfold AnalysisEngine.nodeAllowed
    rw [took.evidenceTimeMatches_eq member]
  unfold indexedTransaction filePositions indexedIdentities indexedObservations
  rw [index, took.fileIos, took.pipelineObservations, took.graphNodes, took.graphEdges,
    observationAllowed, nodeAllowed]

end

section EvidenceOnly

variable (engine : AnalysisEngine) (io : CompletedIo)

@[simp] theorem evidenceOnly_observeRequestTime :
    (engine.observeRequestTime io).evidenceOnly = engine.evidenceOnly := by
  unfold observeRequestTime
  split <;> rfl

@[simp] theorem evidenceOnly_recordDepth :
    (engine.recordDepth io).evidenceOnly = engine.evidenceOnly := by
  unfold recordDepth
  split
  · rfl
  · dsimp only
    split <;> rfl

@[simp] theorem evidenceOnly_recordLatency :
    (engine.recordLatency io).evidenceOnly = engine.evidenceOnly := by
  unfold recordLatency
  split <;> rfl

@[simp] theorem evidenceOnly_recordBucket :
    (engine.recordBucket io).evidenceOnly = engine.evidenceOnly := by
  unfold recordBucket
  split <;> rfl

@[simp] theorem evidenceOnly_recordCategory :
    (engine.recordCategory io).evidenceOnly = engine.evidenceOnly := rfl

@[simp] theorem evidenceOnly_withSummary (summary : AnalysisSummary) :
    (engine.withSummary summary).evidenceOnly = engine.evidenceOnly := rfl

theorem evidenceOnly_observeSelectedRequest :
    (engine.observeSelectedRequest io).evidenceOnly = engine.evidenceOnly := by
  simp [observeSelectedRequest, recordCompleted]

end EvidenceOnly

theorem evidenceOnly_takeOver (source result : AnalysisEngine) (io : CompletedIo) :
    (source.takeOver result io).evidenceOnly = result.evidenceOnly :=
  evidenceOnly_observeSelectedRequest _ io

variable (engine : AnalysisEngine)

theorem evidenceOnly_selectCompleted (predicate : CompletedIo → Bool) :
    (engine.selectCompleted predicate).evidenceOnly = engine.evidenceOnly := by
  refine run_induction (fun _ (result : AnalysisEngine) =>
    result.evidenceOnly = engine.evidenceOnly) ?_
    (fun _ io known => (engine.evidenceOnly_takeOver _ io).trans known) _
  rfl

theorem takeOver_congr {io : CompletedIo}
    (window : first.evidenceWindows.lookup (requestCacheKey io) =
      second.evidenceWindows.lookup (requestCacheKey io))
    (result : AnalysisEngine) :
    first.takeOver result io = second.takeOver result io := by
  unfold takeOver
  rw [window]

theorem selectCompleted_selectCompleted (first second : CompletedIo → Bool) :
    (engine.selectCompleted first).selectCompleted second =
      engine.selectCompleted fun io => first io && second io := by
  have took := tookOver_selectCompleted engine first
  have requests : (engine.selectCompleted first).completed.filter second =
      engine.completed.filter fun io => first io && second io := by
    rw [took.completed, List.filter_filter]
    exact List.filter_congr fun io _ => Bool.and_comm _ _
  have windows : ∀ io ∈ engine.completed.filter (fun io => first io && second io),
      (engine.selectCompleted first).evidenceWindows.lookup (requestCacheKey io) =
        engine.evidenceWindows.lookup (requestCacheKey io) := by
    intro io member
    obtain ⟨completed, selected⟩ := List.mem_filter.mp member
    obtain ⟨kept, -⟩ := Bool.and_eq_true_iff.mp selected
    rw [took.windows, if_pos (List.mem_map_of_mem (List.mem_filter.mpr ⟨completed, kept⟩))]
  show run (engine.selectCompleted first).takeOver (engine.selectCompleted first).evidenceOnly
    ((engine.selectCompleted first).completed.filter second) = _
  rw [requests, evidenceOnly_selectCompleted]
  exact List.foldl_ext _ _ _ fun result io member => takeOver_congr (windows io member) result

/-- For every engine and any two predicates, a selection retains the requests that satisfy its
predicate in their order, the graph of each of them is the one it had, and one selection after
the other has the requests, the summary and the graphs of the selection by both. -/
theorem selectCompleted_keeps_attribution (engine : AnalysisEngine)
    (first second : CompletedIo → Bool) :
    let selected := engine.selectCompleted first
    let twice := selected.selectCompleted second
    let once := engine.selectCompleted fun io => first io && second io
    selected.completed = engine.completed.filter first ∧
      (∀ io ∈ selected.completed,
        (({ engine := selected } : QueriedEngine).transactionFor io).2 =
          (({ engine := engine } : QueriedEngine).transactionFor io).2) ∧
      twice.completed = once.completed ∧
      ({ engine := twice } : QueriedEngine).summary.2 =
        ({ engine := once } : QueriedEngine).summary.2 ∧
      ∀ io, (({ engine := twice } : QueriedEngine).transactionFor io).2 =
        (({ engine := once } : QueriedEngine).transactionFor io).2 := by
  intro selected twice once
  have took := tookOver_selectCompleted engine first
  have same : twice = once := engine.selectCompleted_selectCompleted first second
  rw [same]
  refine ⟨took.completed, fun io member => ?_, rfl, rfl, fun _ => rfl⟩
  rw [took.completed] at member
  exact took.transactionFor_eq member

end AnalysisEngine

end EbpfStudio
