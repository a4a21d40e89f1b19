/-
This file models how an engine is reduced to some of its completed requests.

The new engine keeps the evidence and its windows but none of the requests, and then observes the
chosen ones again with the statistics they contribute to. `TookOver` says what is left as it was and
what depends on the selection only.
-/

import EbpfStudio.Protocol.EngineLaws

namespace EbpfStudio

open Run

namespace AnalysisEngine

def observeSelectedRequest (engine : AnalysisEngine) (io : CompletedIo) : AnalysisEngine :=
  let engine := (engine.observeRequestTime io).recordCompleted io
  let summary := { engine.summary with
    issuedIos := engine.summary.issuedIos + if io.issueTimestamp.isSome then 1 else 0 }
  engine.withSummary ((summary.countPattern io.accessPattern).countSize io.sizeClass)

def takeOver (source result : AnalysisEngine) (io : CompletedIo) : AnalysisEngine :=
  let windows := (source.evidenceWindows.lookup (requestCacheKey io)).elim result.evidenceWindows
    (result.evidenceWindows.insert (requestCacheKey io))
  let observed := ({ result with evidenceWindows := windows }).observeSelectedRequest io
  { observed with completed := observed.completed ++ [io] }

def evidenceOnly (engine : AnalysisEngine) : AnalysisEngine :=
  { new with
    fileIos := engine.fileIos
    schedulerWaits := engine.schedulerWaits
    schedulerWaitsDropped := engine.schedulerWaitsDropped
    schedulerStartNs := engine.schedulerStartNs
    pipelineObservations := engine.pipelineObservations
    graphNodes := engine.graphNodes
    graphEdges := engine.graphEdges
    attributionGeneration := engine.attributionGeneration }

def selectCompleted (engine : AnalysisEngine) (predicate : CompletedIo → Bool) :
    AnalysisEngine :=
  run engine.takeOver engine.evidenceOnly (engine.completed.filter predicate)

variable (engine : AnalysisEngine)

@[simp] theorem evidence_observeSelectedRequest (io : CompletedIo) :
    (engine.observeSelectedRequest io).evidence = engine.evidence := by
  simp [observeSelectedRequest]

theorem progress_observeSelectedRequest (io : CompletedIo) :
    (engine.observeSelectedRequest io).progress =
      (engine.classifier, (requestTimes io).foldl newestOf engine.lastTsNs) :=
  (progress_recordCompleted _ io).trans (engine.progress_observeRequestTime io)

theorem lastTsNs_takeOver (source result : AnalysisEngine) (io : CompletedIo) :
    (source.takeOver result io).lastTsNs = (requestTimes io).foldl newestOf result.lastTsNs :=
  congrArg Prod.snd (progress_observeSelectedRequest _ io)

structure TookOver (source : AnalysisEngine) (requests : List CompletedIo)
    (result : AnalysisEngine) : Prop where
  retaining : result.retainAllEvidence = false
  fileIos : result.fileIos = source.fileIos
  pipelineObservations : result.pipelineObservations = source.pipelineObservations
  graphNodes : result.graphNodes = source.graphNodes
  graphEdges : result.graphEdges = source.graphEdges
  stages : result.stages = {}
  completed : result.completed = requests
  clock : result.lastTsNs = (requests.flatMap requestTimes).foldl newestOf none
  windows : ∀ key, result.evidenceWindows.lookup key =
    if key ∈ requests.map requestCacheKey then source.evidenceWindows.lookup key else none

theorem TookOver.takeOver {source result : AnalysisEngine} {requests : List CompletedIo}
    (took : TookOver source requests result) (io : CompletedIo) :
    TookOver source (requests ++ [io]) (source.takeOver result io) := by
  have evidence : (source.takeOver result io).evidence = _ :=
    congrArg (fun evidence : Evidence => { evidence with completed := evidence.completed ++ [io] })
      (evidence_observeSelectedRequest _ io)
  have completed := congrArg Evidence.completed evidence
  have windows := congrArg Evidence.evidenceWindows evidence
  refine ⟨(congrArg Evidence.retainAllEvidence evidence).trans took.retaining,
    (congrArg Evidence.fileIos evidence).trans took.fileIos,
    (congrArg Evidence.pipelineObservations evidence).trans took.pipelineObservations,
    (congrArg Evidence.graphNodes evidence).trans took.graphNodes,
    (congrArg Evidence.graphEdges evidence).trans took.graphEdges,
    (congrArg Evidence.stages evidence).trans took.stages, ?_, ?_, fun key => ?_⟩
  · exact completed.trans (congrArg (· ++ [io]) took.completed)
  · rw [lastTsNs_takeOver, took.clock, List.flatMap_append, List.foldl_append,
      List.flatMap_singleton]
  · refine (congrArg (·.lookup key) windows).trans ?_
    have known := took.windows key
    rw [List.map_append, List.map_singleton]
    by_cases own : key = requestCacheKey io
    · rw [if_pos (List.mem_append_right _ (List.mem_singleton.mpr own)), ← own]
      cases stored : source.evidenceWindows.lookup key with
      | none =>
        rw [stored, ite_self] at known
        exact known
      | some window => exact (Table.lookup_insert_eq _ _ _ _).trans (if_pos rfl)
    · have same : key ∈ requests.map requestCacheKey ++ [requestCacheKey io] ↔
          key ∈ requests.map requestCacheKey := by
        rw [List.mem_append, List.mem_singleton, or_iff_left own]
      rw [if_congr same rfl rfl, ← known]
      cases source.evidenceWindows.lookup (requestCacheKey io) with
      | none => rfl
      | some window => exact (Table.lookup_insert_eq _ _ _ _).trans (if_neg own)

theorem tookOver_selectCompleted (predicate : CompletedIo → Bool) :
    TookOver engine (engine.completed.filter predicate) (engine.selectCompleted predicate) := by
  refine run_induction (TookOver engine) ?_ (fun _ io took => took.takeOver io) _
  exact ⟨rfl, rfl, rfl, rfl, rfl, rfl, rfl, rfl, fun _ => rfl⟩

end AnalysisEngine

end EbpfStudio
