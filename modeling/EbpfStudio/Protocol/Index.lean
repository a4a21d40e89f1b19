/-
This file models the index through which the engine finds the evidence of one request.

Records are filed by the seconds in which they lie, with long ones apart, and by ids and file
identities. What is gathered for a request is more than the construction uses, and has all of it. So
a view through the index is the view of all records (`indexedTransaction_eq`, `indexedPipeline_eq`).
-/

import EbpfStudio.Library.Positions
import EbpfStudio.Protocol.Transaction

namespace EbpfStudio

open Positions List

def secondNs : Nat := 1_000_000_000

def timeBuckets (startTsNs endTsNs : U64) : List Nat :=
  if endTsNs < startTsNs then []
  else
    let start := startTsNs.val / secondNs
    let count := min (endTsNs.val / secondNs - start + 1) 121
    (List.range count).map fun offset => start + offset

def requestTimeBuckets (io : CompletedIo) : List Nat :=
  if io.completionTimestamp.isNone then []
  else
    let start := io.probableWindowStart.val / secondNs
    List.range' start (io.probableWindowEnd.val / secondNs + 1 - start)

def isLong (startTsNs endTsNs : U64) : Bool := 120 < (timeBuckets startTsNs endTsNs).length

def filedSeconds (startTsNs endTsNs : U64) : List Nat :=
  if isLong startTsNs endTsNs then [] else timeBuckets startTsNs endTsNs

structure AnalysisIndex where
  filesByPidTime : Table (U32 × Nat) (List Nat)
  filesByTidTime : Table (U32 × Nat) (List Nat)
  filesByIdentity : Table (U32 × U32 × U64) (List Nat)
  longFiles : List Nat
  observationsByRequest : Table U64 (List Nat)
  observationsByPidTime : Table (U32 × Nat) (List Nat)
  observationsBySectorTime : Table (U64 × Nat) (List Nat)
  contextObservationsByTime : Table Nat (List Nat)
  longObservations : List Nat
  nodesByTransaction : Table U64 (List Nat)
  edgesByTransaction : Table U64 (List Nat)

def FileIo.filedSeconds (file : FileIo) : List Nat :=
  EbpfStudio.filedSeconds file.startTsNs file.endTsNs

def PipelineObservation.filedSeconds (value : PipelineObservation) : List Nat :=
  EbpfStudio.filedSeconds value.tsNs value.endOrStart

/-- Every table of the index takes the positions in the order of the records, whatever the
other tables take, so each is built on its own here. -/
def AnalysisIndex.build (engine : AnalysisEngine) : AnalysisIndex where
  filesByPidTime := fileUnder (fun file => file.filedSeconds.map fun second => (file.pid, second))
    engine.fileIos
  filesByTidTime := fileUnder
    (fun file => if file.tid = 0 then [] else
      file.filedSeconds.map fun second => (file.tid, second))
    engine.fileIos
  filesByIdentity := fileUnder (fun file => (file.fileIdentity.map fileIdentityBaseKey).toList)
    engine.fileIos
  longFiles := positionsWhere (fun file => isLong file.startTsNs file.endTsNs) engine.fileIos
  observationsByRequest := fileUnder (fun value => value.correlationId.toList)
    engine.pipelineObservations
  observationsByPidTime := fileUnder
    (fun value => value.filedSeconds.map fun second => (value.pid, second))
    engine.pipelineObservations
  observationsBySectorTime := fileUnder
    (fun value => value.sector.elim [] fun sector =>
      value.filedSeconds.map fun second => (sector, second))
    engine.pipelineObservations
  contextObservationsByTime := fileUnder
    (fun value => if value.confidence = .contextOnly then value.filedSeconds else [])
    engine.pipelineObservations
  longObservations := positionsWhere (fun value => isLong value.tsNs value.endOrStart)
    engine.pipelineObservations
  nodesByTransaction := fileUnder (fun node => node.transactionId.toList) engine.graphNodes
  edgesByTransaction := fileUnder (fun edge => edge.transactionId.toList) engine.graphEdges

namespace AnalysisEngine

def indexedIdentities (engine : AnalysisEngine) (index : AnalysisIndex) (io : CompletedIo) :
    List (U32 × U32 × U64) :=
  (((select engine.graphNodes (positionsAt index.nodesByTransaction io.issue.requestId)).filterMap
    (·.file)).map fileIdentityBaseKey).eraseDups

def filePositions (engine : AnalysisEngine) (index : AnalysisIndex) (io : CompletedIo) :
    List Nat :=
  sortDedup (index.longFiles ++
    (requestTimeBuckets io).flatMap (fun second =>
      positionsAt index.filesByPidTime (io.issue.pid, second) ++
        positionsAt index.filesByTidTime (io.issue.tid, second)) ++
    (engine.indexedIdentities index io).flatMap (positionsAt index.filesByIdentity))

def observationPositions (index : AnalysisIndex) (io : CompletedIo) : List Nat :=
  sortDedup (index.longObservations ++
    positionsAt index.observationsByRequest io.issue.requestId ++
    (requestTimeBuckets io).flatMap fun second =>
      positionsAt index.observationsByPidTime (io.issue.pid, second) ++
        positionsAt index.observationsBySectorTime (io.issue.sector, second) ++
        positionsAt index.contextObservationsByTime second)

/-- A correlated observation counts only inside the evidence window of the request. -/
def observationAllowed (engine : AnalysisEngine) (io : CompletedIo)
    (value : PipelineObservation) : Bool :=
  value.correlationId ≠ some io.issue.requestId || engine.evidenceTimeMatches io value.tsNs

def nodeAllowed (engine : AnalysisEngine) (io : CompletedIo) (node : IoNode) : Bool :=
  engine.evidenceTimeMatches io node.startTsNs

def indexedObservations (engine : AnalysisEngine) (index : AnalysisIndex) (io : CompletedIo) :
    List PipelineObservation :=
  (select engine.pipelineObservations (observationPositions index io)).filter
    (engine.observationAllowed io)

def indexedPipeline (engine : AnalysisEngine) (index : AnalysisIndex) (io : CompletedIo) :
    IoPipeline :=
  if io.evidence.isSome then buildIoPipeline io []
  else buildIoPipeline io (engine.indexedObservations index io)

def indexedTransaction (engine : AnalysisEngine) (index : AnalysisIndex) (io : CompletedIo) :
    IoTransactionGraph :=
  buildTransactionGraph io (select engine.fileIos (engine.filePositions index io))
    (engine.indexedObservations index io)
    ((select engine.graphNodes (positionsAt index.nodesByTransaction io.issue.requestId)).filter
      (engine.nodeAllowed io))
    (select engine.graphEdges (positionsAt index.edgesByTransaction io.issue.requestId))

def wholePipeline (engine : AnalysisEngine) (io : CompletedIo) : IoPipeline :=
  buildIoPipeline io (engine.pipelineObservations.filter (engine.observationAllowed io))

def wholeTransaction (engine : AnalysisEngine) (io : CompletedIo) : IoTransactionGraph :=
  buildTransactionGraph io engine.fileIos
    (engine.pipelineObservations.filter (engine.observationAllowed io))
    (engine.graphNodes.filter (engine.nodeAllowed io)) engine.graphEdges

end AnalysisEngine

variable {startTsNs endTsNs : U64}

theorem mem_filedSeconds (ordered : startTsNs ≤ endTsNs)
    (short : isLong startTsNs endTsNs = false) {second : Nat} :
    second ∈ filedSeconds startTsNs endTsNs ↔
      startTsNs.val / secondNs ≤ second ∧ second ≤ endTsNs.val / secondNs := by
  have first : startTsNs.val / secondNs ≤ endTsNs.val / secondNs :=
    Nat.div_le_div_right (Fin.le_def.mp ordered)
  have few : min (endTsNs.val / secondNs - startTsNs.val / secondNs + 1) 121 ≤ 120 := by
    unfold isLong timeBuckets at short
    rw [if_neg (not_lt.mpr ordered)] at short
    simpa using short
  unfold filedSeconds timeBuckets
  rw [if_neg (by rw [short]; decide), if_neg (not_lt.mpr ordered)]
  simp only [mem_map, mem_range]
  constructor
  · rintro ⟨offset, below, rfl⟩
    omega
  · rintro ⟨low, high⟩
    exact ⟨second - startTsNs.val / secondNs, by omega, by omega⟩

theorem mem_requestTimeBuckets {io : CompletedIo} (own : io.evidence = none) {second : Nat} :
    second ∈ requestTimeBuckets io ↔
      io.probableWindowStart.val / secondNs ≤ second ∧
        second ≤ io.probableWindowEnd.val / secondNs := by
  have timed : io.completionTimestamp.isNone = false := by
    simp [CompletedIo.completionTimestamp, own]
  unfold requestTimeBuckets
  rw [if_neg (by rw [timed]; decide), mem_range'_1]
  omega

namespace CompletedIo

theorem probableWindowStart_le (io : CompletedIo) : io.probableWindowStart ≤ io.blockStart :=
  Word.saturatingSub_le _ _

theorem le_probableWindowEnd (io : CompletedIo) : io.completion.tsNs ≤ io.probableWindowEnd :=
  Word.le_saturatingAdd _ _

end CompletedIo

theorem exists_request_second {io : CompletedIo} (own : io.evidence = none)
    (forward : io.blockStart ≤ io.completion.tsNs) (ordered : startTsNs ≤ endTsNs)
    (short : isLong startTsNs endTsNs = false) (reaches : startTsNs ≤ io.probableWindowEnd)
    (leaves : io.probableWindowStart ≤ endTsNs) :
    ∃ second ∈ filedSeconds startTsNs endTsNs, second ∈ requestTimeBuckets io := by
  have window : io.probableWindowStart ≤ io.probableWindowEnd :=
    io.probableWindowStart_le.trans (forward.trans io.le_probableWindowEnd)
  refine ⟨max startTsNs.val io.probableWindowStart.val / secondNs,
    (mem_filedSeconds ordered short).mpr ⟨?_, ?_⟩, (mem_requestTimeBuckets own).mpr ⟨?_, ?_⟩⟩
  · exact Nat.div_le_div_right (le_max_left _ _)
  · exact Nat.div_le_div_right (max_le ordered leaves)
  · exact Nat.div_le_div_right (le_max_right _ _)
  · exact Nat.div_le_div_right (max_le reaches window)

namespace AnalysisEngine

variable {engine : AnalysisEngine} {position : Nat} {io : CompletedIo}

theorem mem_filePositions_of_fits (own : io.evidence = none)
    (forward : io.blockStart ≤ io.completion.tsNs) {file : FileIo}
    (found : engine.fileIos[position]? = some file) (ordered : file.startTsNs ≤ file.endTsNs)
    (fits : file.fits io = true) : position ∈ engine.filePositions (.build engine) io := by
  simp only [FileIo.fits, Bool.and_eq_true, Bool.or_eq_true, decide_eq_true_eq] at fits
  obtain ⟨⟨⟨-, reaches, leaves⟩, -⟩, task⟩ := fits
  unfold filePositions
  rw [mem_sortDedup, mem_append, mem_append]
  refine .inl ?_
  cases long : isLong file.startTsNs file.endTsNs with
  | true =>
    have listed : position ∈ positionsWhere
        (fun file : FileIo => isLong file.startTsNs file.endTsNs) engine.fileIos :=
      mem_positionsWhere.mpr ⟨file, found, long⟩
    exact .inl listed
  | false =>
    obtain ⟨second, filed, near⟩ := exists_request_second own forward ordered long reaches leaves
    refine .inr (mem_flatMap.mpr ⟨second, near, mem_append.mpr ?_⟩)
    rcases task with process | ⟨nonzero, thread⟩
    · refine .inl (mem_positionsAt.mpr ⟨file, found, mem_map.mpr ⟨second, filed, ?_⟩⟩)
      rw [process]
    · refine .inr (mem_positionsAt.mpr ⟨file, found, ?_⟩)
      rw [if_neg nonzero]
      exact mem_map.mpr ⟨second, filed, by rw [thread]⟩

theorem mem_filePositions_of_inference {node : IoNode} (recorded : node ∈ engine.graphNodes)
    (ofRequest : node.transactionId = some io.issue.requestId) {identity : FileIdentity}
    (identified : node.file = some identity) {file : FileIo}
    (found : engine.fileIos[position]? = some file)
    (candidate : inferenceCandidate identity io.blockStart io.completion.tsNs file = true) :
    position ∈ engine.filePositions (.build engine) io := by
  simp only [inferenceCandidate, Bool.and_eq_true] at candidate
  obtain ⟨other, known, compatible⟩ := (Option.any_eq_true _ _).mp candidate.1.1.1
  have sameKey : fileIdentityBaseKey other = fileIdentityBaseKey identity := by
    simp only [fileIdentitiesCompatible, Bool.and_eq_true, decide_eq_true_eq] at compatible
    exact compatible.1.1
  have selected : node ∈ select engine.graphNodes
      (positionsAt (AnalysisIndex.build engine).nodesByTransaction io.issue.requestId) := by
    have filtered := select_positionsAt (fun node : IoNode => node.transactionId)
      engine.graphNodes io.issue.requestId
    refine filtered.symm ▸ mem_filter.mpr ⟨recorded, decide_eq_true ofRequest⟩
  unfold filePositions
  rw [mem_sortDedup, mem_append]
  refine .inr (mem_flatMap.mpr ⟨fileIdentityBaseKey identity, ?_, ?_⟩)
  · unfold indexedIdentities
    rw [mem_eraseDups]
    exact mem_map.mpr ⟨identity, mem_filterMap.mpr ⟨node, selected, identified⟩, rfl⟩
  · refine mem_positionsAt.mpr ⟨file, found, ?_⟩
    rw [known, Option.map_some, sameKey]
    exact mem_singleton.mpr rfl

variable {value : PipelineObservation}

theorem near_of_overlaps (overlaps : value.overlaps io = true) :
    value.tsNs ≤ io.probableWindowEnd ∧ io.probableWindowStart ≤ value.endOrStart := by
  unfold PipelineObservation.overlaps at overlaps
  split at overlaps
  · simpa using overlaps
  · rw [Bool.and_eq_true, decide_eq_true_eq, decide_eq_true_eq] at overlaps
    exact ⟨overlaps.1.trans io.le_probableWindowEnd, io.probableWindowStart_le.trans overlaps.2⟩

theorem selectedFor_cases (own : io.evidence = none) (selected : value.selectedFor io = true) :
    value.tsNs ≤ value.endOrStart ∧ (value.correlationId = some io.issue.requestId ∨
      value.overlaps io = true ∧ (value.confidence = .contextOnly ∨
        value.storageMatch io = true ∨ value.threadMatch io = true)) := by
  unfold PipelineObservation.selectedFor at selected
  rw [own, if_neg (by decide)] at selected
  split at selected
  · cases selected
  rename_i ordered
  refine ⟨not_lt.mp ordered, ?_⟩
  split at selected
  · cases selected
  split at selected
  · rename_i correlated
    exact .inl (of_decide_eq_true correlated)
  · rw [Bool.and_eq_true, Bool.or_eq_true, Bool.or_eq_true, decide_eq_true_eq,
      or_assoc] at selected
    exact .inr selected

theorem mem_observationPositions (own : io.evidence = none)
    (forward : io.blockStart ≤ io.completion.tsNs)
    (found : engine.pipelineObservations[position]? = some value)
    (selected : value.selectedFor io = true) :
    position ∈ observationPositions (.build engine) io := by
  obtain ⟨ordered, correlated | ⟨overlaps, matched⟩⟩ := selectedFor_cases own selected
  all_goals
    unfold observationPositions
    rw [mem_sortDedup, mem_append, mem_append]
  · refine .inl (.inr (mem_positionsAt.mpr ⟨value, found, ?_⟩))
    rw [correlated]
    exact mem_singleton.mpr rfl
  · obtain ⟨starts, ends⟩ := near_of_overlaps overlaps
    cases long : isLong value.tsNs value.endOrStart with
    | true =>
      have listed : position ∈ positionsWhere
          (fun value : PipelineObservation => isLong value.tsNs value.endOrStart)
          engine.pipelineObservations := mem_positionsWhere.mpr ⟨value, found, long⟩
      exact .inl (.inl listed)
    | false =>
      obtain ⟨second, filed, shared⟩ :=
        exists_request_second own forward ordered long starts ends
      refine .inr (mem_flatMap.mpr ⟨second, shared, ?_⟩)
      rw [mem_append, mem_append]
      rcases matched with context | storage | thread
      · refine .inr (mem_positionsAt.mpr ⟨value, found, ?_⟩)
        rw [if_pos context]
        exact filed
      · simp only [PipelineObservation.storageMatch, Bool.and_eq_true, decide_eq_true_eq] at storage
        refine .inl (.inr (mem_positionsAt.mpr ⟨value, found, ?_⟩))
        rw [storage.1, Option.elim_some]
        exact mem_map.mpr ⟨second, filed, rfl⟩
      · simp only [PipelineObservation.threadMatch, Bool.and_eq_true, decide_eq_true_eq] at thread
        refine .inl (.inl (mem_positionsAt.mpr ⟨value, found, ?_⟩))
        rw [thread.1]
        exact mem_map.mpr ⟨second, filed, rfl⟩

theorem selected_indexedObservations (own : io.evidence = none)
    (forward : io.blockStart ≤ io.completion.tsNs) :
    (engine.indexedObservations (.build engine) io).filter (·.selectedFor io) =
      (engine.pipelineObservations.filter (engine.observationAllowed io)).filter
        (·.selectedFor io) := by
  unfold indexedObservations
  refine (filter_comm _ _ _).trans (Eq.trans ?_ (filter_comm _ _ _))
  exact congrArg _ (filter_select (pairwise_sortDedup _) fun _ _ found selected =>
    mem_observationPositions own forward found selected)

theorem sameEvidence_indexed (own : io.evidence = none)
    (forward : io.blockStart ≤ io.completion.tsNs)
    (ordered : ∀ file ∈ engine.fileIos, file.startTsNs ≤ file.endTsNs) :
    SameEvidence io (select engine.fileIos (engine.filePositions (.build engine) io))
      engine.fileIos (engine.indexedObservations (.build engine) io)
      (engine.pipelineObservations.filter (engine.observationAllowed io))
      ((select engine.graphNodes (positionsAt (AnalysisIndex.build engine).nodesByTransaction
        io.issue.requestId)).filter (engine.nodeAllowed io))
      (engine.graphNodes.filter (engine.nodeAllowed io))
      (select engine.graphEdges (positionsAt (AnalysisIndex.build engine).edgesByTransaction
        io.issue.requestId)) engine.graphEdges := by
  have nodes : select engine.graphNodes (positionsAt
      (AnalysisIndex.build engine).nodesByTransaction io.issue.requestId) =
      nodesOf io.issue.requestId engine.graphNodes :=
    select_positionsAt (fun node : IoNode => node.transactionId) _ _
  have edges : select engine.graphEdges (positionsAt
      (AnalysisIndex.build engine).edgesByTransaction io.issue.requestId) =
      edgesOf io.issue.requestId engine.graphEdges :=
    select_positionsAt (fun edge : IoEdge => edge.transactionId) _ _
  rw [nodes, edges]
  refine ⟨?_, fun node member identity identified => ?_, ?_, ?_, ?_⟩
  · refine congrArg sole (filter_select (pairwise_sortDedup _) fun position file found fits => ?_)
    exact mem_filePositions_of_fits own forward found
      (ordered file (mem_of_getElem? found)) fits
  · refine filter_select (pairwise_sortDedup _) fun position file found candidate => ?_
    have recorded := mem_filter.mp (mem_of_mem_filter (mem_of_mem_filter member))
    exact mem_filePositions_of_inference recorded.1 (of_decide_eq_true recorded.2) identified
      found candidate
  · exact selected_indexedObservations own forward
  · unfold nodesOf
    simp only [filter_filter]
    refine filter_congr fun node _ => ?_
    cases ofTransaction io.issue.requestId node.transactionId <;> simp
  · unfold edgesOf
    rw [filter_filter]
    simp only [Bool.and_self]

section

variable (forward : io.evidence = none → io.blockStart ≤ io.completion.tsNs)
include forward

theorem indexedTransaction_eq (ordered : ∀ file ∈ engine.fileIos, file.startTsNs ≤ file.endTsNs) :
    engine.indexedTransaction (.build engine) io = engine.wholeTransaction io := by
  cases own : io.evidence with
  | none => exact buildTransactionGraph_congr (sameEvidence_indexed own (forward own) ordered)
  | some evidence =>
    have carried : io.evidence.isSome = true := by rw [own]; rfl
    unfold indexedTransaction wholeTransaction
    rw [buildTransactionGraph_of_evidence carried, buildTransactionGraph_of_evidence carried]

theorem indexedPipeline_eq :
    engine.indexedPipeline (.build engine) io = engine.wholePipeline io := by
  unfold indexedPipeline wholePipeline
  cases own : io.evidence with
  | none =>
    rw [if_neg (by decide)]
    exact congrArg (pipelineOfSelected io) (selected_indexedObservations own (forward own))
  | some evidence =>
    rw [if_pos (Option.isSome_some)]
    exact (buildIoPipeline_of_evidence (by rw [own]; rfl) _).symm

end

end AnalysisEngine

end EbpfStudio
