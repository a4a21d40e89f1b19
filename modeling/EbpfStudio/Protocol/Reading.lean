/-
This file says which retained records the views of one request read.

The index gathers positions from several lists and the construction selects from them again. Put
together, a view reads a record if and only if the record has a property of its own
(`gatheredFor`, `selectedFor`, `candidateFor`, `namesFor`), whatever else is retained. So two
engines that agree on these records have the same views (`ReadAlike`), and two lifetimes of one
request id whose evidence windows are disjoint read different records of this id.
-/

import EbpfStudio.Protocol.Caches
import EbpfStudio.Protocol.Exactness
import EbpfStudio.Protocol.Windows

namespace EbpfStudio

open Positions List AnalysisIndex

def CompletedIo.nearSeconds (io : CompletedIo) (seconds : List Nat) : Bool :=
  (requestTimeBuckets io).any (· ∈ seconds)

def FileIo.gatheredFor (io : CompletedIo) (nodes : List IoNode) (file : FileIo) : Bool :=
  isLong file.startTsNs file.endTsNs ||
    io.nearSeconds file.filedSeconds &&
      (file.pid = io.issue.pid || file.tid ≠ 0 && file.tid = io.issue.tid) ||
    nodes.any fun node => node.file.any fun identity =>
      file.fileIdentity.map fileIdentityBaseKey = some (fileIdentityBaseKey identity)

def PipelineObservation.gatheredFor (io : CompletedIo) (value : PipelineObservation) : Bool :=
  isLong value.tsNs value.endOrStart || value.correlationId = some io.issue.requestId ||
    io.nearSeconds value.filedSeconds &&
      (value.pid = io.issue.pid || value.sector = some io.issue.sector ||
        value.confidence = .contextOnly)

namespace AnalysisEngine

variable (engine : AnalysisEngine)

theorem select_nodesByTransaction (requestId : U64) :
    select engine.graphNodes
        (positionsAt (build engine).nodesByTransaction requestId) =
      nodesOf requestId engine.graphNodes :=
  select_positionsAt (fun node : IoNode => node.transactionId) engine.graphNodes requestId

theorem select_edgesByTransaction (requestId : U64) :
    select engine.graphEdges
        (positionsAt (build engine).edgesByTransaction requestId) =
      edgesOf requestId engine.graphEdges :=
  select_positionsAt (fun edge : IoEdge => edge.transactionId) engine.graphEdges requestId

variable {engine : AnalysisEngine} {io : CompletedIo}

theorem mem_indexedIdentities {key : U32 × U32 × U64} :
    key ∈ engine.indexedIdentities (.build engine) io ↔
      ∃ node ∈ nodesOf io.issue.requestId engine.graphNodes, ∃ identity,
        node.file = some identity ∧ fileIdentityBaseKey identity = key := by
  unfold indexedIdentities
  rw [select_nodesByTransaction, mem_eraseDups]
  simp only [mem_map, mem_filterMap]
  constructor
  · rintro ⟨identity, ⟨node, member, identified⟩, same⟩
    exact ⟨node, member, identity, identified, same⟩
  · rintro ⟨node, member, identity, identified, same⟩
    exact ⟨identity, ⟨node, member, identified⟩, same⟩

variable {position : Nat}

theorem mem_flatMap_seconds {Record : Type} {positions : Nat → List Nat} {at_ : Record → Prop}
    {seconds : Record → List Nat} {matching : Record → Prop}
    (filed : ∀ second, position ∈ positions second ↔ ∃ record, at_ record ∧
      second ∈ seconds record ∧ matching record) :
    position ∈ (requestTimeBuckets io).flatMap positions ↔
      ∃ record, at_ record ∧ io.nearSeconds (seconds record) ∧ matching record := by
  simp only [mem_flatMap, filed, CompletedIo.nearSeconds, any_eq_true,
    decide_eq_true_eq]
  constructor
  · rintro ⟨second, near, record, found, filedHere, matched⟩
    exact ⟨record, found, ⟨second, near, filedHere⟩, matched⟩
  · rintro ⟨record, found, ⟨second, near, filedHere⟩, matched⟩
    exact ⟨second, near, record, found, filedHere, matched⟩

theorem mem_filesAt (second : Nat) :
    position ∈ positionsAt (build engine).filesByPidTime (io.issue.pid, second) ++
        positionsAt (build engine).filesByTidTime (io.issue.tid, second) ↔
      ∃ file, engine.fileIos[position]? = some file ∧ second ∈ file.filedSeconds ∧
        (file.pid = io.issue.pid ∨ file.tid ≠ 0 ∧ file.tid = io.issue.tid) := by
  simp only [build, mem_append, mem_positionsAt, ← exists_or, ← and_or_left]
  refine exists_congr fun file => and_congr_right fun _ => ?_
  by_cases zero : file.tid = 0
  · simp [zero]
  · simpa [zero] using and_or_left.symm

theorem mem_identifiedFiles :
    position ∈ (engine.indexedIdentities (.build engine) io).flatMap
        (positionsAt (build engine).filesByIdentity) ↔
      ∃ file, engine.fileIos[position]? = some file ∧
        ∃ node ∈ nodesOf io.issue.requestId engine.graphNodes, ∃ identity,
          node.file = some identity ∧
            file.fileIdentity.map fileIdentityBaseKey = some (fileIdentityBaseKey identity) := by
  rw [mem_flatMap]
  constructor
  · rintro ⟨key, listed, filed⟩
    obtain ⟨node, member, identity, identified, rfl⟩ := mem_indexedIdentities.mp listed
    obtain ⟨file, found, known⟩ := mem_positionsAt.mp filed
    exact ⟨file, found, node, member, identity, identified, Option.mem_toList.mp known⟩
  · rintro ⟨file, found, node, member, identity, identified, known⟩
    exact ⟨_, mem_indexedIdentities.mpr ⟨node, member, identity, identified, rfl⟩,
      mem_positionsAt.mpr ⟨file, found, Option.mem_toList.mpr known⟩⟩

theorem select_filePositions (engine : AnalysisEngine) (io : CompletedIo) :
    select engine.fileIos (engine.filePositions (.build engine) io) =
      engine.fileIos.filter (·.gatheredFor io (nodesOf io.issue.requestId engine.graphNodes)) := by
  refine select_eq_filter (pairwise_sortDedup _) fun position => ?_
  have long : position ∈ (build engine).longFiles ↔ ∃ file,
      engine.fileIos[position]? = some file ∧ isLong file.startTsNs file.endTsNs = true :=
    by simp only [build, mem_positionsWhere]
  rw [mem_sortDedup, mem_append, mem_append, mem_flatMap_seconds mem_filesAt,
    mem_identifiedFiles, long]
  simp only [← exists_or, ← and_or_left]
  refine exists_congr fun file => and_congr_right fun _ => ?_
  simp [FileIo.gatheredFor, Option.any_eq_true]

theorem mem_observationsAt (second : Nat) :
    position ∈ positionsAt (build engine).observationsByPidTime (io.issue.pid, second) ++
        positionsAt (build engine).observationsBySectorTime (io.issue.sector, second) ++
        positionsAt (build engine).contextObservationsByTime second ↔
      ∃ value, engine.pipelineObservations[position]? = some value ∧
        second ∈ value.filedSeconds ∧ (value.pid = io.issue.pid ∨
          value.sector = some io.issue.sector ∨ value.confidence = .contextOnly) := by
  simp only [build, mem_append, mem_positionsAt, ← exists_or, ← and_or_left]
  refine exists_congr fun value => and_congr_right fun _ => ?_
  cases value.sector <;> by_cases context : value.confidence = .contextOnly <;>
    simp [context] <;> tauto

section

variable (engine : AnalysisEngine) (io : CompletedIo)

theorem select_observationPositions :
    select engine.pipelineObservations (observationPositions (.build engine) io) =
      engine.pipelineObservations.filter (·.gatheredFor io) := by
  refine select_eq_filter (pairwise_sortDedup _) fun position => ?_
  have long : position ∈ (build engine).longObservations ↔ ∃ value,
      engine.pipelineObservations[position]? = some value ∧
        isLong value.tsNs value.endOrStart = true := by
    simp only [build, mem_positionsWhere]
  have correlated : position ∈ positionsAt (build engine).observationsByRequest
      io.issue.requestId ↔ ∃ value, engine.pipelineObservations[position]? = some value ∧
        value.correlationId = some io.issue.requestId := by
    simp only [build, mem_positionsAt, Option.mem_toList]
  rw [mem_sortDedup, mem_append, mem_append, mem_flatMap_seconds mem_observationsAt, long,
    correlated]
  simp only [← exists_or, ← and_or_left]
  refine exists_congr fun value => and_congr_right fun _ => ?_
  simp [PipelineObservation.gatheredFor, or_assoc]

theorem freshTransaction_eq :
    engine.freshTransaction io =
      buildTransactionGraph io
        (engine.fileIos.filter (·.gatheredFor io (nodesOf io.issue.requestId engine.graphNodes)))
        ((engine.pipelineObservations.filter (·.gatheredFor io)).filter
          (engine.observationAllowed io))
        ((nodesOf io.issue.requestId engine.graphNodes).filter (engine.nodeAllowed io))
        (edgesOf io.issue.requestId engine.graphEdges) := by
  unfold freshTransaction indexedTransaction indexedObservations
  rw [select_filePositions, select_observationPositions, select_nodesByTransaction,
    select_edgesByTransaction]

theorem freshPipeline_eq :
    engine.freshPipeline io =
      buildIoPipeline io ((engine.pipelineObservations.filter (·.gatheredFor io)).filter
        (engine.observationAllowed io)) := by
  unfold freshPipeline indexedPipeline indexedObservations
  rw [select_observationPositions]
  split
  · rename_i carried
    exact (buildIoPipeline_of_evidence carried _).symm
  · rfl

end

end AnalysisEngine

/-- A file record is a candidate for the origin of a request: it fits the request and the index
finds it. -/
def FileIo.candidateFor (io : CompletedIo) (nodes : List IoNode) (file : FileIo) : Bool :=
  file.fits io && file.gatheredFor io nodes

/-- A file record may give its path to one of the nodes that were recorded for a request. -/
def FileIo.namesFor (io : CompletedIo) (nodes : List IoNode) (file : FileIo) : Bool :=
  nodes.any fun node => node.file.any fun identity =>
    inferenceCandidate identity io.blockStart io.completion.tsNs file

theorem filter_eq_of_imp {Record : Type} {records others : List Record} {wide keep : Record → Bool}
    (same : records.filter wide = others.filter wide)
    (implies : ∀ record, keep record = true → wide record = true) :
    records.filter keep = others.filter keep := by
  have narrows (list : List Record) : (list.filter wide).filter keep = list.filter keep := by
    rw [filter_filter]
    refine filter_congr fun record _ => ?_
    cases kept : keep record with
    | false => rfl
    | true => rw [implies record kept, Bool.and_true]
  rw [← narrows, same, narrows]

namespace AnalysisEngine

/-- The retained file records that are candidates for the origin of a request. -/
def candidates (engine : AnalysisEngine) (io : CompletedIo) : List FileIo :=
  engine.fileIos.filter (·.candidateFor io (nodesOf io.issue.requestId engine.graphNodes))

/-- Two engines agree on what the views of a request read: on its only candidate, on the file
records that name its nodes, on the observations it selects, on what was recorded for its id, and
on its evidence window. -/
structure ReadAlike (io : CompletedIo) (engine other : AnalysisEngine) : Prop where
  candidates : sole (engine.candidates io) = sole (other.candidates io)
  paths : engine.fileIos.filter (·.namesFor io (nodesOf io.issue.requestId engine.graphNodes)) =
    other.fileIos.filter (·.namesFor io (nodesOf io.issue.requestId engine.graphNodes))
  observations : engine.pipelineObservations.filter (·.selectedFor io) =
    other.pipelineObservations.filter (·.selectedFor io)
  nodes : nodesOf io.issue.requestId engine.graphNodes =
    nodesOf io.issue.requestId other.graphNodes
  edges : edgesOf io.issue.requestId engine.graphEdges =
    edgesOf io.issue.requestId other.graphEdges
  window : engine.evidenceWindows.lookup (requestCacheKey io) =
    other.evidenceWindows.lookup (requestCacheKey io)

section Views

variable {io : CompletedIo} {engine other : AnalysisEngine}

section

variable (alike : ReadAlike io engine other)
include alike

theorem ReadAlike.selected :
    ((engine.pipelineObservations.filter (·.gatheredFor io)).filter
        (engine.observationAllowed io)).filter (·.selectedFor io) =
      ((other.pipelineObservations.filter (·.gatheredFor io)).filter
        (other.observationAllowed io)).filter (·.selectedFor io) := by
  rw [observationAllowed_congr alike.window]
  simp only [filter_filter]
  refine filter_eq_of_imp alike.observations fun value kept => ?_
  exact (Bool.and_eq_true_iff.mp kept).1

theorem ReadAlike.views :
    engine.freshTransaction io = other.freshTransaction io ∧
      engine.freshPipeline io = other.freshPipeline io := by
  constructor
  · rw [freshTransaction_eq, freshTransaction_eq]
    refine buildTransactionGraph_congr
      ⟨?_, fun node member identity identified => ?_, alike.selected, ?_, ?_⟩
    · rw [filter_filter, filter_filter]
      exact alike.candidates
    · rw [← alike.nodes, filter_filter, filter_filter]
      refine filter_eq_of_imp alike.paths fun file kept => ?_
      have recorded := mem_of_mem_filter (mem_of_mem_filter member)
      refine any_eq_true.mpr ⟨node, recorded, ?_⟩
      rw [identified]
      exact (Bool.and_eq_true_iff.mp kept).1
    · rw [alike.nodes, nodeAllowed_congr alike.window]
    · rw [alike.edges]
  · rw [freshPipeline_eq, freshPipeline_eq]
    exact congrArg (pipelineOfSelected io) alike.selected

end

end Views

/-! ### Two lifetimes of one request id -/

section Origins

variable {engine : AnalysisEngine} {io : CompletedIo}

/-- An origin that is reported for a request was recorded for its id, at a time of its own, or is
that of its only candidate. -/
theorem origin_of_mem_freshTransaction {nodeId : U64} {origin : FileOriginView}
    (member : origin ∈ (engine.freshTransaction io).fileOriginsFor nodeId) :
    (∃ node ∈ nodesOf io.issue.requestId engine.graphNodes, engine.nodeAllowed io node = true ∧
      node.file = some origin.file) ∨
    ∃ file, engine.candidates io = [file] ∧ file.fileIdentity = some origin.file := by
  rw [freshTransaction_eq] at member
  obtain ⟨visit, -, at_⟩ := IoTransactionGraph.visited_of_mem_fileOriginsFor member
  obtain ⟨node, found, identity, -⟩ := IoTransactionGraph.originAt_eq_some at_
  replace identity : node.file = some origin.file := identity
  have identified : node.file ≠ none := by
    rw [identity]
    exact Option.some_ne_none _
  obtain ⟨inferred, sources⟩ := sources_buildTransactionGraph io
    (engine.fileIos.filter (·.gatheredFor io (nodesOf io.issue.requestId engine.graphNodes)))
    ((engine.pipelineObservations.filter (·.gatheredFor io)).filter
      (engine.observationAllowed io))
    ((nodesOf io.issue.requestId engine.graphNodes).filter (engine.nodeAllowed io))
    (edgesOf io.issue.requestId engine.graphEdges)
  rcases sources.nodes node (IoTransactionGraph.findNode_eq_some found).1 identified with
    ⟨⟨raw, recorded, -, asRecorded⟩, -⟩ | ⟨file, candidate, same, -⟩
  · obtain ⟨listed, allowed⟩ := mem_filter.mp recorded
    refine .inl ⟨raw, listed, allowed, ?_⟩
    rcases asRecorded with same | ⟨-, -, snapshot, -, same⟩
    · rw [← same, identity]
    · rw [← identity, same]
  · have fits := (fileCandidate_eq_some candidate).2
    rw [filter_filter] at fits
    refine .inr ⟨file, fits, ?_⟩
    rw [← identity, same]
    rfl

/-- Two lifetimes of one id whose windows are disjoint share no recorded node and no correlated
observation before the largest timestamp, and what the first reports as recorded origins is not
recorded for the second. -/
theorem WindowsDisjoint.reads_apart {first second : CompletedIo}
    (disjoint : engine.WindowsDisjoint first second)
    (sameId : first.issue.requestId = second.issue.requestId) :
    (∀ node : IoNode, node.startTsNs < Word.maximum 64 → engine.nodeAllowed first node = true →
      engine.nodeAllowed second node = false) ∧
    (∀ value : PipelineObservation, value.tsNs < Word.maximum 64 →
      value.correlationId = some first.issue.requestId →
      engine.observationAllowed first value = true →
      engine.observationAllowed second value = false) ∧
    ∀ origin ∈ (engine.freshTransaction first).fileOriginsFor first.requestNodeId,
      (∃ node ∈ nodesOf first.issue.requestId engine.graphNodes,
        node.file = some origin.file ∧ engine.nodeAllowed first node = true ∧
          (node.startTsNs < Word.maximum 64 → engine.nodeAllowed second node = false)) ∨
      ∃ file, engine.candidates first = [file] ∧ file.fileIdentity = some origin.file := by
  have nodes (node : IoNode) (before : node.startTsNs < Word.maximum 64)
      (allowed : engine.nodeAllowed first node = true) :
      engine.nodeAllowed second node = false :=
    Bool.eq_false_iff.mpr fun both => disjoint sameId _ before ⟨allowed, both⟩
  refine ⟨nodes, fun value before correlated allowed => ?_, fun origin member => ?_⟩
  · unfold observationAllowed at allowed ⊢
    rw [← sameId]
    rw [correlated] at allowed ⊢
    simp only [ne_eq, not_true_eq_false, decide_false, Bool.false_or] at allowed ⊢
    exact Bool.eq_false_iff.mpr fun both => disjoint sameId _ before ⟨allowed, both⟩
  · refine (origin_of_mem_freshTransaction member).imp_left ?_
    rintro ⟨node, listed, allowed, identity⟩
    exact ⟨node, listed, identity, allowed, fun before => nodes node before allowed⟩

end Origins

end AnalysisEngine

end EbpfStudio
