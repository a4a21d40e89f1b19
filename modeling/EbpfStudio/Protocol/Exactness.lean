/-
This file proves what stands behind an origin that a transaction graph calls exact.

An exact visit needs an exact edge that leaves the node. Such an edge is recorded, or it leaves a
file operation that took the id of the request, which the order of its times excludes. `Sources`
follows through the construction of the graph which nodes have an identity and which exact edges
leave them.
-/

import EbpfStudio.Protocol.Transaction

namespace EbpfStudio

open List Option IoTransactionGraph RawNodes

def CompletedIo.Timed (io : CompletedIo) : Prop :=
  io.deviceLatencyNs = none ∨ io.issue.tsNs ≤ io.completion.tsNs

namespace IoTransactionGraph

/-! ### The derived part of the graph -/

/-- In the derived graph only the fitting file operation has an identity, and no exact edge
leaves it unless it took the id of the request. -/
structure Derived (io : CompletedIo) (candidate : Option IoNode)
    (graph : IoTransactionGraph) : Prop where
  wellFormed : graph.WellFormed
  request : io.Timed → io.requestNode ∈ graph.nodes
  files : ∀ node ∈ graph.nodes, node.file = none ∨ candidate = some node
  present : ∀ node, candidate = some node → node ∈ graph.nodes
  quiet : ∀ node, candidate = some node → node.nodeId ≠ io.requestNodeId →
    ∀ edge ∈ graph.edges, edge.fromNodeId = node.nodeId → edge.confidence ≠ .exact

variable {graph : IoTransactionGraph} {io : CompletedIo} {candidate : Option IoNode}

theorem Derived.addNode (derived : graph.Derived io candidate) (node : IoNode)
    (plain : node.file = none) :
    (graph.addNode node).1.Derived io candidate := by
  rcases graph.addNode_cases node with ⟨same, -⟩ | ⟨added, -⟩
  · rw [same]
    exact derived
  · have wellFormed := wellFormed_addNode derived.wellFormed node
    rw [added] at wellFormed ⊢
    refine ⟨wellFormed, fun timed => mem_append_left _ (derived.request timed),
      Run.forall_mem_snoc derived.files (.inl plain), fun other is => ?_, derived.quiet⟩
    exact mem_append_left _ (derived.present other is)

theorem Derived.addEdge (derived : graph.Derived io candidate) (edge : IoEdge)
    (apart : ∀ node, candidate = some node → node.nodeId ≠ io.requestNodeId → edge.fromNodeId =
      node.nodeId → edge.confidence ≠ .exact) :
    (graph.addEdge edge).1.Derived io candidate := by
  rcases graph.addEdge_cases edge with ⟨same, -⟩ | ⟨added, -⟩
  · rw [same]
    exact derived
  · have wellFormed := wellFormed_addEdge derived.wellFormed edge
    rw [added] at wellFormed ⊢
    refine ⟨wellFormed, derived.request, derived.files, derived.present,
      fun node is other from_ member => ?_⟩
    rcases mem_append.mp member with old | new
    · exact derived.quiet node is other from_ old
    · rw [mem_singleton.mp new]
      exact apart node is other

theorem addNode_requestNode (timed : io.Timed) :
    ((new io.issue.requestId).addNode io.requestNode).1.nodes = [io.requestNode] := by
  have ordered : ¬ io.requestNode.endOrStart < io.requestNode.startTsNs := by
    unfold IoNode.endOrStart CompletedIo.requestNode
    rcases timed with unmeasured | ordered
    · rw [unmeasured]
      exact lt_irrefl _
    · cases io.deviceLatencyNs with
      | none => exact lt_irrefl _
      | some _ => exact not_lt.mpr ordered
  unfold addNode
  rw [if_neg ordered]
  rfl

theorem derived_blockGraph (io : CompletedIo) :
    io.blockGraph.Derived io none := by
  have request : ((new io.issue.requestId).addNode io.requestNode).1.Derived io none := by
    refine ⟨wellFormed_addNode (wellFormed_new _) _, fun timed => ?_, fun node member => ?_,
      fun _ is => (nomatch is), fun _ is => (nomatch is)⟩
    · rw [addNode_requestNode timed]
      exact mem_singleton.mpr rfl
    · rcases (new io.issue.requestId).addNode_cases io.requestNode with ⟨same, -⟩ | ⟨added, -⟩
      · rw [same] at member
        exact absurd member not_mem_nil
      · rw [added] at member
        rw [mem_singleton.mp member]
        exact .inl rfl
  unfold CompletedIo.blockGraph
  cases io.insert with
  | none => exact request
  | some insert =>
    exact (request.addNode (io.queueNode insert) rfl).addEdge io.queueEdge
      fun _ is => nomatch is

theorem Derived.joinCandidate {graph after : IoTransactionGraph} (derived : graph.Derived io none)
    {candidate : IoNode} (wellFormed : after.WellFormed)
    (added : after = { graph with nodes := graph.nodes ++ [candidate] })
    (fresh : ∀ other ∈ graph.nodes, other.nodeId ≠ candidate.nodeId) :
    after.Derived io (some candidate) := by
  refine ⟨wellFormed, ?_, ?_, ?_, ?_⟩
  · intro timed
    rw [added]
    exact mem_append_left _ (derived.request timed)
  · rw [added]
    refine Run.forall_mem_snoc (fun node old => .inl ?_) (.inr rfl)
    exact (derived.files node old).resolve_right fun is => by cases is
  · intro node is
    rw [added, ← some.inj is]
    exact mem_concat_self
  · intro node is _ edge member from_
    rw [added] at member
    obtain ⟨source, old, -, -, same, -⟩ := derived.wellFormed.endpoints edge member
    rw [from_, ← some.inj is] at same
    exact absurd same (fresh source old)

theorem Derived.addFile (derived : graph.Derived io none) (file : FileIo) :
    ∃ candidate, (graph.addFile io file).Derived io candidate ∧
      ∀ node, candidate = some node → node = file.graphNode io ∧
        ∀ other ∈ graph.nodes, other.nodeId ≠ node.nodeId := by
  have wellFormed := wellFormed_addNode derived.wellFormed (file.graphNode io)
  have outcome := graph.addNode_cases (file.graphNode io)
  unfold IoTransactionGraph.addFile
  split
  · rename_i after taken
    rw [taken] at outcome wellFormed
    rcases outcome with ⟨-, failed⟩ | ⟨added, -, -, fresh⟩
    · exact absurd rfl failed
    · have joined := derived.joinCandidate wellFormed added fresh
      refine ⟨some (file.graphNode io), joined.addEdge _ ?_, ?_⟩
      · intro node is _ _
        unfold FileIo.graphEdge
        dsimp only
        split <;> decide
      · intro node is
        rw [← some.inj is]
        exact ⟨rfl, fresh⟩
  · rename_i after error rejected
    rw [rejected] at outcome
    rcases outcome with ⟨same, -⟩ | ⟨-, accepted, -⟩
    · dsimp only at same
      rw [same]
      exact ⟨none, derived, fun _ is => nomatch is⟩
    · cases accepted

end IoTransactionGraph

/-! ### The chains of spans -/

namespace SpanChains

structure Apart (io : CompletedIo) (candidate : Option IoNode) (chains : SpanChains) :
    Prop where
  derived : chains.graph.Derived io candidate
  upperPrior : ∀ node, candidate = some node → chains.upperPrior ≠ some node.nodeId
  upperLast : ∀ node, candidate = some node → ∀ confidence,
    chains.upperLast ≠ some (node.nodeId, confidence)
  lowerPrior : ∀ node, candidate = some node → chains.lowerPrior ≠ some node.nodeId

variable {chains : SpanChains}

section

variable {io : CompletedIo} {candidate : Option IoNode} (apart : chains.Apart io candidate)

include apart

theorem Apart.extend (requestId : U64) (index : Nat) (span : PipelineSpan)
    (fresh : ∀ node, candidate = some node →
      node.nodeId ≠ PipelineSpan.graphNodeId requestId index) :
    (chains.extend requestId index span).Apart io candidate := by
  have linked : ((chains.prior span).elim chains.graph fun parent =>
      (chains.graph.addEdge (span.chainEdge requestId index parent)).1).Derived
        io candidate := by
    cases known : chains.prior span with
    | none => exact apart.derived
    | some parent =>
      refine apart.derived.addEdge _ fun node is _ same => ?_
      have prior : chains.prior span = some node.nodeId := known.trans (congrArg some same)
      unfold SpanChains.prior at prior
      split at prior
      · exact absurd prior (apart.upperPrior node is)
      · exact absurd prior (apart.lowerPrior node is)
  unfold SpanChains.extend
  split
  · refine ⟨linked, fun node is same => ?_, fun node is confidence same => ?_, apart.lowerPrior⟩
    · exact fresh node is (some.inj same).symm
    · exact fresh node is (congrArg Prod.fst (some.inj same)).symm
  · refine ⟨linked, apart.upperPrior, apart.upperLast, fun node is same => ?_⟩
    exact fresh node is (some.inj same).symm

theorem Apart.addSpan (requestId : U64) (entry : PipelineSpan × Nat) :
    (chains.addSpan requestId entry).Apart io candidate := by
  unfold SpanChains.addSpan
  split
  · rename_i added taken
    have joined := apart.derived.addNode (entry.1.graphNode requestId entry.2) rfl
    rw [taken] at joined
    have kept : SpanChains.Apart io candidate { chains with graph := added } :=
      ⟨joined, apart.upperPrior, apart.upperLast, apart.lowerPrior⟩
    refine kept.extend requestId entry.2 entry.1 fun node is => ?_
    rcases chains.graph.addNode_cases (entry.1.graphNode requestId entry.2) with
      ⟨-, failed⟩ | ⟨-, -, -, fresh⟩
    · rw [taken] at failed
      exact absurd rfl failed
    · exact fresh node (apart.derived.present node is)
  · exact apart

theorem Apart.close : (chains.close io).Derived io candidate := by
  have upper : ∀ nodeId confidence, chains.upperLast = some (nodeId, confidence) →
      ∀ node, candidate = some node → nodeId ≠ node.nodeId := by
    intro nodeId confidence last node is same
    rw [same] at last
    exact apart.upperLast node is confidence last
  unfold SpanChains.close
  cases last : chains.upperLast with
  | none =>
    cases chains.lowerFirst with
    | none => exact apart.derived
    | some first => exact apart.derived.addEdge _ fun node _ other same => absurd same.symm other
  | some entry =>
    have above := apart.derived.addEdge
      { edgeId := syntheticNodeId 90 io.issue.requestId
        transactionId := some io.issue.requestId
        fromNodeId := entry.1
        toNodeId := (io.insert.map fun _ => io.queueNodeId).getD io.requestNodeId
        relation := .submits
        confidence := entry.2
        evidence := [] }
      fun node is _ same => absurd same (upper entry.1 entry.2 last node is)
    cases chains.lowerFirst with
    | none => exact above
    | some first => exact above.addEdge _ fun node _ other same => absurd same.symm other

end

end SpanChains

variable {graph : IoTransactionGraph} {io : CompletedIo}

theorem IoTransactionGraph.Derived.addSpans {candidate : Option IoNode}
    (derived : graph.Derived io candidate) (pipeline : IoPipeline) :
    (graph.addSpans io pipeline).Derived io candidate := by
  refine SpanChains.Apart.close ?_
  have start : SpanChains.Apart io candidate { graph := graph } :=
    ⟨derived, fun _ _ same => (nomatch same), fun _ _ _ same => (nomatch same),
      fun _ _ same => (nomatch same)⟩
  exact foldlRecOn _ _ start fun chains apart entry _ => apart.addSpan _ entry

theorem derived_derivedGraph (io : CompletedIo) (file : Option FileIo) (pipeline : IoPipeline) :
    ∃ candidate, (derivedGraph io file pipeline).Derived io candidate ∧
      ∀ node, candidate = some node → (∃ fitting, file = some fitting ∧
        node = fitting.graphNode io) ∧ (io.Timed → node.nodeId ≠ io.requestNodeId) := by
  have block := derived_blockGraph io
  cases file with
  | none => exact ⟨none, block.addSpans pipeline, fun _ is => nomatch is⟩
  | some fitting =>
    obtain ⟨candidate, derived, known⟩ := block.addFile fitting
    refine ⟨candidate, derived.addSpans pipeline, fun node is => ?_⟩
    obtain ⟨same, fresh⟩ := known node is
    exact ⟨⟨fitting, rfl, same⟩, fun timed equal =>
      fresh io.requestNode (block.request timed) equal.symm⟩

/-! ### The recorded part of the graph -/

/-- A node of the graph that the capture recorded for this transaction, as it was recorded or
with an inferred path. -/
def IsRecorded (io : CompletedIo) (files : List FileIo) (rawNodes : List IoNode)
    (inferred : List U64) (node : IoNode) : Prop :=
  ∃ raw ∈ rawNodes, raw.transactionId = some io.issue.requestId ∧
    (node = raw ∨ raw.path = none ∧ raw.nodeId ∈ inferred ∧
      ∃ snapshot, inferredOriginPath raw files io.blockStart io.completion.tsNs = some snapshot ∧
        node = { raw with path := some snapshot })

variable {rawNodes : List IoNode} {files : List FileIo} {inferred : List U64} {node : IoNode}

theorem IsRecorded.mono (recorded : IsRecorded io files rawNodes inferred node) (nodeId : U64) :
    IsRecorded io files rawNodes (nodeId :: inferred) node := by
  obtain ⟨raw, member, own, plain | ⟨without, marked, path⟩⟩ := recorded
  · exact ⟨raw, member, own, .inl plain⟩
  · exact ⟨raw, member, own, .inr ⟨without, mem_cons_of_mem _ marked, path⟩⟩

structure RawNodes.Joined (io : CompletedIo) (files : List FileIo) (rawNodes : List IoNode)
    (base : IoTransactionGraph) (state : RawNodes) : Prop where
  wellFormed : state.graph.WellFormed
  edges : state.graph.edges = base.edges
  kept : ∀ node ∈ base.nodes, node ∈ state.graph.nodes
  nodes : ∀ node ∈ state.graph.nodes, node ∈ base.nodes ∨
    IsRecorded io files rawNodes state.inferred node ∧
      ∀ other ∈ base.nodes, other.nodeId ≠ node.nodeId

variable {base : IoTransactionGraph}

theorem RawNodes.Joined.addNode {state : RawNodes} (joined : state.Joined io files rawNodes base)
    (grown : ∀ other, IsRecorded io files rawNodes state.inferred other →
      IsRecorded io files rawNodes inferred other)
    (recorded : IsRecorded io files rawNodes inferred node) :
    Joined io files rawNodes base ⟨(state.graph.addNode node).1, inferred⟩ := by
  have old : ∀ other ∈ state.graph.nodes, other ∈ base.nodes ∨
      IsRecorded io files rawNodes inferred other ∧
        ∀ derived ∈ base.nodes, derived.nodeId ≠ other.nodeId :=
    fun other member => (joined.nodes other member).imp_right (And.imp_left (grown other))
  have wellFormed := wellFormed_addNode joined.wellFormed node
  rcases state.graph.addNode_cases node with ⟨same, -⟩ | ⟨added, -, -, fresh⟩
  · rw [same]
    exact ⟨joined.wellFormed, joined.edges, joined.kept, old⟩
  · rw [added] at wellFormed ⊢
    refine ⟨wellFormed, joined.edges, fun other member => ?_, Run.forall_mem_snoc old ?_⟩
    · exact mem_append_left _ (joined.kept other member)
    · exact .inr ⟨recorded, fun derived present => fresh derived (joined.kept _ present)⟩

theorem RawNodes.Joined.addRawNode {state : RawNodes}
    (joined : state.Joined io files rawNodes base) (member : node ∈ rawNodes) :
    (state.addRawNode io files node).Joined io files rawNodes base := by
  unfold RawNodes.addRawNode
  split
  · rename_i own
    have own : node.transactionId = some io.issue.requestId := of_decide_eq_true own
    split
    · rename_i snapshot without inferred
      exact joined.addNode (fun _ recorded => recorded.mono node.nodeId)
        ⟨node, member, own, .inr ⟨without, mem_cons_self, snapshot, inferred, rfl⟩⟩
    · exact joined.addNode (fun _ recorded => recorded) ⟨node, member, own, .inl rfl⟩
  · exact joined

def IsRecordedEdge (io : CompletedIo) (rawEdges : List IoEdge) (inferred : List U64)
    (edge : IoEdge) : Prop :=
  ∃ raw ∈ rawEdges, raw.transactionId = some io.issue.requestId ∧ edge = raw.enrich inferred

theorem fromNodeId_enrich (inferred : List U64) (edge : IoEdge) :
    (edge.enrich inferred).fromNodeId = edge.fromNodeId := by
  unfold IoEdge.enrich
  split <;> rfl

theorem confidence_enrich (inferred : List U64) (edge : IoEdge) :
    (edge.enrich inferred).confidence = edge.confidence := by
  unfold IoEdge.enrich
  split <;> rfl

theorem hasEvidence_enrich {edge : IoEdge} (marked : edge.fromNodeId ∈ inferred) :
    (edge.enrich inferred).hasEvidence "inferred_path_snapshot" = true := by
  unfold IoEdge.enrich IoEdge.hasEvidence
  rw [if_pos marked]
  simp [inferredPathEvidence]

structure EdgesJoined (io : CompletedIo) (rawEdges : List IoEdge) (inferred : List U64)
    (base graph : IoTransactionGraph) : Prop where
  wellFormed : graph.WellFormed
  nodes : graph.nodes = base.nodes
  edges : ∀ edge ∈ graph.edges, edge ∈ base.edges ∨ IsRecordedEdge io rawEdges inferred edge

variable {rawEdges : List IoEdge}

theorem EdgesJoined.addRawEdge {base graph : IoTransactionGraph}
    (joined : EdgesJoined io rawEdges inferred base graph) {edge : IoEdge}
    (member : edge ∈ rawEdges) :
    EdgesJoined io rawEdges inferred base
      (graph.addRawEdge io.issue.requestId inferred edge) := by
  unfold IoTransactionGraph.addRawEdge
  split
  · rename_i accepted
    simp only [Bool.and_eq_true] at accepted
    have own : edge.transactionId = some io.issue.requestId := of_decide_eq_true accepted.1.1
    have wellFormed := IoTransactionGraph.wellFormed_addEdge joined.wellFormed
      (edge.enrich inferred)
    rcases graph.addEdge_cases (edge.enrich inferred) with ⟨same, -⟩ | ⟨added, -⟩
    · rw [same]
      exact joined
    · rw [added] at wellFormed ⊢
      exact ⟨wellFormed, joined.nodes,
        Run.forall_mem_snoc joined.edges (.inr ⟨edge, member, own, rfl⟩)⟩
  · exact joined

/-! ### Where the origins of a request come from -/

/-- A node with an identity is a recorded one, and then only recorded edges leave it, or the
file operation that fits, and then only recorded edges that leave it are exact. -/
structure Sources (io : CompletedIo) (files : List FileIo) (file : Option FileIo)
    (rawNodes : List IoNode) (rawEdges : List IoEdge) (inferred : List U64)
    (graph : IoTransactionGraph) : Prop where
  wellFormed : graph.WellFormed
  request : io.Timed → io.requestNode ∈ graph.nodes
  nodes : ∀ node ∈ graph.nodes, node.file ≠ none →
    (IsRecorded io files rawNodes inferred node ∧
      ∀ edge ∈ graph.edges, edge.fromNodeId = node.nodeId →
        IsRecordedEdge io rawEdges inferred edge) ∨
    ∃ fitting, file = some fitting ∧ node = fitting.graphNode io ∧
      (io.Timed → ∀ edge ∈ graph.edges, edge.fromNodeId = node.nodeId →
        edge.confidence = .exact → IsRecordedEdge io rawEdges inferred edge)

theorem sources_buildTransactionGraph (io : CompletedIo) (files : List FileIo)
    (observations : List PipelineObservation) (rawNodes : List IoNode)
    (rawEdges : List IoEdge) :
    ∃ inferred, Sources io files (fileCandidate io files rawNodes rawEdges) rawNodes rawEdges
      inferred (buildTransactionGraph io files observations rawNodes rawEdges) := by
  unfold buildTransactionGraph
  split
  · have block := derived_blockGraph io
    refine ⟨[], block.wellFormed, block.request, fun node member identity => ?_⟩
    exact absurd ((block.files node member).resolve_right fun is => nomatch is) identity
  · obtain ⟨candidate, derived, known⟩ := derived_derivedGraph io
      (fileCandidate io files rawNodes rawEdges) (buildIoPipeline io observations)
    generalize derivedGraph io (fileCandidate io files rawNodes rawEdges)
      (buildIoPipeline io observations) = base at derived ⊢
    have start : Joined io files rawNodes base { graph := base } :=
      ⟨derived.wellFormed, rfl, fun _ member => member, fun _ member => .inl member⟩
    have nodes : (rawNodes.foldl (addRawNode io files) { graph := base }).Joined
        io files rawNodes base :=
      foldlRecOn _ _ start fun _ joined _ member => joined.addRawNode member
    dsimp only
    generalize rawNodes.foldl (addRawNode io files) { graph := base } = raw at nodes ⊢
    have edges : EdgesJoined io rawEdges raw.inferred raw.graph
        (rawEdges.foldl (addRawEdge io.issue.requestId raw.inferred)
          raw.graph) :=
      foldlRecOn _ _ ⟨nodes.wellFormed, rfl, fun _ member => .inl member⟩
        fun _ joined _ member => joined.addRawEdge member
    refine ⟨raw.inferred, edges.wellFormed, fun timed => ?_, fun node member identity => ?_⟩
    · rw [edges.nodes]
      exact nodes.kept _ (derived.request timed)
    · rw [edges.nodes] at member
      rcases nodes.nodes node member with old | ⟨recorded, fresh⟩
      · have is := (derived.files node old).resolve_left identity
        obtain ⟨⟨fitting, found, same⟩, apart⟩ := known node is
        refine .inr ⟨fitting, found, same, fun timed edge listed from_ exactly => ?_⟩
        refine (edges.edges edge listed).resolve_left fun before => ?_
        rw [nodes.edges] at before
        exact derived.quiet node is (apart timed) edge before from_ exactly
      · refine .inl ⟨recorded, fun edge listed from_ => ?_⟩
        refine (edges.edges edge listed).resolve_left fun before => ?_
        rw [nodes.edges] at before
        obtain ⟨source, present, -, -, leaves, -⟩ := derived.wellFormed.endpoints edge before
        exact fresh source present (leaves.trans from_)

variable {origin : FileOriginView}

theorem node_of_exact_origin {nodeId : U64} (member : origin ∈ graph.fileOriginsFor nodeId)
    (exactly : origin.confidence = .exact) :
    ∃ node ∈ graph.nodes, node.file = some origin.file ∧ node.path = origin.path ∧
      graph.pathInferred node.nodeId = false ∧
      (node.nodeId = nodeId ∨ ∃ edge ∈ graph.edges, edge.fromNodeId = node.nodeId ∧
        edge.confidence = .exact) := by
  obtain ⟨visit, visited, at_⟩ := visited_of_mem_fileOriginsFor member
  obtain ⟨node, found, identity, path, confidence, -⟩ := originAt_eq_some at_
  obtain ⟨present, same⟩ := findNode_eq_some found
  have known : (if graph.pathInferred node.nodeId = true then visit.2.weakest .probable
      else visit.2) = .exact := confidence.symm.trans exactly
  refine ⟨node, present, identity, path, ?_⟩
  cases inferred : graph.pathInferred node.nodeId with
  | true =>
    rw [if_pos inferred] at known
    exact nomatch (EdgeConfidence.weakest_eq_exact.mp known).2
  | false =>
    rw [if_neg (by rw [inferred]; decide)] at known
    refine ⟨rfl, ?_⟩
    rw [same]
    have strong : visit = (visit.1, EdgeConfidence.exact) := by rw [← known]
    rw [strong] at visited
    exact visited.exact_source

theorem fileCandidate_eq_some {file : FileIo}
    (found : fileCandidate io files rawNodes rawEdges = some file) :
    hasExactFileOrigin io rawNodes rawEdges = false ∧ files.filter (·.fits io) = [file] := by
  unfold fileCandidate at found
  split at found
  · cases found
  · rename_i unknown
    split at found
    · rename_i only
      rw [only, some.inj found]
      exact ⟨eq_false_of_ne_true unknown, rfl⟩
    · cases found

/-- An exact origin has evidence of its own: it is a recorded node with the path recorded on
it, or the only file operation that fits, with the path of its record, which a recorded exact
edge leaves. -/
def ExactlyRecorded (io : CompletedIo) (files : List FileIo) (rawNodes : List IoNode)
    (rawEdges : List IoEdge) (origin : FileOriginView) : Prop :=
  (∃ raw ∈ rawNodes, raw.transactionId = some io.issue.requestId ∧
    raw.file = some origin.file ∧ raw.path = origin.path) ∨
  ∃ file, files.filter (·.fits io) = [file] ∧ file.fileIdentity = some origin.file ∧
    file.snapshot = origin.path ∧ ∃ edge ∈ rawEdges,
      edge.transactionId = some io.issue.requestId ∧ edge.fromNodeId = file.graphNodeId io ∧
        edge.confidence = .exact

theorem exactlyRecorded_of_sources
    (sources : Sources io files (fileCandidate io files rawNodes rawEdges) rawNodes rawEdges
      inferred graph)
    (timed : io.Timed) (member : origin ∈ graph.fileOriginsFor io.requestNodeId)
    (exactly : origin.confidence = .exact) :
    ExactlyRecorded io files rawNodes rawEdges origin ∧ rawEdges ≠ [] := by
  obtain ⟨node, present, identity, path, plain, start | ⟨edge, listed, leaves, strong⟩⟩ :=
    node_of_exact_origin member exactly
  · have same : node = io.requestNode :=
      inj_on_of_nodup_map sources.wellFormed.nodeIds present (sources.request timed) start
    rw [same] at identity
    cases identity
  · have identified : node.file ≠ none := by
      rw [identity]
      exact some_ne_none _
    rcases sources.nodes node present identified with
      ⟨⟨raw, recorded, own, asRecorded⟩, edges⟩ | ⟨fitting, found, same, edges⟩
    · obtain ⟨rawEdge, rawListed, -, enriched⟩ := edges edge listed leaves
      refine ⟨.inl ⟨raw, recorded, own, ?_⟩, ne_nil_of_mem rawListed⟩
      rcases asRecorded with unchanged | ⟨-, marked, snapshot, -, changed⟩
      · rw [← unchanged]
        exact ⟨identity, path⟩
      · have source : rawEdge.fromNodeId = raw.nodeId := by
          rw [← fromNodeId_enrich inferred, ← enriched, leaves, changed]
        have remark : graph.pathInferred node.nodeId = true := by
          refine any_eq_true.mpr ⟨edge, listed, ?_⟩
          rw [Bool.and_eq_true]
          refine ⟨decide_eq_true leaves, ?_⟩
          rw [enriched]
          exact hasEvidence_enrich (source.symm ▸ marked)
        rw [remark] at plain
        cases plain
    · obtain ⟨rawEdge, rawListed, own, enriched⟩ := edges timed edge listed leaves strong
      refine ⟨.inr ⟨fitting, (fileCandidate_eq_some found).2, ?_, ?_, rawEdge, rawListed, own,
        ?_, ?_⟩, ne_nil_of_mem rawListed⟩
      · rw [← identity, same]
        rfl
      · rw [← path, same]
        rfl
      · rw [← fromNodeId_enrich inferred, ← enriched, leaves, same]
        rfl
      · rw [← confidence_enrich inferred, ← enriched]
        exact strong

/-- No origin of a request whose times are in order is called exact without evidence of its own,
and none at all when no edge was recorded. -/
theorem exact_origins_are_recorded (io : CompletedIo) (files : List FileIo)
    (observations : List PipelineObservation) (rawNodes : List IoNode)
    (rawEdges : List IoEdge) :
    let origins := (buildTransactionGraph io files observations rawNodes rawEdges).fileOriginsFor
      (blockRequestNodeId io.issue.requestId)
    (io.Timed → (∀ origin ∈ origins, origin.confidence = .exact →
        ExactlyRecorded io files rawNodes rawEdges origin) ∧
      (rawEdges = [] → ∀ origin ∈ origins, origin.confidence ≠ .exact)) ∧
    ((∃ edge ∈ rawEdges, edge.transactionId = some io.issue.requestId ∧
        edge.toNodeId = blockRequestNodeId io.issue.requestId ∧ edge.confidence = .exact ∧
        ∃ node ∈ rawNodes, node.nodeId = edge.fromNodeId ∧
          node.transactionId = some io.issue.requestId ∧ node.file ≠ none) →
      ∀ origin ∈ origins, ∃ raw ∈ rawNodes,
        raw.transactionId = some io.issue.requestId ∧ raw.file = some origin.file ∧
          (origin.path = raw.path ∨ raw.path = none ∧
            origin.path = inferredOriginPath raw files io.blockStart io.completion.tsNs)) := by
  intro origins
  obtain ⟨inferred, sources⟩ :=
    sources_buildTransactionGraph io files observations rawNodes rawEdges
  refine ⟨fun timed => ⟨fun origin member exactly => ?_, fun none_ origin member exactly => ?_⟩,
    fun known origin member => ?_⟩
  · exact (exactlyRecorded_of_sources sources timed member exactly).1
  · exact (exactlyRecorded_of_sources sources timed member exactly).2 none_
  · obtain ⟨visit, -, at_⟩ := visited_of_mem_fileOriginsFor member
    obtain ⟨node, found, identity, path, -⟩ := originAt_eq_some at_
    have identified : node.file ≠ none := by
      rw [identity]
      exact some_ne_none _
    rcases sources.nodes node (findNode_eq_some found).1 identified with
      ⟨⟨raw, recorded, own, unchanged | ⟨without, -, snapshot, inferredPath, changed⟩⟩, -⟩ |
      ⟨fitting, candidate, -⟩
    · rw [unchanged] at identity path
      exact ⟨raw, recorded, own, identity, .inl path.symm⟩
    · rw [changed] at identity path
      exact ⟨raw, recorded, own, identity, .inr ⟨without, path.symm.trans inferredPath.symm⟩⟩
    · have exactly : hasExactFileOrigin io rawNodes rawEdges = true := by
        obtain ⟨edge, listed, own, into, strong, node, recorded, source, ownNode, identity⟩ := known
        refine any_eq_true.mpr ⟨edge, listed, ?_⟩
        have among : (rawNodes.any fun other => other.nodeId = edge.fromNodeId &&
            ofTransaction io.issue.requestId other.transactionId && other.file.isSome) = true :=
          any_eq_true.mpr ⟨node, recorded, by
            simp [source, ofTransaction, ownNode, isSome_iff_ne_none, identity]⟩
        rw [among]
        simp [ofTransaction, own, into, strong, CompletedIo.requestNodeId]
      rw [(fileCandidate_eq_some candidate).1] at exactly
      cases exactly

def readOrigin : IoNode where
  nodeId := 70
  transactionId := some 7
  kind := .fileOperation
  startTsNs := 900
  endTsNs := none
  origin := .file
  file := some ⟨8, 0, 42, none, none⟩
  path := some (procFdSnapshot "/data/a" 900)
  operation := some .read
  bytes := none
  pid := 10
  tid := 11
  name := "read"

def readOriginEdge (nodeId : U64) : IoEdge :=
  { IoEdge.exact 71 nodeId (blockRequestNodeId 7) .submits with transactionId := some 7 }

theorem exact_origins_are_recorded_single :
    let io := readDone 1000 2000 7
    let origins := (buildTransactionGraph io [readFile 900 1500] [] [readOrigin]
      [readOriginEdge 70]).fileOriginsFor (blockRequestNodeId 7)
    (origins.map (·.confidence) = [.exact]) ∧
      ∀ origin ∈ origins, origin.confidence = .exact →
        ExactlyRecorded io [readFile 900 1500] [readOrigin] [readOriginEdge 70] origin :=
  ⟨by decide +kernel,
    ((exact_origins_are_recorded (readDone 1000 2000 7) [readFile 900 1500] [] [readOrigin]
      [readOriginEdge 70]).1 (.inl rfl)).1⟩

/-- The times of a request must be in order: a request that completes before its issue has no node
of its own, and a file operation that took its id is found as an exact origin without any record. -/
theorem exact_origin_of_untimed_request :
    let io := { readDone 2000 1000 7 with deviceLatencyNs := some 0 }
    let file : FileIo := { readFile 900 1500 with
      fileIdentity := some ⟨8, 0, 42, none, none⟩, nodeId := some (blockRequestNodeId 7) }
    let origins := (buildTransactionGraph io [file] [] [] []).fileOriginsFor (blockRequestNodeId 7)
    ¬ io.Timed ∧ origins.map (fun origin => (origin.file.inode, origin.confidence)) =
      [(42, .exact)] :=
  ⟨by simp [CompletedIo.Timed, readDone]; decide, by decide +kernel⟩

/-- A recorded exact edge may leave the file operation that fits the request, although no node
was recorded for it: the origin is exact, and its path is the one of the file record. -/
theorem exact_origin_without_recorded_node :
    let file : FileIo := { readFile 900 1500 with
      path := some "/data/a", fileIdentity := some ⟨8, 0, 42, none, none⟩, nodeId := some 70 }
    (buildTransactionGraph (readDone 1000 2000 7) [file] [] [] [readOriginEdge 70]).fileOriginsFor
        (blockRequestNodeId 7) =
      [{ file := ⟨8, 0, 42, none, none⟩
         path := some (procFdSnapshot "/data/a" 1500)
         confidence := .exact
         incomplete := false }] := by
  decide +kernel

end EbpfStudio
