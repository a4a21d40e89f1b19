/-
This file models the construction of the transaction graph of one completed request.

The graph gets the nodes of the block layer, the only file operation that fits, the spans in two
chains above and below, and last what the capture recorded for the id. Each step selects its records
by a test, so the graph depends only on the records that pass (`buildTransactionGraph_congr`).
-/

import EbpfStudio.Protocol.Engine
import EbpfStudio.Protocol.Origins
import EbpfStudio.Protocol.Pipeline

namespace EbpfStudio

open List Bool IoTransactionGraph

/-! ### Paths of file records -/

def deletedSuffix : List Char := " (deleted)".toList

def procFdSnapshot (path : String) (capturedTsNs : U64) : PathSnapshot where
  path := some path
  source := .procFd
  capturedTsNs := capturedTsNs
  deleted := deletedSuffix.isSuffixOf path.toList

def fileIdentityBaseKey (identity : FileIdentity) : U32 × U32 × U64 :=
  (identity.fsDeviceMajor, identity.fsDeviceMinor, identity.inode)

def agree {Field : Type} [DecidableEq Field] : Option Field → Option Field → Bool
  | some left, some right => left = right
  | _, _ => true

def fileIdentitiesCompatible (left right : FileIdentity) : Bool :=
  fileIdentityBaseKey left = fileIdentityBaseKey right &&
    agree left.inodeGeneration right.inodeGeneration && agree left.mountId right.mountId

/-- The path of a record, if it is known. -/
def recordedFilePath (file : FileIo) : Option String :=
  ((file.pathSnapshot.bind (·.path)).filter fun path => path ≠ "").or
    (file.path.filter fun path => path ≠ "")

def inferenceCandidate (identity : FileIdentity) (blockStart blockEnd : U64) (file : FileIo) :
    Bool :=
  (file.fileIdentity.any fun candidate => fileIdentitiesCompatible candidate identity) &&
    file.startTsNs ≤ blockEnd.saturatingAdd 30_000_000_000 &&
    blockStart ≤ file.endTsNs.saturatingAdd 30_000_000_000 && (recordedFilePath file).isSome

def contemporaneousWith (node : IoNode) (file : FileIo) : Bool :=
  file.startTsNs ≤ node.startTsNs && node.startTsNs ≤ file.endTsNs &&
    (node.pid = 0 || node.pid = file.pid) && (node.tid = 0 || node.tid = file.tid) &&
    node.operation.all (· = file.operation)

def latestEnding (files : List FileIo) : Option FileIo :=
  files.foldl (fun best file =>
    match best with
    | none => some file
    | some held => if held.endTsNs ≤ file.endTsNs then some file else some held) none

def agreedPath (eligible : List FileIo) : Option PathSnapshot := do
  let file ← latestEnding eligible
  let path ← recordedFilePath file
  if eligible.any fun candidate => recordedFilePath candidate ≠ some path then none
  else some ((file.pathSnapshot.filter fun snapshot => snapshot.path.any (· ≠ "")).getD
    (procFdSnapshot path file.endTsNs))

def inferredOriginPath (node : IoNode) (files : List FileIo) (blockStart blockEnd : U64) :
    Option PathSnapshot := do
  let identity ← node.file
  let candidates := files.filter (inferenceCandidate identity blockStart blockEnd)
  let contemporaneous := candidates.filter (contemporaneousWith node)
  agreedPath (if contemporaneous.isEmpty then candidates else contemporaneous)

/-! ### The block nodes of a request -/

def pipelineNodeKind : PipelineLayer → IoNodeKind
  | .syscall => .syscall
  | .vfs => .vfs
  | .filesystem => .filesystem
  | .pageCache => .pageCache
  | .writeback => .writeback
  | .bio => .bio
  | .blockQueue => .blockQueue
  | .blockDevice => .blockRequest
  | .scsi => .scsiCommand
  | .ufs => .ufsCommand
  | .schedulerContext => .schedulerContext
  | .uicContext => .uicContext

def CorrelationConfidence.debugName : CorrelationConfidence → String
  | exact => "Exact"
  | probable => "Probable"
  | contextOnly => "ContextOnly"

namespace CompletedIo

def requestNodeId (io : CompletedIo) : U64 := blockRequestNodeId io.issue.requestId

def queueNodeId (io : CompletedIo) : U64 := syntheticNodeId 8 io.issue.requestId

def requestName (io : CompletedIo) : String :=
  match io.evidence with
  | some evidence => evidence.source ++ " observation " ++ toString evidence.recordId.val ++
      " · " ++ evidence.timingConfidence.debugName
  | none => "block request " ++ toString io.issue.requestId.val

def requestNode (io : CompletedIo) : IoNode where
  nodeId := io.requestNodeId
  transactionId := some io.issue.requestId
  kind := .blockRequest
  startTsNs := io.issue.tsNs
  endTsNs := io.deviceLatencyNs.map fun _ => io.completion.tsNs
  origin := .unknown
  file := none
  path := none
  operation := some io.issue.operation
  bytes := some (Word.ofNat 64 io.issue.bytes.val)
  pid := io.issue.pid
  tid := io.issue.tid
  name := io.requestName

def queueNode (io : CompletedIo) (insert : BlockInsert) : IoNode where
  nodeId := io.queueNodeId
  transactionId := some io.issue.requestId
  kind := .blockQueue
  startTsNs := insert.tsNs
  endTsNs := some io.issue.tsNs
  origin := .unknown
  file := none
  path := none
  operation := some io.issue.operation
  bytes := some (Word.ofNat 64 io.issue.bytes.val)
  pid := io.issue.pid
  tid := io.issue.tid
  name := "block queue"

def queueEdge (io : CompletedIo) : IoEdge :=
  let edge := IoEdge.exact (syntheticNodeId 18 io.issue.requestId) io.queueNodeId
    io.requestNodeId .dispatches
  if io.evidence.isSome then { edge with confidence := .probable } else edge

def blockGraph (io : CompletedIo) : IoTransactionGraph :=
  let graph := ((IoTransactionGraph.new io.issue.requestId).addNode io.requestNode).1
  match io.insert with
  | none => graph
  | some insert => ((graph.addNode (io.queueNode insert)).1.addEdge io.queueEdge).1

end CompletedIo

/-! ### The file operation that fits a request -/

def ofTransaction (requestId : U64) (transactionId : Option U64) : Bool :=
  transactionId = some requestId

/-- The capture joins a file of this transaction to the request by an exact edge. -/
def hasExactFileOrigin (io : CompletedIo) (rawNodes : List IoNode) (rawEdges : List IoEdge) :
    Bool :=
  rawEdges.any fun edge =>
    ofTransaction io.issue.requestId edge.transactionId && edge.toNodeId = io.requestNodeId &&
      edge.confidence = .exact && rawNodes.any fun node =>
        node.nodeId = edge.fromNodeId && ofTransaction io.issue.requestId node.transactionId &&
          node.file.isSome

namespace FileIo

/-- The same direction, near the request in time, large enough, and on its task. -/
def fits (io : CompletedIo) (file : FileIo) : Bool :=
  file.operation = io.issue.operation &&
    (file.startTsNs ≤ io.probableWindowEnd && io.probableWindowStart ≤ file.endTsNs) &&
    (decide (io.issue.bytes.val ≤ file.requestedBytes.val) ||
      decide (io.issue.bytes.val ≤ file.completedBytes.natAbs)) &&
    (file.pid = io.issue.pid || file.tid ≠ 0 && file.tid = io.issue.tid)

def snapshot (file : FileIo) : Option PathSnapshot :=
  file.pathSnapshot.or (file.path.map fun path => procFdSnapshot path file.endTsNs)

def graphNodeId (io : CompletedIo) (file : FileIo) : U64 :=
  file.nodeId.getD (syntheticNodeId 1 io.issue.requestId)

def graphNode (io : CompletedIo) (file : FileIo) : IoNode where
  nodeId := file.graphNodeId io
  transactionId := some io.issue.requestId
  kind := .fileOperation
  startTsNs := file.startTsNs
  endTsNs := some file.endTsNs
  origin := .file
  file := file.fileIdentity
  path := file.snapshot
  operation := some file.operation
  bytes := some file.requestedBytes
  pid := file.pid
  tid := file.tid
  name := file.path.getD ("fd " ++ toString file.fd)

/-- A buffered operation that ended before the request started caused it asynchronously. -/
def causesLater (io : CompletedIo) (file : FileIo) : Bool :=
  file.ioMode = .buffered && file.endTsNs < io.blockStart

def graphEdge (io : CompletedIo) (file : FileIo) : IoEdge where
  edgeId := syntheticNodeId 19 io.issue.requestId
  transactionId := some io.issue.requestId
  fromNodeId := file.graphNodeId io
  toNodeId := io.requestNodeId
  relation := if file.causesLater io then .causesAsync else .submits
  confidence := if file.causesLater io then .probableAsync else .probable
  evidence :=
    [{ matchType := "unique_time_task_operation"
       opaqueKey := none
       deltaNs := some (io.blockStart.saturatingSub file.startTsNs.val)
       candidateCount := 1
       sectorMatch := false
       bytesMatch := file.requestedBytes.val = io.issue.bytes.val
       taskMatch := true }]

end FileIo

/-- The only file operation that fits the request, unless its origin is known exactly. -/
def fileCandidate (io : CompletedIo) (files : List FileIo) (rawNodes : List IoNode)
    (rawEdges : List IoEdge) : Option FileIo :=
  if hasExactFileOrigin io rawNodes rawEdges then none
  else
    match files.filter (·.fits io) with
    | [file] => some file
    | _ => none

namespace IoTransactionGraph

def addFile (graph : IoTransactionGraph) (io : CompletedIo) (file : FileIo) :
    IoTransactionGraph :=
  match graph.addNode (file.graphNode io) with
  | (added, .ok ()) => (added.addEdge (file.graphEdge io)).1
  | (same, .error _) => same

end IoTransactionGraph

/-! ### The spans above and below the block layer -/

def CorrelationConfidence.toEdge : CorrelationConfidence → EdgeConfidence
  | exact => .exact
  | probable => .probable
  | contextOnly => .contextOnly

/-- The graph with the ends of the two chains of spans that grow beside the request. -/
structure SpanChains where
  graph : IoTransactionGraph
  upperPrior : Option U64 := none
  upperLast : Option (U64 × EdgeConfidence) := none
  lowerPrior : Option U64 := none
  lowerFirst : Option (U64 × EdgeConfidence) := none

/-- An eight-bit tag that grows with the position of a span and stops at the largest tag. -/
def spanTag (first index : Nat) : Nat := min (first + index % 256) 255

namespace PipelineSpan

def graphNodeId (requestId : U64) (index : Nat) : U64 :=
  syntheticNodeId (spanTag 32 index) requestId

def graphNode (requestId : U64) (index : Nat) (span : PipelineSpan) : IoNode where
  nodeId := graphNodeId requestId index
  transactionId := some requestId
  kind := pipelineNodeKind span.layer
  startTsNs := span.startTsNs
  endTsNs := if span.durationObserved then some span.endTsNs else none
  origin := .unknown
  file := none
  path := none
  operation := span.operation
  bytes := span.bytes.map fun bytes => Word.ofNat 64 bytes.val
  pid := span.pid
  tid := span.tid
  name := span.name

def chainEdge (requestId : U64) (index : Nat) (parent : U64) (span : PipelineSpan) : IoEdge where
  edgeId := syntheticNodeId (spanTag 64 index) requestId
  transactionId := some requestId
  fromNodeId := parent
  toNodeId := graphNodeId requestId index
  relation := if span.confidence.toEdge = .contextOnly then .contextFor else .calls
  confidence := span.confidence.toEdge
  evidence := []

def isUpper (span : PipelineSpan) : Bool := span.layer.ordinal ≤ PipelineLayer.bio.ordinal

def outsideBlockLayer (span : PipelineSpan) : Bool :=
  span.layer ≠ .blockQueue && span.layer ≠ .blockDevice

end PipelineSpan

namespace SpanChains

def prior (chains : SpanChains) (span : PipelineSpan) : Option U64 :=
  if span.isUpper then chains.upperPrior else chains.lowerPrior

def extend (chains : SpanChains) (requestId : U64) (index : Nat) (span : PipelineSpan) :
    SpanChains :=
  let nodeId := PipelineSpan.graphNodeId requestId index
  let graph := (chains.prior span).elim chains.graph fun parent =>
    (chains.graph.addEdge (span.chainEdge requestId index parent)).1
  if span.isUpper then
    { chains with
      graph := graph
      upperPrior := some nodeId
      upperLast := some (nodeId, span.confidence.toEdge) }
  else
    { chains with
      graph := graph
      lowerFirst := chains.lowerFirst.or (some (nodeId, span.confidence.toEdge))
      lowerPrior := some nodeId }

def addSpan (requestId : U64) (chains : SpanChains) (entry : PipelineSpan × Nat) : SpanChains :=
  match chains.graph.addNode (entry.1.graphNode requestId entry.2) with
  | (added, .ok ()) => extend { chains with graph := added } requestId entry.2 entry.1
  | (_, .error _) => chains

/-- Join the last upper span to the queue, or else the request, and the request to the first
lower span. -/
def close (io : CompletedIo) (chains : SpanChains) : IoTransactionGraph :=
  let graph := chains.upperLast.elim chains.graph fun (nodeId, confidence) =>
    (chains.graph.addEdge
      { edgeId := syntheticNodeId 90 io.issue.requestId
        transactionId := some io.issue.requestId
        fromNodeId := nodeId
        toNodeId := (io.insert.map fun _ => io.queueNodeId).getD io.requestNodeId
        relation := .submits
        confidence := confidence
        evidence := [] }).1
  chains.lowerFirst.elim graph fun (nodeId, confidence) =>
    (graph.addEdge
      { edgeId := syntheticNodeId 91 io.issue.requestId
        transactionId := some io.issue.requestId
        fromNodeId := io.requestNodeId
        toNodeId := nodeId
        relation := if confidence = .contextOnly then .contextFor else .dispatches
        confidence := confidence
        evidence := [] }).1

end SpanChains

def IoTransactionGraph.addSpans (graph : IoTransactionGraph) (io : CompletedIo)
    (pipeline : IoPipeline) : IoTransactionGraph :=
  (((pipeline.spans.filter (·.outsideBlockLayer)).zipIdx.foldl
    (SpanChains.addSpan io.issue.requestId) { graph := graph }).close io)

/-! ### The recorded nodes and edges -/

/-- The graph with the ids of the recorded nodes that got a path of a file record. -/
structure RawNodes where
  graph : IoTransactionGraph
  inferred : List U64 := []

def RawNodes.addRawNode (io : CompletedIo) (files : List FileIo) (state : RawNodes)
    (node : IoNode) : RawNodes :=
  if ofTransaction io.issue.requestId node.transactionId then
    match node.path, inferredOriginPath node files io.blockStart io.completion.tsNs with
    | none, some snapshot =>
      { graph := (state.graph.addNode { node with path := some snapshot }).1
        inferred := node.nodeId :: state.inferred }
    | _, _ => { state with graph := (state.graph.addNode node).1 }
  else state

def inferredPathEvidence : CorrelationEvidence where
  matchType := "inferred_path_snapshot"
  opaqueKey := none
  deltaNs := none
  candidateCount := 1
  sectorMatch := false
  bytesMatch := false
  taskMatch := false

/-- The edge with the remark that the path of its source was looked up separately. -/
def IoEdge.enrich (inferred : List U64) (edge : IoEdge) : IoEdge :=
  if edge.fromNodeId ∈ inferred then
    { edge with evidence := edge.evidence ++ [inferredPathEvidence] }
  else edge

def IoTransactionGraph.addRawEdge (requestId : U64) (inferred : List U64)
    (graph : IoTransactionGraph) (edge : IoEdge) : IoTransactionGraph :=
  if ofTransaction requestId edge.transactionId &&
      (graph.nodes.any fun node => node.nodeId = edge.fromNodeId) &&
      (graph.nodes.any fun node => node.nodeId = edge.toNodeId) then
    (graph.addEdge (edge.enrich inferred)).1
  else graph

/-- The part of the graph that is derived: the block nodes, the file operation that fits, and
the spans. -/
def derivedGraph (io : CompletedIo) (file : Option FileIo) (pipeline : IoPipeline) :
    IoTransactionGraph :=
  (file.elim io.blockGraph (io.blockGraph.addFile io)).addSpans io pipeline

/-- The graph of a completed request. -/
def buildTransactionGraph (io : CompletedIo) (files : List FileIo)
    (observations : List PipelineObservation) (rawNodes : List IoNode)
    (rawEdges : List IoEdge) : IoTransactionGraph :=
  if io.evidence.isSome then io.blockGraph
  else
    let graph := derivedGraph io (fileCandidate io files rawNodes rawEdges)
      (buildIoPipeline io observations)
    let nodes := rawNodes.foldl (RawNodes.addRawNode io files) { graph := graph }
    rawEdges.foldl (IoTransactionGraph.addRawEdge io.issue.requestId nodes.inferred) nodes.graph

/-! ### What the construction reads -/

variable {io : CompletedIo}

theorem buildTransactionGraph_of_evidence (carried : io.evidence.isSome = true)
    (files : List FileIo) (observations : List PipelineObservation) (rawNodes : List IoNode)
    (rawEdges : List IoEdge) :
    buildTransactionGraph io files observations rawNodes rawEdges = io.blockGraph :=
  if_pos carried

def nodesOf (requestId : U64) (rawNodes : List IoNode) : List IoNode :=
  rawNodes.filter fun node => ofTransaction requestId node.transactionId

def edgesOf (requestId : U64) (rawEdges : List IoEdge) : List IoEdge :=
  rawEdges.filter fun edge => ofTransaction requestId edge.transactionId

/-- The only record of a list. -/
def sole {Record : Type} : List Record → Option Record
  | [record] => some record
  | _ => none

theorem sole_of_length_ne {Record : Type} {records : List Record} (several : records.length ≠ 1) :
    sole records = none := by
  match records with
  | [] => rfl
  | [_] => exact absurd rfl several
  | _ :: _ :: _ => rfl

theorem fileCandidate_eq (io : CompletedIo) (files : List FileIo) (rawNodes : List IoNode)
    (rawEdges : List IoEdge) :
    fileCandidate io files rawNodes rawEdges =
      if hasExactFileOrigin io rawNodes rawEdges then none
      else sole (files.filter (·.fits io)) := by
  unfold fileCandidate
  generalize files.filter (·.fits io) = fitting
  match fitting with
  | [] => rfl
  | [_] => rfl
  | _ :: _ :: _ => rfl

/-- Two captures hold the same evidence about a request when they agree on the only file record
that fits it and on the other records that its construction selects. -/
structure SameEvidence (io : CompletedIo) (files otherFiles : List FileIo)
    (observations otherObservations : List PipelineObservation)
    (rawNodes otherNodes : List IoNode) (rawEdges otherEdges : List IoEdge) : Prop where
  fitting : sole (files.filter (·.fits io)) = sole (otherFiles.filter (·.fits io))
  identities : ∀ node ∈ nodesOf io.issue.requestId rawNodes, ∀ identity,
    node.file = some identity →
      files.filter (inferenceCandidate identity io.blockStart io.completion.tsNs) =
        otherFiles.filter (inferenceCandidate identity io.blockStart io.completion.tsNs)
  selected : observations.filter (·.selectedFor io) = otherObservations.filter (·.selectedFor io)
  nodes : nodesOf io.issue.requestId rawNodes = nodesOf io.issue.requestId otherNodes
  edges : edgesOf io.issue.requestId rawEdges = edgesOf io.issue.requestId otherEdges

theorem hasExactFileOrigin_eq (io : CompletedIo) (rawNodes : List IoNode)
    (rawEdges : List IoEdge) :
    hasExactFileOrigin io rawNodes rawEdges =
      (edgesOf io.issue.requestId rawEdges).any fun edge =>
        edge.toNodeId = io.requestNodeId && edge.confidence = .exact &&
          (nodesOf io.issue.requestId rawNodes).any fun node =>
            node.nodeId = edge.fromNodeId && node.file.isSome := by
  unfold hasExactFileOrigin edgesOf nodesOf
  simp only [List.any_filter, Bool.and_assoc, Bool.and_left_comm]

theorem foldl_eq_filter {State Element : Type} {step : State → Element → State}
    {relevant : Element → Bool}
    (ignores : ∀ state element, relevant element = false → step state element = state)
    (elements : List Element) (state : State) :
    elements.foldl step state = (elements.filter relevant).foldl step state := by
  rw [foldl_filter]
  refine congrArg (fun turn => elements.foldl turn state) (funext fun before => ?_)
  funext element
  cases known : relevant element with
  | false => exact ignores before element known
  | true => rfl

variable {files otherFiles : List FileIo}

theorem addRawNode_of_other (files : List FileIo) (state : RawNodes) (node : IoNode)
    (other : ofTransaction io.issue.requestId node.transactionId = false) :
    state.addRawNode io files node = state := by
  unfold RawNodes.addRawNode
  rw [other]
  rfl

theorem addRawEdge_of_other {requestId : U64} (inferred : List U64) (graph : IoTransactionGraph)
    (edge : IoEdge) (other : ofTransaction requestId edge.transactionId = false) :
    graph.addRawEdge requestId inferred edge = graph := by
  unfold addRawEdge
  rw [other]
  rfl

section Congruence

variable {io : CompletedIo} {files otherFiles : List FileIo}
  {observations otherObservations : List PipelineObservation}
  {rawNodes otherNodes : List IoNode} {rawEdges otherEdges : List IoEdge}

section

variable
  (same : SameEvidence io files otherFiles observations otherObservations rawNodes otherNodes
      rawEdges otherEdges)

include same

theorem SameEvidence.candidate :
    fileCandidate io files rawNodes rawEdges =
      fileCandidate io otherFiles otherNodes otherEdges := by
  have exactly : hasExactFileOrigin io rawNodes rawEdges =
      hasExactFileOrigin io otherNodes otherEdges := by
    rw [hasExactFileOrigin_eq, hasExactFileOrigin_eq, same.nodes, same.edges]
  rw [fileCandidate_eq, fileCandidate_eq, exactly, same.fitting]

theorem SameEvidence.foldl_nodes (state : RawNodes) :
    rawNodes.foldl (RawNodes.addRawNode io files) state =
      otherNodes.foldl (RawNodes.addRawNode io otherFiles) state := by
  rw [foldl_eq_filter (addRawNode_of_other files),
    foldl_eq_filter (addRawNode_of_other otherFiles)]
  have filtered : rawNodes.filter (fun node => ofTransaction io.issue.requestId
      node.transactionId) = otherNodes.filter fun node =>
        ofTransaction io.issue.requestId node.transactionId := same.nodes
  rw [← filtered]
  refine foldl_ext _ _ state fun state node member => ?_
  have path : inferredOriginPath node files io.blockStart io.completion.tsNs =
      inferredOriginPath node otherFiles io.blockStart io.completion.tsNs := by
    unfold inferredOriginPath
    cases identity : node.file with
    | none => rfl
    | some file =>
      simp only [Option.bind_eq_bind, Option.bind_some]
      rw [same.identities node member file identity]
  unfold RawNodes.addRawNode
  rw [path]

theorem SameEvidence.foldl_edges (inferred : List U64) (graph : IoTransactionGraph) :
    rawEdges.foldl (addRawEdge io.issue.requestId inferred) graph =
      otherEdges.foldl (addRawEdge io.issue.requestId inferred) graph := by
  rw [foldl_eq_filter (addRawEdge_of_other inferred),
    foldl_eq_filter (addRawEdge_of_other inferred) otherEdges]
  have filtered : rawEdges.filter (fun edge => ofTransaction io.issue.requestId
      edge.transactionId) = otherEdges.filter fun edge =>
        ofTransaction io.issue.requestId edge.transactionId := same.edges
  rw [filtered]

theorem buildTransactionGraph_congr :
    buildTransactionGraph io files observations rawNodes rawEdges =
      buildTransactionGraph io otherFiles otherObservations otherNodes otherEdges := by
  have pipeline : buildIoPipeline io observations = buildIoPipeline io otherObservations := by
    unfold buildIoPipeline
    rw [same.selected]
  unfold buildTransactionGraph
  rw [same.candidate, pipeline]
  dsimp only
  rw [same.foldl_nodes, same.foldl_edges]

end

end Congruence

end EbpfStudio
