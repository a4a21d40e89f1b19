/-
This file models the queries of the analysis engine together with the caches that they fill, and the
ingestion that invalidates the caches.

A query looks into its cache, and without an entry computes the view through the index. Ingestion
empties the caches when it adds evidence. On empty caches the index finds everything that fits a
request whose times are in order, for this lies in a second near the request.
-/

import EbpfStudio.Library.Memo
import EbpfStudio.Protocol.EngineLaws
import EbpfStudio.Protocol.Index

namespace EbpfStudio

open Memo Run List Option

def maxDerivedCacheEntries : Nat := 4_096

def maxRcaCohortSamples : Nat := 512

def nodeKinds : List IoNodeKind :=
  [.fileOperation, .syscall, .vfs, .filesystem, .pageCache, .writeback, .bio, .blockQueue,
    .blockRequest, .scsiCommand, .ufsCommand, .schedulerContext, .uicContext]

def IoNodeKind.debugName : IoNodeKind → String
  | fileOperation => "FileOperation"
  | syscall => "Syscall"
  | vfs => "Vfs"
  | filesystem => "Filesystem"
  | pageCache => "PageCache"
  | writeback => "Writeback"
  | bio => "Bio"
  | blockQueue => "BlockQueue"
  | blockRequest => "BlockRequest"
  | scsiCommand => "ScsiCommand"
  | ufsCommand => "UfsCommand"
  | schedulerContext => "SchedulerContext"
  | uicContext => "UicContext"

/-- The time that the nodes of every kind in the graph cover, in the order of the kinds. -/
def durationsByKind (graph : IoTransactionGraph) : List (IoNodeKind × U64) :=
  nodeKinds.filterMap fun kind =>
    let intervals := (graph.nodes.filter fun node => node.additive && node.kind = kind).map
      fun node => (node.startTsNs, node.endOrStart)
    if intervals.isEmpty then none else some (kind, unionDuration intervals)

def percentile (sorted : List U64) (percent : Nat) : Option U64 :=
  if sorted.isEmpty then none
  else sorted[max ((percent * sorted.length + 99) / 100) 1 - 1]?

def evenlySampleRefs {Value : Type} (values : List Value) (limit : Nat) : List Value :=
  if values.length ≤ limit then values
  else (List.range limit).filterMap fun index => values[index * values.length / limit]?

/-- An explanation of a slow request. -/
structure SlowReason where
  nodeKind : IoNodeKind
  stage : String
  selectedNs : U64
  cohortMedianNs : U64
  deltaNs : U64
  confidence : EdgeConfidence
  cohortSamples : Nat
  deriving DecidableEq

def kindConfidence (graph : IoTransactionGraph) (kind : IoNodeKind) : EdgeConfidence :=
  let touching := graph.edges.filter fun edge => graph.nodes.any fun node =>
    node.kind = kind && (node.nodeId = edge.fromNodeId || node.nodeId = edge.toNodeId)
  match touching.map (·.confidence) with
  | [] => .exact
  | first :: rest => rest.foldl EdgeConfidence.weakest first

/-- One kind of the selected request against the cohort; the largest delta so far stays. -/
def explainKind (graph : IoTransactionGraph) (cohort : List (List (IoNodeKind × U64)))
    (best : Option SlowReason) (entry : IoNodeKind × U64) : Option SlowReason :=
  let values := (cohort.map fun durations => (durations.lookup entry.1).getD 0).insertionSort
    (· ≤ ·)
  let median := (percentile values 50).getD 0
  let delta := entry.2.saturatingSub median
  if delta = 0 || best.any fun value => delta ≤ value.deltaNs then best
  else
    some
      { nodeKind := entry.1
        stage := entry.1.debugName
        selectedNs := entry.2
        cohortMedianNs := median
        deltaNs := delta
        confidence := kindConfidence graph entry.1
        cohortSamples := cohort.length }

def explain (graph : IoTransactionGraph) (cohort : List IoTransactionGraph) :
    Option SlowReason :=
  (durationsByKind graph).foldl (explainKind graph (cohort.map durationsByKind)) none

def AnalysisEngine.cohort (engine : AnalysisEngine) (selected : CompletedIo) :
    List CompletedIo :=
  engine.completed.filter fun io =>
    io.issue.operation = selected.issue.operation &&
      io.accessPattern = selected.accessPattern && io.sizeClass = selected.sizeClass

/-- An engine with its caches. -/
structure QueriedEngine where
  engine : AnalysisEngine
  pipelineCache : Table RequestCacheKey IoPipeline := ∅
  transactionCache : Table RequestCacheKey IoTransactionGraph := ∅
  analysisIndex : Option AnalysisIndex := none
  slowReasonCache : Table U64 (Option SlowReason) := ∅

namespace QueriedEngine

def index (state : QueriedEngine) : AnalysisIndex :=
  state.analysisIndex.getD (.build state.engine)

/-- The pipeline view of a request. -/
def pipelineFor (state : QueriedEngine) (io : CompletedIo) : QueriedEngine × IoPipeline :=
  if io.evidence.isSome then (state, buildIoPipeline io [])
  else
    match state.pipelineCache.lookup (requestCacheKey io) with
    | some pipeline => (state, pipeline)
    | none =>
      let pipeline := state.engine.indexedPipeline state.index io
      ({ state with
          analysisIndex := some state.index
          pipelineCache := remember maxDerivedCacheEntries state.pipelineCache
            (requestCacheKey io) pipeline }, pipeline)

/-- The graph of a request. -/
def transactionFor (state : QueriedEngine) (io : CompletedIo) :
    QueriedEngine × IoTransactionGraph :=
  match state.transactionCache.lookup (requestCacheKey io) with
  | some graph => (state, graph)
  | none =>
    let graph := state.engine.indexedTransaction state.index io
    ({ state with
        analysisIndex := some state.index
        transactionCache := remember maxDerivedCacheEntries state.transactionCache
          (requestCacheKey io) graph }, graph)

def transactionsFor (state : QueriedEngine) :
    List CompletedIo → QueriedEngine × List IoTransactionGraph
  | [] => (state, [])
  | io :: rest =>
    let first := state.transactionFor io
    let others := first.1.transactionsFor rest
    (others.1, first.2 :: others.2)

/-- Why a request is slow. -/
def whySlow (state : QueriedEngine) (selected : CompletedIo) :
    QueriedEngine × Option SlowReason :=
  let own := state.transactionFor selected
  let cohort := state.engine.cohort selected
  if cohort.length < 3 then (own.1, none)
  else
    let others := own.1.transactionsFor (evenlySampleRefs cohort maxRcaCohortSamples)
    (others.1, explain own.2 others.2)

def cachedWhySlow (state : QueriedEngine) (selected : CompletedIo) :
    QueriedEngine × Option SlowReason :=
  match state.slowReasonCache.lookup selected.issue.requestId with
  | some reason => (state, reason)
  | none =>
    let fresh := state.whySlow selected
    ({ fresh.1 with slowReasonCache :=
        fresh.1.slowReasonCache.insert selected.issue.requestId fresh.2 }, fresh.2)

/-- The caches once an event is known: new evidence empties them, and a new issue forgets the
explanation of its id. -/
def invalidate (state : QueriedEngine) : StorageEvent → QueriedEngine
  | .fileIo _ | .pipeline _ | .requestOrigin _ | .node _ | .edge _ =>
    { engine := state.engine }
  | .blockIssue issue =>
    { state with slowReasonCache := state.slowReasonCache.erase issue.requestId }
  | _ => state

/-- Take in an event, and drop the views it outdates. -/
def ingest (state : QueriedEngine) (event : StorageEvent) :
    QueriedEngine × Option CompletedIo :=
  let ingested := state.engine.ingest event
  ({ state.invalidate event with engine := ingested.1 }, ingested.2)

variable (engine : AnalysisEngine)

theorem transactionFor_of_empty (io : CompletedIo) :
    (({ engine := engine } : QueriedEngine).transactionFor io).2 =
      engine.indexedTransaction (.build engine) io := rfl

theorem pipelineFor_of_empty (io : CompletedIo) :
    (({ engine := engine } : QueriedEngine).pipelineFor io).2 =
      engine.indexedPipeline (.build engine) io := by
  unfold pipelineFor AnalysisEngine.indexedPipeline
  split <;> rfl

end QueriedEngine

namespace AnalysisEngine

theorem mem_pushSome {Record : Type} {retainAll : Bool} {values : List Record}
    {value : Option Record} {record : Record}
    (member : record ∈ pushSome retainAll values value) :
    record ∈ values ∨ value = some record := by
  cases value with
  | none => exact Or.inl member
  | some new =>
    rw [pushSome_some, boundedPush, mem_append, mem_singleton] at member
    refine member.imp (fun old => ?_) (fun same => congrArg some same.symm)
    unfold evict at old
    split at old
    · exact mem_of_mem_drop old
    · exact old

variable {engine : AnalysisEngine}

theorem kept_eq_some {event : StorageEvent} {io : CompletedIo}
    (kept : engine.kept event = some io) :
    engine.answered event = some io ∨ event = .observedBlockCompletion io := by
  cases event with
  | blockComplete completion =>
    refine Or.inl ?_
    rcases or_eq_some_iff.mp kept with accepted | ⟨-, projected⟩
    · exact (filter_eq_some_iff.mp accepted).1
    · cases projected
  | observedBlockCompletion completed =>
    refine Or.inr ?_
    rcases or_eq_some_iff.mp kept with accepted | ⟨-, carried⟩
    · cases accepted
    · unfold projected at carried
      dsimp only at carried
      split at carried
      · exact congrArg StorageEvent.observedBlockCompletion (some.inj carried)
      · cases carried
  | _ => cases kept

theorem times_of_answered {event : StorageEvent} {io : CompletedIo}
    (answered : engine.answered event = some io) : io.issue.tsNs ≤ io.completion.tsNs := by
  cases event with
  | blockComplete completion =>
    obtain ⟨request, -, -, issue, -, sameCompletion, -, ordered⟩ :=
      RequestCorrelator.onComplete_eq_some answered
    rw [issue, sameCompletion]
    exact ordered
  | _ => cases answered

def freshRetaining (retainAll : Bool) (correlationTtlNs : U64)
    (ttlPositive : 0 < correlationTtlNs) (completionWindow : Option (U64 × U64)) :
    AnalysisEngine :=
  { fresh correlationTtlNs ttlPositive completionWindow with retainAllEvidence := retainAll }

section Runs

variable (retainAll : Bool) (correlationTtlNs : U64) (ttlPositive : 0 < correlationTtlNs)
  (completionWindow : Option (U64 × U64))

variable (events : List StorageEvent)

theorem mem_fileIos_run :
    ∀ file ∈ (run step (freshRetaining retainAll correlationTtlNs ttlPositive completionWindow)
      events).fileIos, StorageEvent.fileIo file ∈ events := by
  refine run_induction (fun history (engine : AnalysisEngine) => ∀ file ∈ engine.fileIos,
    StorageEvent.fileIo file ∈ history) (fun file member => ?_)
    (fun history event known file member => ?_) events
  · cases member
  · rw [fileIos_step] at member
    rcases mem_pushSome member with old | added
    · exact mem_append_left _ (known file old)
    · refine mem_append_right _ (mem_singleton.mpr ?_)
      cases event with
      | fileIo other => exact congrArg StorageEvent.fileIo (some.inj added).symm
      | _ => cases added

theorem mem_completed_run :
    ∀ io ∈ (run step (freshRetaining retainAll correlationTtlNs ttlPositive completionWindow)
      events).completed, io.issue.tsNs ≤ io.completion.tsNs ∨
        StorageEvent.observedBlockCompletion io ∈ events := by
  refine run_induction (fun history (engine : AnalysisEngine) => ∀ io ∈ engine.completed,
    io.issue.tsNs ≤ io.completion.tsNs ∨ StorageEvent.observedBlockCompletion io ∈ history)
    (fun io member => ?_) (fun history event known io member => ?_) events
  · cases member
  · rw [completed_step] at member
    rcases mem_pushSome member with old | added
    · exact (known io old).imp_right fun before => mem_append_left _ before
    · rcases kept_eq_some added with answered | observed
      · exact Or.inl (times_of_answered answered)
      · exact Or.inr (mem_append_right _ (mem_singleton.mpr observed.symm))

/-- On empty caches the two views of a retained request are the views of all retained records, if
every file record runs forward and so does the request: its insert is not after its completion,
and neither is its issue if it was observed without an insert. -/
theorem queries_read_all_evidence (events : List StorageEvent)
    (files : ∀ file, StorageEvent.fileIo file ∈ events → file.startTsNs ≤ file.endTsNs) :
    let engine := run step
      (freshRetaining retainAll correlationTtlNs ttlPositive completionWindow) events
    ∀ io ∈ engine.completed,
      (∀ insert, io.insert = some insert → insert.tsNs ≤ io.completion.tsNs) →
      (StorageEvent.observedBlockCompletion io ∈ events → io.evidence = none → io.insert = none →
        io.issue.tsNs ≤ io.completion.tsNs) →
      (({ engine := engine } : QueriedEngine).transactionFor io).2 =
          buildTransactionGraph io engine.fileIos
            (engine.pipelineObservations.filter fun value =>
              value.correlationId ≠ some io.issue.requestId ||
                engine.evidenceTimeMatches io value.tsNs)
            (engine.graphNodes.filter fun node => engine.evidenceTimeMatches io node.startTsNs)
            engine.graphEdges ∧
        (({ engine := engine } : QueriedEngine).pipelineFor io).2 =
          buildIoPipeline io (engine.pipelineObservations.filter fun value =>
            value.correlationId ≠ some io.issue.requestId ||
              engine.evidenceTimeMatches io value.tsNs) := by
  intro engine io retained inserted observed
  have forward : io.evidence = none → io.blockStart ≤ io.completion.tsNs := by
    intro own
    unfold CompletedIo.blockStart
    cases known : io.insert with
    | some insert => exact inserted insert known
    | none =>
      rcases mem_completed_run retainAll correlationTtlNs ttlPositive completionWindow events io
        retained with ordered | projected
      · exact ordered
      · exact observed projected own known
  have ordered : ∀ file ∈ engine.fileIos, file.startTsNs ≤ file.endTsNs := fun file member =>
    files file
      (mem_fileIos_run retainAll correlationTtlNs ttlPositive completionWindow events file member)
  exact ⟨(QueriedEngine.transactionFor_of_empty engine io).trans
      (indexedTransaction_eq forward ordered),
    (QueriedEngine.pipelineFor_of_empty engine io).trans (indexedPipeline_eq forward)⟩

end Runs

theorem queries_read_all_evidence_single :
    let events := [StorageEvent.fileIo (readFile 900 1500), .blockIssue (readIssue 1000 7),
      .blockComplete (readComplete 2000 7)]
    let engine := run step (freshRetaining false 30_000_000_000 (by decide) none) events
    engine.completed.length = 1 ∧ ∀ io ∈ engine.completed,
      (({ engine := engine } : QueriedEngine).transactionFor io).2 = engine.wholeTransaction io ∧
        (({ engine := engine } : QueriedEngine).pipelineFor io).2 = engine.wholePipeline io := by
  refine ⟨by decide +kernel, fun io retained => ?_⟩
  refine queries_read_all_evidence false 30_000_000_000 (by decide) none _ ?_ io retained ?_ ?_
  · simp [readFile]
  · revert io
    decide +kernel
  · simp

/-- A request observed without an insert that completes seconds before its issue: a file
operation around both times fits it, but no second is near the request. -/
theorem query_misses_spanning_file :
    let io := readDone 5_000_000_000 1_000_000_000 7
    let file := readFile 0 6_000_000_000
    let engine := run step new [.fileIo file, .observedBlockCompletion io]
    io ∈ engine.completed ∧ io.insert = none ∧ file.startTsNs ≤ file.endTsNs ∧
      (({ engine := engine } : QueriedEngine).transactionFor io).2 ≠ engine.wholeTransaction io ∧
        (({ engine := engine } : QueriedEngine).pipelineFor io).2 ≠ engine.wholePipeline io := by
  decide +kernel

end AnalysisEngine

end EbpfStudio
