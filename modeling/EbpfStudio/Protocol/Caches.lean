/-
This file settles when the caches of the engine are invisible.

A cached view is looked up by a key that has no device. `KeepsKeysApart` says that no two requests
that are asked about share a key, and `Coherent` that every cached view is then the right one.
Ingestion empties the caches whenever it adds evidence, so what they hold stays right.
-/

import EbpfStudio.Protocol.Queries

namespace EbpfStudio

open Memo Positions Run List Option AnalysisEngine StepsMeet AnalysisIndex

/-! ### What a view reads -/

namespace AnalysisEngine

def freshTransaction (engine : AnalysisEngine) (io : CompletedIo) : IoTransactionGraph :=
  engine.indexedTransaction (.build engine) io

def freshPipeline (engine : AnalysisEngine) (io : CompletedIo) : IoPipeline :=
  engine.indexedPipeline (.build engine) io

structure SameRecords (engine other : AnalysisEngine) : Prop where
  fileIos : engine.fileIos = other.fileIos
  pipelineObservations : engine.pipelineObservations = other.pipelineObservations
  graphNodes : engine.graphNodes = other.graphNodes
  graphEdges : engine.graphEdges = other.graphEdges

theorem SameRecords.index {engine other : AnalysisEngine} (same : engine.SameRecords other) :
    build engine = build other := by
  unfold build
  rw [same.fileIos, same.pipelineObservations, same.graphNodes, same.graphEdges]

section Views

variable {engine other : AnalysisEngine} {io : CompletedIo}

section

variable
  (window : engine.evidenceWindows.lookup (requestCacheKey io) =
      other.evidenceWindows.lookup (requestCacheKey io))

include window

theorem evidenceTimeMatches_congr :
    engine.evidenceTimeMatches io = other.evidenceTimeMatches io := by
  funext ts
  unfold evidenceTimeMatches
  rw [window]

theorem observationAllowed_congr : engine.observationAllowed io = other.observationAllowed io := by
  funext value
  unfold observationAllowed
  rw [evidenceTimeMatches_congr window]

theorem nodeAllowed_congr : engine.nodeAllowed io = other.nodeAllowed io := by
  funext node
  unfold nodeAllowed
  rw [evidenceTimeMatches_congr window]

end

theorem views_congr (same : engine.SameRecords other)
    (window : engine.evidenceWindows.lookup (requestCacheKey io) =
      other.evidenceWindows.lookup (requestCacheKey io)) :
    engine.freshTransaction io = other.freshTransaction io ∧
      engine.freshPipeline io = other.freshPipeline io := by
  have observations : engine.indexedObservations (.build engine) io =
      other.indexedObservations (.build other) io := by
    unfold indexedObservations
    rw [same.index, same.pipelineObservations, observationAllowed_congr window]
  have files : engine.filePositions (.build engine) io = other.filePositions (.build other) io := by
    unfold filePositions indexedIdentities
    rw [same.index, same.graphNodes]
  constructor
  · unfold freshTransaction indexedTransaction
    rw [observations, files, same.fileIos, same.index, same.graphNodes, same.graphEdges,
      nodeAllowed_congr window]
  · unfold freshPipeline indexedPipeline
    rw [observations]

end Views

def addsEvidence : StorageEvent → Bool
  | .fileIo _ | .pipeline _ | .requestOrigin _ | .node _ | .edge _ => true
  | _ => false

variable {event : StorageEvent}

theorem sameRecords_step (engine : AnalysisEngine) (block : addsEvidence event = false) :
    (engine.step event).SameRecords engine := by
  refine ⟨?_, ?_, ?_, ?_⟩
  · rw [fileIos_step]
    cases event with
    | fileIo _ => cases block
    | _ => rfl
  · rw [pipelineObservations_step]
    cases event with
    | fileIo _ | pipeline _ => cases block
    | _ => rfl
  · rw [graphNodes_step]
    cases event with
    | requestOrigin _ | node _ => cases block
    | _ => rfl
  · rw [graphEdges_step]
    cases event with
    | requestOrigin _ | edge _ => cases block
    | _ => rfl

/-! ### Completed requests of a run -/

def returned (start : AnalysisEngine) (events : List StorageEvent) : List CompletedIo :=
  collect step (fun engine event => (engine.ingest event).2) start events

theorem returned_snoc (start : AnalysisEngine) (history : List StorageEvent)
    (event : StorageEvent) :
    returned start (history ++ [event]) =
      returned start history ++ ((run step start history).ingest event).2.toList :=
  collect_snoc ..

variable {engine : AnalysisEngine} {io : CompletedIo}

theorem returned_of_kept (kept : engine.kept event = some io) :
    (engine.ingest event).2 = some io := by
  rcases kept_eq_some kept with known | rfl
  · cases event with
    | blockComplete completion =>
      have answers : ((engine.observeTs completion.tsNs).correlator.onComplete completion).2 =
        some io := known
      show (engine.ingestBlockComplete completion).2 = some io
      unfold ingestBlockComplete
      dsimp only
      rw [answers]
    | _ => cases known
  · rfl

theorem completed_sublist_returned (start : AnalysisEngine) (empty : start.completed = [])
    (events : List StorageEvent) :
    (run step start events).completed.Sublist (returned start events) := by
  refine run_induction (fun history (engine : AnalysisEngine) =>
    engine.completed.Sublist (returned start history)) ?_ (fun history event known => ?_) events
  · rw [empty]
    exact nil_sublist _
  · rw [completed_step, returned_snoc]
    cases kept : (run step start history).kept event with
    | none => exact known.trans (sublist_append_left _ _)
    | some io =>
      rw [returned_of_kept kept, pushSome_some, boundedPush]
      refine Sublist.append (Sublist.trans ?_ known) (Sublist.refl _)
      unfold evict
      split
      · exact drop_sublist _ _
      · exact Sublist.refl _

/-! ### A request alone under its key -/

def AloneIn (requests : List CompletedIo) (io : CompletedIo) : Prop :=
  (requests.countP fun other => requestCacheKey other = requestCacheKey io) ≤ 1

theorem AloneIn.sublist {requests fewer : List CompletedIo} (alone : AloneIn requests io)
    (sublist : fewer.Sublist requests) : AloneIn fewer io :=
  le_trans sublist.countP_le alone

theorem AloneIn.not_split {before after : List CompletedIo} {io first second : CompletedIo}
    (alone : AloneIn (before ++ after) io) (left : first ∈ before) (right : second ∈ after)
    (firstKey : requestCacheKey first = requestCacheKey io) :
    requestCacheKey second ≠ requestCacheKey io := by
  intro secondKey
  unfold AloneIn at alone
  rw [countP_append] at alone
  have one : 0 < before.countP fun other => requestCacheKey other = requestCacheKey io :=
    countP_pos_iff.mpr ⟨first, left, decide_eq_true firstKey⟩
  have two : 0 < after.countP fun other => requestCacheKey other = requestCacheKey io :=
    countP_pos_iff.mpr ⟨second, right, decide_eq_true secondKey⟩
  omega

theorem AloneIn.eq {requests : List CompletedIo} {io first second : CompletedIo}
    (alone : AloneIn requests io) (left : first ∈ requests) (right : second ∈ requests)
    (firstKey : requestCacheKey first = requestCacheKey io)
    (secondKey : requestCacheKey second = requestCacheKey io) : first = second := by
  obtain ⟨before, after, rfl⟩ := append_of_mem left
  rcases mem_append.mp right with earlier | here
  · exact absurd firstKey (alone.not_split earlier mem_cons_self secondKey)
  · rcases mem_cons.mp here with same | later
    · exact same.symm
    · have split : AloneIn ((before ++ [first]) ++ after) io := by
        rw [append_assoc]
        exact alone
      have left : first ∈ before ++ [first] := mem_concat_self
      exact absurd secondKey (split.not_split left later firstKey)

theorem lookup_foldl_erase {windows : Table RequestCacheKey (U64 × U64)}
    {evicted : List CompletedIo} {key : RequestCacheKey}
    (absent : ∀ old ∈ evicted, requestCacheKey old ≠ key) :
    (evicted.foldl (fun windows old => windows.erase (requestCacheKey old)) windows).lookup key =
      windows.lookup key := by
  induction evicted generalizing windows with
  | nil => rfl
  | cons old rest hypothesis =>
    rw [foldl_cons, hypothesis fun other member =>
      absent other (mem_cons_of_mem _ member), Table.lookup_erase_eq,
      if_neg (absent old mem_cons_self).symm]

theorem lookup_evidenceWindows_step (stays : io ∈ (engine.step event).completed)
    (alone : AloneIn engine.completed io)
    (other : ∀ added, engine.kept event = some added → requestCacheKey added ≠ requestCacheKey io) :
    (engine.step event).evidenceWindows.lookup (requestCacheKey io) =
      engine.evidenceWindows.lookup (requestCacheKey io) := by
  rw [evidenceWindows_step, evidenceWindowsAfter]
  cases accepted : engine.accepted event with
  | none => rfl
  | some added =>
    have kept : engine.kept event = some added := by
      unfold kept
      rw [accepted]
      rfl
    have different := other added kept
    rw [completed_step, kept, pushSome_some, boundedPush, mem_append] at stays
    have remains : io ∈ evict engine.retainAllEvidence engine.completed := by
      refine stays.resolve_right fun same => ?_
      exact different (congrArg requestCacheKey (mem_singleton.mp same).symm)
    rw [elim_some, retainWindow, lookup_foldl_erase, Table.lookup_insert_eq,
      if_neg different.symm]
    intro old member
    unfold evict at remains
    split at member
    · rename_i full
      rw [if_pos full] at remains
      have split : AloneIn (engine.completed.take (maxAnalysisSamples / 10) ++
          engine.completed.drop (maxAnalysisSamples / 10)) io := by
        rw [take_append_drop]
        exact alone
      exact fun same => split.not_split member remains same rfl
    · cases member

end AnalysisEngine

/-! ### Runs with queries -/

inductive Action where
  | ingest (event : StorageEvent)
  | transactionFor (io : CompletedIo)
  | pipelineFor (io : CompletedIo)

namespace Action

def ingestedEvent : Action → Option StorageEvent
  | ingest event => some event
  | _ => none

def askedRequest : Action → Option CompletedIo
  | ingest _ => none
  | transactionFor io | pipelineFor io => some io

end Action

def ingested (actions : List Action) : List StorageEvent := actions.filterMap (·.ingestedEvent)

def asked (actions : List Action) : List CompletedIo := actions.filterMap (·.askedRequest)

def QueriedEngine.act (state : QueriedEngine) : Action → QueriedEngine
  | .ingest event => (state.ingest event).1
  | .transactionFor io => (state.transactionFor io).1
  | .pipelineFor io => (state.pipelineFor io).1

def AsksCompleted (start : AnalysisEngine) (history : List Action) (action : Action) : Prop :=
  ∀ io, action.askedRequest = some io → io ∈ AnalysisEngine.returned start (ingested history)

/-- A query asks about a request that is alone under its key so far, and no completion repeats
the key of a request asked about before. -/
def KeepsKeysApart (start : AnalysisEngine) (history : List Action) : Action → Prop
  | .ingest event => ∀ io,
      ((run AnalysisEngine.step start (ingested history)).ingest event).2 = some io →
        ∀ earlier ∈ asked history, requestCacheKey io ≠ requestCacheKey earlier
  | .transactionFor io | .pipelineFor io =>
      AnalysisEngine.AloneIn (AnalysisEngine.returned start (ingested history)) io

/-! ### Coherent caches -/

namespace QueriedEngine

/-- A remembered view belongs to a request that was asked about, and is right for it as long as
it is retained. -/
def RightView {View : Type} (requests : List CompletedIo) (retained : List CompletedIo)
    (view : CompletedIo → View) (key : RequestCacheKey) (remembered : View) : Prop :=
  ∃ io ∈ requests, requestCacheKey io = key ∧ (io ∈ retained → remembered = view io)

theorem RightView.mono {View : Type} {requests more : List CompletedIo}
    {retained : List CompletedIo} {view : CompletedIo → View} {key : RequestCacheKey}
    {remembered : View} (right : RightView requests retained view key remembered)
    (subset : requests ⊆ more) : RightView more retained view key remembered := by
  obtain ⟨io, member, same, correct⟩ := right
  exact ⟨io, subset member, same, correct⟩

structure CachesRight (requests : List CompletedIo) (state : QueriedEngine) : Prop where
  index : ∀ index, state.analysisIndex = some index → index = .build state.engine
  transactions : Sound (RightView requests state.engine.completed state.engine.freshTransaction)
    state.transactionCache
  pipelines : Sound (RightView requests state.engine.completed state.engine.freshPipeline)
    state.pipelineCache

theorem cachesRight_empty (requests : List CompletedIo) (engine : AnalysisEngine) :
    CachesRight requests { engine := engine } :=
  ⟨fun _ known => (nomatch known), Sound.empty, Sound.empty⟩

variable {requests : List CompletedIo} {state : QueriedEngine}

theorem CachesRight.index_eq (right : state.CachesRight requests) :
    state.index = .build state.engine := by
  unfold QueriedEngine.index
  cases known : state.analysisIndex with
  | none => rfl
  | some index => exact right.index index known

theorem CachesRight.query {state next : QueriedEngine} (right : state.CachesRight requests)
    (io : CompletedIo) (sameEngine : next.engine = state.engine)
    (index : next.analysisIndex = state.analysisIndex ∨
      next.analysisIndex = some (.build state.engine))
    (transactions : next.transactionCache = state.transactionCache ∨
      next.transactionCache = remember maxDerivedCacheEntries state.transactionCache
        (requestCacheKey io) (state.engine.freshTransaction io))
    (pipelines : next.pipelineCache = state.pipelineCache ∨
      next.pipelineCache = remember maxDerivedCacheEntries state.pipelineCache
        (requestCacheKey io) (state.engine.freshPipeline io)) :
    next.CachesRight (requests ++ [io]) := by
  have grown : requests ⊆ requests ++ [io] := subset_append_left _ _
  have newest : io ∈ requests ++ [io] := mem_concat_self
  constructor
  · rw [sameEngine]
    intro found known
    rcases index with same | built
    · exact right.index found (same ▸ known)
    · rw [built] at known
      exact (some.inj known).symm
  · rw [sameEngine]
    have old := right.transactions.mono fun _ _ view => view.mono grown
    rcases transactions with same | added
    · rw [same]
      exact old
    · rw [added]
      exact old.remember _ ⟨io, newest, rfl, fun _ => rfl⟩
  · rw [sameEngine]
    have old := right.pipelines.mono fun _ _ view => view.mono grown
    rcases pipelines with same | added
    · rw [same]
      exact old
    · rw [added]
      exact old.remember _ ⟨io, newest, rfl, fun _ => rfl⟩

theorem CachesRight.transactionFor (right : state.CachesRight requests) (io : CompletedIo) :
    (state.transactionFor io).1.CachesRight (requests ++ [io]) := by
  unfold QueriedEngine.transactionFor
  split
  · exact right.query io rfl (.inl rfl) (.inl rfl) (.inl rfl)
  · rw [right.index_eq]
    exact right.query io rfl (.inr rfl) (.inr rfl) (.inl rfl)

theorem CachesRight.pipelineFor (right : state.CachesRight requests) (io : CompletedIo) :
    (state.pipelineFor io).1.CachesRight (requests ++ [io]) := by
  unfold QueriedEngine.pipelineFor
  split
  · exact right.query io rfl (.inl rfl) (.inl rfl) (.inl rfl)
  · split
    · exact right.query io rfl (.inl rfl) (.inl rfl) (.inl rfl)
    · rw [right.index_eq]
      exact right.query io rfl (.inr rfl) (.inl rfl) (.inr rfl)

theorem engine_transactionFor (state : QueriedEngine) (io : CompletedIo) :
    (state.transactionFor io).1.engine = state.engine := by
  unfold QueriedEngine.transactionFor
  split <;> rfl

theorem engine_pipelineFor (state : QueriedEngine) (io : CompletedIo) :
    (state.pipelineFor io).1.engine = state.engine := by
  unfold QueriedEngine.pipelineFor
  split
  · rfl
  · split <;> rfl

variable {io : CompletedIo}

theorem CachesRight.views (right : state.CachesRight requests)
    (retained : io ∈ state.engine.completed)
    (unique : ∀ other ∈ requests, requestCacheKey other = requestCacheKey io → other = io) :
    (state.transactionFor io).2 = state.engine.freshTransaction io ∧
      (state.pipelineFor io).2 = state.engine.freshPipeline io := by
  constructor
  · unfold QueriedEngine.transactionFor
    split
    · rename_i found
      obtain ⟨other, member, same, correct⟩ := right.transactions _ _ found
      cases unique other member same
      exact correct retained
    · rw [right.index_eq]
      rfl
  · unfold QueriedEngine.pipelineFor
    split
    · rename_i projected
      unfold AnalysisEngine.freshPipeline AnalysisEngine.indexedPipeline
      rw [if_pos projected]
    · split
      · rename_i found
        obtain ⟨other, member, same, correct⟩ := right.pipelines _ _ found
        cases unique other member same
        exact correct retained
      · rw [right.index_eq]
        rfl

/-- After some actions every request asked about was completed and is alone under its key, and
the caches are right. -/
structure Coherent (start : AnalysisEngine) (history : List Action) (state : QueriedEngine) :
    Prop where
  engine : state.engine = run AnalysisEngine.step start (ingested history)
  returned : ∀ io ∈ asked history, io ∈ AnalysisEngine.returned start (ingested history)
  alone : ∀ io ∈ asked history,
    AnalysisEngine.AloneIn (AnalysisEngine.returned start (ingested history)) io
  caches : state.CachesRight (asked history)

theorem ingested_snoc (history : List Action) (action : Action) :
    ingested (history ++ [action]) = ingested history ++ action.ingestedEvent.toList :=
  filterMap_snoc _ history action

theorem asked_snoc (history : List Action) (action : Action) :
    asked (history ++ [action]) = asked history ++ action.askedRequest.toList :=
  filterMap_snoc _ history action

variable {history : List Action} {action : Action}

theorem ingested_snoc_query (query : action.askedRequest = some io) :
    ingested (history ++ [action]) = ingested history := by
  rw [ingested_snoc]
  cases action with
  | ingest event => cases query
  | _ => exact append_nil _

theorem asked_snoc_query (query : action.askedRequest = some io) :
    asked (history ++ [action]) = asked history ++ [io] := by
  rw [asked_snoc, query, toList_some]

theorem Coherent.query {start : AnalysisEngine} {state next : QueriedEngine}
    (coherent : state.Coherent start history) (query : action.askedRequest = some io)
    (completed : io ∈ AnalysisEngine.returned start (ingested history))
    (alone : AnalysisEngine.AloneIn (AnalysisEngine.returned start (ingested history)) io)
    (sameEngine : next.engine = state.engine) (caches : next.CachesRight (asked history ++ [io])) :
    next.Coherent start (history ++ [action]) := by
  refine ⟨?_, ?_, ?_, ?_⟩
  · rw [sameEngine, ingested_snoc_query query, coherent.engine]
  · rw [ingested_snoc_query query, asked_snoc_query query]
    exact forall_mem_snoc coherent.returned completed
  · rw [ingested_snoc_query query, asked_snoc_query query]
    exact forall_mem_snoc coherent.alone alone
  · rw [asked_snoc_query query]
    exact caches

variable {event : StorageEvent}

theorem invalidate_of_evidence (state : QueriedEngine)
    (adds : addsEvidence event = true) :
    state.invalidate event = { engine := state.engine } := by
  cases event with
  | fileIo _ | pipeline _ | requestOrigin _ | node _ | edge _ => rfl
  | _ => cases adds

theorem invalidate_of_block (state : QueriedEngine)
    (block : addsEvidence event = false) :
    (state.invalidate event).transactionCache = state.transactionCache ∧
      (state.invalidate event).pipelineCache = state.pipelineCache ∧
      (state.invalidate event).analysisIndex = state.analysisIndex := by
  cases event with
  | fileIo _ | pipeline _ | requestOrigin _ | node _ | edge _ => cases block
  | _ => exact ⟨rfl, rfl, rfl⟩

theorem CachesRight.ingest (right : state.CachesRight requests) (event : StorageEvent)
    (stays : AnalysisEngine.addsEvidence event = false →
      ∀ io ∈ requests, io ∈ (state.engine.step event).completed → io ∈ state.engine.completed ∧
      (state.engine.step event).freshTransaction io = state.engine.freshTransaction io ∧
      (state.engine.step event).freshPipeline io = state.engine.freshPipeline io) :
    (state.ingest event).1.CachesRight requests := by
  unfold QueriedEngine.ingest
  cases adds : AnalysisEngine.addsEvidence event with
  | true =>
    rw [state.invalidate_of_evidence adds]
    exact cachesRight_empty requests _
  | false =>
    obtain ⟨transactionCache, pipelineCache, analysisIndex⟩ := state.invalidate_of_block adds
    refine ⟨fun index known => ?_, fun key graph found => ?_, fun key pipeline found => ?_⟩
    · rw [analysisIndex] at known
      rw [right.index index known]
      exact (state.engine.sameRecords_step adds).index.symm
    · rw [transactionCache] at found
      obtain ⟨io, member, same, correct⟩ := right.transactions key graph found
      refine ⟨io, member, same, fun after => ?_⟩
      obtain ⟨before, view, -⟩ := stays adds io member after
      exact (correct before).trans view.symm
    · rw [pipelineCache] at found
      obtain ⟨io, member, same, correct⟩ := right.pipelines key pipeline found
      refine ⟨io, member, same, fun after => ?_⟩
      obtain ⟨before, -, view⟩ := stays adds io member after
      exact (correct before).trans view.symm

theorem Coherent.ingest {start : AnalysisEngine} (empty : start.completed = [])
    (coherent : state.Coherent start history)
    (apart : KeepsKeysApart start history (.ingest event)) :
    (state.ingest event).1.Coherent start (history ++ [.ingest event]) := by
  have events : ingested (history ++ [.ingest event]) = ingested history ++ [event] :=
    ingested_snoc history (.ingest event)
  have requests : asked (history ++ [.ingest event]) = asked history :=
    (asked_snoc history (.ingest event)).trans (append_nil _)
  have other : ∀ io ∈ asked history, ∀ added, (state.engine.ingest event).2 = some added →
      requestCacheKey added ≠ requestCacheKey io := by
    intro io member added returned
    rw [coherent.engine] at returned
    exact apart added returned io member
  refine ⟨?_, ?_, ?_, ?_⟩
  · rw [events, run_snoc, ← coherent.engine]
    rfl
  · rw [events, requests, returned_snoc]
    exact fun io member => mem_append_left _ (coherent.returned io member)
  · rw [events, requests, returned_snoc, ← coherent.engine]
    intro io member
    unfold AloneIn
    rw [countP_append]
    have noneAdded : ((state.engine.ingest event).2.toList.countP fun added =>
        requestCacheKey added = requestCacheKey io) = 0 := by
      rw [countP_eq_zero]
      intro added listed
      simpa using other io member added (mem_toList.mp listed)
    rw [noneAdded]
    exact coherent.alone io member
  · rw [requests]
    refine coherent.caches.ingest event fun block io member after => ?_
    have alone : AloneIn state.engine.completed io := by
      rw [coherent.engine]
      exact (coherent.alone io member).sublist
        (completed_sublist_returned start empty _)
    have different : ∀ added, state.engine.kept event = some added →
        requestCacheKey added ≠ requestCacheKey io := fun added kept =>
      other io member added (returned_of_kept kept)
    refine ⟨?_, views_congr (state.engine.sameRecords_step block)
      (lookup_evidenceWindows_step after alone different)⟩
    rw [completed_step] at after
    exact (mem_pushSome after).resolve_right fun kept => different io kept rfl

theorem coherent_run (start : AnalysisEngine) (empty : start.completed = [])
    (actions : List Action)
    (meets : StepsMeet (fun history action => AsksCompleted start history action ∧
      KeepsKeysApart start history action) actions) :
    (run act { engine := start } actions).Coherent start actions := by
  refine run_induction_of_stepsMeet (fun history (state : QueriedEngine) =>
    state.Coherent start history) ?_ (fun history action condition coherent => ?_) actions meets
  · exact ⟨rfl, fun _ member => (nomatch member), fun _ member => (nomatch member),
      cachesRight_empty _ _⟩
  · obtain ⟨completed, apart⟩ := condition
    cases action with
    | ingest event => exact coherent.ingest empty apart
    | transactionFor io =>
      exact coherent.query rfl (completed io rfl) apart (engine_transactionFor _ io)
        (coherent.caches.transactionFor io)
    | pipelineFor io =>
      exact coherent.query rfl (completed io rfl) apart (engine_pipelineFor _ io)
        (coherent.caches.pipelineFor io)

section Runs

variable (retainAll : Bool) (correlationTtlNs : U64) (ttlPositive : 0 < correlationTtlNs)
  (completionWindow : Option (U64 × U64))

/-- In a run in which queries ask about completed requests only, and none of these shares its
key with another completed request, queries of retained requests return what they return on an
engine that was never queried. -/
theorem queries_are_transparent (actions : List Action) :
    let start := AnalysisEngine.freshRetaining retainAll correlationTtlNs ttlPositive
      completionWindow
    StepsMeet (fun history action => AsksCompleted start history action ∧
      KeepsKeysApart start history action) actions →
    let state := run act { engine := start } actions
    let unqueried : QueriedEngine :=
      { engine := run AnalysisEngine.step start (ingested actions) }
    ∀ io ∈ unqueried.engine.completed,
      (state.transactionFor io).2 = (unqueried.transactionFor io).2 ∧
        (state.pipelineFor io).2 = (unqueried.pipelineFor io).2 := by
  intro start meets state unqueried io retained
  have coherent : state.Coherent start actions := coherent_run start rfl actions meets
  have completed : io ∈ returned start (ingested actions) :=
    (completed_sublist_returned start rfl _).subset retained
  have present : io ∈ state.engine.completed := by
    rw [coherent.engine]
    exact retained
  obtain ⟨transaction, pipeline⟩ := coherent.caches.views present fun other member same =>
    (coherent.alone other member).eq (coherent.returned other member) completed rfl same.symm
  rw [transaction, pipeline, coherent.engine]
  exact ⟨(transactionFor_of_empty _ io).symm, (pipelineFor_of_empty _ io).symm⟩

end Runs

def readCompleted : CompletedIo :=
  { readDone 1000 2000 7 with
    latencyNs := some 1000
    deviceLatencyNs := some 1000
    totalLatencyNs := some 1000
    queueDepthAtIssue := some 1
    queueDepthAfter := some 0
    detailTiming := ⟨some 1, none, none, none, none⟩ }

theorem queries_are_transparent_single :
    let actions := [Action.ingest (.blockIssue (readIssue 1000 7)),
      .ingest (.blockComplete (readComplete 2000 7)), .transactionFor readCompleted,
      .pipelineFor readCompleted]
    let start := AnalysisEngine.freshRetaining false 30_000_000_000 (by decide) none
    let state := run act { engine := start } actions
    let unqueried : QueriedEngine :=
      { engine := run AnalysisEngine.step start (ingested actions) }
    readCompleted ∈ unqueried.engine.completed ∧ ∀ io ∈ unqueried.engine.completed,
      (state.transactionFor io).2 = (unqueried.transactionFor io).2 ∧
        (state.pipelineFor io).2 = (unqueried.pipelineFor io).2 := by
  refine ⟨by decide +kernel,
    queries_are_transparent false 30_000_000_000 (by decide) none _ ?_⟩
  show StepsMeet _ ((([] ++ [Action.ingest (.blockIssue (readIssue 1000 7))]) ++
    [Action.ingest (.blockComplete (readComplete 2000 7))]) ++
      [Action.transactionFor readCompleted] ++ [Action.pipelineFor readCompleted])
  refine snoc (snoc (snoc (snoc (stepsMeet_nil _)
    ⟨?_, ?_⟩) ⟨?_, ?_⟩) ⟨?_, ?_⟩) ⟨?_, ?_⟩
  · exact fun _ query => nomatch query
  · exact fun _ _ _ earlier => nomatch earlier
  · exact fun _ query => nomatch query
  · exact fun _ _ _ earlier => nomatch earlier
  · rintro _ ⟨⟩
    decide +kernel
  · show _ ≤ 1
    decide +kernel
  · rintro _ ⟨⟩
    decide +kernel
  · show _ ≤ 1
    decide +kernel

/-- A read of another device with the same id and the same times, by another process. -/
def otherDevice : List StorageEvent :=
  [.blockIssue { readIssue 1000 7 with deviceMinor := 16, pid := 20 },
    .blockComplete { readComplete 2000 7 with deviceMinor := 16 }]

/-- After a query for one of two requests with equal ids and times on two devices, the query
for the other returns the views of the first. -/
theorem query_returns_other_device :
    let events := [StorageEvent.blockIssue (readIssue 1000 7), .blockComplete (readComplete 2000 7)]
      ++ otherDevice
    let engine := run AnalysisEngine.step .new events
    ∃ first ∈ engine.completed, ∃ second ∈ engine.completed,
      let state := run act { engine := .new }
        (events.map Action.ingest ++ [.transactionFor first, .pipelineFor first])
      (state.transactionFor second).2 ≠ (({ engine := engine } : QueriedEngine).transactionFor
          second).2 ∧
        (state.pipelineFor second).2 ≠ (({ engine := engine } : QueriedEngine).pipelineFor
          second).2 := by
  decide +kernel

end QueriedEngine

end EbpfStudio
