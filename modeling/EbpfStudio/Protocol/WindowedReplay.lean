/-
This file compares the replay of a capture under a completion window with the replay without one.

The window decides which completed requests are retained and counted. The correlator and the
evidence do not depend on it, so both engines complete the same requests (`WindowedRequests`) and
hold the same evidence (`WindowedCopy`). So they build the same graphs.
-/

import EbpfStudio.Protocol.Caches
import EbpfStudio.Protocol.Lockstep
import EbpfStudio.Protocol.Windows

namespace EbpfStudio

open Run List Option

namespace AnalysisEngine

/-- The requests of an engine with a completion window beside those of one without. -/
structure WindowedRequests (window : U64 × U64) (windowed whole : AnalysisEngine) : Prop where
  ownWindow : windowed.completionWindow = some window
  noWindow : whole.completionWindow = none
  requests : windowed.SameRequests whole
  completed : windowed.completed = whole.completed.filter (placedIn (some window))
  windows : ∀ key : RequestCacheKey, inWindow (some window) key.2.2 →
    windowed.evidenceWindows.lookup key = whole.evidenceWindows.lookup key

/-- An engine with a completion window beside one without, after the same events. -/
structure WindowedCopy (window : U64 × U64) (windowed whole : AnalysisEngine) : Prop
    extends WindowedRequests window windowed whole where
  retaining : windowed.retainAllEvidence = whole.retainAllEvidence
  stages : windowed.SameStages whole
  records : windowed.SameRecords whole

variable {engine : AnalysisEngine}

section

variable {event : StorageEvent} {io : CompletedIo}

theorem completionTimestamp_of_answered (answered : engine.answered event = some io) :
    io.completionTimestamp = some io.completion.tsNs := by
  cases event with
  | blockComplete completion =>
    obtain ⟨-, -, -, -, -, -, own, -⟩ := RequestCorrelator.onComplete_eq_some answered
    unfold CompletedIo.completionTimestamp
    rw [own]
    rfl
  | _ => cases answered

theorem placedIn_of_answered (answered : engine.answered event = some io)
    (window : Option (U64 × U64)) : placedIn window io = inWindow window io.completion.tsNs := by
  unfold placedIn inWindow
  rw [completionTimestamp_of_answered answered]
  rfl

theorem kept_of_accepted (accepted : engine.accepted event = some io) :
    engine.kept event = some io := by
  unfold kept
  rw [accepted]
  rfl

theorem isCompletion_of_kept (kept : engine.kept event = some io) : isCompletion event = true := by
  cases event with
  | blockComplete _ | observedBlockCompletion _ => rfl
  | _ => cases kept

end

section Step

variable {window : U64 × U64} {windowed whole : AnalysisEngine}

section

variable (copy : WindowedRequests window windowed whole)

include copy

theorem WindowedRequests.accepted_eq (event : StorageEvent) :
    windowed.accepted event =
      (whole.accepted event).filter fun io => inWindow (some window) io.completion.tsNs := by
  unfold accepted
  rw [copy.requests.answered_eq, copy.ownWindow, copy.noWindow, Option.filter_filter]
  rfl

theorem WindowedRequests.kept_eq (event : StorageEvent) :
    windowed.kept event = (whole.kept event).filter (placedIn (some window)) := by
  unfold kept
  cases event with
  | blockComplete completion =>
    have unprojected (engine : AnalysisEngine) :
        engine.projected (.blockComplete completion) = none := rfl
    rw [unprojected, unprojected, or_none, or_none, copy.accepted_eq]
    cases known : whole.accepted (.blockComplete completion) with
    | none => rfl
    | some io =>
      rw [filter_some, filter_some,
        placedIn_of_answered (filter_eq_some_iff.mp known).1]
  | observedBlockCompletion completed =>
    show (if placedIn windowed.completionWindow completed then some completed else none) =
      (if placedIn whole.completionWindow completed then some completed else none).filter _
    have anywhere : placedIn none completed = true := rfl
    rw [copy.ownWindow, copy.noWindow, if_pos anywhere, filter_some]
  | _ => rfl

theorem WindowedRequests.length_le : windowed.completed.length ≤ whole.completed.length := by
  rw [copy.completed]
  exact length_filter_le _ _

section

variable (event : StorageEvent)
  (room : isCompletion event = true → whole.completed.length < maxAnalysisSamples)

include room

theorem WindowedRequests.windows_step {key : RequestCacheKey}
    (inside : inWindow (some window) key.2.2) :
    (windowed.step event).evidenceWindows.lookup key =
      (whole.step event).evidenceWindows.lookup key := by
  have accepted := copy.accepted_eq event
  cases known : whole.accepted event with
  | none =>
    rw [known] at accepted
    rw [evidenceWindows_of_rejected known, evidenceWindows_of_rejected accepted]
    exact copy.windows key inside
  | some io =>
    have free := room (isCompletion_of_kept (kept_of_accepted known))
    rw [known, filter_some] at accepted
    rw [lookup_evidenceWindows known free]
    split at accepted
    · rw [lookup_evidenceWindows accepted (copy.length_le.trans_lt free),
        copy.requests.lastCompletion, copy.windows key inside]
    · rename_i outside
      have other : key ≠ requestCacheKey io := by
        rintro rfl
        exact outside inside
      rw [evidenceWindows_of_rejected accepted, if_neg other]
      exact copy.windows key inside

theorem WindowedRequests.step :
    WindowedRequests window (windowed.step event) (whole.step event) where
  ownWindow := (windowed.completionWindow_step event).trans copy.ownWindow
  noWindow := (whole.completionWindow_step event).trans copy.noWindow
  requests := copy.requests.step event
  completed := by
    have keeps := copy.kept_eq event
    cases known : whole.kept event with
    | none =>
      rw [known] at keeps
      rw [completed_step, completed_step, known, keeps]
      exact copy.completed
    | some io =>
      have free := room (isCompletion_of_kept known)
      rw [completed_of_room event (copy.length_le.trans_lt free), completed_of_room event free,
        filter_append, copy.completed, keeps, known, filter_some,
        toList_some, filter_singleton]
      cases placedIn (some window) io <;> rfl
  windows _ inside := copy.windows_step event room inside

end

end

theorem WindowedCopy.records_step (copy : WindowedCopy window windowed whole)
    (event : StorageEvent) : (windowed.step event).SameRecords (whole.step event) := by
  refine ⟨?_, ?_, ?_, ?_⟩
  · rw [fileIos_step, fileIos_step, copy.retaining, copy.records.fileIos]
  · rw [pipelineObservations_step, pipelineObservations_step]
    unfold observationsAfter
    cases event with
    | pipeline observation =>
      dsimp only
      rw [copy.retaining, copy.records.pipelineObservations, copy.stages.taken_eq]
    | _ =>
      rw [copy.records.pipelineObservations]
  · rw [graphNodes_step, graphNodes_step, copy.retaining, copy.records.graphNodes]
  · rw [graphEdges_step, graphEdges_step, copy.retaining, copy.records.graphEdges]

theorem WindowedCopy.step (copy : WindowedCopy window windowed whole) (event : StorageEvent)
    (room : isCompletion event = true → whole.completed.length < maxAnalysisSamples) :
    WindowedCopy window (windowed.step event) (whole.step event) where
  toWindowedRequests := copy.toWindowedRequests.step event room
  retaining := by
    rw [retainAllEvidence_step, retainAllEvidence_step, copy.retaining]
  stages := copy.stages.step event
  records := copy.records_step event

end Step

section Replay

variable (correlationTtlNs : U64) (ttlPositive : 0 < correlationTtlNs) (window : U64 × U64)

variable (events : List StorageEvent)

theorem windowedCopy_run (few : events.length ≤ maxAnalysisSamples) :
    WindowedCopy window (run step (fresh correlationTtlNs ttlPositive (some window)) events)
      (run step (fresh correlationTtlNs ttlPositive none) events) := by
  refine run_lockstep (fun history windowed whole =>
    history.length ≤ maxAnalysisSamples → WindowedCopy window windowed whole)
    (fun _ => ?_) (fun history event known few => ?_) events few
  · exact ⟨⟨rfl, rfl, ⟨rfl, rfl, rfl⟩, rfl, fun _ _ => rfl⟩, rfl, ⟨rfl, rfl⟩, ⟨rfl, rfl, rfl, rfl⟩⟩
  · rw [length_append, length_singleton] at few
    have retained := length_completed_run correlationTtlNs ttlPositive none history
    have room := Nat.lt_of_le_of_lt (retained.trans countP_le_length) few
    exact (known (Nat.le_of_succ_le few)).step event fun _ => room

end Replay

theorem inWindow_of_placedIn {window : U64 × U64} {io : CompletedIo}
    (placed : placedIn (some window) io) : inWindow (some window) io.completion.tsNs := by
  unfold placedIn CompletedIo.completionTimestamp at placed
  split at placed
  · exact placed
  · cases placed

end AnalysisEngine

namespace QueriedEngine

theorem index_transactionFor (state : QueriedEngine) (io : CompletedIo) :
    (state.transactionFor io).1.index = state.index := by
  unfold transactionFor
  split <;> rfl

variable {state other : QueriedEngine}

theorem transactionFor_congr {io : CompletedIo}
    (cache : state.transactionCache = other.transactionCache)
    (answer : state.engine.indexedTransaction state.index io =
      other.engine.indexedTransaction other.index io) :
    (state.transactionFor io).2 = (other.transactionFor io).2 ∧
      (state.transactionFor io).1.transactionCache =
        (other.transactionFor io).1.transactionCache := by
  unfold transactionFor
  rw [cache, answer]
  split
  · exact ⟨rfl, cache⟩
  · exact ⟨rfl, rfl⟩

theorem transactionsFor_congr (cache : state.transactionCache = other.transactionCache)
    (asked : List CompletedIo)
    (answers : ∀ io ∈ asked, state.engine.indexedTransaction state.index io =
      other.engine.indexedTransaction other.index io) :
    (state.transactionsFor asked).2 = (other.transactionsFor asked).2 := by
  induction asked generalizing state other with
  | nil => rfl
  | cons io rest hypothesis =>
    obtain ⟨first, sameCache⟩ :=
      transactionFor_congr cache (answers io mem_cons_self)
    have others := hypothesis sameCache fun next member => by
      rw [index_transactionFor, index_transactionFor, engine_transactionFor,
        engine_transactionFor]
      exact answers next (mem_cons_of_mem _ member)
    exact congrArg₂ cons first others

end QueriedEngine

/-- A replay under an inclusive window retains of the requests of the replay without one,
unchanged and in their order, exactly those whose completion can be placed in the window, and
whatever queries are made of them, both engines answer with the same graphs. -/
theorem windowed_replay_retains_window (correlationTtlNs : U64)
    (ttlPositive : 0 < correlationTtlNs) (startNs endNs : U64) (events : List StorageEvent)
    (below : events.length < maxAnalysisSamples) :
    let start := AnalysisEngine.withWindows correlationTtlNs ttlPositive
    let windowed := run AnalysisEngine.step (start.setCompletionWindow startNs endNs) events
    let whole := run AnalysisEngine.step start events
    windowed.completed = whole.completed.filter (fun io =>
        io.completionTimestamp.any fun ts => startNs ≤ ts && ts ≤ endNs) ∧
      ∀ asked : List CompletedIo, asked ⊆ windowed.completed →
        (({ engine := windowed } : QueriedEngine).transactionsFor asked).2 =
          (({ engine := whole } : QueriedEngine).transactionsFor asked).2 := by
  intro start windowed whole
  have copy : AnalysisEngine.WindowedCopy (startNs, endNs) windowed whole :=
    AnalysisEngine.windowedCopy_run correlationTtlNs ttlPositive (startNs, endNs) events below.le
  refine ⟨copy.completed, fun asked retained => ?_⟩
  refine @QueriedEngine.transactionsFor_congr { engine := windowed } { engine := whole } rfl asked
    fun io member => ?_
  have kept := retained member
  rw [copy.completed] at kept
  have inside := AnalysisEngine.inWindow_of_placedIn (mem_filter.mp kept).2
  exact (AnalysisEngine.views_congr copy.records (copy.windows (requestCacheKey io) inside)).1

/-- Of two reads, the window holds the later one. -/
theorem windowed_replay_retains_window_later :
    let events := [StorageEvent.blockIssue (readIssue 1000 7), .fileIo (readFile 900 1500),
      .blockComplete (readComplete 2000 7), .blockIssue (readIssue 3000 8),
      .blockComplete (readComplete 4000 8)]
    let windowed := run AnalysisEngine.step (AnalysisEngine.new.setCompletionWindow 3000 4000)
      events
    let whole := run AnalysisEngine.step AnalysisEngine.new events
    windowed.completed.length = 1 ∧ whole.completed.length = 2 ∧
      windowed.completed = whole.completed.filter (fun io =>
        io.completionTimestamp.any fun ts => (3000 : U64) ≤ ts && ts ≤ 4000) ∧
      (({ engine := windowed } : QueriedEngine).transactionsFor windowed.completed).2 =
        (({ engine := whole } : QueriedEngine).transactionsFor windowed.completed).2 := by
  intro events windowed whole
  have holds := windowed_replay_retains_window 30_000_000_000 (by decide) 3000 4000 events
    (by decide)
  exact ⟨by decide +kernel, by decide +kernel, holds.1,
    holds.2 windowed.completed (List.Subset.refl _)⟩

end EbpfStudio
