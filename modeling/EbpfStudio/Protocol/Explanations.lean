/-
This file settles when a remembered explanation of a slow request is the one that a new evaluation
gives.

Explanations are remembered under the id of the request alone, so two lifetimes of one id share an
entry. `SelectsApart` excludes this. A new evaluation reads cached graphs, which are right
(`Serves`), so that it gives the same on caches in any state and on empty ones.
-/

import EbpfStudio.Protocol.Caches

namespace EbpfStudio

open Memo Run List QueriedEngine AnalysisEngine

namespace AnalysisEngine

def freshReason (engine : AnalysisEngine) (selected : CompletedIo) : Option SlowReason :=
  let cohort := engine.cohort selected
  if cohort.length < 3 then none
  else explain (engine.freshTransaction selected)
    ((evenlySampleRefs cohort maxRcaCohortSamples).map engine.freshTransaction)

def KeysDistinct (engine : AnalysisEngine) : Prop :=
  ∀ first ∈ engine.completed, ∀ second ∈ engine.completed,
    requestCacheKey first = requestCacheKey second → first = second

end AnalysisEngine

theorem mem_of_mem_evenlySampleRefs {Value : Type} {values : List Value} {limit : Nat}
    {value : Value} (sampled : value ∈ evenlySampleRefs values limit) : value ∈ values := by
  unfold evenlySampleRefs at sampled
  split at sampled
  · exact sampled
  · obtain ⟨index, -, found⟩ := mem_filterMap.mp sampled
    exact mem_of_getElem? found

namespace QueriedEngine

variable {state : QueriedEngine}

theorem CachesRight.mono {requests more : List CompletedIo} (right : state.CachesRight requests)
    (subset : requests ⊆ more) : state.CachesRight more :=
  ⟨right.index, right.transactions.mono fun _ _ view => view.mono subset,
    right.pipelines.mono fun _ _ view => view.mono subset⟩

/-- The engine is this one, and its caches hold right views of retained requests. -/
structure Serves (engine : AnalysisEngine) (state : QueriedEngine) : Prop where
  sameEngine : state.engine = engine
  caches : state.CachesRight engine.completed

variable {engine : AnalysisEngine}

theorem Serves.transactionFor (distinct : engine.KeysDistinct) (serves : state.Serves engine)
    {io : CompletedIo} (retained : io ∈ engine.completed) :
    (state.transactionFor io).1.Serves engine ∧
      (state.transactionFor io).2 = engine.freshTransaction io := by
  have present : io ∈ state.engine.completed := by
    rw [serves.sameEngine]
    exact retained
  have within : engine.completed ++ [io] ⊆ engine.completed := by
    intro other member
    rcases mem_append.mp member with old | same
    · exact old
    · exact mem_singleton.mp same ▸ retained
  refine ⟨⟨(engine_transactionFor state io).trans serves.sameEngine,
    (serves.caches.transactionFor io).mono within⟩, ?_⟩
  rw [(serves.caches.views present fun other member same =>
    distinct other member io retained same).1, serves.sameEngine]

theorem Serves.transactionsFor (distinct : engine.KeysDistinct) {requests : List CompletedIo}
    (retained : ∀ io ∈ requests, io ∈ engine.completed) (serves : state.Serves engine) :
    (state.transactionsFor requests).1.Serves engine ∧
      (state.transactionsFor requests).2 = requests.map engine.freshTransaction := by
  induction requests generalizing state with
  | nil => exact ⟨serves, rfl⟩
  | cons io rest hypothesis =>
    obtain ⟨after, own⟩ := serves.transactionFor distinct (retained io mem_cons_self)
    obtain ⟨last, others⟩ := hypothesis
      (fun other member => retained other (mem_cons_of_mem _ member)) after
    refine ⟨last, ?_⟩
    rw [map_cons, ← own, ← others]
    rfl

theorem Serves.whySlow (distinct : engine.KeysDistinct) (serves : state.Serves engine)
    {selected : CompletedIo} (retained : selected ∈ engine.completed) :
    (state.whySlow selected).1.Serves engine ∧
      (state.whySlow selected).2 = engine.freshReason selected := by
  obtain ⟨after, own⟩ := serves.transactionFor distinct retained
  unfold QueriedEngine.whySlow AnalysisEngine.freshReason
  rw [serves.sameEngine]
  dsimp only
  split
  · exact ⟨after, rfl⟩
  · have sampled : ∀ io ∈ evenlySampleRefs (engine.cohort selected) maxRcaCohortSamples,
        io ∈ engine.completed := fun io member =>
      mem_of_mem_filter (mem_of_mem_evenlySampleRefs member)
    obtain ⟨last, others⟩ := after.transactionsFor distinct sampled
    refine ⟨last, ?_⟩
    rw [own, others]

theorem slowReasonCache_transactionFor (state : QueriedEngine) (io : CompletedIo) :
    (state.transactionFor io).1.slowReasonCache = state.slowReasonCache := by
  unfold transactionFor
  split <;> rfl

theorem slowReasonCache_transactionsFor (state : QueriedEngine) (requests : List CompletedIo) :
    (state.transactionsFor requests).1.slowReasonCache = state.slowReasonCache := by
  induction requests generalizing state with
  | nil => rfl
  | cons io rest hypothesis =>
    exact (hypothesis _).trans (slowReasonCache_transactionFor state io)

theorem slowReasonCache_whySlow (state : QueriedEngine) (selected : CompletedIo) :
    (state.whySlow selected).1.slowReasonCache = state.slowReasonCache := by
  unfold whySlow
  dsimp only
  split
  · exact slowReasonCache_transactionFor state selected
  · exact (slowReasonCache_transactionsFor _ _).trans
      (slowReasonCache_transactionFor state selected)

structure Explains (engine : AnalysisEngine) (selections : List CompletedIo)
    (state : QueriedEngine) : Prop where
  serves : state.Serves engine
  reasons : Sound (fun requestId reason => ∃ io ∈ selections,
    io.issue.requestId = requestId ∧ reason = engine.freshReason io) state.slowReasonCache

theorem Explains.cachedWhySlow (distinct : engine.KeysDistinct) {selections : List CompletedIo}
    (explains : state.Explains engine selections) {selected : CompletedIo}
    (retained : selected ∈ engine.completed) :
    (state.cachedWhySlow selected).1.Explains engine (selections ++ [selected]) := by
  obtain ⟨after, reason⟩ := explains.serves.whySlow distinct retained
  have old : Sound (fun requestId reason => ∃ io ∈ selections ++ [selected],
      io.issue.requestId = requestId ∧ reason = engine.freshReason io)
      state.slowReasonCache := explains.reasons.mono fun requestId reason right => by
    obtain ⟨io, member, same, correct⟩ := right
    exact ⟨io, mem_append_left _ member, same, correct⟩
  unfold QueriedEngine.cachedWhySlow
  split
  · exact ⟨explains.serves, old⟩
  · refine ⟨⟨after.sameEngine, after.caches.index, after.caches.transactions,
      after.caches.pipelines⟩, ?_⟩
    dsimp only
    rw [slowReasonCache_whySlow]
    exact old.insert ⟨selected, mem_concat_self, rfl, reason⟩

/-- A selection is a retained request, and no other request of its id was selected before. -/
def SelectsApart (engine : AnalysisEngine) (history : List CompletedIo) (io : CompletedIo) :
    Prop :=
  io ∈ engine.completed ∧ ∀ earlier ∈ history,
    earlier.issue.requestId = io.issue.requestId → earlier = io

def select (engine : AnalysisEngine) (selections : List CompletedIo) : QueriedEngine :=
  run (fun state io => (state.cachedWhySlow io).1) { engine := engine } selections

theorem explains_select (distinct : engine.KeysDistinct) (selections : List CompletedIo)
    (meets : StepsMeet (SelectsApart engine) selections) :
    (select engine selections).Explains engine selections := by
  refine run_induction_of_stepsMeet (fun history (state : QueriedEngine) =>
    state.Explains engine history) ⟨⟨rfl, cachesRight_empty _ _⟩, Sound.empty⟩
    (fun history io condition explains => ?_) selections meets
  exact explains.cachedWhySlow distinct condition.1

section Runs

variable (retainAll : Bool) (correlationTtlNs : U64) (ttlPositive : 0 < correlationTtlNs)
  (completionWindow : Option (U64 × U64))

/-- If the retained requests have different keys and selections with one id are the same
request, every selection gets the explanation that an evaluation gives, on the caches as they
are then and on empty ones. -/
theorem explanations_agree (events : List StorageEvent) :
    let engine := run AnalysisEngine.step (.freshRetaining retainAll correlationTtlNs ttlPositive
      completionWindow) events
    engine.KeysDistinct → ∀ selections io,
      StepsMeet (SelectsApart engine) (selections ++ [io]) →
      ((select engine selections).cachedWhySlow io).2 =
          ((select engine selections).whySlow io).2 ∧
        ((select engine selections).cachedWhySlow io).2 =
          (({ engine := engine } : QueriedEngine).whySlow io).2 := by
  intro engine distinct selections io meets
  have explains := explains_select distinct selections meets.of_append
  obtain ⟨retained, apart⟩ := meets.last
  have initial : ({ engine := engine } : QueriedEngine).Serves engine :=
    ⟨rfl, cachesRight_empty _ _⟩
  rw [(explains.serves.whySlow distinct retained).2, (initial.whySlow distinct retained).2,
    and_self]
  unfold cachedWhySlow
  split
  · rename_i remembered
    obtain ⟨earlier, member, same, correct⟩ := explains.reasons _ _ remembered
    rw [← apart earlier member same]
    exact correct
  · exact (explains.serves.whySlow distinct retained).2

end Runs

def quickReads : List StorageEvent :=
  [.blockIssue (readIssue 0 1), .blockComplete (readComplete 10 1),
    .blockIssue (readIssue 20 2), .blockComplete (readComplete 30 2),
    .blockIssue (readIssue 40 3), .blockComplete (readComplete 50 3)]

def reusedId : List StorageEvent :=
  [.blockIssue (readIssue 60 7), .blockComplete (readComplete 70 7),
    .blockIssue (readIssue 80 7), .blockComplete (readComplete 180 7)]

theorem explanations_agree_again :
    let engine := run AnalysisEngine.step (.freshRetaining false 30_000_000_000 (by decide) none)
      (quickReads ++ reusedId)
    (∃ io ∈ engine.completed, (({ engine := engine } : QueriedEngine).whySlow io).2.isSome) ∧
      ∀ io ∈ engine.completed, ((select engine [io]).cachedWhySlow io).2 =
        ((select engine [io]).whySlow io).2 := by
  refine ⟨by decide +kernel, fun io retained => ?_⟩
  have distinct : (run step
      (.freshRetaining false 30_000_000_000 (by decide) none)
      (quickReads ++ reusedId)).KeysDistinct := by
    unfold KeysDistinct
    decide +kernel
  refine (explanations_agree false 30_000_000_000 (by decide) none _ distinct [io] io ?_).1
  refine StepsMeet.snoc (StepsMeet.snoc (stepsMeet_nil _) ⟨retained, ?_⟩) ⟨retained, ?_⟩
  · exact fun _ earlier => nomatch earlier
  · exact fun earlier member _ => mem_singleton.mp member

/-- Once the quick read of a reused id was selected, the slow one is not explained. -/
theorem explanation_of_other_lifetime :
    let engine := run AnalysisEngine.step .new (quickReads ++ reusedId)
    ∃ quick ∈ engine.completed, ∃ slow ∈ engine.completed,
      ((select engine [quick]).cachedWhySlow slow).2 = none ∧
        (((select engine [quick]).whySlow slow).2.map fun reason => reason.deltaNs) = some 90 := by
  decide +kernel

end QueriedEngine

end EbpfStudio
