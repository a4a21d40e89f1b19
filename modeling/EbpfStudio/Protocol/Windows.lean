/-
This file settles when the evidence windows of two lifetimes of one request id overlap.

A window starts after the last completion of the same id that is remembered, if that is later than
its usual start. With room for all completions each one is remembered, and if they come in order the
windows of one id follow each other and share at most the largest timestamp.
-/

import EbpfStudio.Protocol.Retention

namespace EbpfStudio

open Run List Option

namespace AnalysisEngine

def isCompletion : StorageEvent → Bool
  | .blockComplete _ => true
  | .observedBlockCompletion _ => true
  | _ => false

def CompletionsOrdered (events : List StorageEvent) : Prop :=
  events.Pairwise fun first second => ∀ earlier later, first = .blockComplete earlier →
    second = .blockComplete later → earlier.requestId = later.requestId →
    earlier.tsNs ≤ later.tsNs

/-- The requests that block completions have added to the retained ones, in order. -/
def lifetimes (start : AnalysisEngine) (events : List StorageEvent) : List CompletedIo :=
  collect step accepted start events

variable (correlationTtlNs : U64) (ttlPositive : 0 < correlationTtlNs)

variable (completionWindow : Option (U64 × U64))

variable (events : List StorageEvent)

theorem keyed_run :
    (run step (fresh correlationTtlNs ttlPositive completionWindow) events).correlator.Keyed := by
  refine run_induction (fun _ (engine : AnalysisEngine) => engine.correlator.Keyed)
    (fun key request found => ?_) (fun history event keyed => ?_) events
  · cases found
  · rw [correlator_step]
    cases event with
    | blockInsert insert => exact keyed.onInsert insert
    | blockIssue issue => exact keyed.onIssueClassified issue _
    | blockComplete completion => exact keyed.onComplete completion
    | _ => exact keyed

variable {engine : AnalysisEngine} {event : StorageEvent} {io : CompletedIo}

theorem answered_eq_some (keyed : engine.correlator.Keyed)
    (answered : engine.answered event = some io) :
    event = .blockComplete io.completion ∧ io.issue.requestId = io.completion.requestId := by
  cases event with
  | blockComplete completion =>
    obtain ⟨-, -, -, -, -, same, -⟩ := RequestCorrelator.onComplete_eq_some answered
    rw [same]
    exact ⟨rfl, keyed.requestId_of_onComplete answered⟩
  | _ => cases answered

def RemembersHistory (history : List StorageEvent) (engine : AnalysisEngine) : Prop :=
  ∀ requestId last, engine.lastRequestCompletion.lookup requestId = some last →
    ∃ completion, StorageEvent.blockComplete completion ∈ history ∧
      completion.requestId = requestId ∧ completion.tsNs = last

theorem lookup_lastRequestCompletion (answered : engine.answered event = some io)
    (requestId : U64) :
    (engine.step event).lastRequestCompletion.lookup requestId =
      if requestId = io.issue.requestId then some io.completion.tsNs
      else engine.lastRequestCompletion.lookup requestId := by
  rw [lastRequestCompletion_step, lastRequestCompletionAfter, answered]
  exact Table.lookup_insert_eq _ _ _ _

theorem lastRequestCompletion_of_unanswered (unanswered : engine.answered event = none) :
    (engine.step event).lastRequestCompletion = engine.lastRequestCompletion := by
  rw [lastRequestCompletion_step, lastRequestCompletionAfter, unanswered]
  rfl

variable {history : List StorageEvent}

theorem remembersHistory_step (keyed : engine.correlator.Keyed) (event : StorageEvent)
    (remembers : RemembersHistory history engine) :
    RemembersHistory (history ++ [event]) (engine.step event) := by
  intro requestId last found
  have older : engine.lastRequestCompletion.lookup requestId = some last →
      ∃ completion, StorageEvent.blockComplete completion ∈ history ++ [event] ∧
        completion.requestId = requestId ∧ completion.tsNs = last := by
    intro known
    obtain ⟨completion, member, rest⟩ := remembers requestId last known
    exact ⟨completion, mem_append_left _ member, rest⟩
  cases answered : engine.answered event with
  | none =>
    rw [lastRequestCompletion_of_unanswered answered] at found
    exact older found
  | some io =>
    rw [lookup_lastRequestCompletion answered] at found
    split at found
    · rename_i same
      cases found
      obtain ⟨event, sameId⟩ := answered_eq_some keyed answered
      refine ⟨io.completion, ?_, ?_, rfl⟩
      · rw [event]
        exact mem_concat_self
      · rw [same, sameId]
    · exact older found

theorem length_completed_step (engine : AnalysisEngine) (event : StorageEvent) :
    (engine.step event).completed.length ≤
      engine.completed.length + if isCompletion event then 1 else 0 := by
  rw [completed_step]
  refine le_trans (length_pushSome_le _ _ _) (Nat.add_le_add_left ?_ _)
  cases event with
  | blockComplete completion => exact length_toList_le
  | observedBlockCompletion completed => exact length_toList_le
  | _ => exact le_rfl

theorem length_completed_run :
    (run step (fresh correlationTtlNs ttlPositive completionWindow) events).completed.length ≤
      events.countP isCompletion := by
  refine run_induction (fun history (engine : AnalysisEngine) =>
    engine.completed.length ≤ history.countP isCompletion) le_rfl
    (fun history event within => ?_) events
  refine le_trans (length_completed_step _ event) ?_
  rw [countP_append, countP_singleton]
  exact Nat.add_le_add_right within _

theorem lookup_evidenceWindows (accepted : engine.accepted event = some io)
    (room : engine.completed.length < maxAnalysisSamples) (key : RequestCacheKey) :
    (engine.step event).evidenceWindows.lookup key =
      if key = requestCacheKey io then some (evidenceWindow
        (engine.lastRequestCompletion.lookup io.issue.requestId) io)
      else engine.evidenceWindows.lookup key := by
  rw [evidenceWindows_step, evidenceWindowsAfter, accepted, elim_some, retainWindow,
    if_neg (by simp [ne_of_lt room])]
  exact Table.lookup_insert_eq _ _ _ _

theorem evidenceWindows_of_rejected (rejected : engine.accepted event = none) :
    (engine.step event).evidenceWindows = engine.evidenceWindows := by
  rw [evidenceWindows_step, evidenceWindowsAfter, rejected]
  rfl

theorem evidenceTimeMatches_iff {low high : U64}
    (stored : engine.evidenceWindows.lookup (requestCacheKey io) = some (low, high)) (ts : U64) :
    engine.evidenceTimeMatches io ts = true ↔ low ≤ ts ∧ ts ≤ high := by
  unfold evidenceTimeMatches
  rw [stored]
  simp

/-- Two requests of one id share no instant of evidence before the largest timestamp. -/
def WindowsDisjoint (engine : AnalysisEngine) (first second : CompletedIo) : Prop :=
  first.issue.requestId = second.issue.requestId → ∀ ts, ts < Word.maximum 64 →
    ¬ (engine.evidenceTimeMatches first ts = true ∧ engine.evidenceTimeMatches second ts = true)

structure WindowsApart (retained : List CompletedIo) (engine : AnalysisEngine) : Prop where
  stored : ∀ io ∈ retained, ∃ low,
    engine.evidenceWindows.lookup (requestCacheKey io) = some (low, io.completion.tsNs)
  finished : ∀ io ∈ retained, ∃ last,
    engine.lastRequestCompletion.lookup io.issue.requestId = some last ∧
      io.completion.tsNs ≤ last
  apart : retained.Pairwise engine.WindowsDisjoint

theorem after_previous {last ts : U64} (below : ts < Word.maximum 64)
    (inside : (evidenceWindow (some last) io).1 ≤ ts) : last < ts := by
  have start : last.saturatingAdd 1 ≤ ts := le_trans (le_max_right _ _) inside
  rw [Fin.le_def, Word.saturatingAdd_val] at start
  rw [Fin.lt_def] at below ⊢
  have largest : (Word.maximum 64).val = 2 ^ 64 - 1 := rfl
  omega

theorem windowsDisjoint_congr {engine next : AnalysisEngine}
    (same : next.evidenceWindows = engine.evidenceWindows) :
    next.WindowsDisjoint = engine.WindowsDisjoint := by
  funext first second
  unfold WindowsDisjoint evidenceTimeMatches
  rw [same]

variable {retained : List CompletedIo}

section

variable {event : StorageEvent} (apart : WindowsApart retained engine)
  (later : ∀ io last, engine.answered event = some io →
      engine.lastRequestCompletion.lookup io.issue.requestId = some last →
      last ≤ io.completion.tsNs)

include apart later

theorem WindowsApart.finished_step :
    ∀ io ∈ retained, ∃ last,
      (engine.step event).lastRequestCompletion.lookup io.issue.requestId = some last ∧
        io.completion.tsNs ≤ last := by
  intro old member
  obtain ⟨last, known, before⟩ := apart.finished old member
  cases answered : engine.answered event with
  | none =>
    rw [lastRequestCompletion_of_unanswered answered]
    exact ⟨last, known, before⟩
  | some io =>
    rw [lookup_lastRequestCompletion answered]
    by_cases same : old.issue.requestId = io.issue.requestId
    · rw [if_pos same]
      rw [same] at known
      exact ⟨io.completion.tsNs, rfl, le_trans before (later io last answered known)⟩
    · rw [if_neg same]
      exact ⟨last, known, before⟩

theorem WindowsApart.reject (rejected : engine.accepted event = none) :
    WindowsApart retained (engine.step event) where
  stored := by
    rw [evidenceWindows_of_rejected rejected]
    exact apart.stored
  finished := apart.finished_step later
  apart := by
    rw [windowsDisjoint_congr (evidenceWindows_of_rejected rejected)]
    exact apart.apart

end

section Accept

variable {retained : List CompletedIo} {engine : AnalysisEngine} {event : StorageEvent}
  {io old : CompletedIo}

theorem lookup_evidenceWindows_self (accepted : engine.accepted event = some io)
    (room : engine.completed.length < maxAnalysisSamples) :
    (engine.step event).evidenceWindows.lookup (requestCacheKey io) =
      some (evidenceWindow (engine.lastRequestCompletion.lookup io.issue.requestId) io) :=
  (lookup_evidenceWindows accepted room (requestCacheKey io)).trans (if_pos rfl)

variable {ts : U64}

theorem WindowsApart.after_retained (apart : WindowsApart retained engine)
    (accepted : engine.accepted event = some io)
    (room : engine.completed.length < maxAnalysisSamples) (member : old ∈ retained)
    (sameId : old.issue.requestId = io.issue.requestId) (below : ts < Word.maximum 64)
    (inside : (engine.step event).evidenceTimeMatches io ts = true) : old.completion.tsNs < ts := by
  obtain ⟨last, known, before⟩ := apart.finished old member
  have own := lookup_evidenceWindows_self accepted room
  rw [← sameId, known] at own
  have after := ((evidenceTimeMatches_iff own ts).mp inside).1
  exact lt_of_le_of_lt before (after_previous below after)

theorem before_completion (accepted : engine.accepted event = some io)
    (room : engine.completed.length < maxAnalysisSamples)
    (inside : (engine.step event).evidenceTimeMatches io ts = true) : ts ≤ io.completion.tsNs := by
  have own := lookup_evidenceWindows_self accepted room
  exact ((evidenceTimeMatches_iff own ts).mp inside).2

theorem evidenceTimeMatches_of_ne (accepted : engine.accepted event = some io)
    (room : engine.completed.length < maxAnalysisSamples)
    (different : requestCacheKey old ≠ requestCacheKey io) (ts : U64) :
    (engine.step event).evidenceTimeMatches old ts = engine.evidenceTimeMatches old ts := by
  unfold evidenceTimeMatches
  rw [lookup_evidenceWindows accepted room, if_neg different]

section

variable (apart : WindowsApart retained engine) (accepted : engine.accepted event = some io)
  (room : engine.completed.length < maxAnalysisSamples)

include apart accepted room

theorem WindowsApart.replaced (member : old ∈ retained)
    (sameKey : requestCacheKey old = requestCacheKey io) (below : ts < Word.maximum 64) :
    ¬ (engine.step event).evidenceTimeMatches old ts = true := by
  intro inside
  have sameId : old.issue.requestId = io.issue.requestId :=
    congrArg (fun key : RequestCacheKey => key.1) sameKey
  have sameEnd : old.completion.tsNs = io.completion.tsNs :=
    congrArg (fun key : RequestCacheKey => key.2.2) sameKey
  have own := lookup_evidenceWindows_self accepted room
  have shared : (engine.step event).evidenceTimeMatches io ts = true := by
    refine (evidenceTimeMatches_iff own ts).mpr ?_
    rw [← sameKey] at own
    exact (evidenceTimeMatches_iff own ts).mp inside
  have after := apart.after_retained accepted room member sameId below shared
  rw [sameEnd] at after
  exact absurd after (not_lt.mpr (before_completion accepted room shared))

theorem WindowsApart.stored_step (member : old ∈ retained ++ [io]) :
    ∃ low, (engine.step event).evidenceWindows.lookup (requestCacheKey old) =
      some (low, old.completion.tsNs) := by
  rw [lookup_evidenceWindows accepted room]
  by_cases sameKey : requestCacheKey old = requestCacheKey io
  · have sameEnd : old.completion.tsNs = io.completion.tsNs :=
      congrArg (fun key : RequestCacheKey => key.2.2) sameKey
    rw [if_pos sameKey, sameEnd]
    exact ⟨_, rfl⟩
  · rw [if_neg sameKey]
    rcases mem_append.mp member with earlier | newest
    · exact apart.stored old earlier
    · exact absurd (congrArg requestCacheKey (mem_singleton.mp newest)) sameKey

end

theorem WindowsApart.accept (apart : WindowsApart retained engine)
    (later : ∀ io last, engine.answered event = some io →
      engine.lastRequestCompletion.lookup io.issue.requestId = some last →
      last ≤ io.completion.tsNs)
    (answered : engine.answered event = some io) (accepted : engine.accepted event = some io)
    (room : engine.completed.length < maxAnalysisSamples) :
    WindowsApart (retained ++ [io]) (engine.step event) := by
  refine ⟨fun old member => apart.stored_step accepted room member, ?_, ?_⟩
  · refine forall_mem_snoc (apart.finished_step later) ?_
    rw [lookup_lastRequestCompletion answered, if_pos rfl]
    exact ⟨_, rfl, le_rfl⟩
  · refine pairwise_append.mpr ⟨?_, pairwise_singleton _ _, ?_⟩
    · refine apart.apart.imp_of_mem fun {first second} firstMember secondMember disjoint sameId
        ts below both => ?_
      by_cases firstKey : requestCacheKey first = requestCacheKey io
      · exact apart.replaced accepted room firstMember firstKey below both.1
      · by_cases secondKey : requestCacheKey second = requestCacheKey io
        · exact apart.replaced accepted room secondMember secondKey below both.2
        · rw [evidenceTimeMatches_of_ne accepted room firstKey,
            evidenceTimeMatches_of_ne accepted room secondKey] at both
          exact disjoint sameId ts below both
    · intro old member newest listed sameId ts below both
      rw [mem_singleton.mp listed] at sameId both
      by_cases sameKey : requestCacheKey old = requestCacheKey io
      · exact apart.replaced accepted room member sameKey below both.1
      · have after := apart.after_retained accepted room member sameId below both.2
        obtain ⟨low, stored⟩ := apart.stored old member
        rw [evidenceTimeMatches_of_ne accepted room sameKey,
          evidenceTimeMatches_iff stored] at both
        exact absurd after (not_lt.mpr both.1.2)

end Accept

theorem CompletionsOrdered.of_append {history rest : List StorageEvent}
    (ordered : CompletionsOrdered (history ++ rest)) : CompletionsOrdered history :=
  (pairwise_append.mp ordered).1

theorem CompletionsOrdered.later (ordered : CompletionsOrdered (history ++ [event]))
    (keyed : engine.correlator.Keyed) (remembers : RemembersHistory history engine)
    (io : CompletedIo) (last : U64) (answered : engine.answered event = some io)
    (known : engine.lastRequestCompletion.lookup io.issue.requestId = some last) :
    last ≤ io.completion.tsNs := by
  obtain ⟨completion, member, sameId, rfl⟩ := remembers _ _ known
  obtain ⟨same, ownId⟩ := answered_eq_some keyed answered
  exact (pairwise_append.mp ordered).2.2 _ member event (mem_singleton_self _)
    completion io.completion rfl same (sameId.trans ownId)

theorem remembersHistory_run :
    RemembersHistory events
      (run step (fresh correlationTtlNs ttlPositive completionWindow) events) := by
  refine run_induction RemembersHistory (fun _ _ found => ?_)
    (fun history event remembers => ?_) events
  · cases found
  · exact remembersHistory_step (keyed_run correlationTtlNs ttlPositive completionWindow history)
      event remembers

theorem accepted_eq_some (accepted : engine.accepted event = some io) :
    engine.answered event = some io ∧ engine.kept event = some io := by
  refine ⟨(filter_eq_some_iff.mp accepted).1, ?_⟩
  unfold kept
  rw [accepted]
  rfl

theorem completed_of_room (event : StorageEvent)
    (room : engine.completed.length < maxAnalysisSamples) :
    (engine.step event).completed = engine.completed ++ (engine.kept event).toList := by
  rw [completed_step]
  exact pushSome_of_room _ _ room

/-- With fewer completions than the bound, which arrive in order for every request id, the
requests that block completions have added are all still retained, and no two of them with the
same id share an instant of evidence before the largest timestamp. -/
theorem lifetimes_share_no_evidence (correlationTtlNs : U64) (ttlPositive : 0 < correlationTtlNs)
    (completionWindow : Option (U64 × U64)) (events : List StorageEvent)
    (few : events.countP isCompletion < maxAnalysisSamples)
    (ordered : CompletionsOrdered events) :
    let start := fresh correlationTtlNs ttlPositive completionWindow
    (lifetimes start events).Sublist (run step start events).completed ∧
      (lifetimes start events).Pairwise (run step start events).WindowsDisjoint := by
  intro start
  have known : events.countP isCompletion < maxAnalysisSamples → CompletionsOrdered events →
      (lifetimes start events).Sublist (run step start events).completed ∧
        WindowsApart (lifetimes start events) (run step start events) := by
    refine run_induction (fun history (engine : AnalysisEngine) =>
      history.countP isCompletion < maxAnalysisSamples → CompletionsOrdered history →
        (lifetimes start history).Sublist engine.completed ∧
          WindowsApart (lifetimes start history) engine) (fun _ _ => ?_)
      (fun history event invariant few ordered => ?_) events
    · refine ⟨List.Sublist.refl _, fun io member => ?_, fun io member => ?_, List.Pairwise.nil⟩
      · cases member
      · cases member
    · rw [countP_append] at few
      obtain ⟨retained, apart⟩ := invariant (by omega) ordered.of_append
      have room : (run step start history).completed.length < maxAnalysisSamples :=
        lt_of_le_of_lt (length_completed_run correlationTtlNs ttlPositive completionWindow history)
          (by omega)
      have later := ordered.later
        (keyed_run correlationTtlNs ttlPositive completionWindow history)
        (remembersHistory_run correlationTtlNs ttlPositive completionWindow history)
      unfold lifetimes
      rw [collect_snoc, completed_of_room event room]
      cases accepted : (run step start history).accepted event with
      | none =>
        rw [toList_none, append_nil]
        exact ⟨retained.trans (sublist_append_left _ _), apart.reject later accepted⟩
      | some io =>
        obtain ⟨answered, kept⟩ := accepted_eq_some accepted
        rw [kept]
        exact ⟨retained.append (List.Sublist.refl _), apart.accept later answered accepted room⟩
  exact ⟨(known few ordered).1, (known few ordered).2.apart⟩

theorem lifetimes_share_no_evidence_reused :
    let events := [StorageEvent.blockIssue (readIssue 1 7), .blockComplete (readComplete 2 7),
      .blockIssue (readIssue 5 7), .blockComplete (readComplete 9 7)]
    let start := fresh 30_000_000_000 (by decide) none
    (lifetimes start events).length = 2 ∧
      (lifetimes start events).Sublist (run step start events).completed ∧
      (lifetimes start events).Pairwise (run step start events).WindowsDisjoint := by
  refine ⟨rfl, lifetimes_share_no_evidence 30_000_000_000 (by decide) none _ (by decide) ?_⟩
  simp [CompletionsOrdered, readComplete]

/-- Two requests that complete at the largest timestamp share it. -/
theorem lifetimes_share_largest_timestamp :
    let last := Word.maximum 64
    let events := [StorageEvent.blockIssue (readIssue last 7), .blockComplete (readComplete last 7),
      .blockIssue (readIssue last 7), .blockComplete (readComplete last 7)]
    events.countP isCompletion < maxAnalysisSamples ∧ CompletionsOrdered events ∧
      ¬ (lifetimes new events).Pairwise fun first second =>
        first.issue.requestId = second.issue.requestId → ∀ ts,
          ¬ ((run step new events).evidenceTimeMatches first ts = true ∧
            (run step new events).evidenceTimeMatches second ts = true) := by
  intro last events
  refine ⟨by decide, ?_, fun apart => ?_⟩
  · simp [CompletionsOrdered, events, readComplete]
  · have shared : (lifetimes new events).Pairwise fun first second =>
        first.issue.requestId = second.issue.requestId →
          ¬ ((run step new events).evidenceTimeMatches first last = true ∧
            (run step new events).evidenceTimeMatches second last = true) :=
      apart.imp fun disjoint same => disjoint same last
    revert shared
    decide +kernel

end AnalysisEngine

end EbpfStudio
