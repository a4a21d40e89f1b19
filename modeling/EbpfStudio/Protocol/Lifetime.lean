/-
This file settles when the correlator keeps completions inside one request lifetime.

A pending request is that of the last issue of its key, with no completion since
(`PendingIsLatest`). Every call keeps this as long as completions meet clean keys. A completion of
an ambiguous key removes the mark but leaves the request pending, and then the next one is answered
by an issue that is used up.
-/

import EbpfStudio.Library.Run
import EbpfStudio.Protocol.Correlator

namespace EbpfStudio

open Run

/-- A call on the correlator. `on_issue` is the issue call with an unknown pattern. -/
inductive CorrelatorCall where
  | insert (insert : BlockInsert)
  | issue (issue : BlockIssue) (accessPattern : AccessPattern)
  | complete (completion : BlockComplete)
  deriving DecidableEq

namespace CorrelatorCall

def touches (key : RequestKey) : CorrelatorCall → Bool
  | .insert _ => false
  | .issue value _ => RequestKey.issue value = key
  | .complete value => RequestKey.complete value = key

end CorrelatorCall

namespace RequestCorrelator

def step (correlator : RequestCorrelator) : CorrelatorCall → RequestCorrelator
  | .insert insert => correlator.onInsert insert
  | .issue issue accessPattern => (correlator.onIssueClassified issue accessPattern).1
  | .complete completion => (correlator.onComplete completion).1

/-- The completed request answers its completion from the most recent issue of the key: the
history ends with that issue and calls that are neither an issue nor a completion of the key. -/
def AnswersLatestIssue (history : List CorrelatorCall) (completion : BlockComplete)
    (io : CompletedIo) : Prop :=
  ∃ before accessPattern after,
    history = before ++ .issue io.issue accessPattern :: after ∧
    RequestKey.issue io.issue = RequestKey.complete completion ∧
    ∀ call ∈ after, call.touches (RequestKey.complete completion) = false

theorem answersLatestIssue_iff (history : List CorrelatorCall) (completion : BlockComplete)
    (io : CompletedIo) :
    AnswersLatestIssue history completion io ↔
      ∃ accessPattern, lastMatch (CorrelatorCall.touches (RequestKey.complete completion))
        history = some (.issue io.issue accessPattern) := by
  constructor
  · rintro ⟨before, accessPattern, after, split, sameKey, quiet⟩
    exact ⟨accessPattern, lastMatch_eq_some_iff.mpr
      ⟨before, after, split, decide_eq_true sameKey, quiet⟩⟩
  · rintro ⟨accessPattern, last⟩
    obtain ⟨before, after, split, sameKey, quiet⟩ := lastMatch_eq_some_iff.mp last
    exact ⟨before, accessPattern, after, split, of_decide_eq_true sameKey, quiet⟩

/-- A completion meets a clean key when its key is not both pending and ambiguous once the call
has expired what is too old. -/
def MeetsCleanKey (correlator : RequestCorrelator) : CorrelatorCall → Prop
  | .complete completion =>
    (correlator.expireBefore completion.tsNs).ambiguous.containsKey
        (RequestKey.complete completion) = true →
      (correlator.expireBefore completion.tsNs).pending.lookup
        (RequestKey.complete completion) = none
  | _ => True

def PendingIsLatest (key : RequestKey) (history : List CorrelatorCall)
    (correlator : RequestCorrelator) : Prop :=
  ∀ request, correlator.pending.lookup key = some request →
    ∃ accessPattern, lastMatch (CorrelatorCall.touches key) history =
      some (.issue request.issue accessPattern)

variable {history : List CorrelatorCall} {key : RequestKey}

theorem lastMatch_touches_of_not {call : CorrelatorCall}
    (untouched : call.touches key = false) :
    lastMatch (CorrelatorCall.touches key) (history ++ [call]) =
      lastMatch (CorrelatorCall.touches key) history := by
  rw [lastMatch_snoc, untouched]
  rfl

theorem pendingIsLatest_step {correlator : RequestCorrelator} {call : CorrelatorCall}
    (clean : call.touches key = true → correlator.MeetsCleanKey call)
    (latest : PendingIsLatest key history correlator) :
    PendingIsLatest key (history ++ [call]) (correlator.step call) := by
  intro request found
  cases call with
  | insert insert =>
    rw [step, onInsert_pending] at found
    rw [lastMatch_touches_of_not rfl]
    exact latest request (pending_of_expireBefore found)
  | issue issue accessPattern =>
    rcases pending_of_onIssueClassified found with ⟨sameKey, sameIssue⟩ | ⟨other, older⟩
    · refine ⟨accessPattern, ?_⟩
      rw [lastMatch_snoc, CorrelatorCall.touches, if_pos (decide_eq_true sameKey.symm),
        sameIssue]
    · have untouched : CorrelatorCall.touches key (.issue issue accessPattern) = false :=
        decide_eq_false (Ne.symm other)
      rw [lastMatch_touches_of_not untouched]
      exact latest request older
  | complete completion =>
    obtain ⟨kept, marked⟩ := pending_of_onComplete found
    by_cases same : key = RequestKey.complete completion
    · have absent := clean (decide_eq_true same.symm) (same ▸ marked same)
      rw [← same, kept] at absent
      cases absent
    · have untouched : CorrelatorCall.touches key (.complete completion) = false :=
        decide_eq_false (Ne.symm same)
      rw [lastMatch_touches_of_not untouched]
      exact latest request (pending_of_expireBefore kept)

/-- In every run of a fresh correlator, an answered completion is answered by the most recent issue
of its key, with no other issue or completion of the key in between, if the earlier completions of
this key met it clean. -/
theorem onComplete_answersLatestIssue (ttlNs : U64) (ttlPositive : 0 < ttlNs)
    (history : List CorrelatorCall) (completion : BlockComplete) (io : CompletedIo)
    (clean : StepsMeet (fun earlier call => call.touches (RequestKey.complete completion) = true →
      (run step (new ttlNs ttlPositive) earlier).MeetsCleanKey call) history)
    (answered : ((run step (new ttlNs ttlPositive) history).onComplete completion).2 = some io) :
    AnswersLatestIssue history completion io := by
  have latest : PendingIsLatest (RequestKey.complete completion) history
      (run step (new ttlNs ttlPositive) history) := by
    refine run_induction_of_stepsMeet (PendingIsLatest _) (fun request found => ?_)
      (fun earlier call meets kept => pendingIsLatest_step meets kept) history clean
    cases found
  obtain ⟨request, found, _, sameIssue, _⟩ := onComplete_eq_some answered
  obtain ⟨accessPattern, last⟩ := latest request (pending_of_expireBefore found)
  rw [answersLatestIssue_iff, sameIssue]
  exact ⟨accessPattern, last⟩

/-- The law at the run of the duplicate-free case: an insert, its issue and its completion. -/
theorem onComplete_answersLatestIssue_single :
    AnswersLatestIssue [.insert (readInsert 1 7), .issue (readIssue 2 7) .unknown]
      (readComplete 3 7)
      { insert := some (readInsert 1 7)
        issue := readIssue 2 7
        completion := readComplete 3 7
        latencyNs := some 1
        queueLatencyNs := some 1
        deviceLatencyNs := some 1
        totalLatencyNs := some 2
        queueDepthAtIssue := some 1
        queueDepthAfter := some 0
        detailTiming := ⟨some 1, none, none, none, none⟩
        accessPattern := .unknown
        sizeClass := .small
        evidence := none } := by
  refine onComplete_answersLatestIssue 30 (by decide) _ _ _ ?_ (by decide +kernel)
  intro history call rest split _
  cases call with
  | complete completion =>
    have member : CorrelatorCall.complete completion ∈
        [CorrelatorCall.insert (readInsert 1 7), .issue (readIssue 2 7) .unknown] := by
      rw [split]
      simp
    simp at member
  | _ => trivial

/-- An issue, two inserts and two completions of one key: the first completion clears the
ambiguous mark, and the second is answered by the issue that the first one should have used
up. -/
theorem onComplete_answers_used_issue :
    ∃ io, ((run step (new 30 (by decide))
        [.issue (readIssue 1 7) .unknown, .insert (readInsert 2 7), .insert (readInsert 3 7),
          .complete (readComplete 4 7)]).onComplete (readComplete 5 7)).2 = some io ∧
      ¬ AnswersLatestIssue
        [.issue (readIssue 1 7) .unknown, .insert (readInsert 2 7), .insert (readInsert 3 7),
          .complete (readComplete 4 7)] (readComplete 5 7) io := by
  refine ⟨_, Option.eq_some_of_isSome (by decide +kernel), fun latest => ?_⟩
  obtain ⟨accessPattern, last⟩ := (answersLatestIssue_iff _ _ _).mp latest
  have used : lastMatch (CorrelatorCall.touches (RequestKey.complete (readComplete 5 7)))
      [.issue (readIssue 1 7) .unknown, .insert (readInsert 2 7), .insert (readInsert 3 7),
        .complete (readComplete 4 7)] = some (.complete (readComplete 4 7)) := by
    decide +kernel
  rw [used] at last
  cases last

end RequestCorrelator

end EbpfStudio
