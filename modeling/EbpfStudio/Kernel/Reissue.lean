/-
This file proves where the insert of a counted completion comes from.

An issue keeps the insert time of the record that it finds. So the insert belongs to the same
lifetime unless the issue finds a record that is issued already, whose completion was not seen.
`InsertedLast` follows the insert time of every record that waits for its issue, and the issue hands
it on to the completion.
-/

import EbpfStudio.Kernel.Isolation

namespace EbpfStudio

open Run BlockKernel List Option

namespace BlockKernel

variable {cpus : Nat} {kernel : BlockKernel cpus} {probe : BlockProbe cpus} {requestId : U64}
  {start : BlockStart}

def Inserts (requestId : U64) (probe : BlockProbe cpus) : Prop :=
  probe.decoded.kind = .insert ∧ probe.decoded.requestId = requestId

theorem lookup_processBlock_unissued
    (found : (kernel.processBlock probe).starts.lookup requestId = some start)
    (unissued : start.issueTsNs = 0) (timed : probe.tsNs ≠ 0) :
    kernel.starts.lookup requestId = some start ∧ ¬ Issues requestId probe ∨
      Inserts requestId probe ∧ probe.tsNs = start.insertTsNs := by
  unfold processBlock at found
  unfold Issues Inserts
  cases kind : probe.decoded.kind with
  | insert =>
    rw [kind] at found
    rcases lookup_onInsert found with earlier | ⟨same, rfl⟩
    · exact Or.inl ⟨earlier, fun both => (by cases both.1)⟩
    · exact Or.inr ⟨⟨rfl, same⟩, rfl⟩
  | issue =>
    rw [kind] at found
    rcases lookup_onIssue found with ⟨earlier, other⟩ | ⟨-, rfl, -⟩
    · exact Or.inl ⟨earlier, fun both => other both.2⟩
    · exact absurd unissued timed
  | complete =>
    rw [kind] at found
    exact Or.inl ⟨(lookup_onComplete found).2, fun both => (by cases both.1)⟩

end BlockKernel

section Runs

variable {cpus : Nat} {collectorPid : U32} {sessionId : String}

/-- Some insert of a request at a time after which the history does not issue the request. -/
def InsertedLast (history : List (CaptureStep cpus)) (requestId insertTsNs : U64) : Prop :=
  ∃ before insert after, history = before ++ .probe insert :: after ∧
    Inserts requestId insert ∧ insert.tsNs = insertTsNs ∧
    ∀ other, .probe other ∈ after → ¬ Issues requestId other

theorem InsertedLast.snoc {history : List (CaptureStep cpus)} {requestId insertTsNs : U64}
    (inserted : InsertedLast history requestId insertTsNs) {step : CaptureStep cpus}
    (other : ∀ probe, step = .probe probe → ¬ Issues requestId probe) :
    InsertedLast (history ++ [step]) requestId insertTsNs := by
  obtain ⟨before, insert, after, split, inserts, sameTime, unissued⟩ := inserted
  refine ⟨before, insert, after ++ [step], append_eq_of_split split _, inserts, sameTime,
    fun probe member => ?_⟩
  rcases mem_append.mp member with earlier | now
  · exact unissued probe earlier
  · exact other probe (mem_singleton.mp now).symm

def Timed (history : List (CaptureStep cpus)) : Prop :=
  ∀ probe, .probe probe ∈ history → probe.tsNs ≠ 0

theorem insertedLast_run (history : List (CaptureStep cpus)) (timed : Timed history)
    {requestId : U64} {start : BlockStart}
    (found : (kernelAfter collectorPid sessionId history).starts.lookup requestId = some start)
    (unissued : start.issueTsNs = 0) :
    InsertedLast history requestId start.insertTsNs := by
  induction history using reverseRecOn with
  | nil => cases found
  | append_singleton history step hypothesis =>
    unfold kernelAfter at found hypothesis
    rw [run_snoc] at found
    have before := hypothesis fun probe member =>
      timed probe (mem_append_left _ member)
    cases step with
    | apply config fails => exact (before found).snoc fun probe same => (by cases same)
    | read => exact (before found).snoc fun probe same => (by cases same)
    | probe probe =>
      have time := timed probe mem_concat_self
      rcases lookup_processBlock_unissued found unissued time with
        ⟨earlier, other⟩ | ⟨inserts, sameTime⟩
      · refine (before earlier).snoc ?_
        rintro _ ⟨⟩
        exact other
      · exact ⟨history, probe, [], rfl, inserts, sameTime,
          fun _ member => absurd member not_mem_nil⟩

/-- The times of a record belong together: the last issue of the request is at the one, and some
insert at the other, after which no other issue came before this one. -/
def PairedInLifetime (history : List (CaptureStep cpus)) (requestId : U64) (start : BlockStart) :
    Prop :=
  ∃ before issue between, LastIssue history requestId before issue between ∧
    issue.tsNs = start.issueTsNs ∧ InsertedLast before requestId start.insertTsNs

def NotReissued (collectorPid : U32) (sessionId : String) (history : List (CaptureStep cpus))
    (requestId : U64) : Prop :=
  ∀ before issue between, LastIssue history requestId before issue between →
    ∀ prior, (kernelAfter collectorPid sessionId before).starts.lookup requestId = some prior →
      prior.issueTsNs = 0

end Runs

/-- The insert time that is used for a counted completion is that of an insert of its request
after which no other issue of it came before the one that is used, provided that this issue did
not find the request remembered as issued and that the clock is never at zero. -/
theorem counted_insert_is_of_lifetime {cpus : Nat} (collectorPid : U32) (sessionId : String)
    (history : List (CaptureStep cpus)) (probe : BlockProbe cpus) (start : BlockStart)
    (counted : (kernelAfter collectorPid sessionId history).countedStart probe = some start)
    (inserted : start.insertTsNs ≠ 0) (timed : Timed history)
    (fresh : NotReissued collectorPid sessionId history probe.decoded.requestId) :
    PairedInLifetime history probe.decoded.requestId start := by
  obtain ⟨-, found, issued⟩ := lookup_of_countedStart counted
  obtain ⟨before, issue, between, isLast, rfl, -⟩ :=
    (traceable_run collectorPid sessionId history).remembered _ start found issued
  refine ⟨before, issue, between, isLast, rfl, ?_⟩
  have sameId : issue.decoded.requestId = probe.decoded.requestId := isLast.issues.2
  have timedBefore : Timed before := fun other member =>
    timed other (isLast.split ▸ mem_append_left _ member)
  unfold issuedStart startOf at inserted ⊢
  dsimp only at inserted ⊢
  rw [sameId] at inserted ⊢
  cases prior : (kernelAfter collectorPid sessionId before).starts.lookup
      probe.decoded.requestId with
  | none =>
    rw [prior] at inserted
    exact absurd rfl inserted
  | some record =>
    exact insertedLast_run before timedBefore prior
      (fresh before issue between isLast record prior)

theorem counted_insert_is_of_lifetime_first :
    let history : List (CaptureStep 1) :=
      [.probe (probeBy .insert 10 100), .probe (probeBy .issue 10 200)]
    ∃ start, (kernelAfter 7 "s" history).countedStart (probeBy .complete 0 300) = some start ∧
      start.insertTsNs = 100 ∧ PairedInLifetime history 5 start := by
  intro history
  obtain ⟨start, counted⟩ : ∃ start, (kernelAfter 7 "s" history).countedStart
      (probeBy .complete 0 300) = some start := isSome_iff_exists.mp (by decide +kernel)
  have inserted : ((kernelAfter 7 "s" history).countedStart (probeBy .complete 0 300)).map
      (·.insertTsNs) = some 100 := by decide +kernel
  rw [counted] at inserted
  have time : start.insertTsNs = 100 := some.inj inserted
  refine ⟨start, counted, time, counted_insert_is_of_lifetime 7 "s" history
    (probeBy .complete 0 300) start counted (by rw [time]; decide) ?_ ?_⟩
  · intro probe member
    simp only [history, mem_cons, CaptureStep.probe.injEq, not_mem_nil, or_false]
      at member
    rcases member with rfl | rfl <;> decide
  · rintro before issue between ⟨split, issues, last⟩ prior found
    change [CaptureStep.probe (probeBy .insert 10 100), .probe (probeBy .issue 10 200)] = _ at split
    match before, split with
    | [], split =>
      cases split
      cases issues.1
    | [_], split =>
      cases split
      have unissued : ((kernelAfter 7 "s" [.probe (probeBy .insert 10 100)]).starts.lookup 5).all
          (·.issueTsNs = 0) = true := by decide +kernel
      have prior' : (kernelAfter 7 "s" [.probe (probeBy .insert 10 100)]).starts.lookup 5 =
          some prior := found
      rw [prior'] at unissued
      exact of_decide_eq_true unissued
    | _ :: _ :: before, split =>
      have lengths := congrArg length split
      simp at lengths

/-- The completion of a request is not seen, and the request is issued again without an insert.
Its completion is counted with the insert of the earlier lifetime. -/
theorem reissue_keeps_insert :
    let history : List (CaptureStep 1) := [.probe (probeBy .insert 10 100),
      .probe (probeBy .issue 10 200), .probe (probeBy .issue 10 300)]
    ∃ start, (kernelAfter 7 "s" history).countedStart (probeBy .complete 0 400) = some start ∧
      latencies start 400 = (300, 200, 100) ∧ ¬ PairedInLifetime history 5 start := by
  intro history
  obtain ⟨start, counted⟩ : ∃ start, (kernelAfter 7 "s" history).countedStart
      (probeBy .complete 0 400) = some start := isSome_iff_exists.mp (by decide +kernel)
  have latency : ((kernelAfter 7 "s" history).countedStart (probeBy .complete 0 400)).map
      (latencies · 400) = some (300, 200, 100) := by decide +kernel
  rw [counted] at latency
  refine ⟨start, counted, some.inj latency, ?_⟩
  rintro ⟨before, issue, between, ⟨split, issues, last⟩, -, earlier, insert, after, splitBefore,
    inserts, -, unissued⟩
  -- The last issue is the third step, and the second one issues between it and the insert.
  change [CaptureStep.probe (probeBy .insert 10 100), .probe (probeBy .issue 10 200),
    .probe (probeBy .issue 10 300)] = _ at split
  match before, split with
  | [], split =>
    cases split
    cases issues.1
  | [_], split =>
    cases split
    exact last _ (mem_singleton_self _) ⟨rfl, rfl⟩
  | [_, _], split =>
    cases split
    match earlier, splitBefore with
    | [], splitBefore =>
      cases splitBefore
      exact unissued _ (mem_singleton_self _) ⟨rfl, rfl⟩
    | [_], splitBefore =>
      cases splitBefore
      cases inserts.1
    | _ :: _ :: earlier, splitBefore =>
      have lengths := congrArg length splitBefore
      simp at lengths
  | _ :: _ :: _ :: before, split =>
    have lengths := congrArg length split
    simp at lengths

end EbpfStudio
