/-
This file settles when the latencies of a completed request add up.

`Measures` says what a completed request has of its insert, issue and completion. The queue latency
is absent if the insert is after the issue, but the total latency is taken from the insert unless
that is after the completion. So only an insert between the two breaks the sum.
-/

import EbpfStudio.Protocol.Lifetime

namespace EbpfStudio

open Run Option Word

namespace RequestCorrelator

theorem ttlNs_step (correlator : RequestCorrelator) (call : CorrelatorCall) :
    (correlator.step call).ttlNs = correlator.ttlNs := by
  cases call with
  | insert insert =>
    unfold step onInsert
    dsimp only
    split <;> rfl
  | issue issue accessPattern =>
    unfold step onIssueClassified
    dsimp only
    split <;> rfl
  | complete completion =>
    unfold step onComplete
    dsimp only
    split
    · rfl
    · split <;> rfl

theorem ttlNs_run (ttlNs : U64) (ttlPositive : 0 < ttlNs) (history : List CorrelatorCall) :
    (run step (new ttlNs ttlPositive) history).ttlNs = ttlNs :=
  run_induction (fun _ (correlator : RequestCorrelator) => correlator.ttlNs = ttlNs) rfl
    (fun _ call same => (ttlNs_step _ call).trans same) history

theorem age_le_of_pending {correlator : RequestCorrelator} {nowNs : U64} {key : RequestKey}
    {request : PendingRequest}
    (found : (correlator.expireBefore nowNs).pending.lookup key = some request) :
    nowNs.saturatingSub request.issue.tsNs ≤ correlator.ttlNs := by
  rw [expireBefore_pending, filter_eq_some_iff] at found
  exact of_decide_eq_true found.2

end RequestCorrelator

/-- The latencies of a completed request add up, and the device did not take longer than requests
are waited for. -/
def CompletedIo.Decomposes (io : CompletedIo) (ttlNs : U64) : Prop :=
  ∃ device total, io.deviceLatencyNs = some device ∧ io.totalLatencyNs = some total ∧
    device ≤ total ∧ device ≤ ttlNs ∧
    ∀ queue ∈ io.queueLatencyNs, total.val = queue.val + device.val

/-- The insert of a request, if it has one, is not after its issue, or it is after the completion
as well. -/
def PendingRequest.InsertUsable (request : PendingRequest) (completion : BlockComplete) : Prop :=
  ∀ insert ∈ request.insert,
    insert.tsNs ≤ request.issue.tsNs ∨ completion.tsNs < insert.tsNs

namespace RequestCorrelator

structure Measures (request : PendingRequest) (completion : BlockComplete) (io : CompletedIo) :
    Prop where
  device : io.deviceLatencyNs = some (completion.tsNs.saturatingSub request.issue.tsNs)
  queue : io.queueLatencyNs = request.insert.bind fun insert =>
    request.issue.tsNs.checkedSub insert.tsNs
  total : io.totalLatencyNs = some ((request.insert.bind fun insert =>
    completion.tsNs.checkedSub insert.tsNs).getD
      (completion.tsNs.saturatingSub request.issue.tsNs))

variable {request : PendingRequest}

section

variable {completion : BlockComplete} {io : CompletedIo}

section

variable (measures : Measures request completion io)
include measures

theorem Measures.total_eq :
    ∃ total, io.totalLatencyNs = some total ∧
      ((∃ insert, request.insert = some insert ∧ insert.tsNs ≤ completion.tsNs ∧
          total.val = completion.tsNs.val - insert.tsNs.val) ∨
        (∀ insert, request.insert = some insert → completion.tsNs < insert.tsNs) ∧
          total.val = completion.tsNs.val - request.issue.tsNs.val) := by
  refine ⟨_, measures.total, ?_⟩
  cases request.insert with
  | none => exact Or.inr ⟨nofun, rfl⟩
  | some insert =>
    rw [bind_some, checkedSub]
    split
    · rename_i ordered
      exact Or.inl ⟨insert, rfl, ordered, rfl⟩
    · rename_i late
      refine Or.inr ⟨fun other same => ?_, rfl⟩
      rw [← some.inj same]
      exact not_le.mp late

theorem Measures.queue_eq {queue : U64} (reported : io.queueLatencyNs = some queue) :
    ∃ insert, request.insert = some insert ∧ insert.tsNs ≤ request.issue.tsNs ∧
      queue.val = request.issue.tsNs.val - insert.tsNs.val := by
  rw [measures.queue] at reported
  obtain ⟨insert, found, checked⟩ := bind_eq_some_iff.mp reported
  obtain ⟨ordered, rfl⟩ := checkedSub_eq_some.mp checked
  exact ⟨insert, found, ordered, rfl⟩

theorem Measures.decomposes_iff {ttlNs : U64} (ordered : request.issue.tsNs ≤ completion.tsNs)
    (recent : completion.tsNs.saturatingSub request.issue.tsNs ≤ ttlNs) :
    io.Decomposes ttlNs ↔ request.InsertUsable completion := by
  obtain ⟨total, totalLatency, measured⟩ := measures.total_eq
  rw [Fin.le_def] at ordered
  constructor
  · rintro ⟨device, other, deviceLatency, otherLatency, least, -⟩ insert inserted
    rw [measures.device, some.injEq] at deviceLatency
    rw [totalLatency, some.injEq] at otherLatency
    subst deviceLatency otherLatency
    rw [Fin.le_def, saturatingSub_val] at least
    rcases measured with ⟨same, found, within, length⟩ | ⟨late, -⟩
    · rw [mem_def, found, some.injEq] at inserted
      subst inserted
      rw [Fin.le_def] at within
      refine Or.inl (Fin.le_def.mpr ?_)
      omega
    · exact Or.inr (late insert inserted)
  · intro usable
    refine ⟨_, total, measures.device, totalLatency, Fin.le_def.mpr ?_, recent,
      fun queue reported => ?_⟩
    · rw [saturatingSub_val]
      rcases measured with ⟨insert, found, within, length⟩ | ⟨-, length⟩
      · have before := (usable insert found).resolve_right (not_lt.mpr within)
        rw [Fin.le_def] at before
        omega
      · exact length.ge
    · obtain ⟨insert, found, before, queueLength⟩ := measures.queue_eq reported
      rw [Fin.le_def] at before
      rw [saturatingSub_val]
      rcases measured with ⟨same, foundSame, -, length⟩ | ⟨late, -⟩
      · rw [found, some.injEq] at foundSame
        subst foundSame
        omega
      · have after := late insert found
        rw [Fin.lt_def] at after
        omega

end

end

/-- In every run, the latencies of an answer add up if and only if the insert of its request is not
between its issue and its completion. -/
theorem latencies_decompose_iff (ttlNs : U64) (ttlPositive : 0 < ttlNs)
    (history : List CorrelatorCall) (completion : BlockComplete) (io : CompletedIo)
    (answered : ((run step (new ttlNs ttlPositive) history).onComplete completion).2 = some io) :
    ∃ request, (run step (new ttlNs ttlPositive) history).pending.lookup
        (RequestKey.complete completion) = some request ∧
      (io.Decomposes ttlNs ↔ request.InsertUsable completion) ∧
      ∃ device total, io.deviceLatencyNs = some device ∧ io.totalLatencyNs = some total ∧
        device ≤ ttlNs ∧ ∀ queue ∈ io.queueLatencyNs, total.val = queue.val + device.val := by
  obtain ⟨request, found, -, sameIssue, sameInsert, -, -, ordered⟩ := onComplete_eq_some answered
  obtain ⟨-, device, checked, deviceLatency, queueLatency, totalLatency⟩ :=
    latencies_of_onComplete answered
  rw [sameIssue] at checked queueLatency
  rw [sameInsert] at queueLatency totalLatency
  obtain ⟨-, rfl⟩ := checkedSub_eq_some.mp checked
  have measures : Measures request completion io := ⟨deviceLatency, queueLatency, totalLatency⟩
  have recent := age_le_of_pending found
  rw [ttlNs_run] at recent
  obtain ⟨total, totalLatency, measured⟩ := measures.total_eq
  refine ⟨request, pending_of_expireBefore found, measures.decomposes_iff ordered recent, _,
    total, measures.device, totalLatency, recent, fun queue reported => ?_⟩
  obtain ⟨insert, inserted, before, queueLength⟩ := measures.queue_eq reported
  -- with its insert before its issue the request is one whose latencies add up
  have usable : request.InsertUsable completion := by
    intro other same
    rw [mem_def, inserted, some.injEq] at same
    exact Or.inl (same ▸ before)
  obtain ⟨device, other, deviceLatency, otherLatency, -, -, parts⟩ :=
    (measures.decomposes_iff ordered recent).mpr usable
  rw [measures.device, some.injEq] at deviceLatency
  rw [totalLatency, some.injEq] at otherLatency
  rw [otherLatency, deviceLatency]
  exact parts queue reported

theorem latencies_decompose_iff_read :
    let correlator := run step (new 30 (by decide))
      [.insert (readInsert 10 7), .issue (readIssue 20 7) .unknown]
    ∃ io ∈ (correlator.onComplete (readComplete 35 7)).2, io.Decomposes 30 := by
  intro correlator
  obtain ⟨io, answered⟩ : ∃ io, (correlator.onComplete (readComplete 35 7)).2 = some io :=
    isSome_iff_exists.mp (by decide +kernel)
  obtain ⟨request, found, adds, -⟩ := latencies_decompose_iff 30 (by decide) _ _ io answered
  have times : (correlator.pending.lookup (RequestKey.complete (readComplete 35 7))).all
      (fun request => request.insert.all fun insert => insert.tsNs ≤ request.issue.tsNs) =
        true := by
    decide +kernel
  refine ⟨io, answered, adds.mpr fun insert inserted => Or.inl ?_⟩
  rw [found, all_some, inserted, all_some] at times
  exact of_decide_eq_true times

/-- An insert that is later than its issue: the request took 100 on the device and 50 in total. -/
theorem total_is_less_than_device :
    let correlator := run step (new 1000 (by decide))
      [.insert (readInsert 150 7), .issue (readIssue 100 7) .unknown]
    ∃ io ∈ (correlator.onComplete (readComplete 200 7)).2, ¬ io.Decomposes 1000 := by
  intro correlator
  obtain ⟨io, answered⟩ : ∃ io, (correlator.onComplete (readComplete 200 7)).2 = some io :=
    isSome_iff_exists.mp (by decide +kernel)
  have latencies : (correlator.onComplete (readComplete 200 7)).2.map
      (fun io => (io.deviceLatencyNs, io.totalLatencyNs)) = some (some 100, some 50) := by
    decide +kernel
  rw [answered, map_some, some.injEq, Prod.mk.injEq] at latencies
  refine ⟨io, answered, ?_⟩
  rintro ⟨device, total, deviceLatency, totalLatency, least, -⟩
  cases deviceLatency.symm.trans latencies.1
  cases totalLatency.symm.trans latencies.2
  exact absurd least (by decide)

end RequestCorrelator

end EbpfStudio
