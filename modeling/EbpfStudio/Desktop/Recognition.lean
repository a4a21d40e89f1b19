/-
This file proves when the timeline of a projected trace recognises a device.

The footer counts the completions and the scheduler waits of a trace, and the timeline
compares this with the completions alone. So a device whose requests are all paired is
recognised only in a trace without scheduler waits.
-/

import EbpfStudio.Desktop.ProjectedStream

namespace EbpfStudio

open Run List Option Table Bool ActivityTimeline

namespace ActivityTimeline

variable (timeline : ActivityTimeline)

theorem observedRequests_observe (io : CompletedIo) :
    (timeline.observe io).observedRequests = timeline.observedRequests + 1 := by
  unfold observe observeInterval
  split <;> split <;> rfl

theorem lookup_missing_observe {io : CompletedIo} {device : Device}
    (present : io.device = device → (activeInterval io).isSome = true) :
    (timeline.observe io).missingDevices.lookup device = timeline.missingDevices.lookup device := by
  unfold observe observeInterval
  dsimp only
  split
  · split <;> rfl
  · rename_i untimed
    have other : device ≠ io.device := fun own => by
      rw [untimed] at present
      cases present own.symm
    rw [lookup_alter_eq, if_neg other]
    split <;> rfl

/-- The requests and those of the device were counted, and none of the device is missing. -/
structure Counts (device : Device) (ios : List CompletedIo) (timeline : ActivityTimeline) :
    Prop where
  requests : timeline.observedRequests = ios.length
  ofDevice : timeline.observedDevices.lookup device =
    if ios.countP (·.device = device) = 0 then none else some (ios.countP (·.device = device))
  missing : (∀ io ∈ ios, io.device = device → (activeInterval io).isSome = true) →
    timeline.missingDevices.lookup device = none

theorem Counts.observe {device : Device} {ios : List CompletedIo} {timeline : ActivityTimeline}
    (counts : Counts device ios timeline) (io : CompletedIo) :
    Counts device (ios ++ [io]) (timeline.observe io) := by
  refine ⟨?_, ?_, fun timed => ?_⟩
  · rw [observedRequests_observe, counts.requests, length_append, length_singleton]
  · rw [observedDevices_observe, lookup_alter_eq, countP_append, countP_singleton]
    by_cases own : device = io.device
    · subst own
      rw [if_pos rfl, counts.ofDevice]
      split <;> simp_all
    · rw [if_neg own, counts.ofDevice]
      simp [Ne.symm own]
  · rw [lookup_missing_observe _ (timed io mem_concat_self)]
    exact counts.missing fun other member => timed other (mem_append_left _ member)

end ActivityTimeline

theorem lookup_expectedOf {rows : List DeviceCoverage} {device : Device} {count : Nat}
    (listed : ∃ row ∈ rows, row.device = device ∧ row.paired = true)
    (counts : ∀ row ∈ rows, row.device = device → row.completions = count) :
    (expectedOf rows).lookup device = some count := by
  have inserted : ∀ (paired : List DeviceCoverage) (table : Table Device Nat),
      (∀ row ∈ paired, row.device = device → row.completions = count) →
      (table.lookup device = some count ∨ ∃ row ∈ paired, row.device = device) →
      (paired.foldl (fun table row => table.insert row.device row.completions)
        table).lookup device = some count := by
    intro paired
    induction paired with
    | nil => exact fun table _ known => known.resolve_right fun ⟨row, member, _⟩ => nomatch member
    | cons row rest hypothesis =>
      intro table same known
      refine hypothesis _ (fun other member => same other (mem_cons_of_mem _ member)) ?_
      rw [lookup_insert_eq]
      by_cases own : device = row.device
      · rw [if_pos own, same row mem_cons_self own.symm]
        exact Or.inl rfl
      · rw [if_neg own]
        refine known.imp_right fun ⟨other, member, named⟩ => ⟨other, ?_, named⟩
        exact (mem_cons.mp member).resolve_left fun first => own (first ▸ named.symm)
  obtain ⟨row, member, named, paired⟩ := listed
  exact inserted _ _ (fun row member => counts row (mem_of_mem_filter member))
    (Or.inr ⟨row, mem_filter.mpr ⟨member, paired⟩, named⟩)

structure CapturedWhole (metadata : SourceMetadata) (trace : DecodedTrace) : Prop where
  recording : metadata.stage = some "recording"
  unfiltered : metadata.blockActivityScope = some "unfiltered_issue_complete_v1"
  complete : trace.quality.complete = true
  unlimited : (analyze trace).correlationLimitHits = 0

/-- All completions of a device have an issue timestamp, and no issue or requeue of it was left
over. -/
structure DevicePaired (trace : DecodedTrace) (device : Device) : Prop where
  timed : ∀ observation ∈ (analyze trace).completions, observation.device = device →
    observation.issueTimestampNs.isSome = true
  matched : ∀ recordId ∈ (analyze trace).unmatchedIssueRecords, ∀ event,
    (Table.ofEach (·.recordId) trace.events).lookup recordId = some event → event.device ≠ device
  requeued : ∀ recordId ∈ (analyze trace).unpairedRequeueRecords, ∀ event,
    (Table.ofEach (·.recordId) trace.events).lookup recordId = some event → event.device ≠ device

section Recognised

variable {status rawTrace : String} {metadata : SourceMetadata} {trace : DecodedTrace}
  {device : Device}

theorem DevicePaired.expected (paired : DevicePaired trace device)
    (some_ : (analyze trace).completions.countP (·.device = device) ≠ 0) :
    (expectedOf ((deviceCoverage trace (analyze trace)).orderedValues Device.le)).lookup device =
      some ((analyze trace).completions.countP (·.device = device)) := by
  have counted := @getD_lookup_deviceCoverage (analyze trace) trace device
  refine lookup_expectedOf ?_ fun row member named => ?_
  · cases found : (deviceCoverage trace (analyze trace)).lookup device with
    | none =>
      rw [found] at counted
      have none_ := congrArg (·.completions) counted
      rw [countP_eq_length_filter] at some_
      exact absurd none_.symm some_
    | some row =>
      rw [found, getD_some] at counted
      refine ⟨row, (perm_orderedValues Device.le _).symm.subset
        (mem_map.mpr ⟨(device, row), mem_toPairs.mpr found, rfl⟩), ?_, ?_⟩
      · rw [counted]
      · rw [counted]
        simp only [DeviceCoverage.paired, and_eq_true, decide_eq_true_eq,
          countP_eq_zero, length_eq_zero_iff, filter_eq_nil_iff, mem_filter,
          mem_filterMap]
        refine ⟨⟨fun observation member => ?_, ?_⟩, ?_⟩
        · simpa [isSome_iff_ne_none] using paired.timed observation member.1 member.2
        · rintro event ⟨recordId, listed, known⟩
          exact paired.matched recordId listed event known
        · rintro event ⟨recordId, listed, known⟩
          exact paired.requeued recordId listed event known
  · have counts := row_of_mem member
    rw [named, counted] at counts
    rw [counts]
    exact countP_eq_length_filter.symm

theorem CapturedWhole.openedTimeline_eq (capture : CapturedWhole metadata trace) :
    openedTimeline status metadata trace rawTrace =
      { unfilteredPerfetto := true
        expectedPerfetto := some (analyze trace).completions.length
        deviceCoverageSupplied := true
        expectedDevices :=
          expectedOf ((deviceCoverage trace (analyze trace)).orderedValues Device.le) } := by
  have first : ({} : ActivityTimeline).observeRecord (.sourceInfo "perfetto" status metadata) =
      { unfilteredPerfetto := true } := by
    simp [observeRecord, observeRecordingStage,
      observeCompleteStage, capture.recording, capture.unfiltered]
  unfold openedTimeline
  rw [first]
  simp only [observeRecord, observeRecordingStage,
    observeCompleteStage, completeMetadata, capture.unlimited, if_true,
    Option.any_some, capture.complete, Bool.true_and, decide_true]
  split <;> split <;> simp_all

variable {projection : Projection}

theorem lt_of_completion_ok {observation : BlockObservation} {io : CompletedIo}
    (projected : projection.completion observation = .ok io) :
    observation.bytes.val < 2 ^ 32 := by
  unfold Projection.completion at projected
  cases raw : projection.records.lookup observation.completionRecord with
  | none =>
    rw [raw] at projected
    cases projected
  | some event =>
    by_contra large
    rw [raw, show Word.tryFrom 32 observation.bytes = none from dif_neg large] at projected
    cases projected

theorem projectedTimeline_eq
    (small : ∀ observation ∈ (analyze trace).completions, observation.bytes.val < 2 ^ 32) :
    ∃ ios, List.Forall₂ (fun observation io =>
        ((Projection.new trace).withAnalysis (analyze trace)).completion observation = .ok io)
        (analyze trace).completions ios ∧
      projectedTimeline status metadata trace rawTrace =
        (run ActivityTimeline.observe (openedTimeline status metadata trace rawTrace)
          ios).observeRecord (.footer
            ((analyze trace).completions.length + trace.schedulerWaits.length)
            ((analyze trace).completions.length + trace.schedulerWaits.length) 0 0
            (some (!trace.quality.truncated && trace.quality.ftraceEndSeen &&
              !trace.quality.projectionLimited))) := by
  obtain ⟨_, finished, -⟩ := projectCompletions_eq (record_known trace) small 1
  obtain ⟨ios, fed, projected⟩ := run_feed_projectCompletions
    ((Projection.new trace).withAnalysis (analyze trace)) 1 (analyze trace).completions
    (openedTimeline status metadata trace rawTrace)
  have stopped := congrArg Prod.snd finished
  refine ⟨ios, projected stopped, ?_⟩
  unfold projectedTimeline projectRecords
  dsimp only
  rw [stopped]
  rw [← cons_append, run_append, ← cons_append, run_append, run_feed_waitRecords,
    ← cons_append, run_append, ← fed]
  rfl

theorem DevicePaired.active (paired : DevicePaired trace device) {ios : List CompletedIo}
    (projected : List.Forall₂ (fun observation io => projection.completion observation = .ok io)
      (analyze trace).completions ios) :
    ios.countP (·.device = device) = (analyze trace).completions.countP (·.device = device) ∧
      ∀ io ∈ ios, io.device = device → (activeInterval io).isSome = true := by
  have each : ∀ observation ∈ (analyze trace).completions, observation.device = device →
      observation.clock = 0 ∧ observation.issueTimestampNs.isSome = true :=
    fun observation member own => by
      have timed := paired.timed observation member own
      obtain ⟨-, -, -, -, clock, -⟩ := times_of_observation member timed
      exact ⟨clock, timed⟩
  generalize (analyze trace).completions = completions at projected each
  induction projected with
  | nil => exact ⟨rfl, fun io member => nomatch member⟩
  | @cons observation io rest others known _ hypothesis =>
    obtain ⟨same, interval⟩ := activeInterval_completion known
    obtain ⟨counts, active⟩ := hypothesis fun other member =>
      each other (mem_cons_of_mem _ member)
    refine ⟨?_, forall_mem_cons.mpr ⟨fun own => ?_, active⟩⟩
    · rw [countP_cons, countP_cons, counts, same]
    · obtain ⟨clock, timed⟩ := each observation mem_cons_self (same ▸ own)
      rw [interval, if_pos clock, isSome_map, timed]

theorem recognised_iff (capture : CapturedWhole metadata trace) (paired : DevicePaired trace device)
    (small : ∀ observation ∈ (analyze trace).completions, observation.bytes.val < 2 ^ 32) :
    (projectedTimeline status metadata trace rawTrace).reconstructedFor [device] = true ↔
      trace.schedulerWaits = [] ∧ trace.quality.ftraceEndSeen = true ∧
        ∃ observation ∈ (analyze trace).completions, observation.device = device := by
  obtain ⟨ios, projected, timeline⟩ := @projectedTimeline_eq status rawTrace metadata trace small
  obtain ⟨ofDevice, active⟩ := paired.active projected
  have opened := @CapturedWhole.openedTimeline_eq status rawTrace metadata trace capture
  have counts : ActivityTimeline.Counts device ios
      (run ActivityTimeline.observe (openedTimeline status metadata trace rawTrace) ios) := by
    refine run_induction (ActivityTimeline.Counts device) ?_
      (fun history io counts => counts.observe io) ios
    rw [opened]
    exact ⟨rfl, rfl, fun _ => rfl⟩
  have provenance := (follows_openedTimeline status rawTrace metadata trace ios).provenance
  rw [timeline]
  generalize run ActivityTimeline.observe (openedTimeline status metadata trace rawTrace) ios =
    observed at counts provenance
  rw [opened] at provenance
  simp only [ActivityTimeline.provenance, Prod.mk.injEq] at provenance
  obtain ⟨unfiltered, expected, -, expectedDevices, supplied, limitation⟩ := provenance
  have quality : trace.quality.truncated = false ∧ trace.quality.projectionLimited = false := by
    have whole := capture.complete
    simp only [TraceQuality.complete, and_eq_true, not_eq_true'] at whole
    tauto
  have some_ : (∃ observation ∈ (analyze trace).completions, observation.device = device) ↔
      (analyze trace).completions.countP (·.device = device) ≠ 0 := by
    rw [← Nat.pos_iff_ne_zero, countP_pos_iff]
    simp
  rw [some_]
  unfold ActivityTimeline.reconstructedFor ActivityTimeline.observeRecord
  rw [all_cons, all_nil, unfiltered, expected, expectedDevices, supplied, limitation,
    counts.requests, counts.missing active, counts.ofDevice, ← projected.length_eq, ofDevice,
    quality.1, quality.2]
  by_cases none_ : (analyze trace).completions.countP (·.device = device) = 0
  · rw [none_]
    simp [containsKey]
  · rw [if_neg none_]
    simp [none_, paired.expected none_, containsKey]

end Recognised

theorem device_observe (unreliable : Bool) (complete : EventRef) (pending : List Pending) :
    (observe unreliable complete pending).device = complete.event.device := by
  unfold observe
  split
  · rfl
  · dsimp only
    split <;> rfl
  · rfl

theorem exists_completion_iff (trace : DecodedTrace) (device : Device) :
    (∃ observation ∈ (analyze trace).completions, observation.device = device) ↔
      ∃ event ∈ trace.events, event.kind = .complete ∧ event.device = device := by
  rw [← List.mem_map, map_completions_analyze trace device_observe, List.mem_map]
  refine exists_congr fun event => ?_
  rw [mem_filter, decide_eq_true_eq]
  tauto

theorem forall_completion_iff (trace : DecodedTrace) :
    (∀ observation ∈ (analyze trace).completions, observation.bytes.val < 2 ^ 32) ↔
      ∀ event ∈ trace.events, event.kind = .complete → event.bytes.val < 2 ^ 32 := by
  have sizes := map_completions_analyze trace bytes_observe
  have listed : (∀ observation ∈ (analyze trace).completions, observation.bytes.val < 2 ^ 32) ↔
      ∀ bytes ∈ (analyze trace).completions.map (·.bytes), bytes.val < 2 ^ 32 := by
    simp only [List.mem_map, forall_exists_index, and_imp, forall_apply_eq_imp_iff₂]
  rw [listed, sizes]
  simp only [List.mem_map, forall_exists_index, and_imp, mem_filter, decide_eq_true_eq]
  exact ⟨fun all event member complete => all _ event member complete rfl,
    fun all _ event member complete same => same ▸ all event member complete⟩

/-- The device of a whole, unfiltered capture whose requests are all paired is recognised exactly
when the trace has no scheduler wait, its end was seen, the device has a completion and every
completion can be projected. -/
theorem capture_is_recognised_iff (trace : DecodedTrace) (metadata : SourceMetadata)
    (capture : CapturedWhole metadata trace) (device : Device)
    (paired : DevicePaired trace device) (status rawTrace : String) :
    (projectedTimeline status metadata trace rawTrace).reconstructedFor [device] = true ↔
      trace.schedulerWaits = [] ∧ trace.quality.ftraceEndSeen = true ∧
        (∃ event ∈ trace.events, event.kind = .complete ∧ event.device = device) ∧
        ∀ event ∈ trace.events, event.kind = .complete → event.bytes.val < 2 ^ 32 := by
  rw [← exists_completion_iff, ← forall_completion_iff]
  constructor
  · intro recognised
    have reconstructed :
        (projectedTimeline status metadata trace rawTrace).reconstructed = true := by
      unfold reconstructedFor at recognised
      simp only [and_eq_true] at recognised
      exact recognised.1.1.1.1
    obtain ⟨ios, projected, -⟩ := projectedTimeline_of_reconstructed reconstructed
    have small : ∀ observation ∈ (analyze trace).completions,
        observation.bytes.val < 2 ^ 32 := fun observation member => by
      obtain ⟨position, inside, rfl⟩ := getElem_of_mem member
      exact lt_of_completion_ok (projected.get inside (projected.length_eq ▸ inside))
    obtain ⟨waits, ended, ofDevice⟩ := (recognised_iff capture paired small).mp recognised
    exact ⟨waits, ended, ofDevice, small⟩
  · rintro ⟨waits, ended, ofDevice, small⟩
    exact (recognised_iff capture paired small).mpr ⟨waits, ended, ofDevice⟩

def readTrace (waits : List SchedulerIoWait) : DecodedTrace :=
  { events := [pageEvent 1 .issue 200, pageEvent 2 .complete 300], quality := losslessQuality
    schedulerWaits := waits }

theorem readTrace_whole (waits : List SchedulerIoWait) :
    CapturedWhole recordingMetadata (readTrace waits) ∧ DevicePaired (readTrace waits) (8, 0) := by
  have same : analyze (readTrace waits) = analyze (readTrace []) := rfl
  have unmatched : (analyze (readTrace [])).unmatchedIssueRecords = [] := by decide +kernel
  have requeues : (analyze (readTrace [])).unpairedRequeueRecords = [] := by decide +kernel
  refine ⟨⟨rfl, rfl, ?_, ?_⟩, ⟨?_, ?_, ?_⟩⟩
  · show losslessQuality.complete = true
    decide +kernel
  · rw [same]
    decide +kernel
  · rw [same]
    decide +kernel
  · rw [same, unmatched]
    exact fun _ member => nomatch member
  · rw [same, requeues]
    exact fun _ member => nomatch member

theorem read_is_recognised :
    (projectedTimeline "" recordingMetadata (readTrace []) "").reconstructedFor [(8, 0)] = true :=
  (capture_is_recognised_iff (readTrace []) recordingMetadata (readTrace_whole []).1 (8, 0)
    (readTrace_whole []).2 "" "").mpr ⟨rfl, rfl, by decide +kernel, by decide +kernel⟩

/-- One scheduler wait is enough for the same capture not to be recognised. -/
theorem wait_hides_read :
    let trace := readTrace [⟨250, 40, 7, none, "reader", none, "sched_stat_iowait"⟩]
    CapturedWhole recordingMetadata trace ∧ DevicePaired trace (8, 0) ∧
      (projectedTimeline "" recordingMetadata trace "").reconstructedFor [(8, 0)] = false :=
  ⟨(readTrace_whole _).1, (readTrace_whole _).2, by decide +kernel⟩

end EbpfStudio
