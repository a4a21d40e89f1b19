/-
This file proves that a timeline vouches only for devices that a trace covers.

The source record counts the completions of a device and what was left over, and the timeline
compares this with the requests it has seen, whose intervals the union of the device covers
(`Follows`). So no completion lacks its issue and no issue its completion, if the record ids are
unique.
-/

import EbpfStudio.Desktop.Matching
import EbpfStudio.Desktop.Projection

namespace EbpfStudio

open Run List Table Projection Analyzer ActivityTimeline

/-! ### The coverage of a device -/

theorem foldl_addCompletion (completions : List BlockObservation) (row : DeviceCoverage) :
    completions.foldl (fun row observation => row.addCompletion observation) row =
      { row with
        completions := row.completions + completions.length
        unresolved := row.unresolved + completions.countP (·.issueTimestampNs.isNone) } := by
  induction completions generalizing row with
  | nil => rfl
  | cons observation rest hypothesis =>
    rw [foldl_cons, hypothesis, length_cons, countP_cons]
    simp only [DeviceCoverage.addCompletion, DeviceCoverage.mk.injEq, and_true, true_and]
    omega

theorem foldl_unmatched (events : List BlockEvent) (row : DeviceCoverage) :
    events.foldl (fun row _ => { row with unmatched := row.unmatched + 1 }) row =
      { row with unmatched := row.unmatched + events.length } :=
  foldl_count (·.unmatched) (fun row count => { row with unmatched := count })
    (fun _ _ _ => rfl) (fun _ _ => rfl) (fun _ => rfl) events row

theorem foldl_requeues (events : List BlockEvent) (row : DeviceCoverage) :
    events.foldl (fun row _ => { row with requeues := row.requeues + 1 }) row =
      { row with requeues := row.requeues + events.length } :=
  foldl_count (·.requeues) (fun row count => { row with requeues := count })
    (fun _ _ _ => rfl) (fun _ _ => rfl) (fun _ => rfl) events row

variable {analysis : BlockAnalysis}

theorem getD_lookup_deviceCoverage (trace : DecodedTrace) (device : Device) :
    ((deviceCoverage trace analysis).lookup device).getD (.of device) =
      { device := device
        completions := (analysis.completions.filter (·.device = device)).length
        unresolved := (analysis.completions.filter (·.device = device)).countP
          (·.issueTimestampNs.isNone)
        unmatched := ((analysis.unmatchedIssueRecords.filterMap
          (ofEach (·.recordId) trace.events).lookup).filter (·.device = device)).length
        requeues := ((analysis.unpairedRequeueRecords.filterMap
          (ofEach (·.recordId) trace.events).lookup).filter
            (·.device = device)).length } := by
  unfold deviceCoverage
  rw [getD_lookup_alterEach, getD_lookup_alterEach, getD_lookup_alterEach,
    AList.lookup_empty, foldl_requeues, foldl_unmatched, foldl_addCompletion]
  simp [DeviceCoverage.of]

variable {trace : DecodedTrace}

theorem row_of_mem {row : DeviceCoverage}
    (member : row ∈ (deviceCoverage trace analysis).orderedValues Device.le) :
    row = ((deviceCoverage trace analysis).lookup row.device).getD (.of row.device) := by
  have stored := (perm_orderedValues Device.le _).subset member
  obtain ⟨⟨key, value⟩, listed, rfl⟩ := mem_map.mp stored
  have found := mem_toPairs.mp listed
  have counts := @getD_lookup_deviceCoverage analysis trace key
  rw [found, Option.getD_some] at counts
  have named : value.device = key := by
    rw [counts]
  rw [named, found, Option.getD_some]

theorem exists_of_expectedOf {rows : List DeviceCoverage} {device : Device}
    (expected : (expectedOf rows).containsKey device = true) :
    ∃ row ∈ rows, row.device = device ∧ row.paired = true := by
  have inserted : ∀ (paired : List DeviceCoverage) (table : Table Device Nat),
      (paired.foldl (fun table row => table.insert row.device row.completions)
        table).containsKey device = true →
      table.containsKey device = true ∨ ∃ row ∈ paired, row.device = device := by
    intro paired
    induction paired with
    | nil => exact fun table known => .inl known
    | cons row rest hypothesis =>
      intro table known
      rcases hypothesis _ known with now | ⟨other, member, same⟩
      · unfold containsKey at now
        rw [lookup_insert_eq] at now
        split at now
        · rename_i same
          exact .inr ⟨row, mem_cons_self, same.symm⟩
        · exact .inl now
      · exact .inr ⟨other, mem_cons_of_mem _ member, same⟩
  rcases inserted _ _ expected with none_ | ⟨row, member, same⟩
  · cases none_
  · obtain ⟨listed, paired⟩ := mem_filter.mp member
    exact ⟨row, listed, same, paired⟩

theorem paired_of_expected {device : Device}
    (expected : (expectedOf ((deviceCoverage trace analysis).orderedValues Device.le)).containsKey
      device = true) :
    (∀ observation ∈ analysis.completions, observation.device = device →
      observation.issueTimestampNs.isSome = true) ∧
    ∀ recordId ∈ analysis.unmatchedIssueRecords, ∀ event,
      (ofEach (·.recordId) trace.events).lookup recordId = some event →
        event.device ≠ device := by
  obtain ⟨row, listed, rfl, paired⟩ := exists_of_expectedOf expected
  rw [row_of_mem listed, getD_lookup_deviceCoverage] at paired
  simp only [DeviceCoverage.paired, Bool.and_eq_true, decide_eq_true_eq, countP_eq_zero,
    length_eq_zero_iff, filter_eq_nil_iff, mem_filter, mem_filterMap] at paired
  obtain ⟨⟨timed, matched⟩, -⟩ := paired
  refine ⟨fun observation observed ofDevice => ?_,
    fun recordId unmatched event found ofDevice => ?_⟩
  · simpa [Option.isSome_iff_ne_none] using timed observation ⟨observed, ofDevice⟩
  · exact matched event ⟨recordId, unmatched, found⟩ ofDevice

/-! ### The timeline of a projected trace -/

namespace ActivityTimeline

def provenance (timeline : ActivityTimeline) :
    Bool × Option Nat × Bool × Table Device Nat × Bool × Option String :=
  (timeline.unfilteredPerfetto, timeline.expectedPerfetto, timeline.reconstructed,
    timeline.expectedDevices, timeline.deviceCoverageSupplied, timeline.limitation)

section

variable (timeline : ActivityTimeline) (io : CompletedIo)

theorem provenance_observe : (timeline.observe io).provenance = timeline.provenance := by
  unfold observe observeInterval
  split <;> split <;> rfl

theorem devices_observe :
    (timeline.observe io).devices = timeline.devices.insert io.device
      ((activeInterval io).elim ((timeline.devices.lookup io.device).getD .empty)
        fun interval => ((timeline.devices.lookup io.device).getD .empty).insert interval.1
          interval.2) := by
  unfold observe observeInterval
  cases activeInterval io <;> dsimp only [Option.elim] <;> split <;> rfl

theorem observedDevices_observe :
    (timeline.observe io).observedDevices =
      timeline.observedDevices.alter io.device 0 (· + 1) := by
  unfold observe observeInterval
  split <;> split <;> rfl

end

/-- The union of a device covers the intervals of the requests that were observed, and a device
has a union once one of its requests was observed. -/
structure Follows (start : ActivityTimeline) (ios : List CompletedIo)
    (timeline : ActivityTimeline) : Prop where
  provenance : timeline.provenance = start.provenance
  covers : ∀ device instant, ((timeline.devices.lookup device).getD .empty).Covers instant ↔
    ∃ io ∈ ios, io.device = device ∧ ∃ interval, activeInterval io = some interval ∧
      interval.1 ≤ instant ∧ instant < interval.2
  known : ∀ device, timeline.observedDevices.containsKey device =
    timeline.devices.containsKey device

theorem Follows.observe {start timeline : ActivityTimeline} {ios : List CompletedIo}
    (follows : Follows start ios timeline) (io : CompletedIo) :
    Follows start (ios ++ [io]) (timeline.observe io) := by
  refine ⟨(timeline.provenance_observe io).trans follows.provenance, fun device instant => ?_,
    fun device => ?_⟩
  · have before := follows.covers device instant
    rw [devices_observe, lookup_insert_eq]
    simp only [mem_append, mem_singleton, or_and_right, exists_or, exists_eq_left]
    rw [← before]
    split
    · rename_i same
      subst same
      rw [Option.getD_some]
      cases activeInterval io with
      | none => simp
      | some interval => simp [IntervalUnion.covers_insert]
    · rename_i other
      simp [Ne.symm other]
  · have before := follows.known device
    unfold containsKey at before ⊢
    rw [observedDevices_observe, devices_observe, lookup_alter_eq, lookup_insert_eq]
    split
    · rfl
    · exact before

theorem follows_run (start : ActivityTimeline) (devices : start.devices = ∅)
    (observed : start.observedDevices = ∅) (ios : List CompletedIo) :
    Follows start ios (run observe start ios) := by
  refine run_induction (Follows start) ⟨rfl, fun device instant => ?_, fun device => ?_⟩
    (fun history io follows => follows.observe io) ios
  · rw [devices, AList.lookup_empty]
    simp [IntervalUnion.not_covers_empty]
  · rw [devices, observed]
    rfl

theorem unions_observeRecord (timeline : ActivityTimeline) (source status : String)
    (metadata : SourceMetadata) :
    (timeline.observeRecord (.sourceInfo source status metadata)).devices = timeline.devices ∧
      (timeline.observeRecord (.sourceInfo source status metadata)).observedDevices =
        timeline.observedDevices := by
  simp only [observeRecord, observeRecordingStage, observeCompleteStage]
  split
  · repeat' split
    all_goals exact ⟨rfl, rfl⟩
  · exact ⟨rfl, rfl⟩

theorem observeCompleteStage_expects (timeline : ActivityTimeline) {metadata : SourceMetadata}
    {rows : List DeviceCoverage} (complete : metadata.stage = some "complete")
    (listed : metadata.blockActivityDevices = some rows) :
    (timeline.observeCompleteStage metadata).reconstructed = timeline.reconstructed ∧
      ((timeline.observeCompleteStage metadata).expectedPerfetto.isSome = true →
        (timeline.observeCompleteStage metadata).deviceCoverageSupplied = true ∧
        (timeline.observeCompleteStage metadata).expectedDevices = expectedOf rows) := by
  unfold observeCompleteStage
  rw [if_pos complete, listed]
  dsimp only
  by_cases reliable : (metadata.quality.any (·.complete) &&
      decide (metadata.correlationLimitHits = some 0)) = true
  · rw [if_pos reliable]
    refine ⟨?_, fun _ => ⟨rfl, rfl⟩⟩
    split <;> rfl
  · have limited : ¬ (metadata.quality.any (·.complete) &&
        [metadata.unresolvedTiming, metadata.unmatchedIssues, metadata.unpairedRequeues,
          metadata.correlationLimitHits].all (· = some 0)) = true := by
      intro both
      simp only [all_cons, all_nil, Bool.and_true, Bool.and_eq_true,
        decide_eq_true_eq] at both reliable
      exact reliable ⟨both.1, both.2.2.2.2⟩
    rw [if_neg reliable, if_neg limited]
    exact ⟨rfl, fun expected => by cases expected⟩

end ActivityTimeline

theorem activeInterval_completion {projection : Projection} {observation : BlockObservation}
    {io : CompletedIo} (projected : projection.completion observation = .ok io) :
    io.device = observation.device ∧ ActivityTimeline.activeInterval io =
      if observation.clock = 0 then
        observation.issueTimestampNs.map fun start => (start, observation.timestampNs)
      else none := by
  unfold completion at projected
  cases raw : projection.records.lookup observation.completionRecord with
  | none =>
    rw [raw] at projected
    cases projected
  | some event =>
    cases size : Word.tryFrom 32 observation.bytes with
    | none =>
      rw [raw, size] at projected
      cases projected
    | some bytes =>
      rw [raw, size] at projected
      cases projected
      refine ⟨rfl, ?_⟩
      unfold ActivityTimeline.activeInterval CompletedIo.issueTimestamp
        CompletedIo.completionTimestamp
      dsimp only [Option.all_some, Option.elim]
      by_cases clock : observation.clock = 0
      · rw [if_pos (decide_eq_true clock), if_pos clock]
        cases observation.issueTimestampNs <;> rfl
      · rw [if_neg (by simp [clock]), if_neg clock]
        rfl

theorem run_feed_projectCompletions (projection : Projection) (sequence : Nat)
    (completions : List BlockObservation) (timeline : ActivityTimeline) :
    ∃ ios, run ActivityTimeline.feed timeline
        (projectCompletions projection sequence completions).1 =
          run ActivityTimeline.observe timeline ios ∧
      ((projectCompletions projection sequence completions).2 = none →
        List.Forall₂ (fun observation io => projection.completion observation = .ok io)
          completions ios) := by
  induction completions generalizing sequence timeline with
  | nil => exact ⟨[], rfl, fun _ => List.Forall₂.nil⟩
  | cons observation rest hypothesis =>
    rw [projectCompletions]
    cases known : projection.completion observation with
    | error error => exact ⟨[], rfl, fun none_ => by cases none_⟩
    | ok io =>
      obtain ⟨ios, fed, projected⟩ := hypothesis (sequence + 1) (timeline.observe io)
      exact ⟨io :: ios, fed, fun none_ => List.Forall₂.cons known (projected none_)⟩

theorem run_feed_waitRecords (sequence : Nat) (waits : List SchedulerIoWait)
    (timeline : ActivityTimeline) :
    run feed timeline (waitRecords sequence waits) = timeline := by
  unfold waitRecords
  induction waits.zipIdx with
  | nil => rfl
  | cons entry rest hypothesis => exact hypothesis

/-- The timeline that was fed with a source record and then with a projected trace. -/
def projectedTimeline (status : String) (metadata : SourceMetadata) (trace : DecodedTrace)
    (rawTrace : String) : ActivityTimeline :=
  run ActivityTimeline.feed {}
    (.sourceInfo "perfetto" status metadata :: (projectRecords trace rawTrace).1)

section Vouched

variable {status rawTrace : String} {metadata : SourceMetadata} {trace : DecodedTrace}
  {devices : List Device}

def openedTimeline (status : String) (metadata : SourceMetadata) (trace : DecodedTrace)
    (rawTrace : String) : ActivityTimeline :=
  (({} : ActivityTimeline).observeRecord (.sourceInfo "perfetto" status metadata)).observeRecord
    (.sourceInfo "perfetto" (perfettoStatus trace) (completeMetadata trace rawTrace))

theorem follows_openedTimeline (status rawTrace : String) (metadata : SourceMetadata)
    (trace : DecodedTrace) (ios : List CompletedIo) :
    ActivityTimeline.Follows (openedTimeline status metadata trace rawTrace) ios
      (run ActivityTimeline.observe (openedTimeline status metadata trace rawTrace) ios) := by
  obtain ⟨devices, observed⟩ := ActivityTimeline.unions_observeRecord {} "perfetto" status metadata
  refine ActivityTimeline.follows_run _ ?_ ?_ ios
  · unfold openedTimeline
    rw [(ActivityTimeline.unions_observeRecord _ _ _ _).1, devices]
  · unfold openedTimeline
    rw [(ActivityTimeline.unions_observeRecord _ _ _ _).2, observed]

theorem openedTimeline_expects (status rawTrace : String) (metadata : SourceMetadata)
    (trace : DecodedTrace) :
    (openedTimeline status metadata trace rawTrace).reconstructed = false ∧
      ((openedTimeline status metadata trace rawTrace).expectedPerfetto.isSome = true →
        (openedTimeline status metadata trace rawTrace).deviceCoverageSupplied = true ∧
        (openedTimeline status metadata trace rawTrace).expectedDevices =
          expectedOf ((deviceCoverage trace (analyze trace)).orderedValues Device.le)) := by
  have complete : (completeMetadata trace rawTrace).stage = some "complete" := rfl
  have otherStage : ¬ (completeMetadata trace rawTrace).stage = some "recording" := by
    rw [complete]
    decide
  unfold openedTimeline
  generalize ({} : ActivityTimeline).observeRecord (.sourceInfo "perfetto" status metadata) = first
  rw [observeRecord, if_pos rfl, observeRecordingStage,
    if_neg otherStage]
  exact observeCompleteStage_expects _ complete rfl

theorem projectedTimeline_of_reconstructed
    (reconstructed : (projectedTimeline status metadata trace rawTrace).reconstructed = true) :
    ∃ ios, List.Forall₂ (fun observation io =>
        ((new trace).withAnalysis (analyze trace)).completion observation = .ok io)
        (analyze trace).completions ios ∧
      ∃ footer, projectedTimeline status metadata trace rawTrace =
        { run ActivityTimeline.observe (openedTimeline status metadata trace rawTrace) ios with
          reconstructed := footer } := by
  obtain ⟨ios, fed, projected⟩ := run_feed_projectCompletions
    ((new trace).withAnalysis (analyze trace)) 1 (analyze trace).completions
    (openedTimeline status metadata trace rawTrace)
  cases stopped : (projectCompletions ((new trace).withAnalysis (analyze trace)) 1
      (analyze trace).completions).2 with
  | some error =>
    have cut : projectedTimeline status metadata trace rawTrace =
        run ActivityTimeline.observe (openedTimeline status metadata trace rawTrace) ios := by
      rw [← fed]
      unfold projectedTimeline projectRecords
      dsimp only
      rw [stopped]
      rfl
    have follows := follows_openedTimeline status rawTrace metadata trace ios
    have unchanged := congrArg (·.2.2.1) follows.provenance
    have unvouched := (openedTimeline_expects status rawTrace metadata trace).1
    rw [cut] at reconstructed
    cases reconstructed.symm.trans (unchanged.trans unvouched)
  | none =>
    refine ⟨ios, projected stopped, ?_⟩
    unfold projectedTimeline projectRecords
    dsimp only
    rw [stopped]
    rw [← cons_append, run_append, ← cons_append, run_append, run_feed_waitRecords,
      ← cons_append, run_append, ← fed]
    exact ⟨_, rfl⟩

theorem vouched_device
    (vouched : (projectedTimeline status metadata trace rawTrace).reconstructedFor devices = true)
    {device : Device} (member : device ∈ devices) :
    (expectedOf ((deviceCoverage trace (analyze trace)).orderedValues Device.le)).containsKey
        device = true ∧
      ∃ ios union, List.Forall₂ (fun observation io =>
          ((new trace).withAnalysis (analyze trace)).completion observation = .ok io)
          (analyze trace).completions ios ∧
        (projectedTimeline status metadata trace rawTrace).devices.lookup device = some union ∧
        ∀ instant, union.Covers instant ↔ ∃ io ∈ ios, io.device = device ∧
          ∃ interval, ActivityTimeline.activeInterval io = some interval ∧
            interval.1 ≤ instant ∧ instant < interval.2 := by
  unfold ActivityTimeline.reconstructedFor at vouched
  simp only [Bool.and_eq_true, decide_eq_true_eq, all_eq_true] at vouched
  obtain ⟨⟨⟨⟨reconstructed, counted⟩, -⟩, each⟩, -⟩ := vouched
  have thisOne := each device member
  obtain ⟨ios, projected, footer, fed⟩ := projectedTimeline_of_reconstructed reconstructed
  rw [fed] at counted thisOne
  have follows := follows_openedTimeline status rawTrace metadata trace ios
  have provenance := follows.provenance
  simp only [ActivityTimeline.provenance, Prod.mk.injEq] at provenance
  obtain ⟨-, expected, -, expectedDevices, supplied, -⟩ := provenance
  have some_ : (openedTimeline status metadata trace rawTrace).expectedPerfetto.isSome = true := by
    rw [← expected, counted]
    rfl
  obtain ⟨isSupplied, rows⟩ := (openedTimeline_expects status rawTrace metadata trace).2 some_
  rw [supplied, isSupplied, expectedDevices, rows] at thisOne
  simp only [Bool.not_true, Bool.false_eq_true, if_false, Bool.and_eq_true,
    decide_eq_true_eq] at thisOne
  obtain ⟨⟨same, isExpected⟩, -⟩ := thisOne
  refine ⟨isExpected, ios, ?_⟩
  have isKnown := follows.known device
  unfold containsKey at isKnown isExpected
  rw [← same, isExpected] at isKnown
  obtain ⟨union, found⟩ := Option.isSome_iff_exists.mp isKnown.symm
  refine ⟨union, projected, ?_, fun instant => ?_⟩
  · rw [fed]
    exact found
  · have covers := follows.covers device instant
    rw [found, Option.getD_some] at covers
    exact covers

end Vouched

/-! ### The events of a device -/

/-- The completion was observed with a time, and the time is that of the issue. -/
structure Times (trace : DecodedTrace) (issue complete : BlockEvent) : Prop where
  issued : issue ∈ trace.events
  isIssue : issue.kind = .issue
  completed : complete ∈ trace.events
  isComplete : complete.kind = .complete
  observed : ∃ observation ∈ (analyze trace).completions,
    observation.completionRecord = complete.recordId ∧
    observation.issueCandidates = [issue.recordId] ∧
    observation.issueTimestampNs = some issue.timestampNs

structure Describes (observation : BlockObservation) (complete : BlockEvent) : Prop where
  record : observation.completionRecord = complete.recordId
  device : observation.device = complete.device
  timestamp : observation.timestampNs = complete.timestampNs
  clock : observation.clock = complete.clock

theorem describes_observe (unreliable : Bool) (complete : EventRef) (pending : List Pending) :
    Describes (observe unreliable complete pending) complete.event := by
  rcases observe_cases unreliable complete pending with ⟨_, _, untimed⟩ | ⟨_, _, _, timed⟩
  · rw [untimed]
    exact ⟨rfl, rfl, rfl, rfl⟩
  · rw [timed]
    exact ⟨rfl, rfl, rfl, rfl⟩

section Events

variable {trace : DecodedTrace}

theorem mem_events_of_mem_eventRefs {ref : EventRef} (member : ref ∈ eventRefs trace.events) :
    ref.event ∈ trace.events := by
  rw [← map_event_eventRefs trace.events]
  exact mem_map_of_mem member

theorem consumed_of_mem {issue complete : EventRef}
    (member : (issue, complete) ∈ consumption trace) :
    Consumed (eventRefs trace.events) issue complete :=
  (followed_run trace.quality.compromised (stepsMeet_eventRefs trace.events)).consumed issue
    complete member

theorem observation_cases {observation : BlockObservation}
    (member : observation ∈ (analyze trace).completions) :
    ∃ complete ∈ eventRefs trace.events, complete.event.kind = .complete ∧
      Describes observation complete.event ∧
      (observation.issueTimestampNs = none ∨ ∃ issue, (issue, complete) ∈ consumption trace ∧
        observation.clock = 0 ∧ observation.issueCandidates = [issue.event.recordId] ∧
        observation.issueTimestampNs = some issue.event.timestampNs) := by
  rw [completions_analyze] at member
  obtain ⟨history, complete, rest, split, observes⟩ := mem_collect.mp member
  obtain ⟨isComplete, same⟩ := Option.ite_none_right_eq_some.mp observes
  cases same
  refine ⟨complete, split ▸ (mem_append_right _ mem_cons_self), isComplete,
    describes_observe _ _ _, ?_⟩
  rcases observe_cases trace.quality.compromised complete
    ((run (step trace.quality.compromised) {} history).pending.listAt complete.key) with
    ⟨_, _, untimed⟩ | ⟨entry, taken, matched, timed⟩
  · rw [untimed]
    exact .inl rfl
  · have consumes : (run (step trace.quality.compromised) {} history).consumes complete =
        some (entry.issue, complete) := by
      unfold consumes
      rw [if_pos isComplete, taken]
      rfl
    rw [timed]
    exact .inr ⟨entry.issue, mem_collect.mpr ⟨history, complete, rest, split, consumes⟩,
      (judge_eq_matched matched).2.1.1, rfl, rfl⟩

theorem observation_of_consumed {issue complete : EventRef}
    (taken : (issue, complete) ∈ consumption trace) :
    ∃ observation ∈ (analyze trace).completions, Describes observation complete.event ∧
      (observation.issueTimestampNs = none ∨
        observation.issueCandidates = [issue.event.recordId]) := by
  obtain ⟨history, ref, rest, split, consumes⟩ := mem_collect.mp taken
  obtain ⟨isComplete, found⟩ := Option.ite_none_right_eq_some.mp consumes
  obtain ⟨entry, isTaken, same⟩ := Option.map_eq_some_iff.mp found
  cases same
  refine ⟨observe trace.quality.compromised complete
    ((run (step trace.quality.compromised) {} history).pending.listAt complete.key), ?_,
    describes_observe _ _ _, ?_⟩
  · rw [completions_analyze]
    refine mem_collect.mpr ⟨history, complete, rest, split, ?_⟩
    unfold observes
    rw [if_pos isComplete]
  · rw [observe_of_taken _ isTaken]
    split
    · exact .inr rfl
    · exact .inl rfl

theorem times_of_observation {observation : BlockObservation}
    (member : observation ∈ (analyze trace).completions)
    (timed : observation.issueTimestampNs.isSome = true) :
    ∃ issue complete, Times trace issue complete ∧ Describes observation complete ∧
      observation.clock = 0 ∧ observation.issueCandidates = [issue.recordId] ∧
      observation.issueTimestampNs = some issue.timestampNs := by
  obtain ⟨complete, completed, isComplete, describes, untimed | ⟨issue, taken, clock, candidate,
    timestamp⟩⟩ := observation_cases member
  · rw [untimed] at timed
    cases timed
  · have consumed := consumed_of_mem taken
    exact ⟨issue.event, complete.event,
      ⟨mem_events_of_mem_eventRefs consumed.issued, consumed.isIssue,
        mem_events_of_mem_eventRefs completed, isComplete,
        ⟨observation, member, describes.record, candidate, timestamp⟩⟩,
      describes, clock, candidate, timestamp⟩

theorem eq_of_recordId (unique : (trace.events.map (·.recordId)).Nodup) {first second : BlockEvent}
    (firstMember : first ∈ trace.events) (secondMember : second ∈ trace.events)
    (same : first.recordId = second.recordId) : first = second :=
  inj_on_of_nodup_map unique firstMember secondMember same

end Events

/-- Every completion of the device has its issue, every issue its completion, and the union is
that of the times between them. -/
structure DeviceCovered (trace : DecodedTrace) (device : Device) (union : IntervalUnion) :
    Prop where
  completions : ∀ complete ∈ trace.events, complete.kind = .complete → complete.device = device →
    ∃ issue, Times trace issue complete
  issues : ∀ issue ∈ trace.events, issue.kind = .issue → issue.device = device →
    (analyze trace).completions.countP (·.timedBy issue.recordId) = 1
  covers : ∀ instant, union.Covers instant ↔ ∃ issue complete, Times trace issue complete ∧
    complete.device = device ∧ issue.timestampNs ≤ instant ∧ instant < complete.timestampNs

section Paired

variable {trace : DecodedTrace} {device : Device}
  (unique : (trace.events.map (·.recordId)).Nodup)
  (timed : ∀ observation ∈ (analyze trace).completions, observation.device = device →
    observation.issueTimestampNs.isSome = true)

include unique timed

theorem completion_timed {complete : BlockEvent} (member : complete ∈ trace.events)
    (isComplete : complete.kind = .complete) (ofDevice : complete.device = device) :
    ∃ issue, Times trace issue complete := by
  have observed : complete.recordId ∈ (analyze trace).completions.map (·.completionRecord) := by
    rw [completionRecords_analyze]
    exact mem_map_of_mem (mem_filter.mpr ⟨member, decide_eq_true isComplete⟩)
  obtain ⟨observation, found, record⟩ := mem_map.mp observed
  obtain ⟨ref, inTrace, -, describes, -⟩ := observation_cases found
  have same : ref.event = complete := eq_of_recordId unique
    (mem_events_of_mem_eventRefs inTrace) member (describes.record.symm.trans record)
  have atDevice : observation.device = device := by
    rw [describes.device, same, ofDevice]
  obtain ⟨issue, other, times, describesOther, -⟩ :=
    times_of_observation found (timed observation found atDevice)
  have sameOther : other = complete := eq_of_recordId unique times.completed member
    (describesOther.record.symm.trans record)
  exact ⟨issue, sameOther ▸ times⟩

theorem issue_taken_once {issue : BlockEvent} (member : issue ∈ trace.events)
    (isIssue : issue.kind = .issue) (ofDevice : issue.device = device)
    (matched : ∀ recordId ∈ (analyze trace).unmatchedIssueRecords, ∀ event,
      (ofEach (·.recordId) trace.events).lookup recordId = some event →
        event.device ≠ device) :
    (analyze trace).completions.countP (·.timedBy issue.recordId) = 1 := by
  obtain ⟨listed, names, accounted⟩ := perm_issues trace
  have waits : issue ∈ ((eventRefs trace.events).filter (·.event.kind = .issue)).map (·.event) := by
    rw [filter_eventRefs]
    exact mem_filter.mpr ⟨member, decide_eq_true isIssue⟩
  obtain ⟨ref, arrived, rfl⟩ := mem_map.mp waits
  rcases mem_append.mp (accounted.symm.subset arrived) with taken | unmatched
  · obtain ⟨⟨other, complete⟩, pair, rfl⟩ := mem_map.mp taken
    have sameDevice : complete.event.deviceEncoded = other.event.deviceEncoded :=
      congrArg Prod.fst (consumed_of_mem pair).sameKey
    obtain ⟨observation, found, describes, timedBy⟩ := observation_of_consumed pair
    have atDevice : observation.device = device := by
      rw [describes.device, ← ofDevice]
      unfold BlockEvent.device
      rw [sameDevice]
    have isTimed := timed observation found atDevice
    rcases timedBy with untimed | candidate
    · rw [untimed] at isTimed
      cases isTimed
    · have total := issue_accounted unique member isIssue
      have positive : 0 < (analyze trace).completions.countP (·.timedBy other.event.recordId) := by
        refine countP_pos_iff.mpr ⟨observation, found, ?_⟩
        unfold BlockObservation.timedBy
        rw [isTimed, candidate, decide_eq_true rfl]
        rfl
      dsimp only at total ⊢
      omega
  · refine absurd ofDevice (matched ref.event.recordId ?_ ref.event
      (lookup_ofEach unique member))
    rw [names]
    exact mem_map_of_mem unmatched

end Paired

theorem exists_of_forall₂ {First Second : Type} {relation : First → Second → Prop}
    {firsts : List First} {seconds : List Second}
    (related : Forall₂ relation firsts seconds) {first : First} (member : first ∈ firsts) :
    ∃ second ∈ seconds, relation first second := by
  obtain ⟨index, found⟩ := mem_iff_getElem?.mp member
  obtain ⟨second, stands, holds⟩ := forall₂_getElem? related found
  exact ⟨second, mem_of_getElem? stands, holds⟩

theorem covers_iff_times {device : Device} {projection : Projection} {ios : List CompletedIo}
    (unique : (trace.events.map (·.recordId)).Nodup)
    (projected : Forall₂ (fun observation io => projection.completion observation = .ok io)
      (analyze trace).completions ios)
    (instant : U64) :
    (∃ io ∈ ios, io.device = device ∧ ∃ interval,
      activeInterval io = some interval ∧
        interval.1 ≤ instant ∧ instant < interval.2) ↔
      ∃ issue complete, Times trace issue complete ∧ complete.device = device ∧
        issue.timestampNs ≤ instant ∧ instant < complete.timestampNs := by
  constructor
  · rintro ⟨io, member, ofDevice, interval, active, inside⟩
    obtain ⟨observation, observed, known⟩ := exists_of_forall₂ projected.flip member
    obtain ⟨sameDevice, times⟩ := activeInterval_completion known
    rw [times] at active
    obtain ⟨-, timed⟩ := Option.ite_none_right_eq_some.mp active
    obtain ⟨start, stamped, rfl⟩ := Option.map_eq_some_iff.mp timed
    obtain ⟨issue, complete, issueTimes, describes, -, -, issued⟩ :=
      times_of_observation observed (by rw [stamped]; rfl)
    cases stamped.symm.trans issued
    refine ⟨issue, complete, issueTimes, ?_, inside.1, ?_⟩
    · rw [← describes.device, ← sameDevice, ofDevice]
    · rw [← describes.timestamp]
      exact inside.2
  · rintro ⟨issue, complete, times, ofDevice, inside⟩
    obtain ⟨observation, observed, record, -, timestamp⟩ := times.observed
    obtain ⟨io, member, known⟩ := exists_of_forall₂ projected observed
    obtain ⟨sameDevice, active⟩ := activeInterval_completion known
    obtain ⟨_, other, otherTimes, describes, clock, -⟩ :=
      times_of_observation observed (by rw [timestamp]; rfl)
    have same : other = complete := eq_of_recordId unique otherTimes.completed times.completed
      (describes.record.symm.trans record)
    subst same
    rw [if_pos clock, timestamp] at active
    refine ⟨io, member, ?_, _, active, inside.1, ?_⟩
    · rw [sameDevice, describes.device, ofDevice]
    · dsimp only
      rw [describes.timestamp]
      exact inside.2

/-- In a trace with unique record ids a timeline that was fed with the source record of a
recording and with the records of the trace vouches only for devices whose completions all have
their issue, whose issues all time exactly one completion, and whose union is exactly that of the
times from issue to completion. -/
theorem reconstructed_devices_are_covered (trace : DecodedTrace)
    (unique : (trace.events.map (·.recordId)).Nodup) (status rawTrace : String)
    (metadata : SourceMetadata) (devices : List Device)
    (vouched : (projectedTimeline status metadata trace rawTrace).reconstructedFor devices = true) :
    ∀ device ∈ devices, ∃ union,
      (projectedTimeline status metadata trace rawTrace).devices.lookup device = some union ∧
        DeviceCovered trace device union := by
  intro device member
  obtain ⟨expected, ios, union, projected, found, covers⟩ := vouched_device vouched member
  obtain ⟨timed, matched⟩ := paired_of_expected expected
  refine ⟨union, found, ⟨fun complete inTrace isComplete ofDevice => ?_,
    fun issue inTrace isIssue ofDevice => ?_, fun instant => ?_⟩⟩
  · exact completion_timed unique timed inTrace isComplete ofDevice
  · exact issue_taken_once unique timed inTrace isIssue ofDevice matched
  · exact (covers instant).trans (covers_iff_times unique projected instant)

def recordingMetadata : SourceMetadata where
  stage := some "recording"
  blockActivityScope := some "unfiltered_issue_complete_v1"

def losslessQuality : TraceQuality where
  packets := 1
  ftraceStartSeen := true
  ftraceEndSeen := true
  kernelStart := (∅ : Table U64 KernelCounters).insert 0 ⟨some 0, some 0, some 0⟩
  kernelEnd := (∅ : Table U64 KernelCounters).insert 0 ⟨some 0, some 0, some 0⟩
  serviceStatsSeen := true
  serviceLossCounters := (∅ : Table String U64).insert "buffer_0_chunks_overwritten" 0
  finalFlushOutcome := some 1

theorem reconstructed_devices_are_covered_read :
    let trace : DecodedTrace :=
      { events := [pageEvent 1 .issue 200, pageEvent 2 .complete 300], quality := losslessQuality }
    (projectedTimeline "" recordingMetadata trace "").reconstructedFor [(8, 0)] = true ∧
      ∃ union, (projectedTimeline "" recordingMetadata trace "").devices.lookup (8, 0) =
        some union ∧ DeviceCovered trace (8, 0) union := by
  intro trace
  have unique : (trace.events.map (·.recordId)).Nodup := by decide
  have vouched : (projectedTimeline "" recordingMetadata trace "").reconstructedFor [(8, 0)] =
      true := by
    decide +kernel
  exact ⟨vouched, reconstructed_devices_are_covered trace unique "" "" recordingMetadata [(8, 0)]
    vouched (8, 0) mem_cons_self⟩

/-- Two events with one id: the issue that is left over on device 8:0 has the id of a later
insert on another device, so the other device is charged for it. The timeline vouches for 8:0,
although one of its issues times no completion. -/
theorem reconstruction_misses_issue :
    let trace : DecodedTrace :=
      { events := [pageEvent 1 .issue 200, pageEvent 2 .complete 300,
          { pageEvent 3 .issue 400 with sector := 4096 },
          { pageEvent 3 .insert 500 with deviceEncoded := 2064 }]
        quality := losslessQuality }
    (projectedTimeline "" recordingMetadata trace "").reconstructedFor [(8, 0)] = true ∧
      ∃ issue ∈ trace.events, issue.kind = .issue ∧ issue.device = (8, 0) ∧
        (analyze trace).completions.countP (·.timedBy issue.recordId) = 0 := by
  refine ⟨by decide +kernel, _, mem_cons_of_mem _ (mem_cons_of_mem _ mem_cons_self),
    rfl, by decide +kernel, by decide +kernel⟩

end EbpfStudio
