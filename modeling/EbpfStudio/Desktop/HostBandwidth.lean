/-
This file models the activity of block devices as the desktop collects it.

A union of intervals is an ordered map from starts to ends. Inserting joins the new interval with
the entry that reaches its start and with those that start before its end. This keeps the entries
apart and covers what was covered before and the new interval.
-/

import EbpfStudio.Desktop.Perfetto
import EbpfStudio.Library.IntervalSet
import EbpfStudio.Protocol.Correlator

namespace EbpfStudio

open List IntervalSet

/-- The entry with the largest start that is not after an instant, if it reaches the instant. -/
def reachedEntry (entries : List (U64 × U64)) (start : U64) : Option (U64 × U64) :=
  (entries.takeWhile fun entry => entry.1 ≤ start).getLast?.filter fun entry => start ≤ entry.2

/-- Insert an interval into an ordered map of intervals: join it with the entry that reaches its
start, and then with the entries that start before its end. -/
def insertInterval (entries : List (U64 × U64)) (start finish : U64) : List (U64 × U64) :=
  if finish ≤ start then entries
  else
    let reached := reachedEntry entries start
    let first := reached.elim start (·.1)
    let last := reached.elim finish fun entry => max finish entry.2
    let kept := reached.elim entries fun entry => entries.filter fun other => other.1 ≠ entry.1
    let joined := absorb last (kept.dropWhile fun entry => entry.1 < first)
    kept.takeWhile (fun entry => entry.1 < first) ++ (first, joined.1) :: joined.2

section Insert

variable {entries : List (U64 × U64)} {start finish : U64} {entry : U64 × U64}

theorem lt_of_mem_dropWhile (separated : Separated entries)
    (member : entry ∈ entries.dropWhile fun entry => entry.1 ≤ start) : start < entry.1 := by
  induction entries with
  | nil => cases member
  | cons first rest hypothesis =>
    have others := separated.sublist (sublist_cons_self first rest)
    rw [dropWhile_cons] at member
    split at member
    · exact hypothesis others member
    · rename_i beyond
      have after : start < first.1 := not_le.mp fun before => beyond (decide_eq_true before)
      rcases mem_cons.mp member with rfl | later
      · exact after
      · calc start
          _ < first.1 := after
          _ < first.2 := separated.proper first mem_cons_self
          _ < entry.1 := rel_of_pairwise_cons separated.apart later

variable {instant : U64}

theorem span_of_split {before after : List (U64 × U64)}
    (early : ∀ entry ∈ before, entry.1 < instant) (late : ∀ entry ∈ after, instant ≤ entry.1) :
    (before ++ after).takeWhile (fun entry => entry.1 < instant) = before ∧
      (before ++ after).dropWhile (fun entry => entry.1 < instant) = after := by
  have starts : ∀ entry ∈ before, decide (entry.1 < instant) = true := fun entry member =>
    decide_eq_true (early entry member)
  rw [takeWhile_append_of_pos starts, dropWhile_append_of_pos starts]
  cases after with
  | nil => exact ⟨append_nil _, rfl⟩
  | cons entry rest =>
    have stops : decide (entry.1 < instant) = false :=
      decide_eq_false (not_lt.mpr (late entry mem_cons_self))
    rw [takeWhile_cons, dropWhile_cons, stops]
    exact ⟨append_nil _, rfl⟩

theorem le_of_mem_takeWhile (member : entry ∈ entries.takeWhile fun entry => entry.1 ≤ start) :
    entry.1 ≤ start := by
  exact of_decide_eq_true (all_eq_true.mp all_takeWhile entry member)

theorem entries_of_unreached (separated : Separated entries)
    (unreached : reachedEntry entries start = none) :
    ∃ before after, entries = before ++ after ∧ (∀ entry ∈ before, entry.2 < start) ∧
      ∀ entry ∈ after, start < entry.1 := by
  refine ⟨_, _, takeWhile_append_dropWhile.symm, fun entry member => ?_,
    fun entry member => lt_of_mem_dropWhile separated member⟩
  unfold reachedEntry at unreached
  rcases eq_nil_or_concat (entries.takeWhile fun entry => entry.1 ≤ start) with
    empty | ⟨before, final, split⟩
  · rw [empty] at member
    cases member
  · have finalBefore : final.2 < start := by
      rw [split, concat_eq_append, List.getLast?_append_cons] at unreached
      simpa [Option.filter_some] using unreached
    have below := separated.sublist
      (takeWhile_sublist fun entry : U64 × U64 => decide (entry.1 ≤ start))
    rw [split, concat_eq_append] at below member
    rcases mem_append.mp member with earlier | last
    · calc entry.2
        _ < final.1 :=
          (pairwise_append.mp below.apart).2.2 entry earlier final mem_cons_self
        _ < final.2 := below.proper final mem_concat_self
        _ < start := finalBefore
    · rw [mem_singleton.mp last]
      exact finalBefore

theorem entries_of_reached (separated : Separated entries) {reached : U64 × U64}
    (reaches : reachedEntry entries start = some reached) :
    ∃ before after, entries = before ++ reached :: after ∧ reached.1 ≤ start ∧
      start ≤ reached.2 ∧ ∀ entry ∈ after, start < entry.1 := by
  obtain ⟨final, touching⟩ := Option.filter_eq_some_iff.mp reaches
  obtain ⟨before, split⟩ := List.getLast?_eq_some_iff.mp final
  refine ⟨before, entries.dropWhile fun entry => entry.1 ≤ start, ?_, ?_,
    of_decide_eq_true touching, fun entry member => lt_of_mem_dropWhile separated member⟩
  · calc entries
      _ = (entries.takeWhile fun entry => entry.1 ≤ start) ++
          entries.dropWhile fun entry => entry.1 ≤ start :=
        takeWhile_append_dropWhile.symm
      _ = before ++ reached :: entries.dropWhile fun entry => entry.1 ≤ start := by
        rw [split, append_assoc, singleton_append]
  · have member : reached ∈ entries.takeWhile fun entry => entry.1 ≤ start := by
      rw [split]
      exact mem_concat_self
    exact le_of_mem_takeWhile member

/-- Where an interval goes in: what lies before it, the interval after it was joined with the
entry that reaches it, and the entries after its start. -/
structure GoesBetween (entries : List (U64 × U64)) (start finish : U64)
    (before after : List (U64 × U64)) (first last : U64) : Prop where
  inserted : insertInterval entries start finish =
    before ++ (first, (absorb last after).1) :: (absorb last after).2
  befores : Separated before
  afters : Separated after
  early : ∀ entry ∈ before, entry.2 < first
  late : ∀ entry ∈ after, first < entry.1
  ordered : first < last
  covered : ∀ instant, (Covers before instant ∨ first ≤ instant ∧ instant < last ∨
    Covers after instant) ↔ Covers entries instant ∨ start ≤ instant ∧ instant < finish

theorem goesBetween_of_unreached (separated : Separated entries) (proper : start < finish)
    (unreached : reachedEntry entries start = none) :
    ∃ before after, GoesBetween entries start finish before after start finish := by
  obtain ⟨before, after, split, early, late⟩ := entries_of_unreached separated unreached
  have starts : ∀ entry ∈ before, entry.1 < start := fun entry member =>
    (separated.proper entry (split ▸ mem_append_left _ member)).trans (early entry member)
  obtain ⟨low, high⟩ := span_of_split starts fun entry member => (late entry member).le
  refine ⟨before, after, ?_, ?_, ?_, early, late, proper, fun instant => ?_⟩
  · unfold insertInterval
    rw [if_neg (not_le.mpr proper), unreached]
    dsimp only [Option.elim]
    rw [split, low, high]
  · exact separated.sublist (split ▸ sublist_append_left _ _)
  · exact separated.sublist (split ▸ sublist_append_right _ _)
  · rw [split, covers_append]
    exact (or_congr_right or_comm).trans or_assoc.symm

theorem joined_iff (begins : entry.1 ≤ start) (reaches : start ≤ entry.2) (instant : U64) :
    entry.1 ≤ instant ∧ instant < max finish entry.2 ↔
      (entry.1 ≤ instant ∧ instant < entry.2) ∨ start ≤ instant ∧ instant < finish := by
  rw [lt_max_iff]
  constructor
  · rintro ⟨first, before | before⟩
    · rcases lt_or_ge instant entry.2 with inside | beyond
      · exact Or.inl ⟨first, inside⟩
      · exact Or.inr ⟨reaches.trans beyond, before⟩
    · exact Or.inl ⟨first, before⟩
  · rintro (⟨first, before⟩ | ⟨first, before⟩)
    · exact ⟨first, Or.inr before⟩
    · exact ⟨begins.trans first, Or.inl before⟩

section

variable (separated : Separated entries)
include separated

theorem goesBetween_of_reached (proper : start < finish)
    (reached : reachedEntry entries start = some entry) :
    ∃ before after,
      GoesBetween entries start finish before after entry.1 (max finish entry.2) := by
  obtain ⟨before, after, split, begins, reaches, late⟩ := entries_of_reached separated reached
  have apart := pairwise_append.mp (split ▸ separated.apart)
  have early : ∀ other ∈ before, other.2 < entry.1 := fun other member =>
    apart.2.2 other member entry mem_cons_self
  have starts : ∀ other ∈ before, other.1 < entry.1 := fun other member =>
    (separated.proper other (split ▸ mem_append_left _ member)).trans (early other member)
  have later : ∀ other ∈ after, entry.1 < other.1 := fun other member =>
    begins.trans_lt (late other member)
  obtain ⟨low, high⟩ := span_of_split starts fun other member => (later other member).le
  have kept : (before ++ entry :: after).filter (fun other => other.1 ≠ entry.1) =
      before ++ after := by
    rw [filter_append, filter_cons_of_neg (by simp),
      filter_eq_self.mpr fun other member => decide_eq_true (starts other member).ne,
      filter_eq_self.mpr fun other member => decide_eq_true (later other member).ne']
  refine ⟨before, after, ?_, ?_, ?_, early, later, ?_, fun instant => ?_⟩
  · unfold insertInterval
    rw [if_neg (not_le.mpr proper), reached]
    dsimp only [Option.elim]
    rw [split, kept, low, high]
  · exact separated.sublist (split ▸ sublist_append_left _ _)
  · exact separated.sublist (split ▸ (sublist_cons_self _ _).trans
      (sublist_append_right _ _))
  · exact begins.trans_lt (proper.trans_le (le_max_left _ _))
  · rw [split, covers_append, covers_cons, joined_iff begins reaches]
    exact (or_congr_right or_right_comm).trans or_assoc.symm

theorem exists_goesBetween (proper : start < finish) :
    ∃ before after first last, GoesBetween entries start finish before after first last := by
  cases reached : reachedEntry entries start with
  | none =>
    obtain ⟨before, after, goes⟩ := goesBetween_of_unreached separated proper reached
    exact ⟨before, after, _, _, goes⟩
  | some entry =>
    obtain ⟨before, after, goes⟩ := goesBetween_of_reached separated proper reached
    exact ⟨before, after, _, _, goes⟩

theorem separated_insertInterval :
    Separated (insertInterval entries start finish) := by
  rcases le_or_gt finish start with improper | proper
  · unfold insertInterval
    rw [if_pos improper]
    exact separated
  · obtain ⟨before, after, first, last, goes⟩ := exists_goesBetween separated proper
    rw [goes.inserted]
    have joined := separated_absorb goes.ordered goes.afters
    refine goes.befores.append joined fun entry member other later => ?_
    rcases mem_cons.mp later with rfl | rest
    · exact goes.early entry member
    · calc entry.2
        _ < first := goes.early entry member
        _ < (absorb last after).1 := joined.proper (first, _) mem_cons_self
        _ < other.1 := rel_of_pairwise_cons joined.apart rest

theorem covers_insertInterval :
    Covers (insertInterval entries start finish) instant ↔
      Covers entries instant ∨ start ≤ instant ∧ instant < finish := by
  rcases le_or_gt finish start with improper | proper
  · unfold insertInterval
    rw [if_pos improper]
    refine ⟨Or.inl, fun covered => covered.elim id fun inside => ?_⟩
    exact absurd (inside.1.trans_lt inside.2) (not_lt.mpr improper)
  · obtain ⟨before, after, first, last, goes⟩ := exists_goesBetween separated proper
    rw [goes.inserted, covers_append,
      covers_absorb (fun entry member => (goes.late entry member).le) goes.ordered.le]
    exact goes.covered instant

end

end Insert

/-- A union of intervals, from their starts to their ends. -/
structure IntervalUnion where
  entries : List (U64 × U64)
  separated : Separated entries

namespace IntervalUnion

def empty : IntervalUnion := ⟨[], separated_nil⟩

/-- Add an interval. -/
def insert (union : IntervalUnion) (start finish : U64) : IntervalUnion where
  entries := insertInterval union.entries start finish
  separated := separated_insertInterval union.separated

/-- The parts of the intervals in a range. -/
def clipped (union : IntervalUnion) (start finish : U64) : List (U64 × U64) :=
  let first := ((union.entries.takeWhile fun entry => entry.1 ≤ start).getLast?).elim start (·.1)
  (union.entries.filter fun entry => first ≤ entry.1 && entry.1 < max finish first).filterMap
    fun entry =>
      let part := (max entry.1 start, min entry.2 finish)
      if part.1 < part.2 then some part else none

/-- The time between two instants that the intervals take. The parts lie between them, so the
sum fits a machine word. -/
def duration (union : IntervalUnion) (start finish : U64) : Nat :=
  if finish ≤ start then 0
  else ((union.clipped start finish).map fun part => part.2.val - part.1.val).sum

/-- An instant is in one of the intervals. -/
def Covers (union : IntervalUnion) (instant : U64) : Prop :=
  IntervalSet.Covers union.entries instant

theorem not_covers_empty (instant : U64) : ¬ empty.Covers instant := by
  rintro ⟨entry, member, -⟩
  cases member

theorem covers_insert (union : IntervalUnion) {start finish instant : U64} :
    (union.insert start finish).Covers instant ↔
      union.Covers instant ∨ start ≤ instant ∧ instant < finish :=
  covers_insertInterval union.separated

end IntervalUnion

def CompletedIo.device (io : CompletedIo) : Device :=
  (io.issue.deviceMajor, io.issue.deviceMinor)

/-- What a trace says of the completions of a device. -/
structure DeviceCoverage where
  device : Device
  completions : Nat := 0
  unresolved : Nat := 0
  unmatched : Nat := 0
  requeues : Nat := 0
  deriving DecidableEq

/-- The metadata of a source. A key that is absent, or whose value has another type than the one
that is read, is `none`. -/
structure SourceMetadata where
  stage : Option String := none
  blockActivityScope : Option String := none
  rawTrace : Option String := none
  quality : Option TraceQuality := none
  blockActivityDevices : Option (List DeviceCoverage) := none
  blockRecords : Option Nat := none
  completionObservations : Option Nat := none
  schedulerIowaitEvents : Option Nat := none
  schedulerIowaitScope : Option String := none
  unresolvedTiming : Option Nat := none
  unmatchedIssues : Option Nat := none
  orphanInserts : Option Nat := none
  unpairedRequeues : Option Nat := none
  correlationLimitHits : Option Nat := none
  filePath : Option String := none

structure ProbeCapabilities where
  bpfSyscall : Bool := false
  btf : Bool := false
  ringBuffer : Bool := false
  blockInsert : Bool := false
  blockIssue : Bool := false
  blockComplete : Bool := false
  fileIo : Bool := false
  exactRequestCorrelation : Bool := false
  exactFileAttribution : Bool := false

/-- A record of a session, as far as the timeline reads it. -/
inductive WireRecord where
  | sourceInfo (source status : String) (metadata : SourceMetadata)
  | capabilities (capabilities : ProbeCapabilities)
  | event (sequence : Nat) (event : StorageEvent)
  | footer (eventsSeen eventsPersisted eventsDropped eventsRejected : Nat)
      (graceful : Option Bool)

/-- What the desktop knows of the activity of the devices. -/
structure ActivityTimeline where
  range : Option (U64 × U64) := none
  devices : Table Device IntervalUnion := ∅
  observedRequests : Nat := 0
  missingIssue : Nat := 0
  verifiedComplete : Bool := false
  limitation : Option String := none
  unfilteredPerfetto : Bool := false
  expectedPerfetto : Option Nat := none
  reconstructed : Bool := false
  expectedDevices : Table Device Nat := ∅
  deviceCoverageSupplied : Bool := false
  observedDevices : Table Device Nat := ∅
  missingDevices : Table Device Nat := ∅

def TraceQuality.complete (quality : TraceQuality) : Bool :=
  quality.kernelLostEvents = some 0 &&
    quality.kernelStart.size = quality.kernelEnd.size &&
    quality.serviceStatsSeen &&
    quality.serviceLossCounters.size ≠ 0 &&
    quality.serviceLossCounters.toPairs.all (fun entry => entry.2 = 0) &&
    quality.finalFlushOutcome.any (fun outcome => outcome ≤ 1) &&
    decide (0 < quality.packets) &&
    quality.lostBundles = 0 &&
    quality.parseErrors = 0 &&
    !quality.truncated &&
    !quality.projectionLimited &&
    quality.unsupportedClocks.isEmpty &&
    quality.failedEvents.isEmpty &&
    quality.diagnostics.isEmpty &&
    quality.unknownEvents.all fun name =>
      name = "block/block_rq_insert" || name = "block/block_rq_requeue"

/-- The trace has paired all requests of the device. -/
def DeviceCoverage.paired (row : DeviceCoverage) : Bool :=
  row.unresolved = 0 && row.unmatched = 0 && row.requeues = 0

/-- The numbers of completions to expect of the devices that a trace has paired. -/
def expectedOf (rows : List DeviceCoverage) : Table Device Nat :=
  (rows.filter (·.paired)).foldl (fun table row => table.insert row.device row.completions) ∅

namespace ActivityTimeline

/-- The source record at the start of a recording. -/
def observeRecordingStage (timeline : ActivityTimeline) (metadata : SourceMetadata) :
    ActivityTimeline :=
  if metadata.stage = some "recording" then
    { timeline with
      unfilteredPerfetto := metadata.blockActivityScope = some "unfiltered_issue_complete_v1" }
  else timeline

/-- The source record of a decoded trace. -/
def observeCompleteStage (timeline : ActivityTimeline) (metadata : SourceMetadata) :
    ActivityTimeline :=
  if metadata.stage = some "complete" then
    let timeline := { timeline with
      expectedPerfetto := none, expectedDevices := ∅, deviceCoverageSupplied := false }
    let complete := metadata.quality.any (·.complete)
    let counters := [metadata.unresolvedTiming, metadata.unmatchedIssues,
      metadata.unpairedRequeues, metadata.correlationLimitHits]
    let timeline :=
      if complete && counters.all (· = some 0) then
        { timeline with expectedPerfetto := metadata.completionObservations }
      else timeline
    if complete && metadata.correlationLimitHits = some 0 then
      match metadata.blockActivityDevices with
      | some rows =>
        { timeline with
          expectedPerfetto := metadata.completionObservations
          deviceCoverageSupplied := true
          expectedDevices := expectedOf rows }
      | none => timeline
    else timeline
  else timeline

/-- What a record other than an event says. -/
def observeRecord (timeline : ActivityTimeline) : WireRecord → ActivityTimeline
  | .sourceInfo source _ metadata =>
    if source = "perfetto" then
      (({ timeline with reconstructed := false } : ActivityTimeline).observeRecordingStage
        metadata).observeCompleteStage metadata
    else timeline
  | .footer seen persisted dropped rejected graceful =>
    { timeline with
      reconstructed := timeline.unfilteredPerfetto &&
        timeline.expectedPerfetto = some timeline.observedRequests &&
        seen = timeline.observedRequests && persisted = timeline.observedRequests &&
        dropped = 0 && rejected = 0 && graceful = some true }
  | _ => timeline

/-- The timeline vouches for these devices. -/
def reconstructedFor (timeline : ActivityTimeline) (devices : List Device) : Bool :=
  timeline.reconstructed && timeline.expectedPerfetto = some timeline.observedRequests &&
    !devices.isEmpty &&
    (devices.all fun device =>
      if !timeline.deviceCoverageSupplied then timeline.missingIssue = 0
      else timeline.expectedDevices.lookup device = timeline.observedDevices.lookup device &&
        timeline.expectedDevices.containsKey device &&
        (timeline.missingDevices.lookup device).getD 0 = 0) &&
    timeline.limitation.isNone

def observeRange (timeline : ActivityTimeline) (start finish : U64) : ActivityTimeline :=
  { timeline with
    range := some (timeline.range.elim (start, finish) fun range =>
      (min range.1 start, max range.2 finish)) }

/-- The time from issue to completion, if both are known. -/
def activeInterval (io : CompletedIo) : Option (U64 × U64) := do
  let start ← io.issueTimestamp
  let finish ← io.completionTimestamp
  some (start, finish)

/-- Add the interval of a request to its device. -/
def observeInterval (timeline : ActivityTimeline) (io : CompletedIo) : ActivityTimeline :=
  let union := (timeline.devices.lookup io.device).getD .empty
  match activeInterval io with
  | some (start, finish) =>
    { timeline with devices := timeline.devices.insert io.device (union.insert start finish) }
  | none =>
    { timeline with
      devices := timeline.devices.insert io.device union
      missingIssue := timeline.missingIssue + 1
      missingDevices := timeline.missingDevices.alter io.device 0 (· + 1) }

/-- Take in a completed request. -/
def observe (timeline : ActivityTimeline) (io : CompletedIo) : ActivityTimeline :=
  let timeline := match io.startTimestamp, io.completionTimestamp with
    | some start, some finish => timeline.observeRange start finish
    | _, _ => timeline
  ({ timeline with
    observedRequests := timeline.observedRequests + 1
    observedDevices := timeline.observedDevices.alter io.device 0 (· + 1) } :
      ActivityTimeline).observeInterval io

/-- Take in a record. -/
def feed (timeline : ActivityTimeline) (record : WireRecord) : ActivityTimeline :=
  let timeline := timeline.observeRecord record
  match record with
  | .event _ (.observedBlockCompletion io) => timeline.observe io
  | _ => timeline

end ActivityTimeline

end EbpfStudio
