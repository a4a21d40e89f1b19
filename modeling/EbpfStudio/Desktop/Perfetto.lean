/-
This file models how the desktop matches the block events of a Perfetto trace.

The trace has no request ids. An issue waits in a list of its device and operation until a
completion takes it. A completion gets a time if one issue alone overlaps it, with the same range,
and nothing contradicts the pair. Otherwise it is listed with the reason, and what is left over at
the end is listed as unmatched.
-/

import EbpfStudio.Library.Run
import EbpfStudio.Library.Table
import EbpfStudio.Protocol.Event

namespace EbpfStudio

open Run

def maxPendingPerDevice : Nat := 4096

inductive BlockKind where
  | issue | complete | insert | requeue
  deriving DecidableEq

/-- A block event of a trace. -/
structure BlockEvent where
  recordId : U64
  kind : BlockKind
  timestampNs : U64
  cpu : Option U32
  tid : Option U32
  deviceEncoded : U64
  sector : U64
  sectors : U32
  bytes : U64
  rwbs : String
  comm : Option String
  error : Option Int
  clock : U32
  deriving DecidableEq

abbrev RangeKey := U64 × Char

instance lawfulBEqRangeKey : LawfulBEq RangeKey := inferInstance

def RangeKey.le (first second : RangeKey) : Prop :=
  first.1 < second.1 ∨ first.1 = second.1 ∧ first.2.val ≤ second.2.val

instance : DecidableRel RangeKey.le := fun _ _ => by unfold RangeKey.le; infer_instance

namespace BlockEvent

def operation (event : BlockEvent) : Char := event.rwbs.toList.head?.getD '?'

def key (event : BlockEvent) : RangeKey := (event.deviceEncoded, event.operation)

def overlaps (event other : BlockEvent) : Bool :=
  if event.sectors = 0 || other.sectors = 0 then event.sector = other.sector
  else event.sector < other.sector.saturatingAdd other.sectors.val &&
    other.sector < event.sector.saturatingAdd event.sectors.val

def sameRange (event other : BlockEvent) : Bool :=
  event.sector = other.sector && event.sectors = other.sectors

end BlockEvent

structure KernelCounters where
  overrun : Option U64
  commitOverrun : Option U64
  droppedEvents : Option U64
  deriving DecidableEq

def KernelCounters.toList (counters : KernelCounters) : List (Option U64) :=
  [counters.overrun, counters.commitOverrun, counters.droppedEvents]

structure TraceQuality where
  packets : U64 := 0
  lostBundles : U64 := 0
  parseErrors : U64 := 0
  unsupportedClocks : List U32 := []
  unknownEvents : List String := []
  failedEvents : List String := []
  diagnostics : List String := []
  ftraceStartSeen : Bool := false
  ftraceEndSeen : Bool := false
  kernelStart : Table U64 KernelCounters := ∅
  kernelEnd : Table U64 KernelCounters := ∅
  truncated : Bool := false
  projectionLimited : Bool := false
  serviceStatsSeen : Bool := false
  serviceLossCounters : Table String U64 := ∅
  finalFlushOutcome : Option U64 := none

namespace TraceQuality

def addGrowth (sum : U64) (counters : Option U64 × Option U64) : Option U64 := do
  let finish ← counters.2
  let start ← counters.1
  let growth ← finish.checkedSub start
  sum.checkedAdd growth.val

def kernelLostEvents (quality : TraceQuality) : Option U64 :=
  if !quality.ftraceStartSeen || !quality.ftraceEndSeen || quality.kernelEnd.size = 0 then none
  else
    quality.kernelEnd.toPairs.foldlM (fun sum entry => do
      let start ← quality.kernelStart.lookup entry.1
      (start.toList.zip entry.2.toList).foldlM addGrowth sum) 0

def compromised (quality : TraceQuality) : Bool :=
  quality.truncated || quality.projectionLimited || decide (0 < quality.lostBundles) ||
    decide (0 < quality.parseErrors) ||
    quality.kernelLostEvents.any (fun lost => 0 < lost) ||
    quality.serviceLossCounters.toPairs.any (fun entry => 0 < entry.2) ||
    quality.finalFlushOutcome = some 2

end TraceQuality

structure ProcessMetadata where
  snapshotNs : Option U64
  pid : U32
  tid : Option U32
  name : String
  startFromBootNs : Option U64
  deriving DecidableEq

/-- What was decoded of a trace. -/
structure DecodedTrace where
  schedulerWaits : List SchedulerIoWait := []
  events : List BlockEvent := []
  processes : List ProcessMetadata := []
  quality : TraceQuality := {}

structure EventRef where
  position : Nat
  event : BlockEvent
  deriving DecidableEq

def eventRefs (events : List BlockEvent) : List EventRef :=
  events.zipIdx.map fun entry => ⟨entry.2, entry.1⟩

namespace EventRef

abbrev key (ref : EventRef) : RangeKey := ref.event.key

abbrev overlaps (ref other : EventRef) : Bool := ref.event.overlaps other.event

abbrev sameRange (ref other : EventRef) : Bool := ref.event.sameRange other.event

end EventRef

/-- A completion, with what is known of its issue. -/
structure BlockObservation where
  completionRecord : U64
  timestampNs : U64
  deviceEncoded : U64
  sector : U64
  bytes : U64
  rwbs : String
  error : Option Int
  clock : U32
  issueCandidates : List U64
  issueTimestampNs : Option U64
  issuerTid : Option U32
  issuerComm : Option String
  deviceLatencyNs : Option U64
  queueLatencyNs : Option U64
  timingConfidence : String
  reason : String
  deriving DecidableEq

/-- The result of the matching. -/
structure BlockAnalysis where
  completions : List BlockObservation := []
  unmatchedIssueRecords : List U64 := []
  orphanInsertRecords : List U64 := []
  unpairedRequeueRecords : List U64 := []
  correlationLimitHits : Nat := 0
  deriving DecidableEq

/-- An issue that waits. -/
structure Pending where
  issue : EventRef
  insert : Option EventRef
  compromised : Bool
  deriving DecidableEq

/-- The state of the matching. -/
structure Analyzer where
  out : BlockAnalysis := {}
  pending : Table RangeKey (List Pending) := ∅
  inserted : Table RangeKey (List EventRef) := ∅
  limited : List RangeKey := []

inductive MatchReason where
  | noCandidate | severalCandidates | touched | unreliableTrace | unsupportedClock
  | unorderedTimestamps | matched
  deriving DecidableEq

def MatchReason.text : MatchReason → String
  | noCandidate => "No observed issue candidate; raw completion volume and address retained"
  | severalCandidates =>
    "Multiple overlapping issue candidates; no arbitrary issuer or latency assigned"
  | touched =>
    "Overlapping, repeated, partial or requeued request; timing and issuer unresolved"
  | unreliableTrace => "Trace loss, corruption or projection limit makes issue/completion " ++
      "matching unreliable"
  | unsupportedClock => "Unsupported ftrace clock; cross-CPU timing is unavailable"
  | unorderedTimestamps => "Equal or reversed timestamps do not establish event order"
  | matched => "Unique observed device/sector/size/direction match; Perfetto provides no " ++
      "kernel request ID. FilePath unavailable"

def judge (unreliable : Bool) (complete : BlockEvent) (candidate : Pending) : MatchReason :=
  if candidate.compromised || !candidate.issue.event.sameRange complete then .touched
  else if unreliable then .unreliableTrace
  else if complete.clock ≠ 0 || candidate.issue.event.clock ≠ 0 then .unsupportedClock
  else if complete.timestampNs ≤ candidate.issue.event.timestampNs then .unorderedTimestamps
  else .matched

/-- What is known of a completion without its issue: the event itself, the candidates and why none
of them times it. -/
def observation (complete : BlockEvent) (candidates : List Pending) (reason : MatchReason) :
    BlockObservation where
  completionRecord := complete.recordId
  timestampNs := complete.timestampNs
  deviceEncoded := complete.deviceEncoded
  sector := complete.sector
  bytes := complete.bytes
  rwbs := complete.rwbs
  error := complete.error
  clock := complete.clock
  issueCandidates := candidates.map (·.issue.event.recordId)
  issueTimestampNs := none
  issuerTid := none
  issuerComm := none
  deviceLatencyNs := none
  queueLatencyNs := none
  timingConfidence := "Unresolved"
  reason := reason.text

def matchedObservation (complete : BlockEvent) (candidate : Pending) : BlockObservation :=
  let issue := candidate.issue.event
  { observation complete [candidate] .matched with
    issueTimestampNs := some issue.timestampNs
    issuerTid := issue.tid
    issuerComm := issue.comm
    deviceLatencyNs := some (complete.timestampNs.saturatingSub issue.timestampNs.val)
    queueLatencyNs := (candidate.insert.filter fun insert =>
      insert.event.clock = 0 && insert.event.timestampNs < issue.timestampNs).map fun insert =>
        issue.timestampNs.saturatingSub insert.event.timestampNs.val
    timingConfidence := "Probable" }

def candidates (event : EventRef) (pending : List Pending) : List Pending :=
  pending.filter (·.issue.overlaps event)

/-- Mark the issues that an event touches. -/
def compromise (event : EventRef) (pending : List Pending) : List Pending :=
  pending.map fun entry =>
    if entry.issue.overlaps event then { entry with compromised := true } else entry

/-- The pending issue a completion takes away: the only candidate, if it has the same range. -/
def takenBy (complete : EventRef) (pending : List Pending) : Option Pending :=
  match candidates complete pending with
  | [candidate] => if candidate.issue.sameRange complete then some candidate else none
  | _ => none

/-- The pending issues after a completion. Without its only candidate, the list has no issue
that overlaps it. -/
def settle (complete : EventRef) (pending : List Pending) : List Pending :=
  if (takenBy complete pending).isSome then
    pending.filter fun entry => !entry.issue.overlaps complete
  else compromise complete pending

def observe (unreliable : Bool) (complete : EventRef) (pending : List Pending) :
    BlockObservation :=
  match candidates complete pending with
  | [] => observation complete.event [] .noCandidate
  | [candidate] =>
    let reason := judge unreliable complete.event candidate
    if reason = .matched then matchedObservation complete.event candidate
    else observation complete.event [candidate] reason
  | several => observation complete.event several .severalCandidates

/-- The insert an issue takes away: the only one that overlaps it, if it has the same range. -/
def insertOf (issue : EventRef) (inserted : List EventRef) : Option EventRef :=
  match inserted.filter (·.overlaps issue) with
  | [insert] => if insert.sameRange issue then some insert else none
  | _ => none

def withoutInsertOf (issue : EventRef) (inserted : List EventRef) : List EventRef :=
  if (insertOf issue inserted).isSome then inserted.filter fun entry => !entry.overlaps issue
  else inserted

namespace Analyzer

def onInsert (analyzer : Analyzer) (insert : EventRef) : Analyzer :=
  let list := analyzer.inserted.listAt insert.key
  if maxPendingPerDevice ≤ list.length then
    { analyzer with
      out := { analyzer.out with
        orphanInsertRecords :=
          analyzer.out.orphanInsertRecords ++ list.map (·.event.recordId)
        correlationLimitHits := analyzer.out.correlationLimitHits + 1 }
      limited := insert.key :: analyzer.limited
      inserted := analyzer.inserted.insert insert.key [insert] }
  else { analyzer with inserted := analyzer.inserted.insert insert.key (list ++ [insert]) }

def onIssue (analyzer : Analyzer) (issue : EventRef) : Analyzer :=
  let inserts := analyzer.inserted.listAt issue.key
  let insert := insertOf issue inserts
  let inserted := analyzer.inserted.insert issue.key (withoutInsertOf issue inserts)
  let list := analyzer.pending.listAt issue.key
  let compromised := decide (issue.key ∈ analyzer.limited) || list.any (·.issue.overlaps issue)
  let list := compromise issue list
  if maxPendingPerDevice ≤ list.length then
    { analyzer with
      out := { analyzer.out with
        unmatchedIssueRecords :=
          analyzer.out.unmatchedIssueRecords ++ list.map (·.issue.event.recordId)
        correlationLimitHits := analyzer.out.correlationLimitHits + 1 }
      limited := issue.key :: analyzer.limited
      inserted := inserted
      pending := analyzer.pending.insert issue.key [⟨issue, insert, true⟩] }
  else
    { analyzer with
      inserted := inserted
      pending := analyzer.pending.insert issue.key (list ++ [⟨issue, insert, compromised⟩]) }

def onRequeue (analyzer : Analyzer) (requeue : EventRef) : Analyzer :=
  let list := analyzer.pending.listAt requeue.key
  { analyzer with
    out := { analyzer.out with
      unpairedRequeueRecords := analyzer.out.unpairedRequeueRecords ++
        if list.any (·.issue.overlaps requeue) then [] else [requeue.event.recordId] }
    pending := analyzer.pending.insert requeue.key (compromise requeue list) }

def onComplete (unreliable : Bool) (analyzer : Analyzer) (complete : EventRef) : Analyzer :=
  let list := analyzer.pending.listAt complete.key
  { analyzer with
    out := { analyzer.out with
      completions := analyzer.out.completions ++ [observe unreliable complete list] }
    pending := analyzer.pending.insert complete.key (settle complete list) }

def step (unreliable : Bool) (analyzer : Analyzer) (ref : EventRef) : Analyzer :=
  match ref.event.kind with
  | .insert => analyzer.onInsert ref
  | .issue => analyzer.onIssue ref
  | .requeue => analyzer.onRequeue ref
  | .complete => analyzer.onComplete unreliable ref

def finish (analyzer : Analyzer) : BlockAnalysis :=
  { analyzer.out with
    unmatchedIssueRecords := analyzer.out.unmatchedIssueRecords ++
      (analyzer.pending.orderedValues RangeKey.le).flatten.map (·.issue.event.recordId)
    orphanInsertRecords := analyzer.out.orphanInsertRecords ++
      (analyzer.inserted.orderedValues RangeKey.le).flatten.map (·.event.recordId) }

end Analyzer

/-- Match the events of a trace. -/
def analyze (trace : DecodedTrace) : BlockAnalysis :=
  (run (Analyzer.step trace.quality.compromised) {} (eventRefs trace.events)).finish

end EbpfStudio
