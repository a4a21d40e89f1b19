/-
This file models how a Perfetto trace becomes the records of a session.

Each completion becomes a request with the pattern, gaps and rates of its device, the process that
was known for its thread and the depth of its issue. Behind the requests come the scheduler waits,
between a source record and a footer.
-/

import EbpfStudio.Desktop.HostBandwidth
import EbpfStudio.Protocol.Statistics

namespace EbpfStudio

def deviceNumbers (encoded : U64) : Device :=
  (Word.ofNat 32 (((encoded.val >>> 8) &&& 0xfff) ||| ((encoded.val >>> 32) &&& 0xfffff000)),
    Word.ofNat 32 ((encoded.val &&& 0xff) ||| ((encoded.val >>> 12) &&& 0xffffff00)))

/-- The encoding of the C library, which a trace has. -/
def makedev (major minor : U32) : U64 :=
  Word.ofNat 64 (((major.val &&& 0xfffff000) <<< 32) ||| ((major.val &&& 0xfff) <<< 8) |||
    ((minor.val &&& 0xffffff00) <<< 12) ||| (minor.val &&& 0xff))

theorem deviceNumbers_makedev (major minor : U32) :
    deviceNumbers (makedev major minor) = (major, minor) := by
  have above {number : U32} {place : Nat} (beyond : ¬ place < 32) :
      number.val.testBit place = false :=
    Nat.testBit_lt_two_pow
      (number.isLt.trans_le (Nat.pow_le_pow_right Nat.two_pos (not_lt.mp beyond)))
  refine Prod.ext (Fin.ext (Nat.eq_of_testBit_eq fun place => ?_))
    (Fin.ext (Nat.eq_of_testBit_eq fun place => ?_))
  all_goals
    simp only [deviceNumbers, makedev, Word.ofNat, show 0xfffff000 = (2 ^ 20 - 1) <<< 12 from rfl,
      show 0xfff = 2 ^ 12 - 1 from rfl, show 0xffffff00 = (2 ^ 24 - 1) <<< 8 from rfl,
      show 0xff = 2 ^ 8 - 1 from rfl, Nat.testBit_mod_two_pow, Nat.testBit_or, Nat.testBit_and,
      Nat.testBit_shiftRight, Nat.testBit_shiftLeft, Nat.testBit_two_pow_sub_one]
    by_cases beyond : place < 32 <;> grind

/-- There are as many pairs of numbers as encodings, so no two encodings have one pair. -/
theorem deviceNumbers_inverts_makedev :
    (∀ major minor : U32, deviceNumbers (makedev major minor) = (major, minor)) ∧
      Function.Injective deviceNumbers := by
  have pairs : U64 ≃ Device :=
    (finCongr (show 2 ^ 64 = 2 ^ 32 * 2 ^ 32 by decide)).trans finProdFinEquiv.symm
  have finite : Finite U64 := Finite.intro (Equiv.refl (Fin (2 ^ 64)))
  refine ⟨deviceNumbers_makedev, (Finite.injective_iff_surjective_of_equiv pairs).mpr ?_⟩
  exact fun device => ⟨_, deviceNumbers_makedev device.1 device.2⟩

def BlockEvent.device (event : BlockEvent) : Device := deviceNumbers event.deviceEncoded

def BlockObservation.device (observation : BlockObservation) : Device :=
  deviceNumbers observation.deviceEncoded

def operationOf (rwbs : String) : IoOperation :=
  match rwbs.toList.head? with
  | some 'R' => .read
  | some 'W' => .write
  | some 'D' => .discard
  | some 'F' => .flush
  | _ => .other

inductive ProjectionError where
  | missingCompletion
  | sizeTooLarge (record : U64)
  deriving DecidableEq

def ProjectionError.message : ProjectionError → String
  | missingCompletion => "Missing raw completion evidence"
  | sizeTooLarge record => "Completion " ++ toString record.val ++
      " exceeds the session's 32-bit I/O size representation; raw trace preserved"

def DetailTiming.unknown : DetailTiming where
  issueDepth := none
  issueGapNs := none
  completionGapNs := none
  issueBandwidth := none
  completionBandwidth := none

/-- The last issue and completion of every device, the rates up to them, and the timing of the
events so far. -/
structure TimingPass where
  clocks : Table U64 (Option U64 × Option U64) := ∅
  rolling : Table U64 (RollingRateAccumulator × RollingRateAccumulator) := ∅
  timing : Table U64 DetailTiming := ∅

def BlockEvent.payload (event : BlockEvent) : U64 :=
  if operationOf event.rwbs = .read || operationOf event.rwbs = .write then event.bytes else 0

def TimingPass.visit (pass : TimingPass) (event : BlockEvent) : TimingPass :=
  let device := event.deviceEncoded
  let clocks := (pass.clocks.lookup device).getD (none, none)
  let rates := (pass.rolling.lookup device).getD ({}, {})
  match event.kind with
  | .issue =>
    let gap := clocks.1.map fun last => event.timestampNs.saturatingSub last.val
    let observed := rates.1.observe gap (some event.payload)
    { clocks := pass.clocks.insert device (some event.timestampNs, clocks.2)
      rolling := pass.rolling.insert device (observed.1, rates.2)
      timing := pass.timing.insert event.recordId
        { DetailTiming.unknown with issueGapNs := gap, issueBandwidth := observed.2 } }
  | .complete =>
    let gap := clocks.2.map fun last => event.timestampNs.saturatingSub last.val
    let observed := rates.2.observe gap (some event.payload)
    { clocks := pass.clocks.insert device (clocks.1, some event.timestampNs)
      rolling := pass.rolling.insert device (rates.1, observed.1)
      timing := pass.timing.insert event.recordId
        { DetailTiming.unknown with completionGapNs := gap, completionBandwidth := observed.2 } }
  | .insert | .requeue =>
    { clocks := pass.clocks.insert device clocks
      rolling := pass.rolling.insert device rates
      timing := pass.timing.insert event.recordId .unknown }

def BlockEvent.before (first second : BlockEvent) : Prop :=
  first.timestampNs < second.timestampNs ∨
    first.timestampNs = second.timestampNs ∧ first.recordId ≤ second.recordId

instance : DecidableRel BlockEvent.before := fun _ _ => by
  unfold BlockEvent.before
  infer_instance

def timingOf (events : List BlockEvent) : Table U64 DetailTiming :=
  (((events.filter (·.clock = 0)).insertionSort BlockEvent.before).foldl TimingPass.visit
    {}).timing

def BlockEvent.toIssue (event : BlockEvent) : BlockIssue where
  tsNs := event.timestampNs
  requestId := event.recordId
  deviceMajor := event.device.1
  deviceMinor := event.device.2
  sector := event.sector
  sectors := event.sectors
  bytes := (Word.tryFrom 32 event.bytes).getD (Word.maximum 32)
  operation := operationOf event.rwbs
  pid := 0
  tid := event.tid.getD 0
  cpu := event.cpu.getD 0
  comm := event.comm.getD ""

def classifyIssue (state : SequentialClassifier × Table U64 AccessPattern) (event : BlockEvent) :
    SequentialClassifier × Table U64 AccessPattern :=
  if event.clock = 0 then
    let classified := state.1.classify event.toIssue
    (classified.1, state.2.insert event.recordId classified.2)
  else (state.1, state.2.insert event.recordId .unknown)

def patternsOf (events : List BlockEvent) : Table U64 AccessPattern :=
  ((events.filter (·.kind = .issue)).foldl classifyIssue ({}, ∅)).2

def ProcessMetadata.before (first second : ProcessMetadata) : Prop :=
  first.snapshotNs.getD 0 ≤ second.snapshotNs.getD 0

instance : DecidableRel ProcessMetadata.before := fun _ _ => by
  unfold ProcessMetadata.before
  infer_instance

def processesOf (processes : List ProcessMetadata) : Table U32 (List ProcessMetadata) :=
  (processes.filter (·.snapshotNs.isSome)).foldl (fun table row =>
    let key := row.tid.getD row.pid
    table.insert key ((table.listAt key ++ [row]).insertionSort ProcessMetadata.before)) ∅

/-- What the projection knows of a trace. -/
structure Projection where
  records : Table U64 BlockEvent
  patterns : Table U64 AccessPattern
  metadata : Table U32 (List ProcessMetadata)
  timing : Table U64 DetailTiming

namespace Projection

def new (trace : DecodedTrace) : Projection where
  records := Table.ofEach (·.recordId) trace.events
  patterns := patternsOf trace.events
  metadata := processesOf trace.processes
  timing := timingOf trace.events

/-- The latest snapshot of the thread that is not after the instant, unless its process started
later or another snapshot of the same time contradicts it. -/
def processCandidate (projection : Projection) (tid : Option U32) (ts : Option U64) :
    Option ProcessMetadata := do
  let ts ← ts
  let rows ← projection.metadata.lookup (← tid)
  let seen := rows.takeWhile fun row => row.snapshotNs.any (· ≤ ts)
  let candidate ← seen.getLast?.filter fun row => row.startFromBootNs.all (· ≤ ts)
  let sameTime := seen.reverse.takeWhile fun row => row.snapshotNs = candidate.snapshotNs
  if sameTime.any fun row => row.pid ≠ candidate.pid || row.name ≠ candidate.name ||
      row.startFromBootNs ≠ candidate.startFromBootNs then none
  else some candidate

def timedIssue (observation : BlockObservation) : Option U64 :=
  match observation.issueTimestampNs, observation.issueCandidates with
  | some _, [candidate] => some candidate
  | _, _ => none

/-- The request of an observation. -/
def completion (projection : Projection) (observation : BlockObservation) :
    Except ProjectionError CompletedIo := do
  let raw ← match projection.records.lookup observation.completionRecord with
    | some raw => .ok raw
    | none => .error .missingCompletion
  let bytes ← match Word.tryFrom 32 observation.bytes with
    | some bytes => .ok bytes
    | none => .error (.sizeTooLarge observation.completionRecord)
  let device := observation.device
  let process := projection.processCandidate observation.issuerTid observation.issueTimestampNs
  let issuerCpu := do
    let event ← projection.records.lookup (← timedIssue observation)
    event.cpu
  let issue : BlockIssue :=
    { tsNs := observation.issueTimestampNs.getD observation.timestampNs
      requestId := observation.completionRecord
      deviceMajor := device.1
      deviceMinor := device.2
      sector := observation.sector
      sectors := raw.sectors
      bytes := bytes
      operation := operationOf observation.rwbs
      pid := (process.map (·.pid)).getD 0
      tid := observation.issuerTid.getD 0
      cpu := issuerCpu.getD 0
      comm := observation.issuerComm.getD "<issuer unavailable>" }
  let insertTs := do
    let queue ← observation.queueLatencyNs
    let issued ← observation.issueTimestampNs
    issued.checkedSub queue
  let timing := (projection.timing.lookup observation.completionRecord).getD .unknown
  let issueTiming :=
    ((timedIssue observation).bind (projection.timing.lookup ·)).getD .unknown
  .ok
    { insert := insertTs.map fun tsNs =>
        { tsNs := tsNs
          requestId := issue.requestId
          deviceMajor := device.1
          deviceMinor := device.2
          sector := observation.sector
          sectors := raw.sectors
          bytes := bytes
          operation := issue.operation }
      issue := issue
      completion :=
        { cpu := raw.cpu
          tsNs := observation.timestampNs
          requestId := observation.completionRecord
          deviceMajor := device.1
          deviceMinor := device.2
          status := observation.error.getD 0 }
      latencyNs := observation.deviceLatencyNs
      deviceLatencyNs := observation.deviceLatencyNs
      totalLatencyNs := observation.deviceLatencyNs.bind fun latency =>
        latency.checkedAdd (observation.queueLatencyNs.getD 0).val
      queueLatencyNs := observation.queueLatencyNs
      queueDepthAfter := none
      detailTiming := { issueTiming with
        completionBandwidth := timing.completionBandwidth
        completionGapNs := timing.completionGapNs }
      queueDepthAtIssue := none
      accessPattern :=
        ((timedIssue observation).bind (projection.patterns.lookup ·)).getD .unknown
      sizeClass := IoSizeClass.classify bytes
      evidence := some
        { source := "Perfetto block tracepoints"
          recordId := observation.completionRecord
          issueRecordCandidates := observation.issueCandidates
          issueTimestampNs := observation.issueTimestampNs
          issuerPid := process.map (·.pid)
          issuerTid := observation.issuerTid
          issuerCpu := issuerCpu
          completionStatus := observation.error
          processName := process.map (·.name)
          timingConfidence :=
            if observation.deviceLatencyNs.isSome then .probable else .contextOnly
          reason := observation.reason ++ if process.isSome then
            "; TGID/name are candidates from an earlier process snapshot" else ""
          clock := observation.clock } }

/-- The device, the issue and the last completion of every issue that times completions. -/
def issueIntervals (completions : List BlockObservation) : Table U64 (U64 × U64 × U64) :=
  completions.foldl (fun table observation =>
    match observation.issueTimestampNs, observation.issueCandidates with
    | some start, [candidate] =>
      if observation.clock = 0 && start < observation.timestampNs then
        table.alter candidate (observation.deviceEncoded, start, observation.timestampNs)
          fun row => (row.1, row.2.1, max row.2.2 observation.timestampNs)
      else table
    | _, _ => table) ∅

/-- The intervals of a device by their starts. -/
def deviceRows (intervals : Table U64 (U64 × U64 × U64)) (device : U64) :
    List (U64 × U64 × U64) :=
  ((intervals.toPairs.filter fun entry => entry.2.1 = device).map fun entry =>
    (entry.2.2.1, entry.1, entry.2.2.2)).insertionSort fun first second =>
      first.1 < second.1 ∨ first.1 = second.1 ∧ first.2.1 ≤ second.2.1

def withDepths (timing : Table U64 DetailTiming) (rows : List (U64 × U64 × U64)) :
    Table U64 DetailTiming :=
  let ends := (rows.map (·.2.2)).insertionSort (· ≤ ·)
  rows.zipIdx.foldl (fun timing entry =>
    let completed := (ends.takeWhile (· ≤ entry.1.1)).length
    timing.alter entry.1.2.1 .unknown fun detail =>
      { detail with issueDepth := some (entry.2 + 1 - completed) }) timing

/-- Add the depths of the issues. -/
def withAnalysis (projection : Projection) (analysis : BlockAnalysis) : Projection :=
  let intervals := issueIntervals analysis.completions
  let devices := (intervals.toPairs.map (·.2.1)).dedup
  { projection with
    timing := devices.foldl (fun timing device => withDepths timing (deviceRows intervals device))
      projection.timing }

end Projection

def Device.le (first second : Device) : Prop :=
  first.1 < second.1 ∨ first.1 = second.1 ∧ first.2 ≤ second.2

instance : DecidableRel Device.le := fun _ _ => by
  unfold Device.le
  infer_instance

def DeviceCoverage.of (device : Device) : DeviceCoverage := { device := device }

def DeviceCoverage.addCompletion (observation : BlockObservation) (row : DeviceCoverage) :
    DeviceCoverage :=
  { row with
    completions := row.completions + 1
    unresolved := row.unresolved + if observation.issueTimestampNs.isNone then 1 else 0 }

/-- The devices are those of the completions and of the events that were left over. An id that
is not in the trace is passed over. -/
def deviceCoverage (trace : DecodedTrace) (analysis : BlockAnalysis) :
    Table Device DeviceCoverage :=
  let records := Table.ofEach (·.recordId) trace.events
  let completions := Table.alterEach BlockObservation.device .of .addCompletion ∅
    analysis.completions
  let unmatched := completions.alterEach BlockEvent.device .of
    (fun _ row => { row with unmatched := row.unmatched + 1 })
    (analysis.unmatchedIssueRecords.filterMap records.lookup)
  unmatched.alterEach BlockEvent.device .of
    (fun _ row => { row with requeues := row.requeues + 1 })
    (analysis.unpairedRequeueRecords.filterMap records.lookup)

def completeMetadata (trace : DecodedTrace) (rawTrace : String) : SourceMetadata :=
  let analysis := analyze trace
  { stage := some "complete"
    rawTrace := some rawTrace
    quality := some trace.quality
    blockActivityDevices := some ((deviceCoverage trace analysis).orderedValues Device.le)
    blockRecords := some trace.events.length
    completionObservations := some analysis.completions.length
    schedulerIowaitEvents := some trace.schedulerWaits.length
    schedulerIowaitScope := some ("independent task delay events; absence is not measured zero; " ++
      "kernel schedstats/event support required")
    unresolvedTiming := some (analysis.completions.countP (·.deviceLatencyNs.isNone))
    unmatchedIssues := some analysis.unmatchedIssueRecords.length
    orphanInserts := some analysis.orphanInsertRecords.length
    unpairedRequeues := some analysis.unpairedRequeueRecords.length
    correlationLimitHits := some analysis.correlationLimitHits
    filePath := some "Unresolved: Perfetto block tracepoints expose no file/inode mapping" }

def perfettoStatus (trace : DecodedTrace) : String :=
  let completions := (analyze trace).completions
  "Perfetto · " ++ toString completions.length ++ " I/O · " ++
    toString (completions.countP (·.deviceLatencyNs.isNone)) ++
    " timing unresolved · kernel loss " ++
    trace.quality.kernelLostEvents.elim "unavailable" (fun lost => toString lost.val) ++
    " · FilePath unresolved · quality details in Diagnostics"

def projectCompletions (projection : Projection) :
    Nat → List BlockObservation → List WireRecord × Option ProjectionError
  | _, [] => ([], none)
  | sequence, observation :: rest =>
    match projection.completion observation with
    | .ok io =>
      let later := projectCompletions projection (sequence + 1) rest
      (.event sequence (.observedBlockCompletion io) :: later.1, later.2)
    | .error error => ([], some error)

def waitRecords (sequence : Nat) (waits : List SchedulerIoWait) : List WireRecord :=
  waits.zipIdx.map fun entry => .event (sequence + entry.2 + 1) (.schedulerIoWait entry.1)

/-- The records of a trace. -/
def projectRecords (trace : DecodedTrace) (rawTrace : String) :
    List WireRecord × Option ProjectionError :=
  let analysis := analyze trace
  let projection := (Projection.new trace).withAnalysis analysis
  let completions := projectCompletions projection 1 analysis.completions
  let count := analysis.completions.length + trace.schedulerWaits.length
  let opening := [
    .sourceInfo "perfetto" (perfettoStatus trace) (completeMetadata trace rawTrace),
    .capabilities
      { blockIssue := trace.events.any (·.kind = .issue)
        blockComplete := !analysis.completions.isEmpty
        blockInsert := trace.events.any (·.kind = .insert) }]
  match completions.2 with
  | some error => (opening ++ completions.1, some error)
  | none =>
    (opening ++ completions.1 ++
      waitRecords analysis.completions.length trace.schedulerWaits ++
      [.footer count count 0 0 (some (!trace.quality.truncated && trace.quality.ftraceEndSeen &&
        !trace.quality.projectionLimited))], none)

end EbpfStudio
