/-
This file models the block probes of the kernel.

An insert or issue remembers its request, if the active filter lets it pass. A completion takes the
record away, counts its latencies in the aggregate of its processor, and reports it in detail if the
policy asks for that. A probe gives one effect (`ProbeEffect`), so that what is remembered, counted
and reported can be studied apart.
-/

import EbpfStudio.Kernel.Filter
import EbpfStudio.Protocol.Statistics

namespace EbpfStudio

def histogramBuckets : Nat := 32

/-- The counters of an aggregate. -/
structure AggregateCounters where
  observed : U64 := 0
  bytes : U64 := 0
  failed : U64 := 0
  filterPassed : U64 := 0
  filterSuppressed : U64 := 0
  detailEmitted : U64 := 0
  suppressedFast : U64 := 0
  sampled : U64 := 0
  forcedError : U64 := 0
  ringReserveFailures : U64 := 0
  mapInsertFailures : U64 := 0
  expired : U64 := 0
  keyReused : U64 := 0
  deriving DecidableEq

/-- What a processor has counted for a generation. -/
structure KernelAggregate where
  generation : U64 := 0
  firstTsNs : U64 := 0
  lastTsNs : U64 := 0
  counters : AggregateCounters := {}
  totalLatency : List U64 := List.replicate histogramBuckets 0
  queueLatency : List U64 := List.replicate histogramBuckets 0
  deviceLatency : List U64 := List.replicate histogramBuckets 0
  ioSize : List U64 := List.replicate histogramBuckets 0
  deriving DecidableEq

/-- The bucket of a value: its highest bit, or the last one. -/
def histogramIndex (value : U64) : Nat := min (Nat.log2 value.val) (histogramBuckets - 1)

/-- Count a value in a histogram. -/
def bump (histogram : List U64) (value : U64) : List U64 :=
  histogram.modify (histogramIndex value) fun count => count.saturatingAdd 1

/-- One change of an aggregate. -/
inductive AggregateUpdate where
  | filterPassed
  | filterSuppressed
  | mapFailure
  | keyReused
  | expired
  | reserveFailure
  | suppressedFast
  | detail (sampled forcedError : Bool)
  | completion (tsNs : U64) (bytes : U32) (status : Int)
      (totalLatency queueLatency deviceLatency : U64)
  deriving DecidableEq

namespace AggregateUpdate

/-- The counters after an update. -/
def count : AggregateUpdate → AggregateCounters → AggregateCounters
  | filterPassed, counters =>
    { counters with filterPassed := counters.filterPassed.saturatingAdd 1 }
  | filterSuppressed, counters =>
    { counters with filterSuppressed := counters.filterSuppressed.saturatingAdd 1 }
  | mapFailure, counters =>
    { counters with mapInsertFailures := counters.mapInsertFailures.saturatingAdd 1 }
  | keyReused, counters => { counters with keyReused := counters.keyReused.saturatingAdd 1 }
  | expired, counters => { counters with expired := counters.expired.saturatingAdd 1 }
  | reserveFailure, counters =>
    { counters with ringReserveFailures := counters.ringReserveFailures.saturatingAdd 1 }
  | suppressedFast, counters =>
    { counters with suppressedFast := counters.suppressedFast.saturatingAdd 1 }
  | detail sampled forcedError, counters =>
    { counters with
      detailEmitted := counters.detailEmitted.saturatingAdd 1
      sampled := counters.sampled.saturatingAdd sampled.toNat
      forcedError := counters.forcedError.saturatingAdd forcedError.toNat }
  | completion _ bytes status _ _ _, counters =>
    { counters with
      observed := counters.observed.saturatingAdd 1
      bytes := counters.bytes.saturatingAdd bytes.val
      failed := counters.failed.saturatingAdd (decide (status ≠ 0)).toNat }

/-- The aggregate after an update. -/
def onto (update : AggregateUpdate) (aggregate : KernelAggregate) : KernelAggregate :=
  let counted := { aggregate with counters := update.count aggregate.counters }
  match update with
  | completion tsNs bytes _ total queue device =>
    { counted with
      firstTsNs := if aggregate.firstTsNs = 0 then tsNs else aggregate.firstTsNs
      lastTsNs := tsNs
      totalLatency := bump aggregate.totalLatency total
      queueLatency := bump aggregate.queueLatency queue
      deviceLatency := bump aggregate.deviceLatency device
      ioSize := bump aggregate.ioSize (widen bytes) }
  | _ => counted

def isCompletion : AggregateUpdate → Bool
  | completion .. => true
  | _ => false

def accounts : AggregateUpdate → Bool
  | completion .. | detail .. | suppressedFast => true
  | _ => false

end AggregateUpdate

/-- The aggregate for a generation, new if it was of another. -/
def aggregateMut (generation : U64) (aggregate : KernelAggregate) : KernelAggregate :=
  if aggregate.generation ≠ generation then { generation := generation } else aggregate

def aggregateUpdate (generation : U64) (aggregate : KernelAggregate) (update : AggregateUpdate) :
    KernelAggregate :=
  update.onto (aggregateMut generation aggregate)

inductive BlockProbeKind where
  | insert | issue | complete
  deriving DecidableEq

/-- The fields of a block event. -/
structure BlockDecoded where
  kind : BlockProbeKind
  device : U32
  sector : U64
  sectors : U32
  bytes : U32
  operation : U8
  requestId : U64
  correlationExact : Bool
  status : Int
  deriving DecidableEq

instance neZeroOne : NeZero 1 := ⟨one_ne_zero⟩

/-- A block event with the task and the time at which it was seen. `stackId` is what the kernel
stack is called, if it could be stored, and `room` how many records the ring buffer takes. -/
structure BlockProbe (cpus : Nat) where
  decoded : BlockDecoded
  pid : U32
  tid : U32
  uid : U32
  comm : List U8
  tsNs : U64
  cpu : Fin cpus
  stackId : Option U64
  room : Nat

/-- What is remembered of a request until it completes. -/
structure BlockStart where
  insertTsNs : U64
  issueTsNs : U64
  requestId : U64
  sector : U64
  device : U32
  sectors : U32
  bytes : U32
  pid : U32
  tid : U32
  uid : U32
  cpu : U32
  operation : U8
  correlationExact : Bool
  comm : List U8
  deriving DecidableEq

/-- A record in the ring buffer. -/
structure KernelEvent where
  tsNs : U64
  startTsNs : U64
  requestId : U64
  sector : U64
  kernelStackId : U64
  device : U32
  sectors : U32
  bytes : U32
  pid : U32
  tid : U32
  cpu : U32
  status : Int
  kind : BlockProbeKind
  operation : U8
  correlationExact : Bool
  comm : List U8
  deriving DecidableEq

def stackIdUnavailable : U64 := Word.maximum 64

def blockEventFromStart (start : BlockStart) (kind : BlockProbeKind) : KernelEvent where
  tsNs := if kind = .insert then start.insertTsNs else start.issueTsNs
  startTsNs := 0
  requestId := start.requestId
  sector := start.sector
  kernelStackId := stackIdUnavailable
  device := start.device
  sectors := start.sectors
  bytes := start.bytes
  pid := start.pid
  tid := start.tid
  cpu := start.cpu
  status := 0
  kind := kind
  operation := start.operation
  correlationExact := start.correlationExact
  comm := start.comm

def maxBlockStarts : Nat := 65_536

/-- The state of the kernel side. -/
structure BlockKernel (cpus : Nat) where
  maps : FilterMaps := {}
  starts : BoundedTable maxBlockStarts U64 BlockStart := .empty
  aggregates : Fin cpus → KernelAggregate := fun _ => {}

/-- What a probe does: the requests that are remembered after it, the updates of the aggregate of
its processor and the records that it reports. -/
structure ProbeEffect where
  starts : BoundedTable maxBlockStarts U64 BlockStart
  updates : List AggregateUpdate := []
  events : List KernelEvent := []

def ProbeEffect.completions (effect : ProbeEffect) : Nat :=
  effect.updates.countP AggregateUpdate.isCompletion

/-- Put records into the ring buffer while there is room. -/
def submitEvents (room : Nat) (events : List KernelEvent) :
    List AggregateUpdate × List KernelEvent :=
  (if room < events.length then [.reserveFailure] else [], events.take room)

/-- The configuration when none is in effect. -/
def unfilteredConfig : RawFilterConfig where
  mode := captureModeCode .rawAll
  matchAll := 1

namespace RawFilterConfig

def reportsAll (config : RawFilterConfig) : Bool :=
  config.mode = captureModeCode .deep || config.mode = captureModeCode .rawAll

end RawFilterConfig

namespace BlockKernel

variable {cpus : Nat}

/-- The configuration in effect. -/
def config (kernel : BlockKernel cpus) : RawFilterConfig :=
  kernel.maps.activeFilter.getD unfilteredConfig

/-- The task that put a request into the queue, as long as the request has not been issued. A
worker that issues it later is not its issuer. This needs request ids that are exact. -/
def queued (kernel : BlockKernel cpus) (probe : BlockProbe cpus) : Option BlockStart :=
  if probe.decoded.correlationExact && probe.decoded.kind = .issue then
    (kernel.starts.lookup probe.decoded.requestId).filter (·.issueTsNs = 0)
  else none

/-- What is remembered of a probe. -/
def startOf (kernel : BlockKernel cpus) (probe : BlockProbe cpus) (insertTsNs issueTsNs : U64) :
    BlockStart where
  insertTsNs := insertTsNs
  issueTsNs := issueTsNs
  requestId := probe.decoded.requestId
  sector := probe.decoded.sector
  device := probe.decoded.device
  sectors := probe.decoded.sectors
  bytes := probe.decoded.bytes
  pid := (kernel.queued probe).elim probe.pid (·.pid)
  tid := (kernel.queued probe).elim probe.tid (·.tid)
  uid := (kernel.queued probe).elim probe.uid (·.uid)
  cpu := Word.ofNat 32 probe.cpu.val
  operation := probe.decoded.operation
  correlationExact := probe.decoded.correlationExact
  comm := (kernel.queued probe).elim probe.comm (·.comm)

/-- The record of a probe. -/
def eventOf (kernel : BlockKernel cpus) (probe : BlockProbe cpus) : KernelEvent where
  tsNs := probe.tsNs
  startTsNs := 0
  requestId := probe.decoded.requestId
  sector := probe.decoded.sector
  kernelStackId := stackIdUnavailable
  device := probe.decoded.device
  sectors := probe.decoded.sectors
  bytes := probe.decoded.bytes
  pid := (kernel.queued probe).elim probe.pid (·.pid)
  tid := (kernel.queued probe).elim probe.tid (·.tid)
  cpu := Word.ofNat 32 probe.cpu.val
  status := probe.decoded.status
  kind := probe.decoded.kind
  operation := probe.decoded.operation
  correlationExact := probe.decoded.correlationExact
  comm := (kernel.queued probe).elim probe.comm (·.comm)

/-- The active filter lets a request pass. -/
def matchesStart (maps : FilterMaps) (start : BlockStart) : Bool :=
  maps.matchesFilter start.pid start.tid start.uid start.device start.bytes start.operation

/-- The record of a probe, in the modes that report all. -/
def report (kernel : BlockKernel cpus) (probe : BlockProbe cpus) :
    List AggregateUpdate × List KernelEvent :=
  if kernel.config.reportsAll then submitEvents probe.room [kernel.eventOf probe] else ([], [])

/-- A request is put into the queue. -/
def onInsert (kernel : BlockKernel cpus) (probe : BlockProbe cpus) : ProbeEffect :=
  let start := kernel.startOf probe probe.tsNs 0
  if !matchesStart kernel.maps start then
    { starts := kernel.starts, updates := [.filterSuppressed] }
  else
    let stored := kernel.starts.insert probe.decoded.requestId start
    let reported := kernel.report probe
    { starts := stored.getD kernel.starts
      updates := (if stored.isNone then [.mapFailure] else []) ++ reported.1
      events := reported.2 }

/-- A request is sent to the device. -/
def onIssue (kernel : BlockKernel cpus) (probe : BlockProbe cpus) : ProbeEffect :=
  let requestId := probe.decoded.requestId
  let prior := kernel.starts.lookup requestId
  let start := kernel.startOf probe (prior.elim 0 (·.insertTsNs)) probe.tsNs
  if !matchesStart kernel.maps start then
    { starts := kernel.starts.erase requestId, updates := [.filterSuppressed] }
  else
    let reused := if prior.any (·.issueTsNs ≠ 0) then [.keyReused] else []
    match kernel.starts.insert requestId start with
    | none => { starts := kernel.starts, updates := reused ++ [.mapFailure] }
    | some starts =>
      let reported := kernel.report probe
      { starts := starts
        updates := reused ++ .filterPassed :: reported.1
        events := reported.2 }

/-- The total, queue and device latency of a completion. -/
def latencies (start : BlockStart) (tsNs : U64) : U64 × U64 × U64 :=
  let device := tsNs.saturatingSub start.issueTsNs.val
  if start.insertTsNs = 0 then (device, 0, device)
  else (tsNs.saturatingSub start.insertTsNs.val,
    start.issueTsNs.saturatingSub start.insertTsNs.val, device)

/-- The request is one of the sample. -/
def sampled (config : RawFilterConfig) (requestId : U64) : Bool :=
  config.sampleRatePermyriad ≠ 0 && requestId.val % 10_000 < config.sampleRatePermyriad.val

/-- The completion is reported because it failed. -/
def forcedError (config : RawFilterConfig) (status : Int) : Bool :=
  config.includeErrors ≠ 0 && status ≠ 0

/-- The policy asks for a report in detail. -/
def wantsDetail (config : RawFilterConfig) (probe : BlockProbe cpus)
    (latency : U64 × U64 × U64) : Bool :=
  if config.mode = captureModeCode .balanced then
    config.totalLatencyNs ≤ latency.1 ||
      (latency.2.1 ≠ 0 && config.queueLatencyNs ≤ latency.2.1) ||
      config.deviceLatencyNs ≤ latency.2.2 ||
      sampled config probe.decoded.requestId || forcedError config probe.decoded.status
  else config.reportsAll

/-- The records of a completion in detail. Only in the balanced mode were its insert and issue
not reported when they happened. -/
def detailEvents (kernel : BlockKernel cpus) (probe : BlockProbe cpus) (start : BlockStart) :
    List KernelEvent :=
  let event := kernel.eventOf probe
  if kernel.config.mode = captureModeCode .deep then
    [{ event with
      startTsNs := if start.insertTsNs = 0 then start.issueTsNs else start.insertTsNs
      kernelStackId := probe.stackId.getD stackIdUnavailable }]
  else if kernel.config.mode = captureModeCode .balanced then
    (if start.insertTsNs ≠ 0 then [blockEventFromStart start .insert] else []) ++
      [blockEventFromStart start .issue, event]
  else [event]

/-- A request completes. -/
def onComplete (kernel : BlockKernel cpus) (probe : BlockProbe cpus) : ProbeEffect :=
  let requestId := probe.decoded.requestId
  match kernel.starts.lookup requestId with
  | none => { starts := kernel.starts, updates := [.expired] }
  | some start =>
    let starts := kernel.starts.erase requestId
    if start.issueTsNs = 0 || probe.tsNs < start.issueTsNs then
      { starts := starts, updates := [.expired] }
    else
      let latency := latencies start probe.tsNs
      let counted := AggregateUpdate.completion probe.tsNs start.bytes probe.decoded.status
        latency.1 latency.2.1 latency.2.2
      if wantsDetail kernel.config probe latency then
        let submitted := submitEvents probe.room (kernel.detailEvents probe start)
        { starts := starts
          updates := counted ::
            .detail (sampled kernel.config requestId)
              (forcedError kernel.config probe.decoded.status) :: submitted.1
          events := submitted.2 }
      else { starts := starts, updates := [counted, .suppressedFast] }

/-- The effect of a probe. -/
def processBlock (kernel : BlockKernel cpus) (probe : BlockProbe cpus) : ProbeEffect :=
  match probe.decoded.kind with
  | .insert => kernel.onInsert probe
  | .issue => kernel.onIssue probe
  | .complete => kernel.onComplete probe

def afterProbe (kernel : BlockKernel cpus) (probe : BlockProbe cpus) : BlockKernel cpus :=
  let effect := kernel.processBlock probe
  { kernel with
    starts := effect.starts
    aggregates := Function.update kernel.aggregates probe.cpu
      (effect.updates.foldl (aggregateUpdate kernel.config.generation)
        (kernel.aggregates probe.cpu)) }

end BlockKernel

end EbpfStudio
