/-
This file transcribes the wire data model of the protocol crate: the block, file, pipeline and graph
records a capture emits, and the completed request the analysis builds from them.

Fields that no modelled function reads are left out. Operations, phases and confidences are
enumerations, and optional fields of the wire are options here.
-/

import EbpfStudio.Protocol.Rolling

namespace EbpfStudio

inductive IoOperation where
  | read | write | flush | discard | other
  deriving DecidableEq

structure BlockInsert where
  tsNs : U64
  requestId : U64
  deviceMajor : U32
  deviceMinor : U32
  sector : U64
  sectors : U32
  bytes : U32
  operation : IoOperation
  deriving DecidableEq

/-- A request is sent to the device. -/
structure BlockIssue where
  tsNs : U64
  requestId : U64
  deviceMajor : U32
  deviceMinor : U32
  sector : U64
  sectors : U32
  bytes : U32
  operation : IoOperation
  pid : U32
  tid : U32
  cpu : U32
  comm : String
  deriving DecidableEq

structure SchedulerIoWait where
  tsNs : U64
  delayNs : U64
  tid : U32
  pid : Option U32
  comm : String
  cpu : Option U32
  source : String
  deriving DecidableEq

/-- A request completes. -/
structure BlockComplete where
  cpu : Option U32
  tsNs : U64
  requestId : U64
  deviceMajor : U32
  deviceMinor : U32
  status : Int
  deriving DecidableEq

inductive AttributionConfidence where
  | unknown | attributed | exact | system
  deriving DecidableEq

structure FileIdentity where
  fsDeviceMajor : U32
  fsDeviceMinor : U32
  inode : U64
  inodeGeneration : Option U32
  mountId : Option U64
  deriving DecidableEq

inductive PathSource where
  | bpfDPath | procFd | inodeOnly | unavailable
  deriving DecidableEq

structure PathSnapshot where
  path : Option String
  source : PathSource
  capturedTsNs : U64
  deleted : Bool
  deriving DecidableEq

inductive FileIoMode where
  | unknown | buffered | direct | sync
  deriving DecidableEq

/-- An operation on a file. -/
structure FileIo where
  startTsNs : U64
  endTsNs : U64
  operation : IoOperation
  fd : Int
  requestedBytes : U64
  completedBytes : Int
  pid : U32
  tid : U32
  comm : String
  path : Option String
  confidence : AttributionConfidence
  fileIdentity : Option FileIdentity
  pathSnapshot : Option PathSnapshot
  offset : Option U64
  ioMode : FileIoMode
  nodeId : Option U64
  deriving DecidableEq

inductive IoNodeKind where
  | fileOperation | syscall | vfs | filesystem | pageCache | writeback | bio | blockQueue
  | blockRequest | scsiCommand | ufsCommand | schedulerContext | uicContext
  deriving DecidableEq

inductive IoOrigin where
  | file | filesystemMetadata | journal | garbageCollection | checkpoint | writeback
  | readahead | swap | unknown
  deriving DecidableEq

inductive EdgeConfidence where
  | exact | probable | probableAsync | contextOnly
  deriving DecidableEq

def EdgeConfidence.rank : EdgeConfidence → Nat
  | exact => 3
  | probable => 2
  | probableAsync => 1
  | contextOnly => 0

def EdgeConfidence.weakest (first second : EdgeConfidence) : EdgeConfidence :=
  if first.rank ≤ second.rank then first else second

inductive IoRelation where
  | calls | contains | submits | splitsInto | mergedInto | remapsTo | dispatches
  | completesInto | causesAsync | contextFor
  deriving DecidableEq

structure CorrelationEvidence where
  matchType : String
  opaqueKey : Option U64
  deltaNs : Option U64
  candidateCount : U32
  sectorMatch : Bool
  bytesMatch : Bool
  taskMatch : Bool
  deriving DecidableEq

/-- A node of a transaction graph. -/
structure IoNode where
  nodeId : U64
  transactionId : Option U64
  kind : IoNodeKind
  startTsNs : U64
  endTsNs : Option U64
  origin : IoOrigin
  file : Option FileIdentity
  path : Option PathSnapshot
  operation : Option IoOperation
  bytes : Option U64
  pid : U32
  tid : U32
  name : String
  deriving DecidableEq

namespace IoNode

def endOrStart (node : IoNode) : U64 := node.endTsNs.getD node.startTsNs

def durationNs (node : IoNode) : U64 := node.endOrStart.saturatingSub node.startTsNs

def additive (node : IoNode) : Bool := node.kind ≠ .uicContext

end IoNode

/-- An edge of a transaction graph. -/
structure IoEdge where
  edgeId : U64
  transactionId : Option U64
  fromNodeId : U64
  toNodeId : U64
  relation : IoRelation
  confidence : EdgeConfidence
  evidence : List CorrelationEvidence
  deriving DecidableEq

/-- An edge without a transaction and without evidence that joins two nodes exactly. -/
def IoEdge.exact (edgeId fromNodeId toNodeId : U64) (relation : IoRelation) : IoEdge where
  edgeId := edgeId
  transactionId := none
  fromNodeId := fromNodeId
  toNodeId := toNodeId
  relation := relation
  confidence := .exact
  evidence := []

/-- A directly observed file origin carried from an upper storage object into a block
request. -/
structure RequestOrigin where
  tsNs : U64
  requestId : U64
  originId : U64
  file : FileIdentity
  path : Option PathSnapshot
  origin : IoOrigin
  operation : IoOperation
  bytes : Option U64
  pid : U32
  tid : U32
  fileOriginConfidence : EdgeConfidence
  requestLifetimeConfidence : EdgeConfidence
  incomplete : Bool
  deriving DecidableEq

inductive PipelineLayer where
  | syscall | vfs | filesystem | pageCache | writeback | bio | blockQueue | blockDevice
  | scsi | ufs | schedulerContext | uicContext
  deriving DecidableEq

def PipelineLayer.ordinal : PipelineLayer → Nat
  | syscall => 0
  | vfs => 1
  | filesystem => 2
  | pageCache => 3
  | writeback => 4
  | bio => 5
  | blockQueue => 6
  | blockDevice => 7
  | scsi => 8
  | ufs => 9
  | schedulerContext => 10
  | uicContext => 11

inductive PipelinePhase where
  | beginPhase | endPhase | instant | span
  deriving DecidableEq

inductive CorrelationConfidence where
  | exact | probable | contextOnly
  deriving DecidableEq

/-- An event of a pipeline stage, or a span of it. -/
structure PipelineObservation where
  tsNs : U64
  operation : Option IoOperation
  endTsNs : Option U64
  phase : PipelinePhase
  layer : PipelineLayer
  correlationId : Option U64
  stageKey : Option U64
  sector : Option U64
  bytes : Option U32
  opcode : Option U32
  status : Option Int
  pid : U32
  tid : U32
  name : String
  confidence : CorrelationConfidence
  deriving DecidableEq

inductive AccessPattern where
  | unknown | sequential | random
  deriving DecidableEq

inductive IoSizeClass where
  | small | large
  deriving DecidableEq

def largeIoBytes : Nat := 32 * 1024

def IoSizeClass.classify (bytes : U32) : IoSizeClass :=
  if largeIoBytes ≤ bytes then .large else .small

structure CompletionEvidence where
  source : String
  recordId : U64
  issueRecordCandidates : List U64
  issueTimestampNs : Option U64
  issuerPid : Option U32
  issuerTid : Option U32
  issuerCpu : Option U32
  completionStatus : Option Int
  processName : Option String
  timingConfidence : CorrelationConfidence
  reason : String
  clock : U32
  deriving DecidableEq

structure DetailTiming where
  issueDepth : Option Nat
  issueGapNs : Option U64
  completionGapNs : Option U64
  issueBandwidth : Option RollingRate
  completionBandwidth : Option RollingRate
  deriving DecidableEq

/-- A request with its issue and completion. -/
structure CompletedIo where
  insert : Option BlockInsert
  issue : BlockIssue
  completion : BlockComplete
  latencyNs : Option U64
  queueLatencyNs : Option U64
  deviceLatencyNs : Option U64
  totalLatencyNs : Option U64
  queueDepthAtIssue : Option Nat
  queueDepthAfter : Option Nat
  detailTiming : DetailTiming
  accessPattern : AccessPattern
  sizeClass : IoSizeClass
  evidence : Option CompletionEvidence
  deriving DecidableEq

namespace CompletedIo

/-- Time on the session's clock; a projected observation of another clock has none. -/
def completionTimestamp (io : CompletedIo) : Option U64 :=
  if io.evidence.all fun evidence => evidence.clock = 0 then some io.completion.tsNs else none

def issueTimestamp (io : CompletedIo) : Option U64 := do
  let _ ← io.completionTimestamp
  io.evidence.elim (some io.issue.tsNs) fun evidence => evidence.issueTimestampNs

def startTimestamp (io : CompletedIo) : Option U64 := do
  let completion ← io.completionTimestamp
  some (((io.insert.map (·.tsNs)).or io.issueTimestamp).getD completion)

def timingConfidence (io : CompletedIo) : CorrelationConfidence :=
  io.evidence.elim .exact fun evidence => evidence.timingConfidence

/-- The first block-layer timestamp of a request: its insert, or its issue without one. -/
def blockStart (io : CompletedIo) : U64 := io.insert.elim io.issue.tsNs fun insert => insert.tsNs

end CompletedIo

/-- The events that an engine ingests. -/
inductive StorageEvent where
  | schedulerIoWait (wait : SchedulerIoWait)
  | blockInsert (insert : BlockInsert)
  | blockIssue (issue : BlockIssue)
  | blockComplete (completion : BlockComplete)
  | observedBlockCompletion (completed : CompletedIo)
  | fileIo (file : FileIo)
  | pipeline (observation : PipelineObservation)
  | requestOrigin (origin : RequestOrigin)
  | node (node : IoNode)
  | edge (edge : IoEdge)

/-! ### One small read

The records of a 4 KiB read of device 8:0 and of the file operation above it, which the runs on
fixed inputs of later files are made of. -/

def readInsert (tsNs requestId : U64) : BlockInsert where
  tsNs := tsNs
  requestId := requestId
  deviceMajor := 8
  deviceMinor := 0
  sector := 2048
  sectors := 8
  bytes := 4096
  operation := .read

def readIssue (tsNs requestId : U64) : BlockIssue where
  tsNs := tsNs
  requestId := requestId
  deviceMajor := 8
  deviceMinor := 0
  sector := 2048
  sectors := 8
  bytes := 4096
  operation := .read
  pid := 10
  tid := 11
  cpu := 0
  comm := "reader"

def readComplete (tsNs requestId : U64) : BlockComplete where
  cpu := none
  tsNs := tsNs
  requestId := requestId
  deviceMajor := 8
  deviceMinor := 0
  status := 0

def readFile (startTsNs endTsNs : U64) : FileIo where
  startTsNs := startTsNs
  endTsNs := endTsNs
  operation := .read
  fd := 3
  requestedBytes := 4096
  completedBytes := 4096
  pid := 10
  tid := 11
  comm := "reader"
  path := none
  confidence := .unknown
  fileIdentity := none
  pathSnapshot := none
  offset := none
  ioMode := .unknown
  nodeId := none

def readDone (issueTsNs completionTsNs requestId : U64) : CompletedIo where
  insert := none
  issue := readIssue issueTsNs requestId
  completion := readComplete completionTsNs requestId
  latencyNs := none
  queueLatencyNs := none
  deviceLatencyNs := none
  totalLatencyNs := none
  queueDepthAtIssue := none
  queueDepthAfter := none
  detailTiming := ⟨none, none, none, none, none⟩
  accessPattern := .unknown
  sizeClass := .small
  evidence := none

end EbpfStudio
