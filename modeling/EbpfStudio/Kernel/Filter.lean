/-
This file models the maps through which a capture filter reaches the kernel.

A configuration is staged under its generation, key by key in one map for each dimension, and put
into effect by writing the generation last. The maps have a fixed number of places and any insertion
may fail. The kernel reads the active generation and lets a request pass if each dimension that is
filtered has its value.
-/

import EbpfStudio.Library.BoundedTable
import EbpfStudio.Protocol.CaptureConfig

namespace EbpfStudio

abbrev U16 := Word 16

def widen (value : U32) : U64 := Word.ofNat 64 value.val

/-- What requests are filtered by. -/
inductive FilterDimension where
  | pid | tid | uid | device | operation
  deriving DecidableEq

def FilterDimension.all : List FilterDimension := [pid, tid, uid, device, operation]

def FilterDimension.maxEntries : FilterDimension → Nat
  | operation => 256
  | _ => 4096

def maxFilterConfigs : Nat := 64

structure FilterKey where
  generation : U64
  value : U64
  deriving DecidableEq

structure RawFilterConfig where
  generation : U64 := 0
  totalLatencyNs : U64 := 0
  queueLatencyNs : U64 := 0
  deviceLatencyNs : U64 := 0
  minBytes : U32 := 0
  maxBytes : U32 := 0
  collectorPid : U32 := 0
  counts : FilterDimension → U16 := fun _ => 0
  sampleRatePermyriad : U16 := 0
  mode : U8 := 0
  matchAll : U8 := 0
  includeErrors : U8 := 0
  includeCorrelationFailures : U8 := 0

/-- The maps of the filter. -/
structure FilterMaps where
  active : U64 := 0
  configs : BoundedTable maxFilterConfigs U64 RawFilterConfig := .empty
  keys : (dimension : FilterDimension) → BoundedTable dimension.maxEntries FilterKey U8 :=
    fun _ => .empty

def captureModeCode : CaptureMode → U8
  | .basic => 1
  | .balanced => 2
  | .deep => 3
  | .rawAll => 4

def operationCode : IoOperation → U8
  | .read => 1
  | .write => 2
  | .flush => 3
  | .discard => 4
  | .other => 255

def encodeDevice (device : Device) : U32 :=
  Word.ofNat 32 ((device.1.val <<< 20) % 2 ^ 32 ||| (device.2.val &&& 0xfffff))

def CaptureFilter.values (filter : CaptureFilter) : FilterDimension → List U64
  | .pid => filter.pids.map widen
  | .tid => filter.tids.map widen
  | .uid => filter.uids.map widen
  | .device => filter.devices.map fun device => widen (encodeDevice device)
  | .operation => filter.operations.map fun operation =>
      Word.ofNat 64 (operationCode operation).val

/-- The keys of a filter. -/
def CaptureFilter.staged (filter : CaptureFilter) : List (FilterDimension × U64) :=
  FilterDimension.all.flatMap fun dimension => (filter.values dimension).map (dimension, ·)

def rawFilterConfig (collectorPid : U32) (config : CaptureConfig) : RawFilterConfig where
  generation := config.generation
  totalLatencyNs := config.detail.totalLatencyNs
  queueLatencyNs := config.detail.queueLatencyNs
  deviceLatencyNs := config.detail.deviceLatencyNs
  minBytes := config.filter.minBytes.getD 0
  maxBytes := config.filter.maxBytes.getD 0
  collectorPid := collectorPid
  counts := fun dimension => Word.ofNat 16 (config.filter.values dimension).length
  sampleRatePermyriad := config.detail.sampleRatePermyriad
  mode := captureModeCode config.mode
  matchAll := if config.filter.matchAll then 1 else 0
  includeErrors := if config.detail.includeErrors then 1 else 0
  includeCorrelationFailures := if config.detail.includeCorrelationFailures then 1 else 0

inductive ApplyError where
  | fileFilter | stageKey | stageConfig | activate
  deriving DecidableEq

def ApplyError.message : ApplyError → String
  | fileFilter => "file identity filter is unavailable without a direct VFS file identity probe"
  | stageKey => "cannot stage filter key"
  | stageConfig => "cannot stage filter config"
  | activate => "cannot activate filter generation"

namespace FilterMaps

def setKeys (maps : FilterMaps) (dimension : FilterDimension)
    (map : BoundedTable dimension.maxEntries FilterKey U8) : FilterMaps :=
  { maps with keys := Function.update maps.keys dimension map }

/-- Stage keys until one fails. -/
def insertFilterValues (fails : Nat → Bool) (generation : U64) :
    FilterMaps → Nat → List (FilterDimension × U64) → FilterMaps × Bool
  | maps, _, [] => (maps, true)
  | maps, number, (dimension, value) :: rest =>
    let stored :=
      if fails number then none else (maps.keys dimension).insert ⟨generation, value⟩ 1
    match stored with
    | some map => insertFilterValues fails generation (maps.setKeys dimension map) (number + 1) rest
    | none => (maps, false)

/-- The maps after an attempt to put a configuration into effect, and whether it succeeded. -/
def apply (collectorPid : U32) (fails : Nat → Bool) (maps : FilterMaps) (config : CaptureConfig) :
    FilterMaps × Except ApplyError Unit :=
  if config.filter.files ≠ [] then (maps, .error .fileFilter)
  else
    let values := config.filter.staged
    let staged := insertFilterValues fails config.generation maps 0 values
    if !staged.2 then (staged.1, .error .stageKey)
    else
      let configs :=
        if fails values.length then none
        else staged.1.configs.insert config.generation (rawFilterConfig collectorPid config)
      match configs with
      | none => (staged.1, .error .stageConfig)
      | some configs =>
        if fails (values.length + 1) then
          ({ staged.1 with configs := configs }, .error .activate)
        else ({ staged.1 with configs := configs, active := config.generation }, .ok ())

/-- The configuration of the active generation. -/
def activeFilter (maps : FilterMaps) : Option RawFilterConfig :=
  if maps.active = 0 then none else maps.configs.lookup maps.active

def filterContains (maps : FilterMaps) (dimension : FilterDimension) (generation value : U64) :
    Bool :=
  (maps.keys dimension).contains ⟨generation, value⟩

/-- A dimension lets a value pass. -/
def passes (maps : FilterMaps) (config : RawFilterConfig) (dimension : FilterDimension)
    (value : U64) : Bool :=
  config.counts dimension = 0 || maps.filterContains dimension config.generation value

def matchesFilter (maps : FilterMaps) (pid tid uid device bytes : U32) (operation : U8) : Bool :=
  match maps.activeFilter with
  | none => true
  | some config =>
    !(config.collectorPid ≠ 0 && pid = config.collectorPid) &&
      !(config.minBytes ≠ 0 && bytes < config.minBytes) &&
      !(config.maxBytes ≠ 0 && config.maxBytes < bytes) &&
      maps.passes config .pid (widen pid) &&
      maps.passes config .tid (widen tid) &&
      maps.passes config .uid (widen uid) &&
      maps.passes config .device (widen device) &&
      maps.passes config .operation (Word.ofNat 64 operation.val)

def matchesRequest (maps : FilterMaps) (request : FilteredRequest) : Bool :=
  maps.matchesFilter request.pid request.tid request.uid request.device request.bytes
    (operationCode request.operation)

end FilterMaps

end EbpfStudio
