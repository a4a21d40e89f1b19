/-
This file models how the desktop decodes the protobuf file of a Perfetto trace.

A trace is a list of packets, each with its length before it. A packet is a list of fields, and of
these only the ones for block events, scheduler waits, processes and statistics are read. What is
malformed inside a packet is counted and left out, what exceeds a limit is left out, and the decoder
stops at a packet that it cannot delimit.
-/

import EbpfStudio.Desktop.Projection
import EbpfStudio.Library.Frames
import EbpfStudio.Library.Program

namespace EbpfStudio

open Frames

def maxPacket : Nat := 16 * 1024 * 1024

def maxEvents : Nat := 2000000

def maxMetadata : Nat := 200000

inductive DecodeError where
  | unexpectedEof
  | overflowingVarint
  | unterminatedVarint
  | invalidField
  | truncatedField
  | truncatedFixedField
  | unsupportedWireType
  | outOfRange
  | missingBlockField (id : U32)
  | missingBlockRwbs
  | missingDelay
  | missingTask
  | unsupportedRoot
  | packetTooLong
  deriving DecidableEq

def DecodeError.message : DecodeError → String
  | unexpectedEof => "failed to fill whole buffer"
  | overflowingVarint => "overflowing protobuf varint"
  | unterminatedVarint => "unterminated protobuf varint"
  | invalidField => "invalid protobuf field"
  | truncatedField => "truncated protobuf field"
  | truncatedFixedField => "truncated fixed protobuf field"
  | unsupportedWireType => "unsupported protobuf wire type"
  | outOfRange => "out of range integral type conversion attempted"
  | missingBlockField id => "missing block field " ++ toString id.val
  | missingBlockRwbs => "missing block rwbs"
  | missingDelay => "sched_stat_iowait missing/invalid delay"
  | missingTask => "sched_stat_iowait missing/invalid task pid"
  | unsupportedRoot => "unsupported Trace root field; raw file preserved"
  | packetTooLong => "Perfetto packet exceeds 16 MiB decode limit"

namespace Wire

def varintAt : List Nat → U64 → Reader UInt8 DecodeError U64
  | [], _, _ => .error .unterminatedVarint
  | _ :: _, _, [] => .error .unexpectedEof
  | shift :: shifts, value, byte :: rest =>
    if shift = 63 ∧ 1 < byte then .error .overflowingVarint
    else
      let value := Word.ofNat 64 (value.val ||| (byte.toNat &&& 127) <<< shift)
      if byte < 128 then .ok (value, rest) else varintAt shifts value rest

def varint : Reader UInt8 DecodeError U64 := varintAt [0, 7, 14, 21, 28, 35, 42, 49, 56, 63] 0

inductive FieldValue where
  | varint (value : U64)
  | bytes (contents : List UInt8)
  | fixed
  deriving DecidableEq

structure Field where
  id : U32
  value : FieldValue
  deriving DecidableEq

def fieldValue (wire : Nat) (data : List UInt8) :
    Except DecodeError (FieldValue × List UInt8) :=
  match wire with
  | 0 => do
    let (value, data) ← varint data
    return (.varint value, data)
  | 2 => do
    let (length, data) ← varint data
    if length.val ≤ data.length then
      return (.bytes (data.take length.val), data.drop length.val)
    else .error .truncatedField
  | 1 => if 8 ≤ data.length then .ok (.fixed, data.drop 8) else .error .truncatedFixedField
  | 5 => if 4 ≤ data.length then .ok (.fixed, data.drop 4) else .error .truncatedFixedField
  | _ => .error .unsupportedWireType

def field : Reader UInt8 DecodeError Field := fun data => do
  let (tag, data) ← varint data
  if tag.val >>> 3 = 0 ∨ 0x1fffffff < tag.val >>> 3 then .error .invalidField
  else
    let (value, data) ← fieldValue (tag.val &&& 7) data
    return (⟨Word.ofNat 32 (tag.val >>> 3), value⟩, data)

def fields (data : List UInt8) : Except DecodeError (List Field) := readAll field data

def number (fields : List Field) (id : U32) : Option U64 :=
  fields.reverse.findSome? fun field =>
    match field.value with
    | .varint value => if field.id = id then some value else none
    | _ => none

def Field.child (id : U32) (field : Field) : Option (List UInt8) :=
  match field.value with
  | .bytes contents => if field.id = id then some contents else none
  | _ => none

def bytes (fields : List Field) (id : U32) : Option (List UInt8) :=
  fields.reverse.findSome? (Field.child id)

def children (fields : List Field) (id : U32) : List (List UInt8) :=
  fields.filterMap (Field.child id)

def required (fields : List Field) (id : U32) : Except DecodeError U64 :=
  (number fields id).elim (.error (.missingBlockField id)) .ok

def toU32 (value : U64) : Option U32 := Word.tryFrom 32 value.val

def requireU32 (value : U64) : Except DecodeError U32 :=
  (toU32 value).elim (.error .outOfRange) .ok

/-- How many bytes continue a character that starts with a byte, and the range of the first of
them. -/
def utf8Lead (byte : UInt8) : Option (Nat × UInt8 × UInt8) :=
  if 0xC2 ≤ byte ∧ byte ≤ 0xDF then some (1, 0x80, 0xBF)
  else if byte = 0xE0 then some (2, 0xA0, 0xBF)
  else if byte = 0xED then some (2, 0x80, 0x9F)
  else if 0xE1 ≤ byte ∧ byte ≤ 0xEF then some (2, 0x80, 0xBF)
  else if byte = 0xF0 then some (3, 0x90, 0xBF)
  else if 0xF1 ≤ byte ∧ byte ≤ 0xF3 then some (3, 0x80, 0xBF)
  else if byte = 0xF4 then some (3, 0x80, 0x8F)
  else none

def utf8Continuation : Nat → UInt8 → UInt8 → List UInt8 → List UInt8
  | count + 1, low, high, byte :: rest =>
    if low ≤ byte ∧ byte ≤ high then byte :: utf8Continuation count 0x80 0xBF rest else []
  | _, _, _, _ => []

/-- The first character and the number of bytes after the first one that belong to it. What is
not a character becomes a replacement for as many bytes as could have started one. -/
def utf8Character (first : UInt8) (rest : List UInt8) : Char × Nat :=
  if first < 128 then (Char.ofNat first.toNat, 0)
  else
    match utf8Lead first with
    | none => ('�', 0)
    | some (count, low, high) =>
      let continuation := utf8Continuation count low high rest
      let lead := first.toNat % 2 ^ (6 - count)
      let code := continuation.foldl (fun code byte => code * 64 + byte.toNat % 64) lead
      (if continuation.length = count then Char.ofNat code else '�', continuation.length)

def utf8Characters : Nat → List UInt8 → List Char
  | rounds + 1, first :: rest =>
    let (character, used) := utf8Character first rest
    character :: utf8Characters rounds (rest.drop used)
  | _, _ => []

def fromUtf8Lossy (contents : List UInt8) : String :=
  String.ofList (utf8Characters contents.length contents)

example : fromUtf8Lossy [0x61, 0xC3, 0xA9, 0xE2, 0x82, 0x62, 0xFF] = "aé�b�" := by
  decide +kernel

def boundedText (contents : List UInt8) : String := fromUtf8Lossy (contents.take 4096)

def text (fields : List Field) (id : U32) : Option String := (bytes fields id).map boundedText

def trimEndNul (value : String) : String :=
  String.ofList (value.toList.reverse.dropWhile (· = '\x00')).reverse

def ascii (value : String) : List UInt8 := value.toList.map fun character =>
  UInt8.ofNat character.toNat

end Wire

def TraceQuality.diagnostic (quality : TraceQuality) (message : String) : TraceQuality :=
  if quality.diagnostics.length < 128 then
    { quality with diagnostics := quality.diagnostics ++ [message] }
  else quality

abbrev Decoding (Value : Type) := Program DecodeError DecodedTrace Value

namespace DecodedTrace

open Program Wire

def modifyQuality (change : TraceQuality → TraceQuality) : Decoding PUnit :=
  modify fun trace => { trace with quality := change trace.quality }

def parseError (message : String) : Decoding PUnit :=
  modifyQuality fun quality =>
    TraceQuality.diagnostic { quality with parseErrors := quality.parseErrors + 1 } message

def limitProjection : Decoding PUnit :=
  modifyQuality fun quality => { quality with projectionLimited := true }

structure WaitArguments where
  delay : Option U64 := none
  task : Option U32 := none
  comm : String := ""

def WaitArguments.read (arguments : WaitArguments) (data : List UInt8) :
    Except DecodeError WaitArguments := do
  let field ← fields data
  if bytes field 1 = some (ascii "delay") then
    return { arguments with
      delay := (number field 5).or ((number field 4).filter (·.val ≤ 2 ^ 63 - 1)) }
  else if bytes field 1 = some (ascii "pid") then
    return { arguments with
      task := (((number field 5).or (number field 4)).bind toU32).filter (0 < ·) }
  else if bytes field 1 = some (ascii "comm") then
    return { arguments with
      comm := (bytes field 3).elim "" fun contents => trimEndNul (fromUtf8Lossy contents) }
  else return arguments

def schedulerWait (event : List Field) (cpu : Option U32) (clock : U32) (data : List UInt8) :
    Except DecodeError (Option SchedulerIoWait) := do
  let generic ← fields data
  if (bytes generic 1 = some (ascii "sched_stat_iowait") ∨
      bytes generic 1 = some (ascii "sched/sched_stat_iowait")) ∧ clock = 0 then
    let arguments ← (children generic 2).foldlM WaitArguments.read {}
    let tsNs ← required event 1
    let delay ← arguments.delay.elim (.error .missingDelay) .ok
    let task ← arguments.task.elim (.error .missingTask) .ok
    return some
      { tsNs := tsNs
        delayNs := delay
        tid := task
        pid := none
        comm := arguments.comm
        cpu := cpu
        source := "Perfetto sched_stat_iowait" }
  else return none

def pushWait (wait : SchedulerIoWait) : Decoding PUnit := do
  let trace ← get
  if trace.schedulerWaits.length < maxEvents then
    modify fun trace => { trace with schedulerWaits := trace.schedulerWaits ++ [wait] }
  else limitProjection

def genericEvent (event : List Field) (cpu : Option U32) (clock : U32) (data : List UInt8) :
    Decoding PUnit := do
  let wait ← lift (schedulerWait event cpu clock data)
  match wait with
  | some wait => pushWait wait
  | none => pure ()

def asI32 (value : U64) : Int := Int.bmod value.val (2 ^ 32)

/-- The size of a request: some events have it, for the others it follows from the sectors. -/
def blockBytes (hasBytes : Bool) (block : List Field) (sectors : U32) : Except DecodeError U64 :=
  if hasBytes then required block 4 else .ok (Word.ofNat 64 (sectors.val * 512))

def blockEvent (event : List Field) (cpu : Option U32) (clock : U32) (kind : BlockKind)
    (recordId : U64) (payload : List UInt8) : Except DecodeError BlockEvent := do
  let block ← fields payload
  let sectors ← requireU32 (← required block 3)
  let hasBytes : Bool := kind = .issue || kind = .insert
  return {
    recordId := recordId
    kind := kind
    timestampNs := ← required event 1
    cpu := cpu
    tid := (number event 2).bind toU32
    deviceEncoded := ← required block 1
    sector := ← required block 2
    sectors := sectors
    bytes := ← blockBytes hasBytes block sectors
    rwbs := ← (text block 5).elim (.error .missingBlockRwbs) .ok
    comm := if hasBytes then text block 6 else none
    error := if hasBytes then none else ((number block 7).or (number block 4)).map asI32
    clock := clock }

def blockKinds : List (U32 × BlockKind) :=
  [(45, .issue), (125, .complete), (126, .insert), (129, .requeue)]

def pushBlock (event : List Field) (cpu : Option U32) (clock : U32) (kind : BlockKind)
    (payload : List UInt8) : Decoding PUnit := do
  let trace ← get
  if maxEvents ≤ trace.events.length then limitProjection
  else
    let recordId := Word.ofNat 64 (trace.events.length + 1)
    let block ← lift (blockEvent event cpu clock kind recordId payload)
    modify fun trace => { trace with events := trace.events ++ [block] }

/-- A sample of the scheduler that is malformed does not keep block events from being read. -/
def schedulerSample (event : List Field) (cpu : Option U32) (clock : U32) : Decoding PUnit :=
  match bytes event 327 with
  | some generic =>
    (genericEvent event cpu clock generic).orElse fun error => parseError error.message
  | none => pure ()

def ftraceEvent (cpu : Option U32) (clock : U32) (raw : List UInt8) : Decoding PUnit := do
  let event ← lift (fields raw)
  schedulerSample event cpu clock
  blockKinds.forM fun (id, kind) =>
    match bytes event id with
    | some payload => pushBlock event cpu clock kind payload
    | none => pure ()

def bundle (data : List UInt8) : Decoding PUnit := do
  let fields ← lift (fields data)
  let cpu := (number fields 1).bind toU32
  let clock := ((number fields 5).elim 0 fun value => Word.ofNat 32 value.val)
  modifyQuality fun quality =>
    { quality with
      unsupportedClocks :=
        if clock ≠ 0 then quality.unsupportedClocks.insert clock else quality.unsupportedClocks
      lostBundles :=
        if number fields 3 = some 1 then quality.lostBundles + 1 else quality.lostBundles
      parseErrors := quality.parseErrors + Word.ofNat 64 (children fields 8).length }
  (children fields 2).forM (ftraceEvent cpu clock)

def processMetadata (snapshotNs : Option U64) (isThread : Bool) (raw : List UInt8) :
    Except DecodeError ProcessMetadata := do
  let process ← fields raw
  let pid ← requireU32 (← required process (if isThread then 3 else 1))
  return {
    snapshotNs := snapshotNs
    pid := pid
    tid := if isThread then (number process 1).bind toU32 else none
    name := (text process (if isThread then 2 else 3)).getD ""
    startFromBootNs := if isThread then none else number process 7 }

def pushProcesses (snapshotNs : Option U64) : List (Bool × List UInt8) → Decoding PUnit
  | [] => pure ()
  | (isThread, raw) :: rest => do
    let trace ← get
    if maxMetadata ≤ trace.processes.length then limitProjection
    else
      let row ← lift (processMetadata snapshotNs isThread raw)
      modify fun trace => { trace with processes := trace.processes ++ [row] }
      pushProcesses snapshotNs rest

def processTree (snapshotNs : Option U64) (data : List UInt8) : Decoding PUnit := do
  let fields ← lift (fields data)
  pushProcesses snapshotNs
    ((children fields 1).map (false, ·) ++ (children fields 2).map (true, ·))

/-- Keep the counters of a processor: the first ones at the start, the last ones at the end. -/
def kernelCounters (phase : Option U64) (raw : List UInt8) : Decoding PUnit := do
  let cpuFields ← lift (fields raw)
  let cpu ← lift (required cpuFields 1)
  let counters : KernelCounters := ⟨number cpuFields 3, number cpuFields 4, number cpuFields 8⟩
  modifyQuality fun quality =>
    { quality with
      kernelStart :=
        if phase = some 1 ∧ quality.kernelStart.containsKey cpu = false then
          quality.kernelStart.insert cpu counters
        else quality.kernelStart
      kernelEnd :=
        if phase = some 2 then quality.kernelEnd.insert cpu counters else quality.kernelEnd }

def ftraceStats (data : List UInt8) : Decoding PUnit := do
  let fields ← lift (fields data)
  let phase := number fields 1
  modifyQuality fun quality =>
    { quality with
      ftraceStartSeen := quality.ftraceStartSeen || decide (phase = some 1)
      ftraceEndSeen := quality.ftraceEndSeen || decide (phase = some 2)
      unknownEvents := (children fields 6).foldl (fun names name => names.insert (boundedText name))
        quality.unknownEvents
      failedEvents := (children fields 7).foldl (fun names name => names.insert (boundedText name))
        quality.failedEvents
      parseErrors := quality.parseErrors +
        Word.ofNat 64 (fields.filter (·.id = 9)).length }
  (children fields 2).forM (kernelCounters phase)

def lossCounters (named : String → String) (fields : List Field) (counters : List (U32 × String))
    (losses : Table String U64) : Table String U64 :=
  counters.foldl (fun losses (id, name) =>
    (number fields id).elim losses fun value => losses.insert (named name) value) losses

def serviceCounters : List (U32 × String) :=
  [(8, "chunks_discarded"), (9, "patches_discarded"), (10, "invalid_packets"),
    (14, "flushes_failed")]

def bufferCounters : List (U32 × String) :=
  [(13, "bytes_overwritten"), (3, "chunks_overwritten"), (18, "chunks_discarded"),
    (6, "patches_failed"), (9, "abi_violations"), (19, "trace_writer_packet_loss")]

def serviceStats (data : List UInt8) : Decoding PUnit := do
  let stats ← lift (fields data)
  modifyQuality fun quality =>
    { quality with
      serviceStatsSeen := true
      finalFlushOutcome := (number stats 15).or quality.finalFlushOutcome
      serviceLossCounters := lossCounters id stats serviceCounters quality.serviceLossCounters }
  (children stats 1).zipIdx.forM fun (raw, index) => do
    let buffer ← lift (fields raw)
    modifyQuality fun quality =>
      { quality with
        serviceLossCounters :=
          lossCounters (fun name => "buffer_" ++ toString index ++ "_" ++ name) buffer
            bufferCounters quality.serviceLossCounters }

def packet (data : List UInt8) : Decoding PUnit := do
  let fields ← lift (fields data)
  (children fields 1).forM bundle
  (children fields 2).forM (processTree (number fields 8))
  (children fields 34).forM ftraceStats
  (children fields 35).forM serviceStats
  if (bytes fields 50).isSome then
    parseError "Compressed packets require decompression; raw trace retained"
  else pure ()

def readPacket : Reader UInt8 DecodeError (List UInt8)
  | [] => .error .unexpectedEof
  | first :: data =>
    if first ≠ 0x0a then .error .unsupportedRoot
    else do
      let (length, data) ← varint data
      if maxPacket < length.val then .error .packetTooLong
      else if length.val ≤ data.length then return (data.take length.val, data.drop length.val)
      else .error .unexpectedEof

def acceptPacket (trace : DecodedTrace) (data : List UInt8) : DecodedTrace :=
  let counted :=
    { trace with quality := { trace.quality with packets := trace.quality.packets + 1 } }
  (((packet data).orElse fun error => parseError error.message).perform counted).2

def stopAt (trace : DecodedTrace) (error : DecodeError) : DecodedTrace :=
  { trace with
    quality := TraceQuality.diagnostic { trace.quality with truncated := true } error.message }

def sorted (trace : DecodedTrace) : DecodedTrace :=
  { trace with
    events := trace.events.insertionSort BlockEvent.before
    schedulerWaits := trace.schedulerWaits.insertionSort fun first second =>
      first.tsNs ≤ second.tsNs }

/-- Every packet takes a byte, so one more round than there are bytes is enough. -/
def decode (data : List UInt8) : Option DecodedTrace :=
  (scan readPacket acceptPacket stopAt (data.length + 1) data {}).map sorted

end DecodedTrace

end EbpfStudio
