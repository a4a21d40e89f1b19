/-
This file models how the agent attributes block requests to files by their sectors.

The filesystem reports extents, and the agent keeps them in a queue of bounded length. A move of
sectors between devices adds translated copies of the extents that it touches. An issue gets its
origins from the stored extents that overlap it, one for each file, with the path of the file if one
is known.
-/

import EbpfStudio.Kernel.RoundTrip
import EbpfStudio.Library.Expiry

namespace EbpfStudio

open Expiry Run

def kindFileExtent : U8 := 7
def kindBioRemap : U8 := 8

/-- The fields of a record of the kernel that the attribution reads. The record of a move has
the old sector in `requestedBytes` and the old device in `fsDevice`. -/
structure ExtentEvent where
  tsNs : U64
  sector : U64
  requestedBytes : U64
  originId : U64
  inode : U64
  device : U32
  fsDevice : U32
  sectors : U32
  pid : U32
  tid : U32
  kind : U8
  deriving DecidableEq

/-- A stored extent. -/
structure F2fsExtentObservation where
  tsNs : U64
  device : U32
  fsDevice : U32
  sector : U64
  sectors : U32
  inode : U64
  originKey : U64
  pid : U32
  tid : U32
  deriving DecidableEq

/-- The stored extents and the known paths. -/
structure F2fsExtentAttributor where
  extents : List F2fsExtentObservation := []
  paths : Table (U32 × U32 × U64) (FileIdentity × PathSnapshot × U64) := ∅

def extentTtlNs : Nat := 5_000_000_000
def maxExtents : Nat := 16_384

namespace F2fsExtentObservation

def endSector (extent : F2fsExtentObservation) : U64 := extent.sector.saturatingAdd extent.sectors

def ofEvent (event : ExtentEvent) : F2fsExtentObservation where
  tsNs := event.tsNs
  device := event.device
  fsDevice := event.fsDevice
  sector := event.sector
  sectors := event.sectors
  inode := event.inode
  originKey := event.originId
  pid := event.pid
  tid := event.tid

def sameAs (event : ExtentEvent) (extent : F2fsExtentObservation) : Bool :=
  extent.device = event.device && extent.fsDevice = event.fsDevice &&
    extent.sector = event.sector && extent.sectors = event.sectors && extent.inode = event.inode

def refresh (event : ExtentEvent) (extent : F2fsExtentObservation) : F2fsExtentObservation :=
  { extent with
    tsNs := event.tsNs, originKey := event.originId, pid := event.pid, tid := event.tid }

def age (nowNs : U64) (extent : F2fsExtentObservation) : Nat :=
  (nowNs.saturatingSub extent.tsNs).val

def expired (nowNs : U64) (extent : F2fsExtentObservation) : Bool :=
  extentTtlNs < extent.age nowNs

def translate (event : ExtentEvent) (extent : F2fsExtentObservation) :
    Option F2fsExtentObservation :=
  let oldSector := event.requestedBytes
  let oldEnd := oldSector.saturatingAdd event.sectors
  let sourceMatches := extent.device = event.fsDevice || extent.device = event.device
  if !sourceMatches || event.tsNs < extent.tsNs || oldEnd ≤ extent.sector ||
      extent.endSector ≤ oldSector then none
  else
    let overlapStart := max extent.sector oldSector
    let overlapEnd := min extent.endSector oldEnd
    some
      { tsNs := event.tsNs
        device := event.device
        fsDevice := extent.fsDevice
        sector := event.sector.saturatingAdd (overlapStart.val - oldSector.val)
        sectors := (Word.tryFrom 32 (overlapEnd.val - overlapStart.val)).getD (Word.maximum 32)
        inode := extent.inode
        originKey := extent.originKey
        pid := extent.pid
        tid := extent.tid }

/-- An extent overlaps an issue. -/
def touches (issue : BlockIssue) (extent : F2fsExtentObservation) : Bool :=
  extent.device = encodeDevice (issue.deviceMajor, issue.deviceMinor) &&
    extent.tsNs ≤ issue.tsNs && extent.sector < issue.sector.saturatingAdd issue.sectors &&
    issue.sector < extent.endSector

end F2fsExtentObservation

namespace F2fsExtentAttributor

/-- Drop what is too old, from the front of the queue, and the paths that are too old. -/
def prune (attributor : F2fsExtentAttributor) (nowNs : U64) : F2fsExtentAttributor where
  extents := attributor.extents.dropWhile (·.expired nowNs)
  paths := attributor.paths.retain fun _ entry =>
    (nowNs.saturatingSub entry.2.2).val ≤ 30_000_000_000

def observeRawExtent (attributor : F2fsExtentAttributor) (event : ExtentEvent) :
    F2fsExtentAttributor :=
  if event.kind ≠ kindFileExtent || event.sectors = 0 then attributor
  else
    let pruned := attributor.prune event.tsNs
    match modifyLast? (·.sameAs event) (·.refresh event) pruned.extents with
    | some refreshed => { pruned with extents := refreshed }
    | none => { pruned with
        extents := pushBounded maxExtents pruned.extents (.ofEvent event) }

def observeBioRemap (attributor : F2fsExtentAttributor) (event : ExtentEvent) :
    F2fsExtentAttributor :=
  if event.kind ≠ kindBioRemap || event.sectors = 0 then attributor
  else
    let pruned := attributor.prune event.tsNs
    { pruned with
      extents := (pruned.extents.filterMap (·.translate event)).foldl (pushBounded maxExtents)
        pruned.extents }

def observeFileIo (attributor : F2fsExtentAttributor) (file : FileIo) : F2fsExtentAttributor :=
  match file.fileIdentity, file.pathSnapshot with
  | some identity, some path =>
    { attributor with
      paths := attributor.paths.insert
        (identity.fsDeviceMajor, identity.fsDeviceMinor, identity.inode)
        (identity, path, file.endTsNs) }
  | _, _ => attributor

/-- The origin that an extent gives to a request, with the path of its file if it is known. -/
def originOf (attributor : F2fsExtentAttributor) (issue : BlockIssue) (salt : U64)
    (extent : F2fsExtentObservation) : RequestOrigin :=
  let device := kernelDevice extent.fsDevice
  let cached := attributor.paths.lookup (device.1, device.2, extent.inode)
  { tsNs := issue.tsNs
    requestId := issue.requestId
    originId := opaqueKey (extent.originKey.xor (extent.inode.rotateLeft 17)) salt
    file := cached.elim ⟨device.1, device.2, extent.inode, none, none⟩ (·.1)
    path := cached.map (·.2.1)
    origin := .file
    operation := issue.operation
    bytes := some (Word.ofNat 64 issue.bytes.val)
    pid := extent.pid
    tid := extent.tid
    fileOriginConfidence := .exact
    requestLifetimeConfidence := .probable
    incomplete := false }

/-- The origins of an issue. -/
def originsForIssue (attributor : F2fsExtentAttributor) (issue : BlockIssue) (salt : U64) :
    F2fsExtentAttributor × List RequestOrigin :=
  let pruned := attributor.prune issue.tsNs
  (pruned, retainFirst RequestOrigin.file []
    ((pruned.extents.filter (·.touches issue)).map (pruned.originOf issue salt)))

inductive Input where
  | extent (event : ExtentEvent)
  | remap (event : ExtentEvent)
  | fileIo (file : FileIo)
  | issue (issue : BlockIssue)

def step (attributor : F2fsExtentAttributor) : Input → F2fsExtentAttributor
  | .extent event => attributor.observeRawExtent event
  | .remap event => attributor.observeBioRemap event
  | .fileIo file => attributor.observeFileIo file
  | .issue issue => attributor.prune issue.tsNs

end F2fsExtentAttributor

/-- The report of eight sectors of a file, on the device that the sample requests read. -/
def readExtent (tsNs sector inode : U64) : ExtentEvent where
  tsNs := tsNs
  sector := sector
  requestedBytes := 0
  originId := 7
  inode := inode
  device := encodeDevice (8, 0)
  fsDevice := encodeDevice (8, 0)
  sectors := 8
  pid := 10
  tid := 11
  kind := kindFileExtent

end EbpfStudio
