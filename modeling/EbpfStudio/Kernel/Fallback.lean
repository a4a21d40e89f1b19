/-
This file models how trace records without a request pointer are paired.

Without a pointer the id is made of the device, the sector, the number of sectors and the operation.
They are folded into one word, which is scrambled. The scrambling can be undone, so two records
share an id exactly if they fold to the same word, and only so does a completion find another
request.
-/

import EbpfStudio.Kernel.Isolation
import EbpfStudio.Library.Mixing

namespace EbpfStudio

open Run BlockKernel

/-- The fields of a trace record of a block event. Some layouts do not have all of them. -/
structure TraceRecord where
  device : U32
  sector : U64
  sectors : U32
  bytes : Option U32
  rwbs : Option U8
  request : Option U64
  status : Option Int

def decodeOperation (first : U8) : U8 :=
  operationCode <|
    if first.val = 'R'.toNat then .read
    else if first.val = 'W'.toNat then .write
    else if first.val = 'F'.toNat then .flush
    else if first.val = 'D'.toNat then .discard
    else .other

/-- The fields of a request, folded into a word. -/
def foldedRequest (device : U32) (sector : U64) (sectors : U32) (operation : U8) : U64 :=
  ((sector.xor ((widen device).shiftLeft 32)).xor ((widen sectors).shiftLeft 8)).xor
    (Word.ofNat 64 operation.val)

/-- The mixing of a folded word. -/
def scramble (value : U64) : U64 :=
  Word.xorShift 33 ((Word.xorShift 33 value).wrappingMul 0xff51afd7ed558ccd)

/-- The id of a request without a pointer. -/
def fallbackRequestId (device : U32) (sector : U64) (sectors : U32) (operation : U8) : U64 :=
  scramble (foldedRequest device sector sectors operation)

/-- The event of a trace record. -/
def handleBlock (kind : BlockProbeKind) (record : TraceRecord) : BlockDecoded :=
  let operation := record.rwbs.elim (operationCode .other) decodeOperation
  { kind := kind
    device := record.device
    sector := record.sector
    sectors := record.sectors
    bytes := record.bytes.getD (record.sectors.saturatingMul 512)
    operation := operation
    requestId := record.request.getD
      (fallbackRequestId record.device record.sector record.sectors operation)
    correlationExact := record.request.isSome
    status := record.status.getD 0 }

theorem scramble_injective : Function.Injective scramble := by
  have shift : Function.Injective fun value : U64 => Word.xorShift 33 value :=
    Word.xorShift_injective (by decide)
  have multiply : Function.Injective fun value : U64 => value.wrappingMul 0xff51afd7ed558ccd :=
    Word.wrappingMul_injective (show BitVec.ofFin (0xff51afd7ed558ccd : U64) *
      BitVec.ofFin (0x4f74430c22a54005 : U64) = BitVec.ofNat 64 1 by decide)
  exact shift.comp (multiply.comp shift)

structure RequestFields where
  device : U32
  sector : U64
  sectors : U32
  operation : U8
  deriving DecidableEq

def BlockDecoded.fields (decoded : BlockDecoded) : RequestFields :=
  ⟨decoded.device, decoded.sector, decoded.sectors, decoded.operation⟩

def BlockStart.fields (start : BlockStart) : RequestFields :=
  ⟨start.device, start.sector, start.sectors, start.operation⟩

def RequestFields.folded (fields : RequestFields) : U64 :=
  foldedRequest fields.device fields.sector fields.sectors fields.operation

/-- A probe that was decoded without a pointer. -/
def WithoutPointer {cpus : Nat} (probe : BlockProbe cpus) : Prop :=
  ∃ kind record, record.request = none ∧ probe.decoded = handleBlock kind record

variable {cpus : Nat}

theorem WithoutPointer.requestId {probe : BlockProbe cpus} (without : WithoutPointer probe) :
    probe.decoded.requestId = scramble probe.decoded.fields.folded := by
  obtain ⟨kind, record, noPointer, decoded⟩ := without
  rw [decoded]
  unfold handleBlock
  dsimp only
  rw [noPointer]
  rfl

theorem WithoutPointer.requestId_eq_iff {first second : BlockProbe cpus}
    (without : WithoutPointer first) (without' : WithoutPointer second) :
    first.decoded.requestId = second.decoded.requestId ↔
      first.decoded.fields.folded = second.decoded.fields.folded := by
  rw [without.requestId, without'.requestId]
  exact scramble_injective.eq_iff

/-- In every run of probes without a request pointer, a completion that finds a remembered
request has its device, sector, number of sectors and operation, provided that no outstanding probe
with other fields is folded to the same word. -/
theorem fallback_completion_has_its_start {cpus : Nat} (collectorPid : U32) (sessionId : String)
    (history : List (CaptureStep cpus)) (probe : BlockProbe cpus) (start : BlockStart)
    (without : ∀ other, .probe other ∈ history ++ [.probe probe] → WithoutPointer other)
    (separate : ∀ before other after, history = before ++ .probe other :: after →
      (∀ later, .probe later ∈ after → ¬ Completes probe.decoded.requestId later) →
      other.decoded.fields.folded = probe.decoded.fields.folded →
        other.decoded.fields = probe.decoded.fields)
    (consumed : (kernelAfter collectorPid sessionId history).starts.lookup
      probe.decoded.requestId = some start) :
    start.fields = probe.decoded.fields := by
  obtain ⟨before, other, after, _, _, split, outstanding, sameId, rfl⟩ :=
    startOf_run collectorPid sessionId history consumed
  have member : .probe other ∈ history := by
    rw [split]
    exact (List.mem_append_right _ List.mem_cons_self)
  have withoutOther := without other (List.mem_append_left _ member)
  have withoutProbe := without probe List.mem_concat_self
  exact separate before other after split outstanding
    ((withoutOther.requestId_eq_iff withoutProbe).mp sameId)

def readProbe (kind : BlockProbeKind) (sector : U64) (sectors : U32) (tsNs : U64) :
    BlockProbe 1 where
  decoded := handleBlock kind
    { device := 0x800000, sector := sector, sectors := sectors, bytes := none,
      rwbs := some (Word.ofNat 8 'R'.toNat), request := none, status := none }
  pid := 10
  tid := 10
  uid := 10_001
  comm := []
  tsNs := tsNs
  cpu := 0
  stackId := none
  room := 4

theorem withoutPointer_readProbe (kind : BlockProbeKind) (sector : U64) (sectors : U32)
    (tsNs : U64) : WithoutPointer (readProbe kind sector sectors tsNs) :=
  ⟨kind, _, rfl, rfl⟩

theorem fallback_completion_has_its_start_read :
    let history : List (CaptureStep 1) :=
      [.probe (readProbe .issue 8 8 100), .probe (readProbe .issue 16 8 110)]
    ∃ start, (kernelAfter 7 "s" history).starts.lookup
        (readProbe .complete 8 8 200).decoded.requestId = some start ∧
      start.fields = (readProbe .complete 8 8 200).decoded.fields := by
  intro history
  obtain ⟨start, consumed⟩ : ∃ start, (kernelAfter 7 "s" history).starts.lookup
      (readProbe .complete 8 8 200).decoded.requestId = some start :=
    Option.isSome_iff_exists.mp (by decide +kernel)
  refine ⟨start, consumed, fallback_completion_has_its_start 7 "s" history
    (readProbe .complete 8 8 200) start ?_ ?_ consumed⟩
  · intro other member
    simp only [history, List.cons_append, List.nil_append, List.mem_cons,
      CaptureStep.probe.injEq, List.not_mem_nil, or_false] at member
    rcases member with rfl | rfl | rfl <;> exact withoutPointer_readProbe ..
  · intro before other after split _
    have member : .probe other ∈ history :=
      split ▸ List.mem_append_right _ List.mem_cons_self
    simp only [history, List.mem_cons, CaptureStep.probe.injEq, List.not_mem_nil, or_false]
      at member
    rcases member with rfl | rfl
    · exact fun _ => rfl
    · intro folded
      exact absurd folded (by decide +kernel)

/-- A read of 8 sectors from sector 8 is issued. The completion of a read of 16 sectors from
sector 6152 takes its record and is counted. -/
theorem fallback_ids_collide :
    let history : List (CaptureStep 1) := [.probe (readProbe .issue 8 8 100)]
    let probe := readProbe .complete 6152 16 200
    ((kernelAfter 7 "s" history).starts.lookup probe.decoded.requestId).map BlockStart.fields =
        some ⟨0x800000, 8, 8, operationCode .read⟩ ∧
      probe.decoded.fields = ⟨0x800000, 6152, 16, operationCode .read⟩ ∧
      ((kernelAfter 7 "s" history).processBlock probe).completions = 1 := by
  decide +kernel

end EbpfStudio
