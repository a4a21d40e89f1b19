/-
This file models the fixed 64-observation rolling event rate.

Each observation contributes its payload and the gap from the previous event of the same device. The
accumulator keeps the sums of the last 64 payloads and gaps and the number of gaps that are missing,
and each observation replaces the oldest one. A rate is given when all 64 are there and complete.
-/

import EbpfStudio.Library.Word

namespace EbpfStudio

abbrev U64 := Word 64
abbrev U32 := Word 32
abbrev U8 := Word 8

instance lawfulBEqU64 : LawfulBEq U64 := inferInstance

def rollingObservations : Nat := 64

structure RollingRate where
  payloadBytes : U64
  durationNs : U64
  observations : Nat
  deriving DecidableEq

/-- A rate in MiB/s exists only over a positive duration; the quotient itself is a float and
is not modelled. -/
def RollingRate.hasMibS (rate : RollingRate) : Bool := decide (0 < rate.durationNs)

/-- The running sums over the last observations. The source keeps both sums in 128 bits, which
64 observations of 64 bits cannot overflow. -/
structure RollingRateAccumulator where
  samples : List (Option U64 × Option U64) := []
  duration : Nat := 0
  bytes : Nat := 0
  missing : Nat := 0
  deriving DecidableEq

namespace RollingRateAccumulator

def amount (value : Option U64) : Nat := value.elim 0 Fin.val

def missingCount (sample : Option U64 × Option U64) : Nat :=
  if sample.1.isNone || sample.2.isNone then 1 else 0

def push (rates : RollingRateAccumulator) (sample : Option U64 × Option U64) :
    RollingRateAccumulator where
  samples := rates.samples ++ [sample]
  duration := rates.duration + amount sample.1
  bytes := rates.bytes + amount sample.2
  missing := rates.missing + missingCount sample

def age (rates : RollingRateAccumulator) : RollingRateAccumulator :=
  match rates.samples with
  | oldest :: rest =>
    if rollingObservations < rates.samples.length then
      { samples := rest
        duration := rates.duration - amount oldest.1
        bytes := rates.bytes - amount oldest.2
        missing := rates.missing - missingCount oldest }
    else rates
  | [] => rates

def rate (rates : RollingRateAccumulator) : Option RollingRate := do
  if rates.samples.length ≠ rollingObservations ∨ 0 < rates.missing then none
  let payloadBytes ← Word.tryFrom 64 rates.bytes
  let durationNs ← Word.tryFrom 64 rates.duration
  let rate : RollingRate := ⟨payloadBytes, durationNs, rates.samples.length⟩
  if rate.hasMibS then some rate else none

def observe (rates : RollingRateAccumulator) (gapNs payload : Option U64) :
    RollingRateAccumulator × Option RollingRate :=
  let next := (rates.push (gapNs, payload)).age
  (next, next.rate)

end RollingRateAccumulator

end EbpfStudio
