/-
This file proves that the rolling rate is the rate of its definition.

The invariant is that the sums are those of the last 64 observations (`Sums`). Adding one and taking
the oldest away keeps it, because the oldest is a part of the sum. So what is returned can be read
off the window alone, and the sums fit since 64 words do.
-/

import EbpfStudio.Library.Run
import EbpfStudio.Protocol.Rolling

namespace EbpfStudio

open Run List Option

abbrev RateSample := Option U64 × Option U64

def isComplete (sample : RateSample) : Prop :=
  sample.1.isSome = true ∧ sample.2.isSome = true

def totalGap (samples : List RateSample) : Nat :=
  (samples.map fun sample => RollingRateAccumulator.amount sample.1).sum

def totalPayload (samples : List RateSample) : Nat :=
  (samples.map fun sample => RollingRateAccumulator.amount sample.2).sum

namespace RollingRateAccumulator

def step (rates : RollingRateAccumulator) (sample : RateSample) : RollingRateAccumulator :=
  (rates.observe sample.1 sample.2).1

structure Sums (rates : RollingRateAccumulator) : Prop where
  duration : rates.duration = totalGap rates.samples
  bytes : rates.bytes = totalPayload rates.samples
  missing : rates.missing = (rates.samples.map missingCount).sum

variable {rates : RollingRateAccumulator}

theorem Sums.push (sums : rates.Sums) (sample : RateSample) : (rates.push sample).Sums where
  duration := by
    show rates.duration + amount sample.1 = totalGap (rates.samples ++ [sample])
    rw [sums.duration, totalGap, totalGap, map_append, sum_append]
    rfl
  bytes := by
    show rates.bytes + amount sample.2 = totalPayload (rates.samples ++ [sample])
    rw [sums.bytes, totalPayload, totalPayload, map_append, sum_append]
    rfl
  missing := by
    show rates.missing + missingCount sample = ((rates.samples ++ [sample]).map missingCount).sum
    rw [sums.missing, map_append, sum_append]
    rfl

theorem samples_age (rates : RollingRateAccumulator) :
    rates.age.samples =
      if rollingObservations < rates.samples.length then rates.samples.tail
      else rates.samples := by
  unfold age
  cases samples : rates.samples with
  | nil => rw [samples]; rfl
  | cons oldest rest =>
    dsimp only
    split
    · rfl
    · exact samples

theorem Sums.split (sums : rates.Sums) {oldest : RateSample} {rest : List RateSample}
    (samples : rates.samples = oldest :: rest) :
    rates.duration = amount oldest.1 + totalGap rest ∧
      rates.bytes = amount oldest.2 + totalPayload rest ∧
      rates.missing = missingCount oldest + (rest.map missingCount).sum := by
  refine ⟨?_, ?_, ?_⟩
  · rw [sums.duration, samples, totalGap, map_cons, sum_cons, totalGap]
  · rw [sums.bytes, samples, totalPayload, map_cons, sum_cons, totalPayload]
  · rw [sums.missing, samples, map_cons, sum_cons]

theorem Sums.age (sums : rates.Sums) : rates.age.Sums := by
  unfold RollingRateAccumulator.age
  cases samples : rates.samples with
  | nil => exact sums
  | cons oldest rest =>
    obtain ⟨duration, bytes, missing⟩ := sums.split samples
    dsimp only
    split
    · exact ⟨Nat.sub_eq_of_eq_add' duration, Nat.sub_eq_of_eq_add' bytes,
        Nat.sub_eq_of_eq_add' missing⟩
    · exact sums

theorem Sums.oldest_le (sums : rates.Sums) {oldest : RateSample}
    (first : oldest ∈ rates.samples.head?) :
    amount oldest.1 ≤ rates.duration ∧ amount oldest.2 ≤ rates.bytes ∧
      missingCount oldest ≤ rates.missing := by
  obtain ⟨rest, samples⟩ := head?_eq_some_iff.mp first
  obtain ⟨duration, bytes, missing⟩ := sums.split samples
  exact ⟨duration ▸ Nat.le_add_right _ _, bytes ▸ Nat.le_add_right _ _,
    missing ▸ Nat.le_add_right _ _⟩

theorem rtake_snoc {Sample : Type} (history : List Sample) (sample : Sample) (count : Nat) :
    (if count + 1 < (history.rtake (count + 1) ++ [sample]).length then
        (history.rtake (count + 1) ++ [sample]).tail
      else history.rtake (count + 1) ++ [sample]) =
      (history ++ [sample]).rtake (count + 1) := by
  rw [rtake_concat_succ]
  unfold rtake
  rw [length_append, length_drop, length_singleton]
  by_cases full : count + 1 ≤ history.length
  · rw [if_pos (by omega), tail_append_of_ne_nil (by simp; omega), tail_drop]
    congr 2
    omega
  · rw [if_neg (by omega)]
    congr 2
    omega

theorem run_window (history : List RateSample) :
    (run step {} history).samples = history.rtake rollingObservations ∧
      (run step {} history).Sums := by
  refine run_induction (fun history (rates : RollingRateAccumulator) =>
    rates.samples = history.rtake rollingObservations ∧ rates.Sums) ⟨rfl, rfl, rfl, rfl⟩ ?_ history
  rintro history sample ⟨samples, sums⟩
  refine ⟨?_, (sums.push sample).age⟩
  show ((run step {} history).push sample).age.samples = _
  have pushed : ((run step {} history).push sample).samples =
      history.rtake rollingObservations ++ [sample] := by
    rw [← samples]
    rfl
  rw [samples_age, pushed]
  exact rtake_snoc history sample 63

theorem missing_eq_zero_iff (samples : List RateSample) :
    (samples.map missingCount).sum = 0 ↔ ∀ sample ∈ samples, isComplete sample := by
  rw [List.sum_eq_zero_iff_forall_eq_nat, List.forall_mem_map]
  refine forall₂_congr fun sample _ => ?_
  obtain ⟨gap, payload⟩ := sample
  cases gap <;> cases payload <;> simp [missingCount, isComplete]

theorem Sums.rate_eq_some_iff (sums : rates.Sums) (rate : RollingRate) :
    rates.rate = some rate ↔
      rates.samples.length = rollingObservations ∧ (∀ sample ∈ rates.samples, isComplete sample) ∧
        0 < totalGap rates.samples ∧ totalGap rates.samples = rate.durationNs.val ∧
        totalPayload rates.samples = rate.payloadBytes.val ∧
        rates.samples.length = rate.observations := by
  rw [← missing_eq_zero_iff, ← sums.missing, ← sums.duration, ← sums.bytes]
  unfold RollingRateAccumulator.rate
  by_cases unusable : rates.samples.length ≠ rollingObservations ∨ 0 < rates.missing
  · rw [if_pos unusable]
    refine ⟨fun impossible => (nomatch impossible), fun ⟨length, complete, _⟩ => ?_⟩
    rcases unusable with other | some_
    · exact absurd length other
    · exact absurd complete some_.ne'
  · have usable : rates.samples.length = rollingObservations ∧ rates.missing = 0 := by
      rw [not_or, not_not, Nat.not_lt, Nat.le_zero] at unusable
      exact unusable
    obtain ⟨length, complete⟩ := usable
    rw [if_neg unusable]
    obtain ⟨payloadBytes, durationNs, observations⟩ := rate
    simp only [length, complete, bind_eq_bind, bind_eq_some_iff,
      Word.tryFrom_eq_some, RollingRate.hasMibS, ite_none_right_eq_some, true_and,
      some.injEq, RollingRate.mk.injEq, decide_eq_true_eq]
    constructor
    · rintro ⟨_, bytes, _, duration, positive, rfl, rfl, observed⟩
      rw [Fin.lt_def, ← duration] at positive
      exact ⟨positive, duration, bytes, observed⟩
    · rintro ⟨positive, duration, bytes, observed⟩
      rw [duration] at positive
      exact ⟨_, bytes, _, duration, positive, rfl, rfl, observed⟩

theorem sum_lt_of_length_le {samples : List RateSample}
    (few : samples.length ≤ rollingObservations + 1) (field : RateSample → Option U64) :
    (samples.map fun sample => amount (field sample)).sum < 2 ^ 128 := by
  have each : ∀ value ∈ samples.map fun sample => amount (field sample), value ≤ 2 ^ 64 := by
    intro value member
    obtain ⟨sample, -, rfl⟩ := mem_map.mp member
    cases field sample with
    | none => exact Nat.zero_le _
    | some word => exact word.isLt.le
  have bound := sum_le_card_nsmul _ _ each
  rw [length_map, smul_eq_mul] at bound
  calc (samples.map fun sample => amount (field sample)).sum
    _ ≤ samples.length * 2 ^ 64 := bound
    _ ≤ (rollingObservations + 1) * 2 ^ 64 := Nat.mul_le_mul_right _ few
    _ < 2 ^ 128 := by decide

/-- An observation returns a rate exactly when 64 observations were made, the last 64 of them are
complete, their sums are in range and their time is not empty; and then the rate has these sums. -/
theorem rolling_rate_is_exact (history : List RateSample) (last : RateSample) :
    let rates := run step {} history
    let pushed := rates.push last
    let window := (history ++ [last]).rtake rollingObservations
    let result := (rates.observe last.1 last.2).2
    (result.isSome = true ↔
      rollingObservations ≤ (history ++ [last]).length ∧
        (∀ sample ∈ window, isComplete sample) ∧
        totalGap window < 2 ^ 64 ∧ totalPayload window < 2 ^ 64 ∧ 0 < totalGap window) ∧
      (∀ rate ∈ result, rate.durationNs.val = totalGap window ∧
        rate.payloadBytes.val = totalPayload window ∧
        rate.observations = rollingObservations) ∧
      (∀ oldest ∈ pushed.samples.head?, amount oldest.1 ≤ pushed.duration ∧
        amount oldest.2 ≤ pushed.bytes ∧ missingCount oldest ≤ pushed.missing) ∧
      pushed.duration < 2 ^ 128 ∧ pushed.bytes < 2 ^ 128 := by
  intro rates pushed window result
  obtain ⟨samples, sums⟩ := run_window history
  obtain ⟨nextSamples, nextSums⟩ := run_window (history ++ [last])
  rw [run_snoc] at nextSamples nextSums
  have returned : ∀ rate, result = some rate ↔ _ := nextSums.rate_eq_some_iff
  rw [nextSamples] at returned
  have full : window.length = rollingObservations ↔
      rollingObservations ≤ (history ++ [last]).length := by
    show ((history ++ [last]).drop _).length = _ ↔ _
    rw [length_drop]
    omega
  have held : pushed.samples.length ≤ rollingObservations + 1 := by
    show (rates.samples ++ [last]).length ≤ _
    rw [length_append, samples, rtake, length_drop, length_singleton]
    omega
  have room := sums.push last
  refine ⟨?_, ?_, fun oldest first => room.oldest_le first, ?_, ?_⟩
  · rw [isSome_iff_exists]
    simp only [returned, ← full]
    constructor
    · rintro ⟨rate, length, complete, positive, duration, bytes, -⟩
      exact ⟨length, complete, duration ▸ rate.durationNs.isLt, bytes ▸ rate.payloadBytes.isLt,
        positive⟩
    · rintro ⟨length, complete, duration, bytes, positive⟩
      exact ⟨⟨⟨_, bytes⟩, ⟨_, duration⟩, _⟩, length, complete, positive, rfl, rfl, rfl⟩
  · intro rate found
    obtain ⟨length, -, -, duration, bytes, observed⟩ := (returned rate).mp found
    exact ⟨duration.symm, bytes.symm, observed.symm.trans length⟩
  · rw [room.duration]
    exact sum_lt_of_length_le held Prod.fst
  · rw [room.bytes]
    exact sum_lt_of_length_le held Prod.snd

end RollingRateAccumulator

end EbpfStudio
