/-
This file proves that a selection of latency buckets picks out the requests that were counted in
them.

The bucket of a latency is the number of its binary digits less one, found through the leading zeros
of the word. So the ends of the buckets are powers of two. The shift for the end of the last bucket
would leave the word, and a range up to there has no upper end.
-/

import EbpfStudio.Protocol.Rolling

namespace EbpfStudio

def leadingZeros (value : U64) : Nat := (BitVec.ofFin value).clz.toNat

def latencyBucket (ns : U64) : U32 := Word.ofNat 32 (63 - leadingZeros (max ns 1))

/-- None if all bits would be shifted out. -/
def checkedShl (value : U64) (amount : Nat) : Option U64 :=
  if amount < 64 then some (Word.ofNat 64 (value.val <<< amount)) else none

structure LatencyRange where
  minNs : U64
  maxExclusiveNs : Option U64

namespace LatencyRange

def fromBuckets (first last : U32) : Option LatencyRange :=
  if last < first ∨ 63 < last then none
  else
    some
      { minNs := if first = 0 then 0 else Word.ofNat 64 (1 <<< first.val)
        maxExclusiveNs := checkedShl 1 (last.val + 1) }

def contains (range : LatencyRange) (latency : Option U64) : Bool :=
  latency.any fun ns => range.minNs ≤ ns && range.maxExclusiveNs.all (ns < ·)

end LatencyRange

variable {ns : U64}

theorem latencyBucket_val : (latencyBucket ns).val = Nat.log2 (max ns.val 1) := by
  have positive : 0 < max ns.val 1 := by omega
  have value : (BitVec.ofFin (max ns 1)).toNat = max ns.val 1 := Fin.coe_max ns 1
  have nonzero : BitVec.ofFin (max ns 1) ≠ 0#64 := fun zero =>
    positive.ne' (value.symm.trans (congrArg BitVec.toNat zero))
  have above := BitVec.two_pow_sub_clz_le_toNat_of_ne_zero (by decide) nonzero
  have below := @BitVec.toNat_lt_two_pow_sub_clz 64 (BitVec.ofFin (max ns 1))
  have few : leadingZeros (max ns 1) < 64 := BitVec.clz_lt_iff_ne_zero.mpr nonzero
  have next : 64 - leadingZeros (max ns 1) = 63 - leadingZeros (max ns 1) + 1 := by omega
  rw [value] at above below
  refine (Nat.mod_eq_of_lt (by omega)).trans (Eq.symm ?_)
  exact (Nat.log2_eq_iff positive.ne').mpr ⟨above, next ▸ below⟩

theorem le_latencyBucket (first : U32) :
    first ≤ latencyBucket ns ↔ first = 0 ∨ 2 ^ first.val ≤ ns.val := by
  rw [Fin.le_def, latencyBucket_val, Nat.le_log2 (by omega)]
  by_cases zero : first = 0
  · subst zero
    exact iff_of_true (Nat.le_max_right _ _) (.inl rfl)
  · have large : 2 ≤ 2 ^ first.val := Nat.le_self_pow (Fin.val_ne_zero_iff.mpr zero) 2
    have real : 2 ^ first.val ≤ max ns.val 1 ↔ 2 ^ first.val ≤ ns.val := by omega
    rw [real, or_iff_right zero]

theorem latencyBucket_le (last : U32) :
    latencyBucket ns ≤ last ↔ ns.val < 2 ^ (last.val + 1) := by
  have large : 2 ≤ 2 ^ (last.val + 1) := Nat.le_self_pow (Nat.succ_ne_zero _) 2
  rw [Fin.le_def, latencyBucket_val, ← Nat.lt_succ_iff, Nat.log2_lt (by omega)]
  show max ns.val 1 < 2 ^ (last.val + 1) ↔ _
  omega

theorem one_shiftLeft_val {amount : Nat} (below : amount < 64) :
    (Word.ofNat 64 (1 <<< amount)).val = 2 ^ amount := by
  refine (Nat.mod_eq_of_lt ?_).trans (Nat.one_shiftLeft amount)
  rw [Nat.one_shiftLeft]
  exact Nat.pow_lt_pow_right (by decide) below

/-- The range of the buckets from the first to the last contains a latency if and only if its own
bucket is one of them. -/
theorem latency_range_is_exact (first last : U32) :
    ((LatencyRange.fromBuckets first last).isSome = true ↔ first ≤ last ∧ last ≤ 63) ∧
    ∀ range, LatencyRange.fromBuckets first last = some range → ∀ ns : U64,
      (range.contains (some ns) = true ↔
        first ≤ latencyBucket ns ∧ latencyBucket ns ≤ last) := by
  unfold LatencyRange.fromBuckets
  split
  case isTrue outside =>
    refine ⟨iff_of_false Bool.false_ne_true fun inside => ?_, fun range none_ => nomatch none_⟩
    exact outside.elim (not_lt.mpr inside.1) (not_lt.mpr inside.2)
  case isFalse inside =>
    obtain ⟨ordered, within⟩ := not_or.mp inside
    refine ⟨iff_of_true rfl ⟨not_lt.mp ordered, not_lt.mp within⟩, ?_⟩
    rintro range ⟨rfl⟩ ns
    have top : last.val ≤ 63 := not_lt.mp within
    have bottom : first.val ≤ last.val := not_lt.mp ordered
    refine Bool.and_eq_true_iff.trans (and_congr ?_ ?_)
    · rw [decide_eq_true_eq, le_latencyBucket]
      split
      case isTrue zero => exact iff_of_true (Fin.zero_le ns) (.inl zero)
      case isFalse nonzero =>
        rw [or_iff_right nonzero, Fin.le_def, one_shiftLeft_val (by omega)]
    · show (checkedShl 1 (last.val + 1)).all _ = true ↔ _
      rw [latencyBucket_le, checkedShl]
      split
      case isTrue below =>
        rw [Option.all_some, decide_eq_true_eq, Fin.lt_def]
        exact iff_of_eq (congrArg (ns.val < ·) (one_shiftLeft_val below))
      case isFalse above =>
        have whole : last.val + 1 = 64 := by omega
        exact iff_of_true rfl (ns.isLt.trans_eq (congrArg (2 ^ ·) whole.symm))

end EbpfStudio
