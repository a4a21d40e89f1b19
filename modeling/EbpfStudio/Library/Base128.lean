/-
This file is about numbers written in groups of seven bits, the lowest group first.

Every byte but the last has its highest bit set. `Encodes` relates bytes to a number by recursion on
the bytes. Every number has an encoding, and the shortest one (`encode`) has as many bytes as the
number has groups. An encoding ends where its highest bit is clear, so no encoding continues
another.
-/

import Mathlib

namespace Base128

open List

inductive Encodes : List UInt8 → Nat → Prop
  | last {byte : UInt8} (ends : byte.toNat < 128) : Encodes [byte] byte.toNat
  | more {byte : UInt8} {rest : List UInt8} {number : Nat} (continues : 128 ≤ byte.toNat)
      (encodes : Encodes rest number) :
      Encodes (byte :: rest) (byte.toNat % 128 + 128 * number)

variable {bytes : List UInt8} {number : Nat}

theorem Encodes.ne_nil (encodes : Encodes bytes number) : bytes ≠ [] := by
  cases encodes <;> exact cons_ne_nil _ _

theorem Encodes.exists_last (encodes : Encodes bytes number) :
    ∃ byte ∈ bytes, byte.toNat < 128 := by
  induction encodes with
  | last ends => exact ⟨_, mem_cons_self, ends⟩
  | more _ _ hypothesis =>
    obtain ⟨byte, member, ends⟩ := hypothesis
    exact ⟨byte, mem_cons_of_mem _ member, ends⟩

theorem Encodes.continues_of_proper {part : List UInt8} (encodes : Encodes bytes number)
    (beginning : part <+: bytes) (proper : part ≠ bytes) :
    part.length < bytes.length ∧ ∀ byte ∈ part, 128 ≤ byte.toNat := by
  induction encodes generalizing part with
  | last ends =>
    rcases prefix_cons_iff.mp beginning with rfl | ⟨rest, rfl, within⟩
    · exact ⟨one_pos, fun byte member => absurd member not_mem_nil⟩
    · exact absurd (congrArg _ (prefix_nil.mp within)) proper
  | more continues _ hypothesis =>
    rcases prefix_cons_iff.mp beginning with rfl | ⟨rest, rfl, within⟩
    · exact ⟨Nat.succ_pos _, fun byte member => absurd member not_mem_nil⟩
    · obtain ⟨shorter, going⟩ := hypothesis within fun same => proper (by rw [same])
      refine ⟨Nat.succ_lt_succ shorter, fun byte member => ?_⟩
      rcases mem_cons.mp member with rfl | later
      · exact continues
      · exact going byte later

theorem or_group {value place : Nat} (below : value < 2 ^ place) (byte : UInt8) :
    value ||| (byte.toNat &&& 127) <<< place = value + byte.toNat % 128 * 2 ^ place := by
  rw [show (127 : Nat) = 2 ^ 7 - 1 from rfl, Nat.and_two_pow_sub_one_eq_mod, Nat.shiftLeft_eq,
    Nat.or_comm, Nat.mul_comm, ← Nat.two_pow_add_eq_or_of_lt below, Nat.add_comm]

/-- The shortest encoding of a number. -/
def encode (number : Nat) : List UInt8 :=
  if number < 128 then [UInt8.ofNat number]
  else UInt8.ofNat (number % 128 + 128) :: encode (number / 128)

theorem encodes_encode (number : Nat) : Encodes (encode number) number := by
  induction number using encode.induct with
  | case1 number small =>
    have byte : (UInt8.ofNat number).toNat = number := Nat.mod_eq_of_lt (by omega)
    rw [encode, if_pos small]
    have last := Encodes.last (byte.trans_lt small)
    rwa [byte] at last
  | case2 number large hypothesis =>
    have byte : (UInt8.ofNat (number % 128 + 128)).toNat = number % 128 + 128 :=
      Nat.mod_eq_of_lt (by omega)
    have more := Encodes.more (byte ▸ Nat.le_add_left 128 _) hypothesis
    rw [byte, Nat.add_mod_right, Nat.mod_mod, Nat.mod_add_div] at more
    rwa [encode, if_neg large]

theorem length_encode {places number : Nat} (small : number < 128 ^ (places + 1)) :
    (encode number).length ≤ places + 1 := by
  induction places generalizing number with
  | zero =>
    have one : number < 128 := small
    rw [encode, if_pos one, length_singleton]
  | succ places hypothesis =>
    rw [encode]
    split
    · exact Nat.succ_le_succ (Nat.zero_le _)
    · exact Nat.succ_le_succ (hypothesis (Nat.div_lt_of_lt_mul (by rwa [← Nat.pow_succ'])))

end Base128
