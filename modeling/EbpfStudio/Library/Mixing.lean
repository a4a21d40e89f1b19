/-
This file models the steps by which a word is scrambled.

Each step is a multiplication by an odd constant, or an exclusive or with a shifted copy of the
word. The first is injective since odd numbers have an inverse modulo a power of two, the second
since the bits that are not shifted in can be read off and the others follow.
-/

import EbpfStudio.Library.Word

namespace Word

variable {width : Nat}

def wrappingMul (first second : Word width) : Word width :=
  (BitVec.ofFin first * BitVec.ofFin second).toFin

def shiftLeft (value : Word width) (amount : Nat) : Word width :=
  (BitVec.ofFin value <<< amount).toFin

def shiftRight (value : Word width) (amount : Nat) : Word width :=
  (BitVec.ofFin value >>> amount).toFin

def xorShift (amount : Nat) (value : Word width) : Word width :=
  value.xor (value.shiftRight amount)

theorem xorShift_xorShift {amount : Nat} (half : width ≤ amount + amount) (value : Word width) :
    xorShift amount (xorShift amount value) = value := by
  have undone (bits : BitVec width) :
      bits ^^^ bits >>> amount ^^^ (bits ^^^ bits >>> amount) >>> amount = bits := by
    have gone : bits >>> amount >>> amount = BitVec.ofNat width 0 := by
      rw [← BitVec.shiftRight_add]
      exact BitVec.ushiftRight_eq_zero half
    rw [BitVec.ushiftRight_xor_distrib, gone, BitVec.xor_zero, BitVec.xor_assoc,
      BitVec.xor_self, BitVec.xor_zero]
  exact congrArg BitVec.toFin (undone (BitVec.ofFin value))

theorem xorShift_injective {amount : Nat} (half : width ≤ amount + amount) :
    Function.Injective fun value : Word width => xorShift amount value :=
  Function.LeftInverse.injective (xorShift_xorShift half)

theorem wrappingMul_injective {factor inverse : Word width}
    (inverts : BitVec.ofFin factor * BitVec.ofFin inverse = BitVec.ofNat width 1) :
    Function.Injective fun value : Word width => value.wrappingMul factor := by
  refine Function.LeftInverse.injective (g := fun value => value.wrappingMul inverse) ?_
  intro value
  have undone : BitVec.ofFin value * BitVec.ofFin factor * BitVec.ofFin inverse =
      BitVec.ofFin value := by
    rw [BitVec.mul_assoc, inverts, BitVec.mul_one]
  exact congrArg BitVec.toFin undone

end Word
