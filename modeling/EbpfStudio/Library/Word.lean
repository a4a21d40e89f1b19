/-
This file models unsigned machine words of a fixed width.

A word is a natural number below `2 ^ width`, so a value outside the machine's range cannot be
built. The operations are those of the source, each by its own rule for what does not fit: wrapping,
saturating, or none at all. The lemmas say when saturation is not reached and which order relations
survive it.
-/

import Mathlib

abbrev Word (width : Nat) := Fin (2 ^ width)

namespace Word

instance neZero8 : NeZero (2 ^ 8) := ⟨by decide⟩

instance neZero16 : NeZero (2 ^ 16) := ⟨by decide⟩

instance neZero32 : NeZero (2 ^ 32) := ⟨by decide⟩

instance neZero64 : NeZero (2 ^ 64) := ⟨by decide⟩

variable {width : Nat}

def maximum (width : Nat) : Word width :=
  ⟨2 ^ width - 1, Nat.sub_lt (Nat.two_pow_pos width) Nat.one_pos⟩

def ofNat (width value : Nat) : Word width :=
  ⟨value % 2 ^ width, Nat.mod_lt _ (Nat.two_pow_pos width)⟩

def saturatingAdd (first : Word width) (second : Nat) : Word width :=
  ⟨min (first + second) (2 ^ width - 1), by
    have := Nat.two_pow_pos width
    omega⟩

def saturatingMul (first : Word width) (second : Nat) : Word width :=
  ⟨min (first * second) (2 ^ width - 1), by
    have := Nat.two_pow_pos width
    omega⟩

def saturatingSub (first : Word width) (second : Nat) : Word width :=
  ⟨first - second, by omega⟩

def checkedSub (first second : Word width) : Option (Word width) :=
  if second ≤ first then some (first.saturatingSub second) else none

def checkedAdd (first : Word width) (second : Nat) : Option (Word width) :=
  if bound : first + second < 2 ^ width then some ⟨first + second, bound⟩ else none

def tryFrom (width value : Nat) : Option (Word width) :=
  if bound : value < 2 ^ width then some ⟨value, bound⟩ else none

def rotateLeft (value : Word width) (amount : Nat) : Word width :=
  ((BitVec.ofFin value).rotateLeft amount).toFin

def xor (first second : Word width) : Word width :=
  (BitVec.ofFin first ^^^ BitVec.ofFin second).toFin

section

variable (first : Word width) (second : Nat)

@[simp] theorem saturatingSub_val : (first.saturatingSub second : Nat) = first - second := rfl

@[simp] theorem saturatingAdd_val :
    (first.saturatingAdd second : Nat) = min (first + second) (2 ^ width - 1) := rfl

@[simp] theorem saturatingMul_val :
    (first.saturatingMul second : Nat) = min (first * second) (2 ^ width - 1) := rfl

theorem le_saturatingAdd : first ≤ first.saturatingAdd second := by
  rw [Fin.le_def, saturatingAdd_val]
  omega

theorem saturatingSub_le : first.saturatingSub second ≤ first := by
  rw [Fin.le_def, saturatingSub_val]
  omega

end

variable (first : Word width)

theorem saturatingSub_anti {less more : Nat} (within : less ≤ more) :
    first.saturatingSub more ≤ first.saturatingSub less := by
  rw [Fin.le_def, saturatingSub_val, saturatingSub_val]
  omega

theorem saturatingAdd_zero : first.saturatingAdd 0 = first := by
  have bound := first.isLt
  refine Fin.ext ?_
  rw [saturatingAdd_val]
  omega

theorem saturatingAdd_saturatingAdd (second third : Nat) :
    (first.saturatingAdd second).saturatingAdd third = first.saturatingAdd (second + third) := by
  refine Fin.ext ?_
  rw [saturatingAdd_val, saturatingAdd_val, saturatingAdd_val]
  omega

theorem eq_of_lt_saturatingAdd_one {first bound : Word width} (within : first ≤ bound)
    (above : bound < first.saturatingAdd 1) : first = bound := by
  rw [Fin.lt_def, saturatingAdd_val] at above
  rw [Fin.le_def] at within
  refine Fin.ext ?_
  omega

theorem saturatingAdd_of_lt (second : Nat) (bound : first + second < 2 ^ width) :
    (first.saturatingAdd second : Nat) = first + second := by
  rw [saturatingAdd_val]
  omega

theorem checkedSub_eq_some {first second difference : Word width} :
    first.checkedSub second = some difference ↔
      second ≤ first ∧ difference = first.saturatingSub second := by
  unfold checkedSub
  split <;> simp_all [eq_comm]

theorem tryFrom_eq_some {value : Nat} {word : Word width} :
    tryFrom width value = some word ↔ value = word.val := by
  unfold tryFrom
  by_cases bound : value < 2 ^ width
  · rw [dif_pos bound, Option.some.injEq, Fin.ext_iff]
  · rw [dif_neg bound]
    refine ⟨fun impossible => (nomatch impossible), fun same => absurd (same ▸ word.isLt) bound⟩

end Word
