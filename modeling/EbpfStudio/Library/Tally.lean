/-
This file models counting by buckets with machine words.

A bucket counts the values of a list that belong to it (`Counts`). The order of the values does not
matter, and sums of buckets count the values up to a bound. For a sorted list these counts say at
which places the values of a bucket stand.
-/

import EbpfStudio.Library.Word

namespace Tally

open List Finset

variable {width : Nat}

def Counts (counts : List (Word width)) (indices : List Nat) : Prop :=
  ∀ index count, counts[index]? = some count → count.val = indices.count index

theorem counts_replicate (size : Nat) : Counts (List.replicate size (0 : Word width)) [] := by
  intro index count found
  rw [getElem?_replicate] at found
  split at found
  · rw [← Option.some.inj found]
    rfl
  · cases found

section Counts

variable {counts : List (Word width)} {indices : List Nat}

theorem Counts.modify (counted : Counts counts indices) (few : indices.length + 1 < 2 ^ width)
    (index : Nat) :
    Counts (counts.modify index fun count => count.saturatingAdd 1) (index :: indices) := by
  intro place count found
  rw [getElem?_modify] at found
  obtain ⟨before, present, rfl⟩ := Option.map_eq_some_iff.mp found
  have known := counted place before present
  have bound : indices.count place ≤ indices.length := count_le_length
  rw [count_cons]
  by_cases same : index = place
  · subst same
    rw [if_pos rfl, if_pos (beq_self_eq_true _), Word.saturatingAdd_of_lt _ _ (by omega), known]
  · rw [if_neg same, if_neg (by simpa using same), Nat.add_zero]
    exact known

theorem Counts.eq_of_perm (counted : Counts counts indices) {others : List (Word width)}
    {otherIndices : List Nat} (counted' : Counts others otherIndices)
    (same : indices.Perm otherIndices) (lengths : counts.length = others.length) :
    counts = others := by
  refine ext_getElem lengths fun place here there => Fin.ext ?_
  rw [counted place _ (getElem?_eq_getElem here),
    counted' place _ (getElem?_eq_getElem there), same.count_eq]

theorem countP_lt_succ (indices : List Nat) (size : Nat) :
    indices.countP (· < size + 1) = indices.countP (· < size) + indices.count size := by
  induction indices with
  | nil => rfl
  | cons index rest hypothesis =>
    simp only [countP_cons, count_cons, hypothesis, decide_eq_true_eq,
      beq_iff_eq]
    split_ifs <;> omega

theorem countP_lt_range (limit size : Nat) :
    (List.range size).countP (· < limit) = min limit size := by
  induction size with
  | zero => simp
  | succ size hypothesis =>
    rw [range_succ, countP_append, hypothesis, countP_singleton]
    split_ifs with below <;> rw [decide_eq_true_eq] at below <;> omega

theorem Counts.sum_take (counted : Counts counts indices) {size : Nat}
    (within : size ≤ counts.length) :
    ((counts.take size).map Fin.val).sum = indices.countP (· < size) := by
  induction size with
  | zero => simp
  | succ size hypothesis =>
    have here : counts[size]? = some counts[size] := getElem?_eq_getElem within
    rw [take_add_one, here, map_append, sum_append,
      hypothesis (Nat.le_of_succ_le within), countP_lt_succ, ← counted size _ here]
    simp

theorem Counts.sum (counted : Counts counts indices)
    (within : ∀ index ∈ indices, index < counts.length) :
    (counts.map Fin.val).sum = indices.length := by
  have all := counted.sum_take (le_refl counts.length)
  rw [take_length] at all
  rw [all, countP_eq_length]
  exact fun index member => decide_eq_true (within index member)

end Counts

section Sorted

variable {Value : Type} [Preorder Value] {sorted : List Value} {property : Value → Bool}

theorem not_of_mem_sorted {first : Value} {rest : List Value}
    (ordered : (first :: rest).Pairwise (· ≤ ·))
    (closed : ∀ first second, first ≤ second → property second = true → property first = true)
    (fails : property first = false) {value : Value} (member : value ∈ first :: rest) :
    ¬ property value = true := by
  intro satisfied
  rcases mem_cons.mp member with rfl | later
  · rw [fails] at satisfied
    cases satisfied
  · rw [closed first value (rel_of_pairwise_cons ordered later) satisfied] at fails
    cases fails

section

variable (ordered : sorted.Pairwise (· ≤ ·))
  (closed : ∀ first second, first ≤ second → property second = true → property first = true)

include ordered closed

theorem getElem_iff_lt_countP {place : Nat} (within : place < sorted.length) :
    property sorted[place] = true ↔ place < sorted.countP property := by
  induction sorted generalizing place with
  | nil => cases within
  | cons first rest hypothesis =>
    cases holds : property first with
    | true =>
      rw [countP_cons_of_pos holds]
      cases place with
      | zero => simp [holds]
      | succ place =>
        rw [getElem_cons_succ, Nat.succ_lt_succ_iff]
        exact hypothesis ordered.of_cons _
    | false =>
      have none : ∀ value ∈ first :: rest, ¬ property value = true := fun value member =>
        not_of_mem_sorted ordered closed holds member
      rw [countP_eq_zero.mpr none]
      exact ⟨fun satisfied => absurd satisfied (none _ (getElem_mem within)), nofun⟩

theorem length_takeWhile_eq_countP :
    (sorted.takeWhile property).length = sorted.countP property := by
  induction sorted with
  | nil => rfl
  | cons first rest hypothesis =>
    rw [takeWhile_cons]
    cases holds : property first with
    | true =>
      rw [if_pos rfl, length_cons, hypothesis ordered.of_cons,
        countP_cons_of_pos holds]
    | false =>
      rw [if_neg Bool.false_ne_true]
      exact (countP_eq_zero.mpr fun value member =>
        not_of_mem_sorted ordered closed holds member).symm

end

end Sorted

theorem sum_add_eq_of_agree {Index : Type} [DecidableEq Index] {indices : Finset Index}
    {f g : Index → Nat} {changed : Index} (member : changed ∈ indices)
    (agree : ∀ index, index ≠ changed → g index = f index) :
    ∑ index ∈ indices, g index + f changed = ∑ index ∈ indices, f index + g changed := by
  have others : ∑ index ∈ indices.erase changed, g index =
      ∑ index ∈ indices.erase changed, f index :=
    sum_congr rfl fun index other => agree index (ne_of_mem_erase other)
  rw [← add_sum_erase indices g member, ← add_sum_erase indices f member, others]
  omega

end Tally
